import Mathlib.Algebra.GroupWithZero.Nat
import RAGuardian.Foundation.Dictionary
import RAGuardian.Foundation.Execution
import RAGuardian.Foundation.Text
import Mathlib.Data.List.Infix

/-! # Syncs of a data source

A plugin fetches the items of a remote source from a stored cursor on; the service
stores and indexes them, one after the other, and saves the new cursor. What the
remote source, the file system and the indexer answer is given with the sync. -/

namespace RAGuardian.Ingestion

/-! ## Texts -/

/-- What the plugins use of the language's library. -/
structure Library where
  lower : String → String
  /-- Whether the first date is before the second, if both are dates. -/
  before : String → String → Option Bool
  htmlToText : String → String
  decode : List UInt8 → String

/-- `needle in text` -/
def contains (needle text : String) : Bool :=
  decide (needle.toList <:+: text.toList)

/-- `value or default` -/
def orElse (value default : String) : String :=
  if value = "" then default else value

/-- `filename.rsplit(".", 1)[-1].lower() if "." in filename else ""` -/
def Library.extension (library : Library) (filename : String) : String :=
  if contains "." filename then
    library.lower (String.ofList
      (filename.toList.reverse.takeWhile (· ≠ '.')).reverse)
  else ""

/-! ## Items -/

abbrev Metadata := Dictionary String String

structure IngestionAttachment where
  filename : String
  extension : String
  remoteId : String
  updatedAt : String
  metadata : Metadata
  content : List UInt8

structure IngestionItem where
  content : String
  filename : String
  extension : String
  remoteId : String
  contentBytes : Option (List UInt8) := none
  updatedAt : String
  metadata : Metadata
  attachments : List IngestionAttachment := []

structure SyncError where
  remoteId : String
  error : String
deriving DecidableEq, Repr

structure SyncResult (Cursor : Type) where
  items : List IngestionItem
  cursor : Cursor
  errors : List SyncError

/-- A plugin: what it is called, and its `sync` on the answers of a remote source. -/
structure Ingester (Remote Cursor : Type) where
  pluginId : String
  sync : Remote → Cursor → Except String (SyncResult Cursor)

/-! ## Indexing -/

inductive IndexOutcome
  | indexed
  | duplicate
  | failed (error : String)
  | leaseLost
deriving DecidableEq, Repr

/-- What happens to the documents of a sync: the error of storing one, if there is
one, and otherwise what `index_staged_document` makes of it. -/
structure Indexing where
  materialize : String → Option String
  index : String → IndexOutcome

/-- A document that was given to the indexer. -/
structure Document where
  remoteId : String
  metadata : Metadata

/-- The document of the remote id is stored, and indexed or recognised as a duplicate. -/
def Indexing.Accepts (indexing : Indexing) (remoteId : String) : Prop :=
  indexing.materialize remoteId = none ∧
    (indexing.index remoteId = .indexed ∨ indexing.index remoteId = .duplicate)

structure Progress where
  received : List Document
  indexed : Nat := 0
  duplicates : Nat := 0
  processed : Nat := 0
  errors : List SyncError

/-- Store and index a document. A lost lease ends the sync. -/
def Indexing.attempt (indexing : Indexing) (document : Document) (progress : Progress) :
    Except Progress Progress :=
  let failed (error : String) : Progress :=
    { progress with
      errors := progress.errors ++ [⟨document.remoteId, error⟩]
      processed := progress.processed + 1 }
  match indexing.materialize document.remoteId with
  | some error => .ok (failed error)
  | none =>
      match indexing.index document.remoteId with
      | .indexed => .ok { progress with
          received := progress.received ++ [document]
          indexed := progress.indexed + 1
          processed := progress.processed + 1 }
      | .duplicate => .ok { progress with
          received := progress.received ++ [document]
          duplicates := progress.duplicates + 1
          processed := progress.processed + 1 }
      | .failed error => .ok (failed error)
      | .leaseLost => .error progress

/-! ## The service -/

/-- `DOCUMENT_INDEX_EXTENSIONS` -/
def documentIndexExtensions : List String :=
  ["pdf", "txt", "md", "csv"]

/-- `_safe_extension` -/
def safeExtension (extension : String) : String :=
  let bare := (Text.lower extension).toList.dropWhile (· = '.')
  if bare ≠ [] ∧ bare.length ≤ 12 ∧
      bare.all (fun character => ('a' ≤ character && character ≤ 'z') ||
        ('0' ≤ character && character ≤ '9')) then
    String.ofList bare
  else "txt"

/-- `_item_metadata` -/
def itemMetadata (sourceId pluginId : String) (item : IngestionItem) : Metadata :=
  ((((item.metadata.set "source_type" ((item.metadata.get? "source_type").getD "external")).set
    "ingestion_plugin" pluginId).set "data_source_id" sourceId).set
    "remote_id" item.remoteId).set "remote_updated_at" item.updatedAt

/-- `{**item_metadata, **attachment.metadata, …}` -/
def attachmentMetadata (sourceId pluginId : String) (item : IngestionItem)
    (attachment : IngestionAttachment) : Metadata :=
  ((attachment.metadata.entries.foldl (fun metadata entry => metadata.set entry.1 entry.2)
    (itemMetadata sourceId pluginId item)).set "ingestion_plugin" pluginId).set
    "data_source_id" sourceId

/-- `attachment.remote_id or f"{parent.remote_id}:{attachment.filename}"` -/
def attachmentRemoteId (item : IngestionItem) (attachment : IngestionAttachment) : String :=
  if attachment.remoteId = "" then item.remoteId ++ ":" ++ attachment.filename
  else attachment.remoteId

section

variable (sourceId pluginId : String) (indexing : Indexing)

def itemDocument (item : IngestionItem) : Document where
  remoteId := item.remoteId
  metadata := itemMetadata sourceId pluginId item

def attachmentDocument (item : IngestionItem) (attachment : IngestionAttachment) :
    Document where
  remoteId := attachmentRemoteId item attachment
  metadata := attachmentMetadata sourceId pluginId item attachment

/-- The loop over the attachments of an item. Those that cannot be indexed are
skipped. -/
def processAttachments (item : IngestionItem) :
    List IngestionAttachment → Progress → Except Progress Progress
  | [], progress => .ok progress
  | attachment :: rest, progress => do
      let progress ←
        if safeExtension attachment.extension ∉ documentIndexExtensions then
          .ok { progress with processed := progress.processed + 1 }
        else
          indexing.attempt (attachmentDocument sourceId pluginId item attachment) progress
      processAttachments item rest progress

/-- The loop over the items. -/
def processItems : List IngestionItem → Progress → Except Progress Progress
  | [], progress => .ok progress
  | item :: rest, progress => do
      let progress ← indexing.attempt (itemDocument sourceId pluginId item) progress
      let progress ← processAttachments sourceId pluginId indexing item item.attachments progress
      processItems rest progress

end

/-- A data source in the settings. -/
structure Source (Cursor : Type) where
  id : String
  enabled : Bool
  cursor : Cursor
  lastError : String := ""
  lastSyncStatus : String := ""

/-- A data source, and the documents the indexer has accepted. -/
structure State (Cursor : Type) where
  source : Source Cursor
  received : List Document

/-- What a sync meets: the remote source, what happens to the documents, and the error
of saving the settings, if there is one. -/
structure Sync (Remote : Type) where
  remote : Remote
  indexing : Indexing
  saving : Option String := none

structure Summary where
  status : String
  items : Nat
  processed : Nat
  total : Nat
  indexed : Nat
  duplicates : Nat
  errors : List SyncError
deriving DecidableEq, Repr

/-- `sync_data_source` -/
def syncDataSource {Remote Cursor : Type} (ingester : Ingester Remote Cursor)
    (sync : Sync Remote) (state : State Cursor) : Except String Summary × State Cursor :=
  if state.source.enabled = false then (.error "Data source disabilitata", state)
  else
    match ingester.sync sync.remote state.source.cursor with
    | .error error => (.error error, state)
    | .ok result =>
        match processItems state.source.id ingester.pluginId sync.indexing result.items
            { received := state.received, errors := result.errors } with
        | .error progress =>
            (.error "DistributedLockLeaseLostError", { state with received := progress.received })
        | .ok progress =>
            match sync.saving with
            | some error => (.error error, { state with received := progress.received })
            | none =>
                let status :=
                  if progress.errors = [] then "completed" else "completed_with_errors"
                (.ok {
                  status := status
                  items := result.items.length
                  processed := progress.processed
                  total := result.items.length +
                    (result.items.map (·.attachments.length)).sum
                  indexed := progress.indexed
                  duplicates := progress.duplicates
                  errors := progress.errors },
                { received := progress.received
                  source := { state.source with
                    cursor := result.cursor
                    lastError :=
                      if progress.errors = [] then ""
                      else toString progress.errors.length ++ " errore/i durante la sync"
                    lastSyncStatus := status } })

/-! ## What a sync keeps -/

/-- The progress of a loop, whether it came to its end or not. -/
def reached : Except Progress Progress → Progress
  | .ok progress => progress
  | .error progress => progress

section

variable {sourceId pluginId : String} {indexing : Indexing}

theorem attempt_keeps (document : Document) (before : Progress) :
    before.received ⊆ (reached (indexing.attempt document before)).received := by
  rw [Indexing.attempt]
  split
  · exact List.Subset.refl _
  · split
    · exact List.subset_append_left _ _
    · exact List.subset_append_left _ _
    · exact List.Subset.refl _
    · exact List.Subset.refl _

theorem attempt_accepts {document : Document} {before after : Progress}
    (attempted : indexing.attempt document before = .ok after)
    (accepts : indexing.Accepts document.remoteId) : document ∈ after.received := by
  rcases accepts with ⟨stored, indexed | duplicate⟩
  · rw [Indexing.attempt, stored, indexed] at attempted
    cases attempted
    exact List.mem_append_right _ List.mem_cons_self
  · rw [Indexing.attempt, stored, duplicate] at attempted
    cases attempted
    exact List.mem_append_right _ List.mem_cons_self

theorem processAttachments_keeps (item : IngestionItem) (attachments : List IngestionAttachment)
    (before : Progress) : before.received ⊆
      (reached (processAttachments sourceId pluginId indexing item attachments
        before)).received := by
  induction attachments generalizing before with
  | nil => exact List.Subset.refl _
  | cons attachment rest induction =>
      rw [processAttachments]
      split
      · exact induction { before with processed := before.processed + 1 }
      · have keeps := @attempt_keeps indexing
          (attachmentDocument sourceId pluginId item attachment) before
        cases attempted : indexing.attempt
            (attachmentDocument sourceId pluginId item attachment) before with
        | error after =>
            rw [attempted] at keeps
            exact keeps
        | ok after =>
            rw [attempted] at keeps
            exact List.Subset.trans keeps (induction after)

theorem processAttachments_accepts {item : IngestionItem}
    {attachments : List IngestionAttachment} {before after : Progress}
    (processed : processAttachments sourceId pluginId indexing item attachments before = .ok after)
    {attachment : IngestionAttachment} (member : attachment ∈ attachments)
    (supported : safeExtension attachment.extension ∈ documentIndexExtensions)
    (accepts : indexing.Accepts (attachmentRemoteId item attachment)) :
    attachmentDocument sourceId pluginId item attachment ∈ after.received := by
  induction attachments generalizing before with
  | nil => cases member
  | cons first rest induction =>
      rw [processAttachments] at processed
      split at processed
      · rename_i unsupported
        rcases List.mem_cons.mp member with rfl | later
        · exact absurd supported unsupported
        · exact induction processed later
      · cases attempted : indexing.attempt
            (attachmentDocument sourceId pluginId item first) before with
        | error lost =>
            rw [attempted] at processed
            cases processed
        | ok middle =>
            rw [attempted] at processed
            change processAttachments sourceId pluginId indexing item rest middle = .ok after
              at processed
            rcases List.mem_cons.mp member with rfl | later
            · have keeps := @processAttachments_keeps sourceId pluginId indexing item rest middle
              rw [processed] at keeps
              exact keeps (attempt_accepts attempted accepts)
            · exact induction processed later

theorem processItems_keeps (items : List IngestionItem) (before : Progress) :
    before.received ⊆
      (reached (processItems sourceId pluginId indexing items before)).received := by
  induction items generalizing before with
  | nil => exact List.Subset.refl _
  | cons item rest induction =>
      rw [processItems]
      have keeps := @attempt_keeps indexing (itemDocument sourceId pluginId item)
        before
      cases attempted : indexing.attempt (itemDocument sourceId pluginId item) before with
      | error after =>
          rw [attempted] at keeps
          exact keeps
      | ok middle =>
          rw [attempted] at keeps
          have attached := @processAttachments_keeps sourceId pluginId indexing item item.attachments middle
          change before.received ⊆ (reached (processAttachments sourceId pluginId indexing item
            item.attachments middle >>= processItems sourceId pluginId indexing rest)).received
          cases processed : processAttachments sourceId pluginId indexing item item.attachments
              middle with
          | error after =>
              rw [processed] at attached
              exact List.Subset.trans keeps attached
          | ok after =>
              rw [processed] at attached
              exact List.Subset.trans keeps (List.Subset.trans attached (induction after))

/-- The item, and its attachments of an indexed type, have been received. -/
structure Delivered (sourceId pluginId : String) (item : IngestionItem)
    (received : List Document) : Prop where
  body : itemDocument sourceId pluginId item ∈ received
  attachments : ∀ attachment ∈ item.attachments,
    safeExtension attachment.extension ∈ documentIndexExtensions →
      attachmentDocument sourceId pluginId item attachment ∈ received

/-- All documents of the item are accepted. -/
structure Indexing.AcceptsAll (indexing : Indexing) (item : IngestionItem) : Prop where
  body : indexing.Accepts item.remoteId
  attachments : ∀ attachment ∈ item.attachments,
    safeExtension attachment.extension ∈ documentIndexExtensions →
      indexing.Accepts (attachmentRemoteId item attachment)

theorem Delivered.mono {item : IngestionItem} {earlier later : List Document}
    (delivered : Delivered sourceId pluginId item earlier) (kept : earlier ⊆ later) :
    Delivered sourceId pluginId item later where
  body := kept delivered.body
  attachments attachment member supported :=
    kept (delivered.attachments attachment member supported)

theorem processItems_delivers {items : List IngestionItem} {before after : Progress}
    (processed : processItems sourceId pluginId indexing items before = .ok after)
    {item : IngestionItem} (member : item ∈ items) (accepts : indexing.AcceptsAll item) :
    Delivered sourceId pluginId item after.received := by
  induction items generalizing before with
  | nil => cases member
  | cons first rest induction =>
      rw [processItems] at processed
      cases attempted : indexing.attempt (itemDocument sourceId pluginId first) before with
      | error lost =>
          rw [attempted] at processed
          cases processed
      | ok middle =>
          rw [attempted] at processed
          change (processAttachments sourceId pluginId indexing first first.attachments middle >>=
            processItems sourceId pluginId indexing rest) = .ok after at processed
          cases attached : processAttachments sourceId pluginId indexing first
              first.attachments middle with
          | error lost =>
              rw [attached] at processed
              cases processed
          | ok last =>
              rw [attached] at processed
              change processItems sourceId pluginId indexing rest last = .ok after at processed
              rcases List.mem_cons.mp member with rfl | later
              · have keptItems := @processItems_keeps sourceId pluginId indexing rest last
                rw [processed] at keptItems
                have keptAttachments := @processAttachments_keeps sourceId pluginId indexing item item.attachments middle
                rw [attached] at keptAttachments
                constructor
                · exact keptItems (keptAttachments (attempt_accepts attempted accepts.body))
                · intro attachment member supported
                  exact keptItems (processAttachments_accepts attached member supported
                    (accepts.attachments attachment member supported))
              · exact induction processed later

end

/-! ## What a sync does -/

/-- A sync keeps what was received. If it does not complete it keeps the cursor, and
otherwise it saves the new cursor after it has delivered what is accepted. -/
inductive Synced {Remote Cursor : Type} (ingester : Ingester Remote Cursor) (sync : Sync Remote)
    (before : State Cursor) : Except String Summary × State Cursor → Prop
  | broken (error : String) (received : List Document) (kept : before.received ⊆ received) :
      Synced ingester sync before (.error error, { before with received := received })
  | completed (summary : Summary) (result : SyncResult Cursor) (after : State Cursor)
      (id : after.source.id = before.source.id)
      (fetched : ingester.sync sync.remote before.source.cursor = .ok result)
      (cursor : after.source.cursor = result.cursor)
      (kept : before.received ⊆ after.received)
      (delivers : ∀ item ∈ result.items, sync.indexing.AcceptsAll item →
        Delivered before.source.id ingester.pluginId item after.received) :
      Synced ingester sync before (.ok summary, after)

theorem synced {Remote Cursor : Type} (ingester : Ingester Remote Cursor) (sync : Sync Remote)
    (state : State Cursor) :
    Synced ingester sync state (syncDataSource ingester sync state) := by
  rw [syncDataSource]
  split
  · exact .broken _ state.received (List.Subset.refl _)
  · split
    · exact .broken _ state.received (List.Subset.refl _)
    · rename_i result fetched
      have kept := @processItems_keeps state.source.id ingester.pluginId sync.indexing result.items
        { received := state.received, errors := result.errors }
      split
      · rename_i progress processed
        rw [processed] at kept
        exact .broken _ progress.received kept
      · rename_i progress processed
        rw [processed] at kept
        split
        · exact .broken _ progress.received kept
        · exact .completed _ result _ rfl fetched rfl kept fun item member accepts =>
            processItems_delivers processed member accepts

end RAGuardian.Ingestion
