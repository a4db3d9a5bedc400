import RAGuardian.Ingestion.Service

/-! # The Microsoft Drive plugin

The plugin walks the files of a folder and downloads those whose version is not the one
in the cursor. The new cursor has the version of every file it came to, downloaded or
not. -/

namespace RAGuardian.Ingestion

open Execution

/-! ## Files -/

/-- An item of a drive as Graph lists it. What is missing is empty. -/
structure DriveItem where
  id : String
  name : String
  eTag : String
  cTag : String
  size : Nat
  lastModified : String
  file : Bool
  mimeType : String := ""
  webUrl : String := ""
  parentId : String := ""
  parentDriveId : String := ""

structure DriveConfig where
  driveId : String
  maxFiles : Nat
  filesBounded : 1 ≤ maxFiles ∧ maxFiles ≤ 1000
  maxFileSizeMb : Nat
  sizeBounded : 1 ≤ maxFileSizeMb ∧ maxFileSizeMb ≤ 100
  includeExtensions : List String

/-- What the plugin meets in one sync: whether there is a token, the items in the order
of the walk, the error that ends the walk, if there is one, the downloads, and the
clock. -/
structure Drive where
  connected : Except String Unit
  listing : List DriveItem
  broken : Option String
  download : String → Except String (List UInt8)
  now : String

structure DriveCursor where
  items : Dictionary String String
  lastSync : String
  listed : Nat

/-- `cursor_key` -/
def DriveItem.key (item : DriveItem) : String :=
  orElse item.id item.name

/-- `eTag`, or else `cTag` -/
def DriveItem.etag (item : DriveItem) : String :=
  orElse item.eTag item.cTag

/-- `cursor_value` -/
def DriveItem.version (item : DriveItem) : String :=
  orElse item.etag item.lastModified

section

variable (library : Library) (config : DriveConfig)

/-- The item is a file of an included type. -/
def DriveItem.Wanted (item : DriveItem) : Prop :=
  item.file = true ∧ library.extension item.name ∈ config.includeExtensions

instance (item : DriveItem) : Decidable (item.Wanted library config) :=
  inferInstanceAs (Decidable (_ ∧ _))

/-- `_item_from_drive_item` -/
def itemFromDriveItem (item : DriveItem) (content : List UInt8) : IngestionItem :=
  let name := orElse item.name (orElse item.id "drive-item")
  let extension := library.extension item.name
  { content :=
      if extension = "txt" ∨ extension = "md" then library.decode content else ""
    contentBytes := some content
    filename := name
    extension := extension
    remoteId := item.id
    updatedAt := item.lastModified
    metadata := ((((((((((((Dictionary.empty.set "source_type" "microsoft_drive").set
      "ingestion_plugin" "microsoft_drive").set "remote_id" item.id).set
      "remote_url" item.webUrl).set "remote_updated_at" item.lastModified).set
      "drive_id" (orElse config.driveId item.parentDriveId)).set "item_id" item.id).set
      "parent_id" item.parentId).set "etag" item.etag).set "file_name" name).set
      "mime_type" item.mimeType).set "size" (toString item.size)) }

/-- `download_item` -/
def Drive.downloadItem (drive : Drive) (itemId : String) : Except String (List UInt8) :=
  if itemId = "" then .error "Drive item id mancante" else drive.download itemId

structure Walked where
  nextCursor : Dictionary String String := .empty
  items : List IngestionItem := []
  errors : List SyncError := []
  listed : Nat := 0

variable (drive : Drive) (seen : Dictionary String String)

/-- One turn of the loop over the items. -/
def Walked.next (walked : Walked) (item : DriveItem) : Walked :=
  let walked := { walked with listed := walked.listed + 1 }
  if item.Wanted library config then
    let walked := { walked with nextCursor := walked.nextCursor.set item.key item.version }
    if seen.get? item.key = some item.version then walked
    else if config.maxFileSizeMb * 1024 * 1024 < item.size then
      { walked with
        errors := walked.errors ++ [⟨item.key, "file exceeds max_file_size_mb"⟩] }
    else
      match drive.downloadItem item.id with
      | .error error => { walked with errors := walked.errors ++ [⟨item.key, error⟩] }
      | .ok content =>
          { walked with items := walked.items ++ [itemFromDriveItem library config item content] }
  else walked

/-- The loop over the items, which stops at the limit. -/
def walk : List DriveItem → Walked → Except String Walked
  | [], walked =>
      match drive.broken with
      | some error => .error error
      | none => .ok walked
  | item :: rest, walked =>
      if config.maxFiles ≤ walked.items.length then .ok walked
      else walk rest (walked.next library config drive seen item)

/-- `MicrosoftDriveIngester.sync` -/
def driveSync (drive : Drive) (cursor : DriveCursor) :
    Except String (SyncResult DriveCursor) := do
  drive.connected
  let walked ← walk library config drive cursor.items drive.listing {}
  pure ⟨walked.items, ⟨walked.nextCursor, drive.now, walked.listed⟩, walked.errors⟩

def driveIngester : Ingester Drive DriveCursor where
  pluginId := "microsoft_drive"
  sync := driveSync library config

end

/-! ## Careful syncs -/

section

variable (library : Library) (config : DriveConfig)

/-- A data source and the documents received, after some syncs. -/
def driveRun (source : Source DriveCursor) (syncs : List (Sync Drive)) : State DriveCursor :=
  run (fun sync state => (syncDataSource (driveIngester library config) sync state).2)
    ⟨source, []⟩ syncs

/-- The version of a drive document. -/
def Document.version (document : Document) : String :=
  orElse ((document.metadata.get? "etag").getD "")
    ((document.metadata.get? "remote_updated_at").getD "")

/-- The version of the file has been indexed or recognised as a duplicate. -/
def FileReceived (received : List Document) (key version : String) : Prop :=
  ∃ document ∈ received, document.remoteId = key ∧ document.version = version

/-- A file that passes the filters is passed over by a sync, because its version is the
one in the cursor, only if this version has been received. -/
def FilesOffered (source : Source DriveCursor) (syncs : List (Sync Drive)) : Prop :=
  ∀ past sync, past ++ [sync] <+: syncs → ∀ item ∈ sync.remote.listing,
    item.Wanted library config →
    (driveRun library config source past).source.cursor.items.get? item.key =
      some item.version →
    FileReceived (driveRun library config source past).received item.id item.version

/-- No file the loop comes to fails, unless it is passed over: it is small enough, it is
downloaded, and its document is accepted. -/
def FilesAccepted (drive : Drive) (indexing : Indexing) (seen : Dictionary String String) :
    List DriveItem → Nat → Prop
  | [], _ => True
  | item :: rest, taken => taken < config.maxFiles →
      if item.Wanted library config ∧ seen.get? item.key ≠ some item.version then
        item.size ≤ config.maxFileSizeMb * 1024 * 1024 ∧
          (∃ content, drive.downloadItem item.id = .ok content) ∧ indexing.Accepts item.id ∧
          FilesAccepted drive indexing seen rest (taken + 1)
      else FilesAccepted drive indexing seen rest taken

/-- All files have ids, as Graph gives them. In every sync that completes no file
fails. -/
structure FilesCareful (source : Source DriveCursor) (syncs : List (Sync Drive)) : Prop where
  identified : ∀ sync ∈ syncs, ∀ item ∈ sync.remote.listing, item.Wanted library config →
    item.id ≠ ""
  accepted : ∀ past sync, past ++ [sync] <+: syncs → ∀ summary,
    (syncDataSource (driveIngester library config) sync
      (driveRun library config source past)).1 = .ok summary →
    FilesAccepted library config sync.remote sync.indexing
      (driveRun library config source past).source.cursor.items sync.remote.listing 0

variable {library config} {drive : Drive} {indexing : Indexing}
  {seen : Dictionary String String}

/-! ## What a walk yields -/

/-- Every version in the new cursor is in the old one or that of an item the walk has
downloaded and the indexer accepts. -/
def Accounted (pluginId sourceId : String) (indexing : Indexing)
    (seen : Dictionary String String) (walked : Walked) : Prop :=
  ∀ key version, walked.nextCursor.get? key = some version → seen.get? key = some version ∨
    ∃ item ∈ walked.items, indexing.AcceptsAll item ∧ item.remoteId = key ∧
      (itemDocument sourceId pluginId item).version = version

theorem itemDocument_version (sourceId pluginId : String) (item : DriveItem)
    (content : List UInt8) :
    (itemDocument sourceId pluginId
      (itemFromDriveItem library config item content)).version = item.version := by
  simp [Document.version, itemDocument, itemMetadata, itemFromDriveItem, Dictionary.get?_set,
    DriveItem.version]

theorem next_items_subset (walked : Walked) (item : DriveItem) :
    walked.items ⊆ (walked.next library config drive seen item).items := by
  rw [Walked.next]
  split
  · dsimp only
    split
    · exact List.Subset.refl _
    · split
      · exact List.Subset.refl _
      · split
        · exact List.Subset.refl _
        · exact List.subset_append_left _ _
  · exact List.Subset.refl _

theorem next_nextCursor (walked : Walked) {item : DriveItem}
    (wanted : item.Wanted library config) :
    (walked.next library config drive seen item).nextCursor =
      walked.nextCursor.set item.key item.version := by
  rw [Walked.next, if_pos wanted]
  dsimp only
  split
  · rfl
  · split
    · rfl
    · split
      · rfl
      · rfl

/-- A turn of the loop that finds the item in the cursor, or downloads it. -/
theorem Accounted.next {sourceId pluginId : String} {walked : Walked} {item : DriveItem}
    (accounted : Accounted pluginId sourceId indexing seen walked)
    (wanted : item.Wanted library config)
    (own : seen.get? item.key = some item.version ∨
      ∃ yielded ∈ (walked.next library config drive seen item).items,
        indexing.AcceptsAll yielded ∧ yielded.remoteId = item.key ∧
          (itemDocument sourceId pluginId yielded).version = item.version) :
    Accounted pluginId sourceId indexing seen (walked.next library config drive seen item) := by
  intro key version present
  rw [next_nextCursor walked wanted, Dictionary.get?_set] at present
  split at present
  · rename_i same
    cases present
    rw [same]
    exact own
  · rcases accounted key version present with passed | ⟨yielded, member, accepts⟩
    · exact .inl passed
    · exact .inr ⟨yielded, next_items_subset walked item member, accepts⟩

theorem walk_accounted {sourceId pluginId : String} {listing : List DriveItem}
    {walked final : Walked}
    (identified : ∀ item ∈ listing, item.Wanted library config → item.id ≠ "")
    (accepted : FilesAccepted library config drive indexing seen listing walked.items.length)
    (accounted : Accounted pluginId sourceId indexing seen walked)
    (ended : walk library config drive seen listing walked = .ok final) :
    Accounted pluginId sourceId indexing seen final := by
  induction listing generalizing walked with
  | nil =>
      rw [walk] at ended
      split at ended
      · cases ended
      · cases ended
        exact accounted
  | cons item rest induction =>
      have restIdentified : ∀ item ∈ rest, item.Wanted library config → item.id ≠ "" :=
        fun other member => identified other (List.mem_cons_of_mem _ member)
      rw [walk] at ended
      split at ended
      · cases ended
        exact accounted
      · rename_i room
        have accepted := accepted (Nat.lt_of_not_le room)
        by_cases wanted : item.Wanted library config
        · by_cases passed : seen.get? item.key = some item.version
          · rw [if_neg (fun both => both.2 passed)] at accepted
            have same : (walked.next library config drive seen item).items = walked.items := by
              rw [Walked.next, if_pos wanted]
              simp only [if_pos passed]
            apply induction restIdentified _ (accounted.next wanted (.inl passed)) ended
            rw [same]
            exact accepted
          · rw [if_pos ⟨wanted, passed⟩] at accepted
            rcases accepted with ⟨small, ⟨content, downloaded⟩, accepts, accepted⟩
            have added : (walked.next library config drive seen item).items =
                walked.items ++ [itemFromDriveItem library config item content] := by
              rw [Walked.next, if_pos wanted]
              simp only [if_neg passed, if_neg (Nat.not_lt_of_le small), downloaded]
            apply induction restIdentified _ (accounted.next wanted (.inr _)) ended
            · rw [added, List.length_append]
              exact accepted
            · refine ⟨itemFromDriveItem library config item content, ?_, ?_, ?_, ?_⟩
              · rw [added]
                exact List.mem_append_right _ List.mem_cons_self
              · exact ⟨accepts, by rintro attachment ⟨⟩⟩
              · rw [DriveItem.key, orElse, if_neg (identified item List.mem_cons_self wanted)]
                rfl
              · exact itemDocument_version sourceId pluginId item content
        · rw [if_neg (fun both => wanted both.1)] at accepted
          apply induction restIdentified _ _ ended
          · rw [Walked.next, if_neg wanted]
            exact accepted
          · rw [Walked.next, if_neg wanted]
            exact accounted

/-! ## Runs -/

variable {source : Source DriveCursor} {syncs : List (Sync Drive)}

theorem FilesCareful.before {past : List (Sync Drive)}
    (careful : FilesCareful library config source syncs) (within : past <+: syncs) :
    FilesCareful library config source past where
  identified sync member := careful.identified sync (within.subset member)
  accepted earlier sync early := careful.accepted earlier sync (early.trans within)

theorem driveSync_ok {cursor : DriveCursor} {result : SyncResult DriveCursor}
    (fetched : driveSync library config drive cursor = .ok result) :
    ∃ walked, walk library config drive cursor.items drive.listing {} = .ok walked ∧
      result.items = walked.items ∧ result.cursor.items = walked.nextCursor := by
  rw [driveSync] at fetched
  cases connected : drive.connected with
  | error error =>
      rw [connected] at fetched
      cases fetched
  | ok _ =>
      rw [connected] at fetched
      change (walk library config drive cursor.items drive.listing {} >>= _) = _ at fetched
      cases walks : walk library config drive cursor.items drive.listing {} with
      | error error =>
          rw [walks] at fetched
          cases fetched
      | ok walked =>
          rw [walks] at fetched
          cases fetched
          exact ⟨walked, rfl, rfl, rfl⟩

/-- All versions in the cursor have been received. -/
theorem driveRun_received (start : source.cursor.items = .empty)
    (careful : FilesCareful library config source syncs) :
    (driveRun library config source syncs).source.id = source.id ∧
      ∀ key version,
        (driveRun library config source syncs).source.cursor.items.get? key = some version →
        FileReceived (driveRun library config source syncs).received key version := by
  induction syncs using List.reverseRecOn with
  | nil =>
      refine ⟨rfl, ?_⟩
      intro key version present
      change source.cursor.items.get? key = some version at present
      rw [start] at present
      cases present
  | append_singleton past sync induction =>
      have received := induction (careful.before (List.prefix_append _ _))
      have identified := careful.identified sync (List.mem_append_right _ List.mem_cons_self)
      have accepted := careful.accepted past sync List.prefix_rfl
      rw [driveRun, run_concat]
      change (syncDataSource (driveIngester library config) sync
        (driveRun library config source past)).2.source.id = source.id ∧ ∀ key version,
        (syncDataSource (driveIngester library config) sync
          (driveRun library config source past)).2.source.cursor.items.get? key = some version →
        FileReceived (syncDataSource (driveIngester library config) sync
          (driveRun library config source past)).2.received key version
      have outcome := synced (driveIngester library config) sync
        (driveRun library config source past)
      generalize driveRun library config source past = state at *
      generalize syncDataSource (driveIngester library config) sync state = result at *
      rcases received with ⟨id, received⟩
      cases outcome with
      | broken error documents kept =>
          refine ⟨id, ?_⟩
          intro key version present
          rcases received key version present with ⟨document, member, same⟩
          exact ⟨document, kept member, same⟩
      | completed summary result after sameId fetched cursor kept delivers =>
          refine ⟨sameId.trans id, ?_⟩
          intro key version present
          rcases driveSync_ok fetched with ⟨walked, walks, items, nextCursor⟩
          have fresh : Accounted "microsoft_drive" state.source.id sync.indexing
              state.source.cursor.items {} := by
            intro key version present
            cases present
          have accounted := walk_accounted identified (accepted summary rfl) fresh walks
          change after.source.cursor.items.get? key = some version at present
          rw [cursor, nextCursor] at present
          rcases accounted key version present with passed | ⟨item, member, accepts, named, same⟩
          · rcases received key version passed with ⟨document, member, same⟩
            exact ⟨document, kept member, same⟩
          · rw [← items] at member
            have delivered := delivers item member accepts
            exact ⟨_, delivered.body, named, same⟩

/-- Careful syncs lose no file. -/
theorem run_files_offered (start : source.cursor.items = .empty)
    (careful : FilesCareful library config source syncs) :
    FilesOffered library config source syncs := by
  intro past sync within item member wanted passed
  have careful := careful.before within
  have named := careful.identified sync (List.mem_append_right _ List.mem_cons_self) item member
    wanted
  have received := (driveRun_received start (careful.before (List.prefix_append _ _))).2
    item.key item.version passed
  rw [DriveItem.key, orElse, if_neg named] at received
  exact received

end

end RAGuardian.Ingestion
