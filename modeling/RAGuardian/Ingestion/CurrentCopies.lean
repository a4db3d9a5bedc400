import RAGuardian.Documents.Outcomes
import RAGuardian.Foundation.Latest
import RAGuardian.Ingestion.Storage

/-! # One current copy of a remote item

A remote item keeps its id while its name and its content change. The file it is stored
in carries a hash of the id and the name. -/

namespace RAGuardian.Ingestion

open Documents (World Entry Parser)
open Latest

/-! ## Syncs -/

/-- What a call of the indexer draws and meets. -/
structure Draw where
  /-- `uuid.uuid4().hex`, for the staged file and for the backup. -/
  stagedUnique : String
  unique : String
  now : String
  indexProfile : String
  faults : Documents.Faults := {}

/-- Metadata with texts as values. -/
def scalars (metadata : Metadata) : Documents.Metadata where
  entries := metadata.entries.map fun entry => (entry.1, .text entry.2)
  distinct := by
    rw [List.map_map]
    exact metadata.distinct

/-- Where the snapshots of an upload folder are stored, and how they are parsed. -/
structure Storage where
  naming : Naming
  uploadFolder : String
  parser : Parser

section

variable (storage : Storage)

/-- Where a document is stored. -/
def Storage.path (delivery : Delivery) : String :=
  delivery.path storage.naming storage.uploadFolder

def Storage.filename (delivery : Delivery) : String :=
  delivery.filename storage.naming

/-- The call of `index_staged_document` for a document. -/
def Storage.request (delivery : Delivery) (draw : Draw) : Documents.Request where
  uploadFolder := storage.uploadFolder
  filename := storage.filename delivery
  filePath := storage.path delivery
  stagedFilePath := delivery.stagedPath storage.naming storage.uploadFolder draw.stagedUnique
  extension := safeExtension delivery.extension
  extraMetadata := scalars delivery.metadata
  indexProfile := draw.indexProfile
  now := draw.now
  unique := draw.unique

/-- Store a document and index it. There is no result if the call fails or a name drawn
for a temporary file is in use. -/
def Storage.deliver (received : Delivery × Draw) (world : World) : Option World :=
  let request := storage.request received.1 received.2
  if world.isFile request.stagedFilePath ∨ world.isFile request.backupPath ∨
      request.backupPath = request.stagedFilePath then none
  else
    match Documents.indexStagedDocument storage.parser received.2.faults request
        (materialize storage.naming storage.uploadFolder received.1 received.2.stagedUnique
          world) with
    | .ok _ next => some next
    | .error _ _ => none

/-- The documents of a run of `sync_data_source`, one after the other. -/
def Storage.deliverAll (received : List (Delivery × Draw)) (world : World) : Option World :=
  received.foldlM (fun world received => storage.deliver received world) world

end

/-- A run of `sync_data_source`: the items the plugin has fetched, and what the calls of
the indexer draw. -/
structure SyncRun where
  sourceId : String
  pluginId : String
  items : List IngestionItem
  draws : Nat → Draw

def SyncRun.deliveries (sync : SyncRun) : List (Delivery × Draw) :=
  (sync.items.flatMap (itemDeliveries sync.sourceId sync.pluginId)).zipIdx.map
    fun (delivery, index) => (delivery, sync.draws index)

/-- The documents of the runs, in the order in which they are delivered. -/
def delivered (syncs : List SyncRun) : List (Delivery × Draw) :=
  syncs.flatMap SyncRun.deliveries

/-! ## What a delivery leaves -/

/-- Keys under which the indexer stores what it knows of a document itself. -/
def indexerKeys : List String :=
  ["source", "document_id", "filename", "path", "status"]

/-- The metadata name the remote item, and leave the keys of the indexer alone. -/
structure Delivery.Plain (delivery : Delivery) : Prop where
  source : delivery.metadata.get? "data_source_id" = some delivery.sourceId
  remote : delivery.metadata.get? "remote_id" = some delivery.remoteId
  own : ∀ key ∈ indexerKeys, delivery.metadata.get? key = none

/-- The plugin leaves the keys of the indexer alone, and gives the metadata of an
attachment its remote id. -/
structure SyncRun.Plain (sync : SyncRun) : Prop where
  items : ∀ item ∈ sync.items, ∀ key ∈ indexerKeys, item.metadata.get? key = none
  attachments : ∀ item ∈ sync.items, ∀ attachment ∈ item.attachments,
    (∀ key ∈ indexerKeys, attachment.metadata.get? key = none) ∧
      attachment.metadata.get? "remote_id" = some (attachmentRemoteId item attachment)

theorem itemMetadata_own {sourceId pluginId key : String} {item : IngestionItem}
    (own : key ∈ indexerKeys) :
    (itemMetadata sourceId pluginId item).get? key = item.metadata.get? key := by
  simp only [indexerKeys, List.mem_cons, List.not_mem_nil, or_false] at own
  rcases own with rfl | rfl | rfl | rfl | rfl <;> simp [itemMetadata, Dictionary.get?_set]

theorem itemDelivery_plain {sourceId pluginId : String} {item : IngestionItem}
    (own : ∀ key ∈ indexerKeys, item.metadata.get? key = none) :
    (itemDelivery sourceId pluginId item).Plain where
  source := by simp [itemDelivery, itemMetadata, Dictionary.get?_set]
  remote := by simp [itemDelivery, itemMetadata, Dictionary.get?_set]
  own := fun key member => (itemMetadata_own member).trans (own key member)

theorem attachmentDelivery_plain {sourceId pluginId : String} {item : IngestionItem}
    {attachment : IngestionAttachment}
    (itemOwn : ∀ key ∈ indexerKeys, item.metadata.get? key = none)
    (own : ∀ key ∈ indexerKeys, attachment.metadata.get? key = none)
    (remote : attachment.metadata.get? "remote_id" = some (attachmentRemoteId item attachment)) :
    (attachmentDelivery sourceId pluginId item attachment).Plain where
  source := by simp [attachmentDelivery, attachmentMetadata]
  remote := by
    simp [attachmentDelivery, attachmentMetadata, Dictionary.get?_set, Dictionary.get?_foldl_set,
      remote]
  own := by
    intro key member
    have merged : (attachmentMetadata sourceId pluginId item attachment).get? key =
        (attachment.metadata.get? key).or ((itemMetadata sourceId pluginId item).get? key) := by
      rw [← Dictionary.get?_foldl_set]
      simp only [indexerKeys, List.mem_cons, List.not_mem_nil, or_false] at member
      rcases member with rfl | rfl | rfl | rfl | rfl <;>
        simp [attachmentMetadata, Dictionary.get?_set]
    rw [attachmentDelivery, merged, own key member, itemMetadata_own member, itemOwn key member]
    rfl

theorem deliveries_plain {syncs : List SyncRun} (plain : ∀ sync ∈ syncs, sync.Plain) :
    ∀ received ∈ delivered syncs, received.1.Plain := by
  intro received member
  obtain ⟨sync, syncMember, member⟩ := List.mem_flatMap.mp member
  obtain ⟨⟨delivery, index⟩, indexed, rfl⟩ := List.mem_map.mp member
  obtain ⟨item, itemMember, member⟩ := List.mem_flatMap.mp (List.fst_mem_of_mem_zipIdx indexed)
  have own := (plain sync syncMember).items item itemMember
  rcases List.mem_cons.mp member with rfl | member
  · exact itemDelivery_plain own
  · obtain ⟨attachment, kept, rfl⟩ := List.mem_map.mp member
    have given := (plain sync syncMember).attachments item itemMember attachment
      (List.mem_filter.mp kept).1
    exact attachmentDelivery_plain own given.1 given.2

theorem get?_scalars (metadata : Metadata) (key : String) :
    (scalars metadata).get? key = (metadata.get? key).map .text := by
  rw [Dictionary.get?, Dictionary.get?, scalars, List.find?_map, Option.map_map, Option.map_map]
  rfl

section

variable {storage : Storage}

/-- What an entry tells of a document. -/
structure Describes (storage : Storage) (delivery : Delivery) (entry : Entry) : Prop where
  filename : Documents.Entry.isFor (storage.filename delivery) entry
  path : entry.get? "path" = some (.text (storage.path delivery))
  source : entry.get? "data_source_id" = some (.text delivery.sourceId)
  remote : entry.get? "remote_id" = some (.text delivery.remoteId)
  document : entry.get? "document_id" =
    some (.text (storage.parser.documentHash delivery.content))

theorem path_eq (delivery : Delivery) : storage.path delivery =
    sourceDir storage.naming storage.uploadFolder delivery.sourceId ++ "/" ++
      storage.filename delivery :=
  rfl

theorem stagedPath_ne (delivery : Delivery) (unique : String) :
    delivery.stagedPath storage.naming storage.uploadFolder unique ≠ storage.path delivery := by
  intro same
  have lengths := congrArg String.length same
  simp only [Delivery.stagedPath, path_eq, Storage.filename, String.length_append] at lengths
  have one : ("/" : String).length = 1 := by decide
  have two : ("/." : String).length = 2 := by decide
  omega

/-- The extra metadata of a record, and what the indexer adds to it for a duplicate. -/
theorem describes_entryFor {delivery : Delivery} {draw : Draw} (plain : delivery.Plain)
    {chunks : Nat} {status error sourceId : String} {extra : Documents.Metadata}
    (given : ∀ key ∈ "data_source_id" :: "remote_id" :: indexerKeys,
      extra.get? key = (scalars delivery.metadata).get? key) :
    Describes storage delivery
      (Documents.entryFor (storage.request delivery draw) (storage.path delivery) chunks status
        error (Documents.recordMetadata (storage.request delivery draw)
          (storage.parser.documentHash delivery.content) sourceId extra)) := by
  have absent : ∀ key ∈ indexerKeys, extra.get? key = none := by
    intro key member
    rw [given key (by simp [member]), get?_scalars, plain.own key member]
    rfl
  have named := absent "filename" (by decide)
  have placed := absent "path" (by decide)
  have identified := absent "document_id" (by decide)
  have source := given "data_source_id" (by decide)
  have remote := given "remote_id" (by decide)
  rw [get?_scalars, plain.source] at source
  rw [get?_scalars, plain.remote] at remote
  constructor
  · rw [Documents.Entry.isFor, Documents.entryFor, Documents.recordMetadata]
    simp [Documents.get?_merge_eq, Dictionary.get?_set, named, Storage.request]
  · rw [Documents.entryFor, Documents.recordMetadata]
    simp [Documents.get?_merge_eq, Dictionary.get?_set, placed]
  · rw [Documents.entryFor, Documents.recordMetadata]
    simp [Documents.get?_merge_eq, source]
  · rw [Documents.entryFor, Documents.recordMetadata]
    simp [Documents.get?_merge_eq, remote]
  · rw [Documents.entryFor, Documents.recordMetadata]
    simp [Documents.get?_merge_eq, Dictionary.get?_set, identified]

end

/-- What the delivery of a document leaves. -/
structure Left (storage : Storage) (delivery : Delivery) (world next : World) : Prop where
  file : next.files.get? (storage.path delivery) = some delivery.content
  elsewhere : ∀ path, path ≠ storage.path delivery → world.isFile path →
    next.files.get? path = world.files.get? path
  entries : ∃ entry, next.entries = entry :: world.otherEntries (storage.filename delivery) ∧
    Describes storage delivery entry

section

variable {storage : Storage}

theorem recorded_describes {delivery : Delivery} {draw : Draw} (plain : delivery.Plain)
    {parsed : Documents.Parsed} {world next : World} {indexed : Documents.Indexed}
    (given : ∀ key ∈ "data_source_id" :: "remote_id" :: indexerKeys,
      parsed.extra.get? key = (scalars delivery.metadata).get? key)
    (identified : Documents.documentIdOf parsed.documents =
      storage.parser.documentHash delivery.content)
    (recorded : Documents.Recorded storage.parser (storage.request delivery draw)
      (storage.request delivery draw).filePath parsed world indexed next) :
    ∃ entry, next.entries = entry :: world.otherEntries (storage.filename delivery) ∧
      Describes storage delivery entry := by
  cases recorded with
  | indexed new =>
      refine ⟨_, rfl, ?_⟩
      rw [identified]
      exact describes_entryFor plain given
  | duplicate _ _ =>
      refine ⟨_, rfl, ?_⟩
      rw [identified]
      apply describes_entryFor plain
      intro key member
      rw [← given key member]
      simp only [indexerKeys, List.mem_cons, List.not_mem_nil, or_false] at member
      rcases member with rfl | rfl | rfl | rfl | rfl | rfl | rfl <;>
        simp [Dictionary.get?_set]

/-- What parsing a document yields. -/
theorem parsed_describes {delivery : Delivery} {draw : Draw} (plain : delivery.Plain)
    {parsed : Documents.Parsed} {world next : World} {extension : String}
    (content : world.files.get? (storage.request delivery draw).filePath = some delivery.content)
    (documents : parsed.documents ≠ [])
    (read : Documents.parseDocument storage.parser (storage.request delivery draw)
      (storage.request delivery draw).filePath extension world = .ok parsed next) :
    (∀ key ∈ "data_source_id" :: "remote_id" :: indexerKeys,
      parsed.extra.get? key = (scalars delivery.metadata).get? key) ∧
    Documents.documentIdOf parsed.documents =
      storage.parser.documentHash delivery.content := by
  obtain ⟨extra, parsedDocuments⟩ := Documents.parseDocument_eq_ok_of_text rfl read
  have given : ∀ key ∈ "data_source_id" :: "remote_id" :: indexerKeys,
      parsed.extra.get? key = (scalars delivery.metadata).get? key := by
    intro key member
    rw [extra, Documents.get?_merge_eq]
    simp only [indexerKeys, List.mem_cons, List.not_mem_nil, or_false] at member
    rcases member with rfl | rfl | rfl | rfl | rfl | rfl | rfl <;>
      simp [Dictionary.get?_set, Storage.request]
  refine ⟨given, Documents.documentIdOf_eq documents ?_⟩
  rw [parsedDocuments]
  intro document member
  rcases List.mem_map.mp member with ⟨plainDocument, plainMember, rfl⟩
  rw [Documents.get?_merge_eq, given "document_id" (by decide), get?_scalars,
    plain.own "document_id" (by decide)]
  exact Documents.parseFile_documentId content plainDocument plainMember

theorem deliver_leaves {delivery : Delivery} {draw : Draw} (plain : delivery.Plain)
    {world next : World} (performed : storage.deliver (delivery, draw) world = some next) :
    Left storage delivery world next := by
  rw [Storage.deliver] at performed
  dsimp only at performed
  split at performed
  · cases performed
  · rename_i unused
    rw [not_or, not_or] at unused
    obtain ⟨noStaged, noBackup, apartNames⟩ := unused
    split at performed
    · rename_i indexed final indexes
      cases performed
      generalize materialized : materialize storage.naming storage.uploadFolder delivery
        draw.stagedUnique world = staged at indexes
      have entries : staged.entries = world.entries := by rw [← materialized]; rfl
      have files : ∀ path, staged.files.get? path =
          if path = (storage.request delivery draw).stagedFilePath then some delivery.content
          else world.files.get? path := by
        intro path
        rw [← materialized, materialize, Dictionary.get?_set]
        rfl
      have apart : Documents.Apart (storage.request delivery draw) staged := by
        refine ⟨?_, stagedPath_ne delivery draw.stagedUnique, ?_⟩
        · rw [World.isFile, files, if_pos rfl]
          rfl
        · rw [files, if_neg apartNames]
          simpa [World.isFile] using noBackup
      obtain ⟨placed, elsewhere⟩ := Documents.indexStagedDocument_files apart indexes
      rw [files, if_pos rfl] at placed
      refine ⟨placed, ?_, ?_⟩
      · intro path different present
        have named : ∀ other, ¬ world.isFile other → path ≠ other := by
          rintro _ absent rfl
          exact absent present
        rw [elsewhere path different (named _ noStaged) (named _ noBackup), files,
          if_neg (named _ noStaged)]
      · obtain ⟨parsed, indexedWorld, read, documents, recorded, rfl⟩ :=
          Documents.indexStagedDocument_eq_ok indexes
        have content : ((storage.request delivery draw).committed staged).files.get?
            (storage.request delivery draw).filePath = some delivery.content := by
          rw [apart.get?_committed, if_pos rfl, files, if_pos rfl]
        obtain ⟨given, identified⟩ := parsed_describes plain content documents read
        rw [Documents.cleanStaged_entries, Documents.cleanBackup_entries]
        obtain ⟨entry, same, describes⟩ := recorded_describes plain given identified recorded
        refine ⟨entry, ?_, describes⟩
        rw [same, World.otherEntries, World.otherEntries, Documents.committed_entries, entries]
    · cases performed

end

/-! ## What the runs leave -/

/-- The files hold what was stored in them last, and the entries tell of what was recorded
last under their name. -/
structure Held (storage : Storage) (log : List Delivery) (start world : World) : Prop where
  files : ∀ delivery ∈ log, ∃ last, latest storage.path log (storage.path delivery) = some last ∧
    world.files.get? (storage.path delivery) = some last.content
  entries : ∀ delivery ∈ log, ∃ last entry,
    latest storage.filename log (storage.filename delivery) = some last ∧
      world.entries.filter (Entry.isFor (storage.filename delivery)) = [entry] ∧
      Describes storage last entry
  others : ∀ entry ∈ world.entries, entry ∈ start.entries ∨
    ∃ delivery ∈ log, Entry.isFor (storage.filename delivery) entry

section

variable {storage : Storage} {start world next : World} {log : List Delivery}
  {delivery : Delivery}

theorem held_nil : Held storage [] start start :=
  ⟨nofun, nofun, fun _ member => .inl member⟩

theorem filter_isFor_of_ne {filename other : String} (different : other ≠ filename) :
    (world.otherEntries filename).filter (Entry.isFor other) =
      world.entries.filter (Entry.isFor other) := by
  rw [World.otherEntries, List.filter_filter]
  apply List.filter_congr
  intro entry _
  by_cases named : Entry.isFor other entry
  · have apart : Entry.isFor filename entry = false := by
      rw [Entry.isFor, decide_eq_true_eq] at named
      rw [Entry.isFor, named, decide_eq_false_iff_not]
      intro same
      exact different (Documents.Scalar.text.inj (Option.some.inj same))
    simp [named, apart]
  · simp [named]

theorem filter_isFor_self {filename : String} {entry : Entry}
    (named : Entry.isFor filename entry) :
    (entry :: world.otherEntries filename).filter (Entry.isFor filename) = [entry] := by
  have none : (world.otherEntries filename).filter (Entry.isFor filename) = [] := by
    rw [List.filter_eq_nil_iff]
    intro other member
    simpa using (List.mem_filter.mp member).2
  rw [List.filter_cons_of_pos named, none]

/-- One more delivery. -/
theorem Held.concat (held : Held storage log start world)
    (left : Left storage delivery world next) : Held storage (log ++ [delivery]) start next where
  files := by
    intro earlier member
    rw [latest_concat]
    by_cases same : storage.path delivery = storage.path earlier
    · rw [if_pos same, ← same]
      exact ⟨delivery, rfl, left.file⟩
    · rw [if_neg same]
      rcases List.mem_append.mp member with member | member
      · obtain ⟨last, found, stored⟩ := held.files earlier member
        refine ⟨last, found, ?_⟩
        rw [left.elsewhere _ (Ne.symm same), stored]
        rw [World.isFile, stored]
        rfl
      · rw [List.mem_singleton.mp member] at same
        exact absurd rfl same
  entries := by
    obtain ⟨entry, entries, describes⟩ := left.entries
    intro earlier member
    rw [latest_concat, entries]
    by_cases same : storage.filename delivery = storage.filename earlier
    · rw [if_pos same, ← same]
      exact ⟨delivery, entry, rfl, filter_isFor_self describes.filename, describes⟩
    · rw [if_neg same]
      rcases List.mem_append.mp member with member | member
      · obtain ⟨last, earlierEntry, found, filtered, described⟩ := held.entries earlier member
        refine ⟨last, earlierEntry, found, ?_, described⟩
        have skipped : ¬ Entry.isFor (storage.filename earlier) entry := by
          intro named
          have given := describes.filename
          rw [Entry.isFor, decide_eq_true_eq] at named given
          rw [given] at named
          exact same (Documents.Scalar.text.inj (Option.some.inj named))
        rw [List.filter_cons_of_neg skipped, filter_isFor_of_ne (Ne.symm same), filtered]
      · rw [List.mem_singleton.mp member] at same
        exact absurd rfl same
  others := by
    obtain ⟨entry, entries, describes⟩ := left.entries
    rw [entries]
    intro other member
    rcases List.mem_cons.mp member with rfl | member
    · exact .inr ⟨delivery, by simp, describes.filename⟩
    · rcases held.others other (List.mem_filter.mp member).1 with old | ⟨earlier, past, named⟩
      · exact .inl old
      · exact .inr ⟨earlier, List.mem_append_left _ past, named⟩

/-- The stores after any number of deliveries. -/
theorem deliverAll_held {received : List (Delivery × Draw)}
    (plain : ∀ delivery ∈ received, delivery.1.Plain)
    (performed : storage.deliverAll received start = some world) :
    Held storage (received.map Prod.fst) start world := by
  induction received using List.reverseRecOn generalizing world with
  | nil =>
      cases performed
      exact held_nil
  | append_singleton earlier received induction =>
      rw [Storage.deliverAll, List.foldlM_append, Option.bind_eq_bind,
        Option.bind_eq_some_iff] at performed
      obtain ⟨between, before, last⟩ := performed
      rw [List.foldlM_cons, Option.bind_eq_bind, Option.bind_eq_some_iff] at last
      obtain ⟨_, delivers, returned⟩ := last
      cases returned
      rw [List.map_append, List.map_singleton]
      apply (induction (fun other member => plain other (by simp [member])) before).concat
      exact deliver_leaves (plain received (by simp)) delivers

/-! ## One current copy -/

/-- An entry tells that a version of the remote item is indexed. -/
def indexedFor (item : String × String) (entry : Entry) : Bool :=
  decide (entry.get? "status" = some (.text "indexed") ∧
    entry.get? "data_source_id" = some (.text item.1) ∧
    entry.get? "remote_id" = some (.text item.2))

/-- There is one file at most and one indexed entry at most for a remote item, and they
hold the content that was delivered last. -/
structure Current (storage : Storage) (log : List Delivery) (world : World)
    (item : String × String) : Prop where
  single : ∀ first ∈ log, ∀ second ∈ log, first.item = item → second.item = item →
    world.isFile (storage.path first) → world.isFile (storage.path second) →
      storage.path first = storage.path second
  content : ∀ delivery ∈ log, delivery.item = item →
    ∀ content, world.files.get? (storage.path delivery) = some content →
      ∃ last, latest Delivery.item log item = some last ∧ content = last.content
  entry : (world.entries.filter (indexedFor item)).length ≤ 1
  held : ∀ entry ∈ world.entries, indexedFor item entry →
    ∃ last path, latest Delivery.item log item = some last ∧
      entry.get? "path" = some (.text path) ∧
      world.files.get? path = some last.content ∧
      entry.get? "document_id" = some (.text (storage.parser.documentHash last.content))

/-- A remote item keeps its path, and no other item has left other content there since. -/
def KeepsPath (storage : Storage) (log : List Delivery) : Prop :=
  ∀ delivery ∈ log, ∀ last stored, latest Delivery.item log delivery.item = some last →
    latest storage.path log (storage.path delivery) = some stored →
      storage.path delivery = storage.path last ∧ stored.content = last.content

theorem keepsPath_of_current (held : Held storage log start world)
    (current : ∀ delivery ∈ log, Current storage log world delivery.item) :
    KeepsPath storage log := by
  intro delivery member last stored lastFound storedFound
  have lastMember := mem_of_latest lastFound
  obtain ⟨_, found, file⟩ := held.files delivery member
  rw [storedFound] at found
  cases found
  obtain ⟨_, _, lastFile⟩ := held.files last lastMember
  have present : ∀ {path : String} {content : Documents.Content},
      world.files.get? path = some content → world.isFile path := by
    intro path content found
    rw [World.isFile, found]
    rfl
  constructor
  · exact (current delivery member).single delivery member last lastMember rfl
      (key_of_latest lastFound) (present file) (present lastFile)
  · obtain ⟨_, found, same⟩ := (current delivery member).content delivery member rfl _ file
    rw [lastFound] at found
    cases found
    exact same

theorem filename_of_path {first second : Delivery} (source : first.sourceId = second.sourceId)
    (same : storage.path first = storage.path second) :
    storage.filename first = storage.filename second := by
  rw [path_eq, path_eq, source] at same
  have characters := congrArg String.toList same
  simp only [String.toList_append] at characters
  exact String.toList_injective (List.append_cancel_left characters)

/-- What the entry of a remote item tells, where the item keeps its path. -/
theorem described_last (held : Held storage log start world) (keeps : KeepsPath storage log)
    {last : Delivery} (found : latest Delivery.item log delivery.item = some last)
    (fresh : ∀ entry ∈ start.entries, entry.get? "data_source_id" ≠
      some (.text delivery.sourceId)) {entry : Entry} (member : entry ∈ world.entries)
    (indexed : indexedFor delivery.item entry) :
    Describes storage last entry ∧
      world.entries.filter (Entry.isFor (storage.filename last)) = [entry] := by
  rw [indexedFor, decide_eq_true_eq] at indexed
  obtain ⟨-, source, remote⟩ := indexed
  rcases held.others entry member with old | ⟨earlier, past, named⟩
  · exact absurd source (fresh entry old)
  · obtain ⟨recorded, stored, recordedFound, filtered, describes⟩ := held.entries earlier past
    have same : entry = stored := by
      have listed := List.mem_filter.mpr ⟨member, named⟩
      rw [filtered] at listed
      exact List.mem_singleton.mp listed
    subst same
    have item : recorded.item = delivery.item := by
      rw [describes.source] at source
      rw [describes.remote] at remote
      exact Prod.ext (Documents.Scalar.text.inj (Option.some.inj source))
        (Documents.Scalar.text.inj (Option.some.inj remote))
    have recordedLast : latest Delivery.item log recorded.item = some recorded := by
      apply latest_of_coarser recordedFound
      intro other otherMember otherItem
      have paths : ∀ version ∈ log, version.item = delivery.item →
          storage.path version = storage.path last := by
        intro version versionMember versionItem
        obtain ⟨storedVersion, storedFound⟩ :=
          @exists_latest _ _ _ storage.path log version versionMember
        exact (keeps version versionMember last storedVersion (versionItem ▸ found)
          storedFound).1
      rw [← key_of_latest recordedFound]
      apply filename_of_path (congrArg Prod.fst otherItem)
      rw [paths other otherMember (otherItem.trans item),
        paths recorded (mem_of_latest recordedFound) item]
    rw [item, found] at recordedLast
    cases recordedLast
    rw [key_of_latest recordedFound]
    exact ⟨describes, filtered⟩

theorem current_of_keepsPath (held : Held storage log start world)
    (keeps : KeepsPath storage log) (member : delivery ∈ log)
    (fresh : ∀ entry ∈ start.entries, entry.get? "data_source_id" ≠
      some (.text delivery.sourceId)) : Current storage log world delivery.item := by
  obtain ⟨last, found⟩ := @exists_latest _ _ _ Delivery.item log delivery member
  have versions : ∀ version ∈ log, version.item = delivery.item →
      storage.path version = storage.path last ∧
        world.files.get? (storage.path version) = some last.content := by
    intro version versionMember item
    obtain ⟨stored, storedFound, file⟩ := held.files version versionMember
    have kept := keeps version versionMember last stored (item ▸ found) storedFound
    rw [file, kept.2]
    exact ⟨kept.1, rfl⟩
  refine ⟨?_, ?_, ?_, ?_⟩
  · intro first firstMember second secondMember firstItem secondItem _ _
    rw [(versions first firstMember firstItem).1, (versions second secondMember secondItem).1]
  · intro version versionMember item content file
    rw [(versions version versionMember item).2] at file
    cases file
    exact ⟨last, found, rfl⟩
  · by_cases any : ∃ entry ∈ world.entries, indexedFor delivery.item entry
    · obtain ⟨entry, entryMember, indexed⟩ := any
      have filtered := (described_last held keeps found fresh entryMember indexed).2
      have within : world.entries.filter (indexedFor delivery.item) =
          (world.entries.filter (Entry.isFor (storage.filename last))).filter
            (indexedFor delivery.item) := by
        rw [List.filter_filter]
        apply List.filter_congr
        intro other otherMember
        cases otherIndexed : indexedFor delivery.item other with
        | false => rfl
        | true =>
            rw [(described_last held keeps found fresh otherMember otherIndexed).1.filename]
            rfl
      rw [within, filtered]
      exact List.length_filter_le _ [entry]
    · have none : world.entries.filter (indexedFor delivery.item) = [] := by
        rw [List.filter_eq_nil_iff]
        intro entry entryMember indexed
        exact any ⟨entry, entryMember, indexed⟩
      rw [none]
      exact Nat.zero_le 1
  · intro entry entryMember indexed
    obtain ⟨describes, -⟩ := described_last held keeps found fresh entryMember indexed
    exact ⟨last, _, found, describes.path,
      (versions last (mem_of_latest found) (key_of_latest found)).2, describes.document⟩

end

/-- After any runs over new data sources whose calls of the indexer all succeed, there is
one current copy of every remote item if and only if each keeps its path and no other item
was stored there after it with other content. -/
theorem syncs_current_iff (storage : Storage) (syncs : List SyncRun) (start world : World)
    (plain : ∀ sync ∈ syncs, sync.Plain)
    (fresh : ∀ entry ∈ start.entries, ∀ received ∈ delivered syncs,
      entry.get? "data_source_id" ≠ some (.text received.1.sourceId))
    (performed : storage.deliverAll (delivered syncs) start = some world) :
    (∀ delivery ∈ (delivered syncs).map Prod.fst,
      Current storage ((delivered syncs).map Prod.fst) world delivery.item) ↔
        KeepsPath storage ((delivered syncs).map Prod.fst) := by
  have held := deliverAll_held (deliveries_plain plain) performed
  refine ⟨keepsPath_of_current held, fun keeps delivery member => ?_⟩
  apply current_of_keepsPath held keeps member
  intro entry old
  obtain ⟨received, receivedMember, rfl⟩ := List.mem_map.mp member
  exact fresh entry old received receivedMember

/-! ## Sample syncs -/

/-- Names are hashed to themselves, and documents by their length. -/
def sampleStorage : Storage where
  naming := ⟨Text.lower, id⟩
  uploadFolder := "/uploads"
  parser := Documents.wholeFile

def emptyWorld : World :=
  ⟨.empty, .empty, []⟩

/-- A file of a drive. -/
def driveFile (name : String) (content : Documents.Content) : IngestionItem where
  content := ""
  filename := name
  extension := "txt"
  remoteId := "7"
  contentBytes := some content
  updatedAt := ""
  metadata := .empty

def fileSync (unique name : String) (content : Documents.Content) : SyncRun where
  sourceId := "drive"
  pluginId := "microsoft_drive"
  items := [driveFile name content]
  draws := fun _ => ⟨unique ++ "s", unique ++ "b", "", "", {}⟩

theorem fileSync_plain (unique name : String) (content : Documents.Content) :
    (fileSync unique name content).Plain where
  items := by
    intro item member key _
    rw [List.mem_singleton.mp member]
    rfl
  attachments := by
    intro item member
    rw [List.mem_singleton.mp member]
    nofun

/-- A file is edited under its name. -/
def editedFile : List SyncRun :=
  [fileSync "0" "report.txt" [1], fileSync "1" "report.txt" [1, 2]]

theorem syncs_current_iff_editedFile :
    ∃ world, sampleStorage.deliverAll (delivered editedFile) emptyWorld = some world ∧
      ((∀ delivery ∈ (delivered editedFile).map Prod.fst,
        Current sampleStorage ((delivered editedFile).map Prod.fst) world delivery.item) ↔
          KeepsPath sampleStorage ((delivered editedFile).map Prod.fst)) := by
  have performed : (sampleStorage.deliverAll (delivered editedFile) emptyWorld).isSome := by
    decide +kernel
  obtain ⟨world, performed⟩ := Option.isSome_iff_exists.mp performed
  refine ⟨world, performed, syncs_current_iff sampleStorage editedFile emptyWorld world ?_ nofun
    performed⟩
  intro sync member
  simp only [editedFile, List.mem_cons, List.not_mem_nil, or_false] at member
  rcases member with rfl | rfl <;> exact fileSync_plain _ _ _

/-- A file is edited and given another name. -/
def renamedFile : List SyncRun :=
  [fileSync "0" "report.txt" [1], fileSync "1" "final.txt" [1, 2]]

/-- The old version of a renamed file stays in the stores. -/
theorem renamedFile_not_current :
    ¬ ∀ (storage : Storage) (syncs : List SyncRun) (start world : World),
      (∀ sync ∈ syncs, sync.Plain) →
      (∀ entry ∈ start.entries, ∀ received ∈ delivered syncs,
        entry.get? "data_source_id" ≠ some (.text received.1.sourceId)) →
      storage.deliverAll (delivered syncs) start = some world →
      ∀ delivery ∈ (delivered syncs).map Prod.fst,
        Current storage ((delivered syncs).map Prod.fst) world delivery.item := by
  intro claim
  have kept : (match sampleStorage.deliverAll (delivered renamedFile) emptyWorld with
      | some world => decide ((world.entries.filter (indexedFor ("drive", "7"))).length = 2)
      | none => false) = true := by
    decide +kernel
  cases performed : sampleStorage.deliverAll (delivered renamedFile) emptyWorld with
  | none =>
      rw [performed] at kept
      cases kept
  | some world =>
      rw [performed] at kept
      have current := claim sampleStorage renamedFile emptyWorld world ?_ nofun performed
        (itemDelivery "drive" "microsoft_drive" (driveFile "report.txt" [1])) ?_
      · have short := current.entry
        have two := of_decide_eq_true kept
        change (world.entries.filter (indexedFor ("drive", "7"))).length ≤ 1 at short
        omega
      · intro sync member
        simp only [renamedFile, List.mem_cons, List.not_mem_nil, or_false] at member
        rcases member with rfl | rfl <;> exact fileSync_plain _ _ _
      · exact List.mem_cons_self

end RAGuardian.Ingestion
