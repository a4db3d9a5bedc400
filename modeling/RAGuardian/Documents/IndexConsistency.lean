import RAGuardian.Documents.Sections
import RAGuardian.Foundation.Execution

/-! # The file index and the collection agree

Uploads, deletions, syncs and rebuilds run one after the other under the index lock. A
rebuild works from the entries that were listed when it was admitted. -/

namespace RAGuardian.Documents

open Execution Fallible

/-! ## The sections of a knowledge base -/

/-- How the files of a knowledge base are read. -/
structure Indexer where
  base : KnowledgeBase
  reader : RebuildReader
  voice : VoiceService

/-- The stores between two sections, the rebuild jobs that were admitted, and the filenames
whose last section was a deletion. -/
structure IndexState where
  world : World
  rebuilds : List RebuildJob
  deleted : List String

/-- No file is indexed yet. -/
def IndexState.initial (files : Dictionary String Content) : IndexState where
  world := { files := files, chunks := .empty, entries := [] }
  rebuilds := []
  deleted := []

/-- What happens to a knowledge base. The files that are staged, and the jobs that are
admitted, wait for the lock. -/
inductive IndexEvent
  | stage (path : String) (content : Content)
  | discard (path : String)
  | upload (upload : Upload) (faults : UploadFaults)
  | sync (request : Request) (faults : Faults)
  | delete (filename : String)
  | admitRebuild (profile ocrProfile : String) (now : Nat → String)
  | rebuild (job : Nat)

/-- The stores a call leaves, whether it returns or raises. -/
def leftBy {α : Type} (action : Action α) (world : World) : World :=
  match action world with
  | .ok _ next => next
  | .error _ next => next

section

variable (indexer : Indexer)

/-- One event. -/
def IndexEvent.after (event : IndexEvent) (state : IndexState) : IndexState :=
  match event with
  | stage path content => { state with world := state.world.writeFile path content }
  | discard path => { state with world := state.world.removeFile path }
  | upload file faults =>
      { state with
        world := leftBy (indexStagedUpload indexer.reader.parser indexer.reader.ocr indexer.voice
          faults file) state.world
        deleted := state.deleted.filter (· ≠ file.filename) }
  | sync request faults =>
      { state with
        world := leftBy (indexStagedDocument indexer.reader.parser faults request) state.world
        deleted := state.deleted.filter (· ≠ request.filename) }
  | delete filename =>
      match indexer.base.deleteIndexedFile filename state.world with
      | .ok answer world => { state with world, deleted := answer.filename :: state.deleted }
      | .error _ world => { state with world }
  | admitRebuild profile ocrProfile now =>
      { state with rebuilds := ⟨state.world.entries, profile, ocrProfile, now⟩ :: state.rebuilds }
  | rebuild job =>
      match state.rebuilds[job]? with
      | none => state
      | some found =>
          { state with
            world := rebuildIndex indexer.base indexer.reader found state.world
            rebuilds := state.rebuilds.eraseIdx job }

/-- A key of the file index that checking leaves as it is. -/
def SafeKey (filename : String) : Prop :=
  indexer.base.names.safeFileIndexKey filename = filename ∧ filename ≠ ""

end

/-- Only the entry of a file has its path. -/
def Owned (filename path : String) (entries : List Entry) : Prop :=
  ∀ entry ∈ entries, entry.get? "path" = some (.text path) → Entry.isFor filename entry

/-- The names drawn for the temporary files of an upload are not in use. -/
structure Upload.Unused (upload : Upload) (world : World) : Prop where
  distinct : upload.stagedFilePath ≠ upload.filePath
  backupFile : world.files.get? upload.backupFilePath = none
  backupTranscript : world.files.get? upload.backupTranscriptPath = none
  backupsDistinct : upload.backupFilePath ≠ upload.backupTranscriptPath
  backupNotFile : upload.backupFilePath ≠ upload.filePath ∧
    upload.backupTranscriptPath ≠ upload.filePath

/-- The names drawn for the temporary files of a document are not in use. -/
structure Request.Unused (request : Request) (world : World) : Prop where
  distinct : request.stagedFilePath ≠ request.filePath
  backup : world.files.get? request.backupPath = none

/-- What is taken for granted of an event: rollbacks succeed, no lease is lost, names that
are drawn are new, metadata leave the keys of the indexer alone, and the entries of
different files have different paths. -/
def IndexEvent.Allowed (indexer : Indexer) (event : IndexEvent) (state : IndexState) : Prop :=
  match event with
  | upload file faults =>
      faults.Recovers ∧ file.Unused state.world ∧ SafeKey indexer file.filename ∧
        Owned file.filename file.filePath state.world.entries
  | sync request faults =>
      faults.Recovers ∧ request.Unclaimed ∧ request.Unused state.world ∧
        SafeKey indexer request.filename ∧
        Owned request.filename request.filePath state.world.entries ∧
        ∀ message next, indexStagedDocument indexer.reader.parser faults request state.world ≠
          .error (.leaseLost message) next
  | rebuild job =>
      ∀ found, state.rebuilds[job]? = some found → ∀ listed ∈ found.entries, ∀ filename path,
        Entry.isFor filename listed → listed.get? "path" = some (.text path) →
          Owned filename path state.world.entries
  | _ => True

/-- The entry of a file, if there is one, has the path that is given. -/
def Placed (filename path : String) (world : World) : Prop :=
  ∀ entry, world.entry filename = some entry → entry.get? "path" = some (.text path)

/-- An upload or a sync keeps the path of its file, and the entries a rebuild was admitted
with are up to date: every indexed file is among them, and no deleted one. -/
def IndexEvent.UpToDate (event : IndexEvent) (state : IndexState) : Prop :=
  match event with
  | upload file _ => Placed file.filename file.filePath state.world
  | sync request _ => Placed request.filename request.filePath state.world
  | rebuild job =>
      ∀ found, state.rebuilds[job]? = some found →
        (∀ filename entry, state.world.entry filename = some entry →
          entry.get? "status" = some (.text "indexed") →
            ∃ listed ∈ found.entries, Entry.isFor filename listed) ∧
        ∀ listed ∈ found.entries, ∀ filename ∈ state.deleted, ¬ Entry.isFor filename listed
  | _ => True

/-- The index and the collection agree. -/
structure IndexState.Consistent (state : IndexState) : Prop where
  counted : ∀ entry ∈ state.world.entries, entry.get? "status" = some (.text "indexed") →
    ∃ path, entry.get? "path" = some (.text path) ∧
      entry.get? "chunks" = some (.integer (state.world.chunksOf path).length)
  owned : ∀ id chunk, state.world.chunks.get? id = some chunk →
    ∃ entry ∈ state.world.entries, entry.get? "status" = some (.text "indexed") ∧
      ∃ path, entry.get? "path" = some (.text path) ∧ chunk.source = some (.text path)
  removed : ∀ filename ∈ state.deleted, ∀ entry ∈ state.world.entries,
    ¬ Entry.isFor filename entry

/-! ## What the sections preserve -/

/-- An entry says where its file is, under a safe key, and how many chunks it has. -/
structure Accounts (indexer : Indexer) (world : World) (filename : String) (entry : Entry)
    (path : String) (chunks : Nat) (status : String) : Prop where
  lists : Lists filename path chunks status entry
  safe : SafeKey indexer filename
  placed : path ≠ ""
  counted : status = "indexed" → (world.chunksOf path).length = chunks

/-- The index and the collection agree, by filenames. -/
structure Accurate (indexer : Indexer) (world : World) : Prop where
  keyed : Keyed indexer.reader.parser world
  unique : UniqueNames world
  listed : ∀ entry ∈ world.entries, ∃ filename path chunks status,
    Accounts indexer world filename entry path chunks status
  owned : ∀ id chunk, world.chunks.get? id = some chunk →
    ∃ filename path entry, world.entry filename = some entry ∧
      entry.get? "status" = some (.text "indexed") ∧
      entry.get? "path" = some (.text path) ∧ chunk.source = some (.text path)
  apart : ∀ entry ∈ world.entries, ∀ filename path, Entry.isFor filename entry →
    entry.get? "path" = some (.text path) → Owned filename path world.entries

section

variable {indexer : Indexer} {world next : World} {filename path : String} {content : Content}

theorem accurate_initial (files : Dictionary String Content) :
    Accurate indexer (IndexState.initial files).world where
  keyed := nofun
  unique := List.Pairwise.nil
  listed := nofun
  owned := nofun
  apart := nofun

/-- Other files do not matter. -/
theorem Accurate.congr (accurate : Accurate indexer world) (same : SameStores world next) :
    Accurate indexer next := by
  obtain ⟨files, chunks, entries⟩ := next
  obtain ⟨sameChunks, sameEntries⟩ := same
  dsimp only at sameChunks sameEntries
  subst sameChunks sameEntries
  exact ⟨accurate.keyed, accurate.unique,
    fun entry member => by
      obtain ⟨filename, path, chunks, status, accounts⟩ := accurate.listed entry member
      exact ⟨filename, path, chunks, status, accounts.lists, accounts.safe, accounts.placed,
        accounts.counted⟩,
    accurate.owned, accurate.apart⟩

theorem chunksOf_length_congr {source : String}
    (same : ∀ id, next.chunks.get? id = world.chunks.get? id) :
    (next.chunksOf source).length = (world.chunksOf source).length := by
  have entries : next.chunks.entries.Perm world.chunks.entries := by
    rw [List.perm_ext_iff_of_nodup next.chunks.nodup_entries world.chunks.nodup_entries]
    rintro ⟨id, chunk⟩
    rw [← Dictionary.get?_eq_some, ← Dictionary.get?_eq_some, same]
  exact (entries.filter _).length_eq

/-- A call that raises and puts everything back. -/
theorem Accurate.restored (accurate : Accurate indexer world)
    (restored : StoresRestored filename world next) : Accurate indexer next where
  keyed := by
    intro id chunk stored
    rw [restored.chunks] at stored
    exact accurate.keyed id chunk stored
  unique := restored.unique accurate.unique
  listed := by
    intro entry member
    obtain ⟨filename, path, chunks, status, lists, safe, placed, counted⟩ :=
      accurate.listed entry (restored.subset entry member)
    refine ⟨filename, path, chunks, status, lists, safe, placed, ?_⟩
    intro indexed
    rw [chunksOf_length_congr restored.chunks]
    exact counted indexed
  owned := by
    intro id chunk stored
    rw [restored.chunks] at stored
    obtain ⟨filename, path, entry, found, held⟩ := accurate.owned id chunk stored
    exact ⟨filename, path, entry, (restored.entry filename).trans found, held⟩
  apart := by
    intro entry member filename path named placed other otherMember
    exact accurate.apart entry (restored.subset entry member) filename path named placed other
      (restored.subset other otherMember)

theorem Lists.isFor {chunks : Nat} {status : String} {entry : Entry}
    (lists : Lists filename path chunks status entry) : Entry.isFor filename entry :=
  isFor_iff.mpr lists.filename

theorem chunksOf_congr {source : String} (same : next.chunks = world.chunks) :
    next.chunksOf source = world.chunksOf source := by
  rw [World.chunksOf, same, World.chunksOf]

theorem mem_otherEntries {entry : Entry} :
    entry ∈ world.otherEntries filename ↔
      entry ∈ world.entries ∧ ¬ Entry.isFor filename entry := by
  rw [World.otherEntries, List.mem_filter]
  simp

/-- The entry of a file is replaced, and the chunks of its path. -/
theorem Accurate.replaced {entry : Entry} {chunks : Nat} {status : String}
    (accurate : Accurate indexer world)
    (keyed : Keyed indexer.reader.parser next)
    (entries : next.entries = entry :: world.otherEntries filename)
    (accounts : Accounts indexer next filename entry path chunks status)
    (owned : Owned filename path world.entries) (placed : Placed filename path world)
    (elsewhere : ∀ other, other ≠ path → next.chunksOf other = world.chunksOf other)
    (held : ∀ id chunk, next.chunks.get? id = some chunk →
      world.chunks.get? id = some chunk ∧ chunk.source ≠ some (.text path) ∨
        chunk.source = some (.text path) ∧ status = "indexed") :
    Accurate indexer next where
  keyed := keyed
  unique := uniqueNames_cons accurate.unique accounts.lists.isFor entries
  listed := by
    intro other member
    rw [entries, List.mem_cons, mem_otherEntries] at member
    rcases member with rfl | ⟨member, others⟩
    · exact ⟨filename, path, chunks, status, accounts⟩
    · obtain ⟨otherName, otherPath, count, otherStatus, lists, safe, there, counted⟩ :=
        accurate.listed other member
      refine ⟨otherName, otherPath, count, otherStatus, lists, safe, there, ?_⟩
      rw [elsewhere otherPath]
      · exact counted
      · rintro rfl
        exact others (owned other member lists.path)
  owned := by
    intro id chunk stored
    rcases held id chunk stored with ⟨old, different⟩ | ⟨own, indexed⟩
    · obtain ⟨otherName, otherPath, other, found, status, there, source⟩ :=
        accurate.owned id chunk old
      refine ⟨otherName, otherPath, other, ?_, status, there, source⟩
      rw [entry_cons accounts.lists.isFor entries, if_neg]
      · exact found
      · rintro rfl
        rw [placed other found] at there
        cases there
        exact different source
    · refine ⟨filename, path, entry, ?_, ?_, accounts.lists.path, own⟩
      · rw [entry_cons accounts.lists.isFor entries, if_pos rfl]
      · rw [accounts.lists.status, indexed]
  apart := by
    intro first member firstName firstPath named there second secondMember secondThere
    rw [entries, List.mem_cons, mem_otherEntries] at member secondMember
    rcases member with rfl | ⟨member, others⟩
    · have same := accounts.lists.path
      rw [there] at same
      cases same
      cases isFor_unique named accounts.lists.isFor
      rcases secondMember with rfl | ⟨secondMember, secondOthers⟩
      · exact accounts.lists.isFor
      · exact owned second secondMember secondThere
    · rcases secondMember with rfl | ⟨secondMember, secondOthers⟩
      · have same := accounts.lists.path
        rw [secondThere] at same
        cases same
        exact absurd (owned first member there) others
      · exact accurate.apart first member firstName firstPath named there second secondMember
          secondThere

/-- A file that was indexed. -/
theorem Accurate.indexed (hashes : indexer.reader.parser.Hashes)
    (accurate : Accurate indexer world)
    (listed : Listed indexer.reader.parser filename path content world next)
    (safe : SafeKey indexer filename) (there : path ≠ "")
    (owned : Owned filename path world.entries) (placed : Placed filename path world) :
    Accurate indexer next := by
  have keyed := accurate.keyed.withoutSource path
  have nothing := @chunksOf_withoutSource_self world path
  cases listed with
  | indexed documents entry nonempty identified unheld chunks entries lists document =>
      have added := chunksOf_addChunks_self hashes identified keyed unheld nothing
      refine accurate.replaced ?_ entries ⟨lists, safe, there, ?_⟩ owned placed ?_ ?_
      · intro id chunk stored
        rw [chunks] at stored
        exact keyed.addChunks hashes identified unheld id chunk stored
      · intro _
        rw [chunksOf_congr chunks]
        exact added
      · intro other different
        rw [chunksOf_congr chunks,
          chunksOf_addChunks_of_ne hashes identified keyed unheld different,
          chunksOf_withoutSource_of_ne different]
      · intro id chunk stored
        rw [chunks, get?_addChunks_identified hashes identified keyed unheld] at stored
        rcases stored with old | new
        · exact .inl (get?_withoutSource.mp old)
        · obtain ⟨index, -, identity⟩ := mem_chunksFor hashes identified new
          exact .inr ⟨identity.source, rfl⟩
  | duplicate id chunk entry found same chunks entries lists document =>
      refine accurate.replaced ?_ entries ⟨lists, safe, there, nofun⟩ owned placed ?_ ?_
      · intro id chunk stored
        rw [chunks] at stored
        exact keyed id chunk stored
      · intro other different
        rw [chunksOf_congr chunks, chunksOf_withoutSource_of_ne different]
      · intro id chunk stored
        rw [chunks] at stored
        exact .inl (get?_withoutSource.mp stored)

theorem sourceOf_eq {base : KnowledgeBase} {entry : Entry} {filename path : String}
    (there : path ≠ "") (placed : entry.get? "path" = some (.text path)) :
    base.sourceOf entry filename = path := by
  rw [KnowledgeBase.sourceOf, placed, textOr, Scalar.truthy, if_pos (decide_eq_true there),
    Scalar.render]

/-- A file that was deleted. -/
theorem Accurate.deleted {entry : Entry} (accurate : Accurate indexer world)
    (found : world.entry filename = some entry) :
    Accurate indexer (indexer.base.deleted filename entry world) := by
  obtain ⟨member, named⟩ := mem_of_entry found
  obtain ⟨name, path, chunks, status, lists, safe, there, counted⟩ := accurate.listed entry member
  cases isFor_unique named lists.isFor
  have owned := accurate.apart entry member _ path named lists.path
  have source := @sourceOf_eq indexer.base entry filename path there lists.path
  have sameChunks : (indexer.base.deleted filename entry world).chunks =
      (world.withoutSource path).chunks := by
    rw [deleted_chunks, source]
  have sameEntries := @deleted_entries indexer.base world filename entry
  constructor
  · intro id chunk stored
    rw [sameChunks] at stored
    exact accurate.keyed.withoutSource path id chunk stored
  · exact uniqueNames_removed accurate.unique sameEntries
  · intro other member
    rw [sameEntries, mem_otherEntries] at member
    obtain ⟨otherName, otherPath, count, otherStatus, otherLists, otherSafe, otherThere,
      otherCounted⟩ := accurate.listed other member.1
    refine ⟨otherName, otherPath, count, otherStatus, otherLists, otherSafe, otherThere, ?_⟩
    rw [chunksOf_congr sameChunks, chunksOf_withoutSource_of_ne]
    · exact otherCounted
    · rintro rfl
      exact member.2 (owned other member.1 otherLists.path)
  · intro id chunk stored
    rw [sameChunks, get?_withoutSource] at stored
    obtain ⟨otherName, otherPath, other, otherFound, otherStatus, otherPlaced, otherSource⟩ :=
      accurate.owned id chunk stored.1
    refine ⟨otherName, otherPath, other, ?_, otherStatus, otherPlaced, otherSource⟩
    rw [entry_removed sameEntries, if_neg]
    · exact otherFound
    · rintro rfl
      rw [found] at otherFound
      cases otherFound
      rw [lists.path] at otherPlaced
      cases otherPlaced
      exact stored.2 otherSource
  · intro first firstMember name firstPath named there second secondMember secondThere
    rw [sameEntries, mem_otherEntries] at firstMember secondMember
    exact accurate.apart first firstMember.1 name firstPath named there second secondMember.1
      secondThere

end

/-! ## Uploads and syncs -/

section

variable {indexer : Indexer} {world : World}

theorem ne_empty_of_startsWith {folder path : String}
    (inside : Text.startsWith (folder ++ "/") path) : path ≠ "" := by
  rintro rfl
  rw [Text.startsWith, String.toList_append] at inside
  have slash : ("/" : String).toList = ['/'] := by decide
  rw [slash] at inside
  cases characters : folder.toList with
  | nil =>
      rw [characters] at inside
      cases inside
  | cons first rest =>
      rw [characters] at inside
      cases inside

/-- A chunk of a path is accounted for by the entry of its file. -/
theorem Accurate.accounted {upload : Upload} (accurate : Accurate indexer world)
    (owned : Owned upload.filename upload.filePath world.entries) : upload.Accounted world := by
  by_cases chunks : world.chunksOf upload.filePath = []
  · exact .inr (.inr (.inr chunks))
  · obtain ⟨⟨id, chunk⟩, member⟩ := List.exists_mem_of_ne_nil _ chunks
    obtain ⟨stored, own⟩ := mem_chunksOf.mp member
    obtain ⟨filename, path, entry, found, -, placed, source⟩ := accurate.owned id chunk stored
    rw [own] at source
    cases source
    have named := owned entry (mem_of_entry found).1 placed
    refine .inr (.inr (.inl ?_))
    rw [entry_of_mem accurate.unique (mem_of_entry found).1 named]
    rfl

theorem indexStagedUpload_unstaged {parser : Parser} {ocr : OcrService} {voice : VoiceService}
    {faults : UploadFaults} {upload : Upload}
    (unstaged : ¬ (upload.pathsValid ∧ world.isFile upload.stagedFilePath)) :
    leftBy (indexStagedUpload parser ocr voice faults upload) world = world := by
  have fails : ∃ failure, (assertLocksHealthy faults.toFaults 0 *>
      commitStagedUpload faults upload) world = .error failure world := by
    rw [assertLocksHealthy]
    cases faults.leaseLost 0 with
    | some message => exact ⟨_, rfl⟩
    | none =>
        change ∃ failure, commitStagedUpload faults upload world = .error failure world
        rw [commitStagedUpload]
        by_cases valid : upload.pathsValid
        · rw [if_neg (not_not_intro valid), if_pos fun present => unstaged ⟨valid, present⟩]
          exact ⟨_, rfl⟩
        · rw [if_pos valid]
          exact ⟨_, rfl⟩
  obtain ⟨failure, failed⟩ := fails
  rw [leftBy, indexStagedUpload, failed]

theorem Accurate.upload (hashes : indexer.reader.parser.Hashes) {faults : UploadFaults}
    {upload : Upload} (accurate : Accurate indexer world) (recovers : faults.Recovers)
    (unused : upload.Unused world) (safe : SafeKey indexer upload.filename)
    (owned : Owned upload.filename upload.filePath world.entries)
    (placed : Placed upload.filename upload.filePath world) :
    Accurate indexer (leftBy (indexStagedUpload indexer.reader.parser indexer.reader.ocr
        indexer.voice faults upload) world) ∧
      ∀ other, other ≠ upload.filename → (leftBy (indexStagedUpload indexer.reader.parser
        indexer.reader.ocr indexer.voice faults upload) world).entry other =
          world.entry other := by
  by_cases ready : upload.pathsValid ∧ world.isFile upload.stagedFilePath
  · have staged : Staged upload world := ⟨ready.1, ready.2, unused.distinct, unused.backupFile,
      unused.backupTranscript, unused.backupsDistinct, unused.backupNotFile⟩
    obtain ⟨content, stored⟩ := Option.isSome_iff_exists.mp ready.2
    have stores := @indexStagedUpload_stores indexer.reader.parser indexer.reader.ocr
      indexer.voice faults upload world content hashes recovers staged
      (accurate.accounted owned) stored
    rw [leftBy]
    cases performed : indexStagedUpload indexer.reader.parser indexer.reader.ocr indexer.voice
        faults upload world with
    | ok indexed next =>
        rw [performed] at stores
        exact ⟨accurate.indexed hashes stores.1 safe (ne_empty_of_startsWith ready.1.1) owned
          placed, fun other => stores.1.entry_of_ne⟩
    | error failure next =>
        rw [performed] at stores
        exact ⟨accurate.restored stores, fun other _ => stores.entry other⟩
  · rw [indexStagedUpload_unstaged ready]
    exact ⟨accurate, fun _ _ => rfl⟩

theorem Accurate.sync (hashes : indexer.reader.parser.Hashes) {faults : Faults}
    {request : Request} (accurate : Accurate indexer world) (recovers : faults.Recovers)
    (unclaimed : request.Unclaimed) (unused : request.Unused world)
    (safe : SafeKey indexer request.filename)
    (owned : Owned request.filename request.filePath world.entries)
    (held : ∀ message next, indexStagedDocument indexer.reader.parser faults request world ≠
      .error (.leaseLost message) next)
    (placed : Placed request.filename request.filePath world) :
    Accurate indexer (leftBy (indexStagedDocument indexer.reader.parser faults request) world) ∧
      ∀ other, other ≠ request.filename →
        (leftBy (indexStagedDocument indexer.reader.parser faults request) world).entry other =
          world.entry other := by
  rw [leftBy]
  by_cases ready : request.pathsValid ∧ world.isFile request.stagedFilePath
  · have apart : Apart request world := ⟨ready.2, unused.distinct, unused.backup⟩
    obtain ⟨content, stored⟩ := Option.isSome_iff_exists.mp ready.2
    cases performed : indexStagedDocument indexer.reader.parser faults request world with
    | ok indexed next =>
        have listed := indexStagedDocument_listed hashes unclaimed apart stored performed
        exact ⟨accurate.indexed hashes listed safe (ne_empty_of_startsWith ready.1.1) owned
          placed, fun other => listed.entry_of_ne⟩
    | error failure next =>
        cases failure with
        | leaseLost message => exact absurd performed (held message next)
        | raised message =>
            have restored := indexStagedDocument_stores recovers unclaimed apart performed
            exact ⟨accurate.restored restored, fun other _ => restored.entry other⟩
  · rw [indexStagedDocument]
    by_cases valid : request.pathsValid
    · rw [if_neg (not_not_intro valid), if_pos fun present => ready ⟨valid, present⟩]
      exact ⟨accurate, fun _ _ => rfl⟩
    · rw [if_pos valid]
      exact ⟨accurate, fun _ _ => rfl⟩

end

/-! ## Rebuilds -/

/-- Entries that were listed: one for each file, with a path of its own. -/
structure Listing (indexer : Indexer) (entries : List Entry) : Prop where
  listed : ∀ entry ∈ entries, ∃ filename path chunks status,
    Lists filename path chunks status entry ∧ SafeKey indexer filename ∧ path ≠ ""
  unique : entries.Pairwise fun first second =>
    ∀ filename, Entry.isFor filename first → ¬ Entry.isFor filename second
  apart : ∀ entry ∈ entries, ∀ filename path, Entry.isFor filename entry →
    entry.get? "path" = some (.text path) → Owned filename path entries

/-- The filename and the path a rebuild takes for an entry. -/
def Indexer.nameOf (indexer : Indexer) (entry : Entry) : String :=
  indexer.base.entryFilename entry

def Indexer.pathOf (indexer : Indexer) (entry : Entry) : String :=
  indexer.base.sourceOf entry (indexer.nameOf entry)

/-- A loop of a rebuild, after some of the entries. -/
structure Rebuilding (indexer : Indexer) (start : World) (earlier : List Entry)
    (state : RebuildState) : Prop where
  keyed : Keyed indexer.reader.parser state.world
  unique : UniqueNames state.world
  named : ∀ recorded ∈ state.world.entries, ∃ filename, Entry.isFor filename recorded
  seen : SeenAll indexer.reader.parser state
  listed : ∀ entry ∈ earlier, ∃ recorded chunks status,
    state.world.entry (indexer.nameOf entry) = some recorded ∧
      Lists (indexer.nameOf entry) (indexer.pathOf entry) chunks status recorded ∧
      (status = "indexed" → (state.world.chunksOf (indexer.pathOf entry)).length = chunks)
  owned : ∀ id chunk, state.world.chunks.get? id = some chunk → ∃ entry ∈ earlier,
    ∃ recorded, state.world.entry (indexer.nameOf entry) = some recorded ∧
      recorded.get? "status" = some (.text "indexed") ∧
      chunk.source = some (.text (indexer.pathOf entry))
  others : ∀ filename, (∀ entry ∈ earlier, indexer.nameOf entry ≠ filename) →
    state.world.entry filename = start.entry filename

section

variable {indexer : Indexer} {start world : World} {earlier later : List Entry} {entry : Entry}
  {state next : RebuildState}

theorem nameOf_eq {filename path status : String} {chunks : Nat}
    (lists : Lists filename path chunks status entry) (safe : SafeKey indexer filename) :
    indexer.nameOf entry = filename := by
  rw [Indexer.nameOf, KnowledgeBase.entryFilename, lists.filename, textOr, Scalar.truthy,
    if_pos (decide_eq_true safe.2), Scalar.render]
  dsimp only
  rw [safe.1, if_pos safe.2]

theorem pathOf_eq {filename path status : String} {chunks : Nat}
    (lists : Lists filename path chunks status entry) (there : path ≠ "") :
    indexer.pathOf entry = path :=
  sourceOf_eq there lists.path

/-- The entries of a listing have names and paths of their own. -/
theorem Listing.distinct (listing : Listing indexer (earlier ++ entry :: later)) :
    ∀ other ∈ earlier, indexer.nameOf other ≠ indexer.nameOf entry ∧
      indexer.pathOf other ≠ indexer.pathOf entry := by
  intro other member
  have here : entry ∈ earlier ++ entry :: later := by simp
  have there : other ∈ earlier ++ entry :: later := by simp [member]
  obtain ⟨filename, path, chunks, status, lists, safe, placed⟩ := listing.listed entry here
  obtain ⟨otherName, otherPath, count, otherStatus, otherLists, otherSafe, otherPlaced⟩ :=
    listing.listed other there
  have unique := (List.pairwise_append.mp listing.unique).2.2 other member entry
    List.mem_cons_self
  have named : otherName ≠ filename := by
    rintro rfl
    exact unique _ otherLists.isFor lists.isFor
  rw [nameOf_eq lists safe, nameOf_eq otherLists otherSafe, pathOf_eq lists placed,
    pathOf_eq otherLists otherPlaced]
  refine ⟨named, ?_⟩
  rintro rfl
  have same := listing.apart entry here filename _ lists.isFor lists.path other there
    otherLists.path
  exact named (isFor_unique otherLists.isFor same)

/-- A turn of the loop, by what it does to the entry and to the chunks. -/
theorem Rebuilding.step {chunks : Nat} {status : String} {recorded : Entry}
    (rebuilding : Rebuilding indexer start earlier state)
    (distinct : ∀ other ∈ earlier, indexer.nameOf other ≠ indexer.nameOf entry ∧
      indexer.pathOf other ≠ indexer.pathOf entry)
    (keyed : Keyed indexer.reader.parser next.world)
    (entries : next.world.entries =
      recorded :: state.world.otherEntries (indexer.nameOf entry))
    (lists : Lists (indexer.nameOf entry) (indexer.pathOf entry) chunks status recorded)
    (counted : status = "indexed" →
      (next.world.chunksOf (indexer.pathOf entry)).length = chunks)
    (elsewhere : ∀ other, other ≠ indexer.pathOf entry →
      next.world.chunksOf other = state.world.chunksOf other)
    (held : ∀ id chunk, next.world.chunks.get? id = some chunk →
      state.world.chunks.get? id = some chunk ∨
        chunk.source = some (.text (indexer.pathOf entry)) ∧ status = "indexed")
    (seen : SeenAll indexer.reader.parser next) :
    Rebuilding indexer start (earlier ++ [entry]) next where
  keyed := keyed
  unique := uniqueNames_cons rebuilding.unique lists.isFor entries
  named := by
    intro other member
    rw [entries, List.mem_cons, mem_otherEntries] at member
    rcases member with rfl | ⟨member, -⟩
    · exact ⟨_, lists.isFor⟩
    · exact rebuilding.named other member
  seen := seen
  listed := by
    intro other member
    rw [List.mem_append, List.mem_singleton] at member
    rcases member with member | rfl
    · obtain ⟨stored, count, otherStatus, found, otherLists, otherCounted⟩ :=
        rebuilding.listed other member
      refine ⟨stored, count, otherStatus, ?_, otherLists, ?_⟩
      · rw [entry_cons lists.isFor entries, if_neg (distinct other member).1]
        exact found
      · rw [elsewhere _ (distinct other member).2]
        exact otherCounted
    · refine ⟨recorded, chunks, status, ?_, lists, counted⟩
      rw [entry_cons lists.isFor entries, if_pos rfl]
  owned := by
    intro id chunk stored
    rcases held id chunk stored with old | ⟨own, indexed⟩
    · obtain ⟨other, member, found, there, otherStatus, source⟩ :=
        rebuilding.owned id chunk old
      refine ⟨other, List.mem_append_left _ member, found, ?_, otherStatus, source⟩
      rw [entry_cons lists.isFor entries, if_neg (distinct other member).1]
      exact there
    · refine ⟨entry, List.mem_append_right _ List.mem_cons_self, recorded, ?_, ?_, own⟩
      · rw [entry_cons lists.isFor entries, if_pos rfl]
      · rw [lists.status, indexed]
  others := by
    intro filename apart
    rw [entry_cons lists.isFor entries, if_neg]
    · exact rebuilding.others filename fun other member =>
        apart other (List.mem_append_left _ member)
    · exact (apart entry (List.mem_append_right _ List.mem_cons_self)).symm

theorem Rebuilding.turn (hashes : indexer.reader.parser.Hashes) {job : RebuildJob} {index : Nat}
    (rebuilding : Rebuilding indexer start earlier state)
    (distinct : ∀ other ∈ earlier, indexer.nameOf other ≠ indexer.nameOf entry ∧
      indexer.pathOf other ≠ indexer.pathOf entry) :
    Rebuilding indexer start (earlier ++ [entry])
      (rebuildEntry indexer.base indexer.reader job index entry state) := by
  have rebuilt := @rebuildEntry_rebuilt indexer.base indexer.reader job entry hashes index state
  generalize rebuildEntry indexer.base indexer.reader job index entry state = next at rebuilt
  obtain ⟨nextKeyed, nextSeen, -⟩ := rebuilt.chunks hashes rebuilding.keyed rebuilding.seen
  have nothing : state.world.chunksOf (indexer.pathOf entry) = [] := by
    rw [List.eq_nil_iff_forall_not_mem]
    rintro ⟨id, chunk⟩ member
    obtain ⟨stored, own⟩ := mem_chunksOf.mp member
    obtain ⟨other, earlierMember, -, -, -, source⟩ := rebuilding.owned id chunk stored
    rw [own] at source
    exact (distinct other earlierMember).2 (Scalar.text.inj (Option.some.inj source)).symm
  have step {recorded : Entry} {chunks : Nat} {status : String} :=
    @Rebuilding.step indexer start earlier entry state next chunks status recorded rebuilding
      distinct nextKeyed
  cases rebuilt with
  | skipped status recorded unlisted chunks entries lists seen =>
      refine step entries lists ?_ (fun _ _ => chunksOf_congr chunks) ?_ nextSeen
      · rintro rfl
        exact absurd (by decide) unlisted
      · intro id chunk stored
        rw [chunks] at stored
        exact .inl stored
  | duplicate content other recorded stored found chunks entries lists seen =>
      refine step entries lists nofun (fun _ _ => chunksOf_congr chunks) ?_ nextSeen
      intro id chunk stored
      rw [chunks] at stored
      exact .inl stored
  | indexed content documents recorded stored new nonempty identified chunks entries lists seen =>
      have unheld : Unheld indexer.reader.parser content state.world :=
        fun id chunk present held => rebuilding.seen id chunk content present held new
      have keyed := rebuilding.keyed
      refine step entries lists ?_ ?_ ?_ nextSeen
      · intro _
        rw [chunksOf_congr chunks]
        exact chunksOf_addChunks_self hashes identified keyed unheld nothing
      · intro other different
        rw [chunksOf_congr chunks,
          chunksOf_addChunks_of_ne hashes identified keyed unheld different]
      · intro id chunk present
        rw [chunks, get?_addChunks_identified hashes identified keyed unheld] at present
        rcases present with old | added
        · exact .inl old
        · obtain ⟨_, -, identity⟩ := mem_chunksFor hashes identified added
          exact .inr ⟨identity.source, rfl⟩

theorem Rebuilding.loop (hashes : indexer.reader.parser.Hashes) {job : RebuildJob} {index : Nat}
    (rebuilding : Rebuilding indexer start earlier state)
    (listing : Listing indexer (earlier ++ later)) :
    Rebuilding indexer start (earlier ++ later)
      ((later.zipIdx index).foldl (fun state (entry, index) =>
        rebuildEntry indexer.base indexer.reader job index entry state) state) := by
  induction later generalizing earlier state index with
  | nil =>
      rw [List.append_nil]
      exact rebuilding
  | cons entry rest induction =>
      have turned := @Rebuilding.turn indexer start earlier entry state hashes job index rebuilding
        listing.distinct
      rw [List.append_cons] at listing ⊢
      exact induction turned listing

/-- The entries are up to date when a rebuild runs. -/
theorem Accurate.rebuilt (hashes : indexer.reader.parser.Hashes) {job : RebuildJob}
    (accurate : Accurate indexer world) (listing : Listing indexer job.entries)
    (owned : ∀ listed ∈ job.entries, ∀ filename path, Entry.isFor filename listed →
      listed.get? "path" = some (.text path) → Owned filename path world.entries)
    (complete : ∀ filename entry, world.entry filename = some entry →
      entry.get? "status" = some (.text "indexed") →
        ∃ listed ∈ job.entries, Entry.isFor filename listed) :
    Accurate indexer (rebuildIndex indexer.base indexer.reader job world) ∧
      ∀ filename, (∀ listed ∈ job.entries, ¬ Entry.isFor filename listed) →
        (rebuildIndex indexer.base indexer.reader job world).entry filename =
          world.entry filename := by
  have begun : Rebuilding indexer world [] { world := { world with chunks := .empty } } :=
    { keyed := nofun
      unique := accurate.unique
      named := by
        intro recorded member
        obtain ⟨filename, path, chunks, status, accounts⟩ := accurate.listed recorded member
        exact ⟨filename, accounts.lists.isFor⟩
      seen := nofun
      listed := nofun
      owned := nofun
      others := fun _ _ => rfl }
  have rebuilt := @Rebuilding.loop indexer world [] job.entries _ hashes job 0 begun listing
  rw [List.nil_append] at rebuilt
  change Rebuilding indexer world job.entries _ at rebuilt
  rw [rebuildIndex]
  generalize job.entries.zipIdx.foldl _ _ = state at rebuilt
  have unlisted : ∀ filename, (∀ listed ∈ job.entries, ¬ Entry.isFor filename listed) →
      state.world.entry filename = world.entry filename := by
    intro filename none
    apply rebuilt.others
    rintro listed member rfl
    obtain ⟨name, path, chunks, status, lists, safe, -⟩ := listing.listed listed member
    apply none listed member
    rw [nameOf_eq lists safe]
    exact lists.isFor
  -- An entry was recorded by the loop, or it is of a file that was not listed.
  have origin : ∀ recorded ∈ state.world.entries,
      (∃ listed ∈ job.entries, ∃ chunks status, Accounts indexer state.world
        (indexer.nameOf listed) recorded (indexer.pathOf listed) chunks status ∧
          Entry.isFor (indexer.nameOf listed) listed ∧
          listed.get? "path" = some (.text (indexer.pathOf listed))) ∨
      recorded ∈ world.entries ∧ ∃ filename, Entry.isFor filename recorded ∧
        world.entry filename = some recorded ∧
          ∀ listed ∈ job.entries, ¬ Entry.isFor filename listed := by
    intro recorded member
    obtain ⟨filename, named⟩ := rebuilt.named recorded member
    have found := entry_of_mem rebuilt.unique member named
    by_cases known : ∃ listed ∈ job.entries, Entry.isFor filename listed
    · obtain ⟨listed, listedMember, listedNamed⟩ := known
      obtain ⟨name, path, chunks, status, lists, safe, there⟩ :=
        listing.listed listed listedMember
      cases isFor_unique listedNamed lists.isFor
      have name : indexer.nameOf listed = filename := nameOf_eq lists safe
      have path : indexer.pathOf listed = _ := pathOf_eq lists there
      obtain ⟨other, count, otherStatus, otherFound, otherLists, counted⟩ :=
        rebuilt.listed listed listedMember
      rw [name, found] at otherFound
      cases otherFound
      refine .inl ⟨listed, listedMember, count, otherStatus,
        ⟨otherLists, ?_, ?_, counted⟩, ?_, ?_⟩
      · rw [name]
        exact safe
      · rw [path]
        exact there
      · rw [name]
        exact lists.isFor
      · rw [path]
        exact lists.path
    · rw [not_exists] at known
      have none : ∀ listed ∈ job.entries, ¬ Entry.isFor filename listed :=
        fun listed member named => known listed ⟨member, named⟩
      rw [unlisted filename none] at found
      exact .inr ⟨(mem_of_entry found).1, filename, named, found, none⟩
  refine ⟨⟨rebuilt.keyed, rebuilt.unique, ?_, ?_, ?_⟩, unlisted⟩
  · intro recorded member
    rcases origin recorded member with ⟨listed, -, chunks, status, accounts, -⟩ |
      ⟨old, filename, named, found, none⟩
    · exact ⟨_, _, chunks, status, accounts⟩
    · obtain ⟨name, path, chunks, status, lists, safe, there, counted⟩ :=
        accurate.listed recorded old
      cases isFor_unique named lists.isFor
      refine ⟨_, path, chunks, status, lists, safe, there, ?_⟩
      rintro rfl
      obtain ⟨listed, listedMember, listedNamed⟩ := complete _ recorded found lists.status
      exact absurd listedNamed (none listed listedMember)
  · intro id chunk stored
    obtain ⟨listed, member, recorded, found, status, source⟩ := rebuilt.owned id chunk stored
    obtain ⟨other, count, otherStatus, otherFound, lists, -⟩ := rebuilt.listed listed member
    rw [found] at otherFound
    cases otherFound
    exact ⟨_, _, recorded, found, status, lists.path, source⟩
  · intro first firstMember filename path named there second secondMember secondThere
    rcases origin first firstMember with
      ⟨firstListed, firstIn, _, _, firstAccounts, firstNamed, firstPath⟩ |
        ⟨firstOld, firstName, firstNamed, firstFound, firstNone⟩
    · have firstSame := isFor_unique named firstAccounts.lists.isFor
      have samePath := text_unique there firstAccounts.lists.path
      rw [samePath] at secondThere
      rw [firstSame]
      rcases origin second secondMember with
        ⟨secondListed, secondIn, _, _, secondAccounts, secondNamed, secondPath⟩ |
          ⟨secondOld, secondName, secondNamed, secondFound, secondNone⟩
      · rw [← text_unique secondThere secondAccounts.lists.path] at secondPath
        have shared := listing.apart firstListed firstIn _ _ firstNamed firstPath secondListed
          secondIn secondPath
        rw [isFor_unique shared secondNamed]
        exact secondAccounts.lists.isFor
      · exact owned firstListed firstIn _ _ firstNamed firstPath second secondOld secondThere
    · have firstSame := isFor_unique named firstNamed
      rcases origin second secondMember with
        ⟨secondListed, secondIn, _, _, secondAccounts, secondNamed, secondPath⟩ |
          ⟨secondOld, secondName, secondNamed, secondFound, secondNone⟩
      · rw [← text_unique secondThere secondAccounts.lists.path] at secondPath
        have shared := owned secondListed secondIn _ _ secondNamed secondPath first firstOld there
        rw [isFor_unique shared firstNamed] at secondNamed
        exact absurd secondNamed (firstNone secondListed secondIn)
      · exact accurate.apart first firstOld _ _ named there second secondOld secondThere

end

/-! ## Runs -/

/-- What holds of a knowledge base between two sections. -/
structure IndexState.Sound (indexer : Indexer) (state : IndexState) : Prop where
  accurate : Accurate indexer state.world
  rebuilds : ∀ job ∈ state.rebuilds, Listing indexer job.entries
  removed : ∀ filename ∈ state.deleted, state.world.entry filename = none

section

variable {indexer : Indexer} {state : IndexState}

theorem Accurate.listing {world : World} (accurate : Accurate indexer world) :
    Listing indexer world.entries where
  listed := by
    intro entry member
    obtain ⟨filename, path, chunks, status, lists, safe, there, -⟩ :=
      accurate.listed entry member
    exact ⟨filename, path, chunks, status, lists, safe, there⟩
  unique := accurate.unique
  apart := accurate.apart

theorem IndexState.Sound.consistent (sound : state.Sound indexer) : state.Consistent where
  counted := by
    intro entry member indexed
    obtain ⟨filename, path, chunks, status, lists, -, -, counted⟩ :=
      sound.accurate.listed entry member
    refine ⟨path, lists.path, ?_⟩
    rw [counted (text_unique lists.status indexed)]
    exact lists.chunks
  owned := by
    intro id chunk stored
    obtain ⟨filename, path, entry, found, status, placed, source⟩ :=
      sound.accurate.owned id chunk stored
    exact ⟨entry, (mem_of_entry found).1, status, path, placed, source⟩
  removed := by
    intro filename member entry entryMember named
    have found := entry_of_mem sound.accurate.unique entryMember named
    rw [sound.removed filename member] at found
    cases found

theorem sound_initial (files : Dictionary String Content) :
    (IndexState.initial files).Sound indexer :=
  ⟨accurate_initial files, nofun, nofun⟩

/-- A section on one file leaves the deleted ones deleted. -/
theorem IndexState.Sound.section (sound : state.Sound indexer) {filename : String}
    {next : World} (accurate : Accurate indexer next)
    (others : ∀ other, other ≠ filename → next.entry other = state.world.entry other) :
    IndexState.Sound indexer
      { state with world := next, deleted := state.deleted.filter (· ≠ filename) } where
  accurate := accurate
  rebuilds := sound.rebuilds
  removed := by
    intro other member
    rw [List.mem_filter, decide_eq_true_iff] at member
    exact (others other member.2).trans (sound.removed other member.1)

theorem IndexEvent.after_sound (hashes : indexer.reader.parser.Hashes) {event : IndexEvent}
    (allowed : event.Allowed indexer state) (upToDate : event.UpToDate state)
    (sound : state.Sound indexer) : (event.after indexer state).Sound indexer := by
  have accurate := sound.accurate
  cases event with
  | stage path content => exact ⟨accurate.congr ⟨rfl, rfl⟩, sound.rebuilds, sound.removed⟩
  | discard path => exact ⟨accurate.congr ⟨rfl, rfl⟩, sound.rebuilds, sound.removed⟩
  | upload file faults =>
      obtain ⟨recovers, unused, safe, owned⟩ := allowed
      obtain ⟨next, others⟩ := accurate.upload hashes recovers unused safe owned upToDate
      exact sound.section next others
  | sync request faults =>
      obtain ⟨recovers, unclaimed, unused, safe, owned, held⟩ := allowed
      obtain ⟨next, others⟩ :=
        accurate.sync hashes recovers unclaimed unused safe owned held upToDate
      exact sound.section next others
  | delete raw =>
      rw [IndexEvent.after]
      cases performed : indexer.base.deleteIndexedFile raw state.world with
      | error failure world =>
          rw [deleteIndexedFile_eq_error performed]
          exact sound
      | ok answer world =>
          obtain ⟨entry, found, named, rfl⟩ := deleteIndexedFile_eq_ok performed
          refine ⟨accurate.deleted found, sound.rebuilds, ?_⟩
          intro filename member
          rw [entry_removed deleted_entries]
          rw [List.mem_cons, named] at member
          split
          · rfl
          · rename_i other
            exact sound.removed filename (member.resolve_left other)
  | admitRebuild profile ocrProfile now =>
      refine ⟨accurate, ?_, sound.removed⟩
      intro job member
      rcases List.mem_cons.mp member with rfl | member
      · exact accurate.listing
      · exact sound.rebuilds job member
  | rebuild job =>
      rw [IndexEvent.after]
      cases found : state.rebuilds[job]? with
      | none => exact sound
      | some listed =>
          have listing := sound.rebuilds listed (List.mem_of_getElem? found)
          obtain ⟨complete, absent⟩ := upToDate listed found
          obtain ⟨next, others⟩ :=
            accurate.rebuilt hashes listing (allowed listed found) complete
          refine ⟨next, ?_, ?_⟩
          · intro other member
            exact sound.rebuilds other (List.mem_of_mem_eraseIdx member)
          · intro filename member
            rw [others filename fun entry entryMember => absent entry entryMember filename member]
            exact sound.removed filename member

end

/-- In every run in which an upload or a sync keeps the path of its file, and a rebuild runs
with entries that are up to date, the index and the collection agree. -/
theorem run_index_consistent (indexer : Indexer) (hashes : indexer.reader.parser.Hashes)
    (files : Dictionary String Content) (events : List IndexEvent)
    (allowed : Along (IndexEvent.after indexer) (IndexEvent.Allowed indexer) (.initial files)
      events)
    (upToDate : Along (IndexEvent.after indexer) IndexEvent.UpToDate (.initial files) events) :
    ∀ past, past <+: events →
      (run (IndexEvent.after indexer) (.initial files) past).Consistent := by
  intro past within
  have sound := along_invariant
    (fun event state conditions sound =>
      event.after_sound hashes conditions.1 conditions.2 sound)
    (Along.of_prefix (allowed.and upToDate) within) (@sound_initial indexer files)
  exact sound.consistent

/-! ## A sample run -/

/-- A parser that takes every file for one text, with hashes that are numbers. -/
def countedFile : Parser :=
  { wholeFile with sourceHash := fun path => toString path.length }

theorem alphanumeric_toString (value : Nat) : Alphanumeric (toString value) := by
  refine ⟨Nat.repr_ne_empty, ?_⟩
  intro character member
  rw [Nat.toString_eq_repr, Nat.toList_repr] at member
  have digit := Nat.isDigit_of_mem_toDigits (by decide) (by decide) member
  rw [Char.isAlphanum, digit, Bool.or_true]

theorem countedFile_hashes : countedFile.Hashes :=
  ⟨fun content => alphanumeric_toString content.length,
    fun path => alphanumeric_toString path.length⟩

def sampleIndexer : Indexer where
  base := { names := { secureFilename := id, isAlpha := Char.isAlpha }, uploadFolder := "/uploads" }
  reader := {
    parser := countedFile
    ocr := sampleOcr
    transcriptTexts := fun _ => .ok ["text"] }
  voice := sampleVoice

/-- An upload of a text file. -/
def sampleText (filename : String) : Upload :=
  { sampleUpload with
    filename := filename
    filePath := joinPath "/uploads" filename
    extension := "txt" }

/-- Stage a text file of the given length, and upload it. -/
def uploadText (filename : String) (length : Nat) : List IndexEvent :=
  [.stage (sampleText filename).stagedFilePath (List.replicate length 0),
    .upload (sampleText filename) {}]

def admitSample : IndexEvent :=
  .admitRebuild "profile" "profile" fun _ => "2024-01-01T00:00:00+00:00"

instance {filename path : String} {entries : List Entry} :
    Decidable (Owned filename path entries) :=
  inferInstanceAs (Decidable (∀ entry ∈ entries, _ → _))

/-- The upload of a text file is allowed. -/
theorem allowed_sampleText {filename : String} {state : IndexState}
    (checks : (sampleText filename).stagedFilePath ≠ (sampleText filename).filePath ∧
      state.world.files.get? (sampleText filename).backupFilePath = none ∧
      state.world.files.get? (sampleText filename).backupTranscriptPath = none ∧
      (sampleText filename).backupFilePath ≠ (sampleText filename).backupTranscriptPath ∧
      (sampleText filename).backupFilePath ≠ (sampleText filename).filePath ∧
      (sampleText filename).backupTranscriptPath ≠ (sampleText filename).filePath ∧
      sampleIndexer.base.names.safeFileIndexKey filename = filename ∧ filename ≠ "" ∧
      Owned filename (joinPath "/uploads" filename) state.world.entries) :
    (IndexEvent.upload (sampleText filename) {}).Allowed sampleIndexer state := by
  obtain ⟨distinct, file, transcript, backups, first, second, safe, named, owned⟩ := checks
  exact ⟨⟨rfl, rfl, rfl, rfl, rfl⟩, ⟨distinct, file, transcript, backups, first, second⟩,
    ⟨safe, named⟩, owned⟩

/-- A rebuild whose entries have the filenames that the entries with their paths have. -/
theorem allowed_rebuild {job : Nat} {state : IndexState}
    (checks : ∀ listed ∈ (state.rebuilds[job]?.map RebuildJob.entries).getD [],
      ∀ entry ∈ state.world.entries, entry.get? "path" = listed.get? "path" →
        entry.get? "filename" = listed.get? "filename") :
    (IndexEvent.rebuild job).Allowed sampleIndexer state := by
  intro found same listed member filename path named there entry entryMember entryThere
  rw [same] at checks
  rw [isFor_iff, checks listed member entry entryMember (entryThere.trans there.symm)]
  exact isFor_iff.mp named

theorem run_index_consistent_sample :
    (run (IndexEvent.after sampleIndexer) (.initial .empty)
      (uploadText "a.txt" 2 ++ [admitSample, .rebuild 0])).Consistent := by
  refine run_index_consistent sampleIndexer countedFile_hashes .empty _ ?_ ?_ _ List.prefix_rfl
  · refine ⟨trivial, allowed_sampleText ?_, trivial, allowed_rebuild ?_, trivial⟩
    · decide +kernel
    · decide +kernel
  · refine ⟨trivial, ?_, trivial, ?_, trivial⟩
    · intro entry found
      cases found
    · rintro found same
      cases same
      refine ⟨?_, nofun⟩
      intro filename entry held _
      obtain ⟨member, named⟩ := mem_of_entry held
      exact ⟨entry, member, named⟩

/-- A file is uploaded after a rebuild was admitted, and before it runs. -/
def overtakenRebuild : List IndexEvent :=
  uploadText "a.txt" 2 ++ [admitSample] ++ uploadText "b.txt" 3 ++ [.rebuild 0]

/-- The rebuild loses the chunks of the file. -/
theorem rebuild_loses_upload :
    ¬ ∀ (indexer : Indexer), indexer.reader.parser.Hashes →
      ∀ (files : Dictionary String Content) (events : List IndexEvent),
        Along (IndexEvent.after indexer) (IndexEvent.Allowed indexer) (.initial files) events →
          ∀ past, past <+: events →
            (run (IndexEvent.after indexer) (.initial files) past).Consistent := by
  intro claim
  have consistent := claim sampleIndexer countedFile_hashes .empty overtakenRebuild
    ⟨trivial, allowed_sampleText (by decide +kernel), trivial, trivial,
      allowed_sampleText (by decide +kernel), allowed_rebuild (by decide +kernel), trivial⟩
    _ List.prefix_rfl
  have lost : ∃ entry ∈
      (run (IndexEvent.after sampleIndexer) (.initial .empty) overtakenRebuild).world.entries,
      entry.get? "status" = some (.text "indexed") ∧
        entry.get? "path" = some (.text "/uploads/b.txt") ∧
        entry.get? "chunks" ≠ some (.integer ((run (IndexEvent.after sampleIndexer)
          (.initial .empty) overtakenRebuild).world.chunksOf "/uploads/b.txt").length) := by
    decide +kernel
  obtain ⟨entry, member, indexed, placed, differs⟩ := lost
  obtain ⟨path, there, counted⟩ := consistent.counted entry member indexed
  rw [text_unique there placed] at counted
  exact differs counted

end RAGuardian.Documents
