import RAGuardian.Documents.Indexer

/-! # Replacing a document is atomic

What `index_saved_document` touches, and that the rollback of
`index_staged_document` undoes it. -/

namespace RAGuardian.Documents

open Fallible

/-! ## Metadata -/

theorem get?_foldl_set {key : String} (entries : List (String × Scalar)) (base : Metadata)
    (absent : ∀ entry ∈ entries, entry.1 ≠ key) :
    (entries.foldl (fun metadata entry => metadata.set entry.1 entry.2) base).get? key =
      base.get? key := by
  induction entries generalizing base with
  | nil => rfl
  | cons entry rest induction =>
      rw [List.foldl_cons, induction _ fun other member => absent other (by simp [member])]
      exact Dictionary.get?_set_of_ne (Ne.symm (absent entry (by simp)))

theorem get?_merge {base extra : Metadata} {key : String} (absent : extra.get? key = none) :
    (merge base extra).get? key = base.get? key := by
  apply get?_foldl_set
  intro entry member same
  have found : extra.get? key = some entry.2 := by
    rw [Dictionary.get?_eq_some, ← same]
    exact member
  rw [absent] at found
  cases found

/-! ## What indexing touches -/

/-- A request whose metadata name neither a source nor a file, and whose OCR documents
have the file as their source. -/
structure Request.Plain (request : Request) : Prop where
  source : request.extraMetadata.get? "source" = none
  filename : request.extraMetadata.get? "filename" = none
  ocr : ∀ ocr ∈ request.ocr, ∀ documents error found extra message,
    ocr documents error = .ok (found, extra, message) →
      (∀ document ∈ found, document.metadata.get? "source" = some (.text request.filePath)) ∧
        extra.get? "source" = none ∧ extra.get? "filename" = none

/-- Nothing differs but the chunks of one source and the entry of one file. -/
structure Kept (request : Request) (original world : World) : Prop where
  files : world.files = original.files
  chunks : ∀ id chunk, chunk.source ≠ some (.text request.filePath) →
    (world.chunks.get? id = some chunk ↔ original.chunks.get? id = some chunk)
  entries : world.otherEntries request.filename = original.otherEntries request.filename

theorem mem_chunksOf {world : World} {source id : String} {chunk : Chunk} :
    (id, chunk) ∈ world.chunksOf source ↔
      world.chunks.get? id = some chunk ∧ chunk.source = some (.text source) := by
  rw [World.chunksOf, List.mem_filter, Dictionary.get?_eq_some]
  simp

theorem get?_addChunk {chunks : Dictionary String Chunk} {entry : String × Chunk} {id : String}
    {chunk : Chunk} (other : chunk.source ≠ entry.2.source) :
    (addChunk chunks entry).get? id = some chunk ↔ chunks.get? id = some chunk := by
  rw [addChunk]
  split
  · rfl
  · rename_i absent
    rw [Dictionary.get?_set]
    split
    · rename_i same
      rw [same, absent]
      constructor
      · intro equal
        cases equal
        exact absurd rfl other
      · intro found
        cases found
    · rfl

theorem get?_addChunks {chunks : Dictionary String Chunk} {source : String}
    (added : List (String × Chunk)) (sourced : ∀ entry ∈ added, entry.2.source = some (.text source))
    {id : String} {chunk : Chunk} (other : chunk.source ≠ some (.text source)) :
    (added.foldl addChunk chunks).get? id = some chunk ↔ chunks.get? id = some chunk := by
  induction added generalizing chunks with
  | nil => rfl
  | cons entry rest induction =>
      rw [List.foldl_cons, induction fun entry member => sourced entry (by simp [member])]
      apply get?_addChunk
      rw [sourced entry (by simp)]
      exact other

theorem filter_otherEntries (world : World) (filename : String) (replacement : List Entry)
    (named : ∀ entry ∈ replacement, Entry.isFor filename entry) :
    (replacement ++ world.otherEntries filename).filter (fun entry => !Entry.isFor filename entry) =
      world.otherEntries filename := by
  have dropped : replacement.filter (fun entry => !Entry.isFor filename entry) = [] := by
    rw [List.filter_eq_nil_iff]
    intro entry member
    simp [named entry member]
  rw [List.filter_append, dropped, World.otherEntries, List.filter_filter]
  simp

namespace Kept

variable {request : Request} {original world : World}

theorem refl (request : Request) (original : World) : Kept request original original where
  files := rfl
  chunks := fun _ _ _ => Iff.rfl
  entries := rfl

theorem deleteChunks (kept : Kept request original world) {ids : List String}
    (own : ∀ id ∈ ids, id ∈ (world.chunksOf request.filePath).map Prod.fst) :
    Kept request original (world.deleteChunks ids) where
  files := kept.files
  entries := kept.entries
  chunks := by
    intro id chunk other
    rw [World.deleteChunks, Dictionary.get?_removeWhere, ← kept.chunks id chunk other]
    constructor
    · exact And.left
    · intro found
      refine ⟨found, ?_⟩
      rw [decide_eq_false_iff_not]
      intro listed
      rcases List.mem_map.mp (own id listed) with ⟨entry, member, rfl⟩
      have stored := mem_chunksOf.mp member
      rw [found] at stored
      cases stored.1
      exact other stored.2

theorem addChunks (kept : Kept request original world) {added : List (String × Chunk)}
    (sourced : ∀ entry ∈ added, entry.2.source = some (.text request.filePath)) :
    Kept request original (world.addChunks added) where
  files := kept.files
  entries := kept.entries
  chunks := by
    intro id chunk other
    rw [← kept.chunks id chunk other]
    exact get?_addChunks added sourced other

theorem record (kept : Kept request original world) {entry : Entry}
    (named : Entry.isFor request.filename entry) :
    Kept request original (world.record request.filename entry) where
  files := kept.files
  chunks := kept.chunks
  entries := by
    rw [← kept.entries]
    exact filter_otherEntries world request.filename [entry] (by simpa using named)

end Kept

section

variable {parser : Parser} {faults : Faults} {request : Request} {original : World}

theorem keeps_failing {invariant : World → Prop} (fault : Option String) :
    Keeps invariant (failing fault) := by
  rw [failing.eq_def]
  cases fault with
  | none => exact .done ()
  | some message => exact .fail _

theorem keeps_assertLocksHealthy {invariant : World → Prop} (check : Nat) :
    Keeps invariant (assertLocksHealthy faults check) := by
  rw [assertLocksHealthy]
  split
  · exact .fail _
  · exact .done ()

theorem keeps_deleteBySource :
    Keeps (Kept request original) (deleteBySource faults request.filePath) := by
  rw [deleteBySource]
  apply Leads.bind Leads.read
  intro world
  have deleted : ∀ ids : List String,
      (∀ id ∈ ids, id ∈ (world.chunksOf request.filePath).map Prod.fst) →
      Leads (fun state => world = state ∧ Kept request original state)
        (modify fun world => world.deleteChunks ids : Action Unit)
        (fun _ => Kept request original) (Kept request original) := by
    intro ids own
    apply Leads.update
    rintro _ ⟨rfl, kept⟩
    exact kept.deleteChunks own
  split
  · exact (deleted _ fun id member => (List.mem_filter.mp member).1).bind fun _ => Keeps.fail _
  · exact (deleted _ fun id member => member).bind fun _ => Keeps.done _

theorem keeps_addDocuments {documents : List Document}
    (sourced : ∀ document ∈ documents,
      document.metadata.get? "source" = some (.text request.filePath)) :
    Keeps (Kept request original) (addDocuments parser faults documents) := by
  have chunks : ∀ entry ∈ chunksFor parser documents,
      entry.2.source = some (.text request.filePath) := by
    intro entry member
    rcases List.mem_map.mp member with ⟨⟨document, index⟩, indexed, rfl⟩
    exact sourced document (List.fst_mem_of_mem_zipIdx indexed)
  rw [addDocuments]
  apply Keeps.bind (keeps_failing _)
  intro _
  split
  · apply Keeps.bind (Keeps.update ?_) fun _ => Keeps.fail _
    intro world kept
    exact kept.addChunks fun entry member => chunks entry (List.mem_filter.mp member).1
  · apply Keeps.update
    intro world kept
    exact kept.addChunks chunks

theorem isFor_entryFor {path status error : String} {chunks : Nat} {metadata : Metadata}
    (absent : metadata.get? "filename" = none) :
    Entry.isFor request.filename (entryFor request path chunks status error metadata) := by
  rw [Entry.isFor, entryFor, get?_merge absent]
  simp [Dictionary.get?_set]

theorem recordMetadata_filename {documentId sourceId : String} {extra : Metadata}
    (absent : extra.get? "filename" = none) :
    (recordMetadata request documentId sourceId extra).get? "filename" = none := by
  rw [recordMetadata, get?_merge absent]
  simp [Dictionary.get?_set]

theorem keeps_recordEntry {path status error documentId sourceId : String} {chunks : Nat}
    {extra : Metadata} (absent : extra.get? "filename" = none) :
    Keeps (Kept request original)
      (recordEntry faults request path chunks status error documentId sourceId extra) := by
  rw [recordEntry]
  apply Keeps.bind (keeps_failing _)
  intro _
  apply Keeps.bind (keeps_failing _)
  intro _
  apply Keeps.update
  intro world kept
  exact kept.record (isFor_entryFor (recordMetadata_filename absent))

theorem applyExtraMetadata_source {documents : List Document} {extra : Metadata}
    {source : Scalar} (absent : extra.get? "source" = none)
    (sourced : ∀ document ∈ documents, document.metadata.get? "source" = some source) :
    ∀ document ∈ applyExtraMetadata documents extra,
      document.metadata.get? "source" = some source := by
  intro document member
  rcases List.mem_map.mp member with ⟨parsed, parsedMember, rfl⟩
  rw [get?_merge absent]
  exact sourced parsed parsedMember

theorem processFile_source {path extension : String} {world : World}
    {documents : List Document}
    (processed : processFile parser path extension world = .ok documents) :
    ∀ document ∈ documents, document.metadata.get? "source" = some (.text path) := by
  rw [processFile] at processed
  split at processed
  · cases processed
  · rename_i content _
    cases texts : parser.texts extension content with
    | error message =>
        rw [texts] at processed
        cases processed
    | ok texts =>
        rw [texts] at processed
        cases processed
        intro document member
        rcases List.mem_map.mp member with ⟨⟨text, index⟩, -, rfl⟩
        simp [Dictionary.get?_set]

theorem parseFile_source {path extension : String} {world : World} :
    ∀ document ∈ (parseFile parser path extension world).1,
      document.metadata.get? "source" = some (.text path) := by
  rw [parseFile]
  split
  · rename_i documents processed
    exact processFile_source processed
  · simp

/-- What parsing a plain request yields. -/
structure Plain (request : Request) (parsed : Parsed) : Prop where
  documents : ∀ document ∈ parsed.documents,
    document.metadata.get? "source" = some (.text request.filePath)
  source : parsed.extra.get? "source" = none
  filename : parsed.extra.get? "filename" = none

theorem readImages_plain (plain : request.Plain) {extension parseError : String}
    {documents : List Document} {extra : Metadata}
    (given : Plain request ⟨documents, extra, parseError, ""⟩) :
    Leads (Kept request original) (readImages request extension documents extra parseError)
      (fun parsed world => Plain request parsed ∧ Kept request original world)
      (Kept request original) := by
  rw [readImages]
  split
  · exact Leads.done fun world kept => ⟨⟨given.documents, given.source, given.filename⟩, kept⟩
  · rename_i ocr present
    split
    · exact Leads.done fun world kept => ⟨⟨given.documents, given.source, given.filename⟩, kept⟩
    · split
      · exact Leads.fail fun _ kept => kept
      · rename_i found ocrExtra ocrError read
        rcases plain.ocr ocr present documents parseError found ocrExtra ocrError read with
          ⟨sourced, source, filename⟩
        refine Leads.done fun world kept => ⟨⟨?_, ?_, ?_⟩, kept⟩
        · dsimp only
          split
          · exact given.documents
          · exact sourced
        · exact (get?_merge source).trans given.source
        · exact (get?_merge filename).trans given.filename

theorem parseDocument_plain (plain : request.Plain) {extension : String} :
    Leads (Kept request original) (parseDocument parser request request.filePath extension)
      (fun parsed world => Plain request parsed ∧ Kept request original world)
      (Kept request original) := by
  rw [parseDocument]
  apply Leads.bind Leads.read
  intro world
  apply Leads.weaken (Leads.bind (readImages_plain plain ?_) ?_) fun _ holds => holds.2
  · refine ⟨parseFile_source, ?_, ?_⟩
    · rw [get?_merge plain.source]
      simp [Dictionary.get?_set]
    · rw [get?_merge plain.filename]
      simp [Dictionary.get?_set]
  · intro parsed
    refine Leads.done fun world holds => ⟨⟨?_, holds.1.source, holds.1.filename⟩, holds.2⟩
    exact applyExtraMetadata_source holds.1.source holds.1.documents

theorem keeps_clearCacheAfter {invariant : World → Prop} (replaced : Nat) :
    Keeps invariant (clearCacheAfter faults replaced) := by
  rw [clearCacheAfter]
  split
  · exact keeps_failing _
  · exact .done ()

theorem keeps_findDuplicate {invariant : World → Prop} (documentId path : String) :
    Keeps invariant (findDuplicate faults documentId path) := by
  rw [findDuplicate]
  split
  · exact .done none
  · apply Keeps.bind (keeps_failing _)
    intro _
    exact Keeps.bind Keeps.read fun _ => Keeps.done _

theorem keeps_indexParsed {parsed : Parsed} (plain : Plain request parsed) :
    Keeps (Kept request original)
      (indexParsed parser faults request request.filePath parsed) := by
  rw [indexParsed]
  apply Keeps.bind (keeps_assertLocksHealthy _)
  intro _
  apply Keeps.bind keeps_deleteBySource
  intro replaced
  split
  · apply Keeps.bind (keeps_assertLocksHealthy _)
    intro _
    apply Keeps.bind (keeps_recordEntry plain.filename)
    intro _
    exact Keeps.bind (keeps_clearCacheAfter _) fun _ => Keeps.fail _
  · rename_i first rest documents
    apply Keeps.bind (keeps_findDuplicate _ _)
    intro duplicate
    split
    · apply Keeps.bind (keeps_assertLocksHealthy _)
      intro _
      apply Keeps.bind (keeps_clearCacheAfter _)
      intro _
      apply Keeps.bind (keeps_recordEntry _) fun _ => Keeps.done _
      simp [Dictionary.get?_set, plain.filename]
    · apply Keeps.bind (keeps_assertLocksHealthy _)
      intro _
      apply Keeps.bind (keeps_addDocuments (documents ▸ plain.documents))
      intro _
      apply Keeps.bind (keeps_failing _)
      intro _
      apply Keeps.bind (keeps_assertLocksHealthy _)
      intro _
      exact Keeps.bind (keeps_recordEntry plain.filename) fun _ => Keeps.done _

theorem keeps_indexSavedDocument (plain : request.Plain) :
    Keeps (Kept request original)
      (indexSavedDocument parser faults request request.filePath) := by
  rw [indexSavedDocument]
  split
  · exact Keeps.fail _
  · apply Leads.bind (parseDocument_plain plain)
    intro parsed
    refine ⟨fun world holds => ?_⟩
    exact (keeps_indexParsed holds.1).outcome world holds.2

end

/-! ## The files -/

theorem get?_replaceFile {world : World} {source target path : String}
    (present : world.isFile source) :
    (world.replaceFile source target).files.get? path =
      if path = target then world.files.get? source
      else if path = source then none
      else world.files.get? path := by
  rcases Option.isSome_iff_exists.mp present with ⟨content, found⟩
  rw [World.replaceFile, found, Dictionary.get?_set]
  split
  · rfl
  · split
    · rename_i same
      rw [same]
      exact Dictionary.get?_erase_self _ _
    · rename_i different
      exact Dictionary.get?_erase_of_ne different

theorem get?_removeFile (world : World) (removed path : String) :
    (world.removeFile removed).files.get? path =
      if path = removed then none else world.files.get? path := by
  split
  · rename_i same
    rw [same]
    exact Dictionary.get?_erase_self _ _
  · rename_i different
    exact Dictionary.get?_erase_of_ne different

@[simp] theorem replaceFile_chunks (world : World) (source target : String) :
    (world.replaceFile source target).chunks = world.chunks := by
  rw [World.replaceFile]
  split <;> rfl

@[simp] theorem replaceFile_entries (world : World) (source target : String) :
    (world.replaceFile source target).entries = world.entries := by
  rw [World.replaceFile]
  split <;> rfl

/-- The world after the backup. -/
def Request.backedUp (request : Request) (world : World) : World :=
  if world.isFile request.filePath then world.replaceFile request.filePath request.backupPath
  else world

/-- The world after the two moves. -/
def Request.committed (request : Request) (world : World) : World :=
  (request.backedUp world).replaceFile request.stagedFilePath request.filePath

@[simp] theorem backedUp_chunks (request : Request) (world : World) :
    (request.backedUp world).chunks = world.chunks := by
  rw [Request.backedUp]
  split <;> simp

@[simp] theorem backedUp_entries (request : Request) (world : World) :
    (request.backedUp world).entries = world.entries := by
  rw [Request.backedUp]
  split <;> simp

@[simp] theorem committed_chunks (request : Request) (world : World) :
    (request.committed world).chunks = world.chunks := by
  simp [Request.committed]

@[simp] theorem committed_entries (request : Request) (world : World) :
    (request.committed world).entries = world.entries := by
  simp [Request.committed]

/-- The paths of a call: a staged file of its own and an unused backup path. -/
structure Apart (request : Request) (world : World) : Prop where
  staged : world.isFile request.stagedFilePath
  distinct : request.stagedFilePath ≠ request.filePath
  fresh : world.files.get? request.backupPath = none

namespace Apart

variable {request : Request} {world : World}

theorem staged_ne_backup (apart : Apart request world) :
    request.stagedFilePath ≠ request.backupPath := by
  intro same
  have staged := apart.staged
  rw [World.isFile, same, apart.fresh] at staged
  cases staged

theorem file_ne_backup (apart : Apart request world) (existing : world.isFile request.filePath) :
    request.filePath ≠ request.backupPath := by
  intro same
  rw [World.isFile, same, apart.fresh] at existing
  cases existing

theorem staged_backedUp (apart : Apart request world) :
    (request.backedUp world).files.get? request.stagedFilePath =
      world.files.get? request.stagedFilePath := by
  rw [Request.backedUp]
  split
  · rename_i existing
    rw [get?_replaceFile existing, if_neg apart.staged_ne_backup, if_neg apart.distinct]
  · rfl

theorem get?_committed (apart : Apart request world) (path : String) :
    (request.committed world).files.get? path =
      if path = request.filePath then world.files.get? request.stagedFilePath
      else if path = request.stagedFilePath then none
      else (request.backedUp world).files.get? path := by
  have staged : (request.backedUp world).isFile request.stagedFilePath := by
    rw [World.isFile, apart.staged_backedUp]
    exact apart.staged
  rw [Request.committed, get?_replaceFile staged, apart.staged_backedUp]

end Apart

/-! ## Where a call is interrupted -/

/-- The progress of a call whose two moves are done. -/
def Request.finished (request : Request) (world : World) : Progress where
  snapshot := some (world.chunksOf request.filePath)
  backupCreated := world.isFile request.filePath
  replacementCommitted := true

/-- What a call that stops leaves, by how far it went. -/
inductive Interrupted (request : Request) (original : World) : World × Progress → Prop
  | early : Interrupted request original (original, {})
  | captured : Interrupted request original
      (original, { snapshot := some (original.chunksOf request.filePath) })
  | backedUp (existing : original.isFile request.filePath) : Interrupted request original
      (request.backedUp original,
        { snapshot := some (original.chunksOf request.filePath), backupCreated := true })
  | replaced {world : World} (kept : Kept request (request.committed original) world) :
      Interrupted request original (world, request.finished original)

section

variable {parser : Parser} {faults : Faults} {request : Request} {original : World}

theorem onWorld_ok {α : Type} {action : Action α} {value : α} {pair next : World × Progress}
    (performed : onWorld action pair = .ok value next) :
    action pair.1 = .ok value next.1 ∧ next.2 = pair.2 := by
  rcases pair with ⟨world, progress⟩
  rw [onWorld] at performed
  cases outcome : action world with
  | ok value world =>
      rw [outcome] at performed
      cases performed
      exact ⟨rfl, rfl⟩
  | error failure world =>
      rw [outcome] at performed
      cases performed

theorem onWorld_error {α : Type} {action : Action α} {failure : Failure}
    {pair next : World × Progress} (performed : onWorld action pair = .error failure next) :
    action pair.1 = .error failure next.1 ∧ next.2 = pair.2 := by
  rcases pair with ⟨world, progress⟩
  rw [onWorld] at performed
  cases outcome : action world with
  | ok value world =>
      rw [outcome] at performed
      cases performed
  | error failure world =>
      rw [outcome] at performed
      cases performed
      exact ⟨rfl, rfl⟩

/-- An action on the world keeps what it keeps for every progress. -/
theorem keeps_onWorld {α : Type} {invariant : World × Progress → Prop} {action : Action α}
    (keeps : ∀ progress, Keeps (fun world => invariant (world, progress)) action) :
    Keeps invariant (onWorld action) :=
  Leads.cases
    (by
      rintro pair value ⟨next, progress⟩ holds performed
      rcases onWorld_ok performed with ⟨returned, rfl⟩
      exact (keeps pair.2).ok holds returned)
    (by
      rintro pair failure ⟨next, progress⟩ holds performed
      rcases onWorld_error performed with ⟨raised, rfl⟩
      exact (keeps pair.2).error holds raised)

theorem moveFile_ok {world : World} {source target : String} (present : world.isFile source) :
    moveFile source target world = .ok () (world.replaceFile source target) := by
  change (if world.isFile source then set (world.replaceFile source target) else _ :
    Action Unit) world = _
  rw [if_pos present]
  rfl

theorem onWorld_moveFile {world : World} {progress : Progress} {source target : String}
    {failed : World × Progress → Prop} (present : world.isFile source) :
    Leads (· = (world, progress)) (onWorld (moveFile source target))
      (fun _ pair => pair = (world.replaceFile source target, progress)) failed where
  outcome := by
    rintro _ rfl
    rw [onWorld, moveFile_ok present]

theorem leads_backUp {failed : World × Progress → Prop}
    (interrupted : ∀ pair, Interrupted request original pair → failed pair) :
    Leads (· = (original, { snapshot := some (original.chunksOf request.filePath) }))
      (backUp faults request (original.isFile request.filePath))
      (fun _ pair => pair = (request.backedUp original,
        { snapshot := some (original.chunksOf request.filePath)
          backupCreated := original.isFile request.filePath }))
      failed := by
  have captured : ∀ pair,
      pair = (original, { snapshot := some (original.chunksOf request.filePath) }) →
        failed pair := by
    rintro _ rfl
    exact interrupted _ .captured
  rw [backUp]
  split
  · rename_i existing
    apply Leads.bind (Keeps.leads (keeps_onWorld fun _ => keeps_failing _) captured)
    intro _
    apply Leads.bind (onWorld_moveFile existing)
    intro _
    apply Leads.update
    rintro _ rfl
    rw [Request.backedUp, if_pos existing, existing]
  · rename_i missing
    apply Leads.done
    rintro _ rfl
    rw [Request.backedUp, if_neg missing, Bool.eq_false_iff.mpr missing]

theorem interrupted_backedUp :
    Interrupted request original (request.backedUp original,
      { snapshot := some (original.chunksOf request.filePath)
        backupCreated := original.isFile request.filePath }) := by
  cases existing : original.isFile request.filePath with
  | true => exact .backedUp existing
  | false =>
      have same : request.backedUp original = original := by
        rw [Request.backedUp, existing]
        rfl
      rw [same]
      exact .captured

/-- What indexing leaves once the two moves are done. -/
def Request.Finished (request : Request) (original : World) (pair : World × Progress) : Prop :=
  Kept request (request.committed original) pair.1 ∧ pair.2 = request.finished original

theorem interrupted_of_finished {pair : World × Progress}
    (finished : request.Finished original pair) : Interrupted request original pair := by
  rcases pair with ⟨world, progress⟩
  rcases finished with ⟨kept, rfl⟩
  exact .replaced kept

theorem keeps_finished {α : Type} {action : Action α}
    (keeps : Keeps (Kept request (request.committed original)) action) :
    Keeps (request.Finished original) (onWorld action) :=
  keeps_onWorld fun _ =>
    Leads.cases (fun _ _ _ holds performed => ⟨Leads.ok keeps holds.1 performed, holds.2⟩)
      fun _ _ _ holds performed => ⟨Leads.error keeps holds.1 performed, holds.2⟩

/-- The `try` block either does everything or stops at one of the known places. -/
theorem leads_replaceAndIndex (plain : request.Plain) (apart : Apart request original) :
    Leads (· = (original, {}))
      (replaceAndIndex parser faults request (original.isFile request.filePath))
      (fun _ => request.Finished original) (Interrupted request original) := by
  have early : ∀ pair, pair = (original, {}) → Interrupted request original pair := by
    rintro _ rfl
    exact .early
  have moved : ∀ pair, pair = (request.backedUp original,
      { snapshot := some (original.chunksOf request.filePath)
        backupCreated := original.isFile request.filePath }) →
        Interrupted request original pair := by
    rintro _ rfl
    exact interrupted_backedUp
  rw [replaceAndIndex]
  apply Leads.bind (Keeps.leads (keeps_onWorld fun _ => keeps_assertLocksHealthy _) early)
  intro _
  apply Leads.bind (Keeps.leads (keeps_onWorld fun _ => keeps_failing _) early)
  intro _
  apply Leads.bind Leads.change
  intro _
  apply Leads.bind (leads_backUp fun _ interrupted => interrupted)
  intro _
  apply Leads.bind (Keeps.leads (keeps_onWorld fun _ => keeps_failing _) moved)
  intro _
  have staged : (request.backedUp original).isFile request.stagedFilePath := by
    rw [World.isFile, apart.staged_backedUp]
    exact apart.staged
  apply Leads.bind (onWorld_moveFile staged)
  intro _
  apply Leads.bind Leads.change
  intro _
  have indexed : Keeps (request.Finished original)
      (onWorld (indexSavedDocument parser faults request request.filePath)) :=
    keeps_finished (keeps_indexSavedDocument plain)
  have checked : Keeps (request.Finished original)
      (onWorld (assertLocksHealthy faults 4)) :=
    keeps_finished (keeps_assertLocksHealthy _)
  apply @Leads.weaken _ _ _ _ _ (request.Finished original)
  · apply Leads.bind (indexed.leads fun _ => interrupted_of_finished)
    intro _
    apply Leads.bind (checked.leads fun _ => interrupted_of_finished)
    intro _
    exact Leads.done fun _ holds => holds
  · rintro _ rfl
    exact ⟨Kept.refl request _, rfl⟩

end

/-! ## The rollback -/

theorem get?_upsertChunks {world : World} {upserted : List (String × Chunk)}
    (distinct : (upserted.map Prod.fst).Nodup) {id : String} {chunk : Chunk} :
    (world.upsertChunks upserted).chunks.get? id = some chunk ↔
      (id, chunk) ∈ upserted ∨
        id ∉ upserted.map Prod.fst ∧ world.chunks.get? id = some chunk := by
  rw [World.upsertChunks]
  generalize world.chunks = chunks
  induction upserted generalizing chunks with
  | nil => simp
  | cons entry rest induction =>
      rw [List.map_cons, List.nodup_cons] at distinct
      rw [List.foldl_cons, induction distinct.2, Dictionary.get?_set, List.mem_cons]
      split
      · rename_i same
        subst same
        have unlisted : ∀ chunk, (entry.1, chunk) ∉ rest :=
          fun chunk member => distinct.1 (List.mem_map.mpr ⟨_, member, rfl⟩)
        simp [unlisted, distinct.1, Prod.ext_iff, eq_comm]
      · rename_i different
        simp [different, Prod.ext_iff]

theorem distinct_chunksOf (world : World) (source : String) :
    ((world.chunksOf source).map Prod.fst).Nodup :=
  (List.filter_sublist.map Prod.fst).nodup world.chunks.distinct

theorem source_of_mem_chunksOf {world : World} {source id : String} {chunk : Chunk}
    (listed : id ∈ (world.chunksOf source).map Prod.fst)
    (stored : world.chunks.get? id = some chunk) : chunk.source = some (.text source) := by
  rcases List.mem_map.mp listed with ⟨⟨_, other⟩, member, rfl⟩
  have found := mem_chunksOf.mp member
  rw [stored] at found
  cases found.1
  exact found.2

/-- The chunks of other sources are the ones of the original world. -/
def SameElsewhere (source : String) (original world : World) : Prop :=
  ∀ id chunk, chunk.source ≠ some (.text source) →
    (world.chunks.get? id = some chunk ↔ original.chunks.get? id = some chunk)

/-- A snapshot restores every chunk if the other sources are as they were. -/
theorem get?_restoreSnapshot {source : String} {original world : World}
    (elsewhere : SameElsewhere source original world) (id : String) :
    (world.restoreSnapshot source (original.chunksOf source)).chunks.get? id =
      original.chunks.get? id := by
  apply Option.ext
  intro chunk
  rw [World.restoreSnapshot, World.deleteChunks, Dictionary.get?_removeWhere,
    get?_upsertChunks (distinct_chunksOf original source), decide_eq_false_iff_not,
    List.mem_filter, decide_eq_true_iff]
  constructor
  · rintro ⟨listed | ⟨unlisted, stored⟩, kept⟩
    · exact (mem_chunksOf.mp listed).1
    · apply (elsewhere id chunk ?_).mp stored
      intro own
      apply kept
      exact ⟨List.mem_map_of_mem (f := Prod.fst) (mem_chunksOf.mpr ⟨stored, own⟩), unlisted⟩
  · intro stored
    by_cases own : chunk.source = some (.text source)
    · have listed := mem_chunksOf.mpr ⟨stored, own⟩
      exact ⟨.inl listed, fun stale => stale.2 (List.mem_map_of_mem (f := Prod.fst) listed)⟩
    · have present := (elsewhere id chunk own).mpr stored
      refine ⟨.inr ⟨?_, present⟩, ?_⟩
      · intro listed
        exact own (source_of_mem_chunksOf listed stored)
      · intro stale
        exact own (source_of_mem_chunksOf stale.1 present)

/-- The steps of the rollback and the cleanup succeed. -/
structure Faults.Recovers (faults : Faults) : Prop where
  restoreFile : faults.restoreFile = none
  restoreChunks : faults.restoreChunks = none
  restoreCache : faults.restoreCache = none
  restoreEntry : faults.restoreEntry = none
  cleanStaged : faults.cleanStaged = false

/-- The first part of a rollback that succeeds. -/
def Request.undoMoves (request : Request) (progress : Progress) (world : World) : World :=
  let removed :=
    if progress.replacementCommitted ∧ world.isFile request.filePath then
      world.removeFile request.filePath
    else world
  if progress.backupCreated then removed.replaceFile request.backupPath request.filePath
  else removed

/-- A rollback that succeeds. -/
def Request.undo (request : Request) (original : World) (progress : Progress) (world : World) :
    World :=
  match progress.snapshot with
  | none => world
  | some snapshot =>
      ((request.undoMoves progress world).restoreSnapshot request.filePath
        snapshot).restoreEntry request.filename (original.entry request.filename)

section

variable {parser : Parser} {faults : Faults} {request : Request} {original : World}

@[simp] theorem undoMoves_chunks (progress : Progress) (world : World) :
    (request.undoMoves progress world).chunks = world.chunks := by
  rw [Request.undoMoves]
  split <;> simp [World.removeFile, apply_ite World.chunks]

@[simp] theorem undoMoves_entries (progress : Progress) (world : World) :
    (request.undoMoves progress world).entries = world.entries := by
  rw [Request.undoMoves]
  split <;> simp [World.removeFile, apply_ite World.entries]

theorem isFile_removeFile_of_ne {world : World} {removed path : String}
    (different : path ≠ removed) : (world.removeFile removed).isFile path = world.isFile path := by
  rw [World.isFile, get?_removeFile, if_neg different, World.isFile]

theorem restoreBackup_ok {world : World} (present : world.isFile request.backupPath) :
    restoreBackup request world =
      .ok () (world.replaceFile request.backupPath request.filePath) := by
  change (if world.isFile request.backupPath then
    moveFile request.backupPath request.filePath else _ : Action Unit) world = _
  rw [if_pos present, moveFile_ok present]

theorem restoreFile_ok (recovers : faults.Recovers) {progress : Progress} {world : World}
    (backed : progress.backupCreated → world.isFile request.backupPath ∧
      request.filePath ≠ request.backupPath) :
    restoreFile faults request progress world = .ok () (request.undoMoves progress world) := by
  rw [restoreFile, recovers.restoreFile, Request.undoMoves]
  cases created : progress.backupCreated with
  | false => rfl
  | true =>
      apply restoreBackup_ok
      dsimp only
      split
      · rw [isFile_removeFile_of_ne (Ne.symm (backed created).2)]
        exact (backed created).1
      · exact (backed created).1

theorem rollback_eq (recovers : faults.Recovers) {message : String} {progress : Progress}
    {world : World}
    (backed : progress.backupCreated → world.isFile request.backupPath ∧
      request.filePath ≠ request.backupPath) :
    rollback faults request (original.entry request.filename) message progress world =
      (.raised message, request.undo original progress world) := by
  rw [rollback, Request.undo]
  cases progress.snapshot with
  | none => rfl
  | some snapshot =>
      have chunks : restoreChunks faults request snapshot (request.undoMoves progress world) =
          .ok () ((request.undoMoves progress world).restoreSnapshot request.filePath
            snapshot) := by
        rw [restoreChunks, recovers.restoreChunks, recovers.restoreCache]
        rfl
      have entry : ∀ world : World,
          restoreEntry faults request (original.entry request.filename) world =
            .ok () (world.restoreEntry request.filename (original.entry request.filename)) := by
        intro world
        rw [restoreEntry, recovers.restoreEntry]
        rfl
      simp only [attempt, restoreFile_ok recovers backed, chunks, entry]
      rfl

/-! ## What a call leaves -/

theorem get?_backedUp (path : String) :
    (request.backedUp original).files.get? path =
      if original.isFile request.filePath then
        if path = request.backupPath then original.files.get? request.filePath
        else if path = request.filePath then none
        else original.files.get? path
      else original.files.get? path := by
  rw [Request.backedUp]
  split
  · rename_i existing
    exact get?_replaceFile existing
  · rfl

theorem isFile_backedUp (existing : original.isFile request.filePath) :
    (request.backedUp original).isFile request.backupPath := by
  rw [World.isFile, get?_backedUp, if_pos existing, if_pos rfl]
  exact existing

theorem get?_undoBackup (apart : Apart request original)
    (existing : original.isFile request.filePath) (path : String) :
    ((request.backedUp original).replaceFile request.backupPath request.filePath).files.get? path =
      original.files.get? path := by
  rw [get?_replaceFile (isFile_backedUp existing)]
  simp only [get?_backedUp, existing, if_true]
  split
  · rename_i same
    rw [same]
  · rename_i other
    split
    · rename_i same
      rw [same, apart.fresh]
    · rfl

/-- Undoing both moves gives back every file but the staged one. -/
theorem get?_undoCommit (apart : Apart request original) {world : World}
    (files : world.files = (request.committed original).files) {path : String}
    (different : path ≠ request.stagedFilePath) :
    (request.undoMoves (request.finished original) world).files.get? path =
      original.files.get? path := by
  have present : world.isFile request.filePath := by
    rw [World.isFile, files, apart.get?_committed, if_pos rfl]
    exact apart.staged
  have removed : ∀ other, other ≠ request.filePath → other ≠ request.stagedFilePath →
      (world.removeFile request.filePath).files.get? other =
        (request.backedUp original).files.get? other := by
    intro other notFile notStaged
    rw [get?_removeFile, if_neg notFile, files, apart.get?_committed, if_neg notFile,
      if_neg notStaged]
  have first : (if (request.finished original).replacementCommitted ∧
      world.isFile request.filePath then world.removeFile request.filePath else world) =
        world.removeFile request.filePath := if_pos ⟨rfl, present⟩
  rw [Request.undoMoves, first]
  cases existing : original.isFile request.filePath with
  | false =>
      rw [Request.finished, existing]
      change (world.removeFile request.filePath).files.get? path = _
      by_cases same : path = request.filePath
      · rw [same, get?_removeFile, if_pos rfl]
        rw [World.isFile, Option.isSome_eq_false_iff, Option.isNone_iff_eq_none] at existing
        exact existing.symm
      · rw [removed path same different, get?_backedUp, existing]
        rfl
  | true =>
      have backup := removed request.backupPath (Ne.symm (apart.file_ne_backup existing))
        (Ne.symm apart.staged_ne_backup)
      have backupPresent : (world.removeFile request.filePath).isFile request.backupPath := by
        rw [World.isFile, backup]
        exact isFile_backedUp existing
      rw [Request.finished, existing]
      change ((world.removeFile request.filePath).replaceFile request.backupPath
        request.filePath).files.get? path = _
      rw [get?_replaceFile backupPresent, backup, ← get?_undoBackup apart existing path,
        get?_replaceFile (isFile_backedUp existing)]
      by_cases same : path = request.filePath
      · rw [if_pos same, if_pos same]
      · rw [if_neg same, if_neg same, removed path same different]

theorem backed_of_interrupted (apart : Apart request original) {world : World}
    {progress : Progress} (interrupted : Interrupted request original (world, progress))
    (created : progress.backupCreated) :
    world.isFile request.backupPath ∧ request.filePath ≠ request.backupPath := by
  cases interrupted with
  | early => cases created
  | captured => cases created
  | backedUp existing => exact ⟨isFile_backedUp existing, apart.file_ne_backup existing⟩
  | replaced kept =>
      have different := apart.file_ne_backup created
      refine ⟨?_, different⟩
      rw [World.isFile, kept.files, apart.get?_committed, if_neg (Ne.symm different),
        if_neg (Ne.symm apart.staged_ne_backup)]
      exact isFile_backedUp created

/-- The stores but for the staged file are as they were. -/
structure Undone (request : Request) (original world : World) : Prop where
  files : ∀ path, path ≠ request.stagedFilePath →
    world.files.get? path = original.files.get? path
  chunks : ∀ id, world.chunks.get? id = original.chunks.get? id
  entry : world.entry request.filename = original.entry request.filename
  others : world.otherEntries request.filename = original.otherEntries request.filename

theorem entry_isFor {filename : String} {entry : Entry}
    (found : original.entry filename = some entry) : Entry.isFor filename entry :=
  List.find?_some found

theorem entry_restoreEntry {world : World} (filename : String) :
    (world.restoreEntry filename (original.entry filename)).entry filename =
      original.entry filename := by
  rw [World.entry, World.restoreEntry]
  cases found : original.entry filename with
  | none =>
      rw [List.find?_eq_none]
      intro entry member
      simpa using (List.mem_filter.mp member).2
  | some entry => exact List.find?_cons_of_pos (entry_isFor found)

theorem otherEntries_restoreEntry {world : World} (filename : String) :
    (world.restoreEntry filename (original.entry filename)).otherEntries filename =
      world.otherEntries filename := by
  apply filter_otherEntries
  intro entry member
  exact entry_isFor (Option.mem_toList.mp member)

/-- A rollback with a snapshot undoes what was done, if the moves are undone and other
sources and files were left alone. -/
theorem undone_of_restore {world : World}
    (files : ∀ path, path ≠ request.stagedFilePath →
      world.files.get? path = original.files.get? path)
    (chunks : SameElsewhere request.filePath original world)
    (others : world.otherEntries request.filename = original.otherEntries request.filename) :
    Undone request original
      ((world.restoreSnapshot request.filePath
        (original.chunksOf request.filePath)).restoreEntry request.filename
          (original.entry request.filename)) where
  files := files
  chunks := get?_restoreSnapshot chunks
  entry := entry_restoreEntry request.filename
  others := (otherEntries_restoreEntry request.filename).trans others

theorem undone_of_interrupted (apart : Apart request original) {world : World}
    {progress : Progress} (interrupted : Interrupted request original (world, progress)) :
    Undone request original (request.undo original progress world) := by
  cases interrupted with
  | early => exact ⟨fun _ _ => rfl, fun _ => rfl, rfl, rfl⟩
  | captured =>
      exact undone_of_restore (fun _ _ => rfl) (fun _ _ _ => Iff.rfl) rfl
  | backedUp existing =>
      apply undone_of_restore
      · intro path _
        exact get?_undoBackup apart existing path
      · intro id chunk _
        simp
      · simp [World.otherEntries]
  | replaced kept =>
      apply undone_of_restore
      · intro path different
        exact get?_undoCommit apart kept.files different
      · intro id chunk other
        simpa using kept.chunks id chunk other
      · simpa [World.otherEntries] using kept.entries

/-- Every file, chunk and entry is as before, and no temporary file remains. -/
structure Restored (request : Request) (original world : World) : Prop
    extends Undone request original world where
  staged : world.files.get? request.stagedFilePath = none
  backup : world.files.get? request.backupPath = none

theorem get?_cleanStaged (clean : faults.cleanStaged = false) (world : World) (path : String) :
    (cleanStaged faults request world).files.get? path =
      if path = request.stagedFilePath then none else world.files.get? path := by
  rw [cleanStaged]
  split
  · exact get?_removeFile _ _ _
  · rename_i unremoved
    split
    · rename_i same
      rw [same]
      simpa [World.isFile, clean] using unremoved
    · rfl

theorem cleanStaged_chunks (world : World) :
    (cleanStaged faults request world).chunks = world.chunks := by
  rw [cleanStaged]
  split <;> rfl

theorem cleanStaged_entries (world : World) :
    (cleanStaged faults request world).entries = world.entries := by
  rw [cleanStaged]
  split <;> rfl

theorem restored_cleanStaged (clean : faults.cleanStaged = false)
    (apart : Apart request original) {world : World} (undone : Undone request original world) :
    Restored request original (cleanStaged faults request world) where
  files := by
    intro path different
    rw [get?_cleanStaged clean, if_neg different, undone.files path different]
  chunks := by
    intro id
    rw [cleanStaged_chunks, undone.chunks]
  entry := by
    rw [World.entry, cleanStaged_entries]
    exact undone.entry
  others := by
    rw [World.otherEntries, cleanStaged_entries]
    exact undone.others
  staged := by
    rw [get?_cleanStaged clean, if_pos rfl]
  backup := by
    rw [get?_cleanStaged clean, if_neg (Ne.symm apart.staged_ne_backup),
      undone.files _ (Ne.symm apart.staged_ne_backup), apart.fresh]

/-- The staged file has become the file, and only its own chunks and entry differ. -/
structure Committed (request : Request) (original world : World) : Prop where
  file : world.files.get? request.filePath = original.files.get? request.stagedFilePath
  staged : world.files.get? request.stagedFilePath = none
  elsewhere : ∀ path, path ≠ request.filePath → path ≠ request.stagedFilePath →
    path ≠ request.backupPath → world.files.get? path = original.files.get? path
  chunks : SameElsewhere request.filePath original world
  others : world.otherEntries request.filename = original.otherEntries request.filename

theorem get?_cleanBackup {progress : Progress} (world : World) {path : String}
    (spared : progress.backupCreated → path ≠ request.backupPath) :
    (cleanBackup faults request progress world).files.get? path = world.files.get? path := by
  rw [cleanBackup]
  split
  · rename_i removed
    rw [get?_removeFile, if_neg (spared removed.1)]
  · rfl

theorem cleanBackup_chunks (progress : Progress) (world : World) :
    (cleanBackup faults request progress world).chunks = world.chunks := by
  rw [cleanBackup]
  split <;> rfl

theorem cleanBackup_entries (progress : Progress) (world : World) :
    (cleanBackup faults request progress world).entries = world.entries := by
  rw [cleanBackup]
  split <;> rfl

theorem committed_of_finished (clean : faults.cleanStaged = false)
    (apart : Apart request original) {world : World} {progress : Progress}
    (finished : request.Finished original (world, progress)) :
    Committed request original
      (cleanStaged faults request (cleanBackup faults request progress world)) := by
  rcases finished with ⟨kept, rfl⟩
  constructor
  · rw [get?_cleanStaged clean, if_neg (Ne.symm apart.distinct),
      get?_cleanBackup world apart.file_ne_backup, kept.files, apart.get?_committed, if_pos rfl]
  · rw [get?_cleanStaged clean, if_pos rfl]
  · intro path notFile notStaged notBackup
    rw [get?_cleanStaged clean, if_neg notStaged, get?_cleanBackup world fun _ => notBackup,
      kept.files, apart.get?_committed, if_neg notFile, if_neg notStaged, get?_backedUp]
    split <;> rfl
  · intro id chunk other
    rw [cleanStaged_chunks, cleanBackup_chunks]
    simpa using kept.chunks id chunk other
  · rw [World.otherEntries, cleanStaged_entries, cleanBackup_entries]
    simpa [World.otherEntries] using kept.entries

/-- A call that fails otherwise than by a lost lease undoes what it did. -/
theorem indexStagedDocument_undone (recovers : faults.Recovers) (plain : request.Plain)
    (apart : Apart request original) {message : String} {world : World}
    (performed : indexStagedDocument parser faults request original =
      .error (.raised message) world) :
    world = original ∨ ∃ next progress, Interrupted request original (next, progress) ∧
      world = cleanStaged faults request (request.undo original progress next) := by
  rw [indexStagedDocument] at performed
  by_cases valid : request.pathsValid
  · rw [if_neg (not_not_intro valid), if_neg (not_not_intro apart.staged)] at performed
    have leads := @leads_replaceAndIndex parser faults request original plain apart
    dsimp only at performed
    cases replaced : replaceAndIndex parser faults request
        (original.isFile request.filePath) (original, {}) with
    | ok indexed pair =>
        rw [replaced] at performed
        cases performed
    | error failure pair =>
        rcases pair with ⟨next, progress⟩
        have interrupted := leads.error rfl replaced
        rw [replaced] at performed
        cases failure with
        | leaseLost message => cases performed
        | raised message =>
            dsimp only at performed
            rw [rollback_eq recovers (backed_of_interrupted apart interrupted)] at performed
            cases performed
            exact .inr ⟨_, _, interrupted, rfl⟩
  · rw [if_pos valid] at performed
    cases performed
    exact .inl rfl

theorem entries_undo_of_interrupted {world : World} {progress : Progress}
    (interrupted : Interrupted request original (world, progress)) :
    (request.undo original progress world).entries = original.entries ∨
      (request.undo original progress world).entries =
        (original.entry request.filename).toList ++ original.otherEntries request.filename := by
  have restored : ∀ next : World,
      next.otherEntries request.filename = original.otherEntries request.filename →
      (next.restoreEntry request.filename (original.entry request.filename)).entries =
        (original.entry request.filename).toList ++ original.otherEntries request.filename := by
    intro next others
    rw [World.restoreEntry, others]
  cases interrupted with
  | early => exact .inl rfl
  | captured => exact .inr (restored _ rfl)
  | backedUp existing =>
      apply Or.inr (restored _ _)
      simp [World.restoreSnapshot, World.deleteChunks, World.upsertChunks, World.otherEntries]
  | replaced kept =>
      apply Or.inr (restored _ _)
      simpa [World.restoreSnapshot, World.deleteChunks, World.upsertChunks,
        World.otherEntries] using kept.entries

end

/-- Replacing a document is atomic: a call that fails otherwise than by a lost lease
leaves the stores as they were, and one that returns has put the staged file in
place. -/
theorem indexStagedDocument_atomic (parser : Parser) (faults : Faults) (request : Request)
    (original : World) (recovers : faults.Recovers) (plain : request.Plain)
    (distinct : request.stagedFilePath ≠ request.filePath)
    (fresh : original.files.get? request.backupPath = none) :
    match indexStagedDocument parser faults request original with
    | .ok _ world => Committed request original world
    | .error (.raised _) world =>
        Restored request original world ∨ world = original ∧ ¬ request.pathsValid
    | .error (.leaseLost _) _ => True := by
  rw [indexStagedDocument]
  by_cases valid : request.pathsValid
  · rw [if_neg (not_not_intro valid)]
    by_cases staged : original.isFile request.stagedFilePath
    · rw [if_neg (not_not_intro staged)]
      have apart : Apart request original := ⟨staged, distinct, fresh⟩
      have leads := @leads_replaceAndIndex parser faults request original plain apart
      dsimp only
      cases performed : replaceAndIndex parser faults request
          (original.isFile request.filePath) (original, {}) with
      | ok indexed pair =>
          exact committed_of_finished recovers.cleanStaged apart (leads.ok rfl performed)
      | error failure pair =>
          rcases pair with ⟨world, progress⟩
          have interrupted := leads.error rfl performed
          cases failure with
          | leaseLost message => trivial
          | raised message =>
              dsimp only
              rw [rollback_eq recovers (backed_of_interrupted apart interrupted)]
              exact .inl (restored_cleanStaged recovers.cleanStaged apart
                (undone_of_interrupted apart interrupted))
    · rw [if_pos staged]
      rw [World.isFile, Bool.not_eq_true, Option.isSome_eq_false_iff,
        Option.isNone_iff_eq_none] at staged
      exact .inl ⟨⟨fun _ _ => rfl, fun _ => rfl, rfl, rfl⟩, staged, fresh⟩
  · rw [if_pos valid]
    exact .inr ⟨rfl, valid⟩

/-! ## Sample calls -/

/-- A parser that takes every file for one text. -/
def wholeFile : Parser where
  documentHash := fun content => toString content.length
  sourceHash := id
  texts := fun _ _ => .ok ["text"]
  embed := fun _ => []

/-- A call for a text file, with the given metadata. -/
def sampleRequest (extraMetadata : Metadata) : Request where
  uploadFolder := "/uploads"
  filename := "a.txt"
  filePath := "/uploads/a.txt"
  stagedFilePath := "/uploads/.a.txt.staged"
  extension := "txt"
  extraMetadata := extraMetadata
  indexProfile := "profile"
  now := "2024-01-01T00:00:00+00:00"
  unique := "0"

/-- A file and its staged replacement, neither indexed yet. -/
def sampleWorld : World where
  files := (Dictionary.empty.set "/uploads/a.txt" [1]).set "/uploads/.a.txt.staged" [2, 3]
  chunks := .empty
  entries := []

/-- The index cannot be written. -/
def fullDisk : Faults := { record := some "disk full" }

theorem fullDisk_recovers : fullDisk.Recovers :=
  ⟨rfl, rfl, rfl, rfl, rfl⟩

theorem indexStagedDocument_atomic_fullDisk :
    match indexStagedDocument wholeFile fullDisk (sampleRequest .empty) sampleWorld with
    | .ok _ world => Committed (sampleRequest .empty) sampleWorld world
    | .error (.raised _) world =>
        Restored (sampleRequest .empty) sampleWorld world ∨
          world = sampleWorld ∧ ¬ (sampleRequest .empty).pathsValid
    | .error (.leaseLost _) _ => True :=
  indexStagedDocument_atomic wholeFile fullDisk (sampleRequest .empty) sampleWorld
    fullDisk_recovers
    { source := rfl
      filename := rfl
      ocr := by
        intro ocr impossible
        cases impossible }
    (by decide) (by decide +kernel)

/-- With metadata that name another source, the chunks inserted before a failure stay. -/
theorem indexStagedDocument_leaves_chunks :
    ¬ ∀ (parser : Parser) (faults : Faults) (request : Request) (original : World),
      faults.Recovers → request.stagedFilePath ≠ request.filePath →
      original.files.get? request.backupPath = none → request.pathsValid →
      match indexStagedDocument parser faults request original with
      | .error (.raised _) world => Restored request original world
      | _ => True := by
  intro claim
  have restored := claim wholeFile fullDisk
    (sampleRequest (Dictionary.empty.set "source" (.text "elsewhere"))) sampleWorld
    fullDisk_recovers (by decide) (by decide +kernel) (by decide +kernel)
  have left : (match indexStagedDocument wholeFile fullDisk
      (sampleRequest (Dictionary.empty.set "source" (.text "elsewhere"))) sampleWorld with
      | .error (.raised _) world => (world.chunks.get? "uploads-a.txt:2:chunk:0").isSome
      | _ => false) = true := by
    decide +kernel
  split at restored
  · rename_i message world failed
    rw [failed] at left
    have same := restored.chunks "uploads-a.txt:2:chunk:0"
    dsimp only at left
    rw [same] at left
    cases left
  · rename_i other
    split at left
    · rename_i message world failed
      exact other message world failed
    · cases left

end RAGuardian.Documents
