import RAGuardian.Documents.Replacement

/-! # What indexing a document leaves

The stores after a call of `index_saved_document` or `index_staged_document` that
returns. -/

namespace RAGuardian.Documents

open Fallible

/-! ## Metadata -/

/-- `{**base, **extra}` by its keys. -/
theorem get?_merge_eq (base extra : Metadata) (key : String) :
    (merge base extra).get? key = (extra.get? key).or (base.get? key) :=
  Dictionary.get?_foldl_set base extra key

/-- The chunks of a source are deleted. -/
def World.withoutSource (world : World) (source : String) : World :=
  world.deleteChunks ((world.chunksOf source).map Prod.fst)

theorem get?_withoutSource {world : World} {source id : String} {chunk : Chunk} :
    (world.withoutSource source).chunks.get? id = some chunk ↔
      world.chunks.get? id = some chunk ∧ chunk.source ≠ some (.text source) := by
  rw [World.withoutSource, World.deleteChunks, Dictionary.get?_removeWhere,
    decide_eq_false_iff_not]
  constructor
  · rintro ⟨stored, kept⟩
    exact ⟨stored, fun own => kept (List.mem_map_of_mem (f := Prod.fst)
      (mem_chunksOf.mpr ⟨stored, own⟩))⟩
  · rintro ⟨stored, other⟩
    exact ⟨stored, fun listed => other (source_of_mem_chunksOf listed stored)⟩

/-- The id of the first of some documents. -/
def documentIdOf (documents : List Document) : String :=
  match documents with
  | [] => ""
  | first :: _ => textOr (first.metadata.get? "document_id") ""

/-- The source id of the first of some documents. -/
def sourceIdOf (documents : List Document) : String :=
  match documents with
  | [] => ""
  | first :: _ => textOr (first.metadata.get? "source_id") ""

theorem textOr_text (value : String) : textOr (some (.text value)) "" = value := by
  rw [textOr]
  by_cases empty : value = ""
  · simp [Scalar.truthy, empty]
  · simp [Scalar.truthy, empty, Scalar.render]

/-! ## Indexing -/

/-- What indexing the documents of a file leaves, if it returns. -/
inductive Recorded (parser : Parser) (request : Request) (path : String) (parsed : Parsed)
    (world : World) : Indexed → World → Prop
  | indexed
      (new : documentIdOf parsed.documents ≠ "" →
        (world.withoutSource path).findDocument (documentIdOf parsed.documents) path = none) :
      Recorded parser request path parsed world
        ⟨"indexed", parsed.documents.length, documentIdOf parsed.documents, ""⟩
        (((world.withoutSource path).addChunks (chunksFor parser parsed.documents)).record
          request.filename
          (entryFor request path parsed.documents.length "indexed" ""
            (recordMetadata request (documentIdOf parsed.documents) (sourceIdOf parsed.documents)
              parsed.extra)))
  | duplicate {source : Option Scalar} {count : Nat} {error : String}
      (identified : documentIdOf parsed.documents ≠ "")
      (found : (world.withoutSource path).findDocument (documentIdOf parsed.documents) path =
        some (source, count)) :
      Recorded parser request path parsed world
        ⟨"duplicate", 0, documentIdOf parsed.documents, textOr source ""⟩
        ((world.withoutSource path).record request.filename
          (entryFor request path 0 "duplicate" error
            (recordMetadata request (documentIdOf parsed.documents) (sourceIdOf parsed.documents)
              ((parsed.extra.set "duplicate_of_source" (.text (textOr source ""))).set
                "indexed_chunks" (.integer count)))))

section

variable {parser : Parser} {faults : Faults} {request : Request} {path : String}
  {world next : World}

theorem failing_eq_ok {fault : Option String} {value : Unit}
    (performed : failing fault world = .ok value next) : next = world := by
  cases fault with
  | none =>
      cases performed
      rfl
  | some message => cases performed

theorem assertLocksHealthy_eq_ok {check : Nat} {value : Unit}
    (performed : assertLocksHealthy faults check world = .ok value next) : next = world := by
  rw [assertLocksHealthy] at performed
  cases lost : faults.leaseLost check with
  | some message =>
      rw [lost] at performed
      cases performed
  | none =>
      rw [lost] at performed
      cases performed
      rfl

theorem clearCacheAfter_eq_ok {replaced : Nat} {value : Unit}
    (performed : clearCacheAfter faults replaced world = .ok value next) : next = world := by
  rw [clearCacheAfter] at performed
  by_cases changed : replaced ≠ 0
  · rw [if_pos changed] at performed
    exact failing_eq_ok performed
  · rw [if_neg changed] at performed
    cases performed
    rfl

theorem deleteBySource_eq_ok {count : Nat}
    (performed : deleteBySource faults path world = .ok count next) :
    next = world.withoutSource path := by
  rw [deleteBySource] at performed
  obtain ⟨_, _, read, rest⟩ := bind_returns performed
  cases read
  dsimp only at rest
  cases fault : faults.delete with
  | some failed =>
      rw [fault] at rest
      obtain ⟨_, _, _, raised⟩ := bind_returns rest
      cases raised
  | none =>
      rw [fault] at rest
      obtain ⟨_, _, changed, returned⟩ := bind_returns rest
      cases changed
      cases returned
      rfl

theorem addDocuments_eq_ok {documents : List Document} {value : Unit}
    (performed : addDocuments parser faults documents world = .ok value next) :
    next = world.addChunks (chunksFor parser documents) := by
  rw [addDocuments] at performed
  obtain ⟨_, _, encoded, rest⟩ := bind_returns performed
  rw [failing_eq_ok encoded] at rest
  cases fault : faults.insert with
  | some failed =>
      rw [fault] at rest
      obtain ⟨_, _, _, raised⟩ := bind_returns rest
      cases raised
  | none =>
      rw [fault] at rest
      cases rest
      rfl

theorem recordEntry_eq_ok {chunks : Nat} {status error documentId sourceId : String}
    {extra : Metadata} {value : Unit}
    (performed : recordEntry faults request path chunks status error documentId sourceId extra
      world = .ok value next) :
    next = world.record request.filename
      (entryFor request path chunks status error
        (recordMetadata request documentId sourceId extra)) := by
  rw [recordEntry] at performed
  obtain ⟨_, _, profiled, rest⟩ := bind_returns performed
  rw [failing_eq_ok profiled] at rest
  obtain ⟨_, _, recorded, rest⟩ := bind_returns rest
  rw [failing_eq_ok recorded] at rest
  cases rest
  rfl

theorem findDuplicate_eq_ok {documentId : String} {duplicate : Option (Option Scalar × Nat)}
    (performed : findDuplicate faults documentId path world = .ok duplicate next) :
    next = world ∧
      duplicate = if documentId = "" then none else world.findDocument documentId path := by
  rw [findDuplicate] at performed
  by_cases missing : documentId = ""
  · rw [if_pos missing] at performed
    cases performed
    exact ⟨rfl, (if_pos missing).symm⟩
  · rw [if_neg missing] at performed
    obtain ⟨_, _, looked, rest⟩ := bind_returns performed
    rw [failing_eq_ok looked] at rest
    cases rest
    exact ⟨rfl, (if_neg missing).symm⟩

/-- What `indexParsed` leaves. -/
theorem indexParsed_eq_ok {parsed : Parsed} {indexed : Indexed}
    (performed : indexParsed parser faults request path parsed world = .ok indexed next) :
    parsed.documents ≠ [] ∧ Recorded parser request path parsed world indexed next := by
  rw [indexParsed] at performed
  obtain ⟨_, _, checked, rest⟩ := bind_returns performed
  rw [assertLocksHealthy_eq_ok checked] at rest
  obtain ⟨replaced, _, deleted, rest⟩ := bind_returns rest
  rw [deleteBySource_eq_ok deleted] at rest
  cases documents : parsed.documents with
  | nil =>
      rw [documents] at rest
      obtain ⟨_, _, _, rest⟩ := bind_returns rest
      obtain ⟨_, _, _, rest⟩ := bind_returns rest
      obtain ⟨_, _, _, raised⟩ := bind_returns rest
      cases raised
  | cons first others =>
      refine ⟨by rintro ⟨⟩, ?_⟩
      rw [documents] at rest
      obtain ⟨duplicate, _, searched, rest⟩ := bind_returns rest
      obtain ⟨rfl, answer⟩ := findDuplicate_eq_ok searched
      have identity : documentIdOf parsed.documents =
          textOr (first.metadata.get? "document_id") "" := by rw [documents]; rfl
      have origin : sourceIdOf parsed.documents =
          textOr (first.metadata.get? "source_id") "" := by rw [documents]; rfl
      rw [← identity] at answer
      cases duplicate with
      | some found =>
          have identified : documentIdOf parsed.documents ≠ "" := by
            intro missing
            rw [if_pos missing] at answer
            cases answer
          rw [if_neg identified] at answer
          obtain ⟨_, _, checked, rest⟩ := bind_returns rest
          rw [assertLocksHealthy_eq_ok checked] at rest
          obtain ⟨_, _, cleared, rest⟩ := bind_returns rest
          rw [clearCacheAfter_eq_ok cleared] at rest
          obtain ⟨_, _, recorded, returned⟩ := bind_returns rest
          cases returned
          rw [recordEntry_eq_ok recorded, ← identity, ← origin]
          exact .duplicate identified answer.symm
      | none =>
          obtain ⟨_, _, checked, rest⟩ := bind_returns rest
          rw [assertLocksHealthy_eq_ok checked] at rest
          obtain ⟨_, _, added, rest⟩ := bind_returns rest
          rw [addDocuments_eq_ok added] at rest
          obtain ⟨_, _, cleared, rest⟩ := bind_returns rest
          rw [failing_eq_ok cleared] at rest
          obtain ⟨_, _, checked, rest⟩ := bind_returns rest
          rw [assertLocksHealthy_eq_ok checked] at rest
          obtain ⟨_, _, recorded, returned⟩ := bind_returns rest
          cases returned
          rw [recordEntry_eq_ok recorded, ← identity, ← origin, ← documents]
          have length : others.length + 1 = parsed.documents.length := by rw [documents]; rfl
          rw [length]
          apply Recorded.indexed
          intro identified
          rw [if_neg identified] at answer
          exact answer.symm

/-- Parsing a document leaves the stores as they are. -/
theorem parseDocument_eq_ok {extension : String} {parsed : Parsed}
    (performed : parseDocument parser request path extension world = .ok parsed next) :
    next = world := by
  rw [parseDocument] at performed
  obtain ⟨_, _, read, rest⟩ := bind_returns performed
  cases read
  obtain ⟨_, _, read, returned⟩ := bind_returns rest
  cases returned
  rw [readImages] at read
  cases present : request.ocr with
  | none =>
      rw [present] at read
      cases read
      rfl
  | some ocr =>
      simp only [present] at read
      by_cases image : extension ≠ "pdf"
      · rw [if_pos image] at read
        cases read
        rfl
      · rw [if_neg image] at read
        cases answer : ocr (parseFile parser path extension world).1
            (parseFile parser path extension world).2 with
        | error message =>
            rw [answer] at read
            cases read
        | ok found =>
            rw [answer] at read
            cases read
            rfl

/-- What parsing a file yields where no function reads images. -/
theorem parseDocument_eq_ok_of_text {extension : String} {parsed : Parsed}
    (text : request.ocr = none)
    (performed : parseDocument parser request path extension world = .ok parsed next) :
    parsed.extra = merge
        (Dictionary.empty.set "source_type" (.text (sourceTypeForExtension extension)))
        request.extraMetadata ∧
      parsed.documents = applyExtraMetadata (parseFile parser path extension world).1
        parsed.extra := by
  rw [parseDocument] at performed
  obtain ⟨_, _, read, rest⟩ := bind_returns performed
  cases read
  obtain ⟨_, _, read, returned⟩ := bind_returns rest
  rw [readImages, text] at read
  cases read
  cases returned
  exact ⟨rfl, rfl⟩

theorem processFile_documentId {extension : String} {content : Content}
    {documents : List Document} (stored : world.files.get? path = some content)
    (processed : processFile parser path extension world = .ok documents) :
    ∀ document ∈ documents,
      document.metadata.get? "document_id" = some (.text (parser.documentHash content)) := by
  rw [processFile, stored] at processed
  cases texts : parser.texts extension content with
  | error message =>
      simp only [texts] at processed
      cases processed
  | ok texts =>
      simp only [texts] at processed
      cases processed
      intro document member
      rcases List.mem_map.mp member with ⟨⟨text, index⟩, -, rfl⟩
      simp [Dictionary.get?_set]

/-- The documents of a file have the hash of its content as their id. -/
theorem parseFile_documentId {extension : String} {content : Content}
    (stored : world.files.get? path = some content) :
    ∀ document ∈ (parseFile parser path extension world).1,
      document.metadata.get? "document_id" = some (.text (parser.documentHash content)) := by
  rw [parseFile]
  cases processed : processFile parser path extension world with
  | ok documents => exact processFile_documentId stored processed
  | error message =>
      intro document member
      cases member

theorem documentIdOf_eq {documents : List Document} {documentId : String}
    (nonempty : documents ≠ [])
    (identified : ∀ document ∈ documents,
      document.metadata.get? "document_id" = some (.text documentId)) :
    documentIdOf documents = documentId := by
  cases documents with
  | nil => exact absurd rfl nonempty
  | cons first rest =>
      rw [documentIdOf, identified first List.mem_cons_self, textOr_text]

/-- What `index_saved_document` leaves. -/
theorem indexSavedDocument_eq_ok {indexed : Indexed}
    (performed : indexSavedDocument parser faults request path world = .ok indexed next) :
    ∃ parsed, parseDocument parser request path (normalizeExtension request.extension) world =
        .ok parsed world ∧
      parsed.documents ≠ [] ∧ Recorded parser request path parsed world indexed next := by
  rw [indexSavedDocument] at performed
  by_cases supported : normalizeExtension request.extension ∈ documentIndexExtensions
  · rw [if_neg (not_not_intro supported)] at performed
    obtain ⟨parsed, _, read, rest⟩ := bind_returns performed
    have same := parseDocument_eq_ok read
    subst same
    exact ⟨parsed, read, indexParsed_eq_ok rest⟩
  · rw [if_pos supported] at performed
    cases performed

/-! ## Replacing a document -/

theorem moveFile_eq_ok {source target : String} {value : Unit}
    (performed : moveFile source target world = .ok value next) :
    world.isFile source ∧ next = world.replaceFile source target := by
  rw [moveFile] at performed
  obtain ⟨_, _, read, rest⟩ := bind_returns performed
  cases read
  by_cases present : world.isFile source
  · rw [if_pos present] at rest
    cases rest
    exact ⟨present, rfl⟩
  · rw [if_neg present] at rest
    cases rest

theorem backUp_eq_ok {progress : Progress} {after : World × Progress} {value : Unit}
    (performed : backUp faults request (world.isFile request.filePath) (world, progress) =
      .ok value after) (unused : progress.backupCreated = false) :
    after = (request.backedUp world,
      { progress with backupCreated := world.isFile request.filePath }) := by
  rw [backUp] at performed
  cases existing : world.isFile request.filePath with
  | true =>
      rw [if_pos existing] at performed
      obtain ⟨_, ⟨checkedWorld, checkedProgress⟩, checked, rest⟩ := bind_returns performed
      obtain ⟨_, ⟨movedWorld, movedProgress⟩, moved, rest⟩ := bind_returns rest
      cases rest
      obtain ⟨unfailing, sameProgress⟩ := onWorld_ok checked
      obtain ⟨moving, stillSame⟩ := onWorld_ok moved
      cases failing_eq_ok unfailing
      cases (moveFile_eq_ok moving).2
      cases sameProgress
      cases stillSame
      rw [Request.backedUp, if_pos existing]
      rfl
  | false =>
      rw [existing] at performed
      cases performed
      cases progress
      cases unused
      rw [Request.backedUp, existing]
      rfl

/-- What `index_staged_document` leaves: the staged file is moved and indexed. -/
theorem indexStagedDocument_eq_ok {indexed : Indexed}
    (performed : indexStagedDocument parser faults request world = .ok indexed next) :
    ∃ parsed indexedWorld,
      parseDocument parser request request.filePath (normalizeExtension request.extension)
          (request.committed world) = .ok parsed (request.committed world) ∧
        parsed.documents ≠ [] ∧
        Recorded parser request request.filePath parsed (request.committed world) indexed
          indexedWorld ∧
        next = cleanStaged faults request
          (cleanBackup faults request (request.finished world) indexedWorld) := by
  rw [indexStagedDocument] at performed
  by_cases valid : request.pathsValid
  · rw [if_neg (not_not_intro valid)] at performed
    by_cases staged : world.isFile request.stagedFilePath
    · rw [if_neg (not_not_intro staged)] at performed
      dsimp only at performed
      cases replaced : replaceAndIndex parser faults request
          (world.isFile request.filePath) (world, {}) with
      | error failure pair =>
          rw [replaced] at performed
          cases failure <;> cases performed
      | ok value pair =>
          rw [replaced] at performed
          cases performed
          rw [replaceAndIndex] at replaced
          obtain ⟨_, first, checked, rest⟩ := bind_returns replaced
          obtain ⟨_, second, captured, rest⟩ := bind_returns rest
          obtain ⟨_, third, changed, rest⟩ := bind_returns rest
          obtain ⟨_, fourth, backed, rest⟩ := bind_returns rest
          obtain ⟨_, fifth, unfailing, rest⟩ := bind_returns rest
          obtain ⟨_, sixth, moved, rest⟩ := bind_returns rest
          obtain ⟨_, seventh, marked, rest⟩ := bind_returns rest
          obtain ⟨_, eighth, indexes, rest⟩ := bind_returns rest
          obtain ⟨_, ninth, checkedAgain, returned⟩ := bind_returns rest
          rcases first with ⟨firstWorld, firstProgress⟩
          rcases second with ⟨secondWorld, secondProgress⟩
          cases assertLocksHealthy_eq_ok (onWorld_ok checked).1
          cases (onWorld_ok checked).2
          cases failing_eq_ok (onWorld_ok captured).1
          cases (onWorld_ok captured).2
          cases changed
          cases backUp_eq_ok backed rfl
          rcases fifth with ⟨fifthWorld, fifthProgress⟩
          rcases sixth with ⟨sixthWorld, sixthProgress⟩
          cases failing_eq_ok (onWorld_ok unfailing).1
          cases (onWorld_ok unfailing).2
          cases (moveFile_eq_ok (onWorld_ok moved).1).2
          cases (onWorld_ok moved).2
          cases marked
          rcases eighth with ⟨eighthWorld, eighthProgress⟩
          rcases ninth with ⟨ninthWorld, ninthProgress⟩
          cases (onWorld_ok indexes).2
          cases assertLocksHealthy_eq_ok (onWorld_ok checkedAgain).1
          cases (onWorld_ok checkedAgain).2
          cases returned
          obtain ⟨parsed, read, documents, recorded⟩ :=
            indexSavedDocument_eq_ok (onWorld_ok indexes).1
          exact ⟨parsed, _, read, documents, recorded, rfl⟩
    · rw [if_pos staged] at performed
      cases performed
  · rw [if_pos valid] at performed
    cases performed

theorem Recorded.files {parsed : Parsed} {indexed : Indexed}
    (recorded : Recorded parser request path parsed world indexed next) :
    next.files = world.files := by
  cases recorded <;> rfl

/-- The files `index_staged_document` leaves: the staged file is in place, and others are
as they were. -/
theorem indexStagedDocument_files {indexed : Indexed} (apart : Apart request world)
    (performed : indexStagedDocument parser faults request world = .ok indexed next) :
    next.files.get? request.filePath = world.files.get? request.stagedFilePath ∧
      ∀ path, path ≠ request.filePath → path ≠ request.stagedFilePath →
        path ≠ request.backupPath → next.files.get? path = world.files.get? path := by
  obtain ⟨parsed, indexedWorld, -, -, recorded, rfl⟩ := indexStagedDocument_eq_ok performed
  have files : ∀ path, ((request.finished world).backupCreated → path ≠ request.backupPath) →
      (cleanBackup faults request (request.finished world) indexedWorld).files.get? path =
        (request.committed world).files.get? path := by
    intro path spared
    rw [get?_cleanBackup indexedWorld spared, recorded.files]
  have gone : cleanStaged faults request
      (cleanBackup faults request (request.finished world) indexedWorld) =
        cleanBackup faults request (request.finished world) indexedWorld := by
    rw [cleanStaged, if_neg]
    intro present
    rw [World.isFile, files _ fun _ => apart.staged_ne_backup, apart.get?_committed,
      if_neg apart.distinct, if_pos rfl] at present
    cases present.1
  rw [gone]
  constructor
  · rw [files _ apart.file_ne_backup, apart.get?_committed, if_pos rfl]
  · intro path notFile notStaged notBackup
    rw [files path fun _ => notBackup, apart.get?_committed, if_neg notFile, if_neg notStaged,
      get?_backedUp, if_neg notFile, if_neg notBackup, ite_self]

end

end RAGuardian.Documents
