import RAGuardian.Documents.UploadKeys

/-! # What a rebuild leaves of the origin of a document

Every turn of a rebuild writes the entry of a file anew. What the new entry does not take over
from the old one is lost to all later rebuilds. -/

namespace RAGuardian.Documents

open Fallible

/-! ## Turns in which embedding may fail -/

/-- How the embedding of an entry fails: the message, and the chunks that were inserted before -/
abbrev EmbeddingFaults := Nat → Option (String × (String → Bool))

section

variable (base : KnowledgeBase) (reader : RebuildReader) (job : RebuildJob)
  (embedding : EmbeddingFaults)

/-- The entry that is left of one whose rebuild raised -/
def failedEntry (index : Nat) (entry : Entry) (message : String) : Entry :=
  let filename := base.entryFilename entry
  indexEntry filename (base.sourceOf entry filename) (job.now index) 0 "error" message
    (indexProfileMetadata job.profile .empty)

/-- Record an entry whose rebuild raised. -/
def recordFailed (index : Nat) (entry : Entry) (message : String) (world : World) : World :=
  world.record (base.entryFilename entry) (failedEntry base job index entry message)

/-- How embedding fails for documents that are read: only those are embedded whose content was
not met before. -/
def embeddingFault (index : Nat) (documents : List Document) (state : RebuildState) :
    Option (String × (String → Bool)) :=
  let documentId := documentIdOf documents
  if documents = [] then none
  else if documentId ≠ "" ∧ (state.seen.get? documentId).isSome then none
  else embedding index

/-- One turn of the loop of `_run_rebuild_index_job_locked` -/
def rebuildTurn (index : Nat) (entry : Entry) (state : RebuildState) : RebuildState :=
  match documentsForRebuild base reader entry state.world with
  | .error failure world =>
      { state with world := recordFailed base job index entry failure.message world }
  | .ok source world =>
      let documents := applyExtraMetadata source.documents (ingestionMetadataFromEntry entry)
      match embeddingFault embedding index documents state with
      | some (message, inserted) =>
          { state with
            world := recordFailed base job index entry message (world.addChunks
              ((chunksFor reader.parser documents).filter fun chunk => inserted chunk.1)) }
      | none =>
          rebuildDocuments base reader job index entry { source with documents }
            { state with world }

/-- The turns for a list of entries -/
def rebuildTurns (entries : List Entry) (state : RebuildState) : RebuildState :=
  entries.zipIdx.foldl (fun state (entry, index) =>
    rebuildTurn base reader job embedding index entry state) state

end

/-! ## Provenance -/

/-- The keys of an entry that say where a document comes from -/
def provenanceKeys : List String :=
  "transcript_path" :: ingestionMetadataKeys

/-- The entry has nothing but blanks under some keys. -/
def Bare (keys : List String) (entry : Entry) : Prop :=
  ∀ key ∈ keys, ∀ value, entry.get? key = some value → value = .text ""

/-- A new entry carries what an old one says of the origin of its document. -/
def CarriesProvenance (entry recorded : Entry) : Prop :=
  ∀ key ∈ provenanceKeys, ∀ value, entry.get? key = some value → value ≠ .text "" →
    recorded.get? key = some value

/-- The paths of an entry are texts, as they are recorded. -/
structure TypedPaths (entry : Entry) : Prop where
  path : ∀ value, entry.get? "path" = some value → ∃ text, value = .text text
  transcript : ∀ value, entry.get? "transcript_path" = some value → ∃ text, value = .text text

inductive TurnOutcome
  | failed
  | empty
  | read
deriving DecidableEq, Repr

/-- How a turn ends: with an exception, without any text, or with documents. -/
def turnOutcome (base : KnowledgeBase) (reader : RebuildReader) (embedding : EmbeddingFaults)
    (index : Nat) (entry : Entry) (state : RebuildState) : TurnOutcome :=
  match documentsForRebuild base reader entry state.world with
  | .error _ _ => .failed
  | .ok source _ =>
      let documents := applyExtraMetadata source.documents (ingestionMetadataFromEntry entry)
      if (embeddingFault embedding index documents state).isSome then .failed
      else if documents = [] then .empty
      else .read

/-- A turn takes nothing from an entry: an exception one that says nothing of the origin of its
document, a file without text one that says no more than its type. -/
def SparedBy (outcome : TurnOutcome) (entry : Entry) : Prop :=
  match outcome with
  | .failed => Bare provenanceKeys entry
  | .empty => Bare (ingestionMetadataKeys.filter (· ≠ "source_type")) entry
  | .read => True

/-- The index has one entry for the file of an entry, which carries what that says. -/
def KeptIn (base : KnowledgeBase) (entry : Entry) (world : World) : Prop :=
  ∃ recorded, world.entries.filter (Entry.isFor (base.entryFilename entry)) = [recorded] ∧
    CarriesProvenance entry recorded

/-! ## Metadata -/

section

variable {entry : Entry} {key : String} {value : Scalar}

theorem get?_ingestionMetadata (entry : Entry) (key : String) :
    (ingestionMetadataFromEntry entry).get? key =
      if key ∈ ingestionMetadataKeys then (entry.get? key).filter (· ≠ .text "") else none := by
  rw [ingestionMetadataFromEntry]
  induction ingestionMetadataKeys using List.reverseRecOn with
  | nil => rfl
  | append_singleton keys last induction =>
      rw [List.foldl_append, List.foldl_cons, List.foldl_nil]
      by_cases same : key = last
      · subst same
        rw [if_pos (List.mem_append_right keys List.mem_cons_self)]
        cases found : entry.get? key with
        | none =>
            dsimp only
            rw [induction, found]
            split <;> rfl
        | some value =>
            by_cases blank : value = .text ""
            · dsimp only
              rw [if_pos blank, induction, found]
              split <;> simp [Option.filter, blank]
            · dsimp only
              rw [if_neg blank, Dictionary.get?_set_self]
              simp [Option.filter, blank]
      · have listed : key ∈ keys ++ [last] ↔ key ∈ keys := by
          rw [List.mem_append, List.mem_singleton, or_iff_left same]
        rw [if_congr listed rfl rfl, ← induction]
        cases entry.get? last with
        | none => rfl
        | some value =>
            by_cases blank : value = .text ""
            · dsimp only
              rw [if_pos blank]
            · dsimp only
              rw [if_neg blank, Dictionary.get?_set_of_ne same]

theorem get?_ingestionMetadata_of_mem (listed : key ∈ ingestionMetadataKeys)
    (found : entry.get? key = some value) (filled : value ≠ .text "") :
    (ingestionMetadataFromEntry entry).get? key = some value := by
  rw [get?_ingestionMetadata, if_pos listed, found]
  simp [Option.filter, filled]

/-- The keys that `FileIndex.record` and the profile give to every entry -/
def recordKeys : List String :=
  ["filename", "path", "chunks", "status", "error", "updated_at"]

theorem get?_indexEntry {filename path now status error : String} {chunks : Nat}
    {metadata : Metadata} (other : key ∉ recordKeys) :
    (indexEntry filename path now chunks status error metadata).get? key = metadata.get? key := by
  simp only [recordKeys, List.mem_cons, List.not_mem_nil, or_false, not_or] at other
  rw [indexEntry, get?_merge_eq]
  simp [Dictionary.get?_set, other]

theorem not_mem_recordKeys (listed : key ∈ provenanceKeys) : key ∉ recordKeys := by
  revert key
  decide

/-- A key of the origin is not blank. -/
theorem bare_of_absent {keys : List String}
    (absent : ∀ key ∈ keys, ∀ value, entry.get? key = some value → value ≠ .text "" → False) :
    Bare keys entry := by
  intro key member value found
  by_contra filled
  exact absent key member value found filled

/-- What is recorded for an entry whose rebuild raised carries what says nothing. -/
theorem carries_failed_iff {filename path now message profile : String} :
    CarriesProvenance entry (indexEntry filename path now 0 "error" message
      (indexProfileMetadata profile .empty)) ↔ Bare provenanceKeys entry := by
  have absent : ∀ key ∈ provenanceKeys, Dictionary.get? (indexEntry filename path now 0 "error"
      message (indexProfileMetadata profile .empty)) key = none := by
    intro key member
    have other : key ≠ "index_profile" := by
      rintro rfl
      revert member
      decide
    rw [get?_indexEntry (not_mem_recordKeys member), indexProfileMetadata, get?_merge_eq,
      Dictionary.get?_empty, Option.none_or, Dictionary.get?_set_of_ne other,
      Dictionary.get?_empty]
  constructor
  · intro carries
    apply bare_of_absent
    intro key member value found filled
    have kept := carries key member value found filled
    rw [absent key member] at kept
    cases kept
  · intro bare key member value found filled
    exact absurd (bare key member value found) filled

/-- The part of the metadata of an entry that every outcome with a file has -/
def described (entry : Entry) (source : RebuildSource) : Metadata :=
  (Dictionary.empty.set "source_type"
    (((ingestionMetadataFromEntry entry).get? "source_type").getD source.sourceType)).set
      "transcript_path" ((entry.get? "transcript_path").getD (.text ""))

theorem provenance_ne (listed : key ∈ provenanceKeys) : key ≠ "index_profile" ∧
    key ≠ "document_id" ∧ key ≠ "source_id" ∧ key ≠ "duplicate_of_source" ∧
      key ≠ "ocr_text_path" := by
  revert key
  decide

/-- The keys of the origin in the metadata of a file without text -/
theorem get?_rebuiltMetadata_empty {job : RebuildJob} {source : RebuildSource}
    {duplicateOf : Option String} (empty : source.documents = [])
    (listed : key ∈ provenanceKeys) :
    (rebuiltMetadata job entry source duplicateOf).get? key =
      (described entry source).get? key := by
  obtain ⟨profile, -, -, -, ocr⟩ := provenance_ne listed
  rw [rebuiltMetadata, empty, indexProfileMetadata, get?_merge_eq]
  dsimp only
  rw [Dictionary.get?_set_of_ne ocr, Dictionary.get?_set_of_ne profile, Dictionary.get?_empty,
    Option.or_none, described]

/-- The keys of the origin in the metadata of documents that were read -/
theorem get?_rebuiltMetadata_read {job : RebuildJob} {source : RebuildSource}
    {duplicateOf : Option String} (nonempty : source.documents ≠ [])
    (listed : key ∈ provenanceKeys) :
    (rebuiltMetadata job entry source duplicateOf).get? key =
      ((merge source.extra (ingestionMetadataFromEntry entry)).get? key).or
        ((described entry source).get? key) := by
  obtain ⟨profile, document, identifier, duplicate, -⟩ := provenance_ne listed
  obtain ⟨first, rest, documents⟩ := List.exists_cons_of_ne_nil nonempty
  have identified : ∀ documentId sourceId : Scalar, ∀ extra : Metadata,
      (merge ((Dictionary.empty.set "document_id" documentId).set "source_id" sourceId)
        extra).get? key = extra.get? key := by
    intro documentId sourceId extra
    rw [get?_merge_eq, Dictionary.get?_set_of_ne identifier, Dictionary.get?_set_of_ne document,
      Dictionary.get?_empty, Option.or_none]
  rw [rebuiltMetadata, documents, indexProfileMetadata, get?_merge_eq,
    Dictionary.get?_set_of_ne profile, Dictionary.get?_empty, Option.or_none]
  cases duplicateOf with
  | none =>
      dsimp only
      rw [identified, get?_merge_eq, described]
  | some path =>
      dsimp only
      rw [Dictionary.get?_set_of_ne duplicate, identified, get?_merge_eq, described]

theorem get?_described_sourceType (entry : Entry) (source : RebuildSource) :
    (described entry source).get? "source_type" =
      some (((ingestionMetadataFromEntry entry).get? "source_type").getD source.sourceType) := by
  rw [described, Dictionary.get?_set_of_ne (by decide), Dictionary.get?_set_self]

theorem get?_described_transcript (entry : Entry) (source : RebuildSource) :
    (described entry source).get? "transcript_path" =
      some ((entry.get? "transcript_path").getD (.text "")) := by
  rw [described, Dictionary.get?_set_self]

theorem get?_described_of_ne {source : RebuildSource} (sourceType : key ≠ "source_type")
    (transcript : key ≠ "transcript_path") : (described entry source).get? key = none := by
  rw [described, Dictionary.get?_set_of_ne transcript, Dictionary.get?_set_of_ne sourceType,
    Dictionary.get?_empty]

/-- What is recorded for a file without text carries what says no more than its type. -/
theorem carries_empty_iff {job : RebuildJob} {source : RebuildSource}
    {filename path now message : String} (empty : source.documents = []) :
    CarriesProvenance entry (indexEntry filename path now 0 "empty" message
      (rebuiltMetadata job entry source none)) ↔
        Bare (ingestionMetadataKeys.filter (· ≠ "source_type")) entry := by
  have read : ∀ key ∈ provenanceKeys, Dictionary.get? (indexEntry filename path now 0 "empty"
      message (rebuiltMetadata job entry source none)) key = (described entry source).get? key := by
    intro key member
    rw [get?_indexEntry (not_mem_recordKeys member), get?_rebuiltMetadata_empty empty member]
  constructor
  · intro carries
    apply bare_of_absent
    intro key member value found filled
    obtain ⟨listed, other⟩ := List.mem_filter.mp member
    have listed := List.mem_cons_of_mem "transcript_path" listed
    have kept := carries key listed value found filled
    have transcript : key ≠ "transcript_path" := by
      rintro rfl
      revert member
      decide
    rw [read key listed, get?_described_of_ne (of_decide_eq_true other) transcript] at kept
    cases kept
  · intro bare key member value found filled
    rw [read key member]
    rcases List.mem_cons.mp member with rfl | listed
    · rw [get?_described_transcript, found]
      rfl
    · by_cases sourceType : key = "source_type"
      · subst sourceType
        rw [get?_described_sourceType, get?_ingestionMetadata_of_mem listed found filled]
        rfl
      · have others : key ∈ ingestionMetadataKeys.filter (· ≠ "source_type") :=
          List.mem_filter.mpr ⟨listed, decide_eq_true sourceType⟩
        exact absurd (bare key others value found) filled

/-- The path of a transcript among the further metadata of a source is the one of the entry. -/
def KeepsTranscript (entry : Entry) (source : RebuildSource) : Prop :=
  ∀ path, path ≠ "" → entry.get? "transcript_path" = some (.text path) →
    ∀ value, source.extra.get? "transcript_path" = some value → value = .text path

/-- What is recorded for documents that were read carries all that the old entry says. -/
theorem carries_read {job : RebuildJob} {source : RebuildSource} {duplicateOf : Option String}
    {filename path now status message : String} {chunks : Nat} (typed : TypedPaths entry)
    (keeps : KeepsTranscript entry source) (nonempty : source.documents ≠ []) :
    CarriesProvenance entry (indexEntry filename path now chunks status message
      (rebuiltMetadata job entry source duplicateOf)) := by
  intro key member value found filled
  rw [get?_indexEntry (not_mem_recordKeys member), get?_rebuiltMetadata_read nonempty member,
    get?_merge_eq]
  rcases List.mem_cons.mp member with rfl | listed
  · rw [get?_ingestionMetadata, if_neg (by decide), Option.none_or, get?_described_transcript,
      found]
    obtain ⟨transcript, rfl⟩ := typed.transcript value found
    have named : transcript ≠ "" := fun empty => filled (congrArg Scalar.text empty)
    cases extra : source.extra.get? "transcript_path" with
    | none => rfl
    | some other => rw [keeps transcript named found other extra, Option.some_or]
  · rw [get?_ingestionMetadata_of_mem listed found filled, Option.some_or, Option.some_or]

end

/-! ## Sources -/

section

variable {base : KnowledgeBase} {reader : RebuildReader} {entry : Entry}

/-- What an action returns, whatever it does to the stores -/
abbrev Returns {α : Type} (action : Action α) (returned : α → Prop) : Prop :=
  Leads (fun _ => True) action (fun value _ => returned value) fun _ => True

theorem returns_anything {α : Type} {action : Action α} : Returns action fun _ => True :=
  Leads.cases (fun _ _ _ _ _ => trivial) fun _ _ _ _ _ => trivial

theorem returns_raised {α : Type} {returned : α → Prop} (failure : Failure) :
    Returns (throw failure : Action α) returned :=
  Leads.fail fun _ _ => trivial

theorem keepsTranscript_of_absent {source : RebuildSource}
    (absent : source.extra.get? "transcript_path" = none) : KeepsTranscript entry source := by
  intro path named found value extra
  rw [absent] at extra
  cases extra

theorem returns_transcriptDocuments {path default : String} :
    Returns (reader.transcriptDocuments path (textOr (entry.get? "transcript_path") default))
      (KeepsTranscript entry) := by
  rw [RebuildReader.transcriptDocuments]
  apply Leads.bind returns_anything
  intro world
  split
  · exact returns_raised _
  · apply Leads.bind returns_anything
    intro transcript
    cases reader.transcriptTexts transcript with
    | error message => exact returns_raised _
    | ok texts =>
        apply Leads.bind returns_anything
        intro content
        refine Leads.done fun _ _ => ?_
        intro transcriptPath named found value extra
        rw [Dictionary.get?_set_self, found, textOr_of_ne named, Option.some.injEq] at extra
        exact extra.symm

theorem returns_ocrDocuments {parser : Parser} {ocr : OcrService} {path parseError : String}
    {documents : List Document} :
    Returns (ocrDocumentsForConfig parser ocr {} path documents parseError)
      fun read => read.2.1.get? "transcript_path" = none := by
  rw [ocrDocumentsForConfig]
  apply Leads.bind returns_anything
  intro _
  split
  · exact Leads.done fun _ _ => rfl
  · split
    · exact Leads.done fun _ _ => rfl
    · apply Leads.bind returns_anything
      intro content
      split
      · exact Leads.done fun _ _ => rfl
      · split
        · exact Leads.done fun _ _ => rfl
        · apply Leads.bind returns_anything
          intro _
          split
          · exact returns_raised _
          · exact Leads.done fun _ _ => rfl

theorem returns_documentsForRebuild :
    Returns (documentsForRebuild base reader entry) (KeepsTranscript entry) := by
  rw [documentsForRebuild]
  apply Leads.bind returns_anything
  intro path
  dsimp only
  split
  · exact returns_transcriptDocuments
  · split
    · rw [RebuildReader.textDocuments]
      apply Leads.bind returns_anything
      intro world
      split
      · exact returns_raised _
      · exact Leads.done fun _ _ => keepsTranscript_of_absent rfl
    · rw [RebuildReader.pdfDocuments]
      apply Leads.bind returns_anything
      intro world
      apply Leads.bind returns_ocrDocuments
      rintro ⟨documents, extra, error⟩
      dsimp only
      split
      · exact Leads.done fun _ absent => keepsTranscript_of_absent absent
      · split
        · exact Leads.done fun _ _ => keepsTranscript_of_absent rfl
        · exact Leads.done fun _ absent => keepsTranscript_of_absent absent

end

/-! ## Turns -/

section

variable {base : KnowledgeBase} {reader : RebuildReader} {job : RebuildJob}
  {embedding : EmbeddingFaults} {entry : Entry} {index : Nat} {state : RebuildState}

/-- An entry is recorded for the file of another one, and carries what that says just if the
outcome spares it. -/
structure RecordedFor (base : KnowledgeBase) (job : RebuildJob) (index : Nat)
    (outcome : TurnOutcome) (entry : Entry) (before after : World) (recorded : Entry) : Prop where
  entries : after.entries = recorded :: before.otherEntries (base.entryFilename entry)
  named : Entry.isFor (base.entryFilename entry) recorded
  carries : TypedPaths entry → (CarriesProvenance entry recorded ↔ SparedBy outcome entry)
  failed : outcome = .failed → ∃ message, recorded = failedEntry base job index entry message

theorem recordedFor_failed {before world : World} {message : String}
    (same : world.entries = before.entries) :
    RecordedFor base job index .failed entry before
      (recordFailed base job index entry message world)
      (failedEntry base job index entry message) where
  entries := by
    rw [recordFailed, World.record, World.otherEntries, World.otherEntries, same]
  named := by
    refine isFor_iff.mpr (lists_indexEntry ?_).filename
    intro key member
    simp only [listKeys, List.mem_cons, List.not_mem_nil, or_false] at member
    rcases member with rfl | rfl | rfl | rfl <;>
      simp [indexProfileMetadata, get?_merge_eq, Dictionary.get?_set]
  carries := fun _ => carries_failed_iff
  failed := fun _ => ⟨message, rfl⟩

theorem recordedFor_rebuilt {before world : World} {source : RebuildSource} {chunks : Nat}
    {status error : String} {duplicateOf : Option String} {outcome : TurnOutcome}
    (unclaimed : Unclaimed source.extra) (same : world.entries = before.entries)
    (sound : outcome ≠ .failed)
    (carries : TypedPaths entry → (CarriesProvenance entry (indexEntry (base.entryFilename entry)
      source.path (job.now index) chunks status error
        (rebuiltMetadata job entry source duplicateOf)) ↔ SparedBy outcome entry)) :
    RecordedFor base job index outcome entry before
      (recordRebuilt base job index entry source chunks status error duplicateOf world)
      (indexEntry (base.entryFilename entry) source.path (job.now index) chunks status error
        (rebuiltMetadata job entry source duplicateOf)) where
  entries := by
    rw [recordRebuilt, World.record, World.otherEntries, World.otherEntries, same]
  named := isFor_iff.mpr (lists_indexEntry (rebuiltMetadata_absent unclaimed)).filename
  carries := carries
  failed := fun failed => absurd failed sound

/-- The turn for documents whose embedding does not fail -/
theorem recordedFor_documents {before : World} {source : RebuildSource}
    (unclaimed : Unclaimed source.extra) (keeps : KeepsTranscript entry source)
    (same : state.world.entries = before.entries) :
    ∃ recorded, RecordedFor base job index (if source.documents = [] then .empty else .read) entry
      before (rebuildDocuments base reader job index entry source state).world recorded := by
  rw [rebuildDocuments]
  cases documents : source.documents with
  | nil =>
      exact ⟨_, recordedFor_rebuilt unclaimed same (by decide) fun _ =>
        carries_empty_iff documents⟩
  | cons first rest =>
      have nonempty : source.documents ≠ [] := by
        rw [documents]
        exact List.cons_ne_nil first rest
      dsimp only
      rw [if_neg (List.cons_ne_nil first rest)]
      split
      · exact ⟨_, recordedFor_rebuilt unclaimed same (by decide) fun typed =>
          iff_of_true (carries_read typed keeps nonempty) trivial⟩
      · exact ⟨_, recordedFor_rebuilt unclaimed same (by decide) fun typed =>
          iff_of_true (carries_read typed keeps nonempty) trivial⟩

theorem rebuildTurn_recorded :
    ∃ recorded, RecordedFor base job index
      (turnOutcome base reader embedding index entry state) entry state.world
      (rebuildTurn base reader job embedding index entry state).world recorded := by
  have leads := @leads_documentsForRebuild base reader state.world entry
  have returns := @returns_documentsForRebuild base reader entry
  rw [rebuildTurn, turnOutcome]
  cases read : documentsForRebuild base reader entry state.world with
  | error failure world =>
      exact ⟨_, recordedFor_failed (leads.error rfl read).entries⟩
  | ok source world =>
      obtain ⟨⟨content, identified⟩, same⟩ := leads.ok rfl read
      have keeps := returns.ok trivial read
      dsimp only
      cases fault : embeddingFault embedding index
          (applyExtraMetadata source.documents (ingestionMetadataFromEntry entry)) state with
      | some failure => exact ⟨_, recordedFor_failed same.entries⟩
      | none =>
          rw [if_neg (by simp)]
          exact @recordedFor_documents base reader job entry index { state with world }
            state.world { source with
              documents := applyExtraMetadata source.documents (ingestionMetadataFromEntry entry) }
            identified.unclaimed keeps same.entries

theorem RecordedFor.alone {outcome : TurnOutcome} {before after : World} {recorded : Entry}
    (turn : RecordedFor base job index outcome entry before after recorded) :
    after.entries.filter (Entry.isFor (base.entryFilename entry)) = [recorded] := by
  rw [turn.entries, List.filter_cons_of_pos turn.named, World.otherEntries, List.filter_filter]
  have none : ∀ other ∈ before.entries, (Entry.isFor (base.entryFilename entry) other &&
      !Entry.isFor (base.entryFilename entry) other) = false := by
    intro other _
    exact Bool.and_not_self _
  rw [List.filter_eq_nil_iff.mpr fun other member => by rw [none other member]; decide]

/-- After its turn an entry is kept just if the outcome spares it. -/
theorem keptIn_rebuildTurn (typed : TypedPaths entry) :
    KeptIn base entry (rebuildTurn base reader job embedding index entry state).world ↔
      SparedBy (turnOutcome base reader embedding index entry state) entry := by
  obtain ⟨recorded, turn⟩ :=
    @rebuildTurn_recorded base reader job embedding entry index state
  rw [← turn.carries typed, KeptIn, turn.alone]
  constructor
  · rintro ⟨other, same, carries⟩
    rw [(List.cons.inj same).1]
    exact carries
  · exact fun carries => ⟨recorded, rfl, carries⟩

/-- The turns for other files leave the entries of a file alone. -/
theorem filter_rebuildTurn {later : Entry} {filename : String}
    (apart : base.entryFilename later ≠ filename) :
    (rebuildTurn base reader job embedding index later state).world.entries.filter
        (Entry.isFor filename) = state.world.entries.filter (Entry.isFor filename) := by
  obtain ⟨recorded, turn⟩ :=
    @rebuildTurn_recorded base reader job embedding later index state
  have unnamed : ¬Entry.isFor filename recorded := fun named =>
    apart (isFor_unique turn.named named)
  rw [turn.entries, List.filter_cons_of_neg unnamed, World.otherEntries, List.filter_filter]
  refine List.filter_congr fun other _ => ?_
  cases own : Entry.isFor filename other with
  | false => rfl
  | true =>
      have different : Entry.isFor (base.entryFilename later) other = false := by
        rw [← Bool.not_eq_true]
        exact fun named => apart (isFor_unique named own)
      rw [different]
      rfl

theorem filter_foldl_rebuildTurn {turns : List (Entry × Nat)} {filename : String}
    (apart : ∀ turn ∈ turns, base.entryFilename turn.1 ≠ filename) :
    (turns.foldl (fun state turn => rebuildTurn base reader job embedding turn.2 turn.1 state)
      state).world.entries.filter (Entry.isFor filename) =
        state.world.entries.filter (Entry.isFor filename) := by
  induction turns generalizing state with
  | nil => rfl
  | cons turn turns induction =>
      rw [List.foldl_cons,
        induction fun later member => apart later (List.mem_cons_of_mem _ member),
        filter_rebuildTurn (apart turn List.mem_cons_self)]

/-- The entries of a file after its turn, and after those for other files -/
theorem filter_rebuildTurns {before later : List Entry}
    (apart : ∀ other ∈ later, base.entryFilename other ≠ base.entryFilename entry) :
    (rebuildTurns base reader job embedding (before ++ entry :: later) state).world.entries.filter
        (Entry.isFor (base.entryFilename entry)) =
      (rebuildTurn base reader job embedding before.length entry
        (rebuildTurns base reader job embedding before state)).world.entries.filter
          (Entry.isFor (base.entryFilename entry)) := by
  have turns : rebuildTurns base reader job embedding (before ++ entry :: later) state =
      (later.zipIdx (before.length + 1)).foldl
        (fun state turn => rebuildTurn base reader job embedding turn.2 turn.1 state)
        (rebuildTurn base reader job embedding before.length entry
          (rebuildTurns base reader job embedding before state)) := by
    rw [rebuildTurns, List.zipIdx_append, List.foldl_append, List.zipIdx_cons, List.foldl_cons,
      Nat.zero_add]
    rfl
  have others : ∀ turn ∈ later.zipIdx (before.length + 1),
      base.entryFilename turn.1 ≠ base.entryFilename entry :=
    fun turn member => apart turn.1 (List.fst_mem_of_mem_zipIdx member)
  rw [turns, filter_foldl_rebuildTurn others]

end

/-! ## Rebuilding again -/

section

variable {base : KnowledgeBase} {entry other : Entry}

/-- Two entries that a turn reads alike -/
structure ReadAlike (base : KnowledgeBase) (entry other : Entry) : Prop where
  filename : base.entryFilename other = base.entryFilename entry
  source : base.sourceOf other (base.entryFilename entry) =
    base.sourceOf entry (base.entryFilename entry)
  sourceType : ∀ default, textOr (other.get? "source_type") default =
    textOr (entry.get? "source_type") default
  transcript : ∀ default, textOr (other.get? "transcript_path") default =
    textOr (entry.get? "transcript_path") default
  recorded : (other.get? "transcript_path").getD (.text "") =
    (entry.get? "transcript_path").getD (.text "")
  ingestion : ingestionMetadataFromEntry other = ingestionMetadataFromEntry entry

theorem ReadAlike.rebuildTurn (alike : ReadAlike base entry other) (reader : RebuildReader)
    (job : RebuildJob) (embedding : EmbeddingFaults) (index : Nat) (state : RebuildState) :
    rebuildTurn base reader job embedding index other state =
      Documents.rebuildTurn base reader job embedding index entry state := by
  have path : base.safeRebuildSourcePath other = base.safeRebuildSourcePath entry := by
    rw [KnowledgeBase.safeRebuildSourcePath, KnowledgeBase.safeRebuildSourcePath, alike.filename,
      alike.source]
  have sourceType : ∀ extension, rebuildSourceType other extension =
      rebuildSourceType entry extension :=
    fun _ => alike.sourceType _
  have read : documentsForRebuild base reader other = documentsForRebuild base reader entry := by
    simp only [documentsForRebuild, path, sourceType, alike.transcript]
  have metadata : ∀ source duplicateOf, rebuiltMetadata job other source duplicateOf =
      rebuiltMetadata job entry source duplicateOf := by
    intro source duplicateOf
    simp only [rebuiltMetadata, alike.ingestion, alike.recorded]
  have failed : ∀ message, failedEntry base job index other message =
      failedEntry base job index entry message := by
    intro message
    simp only [failedEntry, alike.filename, alike.source]
  simp only [Documents.rebuildTurn, read, recordFailed, failed, alike.filename, alike.ingestion,
    rebuildDocuments, recordRebuilt, metadata]

theorem textOr_of_blank {value : Option Scalar} {default : String}
    (blank : ∀ scalar, value = some scalar → scalar = .text "") :
    textOr value default = default := by
  cases value with
  | none => rfl
  | some scalar =>
      rw [blank scalar rfl]
      rfl

theorem getD_of_blank {value : Option Scalar}
    (blank : ∀ scalar, value = some scalar → scalar = .text "") :
    value.getD (.text "") = .text "" := by
  cases value with
  | none => rfl
  | some scalar => exact blank scalar rfl

theorem ingestionMetadata_of_bare (bare : Bare ingestionMetadataKeys entry) :
    ingestionMetadataFromEntry entry = .empty := by
  rw [ingestionMetadataFromEntry]
  refine List.foldlRecOn (motive := fun metadata : Metadata => metadata = .empty)
    ingestionMetadataKeys _ rfl ?_
  intro metadata empty key member
  cases found : entry.get? key with
  | none => exact empty
  | some value =>
      dsimp only
      rw [if_pos (bare key member value found)]
      exact empty

theorem Bare.subset {keys others : List String} (bare : Bare keys entry) (subset : others ⊆ keys) :
    Bare others entry :=
  fun key member => bare key (subset member)

variable {job : RebuildJob} {index : Nat} {message : String}

theorem failedEntry_absent {key : String} (listed : key ∈ provenanceKeys) :
    (failedEntry base job index entry message).get? key = none := by
  rw [failedEntry, get?_indexEntry (not_mem_recordKeys listed), indexProfileMetadata, get?_merge_eq,
    Dictionary.get?_empty, Option.none_or, Dictionary.get?_set_of_ne (provenance_ne listed).1,
    Dictionary.get?_empty]

theorem failedEntry_bare : Bare provenanceKeys (failedEntry base job index entry message) := by
  intro key listed value found
  rw [failedEntry_absent listed] at found
  cases found

theorem failedEntry_lists : Lists (base.entryFilename entry)
    (base.sourceOf entry (base.entryFilename entry)) 0 "error"
      (failedEntry base job index entry message) := by
  refine lists_indexEntry ?_
  intro key member
  simp only [listKeys, List.mem_cons, List.not_mem_nil, or_false] at member
  rcases member with rfl | rfl | rfl | rfl <;>
    simp [indexProfileMetadata, get?_merge_eq, Dictionary.get?_set]

theorem joinPath_ne_empty {folder name : String} (named : name ≠ "") :
    joinPath folder name ≠ "" := by
  intro empty
  have characters := congrArg String.toList empty
  rw [joinPath] at characters
  split at characters
  · rw [String.toList_append, String.toList_empty, List.append_eq_nil_iff] at characters
    exact named (String.toList_eq_nil_iff.mp characters.2)
  · rw [String.toList_append, String.toList_append, String.toList_empty,
      List.append_eq_nil_iff] at characters
    exact named (String.toList_eq_nil_iff.mp characters.2)

theorem sourceOf_ne_empty {filename : String} (typed : TypedPaths entry) (named : filename ≠ "") :
    base.sourceOf entry filename ≠ "" := by
  rw [KnowledgeBase.sourceOf]
  cases found : entry.get? "path" with
  | none => exact joinPath_ne_empty named
  | some value =>
      obtain ⟨text, rfl⟩ := typed.path value found
      by_cases blank : text = ""
      · subst blank
        exact joinPath_ne_empty named
      · rw [textOr_of_ne blank]
        exact blank

/-- An entry that says nothing of its origin is read like what a failed rebuild leaves of it. -/
theorem readAlike_failedEntry (typed : TypedPaths entry) (bare : Bare provenanceKeys entry)
    (nonempty : base.entryFilename entry ≠ "")
    (stable : base.names.safeFileIndexKey (base.entryFilename entry) = base.entryFilename entry) :
    ReadAlike base entry (failedEntry base job index entry message) := by
  have lists := @failedEntry_lists base entry job index message
  have blank := @failedEntry_bare base entry job index message
  have ingestionKeys : ingestionMetadataKeys ⊆ provenanceKeys := List.subset_cons_self _ _
  have transcriptKey : "transcript_path" ∈ provenanceKeys := List.mem_cons_self
  have sourceTypeKey : "source_type" ∈ provenanceKeys := by decide
  constructor
  · rw [KnowledgeBase.entryFilename, lists.filename, textOr_text, stable]
    exact if_pos nonempty
  · rw [KnowledgeBase.sourceOf, lists.path, textOr_of_ne (sourceOf_ne_empty typed nonempty)]
  · intro default
    rw [textOr_of_blank (blank _ sourceTypeKey), textOr_of_blank (bare _ sourceTypeKey)]
  · intro default
    rw [textOr_of_blank (blank _ transcriptKey), textOr_of_blank (bare _ transcriptKey)]
  · rw [getD_of_blank (blank _ transcriptKey), getD_of_blank (bare _ transcriptKey)]
  · rw [ingestionMetadata_of_bare (blank.subset ingestionKeys),
      ingestionMetadata_of_bare (bare.subset ingestionKeys)]

end

section

variable {secure : SecureFilename} {isAlpha : Char → Bool} {entry : Entry} {folder : String}

theorem cleanKey_of_indexKey {raw : String}
    (named : (namesOf secure isAlpha).safeFileIndexKey raw ≠ "") :
    ∃ parts, CleanKey secure ((namesOf secure isAlpha).safeFileIndexKey raw) parts := by
  rw [Names.safeFileIndexKey] at named ⊢
  generalize slashed raw = path at named ⊢
  split at named
  · exact absurd rfl named
  · rename_i relative
    rw [if_neg relative]
    split at named
    · exact absurd rfl named
    · rename_i undriven
      rw [if_neg undriven]
      cases cleaned : (namesOf secure isAlpha).safeParts (splitOn '/' path.toList) with
      | none =>
          rw [cleaned] at named
          exact absurd rfl named
      | some parts =>
          rw [cleaned, Option.getD_some] at named
          refine ⟨parts, ?_, safe_of_safeParts cleaned, rfl⟩
          rintro rfl
          exact named rfl

theorem cleanKey_single {name : String} (nonempty : name ≠ "") (kept : secure name = name) :
    CleanKey secure name [name] where
  nonempty := List.cons_ne_nil _ _
  safe := by
    intro part member
    rw [List.mem_singleton.mp member]
    exact ⟨nonempty, kept⟩
  joined := String.intercalate_singleton.symm

/-- The name that a rebuild gives to an entry is a clean key. -/
theorem cleanKey_entryFilename (plain : secure "documento.pdf" = "documento.pdf") :
    ∃ parts, CleanKey secure
      ((KnowledgeBase.mk (namesOf secure isAlpha) folder).entryFilename entry) parts := by
  rw [KnowledgeBase.entryFilename]
  dsimp only
  split
  · rename_i named
    exact cleanKey_of_indexKey named
  · split
    · rename_i named
      exact ⟨_, cleanKey_single named (secure.apply_apply _)⟩
    · exact ⟨_, cleanKey_single (by decide) plain⟩

/-- What a rebuild makes of an entry, whatever later entries are processed too: what the entry
says of the origin of its document is kept, and a rebuild after one that raised for the entry
does what it would have done without that one. -/
structure ProvenanceKept (base : KnowledgeBase) (reader : RebuildReader) (job : RebuildJob)
    (embedding : EmbeddingFaults) (start : RebuildState) (before : List Entry) (entry : Entry)
    (later : List Entry) : Prop where
  kept : KeptIn base entry
    (rebuildTurns base reader job embedding (before ++ entry :: later) start).world
  again : turnOutcome base reader embedding before.length entry
      (rebuildTurns base reader job embedding before start) = .failed →
    ∀ recorded,
      (rebuildTurns base reader job embedding (before ++ entry :: later) start).world.entry
        (base.entryFilename entry) = some recorded →
    ∀ otherReader otherJob otherEmbedding index state,
      rebuildTurn base otherReader otherJob otherEmbedding index recorded state =
        rebuildTurn base otherReader otherJob otherEmbedding index entry state

end

/-! ## An outage -/

def sampleShelf : KnowledgeBase :=
  ⟨namesOf SecureFilename.sample Char.isAlpha, "/uploads"⟩

/-- A file that a data source brought -/
def syncedEntry (filename : String) : Entry :=
  (((Dictionary.empty.set "filename" (.text filename)).set
    "path" (.text ("/uploads/" ++ filename))).set "source_type" (.text "txt")).set
      "data_source_id" (.text "mail")

/-- Every file fails to be parsed. -/
def brokenReader : RebuildReader :=
  { sampleIndexer.reader with
    parser := { countedFile with texts := fun _ _ => .error "outage" } }

def sampleRebuild (entries : List Entry) : RebuildJob where
  entries := entries
  profile := "profile"
  ocrProfile := "ocr"
  now := fun _ => "2024-01-01T00:00:00+00:00"

def syncedStart : RebuildState where
  world := ⟨Dictionary.empty.set "/uploads/a.txt" [1, 2], .empty, [syncedEntry "a.txt"]⟩

theorem syncedEntry_typed (filename : String) : TypedPaths (syncedEntry filename) where
  path := by
    intro value found
    simp [syncedEntry, Dictionary.get?_set] at found
    exact ⟨_, found.symm⟩
  transcript := by
    intro value found
    simp [syncedEntry, Dictionary.get?_set] at found

/-- The state after a rebuild of all entries that are listed -/
def afterRebuild (reader : RebuildReader) (state : RebuildState) : RebuildState :=
  rebuildTurns sampleShelf reader (sampleRebuild state.world.entries) (fun _ => none)
    state.world.entries { world := { state.world with chunks := .empty } }

end RAGuardian.Documents
