import RAGuardian.Ranking.Documents
import RAGuardian.Settings.Values

/-! # Chunks of attachments in the context

The chunks of the attachments of a chat are appended to the retrieved documents, but for those
that look like a document before them. -/

namespace RAGuardian.Ranking

open Json

/-- What the context is made with: what each reader makes of the file at a path, or its failure.
-/
structure ContextLibrary where
  /-- `str(value)` -/
  str : Value → String
  str_text : ∀ text, str (.str text) = text
  str_int : ∀ number, str (.int number) = toString number
  /-- `extract_pdf_text` -/
  extractPdfText : String → Except String String
  /-- `_tabular_text` -/
  tabularText : String → String → Except String String
  /-- `extract_text_file` -/
  extractTextFile : String → Except String String
  /-- `_spreadsheet_text` -/
  spreadsheetText : String → String → Except String String
  /-- `splitter.split_text` -/
  splitText : String → List String

/-- A chunk of an attachment. -/
structure Piece where
  attachment : Metadata
  index : Nat
  text : String

section

variable (library : ContextLibrary)

/-! ## Chunks -/

def textExtensions : List String := ["txt", "md", "csv", "tsv", "json"]

def spreadsheetExtensions : List String := ["xlsx", "xls", "parquet"]

/-- What follows the last dot of a name, in lower case -/
def nameExtension (name : String) : String :=
  if '.' ∈ name.toList then
    Text.lower (String.ofList (name.toList.reverse.takeWhile (· != '.')).reverse)
  else ""

/-- The reader for a kind of file -/
def extractText (path extension : String) : Except String String :=
  if extension = "pdf" then library.extractPdfText path
  else if extension ∈ textExtensions then
    if extension = "tsv" then library.tabularText path "\t"
    else if extension = "csv" then library.tabularText path ","
    else library.extractTextFile path
  else if extension ∈ spreadsheetExtensions then library.spreadsheetText path extension
  else .ok ""

/-- `_attachment_text`: an attachment that cannot be read has no text. -/
def attachmentText (attachment : Metadata) : String :=
  let path := library.str ((attachment.get "path").orElse (.str ""))
  let name := library.str ((attachment.get "name").orElse (.str path))
  match extractText library path (nameExtension name) with
  | .ok text => text
  | .error _ => ""

/-- The chunks `build_attachment_documents` takes of one attachment -/
def piecesOf (attachment : Metadata) : List Piece :=
  let text := attachmentText library attachment
  if text = "" then []
  else (library.splitText text).zipIdx.map fun (chunk, index) => ⟨attachment, index, chunk⟩

def pieces (attachments : List Metadata) : List Piece :=
  attachments.flatMap (piecesOf library)

/-- The document of a chunk -/
def Piece.document (piece : Piece) : Document where
  pageContent := piece.text
  metadata := [
    ("source", (piece.attachment.get "name").orElse (.str "attachment")),
    ("source_type", .str "temporary_attachment"),
    ("attachment_id", Settings.getOr piece.attachment "id" (.str "")),
    ("attachment_filename", Settings.getOr piece.attachment "name" (.str "")),
    ("chunk_id", .int piece.index),
    ("chunk_length", .int piece.text.length),
    ("temporary_attachment", .bool true)]

/-- `build_attachment_documents` -/
def buildAttachmentDocuments (attachments : List Metadata) : List Document :=
  (pieces library attachments).map Piece.document

/-! ## Merging -/

/-- What `_merge_context_docs` knows a document by -/
def mergeKey (doc : Document) : String × String × String :=
  (library.str ((doc.metadata.get "source").orElse (.str "")),
    library.str ((doc.metadata.get "chunk_id").orElse (.str "")),
    Text.truncate 120 doc.pageContent)

/-- The loop of `_merge_context_docs` over the further documents -/
def mergeLoop : List (String × String × String) → List Document → List Document
  | _, [] => []
  | seen, doc :: docs =>
      if mergeKey library doc ∈ seen then mergeLoop seen docs
      else doc :: mergeLoop (mergeKey library doc :: seen) docs

/-- `_merge_context_docs` -/
def mergeContextDocs (contextDocs extraContextDocs : List Document) : List Document :=
  contextDocs ++ mergeLoop library (contextDocs.map (mergeKey library)) extraContextDocs

/-! ## Duplicates -/

/-- The attachment a document is from, its number there and its text -/
def identity (doc : Document) : Value × Value × String :=
  (doc.metadata.get "attachment_id", doc.metadata.get "chunk_id", doc.pageContent)

/-- Nothing but repeated chunks is dropped, and the rest keeps its order. -/
structure MergesCompletely (contextDocs chunks : List Document) : Prop where
  ordered : ∃ kept, mergeContextDocs library contextDocs chunks = contextDocs ++ kept ∧
    kept.Sublist chunks
  complete : ∀ before chunk after, chunks = before ++ chunk :: after →
    (∀ earlier ∈ contextDocs ++ before, identity earlier ≠ identity chunk) →
    chunk ∈ mergeContextDocs library contextDocs chunks

end

section

variable {library : ContextLibrary}

theorem mergeLoop_sublist (seen : List (String × String × String)) (docs : List Document) :
    (mergeLoop library seen docs).Sublist docs := by
  induction docs generalizing seen with
  | nil => exact .slnil
  | cons doc docs induction =>
      rw [mergeLoop]
      split
      · exact (induction seen).cons doc
      · exact (induction _).cons_cons doc

/-- A document is kept exactly if its key is new, to the loop and among the documents before
it. -/
theorem mem_mergeLoop {seen : List (String × String × String)} {docs : List Document}
    {doc : Document} : doc ∈ mergeLoop library seen docs ↔
      ∃ before after, docs = before ++ doc :: after ∧ mergeKey library doc ∉ seen ∧
        ∀ other ∈ before, mergeKey library other ≠ mergeKey library doc := by
  induction docs generalizing seen with
  | nil => simp [mergeLoop]
  | cons first docs induction =>
      rw [mergeLoop]
      by_cases known : mergeKey library first ∈ seen
      · rw [if_pos known, induction]
        constructor
        · rintro ⟨before, after, rfl, new, others⟩
          refine ⟨first :: before, after, rfl, new, ?_⟩
          intro other member
          rcases List.mem_cons.mp member with rfl | later
          · rintro same
            exact new (same ▸ known)
          · exact others other later
        · rintro ⟨before, after, shape, new, others⟩
          cases before with
          | nil =>
              obtain ⟨rfl, -⟩ := List.cons.inj shape
              exact absurd known new
          | cons other before =>
              obtain ⟨rfl, rfl⟩ := List.cons.inj shape
              exact ⟨before, after, rfl, new, fun other member =>
                others other (List.mem_cons_of_mem _ member)⟩
      · rw [if_neg known, List.mem_cons, induction]
        constructor
        · rintro (rfl | ⟨before, after, rfl, new, others⟩)
          · exact ⟨[], docs, rfl, known, by simp⟩
          · rw [List.mem_cons, not_or] at new
            refine ⟨first :: before, after, rfl, new.2, ?_⟩
            intro other member
            rcases List.mem_cons.mp member with rfl | later
            · exact Ne.symm new.1
            · exact others other later
        · rintro ⟨before, after, shape, new, others⟩
          cases before with
          | nil =>
              obtain ⟨rfl, -⟩ := List.cons.inj shape
              exact .inl rfl
          | cons other before =>
              obtain ⟨rfl, rfl⟩ := List.cons.inj shape
              refine .inr ⟨before, after, rfl, ?_, fun other member =>
                others other (List.mem_cons_of_mem _ member)⟩
              rw [List.mem_cons, not_or]
              exact ⟨Ne.symm (others _ List.mem_cons_self), new⟩

/-- A document that is not among those before it is kept exactly if its key is new to the loop
and there. -/
theorem mem_mergeLoop_at {seen : List (String × String × String)} {before after : List Document}
    {doc : Document} (first : doc ∉ before) :
    doc ∈ mergeLoop library seen (before ++ doc :: after) ↔
      mergeKey library doc ∉ seen ∧
        ∀ other ∈ before, mergeKey library other ≠ mergeKey library doc := by
  rw [mem_mergeLoop]
  constructor
  · rintro ⟨prior, rest, shape, new, others⟩
    refine ⟨new, ?_⟩
    rcases List.append_eq_append_iff.mp shape with ⟨more, longer, -⟩ | ⟨more, shorter, rest⟩
    · intro other member
      exact others other (longer ▸ List.mem_append_left more member)
    · cases more with
      | nil =>
          rw [List.append_nil] at shorter
          exact shorter ▸ others
      | cons next more =>
          obtain ⟨rfl, -⟩ := List.cons.inj rest
          exact absurd (shorter ▸ List.mem_append_right prior List.mem_cons_self) first
  · rintro ⟨new, others⟩
    exact ⟨before, after, rfl, new, others⟩

/-! ## Chunks that look alike -/

/-- The name a chunk is shown under -/
def Piece.shownName (library : ContextLibrary) (piece : Piece) : String :=
  library.str ((piece.attachment.get "name").orElse (.str "attachment"))

/-- The number of a chunk as its key has it: the first chunk has none. -/
def Piece.number (piece : Piece) : String :=
  if piece.index = 0 then "" else toString (piece.index : Int)

theorem orElse_orElse {left middle right : Value} (solid : middle.truthy = true) :
    (left.orElse middle).orElse right = left.orElse middle := by
  unfold Value.orElse
  by_cases full : left.truthy = true <;> simp [full, solid]

theorem mergeKey_document (piece : Piece) : mergeKey library piece.document =
    (piece.shownName library, piece.number, Text.truncate 120 piece.text) := by
  have source : piece.document.metadata.get "source" =
      (piece.attachment.get "name").orElse (.str "attachment") := rfl
  have number : piece.document.metadata.get "chunk_id" = .int piece.index := rfl
  have content : piece.document.pageContent = piece.text := rfl
  unfold mergeKey
  rw [source, number, content, orElse_orElse (by decide)]
  unfold Piece.shownName Piece.number Value.orElse
  by_cases start : piece.index = 0
  · simp [start, Value.truthy, library.str_text]
  · have number : (Value.int piece.index).truthy = true := by simp [Value.truthy, start]
    rw [if_pos number, if_neg start, library.str_int]

theorem number_injective {piece other : Piece} :
    other.number = piece.number ↔ other.index = piece.index := by
  have solid : ∀ number : Nat, toString (number : Int) ≠ "" := fun _ => Nat.repr_ne_empty
  unfold Piece.number
  constructor
  · intro same
    split_ifs at same with first second second
    · rw [first, second]
    · exact absurd same.symm (solid _)
    · exact absurd same (solid _)
    · exact Text.toString_natCast_injective same
  · intro same
    rw [same]

/-- Whether two chunks look alike: they have the shown name, the number and the first characters
in common. -/
def LooksLike (library : ContextLibrary) (other piece : Piece) : Prop :=
  other.shownName library = piece.shownName library ∧ other.index = piece.index ∧
    Text.truncate 120 other.text = Text.truncate 120 piece.text

theorem mergeKey_eq_iff {piece other : Piece} :
    mergeKey library other.document = mergeKey library piece.document ↔
      LooksLike library other piece := by
  simp [mergeKey_document, LooksLike, number_injective]

/-- Whether two chunks are one: of one attachment, with the number and the text in common. -/
def SameChunk (other piece : Piece) : Prop :=
  Settings.getOr other.attachment "id" (.str "") =
    Settings.getOr piece.attachment "id" (.str "") ∧
  other.index = piece.index ∧ other.text = piece.text

theorem identity_eq_iff {piece other : Piece} :
    identity other.document = identity piece.document ↔ SameChunk other piece := by
  have parts (piece : Piece) : identity piece.document =
      (Settings.getOr piece.attachment "id" (.str ""), .int piece.index, piece.text) := rfl
  have numbers : (Value.int other.index = Value.int piece.index) ↔ other.index = piece.index := by
    rw [Value.int.injEq, Int.natCast_inj]
  rw [parts, parts, Prod.mk.injEq, Prod.mk.injEq, numbers]
  rfl

/-- Whether each chunk that looks like a document before it is that document. -/
def LooksAreTelling (library : ContextLibrary) (contextDocs : List Document)
    (attachments : List Metadata) : Prop :=
  ∀ before piece after, pieces library attachments = before ++ piece :: after →
    ((∃ doc ∈ contextDocs, mergeKey library doc = mergeKey library piece.document) ∨
      ∃ other ∈ before, LooksLike library other piece) →
    (∃ doc ∈ contextDocs, identity doc = identity piece.document) ∨
      ∃ other ∈ before, SameChunk other piece

theorem mergesCompletely_iff (library : ContextLibrary) (contextDocs : List Document)
    (attachments : List Metadata) :
    MergesCompletely library contextDocs (buildAttachmentDocuments library attachments) ↔
      LooksAreTelling library contextDocs attachments := by
  constructor
  · intro merges before piece after shape alike
    by_contra distinct
    rw [not_or] at distinct
    obtain ⟨unretrieved, unseen⟩ := distinct
    have fresh : ∀ earlier ∈ contextDocs ++ before.map Piece.document,
        identity earlier ≠ identity piece.document := by
      intro earlier member same
      rcases List.mem_append.mp member with retrieved | other
      · exact unretrieved ⟨earlier, retrieved, same⟩
      · obtain ⟨twin, listed, rfl⟩ := List.mem_map.mp other
        exact unseen ⟨twin, listed, identity_eq_iff.mp same⟩
    have shape : buildAttachmentDocuments library attachments =
        before.map Piece.document ++ piece.document :: after.map Piece.document := by
      simp [buildAttachmentDocuments, shape]
    have kept := merges.complete _ _ _ shape fresh
    rw [shape, mergeContextDocs, List.mem_append] at kept
    rcases kept with retrieved | kept
    · exact fresh _ (List.mem_append_left _ retrieved) rfl
    · have first : piece.document ∉ before.map Piece.document := fun member =>
        fresh _ (List.mem_append_right _ member) rfl
      obtain ⟨new, others⟩ := (mem_mergeLoop_at first).mp kept
      rcases alike with ⟨doc, member, same⟩ | ⟨other, member, same⟩
      · exact new (same ▸ List.mem_map_of_mem member)
      · exact others _ (List.mem_map_of_mem member) (mergeKey_eq_iff.mpr same)
  · intro telling
    refine ⟨⟨_, rfl, mergeLoop_sublist _ _⟩, ?_⟩
    intro before chunk after shape fresh
    obtain ⟨before, rest, split, rfl, tail⟩ := List.map_eq_append_iff.mp shape
    obtain ⟨piece, after, rfl, rfl, rfl⟩ := List.map_eq_cons_iff.mp tail
    have apart := mt (telling before piece after split)
    rw [not_or, not_or] at apart
    have first : piece.document ∉ before.map Piece.document := fun member =>
      fresh _ (List.mem_append_right _ member) rfl
    have distinct : (¬∃ doc ∈ contextDocs, identity doc = identity piece.document) ∧
        ¬∃ other ∈ before, SameChunk other piece := by
      constructor
      · rintro ⟨doc, member, same⟩
        exact fresh doc (List.mem_append_left _ member) same
      · rintro ⟨other, member, same⟩
        exact fresh other.document (List.mem_append_right _ (List.mem_map_of_mem member))
          (identity_eq_iff.mpr same)
    obtain ⟨unretrieved, unseen⟩ := apart distinct
    rw [shape, mergeContextDocs, List.mem_append]
    refine .inr ((mem_mergeLoop_at first).mpr ⟨?_, ?_⟩)
    · intro known
      obtain ⟨doc, member, same⟩ := List.mem_map.mp known
      exact unretrieved ⟨doc, member, same⟩
    · intro earlier member same
      obtain ⟨other, listed, rfl⟩ := List.mem_map.mp member
      exact unseen ⟨other, listed, mergeKey_eq_iff.mp same⟩

end

/-! ## Two notes of one name -/

namespace ContextLibrary

theorem sample_text (text : String) : (Value.str text).scalarText.getD "" = text :=
  rfl

theorem sample_int (number : Int) : (Value.int number).scalarText.getD "" = toString number :=
  rfl

/-- A library that reads each file as its path. -/
def sample : ContextLibrary where
  str value := value.scalarText.getD ""
  str_text := sample_text
  str_int := sample_int
  extractPdfText path := .ok path
  tabularText path _ := .ok path
  extractTextFile path := .ok path
  spreadsheetText path _ := .ok path
  splitText text := [text]

end ContextLibrary

def heading : String := String.ofList (List.replicate 120 '-')

/-- A note whose text is its path -/
def note (id path : String) : Metadata :=
  [("id", .str id), ("name", .str "notes.txt"), ("path", .str path)]

theorem piecesOf_note {id path : String} (solid : path ≠ "") :
    piecesOf .sample (note id path) = [⟨note id path, 0, path⟩] := by
  have location : ((note id path).get "path").orElse (.str "") = .str path := by
    have found : (note id path).get "path" = .str path := rfl
    simp [found, Value.orElse, Value.truthy, solid]
  have name : (note id path).get "name" = .str "notes.txt" := rfl
  have extension : nameExtension "notes.txt" = "txt" := by decide +kernel
  have text : attachmentText .sample (note id path) = path := by
    unfold attachmentText
    rw [location, name]
    simp [Value.orElse, Value.truthy, ContextLibrary.str_text, extension, extractText,
      textExtensions, ContextLibrary.sample]
  unfold piecesOf
  rw [text]
  simp only [if_neg solid]
  rfl

/-- Of two notes with a name and a heading in common, the second is lost. -/
theorem namesake_note_lost : ¬MergesCompletely .sample [] (buildAttachmentDocuments .sample
    [note "a" (heading ++ "first"), note "b" (heading ++ "second")]) := by
  intro merges
  have different : heading ++ "first" ≠ heading ++ "second" := by decide +kernel
  have written : heading ++ "first" ≠ "" ∧ heading ++ "second" ≠ "" := by decide +kernel
  have shape : buildAttachmentDocuments .sample
      [note "a" (heading ++ "first"), note "b" (heading ++ "second")] =
      [(Piece.mk (note "a" (heading ++ "first")) 0 (heading ++ "first")).document] ++
        (Piece.mk (note "b" (heading ++ "second")) 0 (heading ++ "second")).document :: [] := by
    simp only [buildAttachmentDocuments, pieces, List.flatMap_cons, List.flatMap_nil,
      piecesOf_note written.1, piecesOf_note written.2, List.append_nil, List.map_append,
      List.map_cons, List.map_nil]
  have lost : (mergeContextDocs .sample [] (buildAttachmentDocuments .sample
      [note "a" (heading ++ "first"), note "b" (heading ++ "second")])).map
        Document.pageContent = [heading ++ "first"] := by
    decide +kernel
  have kept := merges.complete _ _ _ shape (by
    intro earlier member same
    rw [List.nil_append, List.mem_singleton] at member
    subst member
    exact different (identity_eq_iff.mp same).2.2)
  have shown := List.mem_map_of_mem (f := Document.pageContent) kept
  rw [lost, List.mem_singleton] at shown
  exact different shown.symm

end RAGuardian.Ranking
