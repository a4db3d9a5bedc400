import RAGuardian.Documents.Uploads

/-! # Deletions and rebuilds

A deletion removes a document with its chunks and side files. A rebuild empties the
collection and indexes the files of a list of entries again. -/

namespace RAGuardian.Documents

/-! ## Names -/

/-- Split at every occurrence of a separator. -/
def splitOn (separator : Char) : List Char → List (List Char)
  | [] => [[]]
  | character :: rest =>
      match splitOn separator rest with
      | [] => [[character]]
      | first :: more =>
          if character = separator then [] :: first :: more else (character :: first) :: more

/-- What the names of files are checked with: `secure_filename`, and `str.isalpha` for one
character. -/
structure Names where
  secureFilename : String → String
  isAlpha : Char → Bool

/-- The parts of a path, or none if one of them is not safe. -/
def Names.safeParts (names : Names) (raw : List (List Char)) : Option (List String) :=
  match raw with
  | [] => some []
  | part :: rest =>
      let part := Text.strip (String.ofList part)
      if part = "" ∨ part = "." then names.safeParts rest
      else if part = ".." ∨ names.secureFilename part = "" then none
      else (names.safeParts rest).map (names.secureFilename part :: ·)

/-- `path[1] == ":" and path[0].isalpha()` -/
def Names.hasDrive (names : Names) : List Char → Bool
  | letter :: ':' :: _ => names.isAlpha letter
  | _ => false

/-- Replace the backslashes of a path, and strip it. -/
def slashed (path : String) : String :=
  Text.strip (String.ofList (path.toList.map fun character =>
    if character = '\\' then '/' else character))

/-- `_safe_file_index_key` -/
def Names.safeFileIndexKey (names : Names) (raw : String) : String :=
  let path := slashed raw
  if path = "" ∨ Text.startsWith "/" path ∨ Text.startsWith "~" path then ""
  else if names.hasDrive path.toList then ""
  else String.intercalate "/" ((names.safeParts (splitOn '/' path.toList)).getD [])

/-- `os.path.splitext(path.lower())[1].lstrip(".")` -/
def pathExtension (path : String) : String :=
  let name := (basename (Text.lower path)).toList.dropWhile (· = '.')
  if '.' ∈ name then String.ofList (name.reverse.takeWhile (· ≠ '.')).reverse else ""

/-- `DOCUMENT_UPLOAD_EXTENSIONS` -/
def documentUploadExtensions : List String :=
  ["pdf", "txt", "md", "csv"]

/-- `AUDIO_UPLOAD_EXTENSIONS` -/
def audioUploadExtensions : List String :=
  ["mp3", "wav", "m4a", "webm", "ogg", "flac"]

/-- `TEXT_EXTENSIONS` -/
def textExtensions : List String :=
  ["txt", "md", "csv"]

/-- The files of a knowledge base, and how their names are checked. -/
structure KnowledgeBase where
  names : Names
  uploadFolder : String

section

variable (base : KnowledgeBase)

/-- `entry.get("path") or os.path.join(config["UPLOAD_FOLDER"], filename)` -/
def KnowledgeBase.sourceOf (entry : Entry) (filename : String) : String :=
  textOr (entry.get? "path") (joinPath base.uploadFolder filename)

/-! ## Deletions -/

/-- `FileIndex.remove` -/
def World.removeEntry (world : World) (filename : String) : World :=
  { world with entries := world.otherEntries filename }

/-- `_delete_uploaded_file_if_safe`, and `_delete_transcript_if_safe` for a path that is
not empty. -/
def KnowledgeBase.deletesFile (path : String) (world : World) : Bool :=
  Text.startsWith (base.uploadFolder ++ "/") path && world.isFile path

/-- What is left if a file is deleted that may be. -/
def KnowledgeBase.deleteFile (path : String) (world : World) : World :=
  if base.deletesFile path world then world.removeFile path else world

/-- The answer to a deletion. -/
structure Deleted where
  filename : String
  source : String
  chunksDeleted : Nat
  fileDeleted : Bool
  transcriptDeleted : Bool
  ocrTextDeleted : Bool
deriving DecidableEq, Repr

/-- What a deletion leaves of the stores. -/
def KnowledgeBase.deleted (filename : String) (entry : Entry) (world : World) : World :=
  let source := base.sourceOf entry filename
  base.deleteFile (textOr (entry.get? "ocr_text_path") "")
    (base.deleteFile (textOr (entry.get? "transcript_path") "")
      (base.deleteFile source ((world.withoutSource source).removeEntry filename)))

/-- `_delete_indexed_file_locked`, where the stores do not fail. -/
def KnowledgeBase.deleteIndexedFile (raw : String) : Action Deleted := fun world =>
  let filename := base.names.safeFileIndexKey raw
  if filename = "" then .error (.raised "Nome file non valido") world
  else
    match world.entry filename with
    | none => .error (.raised "File indicizzato non trovato") world
    | some entry =>
        let source := base.sourceOf entry filename
        let transcript := textOr (entry.get? "transcript_path") ""
        let ocrText := textOr (entry.get? "ocr_text_path") ""
        let removed := base.deleteFile source world
        .ok {
          filename := filename
          source := source
          chunksDeleted := (world.chunksOf source).length
          fileDeleted := base.deletesFile source world
          transcriptDeleted := base.deletesFile transcript removed
          ocrTextDeleted := base.deletesFile ocrText (base.deleteFile transcript removed)
        } (base.deleted filename entry world)

/-! ## Rebuilds -/

/-- `INGESTION_METADATA_KEYS` -/
def ingestionMetadataKeys : List String :=
  ["source_type", "ingestion_plugin", "data_source_id", "remote_id", "remote_url",
    "remote_updated_at", "subject", "sender", "recipients", "thread_id", "message_id",
    "attachment_id", "attachment_filename", "drive_id", "item_id", "parent_id", "etag",
    "file_name", "mime_type", "size", "relative_path"]

/-- `ingestion_metadata_from_entry` -/
def ingestionMetadataFromEntry (entry : Entry) : Metadata :=
  ingestionMetadataKeys.foldl
    (fun metadata key =>
      match entry.get? key with
      | some value => if value = .text "" then metadata else metadata.set key value
      | none => metadata)
    .empty

/-- How a rebuild reads files. -/
structure RebuildReader where
  parser : Parser
  ocr : OcrService
  /-- The chunks `process_transcript` makes of a transcript file. -/
  transcriptTexts : Content → Except String (List String)

/-- A rebuild job: the entries and the profiles it was admitted with, and the times at
which it records an entry. -/
structure RebuildJob where
  entries : List Entry
  profile : String
  ocrProfile : String
  now : Nat → String

/-- `_entry_filename` -/
def KnowledgeBase.entryFilename (entry : Entry) : String :=
  let filename := base.names.safeFileIndexKey (textOr (entry.get? "filename") "")
  if filename ≠ "" then filename
  else
    let fallback := base.names.secureFilename
      (basename (textOr (entry.get? "path") "documento.pdf"))
    if fallback ≠ "" then fallback else "documento.pdf"

/-- `_safe_rebuild_source_path`, for a path that is absolute. -/
def KnowledgeBase.safeRebuildSourcePath (entry : Entry) : Action String := do
  let source := base.sourceOf entry (base.entryFilename entry)
  let world ← get
  if ¬ Text.startsWith (base.uploadFolder ++ "/") source then
    throw (.raised "Path file non valida")
  else if pathExtension source ∉ documentUploadExtensions ++ audioUploadExtensions then
    throw (.raised "Formato file non supportato")
  else if ¬ world.isFile source then throw (.raised "File non trovato su disco")
  else pure source

/-- What `_documents_for_rebuild` returns. -/
structure RebuildSource where
  path : String
  documents : List Document
  sourceType : Scalar
  extra : Metadata

/-- The documents of a transcript. -/
def RebuildReader.transcriptDocuments (reader : RebuildReader) (path transcriptPath : String) :
    Action RebuildSource := do
  let world ← get
  if ¬ world.isFile transcriptPath then
    throw (.raised "Transcript audio non trovato su disco")
  else
    let transcript ← readFile transcriptPath
    match reader.transcriptTexts transcript with
    | .error message => throw (.raised message)
    | .ok texts => do
        let content ← readFile path
        pure {
          path := path
          documents := documentsOf reader.parser path content
            ((Dictionary.empty.set "source_type" (.text "audio")).set
              "transcript_path" (.text transcriptPath)) texts
          sourceType := .text "audio"
          extra := Dictionary.empty.set "transcript_path" (.text transcriptPath) }

/-- The documents of a text file. -/
def RebuildReader.textDocuments (reader : RebuildReader) (path extension : String) :
    Action RebuildSource := do
  let world ← get
  match processFile reader.parser path extension world with
  | .error message => throw (.raised message)
  | .ok documents =>
      pure ⟨path, documents, .text (sourceTypeForExtension extension), .empty⟩

/-- The documents of a PDF file, or of the text of its images. -/
def RebuildReader.pdfDocuments (reader : RebuildReader) (path : String) :
    Action RebuildSource := do
  let world ← get
  let outcome := parseFile reader.parser path "pdf" world
  let (ocrDocuments, ocrExtra, _) ←
    ocrDocumentsForConfig reader.parser reader.ocr {} path outcome.1 outcome.2
  if ocrDocuments ≠ [] then pure ⟨path, ocrDocuments, .text "pdf", ocrExtra⟩
  else if outcome.1 ≠ [] then pure ⟨path, outcome.1, .text "pdf", .empty⟩
  else pure ⟨path, outcome.1, .text "pdf", ocrExtra⟩

/-- `entry.get("source_type") or …` -/
def rebuildSourceType (entry : Entry) (extension : String) : String :=
  textOr (entry.get? "source_type") (if extension ∈ audioUploadExtensions then "audio" else "pdf")

variable (reader : RebuildReader) (job : RebuildJob)

/-- `_documents_for_rebuild` -/
def documentsForRebuild (entry : Entry) : Action RebuildSource := do
  let path ← base.safeRebuildSourcePath entry
  let extension := pathExtension path
  if rebuildSourceType entry extension = "audio" then
    reader.transcriptDocuments path
      (textOr (entry.get? "transcript_path") (path ++ ".transcript.txt"))
  else if extension ∈ textExtensions then reader.textDocuments path extension
  else reader.pdfDocuments path

/-- The entry that a call of `FileIndex.record` makes. -/
def indexEntry (filename path now : String) (chunks : Nat) (status error : String)
    (metadata : Metadata) : Entry :=
  merge ((((((Dictionary.empty.set "filename" (.text filename)).set
    "path" (.text path)).set "chunks" (.integer chunks)).set "status" (.text status)).set
    "error" (.text error)).set "updated_at" (.text now)) metadata

/-- `_index_profile_metadata` -/
def indexProfileMetadata (profile : String) (extra : Metadata) : Metadata :=
  merge (Dictionary.empty.set "index_profile" (.text profile)) extra

/-- The stores during a rebuild, and the path of each document id that was indexed. -/
structure RebuildState where
  world : World
  seen : Dictionary String String := .empty

/-- The metadata of an entry that was read. -/
def rebuiltMetadata (entry : Entry) (source : RebuildSource) (duplicateOf : Option String) :
    Metadata :=
  let ingestion := ingestionMetadataFromEntry entry
  let extra := merge source.extra ingestion
  let profile := if (extra.get? "ocr_used").any Scalar.truthy then job.ocrProfile else job.profile
  let sourceType := (ingestion.get? "source_type").getD source.sourceType
  let transcript := (entry.get? "transcript_path").getD (.text "")
  let described := (Dictionary.empty.set "source_type" sourceType).set "transcript_path" transcript
  indexProfileMetadata profile
    (match source.documents with
    | [] => described.set "ocr_text_path" ((extra.get? "ocr_text_path").getD (.text ""))
    | _ :: _ =>
        let identified := merge
          (((Dictionary.empty.set "document_id" (.text (documentIdOf source.documents))).set
            "source_id" (.text (sourceIdOf source.documents))))
          (merge described extra)
        match duplicateOf with
        | none => identified
        | some path => identified.set "duplicate_of_source" (.text path))

/-- Record an entry that was read. -/
def recordRebuilt (index : Nat) (entry : Entry) (source : RebuildSource) (chunks : Nat)
    (status error : String) (duplicateOf : Option String) (world : World) : World :=
  let filename := base.entryFilename entry
  world.record filename (indexEntry filename source.path (job.now index) chunks status error
    (rebuiltMetadata job entry source duplicateOf))

/-- Index the documents of an entry that was read. -/
def rebuildDocuments (index : Nat) (entry : Entry) (source : RebuildSource)
    (state : RebuildState) : RebuildState :=
  let record := recordRebuilt base job index entry source
  let documentId := documentIdOf source.documents
  match source.documents with
  | [] =>
      { state with
        world := record 0 "empty" "Il PDF non contiene testo indicizzabile" none state.world }
  | first :: rest =>
      match if documentId = "" then none else state.seen.get? documentId with
      | some path =>
          { state with
            world := record 0 "duplicate" ("Contenuto gia' indicizzato da " ++ path) (some path)
              state.world }
      | none =>
          { world := record (rest.length + 1) "indexed" "" none
              (state.world.addChunks (chunksFor reader.parser (first :: rest)))
            seen :=
              if documentId = "" then state.seen else state.seen.set documentId source.path }

/-- One turn of the loop of `_run_rebuild_index_job_locked`. -/
def rebuildEntry (index : Nat) (entry : Entry) (state : RebuildState) : RebuildState :=
  let filename := base.entryFilename entry
  match documentsForRebuild base reader entry state.world with
  | .ok source world =>
      let documents := applyExtraMetadata source.documents (ingestionMetadataFromEntry entry)
      rebuildDocuments base reader job index entry { source with documents } { state with world }
  | .error failure world =>
      { state with
        world := world.record filename
          (indexEntry filename (base.sourceOf entry filename) (job.now index) 0 "error"
            failure.message (indexProfileMetadata job.profile .empty)) }

/-- `_run_rebuild_index_job_locked`, where the stores do not fail. -/
def rebuildIndex (world : World) : World :=
  (job.entries.zipIdx.foldl (fun state (entry, index) =>
    rebuildEntry base reader job index entry state)
    { world := { world with chunks := .empty } }).world

end

end RAGuardian.Documents
