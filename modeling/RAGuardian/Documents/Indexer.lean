import RAGuardian.Documents.Stores

/-! # Indexing a document

`index_saved_document` and `index_staged_document`. Where they can fail is given with
the call, and an operation on the collection may fail halfway. -/

namespace RAGuardian.Documents

/-! ## What a call meets -/

/-- What the parsers and the hashes make of a file. -/
structure Parser where
  documentHash : Content → String
  sourceHash : String → String
  texts : String → Content → Except String (List String)
  embed : String → Embedding

/-- The points where a call fails. A lease may be lost at each of its checks; a delete
and an insert that fail have done their work for some of the ids. -/
structure Faults where
  leaseLost : Nat → Option String := fun _ => none
  snapshot : Option String := none
  backup : Option String := none
  commit : Option String := none
  delete : Option (String × (String → Bool)) := none
  find : Option String := none
  profile : Option String := none
  record : Option String := none
  encode : Option String := none
  insert : Option (String × (String → Bool)) := none
  clearCache : Option String := none
  restoreFile : Option String := none
  restoreChunks : Option String := none
  restoreCache : Option String := none
  restoreEntry : Option String := none
  cleanBackup : Bool := false
  cleanStaged : Bool := false

/-- The arguments of `index_staged_document`, the paths made absolute and the metadata
normalized, and what it reads besides. The OCR function returns documents, further
metadata and an error. -/
structure Request where
  uploadFolder : String
  filename : String
  filePath : String
  stagedFilePath : String
  extension : String
  ocr : Option (List Document → String → Except String (List Document × Metadata × String)) :=
    none
  extraMetadata : Metadata
  indexProfile : String
  now : String
  /-- `uuid.uuid4().hex` -/
  unique : String

structure Indexed where
  status : String
  chunks : Nat
  documentId : String
  duplicateOf : String := ""
deriving DecidableEq, Repr

/-- `DOCUMENT_INDEX_EXTENSIONS` -/
def documentIndexExtensions : List String :=
  ["pdf", "txt", "md", "csv"]

/-- `source_type_for_extension` -/
def sourceTypeForExtension (extension : String) : String :=
  if extension = "pdf" then "pdf"
  else if extension = "md" then "markdown"
  else if extension = "csv" then "csv"
  else if extension = "txt" then "text"
  else "document"

/-- Fail if the fault is there. -/
def failing (fault : Option String) : Action Unit :=
  match fault with
  | some message => throw (.raised message)
  | none => pure ()

/-- `assert_distributed_locks_healthy` -/
def assertLocksHealthy (faults : Faults) (check : Nat) : Action Unit :=
  match faults.leaseLost check with
  | some message => throw (.leaseLost message)
  | none => pure ()

section

variable (parser : Parser) (faults : Faults)

/-- `process_text_file` and `process_pdf` -/
def processFile (path extension : String) (world : World) : Except String (List Document) :=
  match world.files.get? path with
  | none => .error ("[Errno 2] No such file or directory: '" ++ path ++ "'")
  | some content => do
      let texts ← parser.texts extension content
      pure (texts.zipIdx.map fun (text, index) => {
        text := text
        metadata := ((((Dictionary.empty.set "source" (.text path)).set
          "document_id" (.text (parser.documentHash content))).set
          "source_id" (.text (parser.sourceHash path))).set "chunk_id" (.integer index)).set
          "chunk_length" (.integer text.length) })

/-- `delete_documents_by_source` -/
def deleteBySource (source : String) : Action Nat := do
  let world ← get
  let ids := (world.chunksOf source).map Prod.fst
  match faults.delete with
  | some (message, deleted) => do
      modify fun world => world.deleteChunks (ids.filter deleted)
      throw (.raised message)
  | none => do
      modify fun world => world.deleteChunks ids
      pure ids.length

/-- The chunks `add_documents` inserts. -/
def chunksFor (documents : List Document) : List (String × Chunk) :=
  documents.zipIdx.map fun (document, index) =>
    (documentChunkId parser.sourceHash document.metadata index,
      ⟨document.text, document.metadata, parser.embed document.text⟩)

/-- `add_documents_to_chroma` -/
def addDocuments (documents : List Document) : Action Unit := do
  failing faults.encode
  match faults.insert with
  | some (message, inserted) => do
      modify fun world =>
        world.addChunks ((chunksFor parser documents).filter fun entry => inserted entry.1)
      throw (.raised message)
  | none => modify fun world => world.addChunks (chunksFor parser documents)

/-- `index_record_metadata_for_config`, with the profile by its JSON text. -/
def recordMetadata (request : Request) (documentId sourceId : String) (extra : Metadata) :
    Metadata :=
  merge (((Dictionary.empty.set "index_profile" (.text request.indexProfile)).set
    "document_id" (.text documentId)).set "source_id" (.text sourceId)) extra

/-- The entry `FileIndex.record` makes. -/
def entryFor (request : Request) (path : String) (chunks : Nat) (status error : String)
    (metadata : Metadata) : Entry :=
  merge ((((((Dictionary.empty.set "filename" (.text request.filename)).set
    "path" (.text path)).set "chunks" (.integer chunks)).set "status" (.text status)).set
    "error" (.text error)).set "updated_at" (.text request.now)) metadata

/-- `FileIndex.record`, once the settings have given the profile. -/
def recordEntry (request : Request) (path : String) (chunks : Nat) (status error : String)
    (documentId sourceId : String) (extra : Metadata) : Action Unit := do
  failing faults.profile
  failing faults.record
  modify fun world => world.record request.filename
    (entryFor request path chunks status error (recordMetadata request documentId sourceId extra))

/-- `extension.lower().lstrip(".")` -/
def normalizeExtension (extension : String) : String :=
  String.ofList ((Text.lower extension).toList.dropWhile (· = '.'))

/-- `apply_extra_metadata_to_documents` -/
def applyExtraMetadata (documents : List Document) (extra : Metadata) : List Document :=
  documents.map fun document => { document with metadata := merge document.metadata extra }

/-- What parsing and OCR yield: the documents, the metadata added to them, and the
errors of the two. -/
structure Parsed where
  documents : List Document
  extra : Metadata
  parseError : String
  ocrError : String

/-- Parse the file. An exception is kept as a text. -/
def parseFile (path extension : String) (world : World) : List Document × String :=
  match processFile parser path extension world with
  | .ok documents => (documents, "")
  | .error message => ([], message)

/-- Read the images of a PDF, if there is a function for it. -/
def readImages (request : Request) (extension : String) (documents : List Document)
    (extra : Metadata) (parseError : String) : Action Parsed :=
  match request.ocr with
  | none => pure ⟨documents, extra, parseError, ""⟩
  | some ocr =>
      if extension ≠ "pdf" then pure ⟨documents, extra, parseError, ""⟩
      else
        match ocr documents parseError with
        | .error message => throw (.raised message)
        | .ok (ocrDocuments, ocrExtra, ocrError) =>
            pure ⟨if ocrDocuments = [] then documents else ocrDocuments, merge extra ocrExtra,
              parseError, ocrError⟩

/-- The first part of `index_saved_document`: parse the file, and its images if it is a
PDF. -/
def parseDocument (request : Request) (path extension : String) : Action Parsed := do
  let world ← get
  let outcome := parseFile parser path extension world
  let extra := merge
    (Dictionary.empty.set "source_type" (.text (sourceTypeForExtension extension)))
    request.extraMetadata
  let parsed ← readImages request extension outcome.1 extra outcome.2
  pure { parsed with documents := applyExtraMetadata parsed.documents parsed.extra }

/-- The cache of the answers is cleared if chunks were deleted. -/
def clearCacheAfter (replaced : Nat) : Action Unit :=
  if replaced ≠ 0 then failing faults.clearCache else pure ()

/-- Look for the document under another source, if it has an id. -/
def findDuplicate (documentId path : String) : Action (Option (Option Scalar × Nat)) :=
  if documentId = "" then pure none
  else do
    failing faults.find
    let world ← get
    pure (world.findDocument documentId path)

/-- `ocr_error or parse_error or …` -/
def Parsed.emptyError (parsed : Parsed) : String :=
  if parsed.ocrError ≠ "" then parsed.ocrError
  else if parsed.parseError ≠ "" then parsed.parseError
  else "Il file non contiene testo indicizzabile"

/-- The rest of `index_saved_document`. -/
def indexParsed (request : Request) (path : String) (parsed : Parsed) : Action Indexed := do
  assertLocksHealthy faults 1
  let replaced ← deleteBySource faults path
  match parsed.documents with
  | [] => do
      assertLocksHealthy faults 2
      recordEntry faults request path 0 "empty" parsed.emptyError "" "" parsed.extra
      clearCacheAfter faults replaced
      throw (.raised parsed.emptyError)
  | first :: rest => do
      let documentId := textOr (first.metadata.get? "document_id") ""
      let sourceId := textOr (first.metadata.get? "source_id") ""
      let duplicate ← findDuplicate faults documentId path
      match duplicate with
      | some (source, count) => do
          let source := textOr source ""
          assertLocksHealthy faults 2
          clearCacheAfter faults replaced
          recordEntry faults request path 0 "duplicate" ("Contenuto gia' indicizzato da " ++ source)
            documentId sourceId ((parsed.extra.set "duplicate_of_source" (.text source)).set
              "indexed_chunks" (.integer count))
          pure ⟨"duplicate", 0, documentId, source⟩
      | none => do
          assertLocksHealthy faults 2
          addDocuments parser faults (first :: rest)
          failing faults.clearCache
          assertLocksHealthy faults 3
          recordEntry faults request path (rest.length + 1) "indexed" "" documentId sourceId
            parsed.extra
          pure ⟨"indexed", rest.length + 1, documentId, ""⟩

/-- `index_saved_document` -/
def indexSavedDocument (request : Request) (path : String) : Action Indexed := do
  let extension := normalizeExtension request.extension
  if extension ∉ documentIndexExtensions then throw (.raised "Formato file non supportato")
  else
    let parsed ← parseDocument parser request path extension
    indexParsed parser faults request path parsed

/-! ## Replacing a document -/

/-- The part of a path up to its last separator. -/
def pathHead (path : String) : List Char :=
  (path.toList.reverse.dropWhile (· ≠ '/')).reverse

/-- `os.path.dirname` -/
def dirname (path : String) : String :=
  let head := pathHead path
  if head.all (· = '/') then String.ofList head
  else String.ofList (head.reverse.dropWhile (· = '/')).reverse

/-- `os.path.basename` -/
def basename (path : String) : String :=
  String.ofList (path.toList.drop (pathHead path).length)

/-- `os.path.join` with a relative second part. -/
def joinPath (folder name : String) : String :=
  if folder = "" ∨ folder.toList.getLast? = some '/' then folder ++ name
  else folder ++ "/" ++ name

/-- What `index_staged_document` has done so far. -/
structure Progress where
  snapshot : Option (List (String × Chunk)) := none
  backupCreated : Bool := false
  replacementCommitted : Bool := false

abbrev Tracked := EStateM Failure (World × Progress)

/-- An action that leaves the progress as it is. -/
def onWorld {α : Type} (action : Action α) : Tracked α := fun (world, progress) =>
  match action world with
  | .ok value world => .ok value (world, progress)
  | .error failure world => .error failure (world, progress)

/-- `backup_path`, for a file that exists. -/
def Request.backupPath (request : Request) : String :=
  joinPath (dirname request.filePath)
    ("." ++ basename request.filePath ++ "." ++ request.unique ++ ".rollback-ingestion")

/-- The checks on the two paths. -/
def Request.pathsValid (request : Request) : Prop :=
  Text.startsWith (request.uploadFolder ++ "/") request.filePath ∧
    Text.startsWith (request.uploadFolder ++ "/") request.stagedFilePath ∧
    dirname request.filePath = dirname request.stagedFilePath

instance (request : Request) : Decidable request.pathsValid :=
  inferInstanceAs (Decidable (_ ∧ _ ∧ _))

/-- Keep a copy of a file that exists. -/
def backUp (request : Request) (existing : Bool) : Tracked Unit :=
  if existing then do
    onWorld (failing faults.backup)
    onWorld (moveFile request.filePath request.backupPath)
    modify fun (world, progress) => (world, { progress with backupCreated := true })
  else pure ()

/-- The body of the `try` block. -/
def replaceAndIndex (request : Request) (existing : Bool) : Tracked Indexed := do
  onWorld (assertLocksHealthy faults 0)
  onWorld (failing faults.snapshot)
  modify fun (world, progress) =>
    (world, { progress with snapshot := some (world.chunksOf request.filePath) })
  backUp faults request existing
  onWorld (failing faults.commit)
  onWorld (moveFile request.stagedFilePath request.filePath)
  modify fun (world, progress) => (world, { progress with replacementCommitted := true })
  let indexed ← onWorld (indexSavedDocument parser faults request request.filePath)
  onWorld (assertLocksHealthy faults 4)
  pure indexed

/-- Move the backup back. -/
def restoreBackup (request : Request) : Action Unit := do
  let world ← get
  if world.isFile request.backupPath then moveFile request.backupPath request.filePath
  else throw (.raised ("Backup data source non trovato: " ++ request.backupPath))

/-- The first part of the rollback. -/
def restoreFile (request : Request) (progress : Progress) : Action Unit := do
  failing faults.restoreFile
  modify fun world =>
    if progress.replacementCommitted ∧ world.isFile request.filePath then
      world.removeFile request.filePath
    else world
  if progress.backupCreated then restoreBackup request else pure ()

/-- The second part of the rollback. -/
def restoreChunks (request : Request) (snapshot : List (String × Chunk)) : Action Unit := do
  failing faults.restoreChunks
  modify fun world => world.restoreSnapshot request.filePath snapshot
  failing faults.restoreCache

/-- The third part of the rollback. -/
def restoreEntry (request : Request) (previous : Option Entry) : Action Unit := do
  failing faults.restoreEntry
  modify fun world => world.restoreEntry request.filename previous

/-- Run a part of the rollback, and label its error. -/
def attempt (label : String) (part : Action Unit) (world : World) : List String × World :=
  match part world with
  | .ok _ world => ([], world)
  | .error failure world => ([label ++ failure.message], world)

/-- The handler of other failures than a lost lease. -/
def rollback (request : Request) (previous : Option Entry) (message : String)
    (progress : Progress) (world : World) : Failure × World :=
  match progress.snapshot with
  | none => (.raised message, world)
  | some snapshot =>
      let (fileErrors, world) := attempt "file: " (restoreFile faults request progress) world
      let (chunkErrors, world) := attempt "vettori: " (restoreChunks faults request snapshot) world
      let (entryErrors, world) := attempt "file index: " (restoreEntry faults request previous)
        world
      match fileErrors ++ chunkErrors ++ entryErrors with
      | [] => (.raised message, world)
      | errors =>
          (.raised (message ++ "; rollback data source fallito: " ++
            String.intercalate "; " errors), world)

/-- The `else` block: remove the backup. -/
def cleanBackup (request : Request) (progress : Progress) (world : World) : World :=
  if progress.backupCreated ∧ world.isFile request.backupPath ∧ faults.cleanBackup = false then
    world.removeFile request.backupPath
  else world

/-- The `finally` block: remove the staged file. -/
def cleanStaged (request : Request) (world : World) : World :=
  if world.isFile request.stagedFilePath ∧ faults.cleanStaged = false then
    world.removeFile request.stagedFilePath
  else world

/-- `index_staged_document` -/
def indexStagedDocument (request : Request) : Action Indexed := fun world =>
  if ¬ request.pathsValid then .error (.raised "Path staging data source non valido") world
  else if ¬ world.isFile request.stagedFilePath then
    .error (.raised "File staging data source non trovato") world
  else
    let previous := world.entry request.filename
    let existing := world.isFile request.filePath
    match replaceAndIndex parser faults request existing (world, {}) with
    | .ok indexed (world, progress) =>
        .ok indexed (cleanStaged faults request (cleanBackup faults request progress world))
    | .error (.leaseLost message) (world, _) =>
        .error (.leaseLost message) (cleanStaged faults request world)
    | .error (.raised message) (world, progress) =>
        let (failure, world) := rollback faults request previous message progress world
        .error failure (cleanStaged faults request world)

end

end RAGuardian.Documents
