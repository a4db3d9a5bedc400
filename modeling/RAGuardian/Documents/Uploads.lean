import RAGuardian.Documents.Outcomes

/-! # Uploads

A staged upload of a document or of an audio file is moved into place and indexed.
`_index_staged_upload` undoes both if something fails. -/

namespace RAGuardian.Documents

/-! ## What an upload meets -/

/-- `text.encode("utf-8")` -/
def encodeText (text : String) : Content :=
  text.toUTF8.data.toList

/-- The OCR settings and their provider. -/
structure OcrService where
  /-- The message of `decide_pdf_ocr_for_ingestion` for a file without documents, if OCR
  should not run. -/
  refusal : String → Option String
  /-- `provider.extract_text(file_path).strip()` -/
  extract : Content → Except String String
  /-- The chunks `process_ocr_text` makes of a text. -/
  texts : String → Except String (List String)
  provider : String
  model : String

/-- The voice settings and their provider. -/
structure VoiceService where
  transcribe : Content → Except String String
  /-- The chunks `process_transcript` makes of a transcript. -/
  texts : String → Except String (List String)

inductive UploadKind
  | file
  | audio
deriving DecidableEq, Repr

/-- An upload, its paths made absolute, and what its processing draws. -/
structure Upload where
  kind : UploadKind
  uploadFolder : String
  filename : String
  filePath : String
  extension : String
  relativePath : String
  indexProfile : String
  now : String
  /-- `uuid.uuid4().hex`, for the staged file and the two backups. -/
  stagedUnique : String
  fileUnique : String
  transcriptUnique : String

/-- The points where the processing fails besides those of `index_saved_document`. Writing
a text may fail when its file is opened, or after some bytes. -/
structure UploadFaults extends Faults where
  readEntry : Option String := none
  backupTranscript : Option String := none
  settings : Option String := none
  writeOcr : Option (String × Option Nat) := none
  writeTranscript : Option (String × Option Nat) := none

/-- A name beside a file. -/
def siblingPath (path unique suffix : String) : String :=
  joinPath (dirname path) ("." ++ basename path ++ "." ++ unique ++ suffix)

namespace Upload

variable (upload : Upload)

/-- The path `_save_upload_file` stages the upload under. -/
def stagedFilePath : String :=
  siblingPath upload.filePath upload.stagedUnique ".pending-upload"

def transcriptPath : String :=
  upload.filePath ++ ".transcript.txt"

def ocrTextPath : String :=
  upload.filePath ++ ".ocr.txt"

/-- `_upload_rollback_path(final_path)` -/
def backupFilePath : String :=
  siblingPath upload.filePath upload.fileUnique ".rollback-upload"

/-- `_upload_rollback_path(transcript_path)` -/
def backupTranscriptPath : String :=
  siblingPath upload.transcriptPath upload.transcriptUnique ".rollback-upload"

/-- The checks on the two paths. -/
def pathsValid : Prop :=
  Text.startsWith (upload.uploadFolder ++ "/") upload.filePath ∧
    Text.startsWith (upload.uploadFolder ++ "/") upload.stagedFilePath ∧
    dirname upload.filePath = dirname upload.stagedFilePath

instance : Decidable upload.pathsValid :=
  inferInstanceAs (Decidable (_ ∧ _ ∧ _))

/-- `{"relative_path": relative_path}`, if there is one. -/
def relativeMetadata (metadata : Metadata) : Metadata :=
  if upload.relativePath = "" then metadata
  else metadata.set "relative_path" (.text upload.relativePath)

/-- The arguments of `index_saved_document`. -/
def request : Request where
  uploadFolder := upload.uploadFolder
  filename := upload.filename
  filePath := upload.filePath
  stagedFilePath := upload.stagedFilePath
  extension := upload.extension
  extraMetadata := upload.relativeMetadata .empty
  indexProfile := upload.indexProfile
  now := upload.now
  unique := upload.fileUnique

end Upload

section

variable (parser : Parser) (ocr : OcrService) (voice : VoiceService) (faults : UploadFaults)

/-- Give a file a content. -/
def World.writeFile (world : World) (path : String) (content : Content) : World :=
  { world with files := world.files.set path content }

/-- Write a text file. -/
def writeText (fault : Option (String × Option Nat)) (path text : String) : Action Unit :=
  match fault with
  | some (message, some written) => do
      modify fun world => world.writeFile path ((encodeText text).take written)
      throw (.raised message)
  | some (message, none) => throw (.raised message)
  | none => modify fun world => world.writeFile path (encodeText text)

/-- The content of a file that is read. -/
def readFile (path : String) : Action Content := do
  let world ← get
  match world.files.get? path with
  | some content => pure content
  | none => throw (.raised ("[Errno 2] No such file or directory: '" ++ path ++ "'"))

/-! ## Documents -/

/-- The documents of a text that was read from a file otherwise than by its parser. -/
def documentsOf (path : String) (content : Content) (extra : Metadata) (texts : List String) :
    List Document :=
  texts.zipIdx.map fun (text, index) => {
    text := text
    metadata := merge (((((Dictionary.empty.set "source" (.text path)).set
      "document_id" (.text (parser.documentHash content))).set
      "source_id" (.text (parser.sourceHash path))).set "chunk_id" (.integer index)).set
      "chunk_length" (.integer text.length)) extra }

/-- The metadata `_ocr_documents_for_config` gives to a document. -/
def ocrMetadata (path : String) : Metadata :=
  ((((Dictionary.empty.set "source_type" (.text "pdf")).set
    "ocr_text_path" (.text (path ++ ".ocr.txt"))).set "ocr_used" (.flag true)).set
    "ocr_provider" (.text ocr.provider)).set "ocr_model" (.text ocr.model)

/-- `{"ocr_used": used, "ocr_error": error}` -/
def ocrFailure (used : Bool) (error : String) : Metadata :=
  (Dictionary.empty.set "ocr_used" (.flag used)).set "ocr_error" (.text error)

/-- `_ocr_documents_for_config` -/
def ocrDocumentsForConfig (path : String) (documents : List Document) (parseError : String) :
    Action (List Document × Metadata × String) := do
  failing faults.settings
  if documents ≠ [] then pure ([], .empty, "")
  else
    match ocr.refusal parseError with
    | some message => pure ([], .empty, message)
    | none => do
        let content ← readFile path
        match ocr.extract content with
        | .error message => pure ([], ocrFailure false message, message)
        | .ok text =>
            if text = "" then
              pure ([], ocrFailure true "OCR text is empty", "OCR text is empty")
            else do
              writeText faults.writeOcr (path ++ ".ocr.txt") (text ++ "\n")
              match ocr.texts text with
              | .error message => throw (.raised message)
              | .ok texts =>
                  pure (documentsOf parser path content (ocrMetadata ocr path) texts,
                    ocrMetadata ocr path, "")

/-- Read the images of a PDF. -/
def readUploadImages (path extension : String) (documents : List Document) (extra : Metadata)
    (parseError : String) : Action Parsed :=
  if extension ≠ "pdf" then pure ⟨documents, extra, parseError, ""⟩
  else do
    let (ocrDocuments, ocrExtra, ocrError) ←
      ocrDocumentsForConfig parser ocr faults path documents parseError
    pure ⟨if ocrDocuments = [] then documents else ocrDocuments, merge extra ocrExtra,
      parseError, ocrError⟩

/-- The first part of `index_saved_document`, with a function that reads images and leaves
their text beside the file. -/
def parseUpload (request : Request) (path extension : String) : Action Parsed := do
  let world ← get
  let outcome := parseFile parser path extension world
  let extra := merge
    (Dictionary.empty.set "source_type" (.text (sourceTypeForExtension extension)))
    request.extraMetadata
  let parsed ← readUploadImages parser ocr faults path extension outcome.1 extra outcome.2
  pure { parsed with documents := applyExtraMetadata parsed.documents parsed.extra }

/-- `_index_saved_document_upload` -/
def indexSavedDocumentUpload (upload : Upload) : Action Indexed := do
  let extension := normalizeExtension upload.extension
  if extension ∉ documentIndexExtensions then throw (.raised "Formato file non supportato")
  else
    let parsed ← parseUpload parser ocr faults upload.request upload.filePath extension
    indexParsed parser faults.toFaults upload.request upload.filePath parsed

/-! ## Audio files -/

/-- The metadata of an audio file, and of its documents. -/
def Upload.audioMetadata (upload : Upload) : Metadata :=
  upload.relativeMetadata ((Dictionary.empty.set "source_type" (.text "audio")).set
    "transcript_path" (.text upload.transcriptPath))

/-- The part of `_index_saved_audio_upload` from the deletion on. -/
def indexTranscribed (upload : Upload) (documents : List Document) : Action Indexed := do
  let record := recordEntry faults.toFaults upload.request upload.filePath
  assertLocksHealthy faults.toFaults 1
  let replaced ← deleteBySource faults.toFaults upload.filePath
  match documents with
  | [] => do
      assertLocksHealthy faults.toFaults 2
      record 0 "empty" "Audio transcript is empty" "" "" upload.audioMetadata
      clearCacheAfter faults.toFaults replaced
      throw (.raised "Audio transcript is empty")
  | first :: rest => do
      let documentId := textOr (first.metadata.get? "document_id") ""
      let sourceId := textOr (first.metadata.get? "source_id") ""
      let duplicate ← findDuplicate faults.toFaults documentId upload.filePath
      match duplicate with
      | some (source, count) => do
          let source := textOr source ""
          assertLocksHealthy faults.toFaults 2
          record 0 "duplicate" ("Content already indexed from " ++ source) documentId sourceId
            ((upload.audioMetadata.set "duplicate_of_source" (.text source)).set
              "indexed_chunks" (.integer count))
          clearCacheAfter faults.toFaults replaced
          pure ⟨"duplicate", 0, documentId, source⟩
      | none => do
          assertLocksHealthy faults.toFaults 2
          addDocuments parser faults.toFaults (first :: rest)
          failing faults.clearCache
          assertLocksHealthy faults.toFaults 3
          record (rest.length + 1) "indexed" "" documentId sourceId upload.audioMetadata
          pure ⟨"indexed", rest.length + 1, documentId, ""⟩

/-- `_index_saved_audio_upload` -/
def indexSavedAudioUpload (upload : Upload) : Action Indexed := do
  failing faults.settings
  let content ← readFile upload.filePath
  match voice.transcribe content with
  | .error message => throw (.raised message)
  | .ok transcript => do
      assertLocksHealthy faults.toFaults 6
      writeText faults.writeTranscript upload.transcriptPath (transcript ++ "\n")
      match voice.texts transcript with
      | .error message => throw (.raised message)
      | .ok texts =>
          indexTranscribed parser faults upload
            (documentsOf parser upload.filePath content upload.audioMetadata texts)

/-- Index the file that is in place. -/
def indexCommitted (upload : Upload) : Action Indexed :=
  match upload.kind with
  | .file => indexSavedDocumentUpload parser ocr faults upload
  | .audio => indexSavedAudioUpload parser voice faults upload

/-- Index the file that is in place, between two checks of the locks. -/
def indexUpload (upload : Upload) : Action Indexed := do
  assertLocksHealthy faults.toFaults 5
  let indexed ← indexCommitted parser ocr voice faults upload
  assertLocksHealthy faults.toFaults 4
  pure indexed

/-! ## Replacing a file -/

/-- `rollback_state` -/
structure RollbackState where
  hadExistingFile : Bool
  hadExistingTranscript : Bool
  fileIndexEntry : Option Entry
  vectorSnapshot : Option (List (String × Chunk))
  fileBackupCreated : Bool := false
  transcriptBackupCreated : Bool := false
  replacementCommitted : Bool := false

/-- Move a file to its backup. -/
def backUpFile (fault : Option String) (path backup : String) (mark : RollbackState → RollbackState) :
    EStateM Failure (World × RollbackState) Unit := do
  Fallible.onFirst (failing fault)
  Fallible.onFirst (moveFile path backup)
  modify fun (world, state) => (world, mark state)

/-- The moves of `_commit_staged_upload`. -/
def commitMoves (upload : Upload) (existing existingTranscript : Bool) :
    EStateM Failure (World × RollbackState) Unit := do
  Fallible.onlyIf existing
    (backUpFile faults.backup upload.filePath upload.backupFilePath
      fun state => { state with fileBackupCreated := true })
  Fallible.onlyIf existingTranscript
    (backUpFile faults.backupTranscript upload.transcriptPath upload.backupTranscriptPath
      fun state => { state with transcriptBackupCreated := true })
  Fallible.onFirst (failing faults.commit)
  Fallible.onFirst (moveFile upload.stagedFilePath upload.filePath)
  modify fun (world, state) => (world, { state with replacementCommitted := true })

/-- Remove a replacement, and move the backup back. -/
def restoreUploadFile (committed backedUp : Bool) (path backup label : String) :
    Action Unit := do
  modify fun world => if committed ∧ world.isFile path then world.removeFile path else world
  Fallible.onlyIf backedUp do
    let world ← get
    if world.isFile backup then moveFile backup path else throw (.raised (label ++ backup))

/-- `_restore_upload_files` -/
def restoreUploadFiles (upload : Upload) (state : RollbackState) : Action Unit := do
  failing faults.restoreFile
  restoreUploadFile state.replacementCommitted state.fileBackupCreated upload.filePath
    upload.backupFilePath "Backup rollback upload non trovato: "
  Fallible.onlyIf (upload.kind = .audio)
    (restoreUploadFile state.replacementCommitted state.transcriptBackupCreated
      upload.transcriptPath upload.backupTranscriptPath
      "Backup rollback trascrizione non trovato: ")

/-- What `_commit_staged_upload` finds. -/
def Upload.rollbackState (upload : Upload) (world : World) : RollbackState :=
  let existing := world.isFile upload.filePath
  let existingTranscript := decide (upload.kind = .audio) && world.isFile upload.transcriptPath
  let entry := world.entry upload.filename
  { hadExistingFile := existing
    hadExistingTranscript := existingTranscript
    fileIndexEntry := entry
    vectorSnapshot :=
      if existing || existingTranscript || entry.isSome then some (world.chunksOf upload.filePath)
      else none }

/-- `_commit_staged_upload` -/
def commitStagedUpload (upload : Upload) : Action RollbackState := fun world =>
  if ¬ upload.pathsValid then .error (.raised "Path staging upload non valido") world
  else if ¬ world.isFile upload.stagedFilePath then
    .error (.raised "File staging upload non trovato") world
  else
    let state := upload.rollbackState world
    match (failing faults.readEntry *>
        Fallible.onlyIf state.vectorSnapshot.isSome (failing faults.snapshot) : Action Unit)
        world with
    | .error failure world => .error failure world
    | .ok _ world =>
        match commitMoves faults upload state.hadExistingFile state.hadExistingTranscript
            (world, state) with
        | .ok _ (world, state) => .ok state world
        | .error failure (world, state) =>
            match restoreUploadFiles faults upload state world with
            | .ok _ world => .error failure world
            | .error failure world => .error failure world

/-- Restore the chunks of a file. -/
def restoreUploadChunks (upload : Upload) (state : RollbackState) : Action Unit := do
  failing faults.restoreChunks
  modify fun world =>
    match state.vectorSnapshot with
    | none => world.withoutSource upload.filePath
    | some snapshot => world.restoreSnapshot upload.filePath snapshot
  failing faults.restoreCache

/-- `_rollback_committed_upload` -/
def rollbackCommittedUpload (upload : Upload) (state : RollbackState) (world : World) :
    List String × World :=
  let (fileErrors, world) := attempt "file: " (restoreUploadFiles faults upload state) world
  let (chunkErrors, world) := attempt "vettori: " (restoreUploadChunks faults upload state) world
  let (entryErrors, world) := attempt "file index: "
    (restoreEntry faults.toFaults upload.request state.fileIndexEntry) world
  (fileErrors ++ chunkErrors ++ entryErrors, world)

/-- Remove a backup that is there. -/
def removeBackup (created : Bool) (backup : String) (world : World) : World :=
  if created ∧ world.isFile backup ∧ faults.cleanBackup = false then world.removeFile backup
  else world

/-- `_finalize_committed_upload` -/
def finalizeCommittedUpload (upload : Upload) (state : RollbackState) (world : World) : World :=
  removeBackup faults state.hadExistingTranscript upload.backupTranscriptPath
    (removeBackup faults state.hadExistingFile upload.backupFilePath world)

/-- `_index_staged_upload` -/
def indexStagedUpload (upload : Upload) : Action Indexed := fun world =>
  match (assertLocksHealthy faults.toFaults 0 *> commitStagedUpload faults upload) world with
  | .error failure world => .error failure world
  | .ok state world =>
      match indexUpload parser ocr voice faults upload world with
      | .ok indexed world => .ok indexed (finalizeCommittedUpload faults upload state world)
      | .error failure world =>
          match rollbackCommittedUpload faults upload state world with
          | ([], world) => .error failure world
          | (errors, world) =>
              .error (.raised (failure.message ++ "; rollback upload fallito: " ++
                String.intercalate "; " errors)) world

end

end RAGuardian.Documents
