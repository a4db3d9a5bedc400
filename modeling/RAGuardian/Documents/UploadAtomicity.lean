import RAGuardian.Documents.Uploads

/-! # Replacing an upload

What a call of `_index_staged_upload` leaves of the stores, wherever it fails. -/

namespace RAGuardian.Documents

open Fallible

/-! ## Paths -/

theorem siblingPath_toList (path unique suffix : String) :
    ∃ front, (siblingPath path unique suffix).toList = front ++ suffix.toList := by
  rw [siblingPath, joinPath]
  split
  · exact ⟨(dirname path ++ ("." ++ basename path ++ "." ++ unique)).toList, by
      simp [String.toList_append]⟩
  · exact ⟨(dirname path ++ "/" ++ ("." ++ basename path ++ "." ++ unique)).toList, by
      simp [String.toList_append]⟩

/-- A name beside a file is no name made of a file and an extension, if they end
otherwise. -/
theorem siblingPath_ne {path unique suffix other extension : String}
    (ends : suffix.toList.getLast? ≠ extension.toList.getLast?)
    (nonempty : suffix.toList ≠ []) (extended : extension.toList ≠ []) :
    siblingPath path unique suffix ≠ other ++ extension := by
  intro same
  obtain ⟨front, characters⟩ := siblingPath_toList path unique suffix
  rw [same, String.toList_append] at characters
  have last := congrArg List.getLast? characters
  rw [List.getLast?_append_of_ne_nil _ extended, List.getLast?_append_of_ne_nil _ nonempty] at last
  exact ends last.symm

theorem append_ne_self {path extension : String} (extended : extension.length ≠ 0) :
    path ++ extension ≠ path := by
  intro same
  have lengths := congrArg String.length same
  rw [String.length_append] at lengths
  omega

namespace Upload

variable {upload : Upload}

theorem stagedFilePath_ne_transcriptPath : upload.stagedFilePath ≠ upload.transcriptPath :=
  siblingPath_ne (by decide) (by decide) (by decide)

theorem stagedFilePath_ne_ocrTextPath : upload.stagedFilePath ≠ upload.ocrTextPath :=
  siblingPath_ne (by decide) (by decide) (by decide)

theorem backupFilePath_ne_transcriptPath : upload.backupFilePath ≠ upload.transcriptPath :=
  siblingPath_ne (by decide) (by decide) (by decide)

theorem backupFilePath_ne_ocrTextPath : upload.backupFilePath ≠ upload.ocrTextPath :=
  siblingPath_ne (by decide) (by decide) (by decide)

theorem backupTranscriptPath_ne_transcriptPath :
    upload.backupTranscriptPath ≠ upload.transcriptPath :=
  siblingPath_ne (by decide) (by decide) (by decide)

theorem backupTranscriptPath_ne_ocrTextPath :
    upload.backupTranscriptPath ≠ upload.ocrTextPath :=
  siblingPath_ne (by decide) (by decide) (by decide)

theorem transcriptPath_ne_filePath : upload.transcriptPath ≠ upload.filePath :=
  append_ne_self (by decide)

theorem ocrTextPath_ne_filePath : upload.ocrTextPath ≠ upload.filePath :=
  append_ne_self (by decide)

end Upload

/-- An upload that was just staged: its paths are valid, and the names drawn for it are
new. -/
structure Staged (upload : Upload) (world : World) : Prop where
  valid : upload.pathsValid
  present : world.isFile upload.stagedFilePath
  distinct : upload.stagedFilePath ≠ upload.filePath
  backupFile : world.files.get? upload.backupFilePath = none
  backupTranscript : world.files.get? upload.backupTranscriptPath = none
  backupsDistinct : upload.backupFilePath ≠ upload.backupTranscriptPath
  backupNotFile : upload.backupFilePath ≠ upload.filePath ∧
    upload.backupTranscriptPath ≠ upload.filePath

/-! ## The moves -/

section

variable {upload : Upload} {original world : World}

/-- A file that exists is moved to its backup. -/
def World.backedUp (world : World) (existing : Bool) (path backup : String) : World :=
  if existing then world.replaceFile path backup else world

theorem get?_backedUpFile {existing : Bool} {path backup : String}
    (present : existing = true → world.isFile path) (wanted : String) :
    (world.backedUp existing path backup).files.get? wanted =
      if existing ∧ wanted = backup then world.files.get? path
      else if existing ∧ wanted = path then none
      else world.files.get? wanted := by
  rw [World.backedUp]
  cases existing with
  | true => simp [get?_replaceFile (present rfl)]
  | false => simp

/-- The transcript of an audio file exists. -/
def Upload.hadTranscript (upload : Upload) (world : World) : Bool :=
  decide (upload.kind = .audio) && world.isFile upload.transcriptPath

/-- The world after the first move. -/
def Upload.afterFile (upload : Upload) (world : World) : World :=
  world.backedUp (world.isFile upload.filePath) upload.filePath upload.backupFilePath

/-- The world after the first two moves. -/
def Upload.afterBackups (upload : Upload) (world : World) : World :=
  (upload.afterFile world).backedUp (upload.hadTranscript world) upload.transcriptPath
    upload.backupTranscriptPath

/-- The world after all moves. -/
def Upload.committed (upload : Upload) (world : World) : World :=
  (upload.afterBackups world).replaceFile upload.stagedFilePath upload.filePath

theorem get?_afterFile (wanted : String) :
    (upload.afterFile original).files.get? wanted =
      if original.isFile upload.filePath ∧ wanted = upload.backupFilePath then
        original.files.get? upload.filePath
      else if original.isFile upload.filePath ∧ wanted = upload.filePath then none
      else original.files.get? wanted :=
  get?_backedUpFile (fun present => present) wanted

theorem afterFile_transcript :
    (upload.afterFile original).files.get? upload.transcriptPath =
      original.files.get? upload.transcriptPath := by
  rw [get?_afterFile, if_neg, if_neg]
  · exact fun same => Upload.transcriptPath_ne_filePath same.2
  · exact fun same => Upload.backupFilePath_ne_transcriptPath same.2.symm

theorem get?_afterBackups (wanted : String) :
    (upload.afterBackups original).files.get? wanted =
      if upload.hadTranscript original ∧ wanted = upload.backupTranscriptPath then
        original.files.get? upload.transcriptPath
      else if upload.hadTranscript original ∧ wanted = upload.transcriptPath then none
      else (upload.afterFile original).files.get? wanted := by
  rw [Upload.afterBackups, get?_backedUpFile, afterFile_transcript]
  intro had
  rw [World.isFile, afterFile_transcript]
  rw [Upload.hadTranscript, Bool.and_eq_true] at had
  exact had.2

theorem afterBackups_staged (staged : Staged upload original) :
    (upload.afterBackups original).files.get? upload.stagedFilePath =
      original.files.get? upload.stagedFilePath := by
  have notBackup : ∀ path, original.files.get? path = none → upload.stagedFilePath ≠ path := by
    intro path absent same
    have present := staged.present
    rw [World.isFile, same, absent] at present
    cases present
  rw [get?_afterBackups, if_neg, if_neg, get?_afterFile, if_neg, if_neg]
  · exact fun same => staged.distinct same.2
  · exact fun same => notBackup _ staged.backupFile same.2
  · exact fun same => Upload.stagedFilePath_ne_transcriptPath same.2
  · exact fun same => notBackup _ staged.backupTranscript same.2

/-- The files after all moves. -/
theorem get?_committedUpload (staged : Staged upload original) (wanted : String) :
    (upload.committed original).files.get? wanted =
      if wanted = upload.filePath then original.files.get? upload.stagedFilePath
      else if wanted = upload.stagedFilePath then none
      else (upload.afterBackups original).files.get? wanted := by
  have present : (upload.afterBackups original).isFile upload.stagedFilePath := by
    rw [World.isFile, afterBackups_staged staged]
    exact staged.present
  rw [Upload.committed, get?_replaceFile present, afterBackups_staged staged]

@[simp] theorem afterBackups_chunks :
    (upload.afterBackups original).chunks = original.chunks := by
  simp [Upload.afterBackups, Upload.afterFile, World.backedUp, apply_ite World.chunks]

@[simp] theorem afterBackups_entries :
    (upload.afterBackups original).entries = original.entries := by
  simp [Upload.afterBackups, Upload.afterFile, World.backedUp, apply_ite World.entries]

@[simp] theorem committedUpload_chunks :
    (upload.committed original).chunks = original.chunks := by
  simp [Upload.committed]

@[simp] theorem committedUpload_entries :
    (upload.committed original).entries = original.entries := by
  simp [Upload.committed]

end

/-! ## What indexing touches -/

/-- The text OCR extracts from a file that its parser found no documents in. -/
def OcrService.textFor (ocr : OcrService) (parseError : String) (content : Content) :
    Option String :=
  match ocr.refusal parseError with
  | some _ => none
  | none =>
      match ocr.extract content with
      | .error _ => none
      | .ok text => if text = "" then none else some text

/-- The text that is written beside an uploaded document. -/
def Upload.ocrText (upload : Upload) (parser : Parser) (ocr : OcrService) (content : Content) :
    Option String :=
  if upload.kind = .file ∧ normalizeExtension upload.extension = "pdf" then
    match parser.texts "pdf" content with
    | .ok (_ :: _) => none
    | .ok [] => ocr.textFor "" content
    | .error message => ocr.textFor message content
  else none

/-- The file an upload may write besides the one it stores. -/
def Upload.side (upload : Upload) (parser : Parser) (ocr : OcrService) (content : Content) :
    Option String :=
  match upload.kind with
  | .file => (upload.ocrText parser ocr content).map fun _ => upload.ocrTextPath
  | .audio => some upload.transcriptPath

/-- Nothing differs but the chunks of the file, its entry and a file beside it. -/
structure UploadKept (upload : Upload) (side : Option String) (before world : World) : Prop where
  files : ∀ path, side ≠ some path → world.files.get? path = before.files.get? path
  chunks : SameElsewhere upload.filePath before world
  entries : world.otherEntries upload.filename = before.otherEntries upload.filename

section

variable {parser : Parser} {ocr : OcrService} {voice : VoiceService} {faults : UploadFaults}
  {upload : Upload} {side : Option String} {before : World} {content : Content}

theorem UploadKept.refl : UploadKept upload side before before :=
  ⟨fun _ _ => rfl, fun _ _ _ => Iff.rfl, rfl⟩

theorem UploadKept.writeFile {world : World} (kept : UploadKept upload side before world)
    {path : String} (beside : side = some path) (written : Content) :
    UploadKept upload side before (world.writeFile path written) where
  files := by
    intro other different
    rw [World.writeFile, Dictionary.get?_set, if_neg]
    · exact kept.files other different
    · rintro rfl
      exact different beside
  chunks := kept.chunks
  entries := kept.entries

theorem UploadKept.of_kept {world next : World} (kept : UploadKept upload side before world)
    (indexed : Kept upload.request world next) : UploadKept upload side before next where
  files := by
    intro path different
    rw [indexed.files]
    exact kept.files path different
  chunks := fun id chunk other => (indexed.chunks id chunk other).trans (kept.chunks id chunk other)
  entries := indexed.entries.trans kept.entries

/-- What leaves the files as they are keeps an upload's stores. -/
theorem keeps_upload {α : Type} {action : Action α}
    (keeps : ∀ original, Keeps (Kept upload.request original) action) :
    Keeps (UploadKept upload side before) action :=
  Leads.cases
    (fun world _ _ kept performed =>
      kept.of_kept (Leads.ok (keeps world) (Kept.refl upload.request world) performed))
    fun world _ _ kept performed =>
      kept.of_kept (Leads.error (keeps world) (Kept.refl upload.request world) performed)

/-- The invariant, and what the stored file holds. -/
def Holding (upload : Upload) (side : Option String) (before : World) (content : Content)
    (world : World) : Prop :=
  UploadKept upload side before world ∧ world.files.get? upload.filePath = some content

theorem readFile_ok {world : World} {path : String}
    (stored : world.files.get? path = some content) :
    readFile path world = .ok content world := by
  simp only [readFile, bind, EStateM.bind, get, getThe, MonadStateOf.get]
  delta EStateM.get
  simp only [stored]
  rfl

theorem leads_readFile :
    Leads (Holding upload side before content) (readFile upload.filePath)
      (fun read world => read = content ∧ Holding upload side before content world)
      (UploadKept upload side before) where
  outcome := by
    intro world holds
    rw [readFile_ok holds.2]
    exact ⟨rfl, holds⟩

theorem keeps_writeText {fault : Option (String × Option Nat)} {path text : String}
    (beside : side = some path) :
    Keeps (UploadKept upload side before) (writeText fault path text) := by
  rw [writeText.eq_def]
  split
  · apply Keeps.bind (Keeps.update fun world kept => kept.writeFile beside _)
    exact fun _ => Keeps.fail _
  · exact Keeps.fail _
  · exact Keeps.update fun world kept => kept.writeFile beside _

theorem documentsOf_source {path : String} {extra : Metadata} {texts : List String}
    (absent : extra.get? "source" = none) :
    ∀ document ∈ documentsOf parser path content extra texts,
      document.metadata.get? "source" = some (.text path) := by
  intro document member
  rcases List.mem_map.mp member with ⟨⟨text, index⟩, -, rfl⟩
  rw [get?_merge absent]
  simp [Dictionary.get?_set]

/-- What OCR yields for the file, and the stores it leaves. -/
def Readable (upload : Upload) (side : Option String) (before : World)
    (read : List Document × Metadata × String) (world : World) : Prop :=
  ((∀ document ∈ read.1, document.metadata.get? "source" = some (.text upload.filePath)) ∧
    read.2.1.get? "source" = none ∧ read.2.1.get? "filename" = none) ∧
      UploadKept upload side before world

theorem leads_ocrDocuments {documents : List Document} {parseError : String}
    (beside : documents = [] → (ocr.textFor parseError content).isSome →
      side = some upload.ocrTextPath) :
    Leads (Holding upload side before content)
      (ocrDocumentsForConfig parser ocr faults upload.filePath documents parseError)
      (Readable upload side before) (UploadKept upload side before) := by
  have plain : ∀ message, Leads (Holding upload side before content)
      (pure ([], .empty, message) : Action (List Document × Metadata × String))
      (Readable upload side before) (UploadKept upload side before) :=
    fun message => Leads.done fun world holds => ⟨⟨nofun, rfl, rfl⟩, holds.1⟩
  have failed : ∀ used message, Leads (Holding upload side before content)
      (pure ([], ocrFailure used message, message) : Action (List Document × Metadata × String))
      (Readable upload side before) (UploadKept upload side before) := by
    intro used message
    refine Leads.done fun world holds => ⟨⟨nofun, ?_, ?_⟩, holds.1⟩ <;>
      simp [ocrFailure, Dictionary.get?_set]
  rw [ocrDocumentsForConfig]
  apply Leads.bind (Keeps.leads (keeps_failing _) fun _ holds => holds.1)
  intro _
  by_cases any : documents ≠ []
  · rw [if_pos any]
    exact plain ""
  · rw [if_neg any]
    rw [not_not] at any
    cases refused : ocr.refusal parseError with
    | some message => exact plain message
    | none =>
        apply Leads.bind leads_readFile
        intro read
        apply Leads.given
        rintro rfl
        cases extracted : ocr.extract read with
        | error message => exact failed false message
        | ok text =>
            dsimp only
            by_cases empty : text = ""
            · rw [if_pos empty]
              exact failed true "OCR text is empty"
            · rw [if_neg empty]
              have written : side = some upload.ocrTextPath := by
                apply beside any
                rw [OcrService.textFor, refused]
                simp [extracted, empty]
              apply Leads.weaken (Leads.bind (keeps_writeText written) ?_) fun _ holds => holds.1
              intro _
              cases split : ocr.texts text with
              | error message => exact Leads.fail fun _ kept => kept
              | ok texts =>
                  refine Leads.done fun world kept => ⟨⟨documentsOf_source ?_, ?_, ?_⟩, kept⟩ <;>
                    simp [ocrMetadata, Dictionary.get?_set]

theorem parseFile_stored {extension : String} {world : World}
    (stored : world.files.get? upload.filePath = some content) :
    (parseFile parser upload.filePath extension world).1 = [] →
      parser.texts extension content = .ok [] ∧
          (parseFile parser upload.filePath extension world).2 = "" ∨
        ∃ message, parser.texts extension content = .error message ∧
          (parseFile parser upload.filePath extension world).2 = message := by
  rw [parseFile, processFile, stored]
  cases texts : parser.texts extension content with
  | error message => exact fun _ => .inr ⟨message, rfl, by simp [texts, Bind.bind, Except.bind]⟩
  | ok texts =>
      intro empty
      simp only [texts, Bind.bind, Except.bind, pure, Except.pure, List.map_eq_nil_iff,
        List.zipIdx_eq_nil_iff] at empty
      rw [empty]
      exact .inl ⟨rfl, by simp [texts, Bind.bind, Except.bind, pure, Except.pure]⟩

/-- Where the text of the images is written, if there is one. -/
theorem textFor_of_parseFile {world : World} (kind : upload.kind = .file)
    (image : normalizeExtension upload.extension = "pdf")
    (stored : world.files.get? upload.filePath = some content)
    (empty : (parseFile parser upload.filePath "pdf" world).1 = []) :
    ocr.textFor (parseFile parser upload.filePath "pdf" world).2 content =
      upload.ocrText parser ocr content := by
  rw [Upload.ocrText, if_pos ⟨kind, image⟩]
  rcases parseFile_stored stored empty with ⟨texts, error⟩ | ⟨message, texts, error⟩
  · rw [texts, error]
  · rw [texts, error]

theorem relativeMetadata_absent {upload : Upload} {metadata : Metadata} {key : String}
    (other : key ≠ "relative_path") (absent : metadata.get? key = none) :
    (upload.relativeMetadata metadata).get? key = none := by
  rw [Upload.relativeMetadata]
  split
  · exact absent
  · rw [Dictionary.get?_set_of_ne other, absent]

theorem leads_readUploadImages {extension parseError : String} {documents : List Document}
    {extra : Metadata} (given : Plain upload.request ⟨documents, extra, parseError, ""⟩)
    (beside : extension = "pdf" → documents = [] → (ocr.textFor parseError content).isSome →
      side = some upload.ocrTextPath) :
    Leads (Holding upload side before content)
      (readUploadImages parser ocr faults upload.filePath extension documents extra parseError)
      (fun parsed world => Plain upload.request parsed ∧ UploadKept upload side before world)
      (UploadKept upload side before) := by
  rw [readUploadImages]
  split
  · exact Leads.done fun world holds =>
      ⟨⟨given.documents, given.source, given.filename⟩, holds.1⟩
  · rename_i image
    apply Leads.bind (leads_ocrDocuments (beside (not_not.mp image)))
    rintro ⟨found, ocrExtra, ocrError⟩
    refine Leads.done fun world holds => ⟨⟨?_, ?_, ?_⟩, holds.2⟩
    · dsimp only
      split
      · exact given.documents
      · exact holds.1.1
    · exact (get?_merge holds.1.2.1).trans given.source
    · exact (get?_merge holds.1.2.2).trans given.filename

theorem leads_parseUpload (kind : upload.kind = .file) :
    Leads (Holding upload (upload.side parser ocr content) before content)
      (parseUpload parser ocr faults upload.request upload.filePath
        (normalizeExtension upload.extension))
      (fun parsed world => Plain upload.request parsed ∧
        UploadKept upload (upload.side parser ocr content) before world)
      (UploadKept upload (upload.side parser ocr content) before) := by
  have source : upload.request.extraMetadata.get? "source" = none :=
    relativeMetadata_absent (by decide) rfl
  have filename : upload.request.extraMetadata.get? "filename" = none :=
    relativeMetadata_absent (by decide) rfl
  rw [parseUpload]
  apply Leads.bind Leads.read
  intro world
  apply Leads.assuming fun _ holds => holds.1 ▸ holds.2.2
  intro stored
  have beside : normalizeExtension upload.extension = "pdf" →
      (parseFile parser upload.filePath (normalizeExtension upload.extension) world).1 = [] →
      (ocr.textFor (parseFile parser upload.filePath (normalizeExtension upload.extension)
        world).2 content).isSome → upload.side parser ocr content = some upload.ocrTextPath := by
    intro image empty written
    rw [image] at empty written
    rw [textFor_of_parseFile kind image stored empty] at written
    obtain ⟨text, extracted⟩ := Option.isSome_iff_exists.mp written
    rw [Upload.side, kind]
    simp only [extracted, Option.map_some]
  apply Leads.weaken (Leads.bind (leads_readUploadImages ?_ beside) ?_) fun _ holds => holds.2
  · refine ⟨parseFile_source, ?_, ?_⟩
    · rw [get?_merge source]
      simp [Dictionary.get?_set]
    · rw [get?_merge filename]
      simp [Dictionary.get?_set]
  · intro parsed
    refine Leads.done fun next result => ⟨⟨?_, result.1.source, result.1.filename⟩, result.2⟩
    exact applyExtraMetadata_source result.1.source result.1.documents

theorem keeps_indexSavedDocumentUpload (kind : upload.kind = .file) :
    Leads (Holding upload (upload.side parser ocr content) before content)
      (indexSavedDocumentUpload parser ocr faults upload)
      (fun _ => UploadKept upload (upload.side parser ocr content) before)
      (UploadKept upload (upload.side parser ocr content) before) := by
  rw [indexSavedDocumentUpload]
  split
  · exact Leads.fail fun _ holds => holds.1
  · apply Leads.bind (leads_parseUpload kind)
    intro parsed
    apply Leads.given
    intro plain
    exact keeps_upload fun _ => keeps_indexParsed plain

/-! ## Audio files -/

theorem keeps_indexTranscribed {original : World} {documents : List Document}
    (sourced : ∀ document ∈ documents,
      document.metadata.get? "source" = some (.text upload.filePath)) :
    Keeps (Kept upload.request original) (indexTranscribed parser faults upload documents) := by
  have filename : upload.audioMetadata.get? "filename" = none :=
    relativeMetadata_absent (by decide) (by simp [Dictionary.get?_set])
  rw [indexTranscribed]
  apply Keeps.bind (keeps_assertLocksHealthy _)
  intro _
  apply Keeps.bind (@keeps_deleteBySource faults.toFaults upload.request original)
  intro replaced
  cases documents with
  | nil =>
      apply Keeps.bind (keeps_assertLocksHealthy _)
      intro _
      apply Keeps.bind (keeps_recordEntry filename)
      intro _
      exact Keeps.bind (keeps_clearCacheAfter _) fun _ => Keeps.fail _
  | cons first rest =>
      apply Keeps.bind (keeps_findDuplicate _ _)
      intro duplicate
      cases duplicate with
      | some found =>
          apply Keeps.bind (keeps_assertLocksHealthy _)
          intro _
          apply Keeps.bind (keeps_recordEntry (by simp [Dictionary.get?_set, filename]))
          intro _
          exact Keeps.bind (keeps_clearCacheAfter _) fun _ => Keeps.done _
      | none =>
          apply Keeps.bind (keeps_assertLocksHealthy _)
          intro _
          apply Keeps.bind (keeps_addDocuments sourced)
          intro _
          apply Keeps.bind (keeps_failing _)
          intro _
          apply Keeps.bind (keeps_assertLocksHealthy _)
          intro _
          exact Keeps.bind (keeps_recordEntry filename) fun _ => Keeps.done _

theorem keeps_indexSavedAudioUpload :
    Leads (Holding upload (some upload.transcriptPath) before content)
      (indexSavedAudioUpload parser voice faults upload)
      (fun _ => UploadKept upload (some upload.transcriptPath) before)
      (UploadKept upload (some upload.transcriptPath) before) := by
  have source : upload.audioMetadata.get? "source" = none :=
    relativeMetadata_absent (by decide) (by simp [Dictionary.get?_set])
  rw [indexSavedAudioUpload]
  apply Leads.bind (Keeps.leads (keeps_failing _) fun _ holds => holds.1)
  intro _
  apply Leads.bind leads_readFile
  intro read
  apply Leads.given
  rintro rfl
  cases voice.transcribe read with
  | error message => exact Leads.fail fun _ holds => holds.1
  | ok transcript =>
      apply Leads.bind (Keeps.leads (keeps_assertLocksHealthy _) fun _ holds => holds.1)
      intro _
      apply Leads.weaken (Leads.bind (keeps_writeText rfl) ?_) fun _ holds => holds.1
      intro _
      cases voice.texts transcript with
      | error message => exact Leads.fail fun _ kept => kept
      | ok texts => exact keeps_upload fun _ => keeps_indexTranscribed (documentsOf_source source)

/-- Whatever becomes of it, indexing an upload touches its own chunks, its entry and the
file beside it only. -/
theorem keeps_indexUpload :
    Leads (Holding upload (upload.side parser ocr content) before content)
      (indexUpload parser ocr voice faults upload)
      (fun _ => UploadKept upload (upload.side parser ocr content) before)
      (UploadKept upload (upload.side parser ocr content) before) := by
  rw [indexUpload]
  apply Leads.bind (Keeps.leads (keeps_assertLocksHealthy _) fun _ holds => holds.1)
  intro _
  have indexed : Leads (Holding upload (upload.side parser ocr content) before content)
      (indexCommitted parser ocr voice faults upload)
      (fun _ => UploadKept upload (upload.side parser ocr content) before)
      (UploadKept upload (upload.side parser ocr content) before) := by
    rw [indexCommitted]
    cases kind : upload.kind with
    | file => exact keeps_indexSavedDocumentUpload kind
    | audio =>
        rw [Upload.side, kind]
        exact keeps_indexSavedAudioUpload
  apply Leads.bind indexed
  intro _
  exact Keeps.bind (keeps_assertLocksHealthy _) fun _ => Keeps.done _

end

/-! ## The commit -/

section

variable {faults : UploadFaults} {upload : Upload} {original : World}

/-- How far the moves have come when one fails. -/
inductive Stopped (upload : Upload) (original : World) : World × RollbackState → Prop
  | start : Stopped upload original (original, upload.rollbackState original)
  | file : Stopped upload original (upload.afterFile original,
      { upload.rollbackState original with
        fileBackupCreated := original.isFile upload.filePath })
  | backups : Stopped upload original (upload.afterBackups original,
      { upload.rollbackState original with
        fileBackupCreated := original.isFile upload.filePath
        transcriptBackupCreated := upload.hadTranscript original })

/-- The state of a call whose moves are done. -/
def Upload.committedState (upload : Upload) (world : World) : RollbackState :=
  { upload.rollbackState world with
    fileBackupCreated := world.isFile upload.filePath
    transcriptBackupCreated := upload.hadTranscript world
    replacementCommitted := true }

theorem leads_moveFile {Rest : Type} {world : World} {rest : Rest} {source target : String}
    {failed : World × Rest → Prop} (present : world.isFile source) :
    Leads (· = (world, rest)) (onFirst (moveFile source target))
      (fun _ pair => pair = (world.replaceFile source target, rest)) failed where
  outcome := by
    rintro _ rfl
    rw [Fallible.onFirst, moveFile_ok present]

/-- The steps up to the last move succeed. -/
structure UploadFaults.Commits (faults : UploadFaults) : Prop where
  readEntry : faults.readEntry = none
  snapshot : faults.snapshot = none
  backup : faults.backup = none
  backupTranscript : faults.backupTranscript = none
  commit : faults.commit = none

theorem leads_failing {fault : Option String} {invariant failed : World → Prop}
    (stops : fault ≠ none → ∀ world, invariant world → failed world) :
    Leads invariant (failing fault) (fun _ => invariant) failed := by
  rw [failing.eq_def]
  cases fault with
  | none => exact Leads.done fun _ holds => holds
  | some message => exact Leads.fail (stops (Option.some_ne_none message))

theorem leads_onFirst_failing {Rest : Type} {fault : Option String} {pair : World × Rest}
    {failed : World × Rest → Prop} (stopped : fault ≠ none → failed pair) :
    Leads (· = pair) (onFirst (failing fault)) (fun _ => (· = pair)) failed := by
  apply Leads.onFirst
  intro rest
  apply leads_failing
  intro fails world same
  exact same ▸ stopped fails

theorem leads_backUpFile {fault : Option String} {existing : Bool} {path backup : String}
    {mark : RollbackState → RollbackState} {world : World} {state : RollbackState}
    {failed : World × RollbackState → Prop} (present : existing = true → world.isFile path)
    (stopped : fault ≠ none → failed (world, state)) :
    Leads (· = (world, state)) (onlyIf existing (backUpFile fault path backup mark))
      (fun _ pair => pair = (world.backedUp existing path backup,
        if existing then mark state else state)) failed := by
  apply Leads.onlyIf
  · rintro rfl
    rw [backUpFile]
    apply Leads.bind (leads_onFirst_failing stopped)
    intro _
    apply Leads.bind (leads_moveFile (present rfl))
    intro _
    exact Leads.change
  · rintro rfl _ rfl
    rfl

theorem hadTranscript_present (had : upload.hadTranscript original = true) :
    (upload.afterFile original).isFile upload.transcriptPath := by
  rw [Upload.hadTranscript, Bool.and_eq_true] at had
  rw [World.isFile, afterFile_transcript]
  exact had.2

theorem leads_commitMoves (staged : Staged upload original) :
    Leads (· = (original, upload.rollbackState original))
      (commitMoves faults upload (original.isFile upload.filePath)
        (upload.hadTranscript original))
      (fun _ pair => pair = (upload.committed original, upload.committedState original))
      (fun pair => Stopped upload original pair ∧ ¬ faults.Commits) := by
  have first : ∀ mark : RollbackState → RollbackState,
      mark = (fun state => { state with fileBackupCreated := true }) →
      (if original.isFile upload.filePath = true then mark (upload.rollbackState original)
        else upload.rollbackState original) =
      { upload.rollbackState original with
        fileBackupCreated := original.isFile upload.filePath } := by
    rintro _ rfl
    cases original.isFile upload.filePath <;> rfl
  have second : (if upload.hadTranscript original = true then
        { upload.rollbackState original with
          fileBackupCreated := original.isFile upload.filePath
          transcriptBackupCreated := true }
      else { upload.rollbackState original with
        fileBackupCreated := original.isFile upload.filePath }) =
      { upload.rollbackState original with
        fileBackupCreated := original.isFile upload.filePath
        transcriptBackupCreated := upload.hadTranscript original } := by
    cases upload.hadTranscript original <;> rfl
  rw [commitMoves]
  apply Leads.bind (leads_backUpFile (fun present => present)
    fun fault => ⟨.start, fun commits => fault commits.backup⟩)
  intro _
  rw [first _ rfl]
  apply Leads.bind (leads_backUpFile hadTranscript_present
    fun fault => ⟨.file, fun commits => fault commits.backupTranscript⟩)
  intro _
  rw [second]
  apply Leads.bind (leads_onFirst_failing
    fun fault => ⟨.backups, fun commits => fault commits.commit⟩)
  intro _
  have present : (upload.afterBackups original).isFile upload.stagedFilePath := by
    rw [World.isFile, afterBackups_staged staged]
    exact staged.present
  apply Leads.bind (leads_moveFile present)
  intro _
  exact Leads.change

/-! ## The rollback -/

/-- The steps of the rollback and the cleanup succeed. -/
structure UploadFaults.Recovers (faults : UploadFaults) : Prop where
  restoreFile : faults.restoreFile = none
  restoreChunks : faults.restoreChunks = none
  restoreCache : faults.restoreCache = none
  restoreEntry : faults.restoreEntry = none
  cleanBackup : faults.cleanBackup = false

/-- A file after its replacement is removed and its backup moved back. -/
def World.restoredFile (world : World) (committed backedUp : Bool) (path backup : String) :
    World :=
  let removed := if committed ∧ world.isFile path then world.removeFile path else world
  if backedUp then removed.replaceFile backup path else removed

theorem restoreUploadFile_ok {committed backedUp : Bool} {path backup label : String}
    {world : World} (present : backedUp = true → world.isFile backup ∧ backup ≠ path) :
    restoreUploadFile committed backedUp path backup label world =
      .ok () (world.restoredFile committed backedUp path backup) := by
  rw [restoreUploadFile, World.restoredFile]
  cases backedUp with
  | false => rfl
  | true =>
      obtain ⟨there, different⟩ := present rfl
      have kept : (if committed ∧ world.isFile path then world.removeFile path
          else world).isFile backup := by
        split
        · rw [isFile_removeFile_of_ne different]
          exact there
        · exact there
      change (if (if committed ∧ world.isFile path then world.removeFile path
          else world).isFile backup then moveFile backup path else _ : Action Unit) _ = _
      rw [if_pos kept, moveFile_ok kept]
      rfl

theorem get?_restoredFile {committed backedUp : Bool} {path backup : String} {world : World}
    (present : backedUp = true → world.isFile backup ∧ backup ≠ path)
    (wanted : String) :
    (world.restoredFile committed backedUp path backup).files.get? wanted =
      if committed ∨ backedUp then
        if wanted = path then (if backedUp then world.files.get? backup else none)
        else if backedUp ∧ wanted = backup then none
        else world.files.get? wanted
      else world.files.get? wanted := by
  have removed : ∀ other, (if committed ∧ world.isFile path then world.removeFile path
      else world).files.get? other =
        if committed ∧ other = path then none else world.files.get? other := by
    intro other
    by_cases there : world.isFile path
    · cases committed with
      | true => simp [there, get?_removeFile]
      | false => simp
    · rw [if_neg (not_and_of_not_right _ there)]
      by_cases same : other = path
      · have none : world.files.get? path = none := by simpa [World.isFile] using there
        simp [same, none]
      · simp [same]
  rw [World.restoredFile]
  generalize (if committed ∧ world.isFile path then world.removeFile path
    else world) = next at removed
  cases backedUp with
  | false =>
      rw [if_neg Bool.false_ne_true, removed]
      cases committed <;> simp
  | true =>
      obtain ⟨there, different⟩ := present rfl
      have content := removed backup
      rw [if_neg fun same => different same.2] at content
      have kept : next.isFile backup := by
        rw [World.isFile, content]
        exact there
      rw [if_pos rfl, get?_replaceFile kept, content, removed]
      by_cases same : wanted = path
      · simp [same]
      · simp [same]

theorem get?_restoredFile_self {committed backedUp : Bool} {path backup : String}
    {world : World} (present : backedUp = true → world.isFile backup ∧ backup ≠ path) :
    (world.restoredFile committed backedUp path backup).files.get? path =
      if backedUp then world.files.get? backup
      else if committed then none
      else world.files.get? path := by
  rw [get?_restoredFile present]
  cases backedUp <;> cases committed <;> simp

theorem get?_restoredFile_of_ne {committed backedUp : Bool} {path backup wanted : String}
    {world : World} (present : backedUp = true → world.isFile backup ∧ backup ≠ path)
    (other : wanted ≠ path) (notBackup : backedUp = true → wanted ≠ backup) :
    (world.restoredFile committed backedUp path backup).files.get? wanted =
      world.files.get? wanted := by
  rw [get?_restoredFile present, if_neg other]
  cases backedUp with
  | false => simp
  | true => simp [notBackup rfl]

theorem get?_restoredFile_backup {committed : Bool} {path backup : String} {world : World}
    (present : world.isFile backup ∧ backup ≠ path) :
    (world.restoredFile committed true path backup).files.get? backup = none := by
  rw [get?_restoredFile fun _ => present, if_neg present.2]
  simp

end

section

variable {faults : UploadFaults} {upload : Upload} {original world : World}
  {state : RollbackState} {spared : String → Prop}

/-- The files after `_restore_upload_files`. -/
def Upload.undoFiles (upload : Upload) (state : RollbackState) (world : World) : World :=
  let restored := world.restoredFile state.replacementCommitted state.fileBackupCreated
    upload.filePath upload.backupFilePath
  if upload.kind = .audio then
    restored.restoredFile state.replacementCommitted state.transcriptBackupCreated
      upload.transcriptPath upload.backupTranscriptPath
  else restored

/-- What the rollback finds of the files: backups hold what was there, and the rest is as
it was. -/
structure Undoable (upload : Upload) (original : World) (spared : String → Prop)
    (state : RollbackState) (world : World) : Prop where
  file : state.fileBackupCreated = true → original.isFile upload.filePath ∧
    world.files.get? upload.backupFilePath = original.files.get? upload.filePath
  noFile : state.fileBackupCreated = false →
    (state.replacementCommitted = true → original.files.get? upload.filePath = none) ∧
      (state.replacementCommitted = false →
        world.files.get? upload.filePath = original.files.get? upload.filePath)
  transcript : state.transcriptBackupCreated = true → upload.kind = .audio ∧
    original.isFile upload.transcriptPath ∧
      world.files.get? upload.backupTranscriptPath = original.files.get? upload.transcriptPath
  noTranscript : upload.kind = .audio → state.transcriptBackupCreated = false →
    (state.replacementCommitted = true → original.files.get? upload.transcriptPath = none) ∧
      (state.replacementCommitted = false →
        world.files.get? upload.transcriptPath = original.files.get? upload.transcriptPath)
  others : ∀ path, spared path → path ≠ upload.filePath →
    (upload.kind = .audio → path ≠ upload.transcriptPath) →
    (state.fileBackupCreated = true → path ≠ upload.backupFilePath) →
    (state.transcriptBackupCreated = true → path ≠ upload.backupTranscriptPath) →
      world.files.get? path = original.files.get? path

theorem Undoable.backupFile (undoable : Undoable upload original spared state world)
    (staged : Staged upload original) (created : state.fileBackupCreated = true) :
    world.isFile upload.backupFilePath ∧ upload.backupFilePath ≠ upload.filePath := by
  obtain ⟨there, content⟩ := undoable.file created
  refine ⟨?_, staged.backupNotFile.1⟩
  rw [World.isFile, content]
  exact there

theorem Undoable.backupTranscript (undoable : Undoable upload original spared state world)
    (staged : Staged upload original) (created : state.transcriptBackupCreated = true) :
    (world.restoredFile state.replacementCommitted state.fileBackupCreated upload.filePath
      upload.backupFilePath).isFile upload.backupTranscriptPath ∧
        upload.backupTranscriptPath ≠ upload.transcriptPath := by
  obtain ⟨-, there, content⟩ := undoable.transcript created
  refine ⟨?_, Upload.backupTranscriptPath_ne_transcriptPath⟩
  rw [World.isFile, get?_restoredFile_of_ne (undoable.backupFile staged) staged.backupNotFile.2
    fun _ => staged.backupsDistinct.symm, content]
  exact there

theorem restoreUploadFiles_ok (recovers : faults.Recovers) (staged : Staged upload original)
    (undoable : Undoable upload original spared state world) :
    restoreUploadFiles faults upload state world = .ok () (upload.undoFiles state world) := by
  have first : restoreUploadFile state.replacementCommitted state.fileBackupCreated
      upload.filePath upload.backupFilePath "Backup rollback upload non trovato: " world =
        .ok () (world.restoredFile state.replacementCommitted state.fileBackupCreated
          upload.filePath upload.backupFilePath) :=
    restoreUploadFile_ok (undoable.backupFile staged)
  have second : restoreUploadFile state.replacementCommitted state.transcriptBackupCreated
      upload.transcriptPath upload.backupTranscriptPath
      "Backup rollback trascrizione non trovato: "
      (world.restoredFile state.replacementCommitted state.fileBackupCreated
        upload.filePath upload.backupFilePath) = .ok () _ :=
    restoreUploadFile_ok (undoable.backupTranscript staged)
  rw [restoreUploadFiles, recovers.restoreFile, Upload.undoFiles]
  rw [bind_of_ok (rfl : failing none world = .ok () world), bind_of_ok first]
  cases kind : upload.kind with
  | file => rfl
  | audio => exact second

/-- The rollback gives the files that are not spared their contents back. -/
theorem get?_undoFiles (staged : Staged upload original)
    (undoable : Undoable upload original spared state world) {path : String}
    (kept : spared path) :
    (upload.undoFiles state world).files.get? path = original.files.get? path := by
  have untouched : path ≠ upload.transcriptPath ∨ upload.kind = .file →
      (state.transcriptBackupCreated = true → path ≠ upload.backupTranscriptPath) →
      (upload.undoFiles state world).files.get? path =
        (world.restoredFile state.replacementCommitted state.fileBackupCreated upload.filePath
          upload.backupFilePath).files.get? path := by
    intro other notBackup
    rw [Upload.undoFiles]
    split
    · rename_i audio
      rw [get?_restoredFile_of_ne (undoable.backupTranscript staged)
        (other.resolve_right (by simp [audio])) notBackup]
    · rfl
  by_cases file : path = upload.filePath
  · subst file
    rw [untouched (.inl Upload.transcriptPath_ne_filePath.symm)
      fun _ => staged.backupNotFile.2.symm, get?_restoredFile_self (undoable.backupFile staged)]
    cases created : state.fileBackupCreated with
    | true => exact (undoable.file created).2
    | false =>
        cases committed : state.replacementCommitted with
        | true => exact ((undoable.noFile created).1 committed).symm
        | false => exact (undoable.noFile created).2 committed
  · by_cases transcript : path = upload.transcriptPath ∧ upload.kind = .audio
    · obtain ⟨rfl, audio⟩ := transcript
      rw [Upload.undoFiles, if_pos audio, get?_restoredFile_self (undoable.backupTranscript staged)]
      have first : ∀ other, other ≠ upload.filePath → other ≠ upload.backupFilePath →
          (world.restoredFile state.replacementCommitted state.fileBackupCreated upload.filePath
            upload.backupFilePath).files.get? other = world.files.get? other :=
        fun other notFile notBackup => get?_restoredFile_of_ne (undoable.backupFile staged)
          notFile fun _ => notBackup
      rw [first _ staged.backupNotFile.2 staged.backupsDistinct.symm,
        first _ file Upload.backupFilePath_ne_transcriptPath.symm]
      cases created : state.transcriptBackupCreated with
      | true => exact (undoable.transcript created).2.2
      | false =>
          cases committed : state.replacementCommitted with
          | true => exact ((undoable.noTranscript audio created).1 committed).symm
          | false => exact (undoable.noTranscript audio created).2 committed
    · have other : path ≠ upload.transcriptPath ∨ upload.kind = .file := by
        cases kind : upload.kind with
        | file => exact .inr rfl
        | audio => exact .inl fun same => transcript ⟨same, kind⟩
      by_cases backup : state.transcriptBackupCreated = true ∧
          path = upload.backupTranscriptPath
      · obtain ⟨created, rfl⟩ := backup
        rw [staged.backupTranscript, Upload.undoFiles,
          if_pos (undoable.transcript created).1]
        have present := undoable.backupTranscript staged created
        rw [created]
        exact get?_restoredFile_backup present
      · rw [untouched other fun created same => backup ⟨created, same⟩]
        by_cases fileBackup : state.fileBackupCreated = true ∧ path = upload.backupFilePath
        · obtain ⟨created, rfl⟩ := fileBackup
          rw [staged.backupFile]
          have present := undoable.backupFile staged created
          rw [created]
          exact get?_restoredFile_backup present
        · rw [get?_restoredFile_of_ne (undoable.backupFile staged) file
            fun created same => fileBackup ⟨created, same⟩]
          exact undoable.others path kept file (fun audio same => transcript ⟨same, audio⟩)
            (fun created same => fileBackup ⟨created, same⟩)
            fun created same => backup ⟨created, same⟩

end

section

variable {parser : Parser} {ocr : OcrService} {voice : VoiceService} {faults : UploadFaults}
  {upload : Upload} {original world : World} {state : RollbackState} {content : Content}

/-! ### What the moves left -/

theorem hadTranscript_iff : upload.hadTranscript original = true ↔
    upload.kind = .audio ∧ original.isFile upload.transcriptPath := by
  rw [Upload.hadTranscript, Bool.and_eq_true, decide_eq_true_iff]

theorem get?_eq_none_of_isFile {path : String} (missing : original.isFile path = false) :
    original.files.get? path = none := by
  rw [World.isFile] at missing
  simpa using missing

theorem afterFile_backup (present : original.isFile upload.filePath) :
    (upload.afterFile original).files.get? upload.backupFilePath =
      original.files.get? upload.filePath := by
  rw [get?_afterFile, if_pos ⟨present, rfl⟩]

theorem afterFile_file (missing : original.isFile upload.filePath = false) :
    (upload.afterFile original).files.get? upload.filePath =
      original.files.get? upload.filePath := by
  rw [get?_afterFile, missing]
  simp

theorem afterFile_other {path : String} (notFile : path ≠ upload.filePath)
    (notBackup : original.isFile upload.filePath → path ≠ upload.backupFilePath) :
    (upload.afterFile original).files.get? path = original.files.get? path := by
  rw [get?_afterFile, if_neg fun same => notBackup same.1 same.2,
    if_neg fun same => notFile same.2]

theorem afterBackups_other {path : String}
    (notTranscript : upload.hadTranscript original → path ≠ upload.transcriptPath)
    (notBackup : upload.hadTranscript original → path ≠ upload.backupTranscriptPath) :
    (upload.afterBackups original).files.get? path =
      (upload.afterFile original).files.get? path := by
  rw [get?_afterBackups, if_neg fun same => notBackup same.1 same.2,
    if_neg fun same => notTranscript same.1 same.2]

theorem afterBackups_backupFile (staged : Staged upload original)
    (present : original.isFile upload.filePath) :
    (upload.afterBackups original).files.get? upload.backupFilePath =
      original.files.get? upload.filePath := by
  rw [afterBackups_other (fun _ => Upload.backupFilePath_ne_transcriptPath)
    fun _ => staged.backupsDistinct]
  exact afterFile_backup present

theorem afterBackups_backupTranscript (had : upload.hadTranscript original) :
    (upload.afterBackups original).files.get? upload.backupTranscriptPath =
      original.files.get? upload.transcriptPath := by
  rw [get?_afterBackups, if_pos ⟨had, rfl⟩]

theorem afterBackups_transcript (missing : upload.hadTranscript original = false) :
    (upload.afterBackups original).files.get? upload.transcriptPath =
      original.files.get? upload.transcriptPath := by
  rw [afterBackups_other (by simp [missing]) (by simp [missing])]
  exact afterFile_transcript

theorem undoable_of_stopped (staged : Staged upload original)
    (stopped : Stopped upload original (world, state)) :
    Undoable upload original (fun _ => True) state world := by
  cases stopped with
  | start =>
      exact ⟨nofun, fun _ => ⟨nofun, fun _ => rfl⟩, nofun, fun _ _ => ⟨nofun, fun _ => rfl⟩,
        fun _ _ _ _ _ _ => rfl⟩
  | file =>
      refine ⟨fun created => ⟨created, afterFile_backup created⟩,
        fun missing => ⟨nofun, fun _ => afterFile_file missing⟩, nofun,
        fun _ _ => ⟨nofun, fun _ => afterFile_transcript⟩, ?_⟩
      exact fun path _ notFile _ notBackup _ => afterFile_other notFile notBackup
  | backups =>
      refine ⟨fun created => ⟨created, afterBackups_backupFile staged created⟩,
        fun missing => ⟨nofun, fun _ => ?_⟩, ?_, ?_, ?_⟩
      · rw [afterBackups_other (fun _ => Upload.transcriptPath_ne_filePath.symm)
          fun _ => staged.backupNotFile.2.symm]
        exact afterFile_file missing
      · intro had
        exact ⟨(hadTranscript_iff.mp had).1, (hadTranscript_iff.mp had).2,
          afterBackups_backupTranscript had⟩
      · exact fun _ missing => ⟨nofun, fun _ => afterBackups_transcript missing⟩
      · intro path _ notFile notTranscript notBackup notBackupTranscript
        rw [afterBackups_other (fun had => notTranscript (hadTranscript_iff.mp had).1)
          notBackupTranscript]
        exact afterFile_other notFile notBackup

/-! ### What indexing left -/

/-- The text a failing call leaves beside the file. -/
def Upload.stray (upload : Upload) (parser : Parser) (ocr : OcrService) (content : Content) :
    Option String :=
  (upload.ocrText parser ocr content).map fun _ => upload.ocrTextPath

/-- The files that a failing call leaves as they were. -/
def Upload.Spared (upload : Upload) (parser : Parser) (ocr : OcrService) (content : Content)
    (path : String) : Prop :=
  path ≠ upload.stagedFilePath ∧ upload.stray parser ocr content ≠ some path

theorem side_ne {path : String} (spared : upload.Spared parser ocr content path)
    (notTranscript : upload.kind = .audio → path ≠ upload.transcriptPath) :
    upload.side parser ocr content ≠ some path := by
  rw [Upload.side]
  cases kind : upload.kind with
  | file => exact spared.2
  | audio => exact fun same => notTranscript kind (Option.some.inj same).symm

theorem ne_staged_of_absent {path : String} (staged : Staged upload original)
    (absent : original.files.get? path = none) : path ≠ upload.stagedFilePath := by
  rintro rfl
  have present := staged.present
  rw [World.isFile, absent] at present
  cases present

theorem stray_ne {path : String} (other : path ≠ upload.ocrTextPath) :
    upload.stray parser ocr content ≠ some path := by
  rw [Upload.stray]
  cases upload.ocrText parser ocr content with
  | none => exact nofun
  | some text => exact fun same => other (Option.some.inj same).symm

theorem undoable_of_kept (staged : Staged upload original)
    (kept : UploadKept upload (upload.side parser ocr content) (upload.committed original) world) :
    Undoable upload original (upload.Spared parser ocr content) (upload.committedState original)
      world := by
  have moved : ∀ path, upload.Spared parser ocr content path → path ≠ upload.filePath →
      (upload.kind = .audio → path ≠ upload.transcriptPath) →
      world.files.get? path = (upload.afterBackups original).files.get? path := by
    intro path spared notFile notTranscript
    rw [kept.files path (side_ne spared notTranscript), get?_committedUpload staged,
      if_neg notFile, if_neg spared.1]
  refine ⟨?_, fun missing => ⟨fun _ => get?_eq_none_of_isFile missing, nofun⟩, ?_, ?_, ?_⟩
  · intro created
    refine ⟨created, ?_⟩
    rw [moved _ ⟨ne_staged_of_absent staged staged.backupFile,
      stray_ne Upload.backupFilePath_ne_ocrTextPath⟩ staged.backupNotFile.1
      fun _ => Upload.backupFilePath_ne_transcriptPath]
    exact afterBackups_backupFile staged created
  · intro had
    refine ⟨(hadTranscript_iff.mp had).1, (hadTranscript_iff.mp had).2, ?_⟩
    rw [moved _ ⟨ne_staged_of_absent staged staged.backupTranscript,
      stray_ne Upload.backupTranscriptPath_ne_ocrTextPath⟩ staged.backupNotFile.2
      fun _ => Upload.backupTranscriptPath_ne_transcriptPath]
    exact afterBackups_backupTranscript had
  · intro audio missing
    refine ⟨fun _ => get?_eq_none_of_isFile ?_, nofun⟩
    have none : (decide (upload.kind = .audio) && original.isFile upload.transcriptPath) = false :=
      missing
    rw [decide_eq_true audio, Bool.true_and] at none
    exact none
  · intro path spared notFile notTranscript notBackup notBackupTranscript
    rw [moved path spared notFile notTranscript,
      afterBackups_other (fun had => notTranscript (hadTranscript_iff.mp had).1)
        notBackupTranscript]
    exact afterFile_other notFile notBackup

end

/-! ## The whole rollback -/

section

variable {parser : Parser} {ocr : OcrService} {faults : UploadFaults} {upload : Upload}
  {original world : World} {state : RollbackState} {content : Content}
  {spared : String → Prop}

/-- The chunks after a rollback. -/
def Upload.undoChunks (upload : Upload) (state : RollbackState) (world : World) : World :=
  match state.vectorSnapshot with
  | none => world.withoutSource upload.filePath
  | some snapshot => world.restoreSnapshot upload.filePath snapshot

/-- A rollback that succeeds. -/
def Upload.undo (upload : Upload) (state : RollbackState) (world : World) : World :=
  (upload.undoChunks state (upload.undoFiles state world)).restoreEntry upload.filename
    state.fileIndexEntry

@[simp] theorem restoredFile_chunks {committed backedUp : Bool} {path backup : String} :
    (world.restoredFile committed backedUp path backup).chunks = world.chunks := by
  rw [World.restoredFile]
  split <;> simp [World.removeFile, apply_ite World.chunks]

@[simp] theorem restoredFile_entries {committed backedUp : Bool} {path backup : String} :
    (world.restoredFile committed backedUp path backup).entries = world.entries := by
  rw [World.restoredFile]
  split <;> simp [World.removeFile, apply_ite World.entries]

@[simp] theorem undoFiles_chunks : (upload.undoFiles state world).chunks = world.chunks := by
  rw [Upload.undoFiles]
  split <;> simp

@[simp] theorem undoFiles_entries : (upload.undoFiles state world).entries = world.entries := by
  rw [Upload.undoFiles]
  split <;> simp

theorem undoChunks_files : (upload.undoChunks state world).files = world.files := by
  rw [Upload.undoChunks]
  split <;> rfl

theorem undoChunks_entries : (upload.undoChunks state world).entries = world.entries := by
  rw [Upload.undoChunks]
  split <;> rfl

theorem undo_files : (upload.undo state world).files = (upload.undoFiles state world).files :=
  undoChunks_files

theorem rollbackCommittedUpload_eq (recovers : faults.Recovers) (staged : Staged upload original)
    (undoable : Undoable upload original spared state world) :
    rollbackCommittedUpload faults upload state world = ([], upload.undo state world) := by
  have chunks : ∀ world, restoreUploadChunks faults upload state world =
      .ok () (upload.undoChunks state world) := by
    intro world
    rw [restoreUploadChunks, recovers.restoreChunks, recovers.restoreCache]
    rfl
  have entry : ∀ world, restoreEntry faults.toFaults upload.request state.fileIndexEntry world =
      .ok () (world.restoreEntry upload.filename state.fileIndexEntry) := by
    intro world
    rw [restoreEntry, recovers.restoreEntry]
    rfl
  simp only [rollbackCommittedUpload, attempt, restoreUploadFiles_ok recovers staged undoable,
    chunks, entry]
  rfl

/-- The stores but for the staged file are as they were. -/
structure UploadRestored (upload : Upload) (original world : World) : Prop where
  files : ∀ path, path ≠ upload.stagedFilePath →
    world.files.get? path = original.files.get? path
  chunks : ∀ id, world.chunks.get? id = original.chunks.get? id
  entry : world.entry upload.filename = original.entry upload.filename
  others : world.otherEntries upload.filename = original.otherEntries upload.filename

/-- The staged file is in place, and no backup remains. -/
structure UploadReplaced (upload : Upload) (original world : World) : Prop where
  file : world.files.get? upload.filePath = original.files.get? upload.stagedFilePath
  backupFile : world.files.get? upload.backupFilePath = none
  backupTranscript : world.files.get? upload.backupTranscriptPath = none

/-- The upload replaces something, or no chunk has its path as source. -/
def Upload.Accounted (upload : Upload) (world : World) : Prop :=
  world.isFile upload.filePath ∨ upload.hadTranscript world ∨
    (world.entry upload.filename).isSome ∨ world.chunksOf upload.filePath = []

theorem vectorSnapshot_of_some {snapshot : List (String × Chunk)}
    (taken : (upload.rollbackState original).vectorSnapshot = some snapshot) :
    snapshot = original.chunksOf upload.filePath := by
  rw [Upload.rollbackState] at taken
  dsimp only at taken
  split at taken
  · exact (Option.some.inj taken).symm
  · cases taken

theorem chunksOf_of_none (accounted : upload.Accounted original)
    (skipped : (upload.rollbackState original).vectorSnapshot = none) :
    original.chunksOf upload.filePath = [] := by
  rw [Upload.rollbackState] at skipped
  dsimp only at skipped
  split at skipped
  · cases skipped
  · rename_i nothing
    rw [Bool.or_eq_true, Bool.or_eq_true, not_or, not_or] at nothing
    rcases accounted with file | transcript | entry | chunks
    · exact absurd file nothing.1.1
    · exact absurd transcript nothing.1.2
    · exact absurd entry nothing.2
    · exact chunks

/-- Without chunks of its own before, a source whose chunks are deleted is as before. -/
theorem get?_withoutSource_eq {source : String} (elsewhere : SameElsewhere source original world)
    (nothing : original.chunksOf source = []) (id : String) :
    (world.withoutSource source).chunks.get? id = original.chunks.get? id := by
  apply Option.ext
  intro chunk
  rw [get?_withoutSource]
  constructor
  · rintro ⟨stored, other⟩
    exact (elsewhere id chunk other).mp stored
  · intro stored
    have other : chunk.source ≠ some (.text source) := by
      intro own
      have listed := mem_chunksOf.mpr ⟨stored, own⟩
      rw [nothing] at listed
      cases listed
    exact ⟨(elsewhere id chunk other).mpr stored, other⟩

theorem get?_undo_chunks (accounted : upload.Accounted original)
    (snapshot : state.vectorSnapshot = (upload.rollbackState original).vectorSnapshot)
    (elsewhere : SameElsewhere upload.filePath original world) (id : String) :
    (upload.undo state world).chunks.get? id = original.chunks.get? id := by
  have same : SameElsewhere upload.filePath original (upload.undoFiles state world) := by
    intro id chunk other
    rw [undoFiles_chunks]
    exact elsewhere id chunk other
  change (upload.undoChunks state (upload.undoFiles state world)).chunks.get? id = _
  rw [Upload.undoChunks, snapshot]
  cases taken : (upload.rollbackState original).vectorSnapshot with
  | none => exact get?_withoutSource_eq same (chunksOf_of_none accounted taken) id
  | some chunks =>
      rw [vectorSnapshot_of_some taken]
      exact get?_restoreSnapshot same id

theorem entries_undo {side : Option String}
    (kept : UploadKept upload side (upload.committed original) world) :
    (upload.undo (upload.committedState original) world).entries =
      (original.entry upload.filename).toList ++ original.otherEntries upload.filename := by
  have entries := kept.entries
  rw [World.otherEntries, World.otherEntries, committedUpload_entries] at entries
  change _ ++ World.otherEntries _ _ = _
  rw [World.otherEntries, undoChunks_entries, undoFiles_entries, entries]
  rfl

theorem otherEntries_undo {side : Option String}
    (kept : UploadKept upload side (upload.committed original) world) :
    (upload.undo (upload.committedState original) world).otherEntries upload.filename =
      original.otherEntries upload.filename := by
  rw [World.otherEntries, entries_undo kept]
  apply filter_otherEntries
  intro entry member
  exact entry_isFor (Option.mem_toList.mp member)

theorem uploadRestored_of_undo (staged : Staged upload original)
    (accounted : upload.Accounted original) (unstray : upload.stray parser ocr content = none)
    (kept : UploadKept upload (upload.side parser ocr content) (upload.committed original) world) :
    UploadRestored upload original (upload.undo (upload.committedState original) world) where
  files := by
    intro path notStaged
    rw [undo_files]
    refine get?_undoFiles staged (undoable_of_kept staged kept) ⟨notStaged, ?_⟩
    rw [unstray]
    exact nofun
  chunks := by
    intro id
    have snapshot : (upload.committedState original).vectorSnapshot =
        (upload.rollbackState original).vectorSnapshot := rfl
    refine get?_undo_chunks accounted snapshot ?_ id
    intro id chunk other
    rw [kept.chunks id chunk other, committedUpload_chunks]
  entry := entry_restoreEntry upload.filename
  others := otherEntries_undo kept

end

/-! ## A call -/

section

variable {parser : Parser} {ocr : OcrService} {voice : VoiceService} {faults : UploadFaults}
  {upload : Upload} {original world : World} {state : RollbackState} {content : Content}

/-- What a call should leave, however it ends. -/
def UploadAtomic (parser : Parser) (ocr : OcrService) (voice : VoiceService)
    (faults : UploadFaults) (upload : Upload) (original : World) : Prop :=
  match indexStagedUpload parser ocr voice faults upload original with
  | .ok _ world => UploadReplaced upload original world
  | .error _ world => UploadRestored upload original world

theorem uploadRestored_refl : UploadRestored upload original original :=
  ⟨fun _ _ => rfl, fun _ => rfl, rfl, rfl⟩

theorem stopped_stores (stopped : Stopped upload original (world, state)) :
    world.chunks = original.chunks ∧ world.entries = original.entries := by
  cases stopped with
  | start => exact ⟨rfl, rfl⟩
  | file =>
      rw [Upload.afterFile, World.backedUp]
      split
      · exact ⟨replaceFile_chunks .., replaceFile_entries ..⟩
      · exact ⟨rfl, rfl⟩
  | backups => exact ⟨afterBackups_chunks, afterBackups_entries⟩

theorem uploadRestored_of_stopped (staged : Staged upload original)
    (stopped : Stopped upload original (world, state)) :
    UploadRestored upload original (upload.undoFiles state world) where
  files := fun _ _ => get?_undoFiles staged (undoable_of_stopped staged stopped) trivial
  chunks := by
    intro id
    rw [undoFiles_chunks, (stopped_stores stopped).1]
  entry := by
    rw [World.entry, undoFiles_entries, (stopped_stores stopped).2]
    rfl
  others := by
    rw [World.otherEntries, undoFiles_entries, (stopped_stores stopped).2]
    rfl

/-- A commit moves all files, or none. -/
theorem commitStagedUpload_outcome (recovers : faults.Recovers) (staged : Staged upload original) :
    match commitStagedUpload faults upload original with
    | .ok state world => world = upload.committed original ∧ state = upload.committedState original
    | .error _ world => UploadRestored upload original world ∧
        world.entries = original.entries ∧ ¬ faults.Commits := by
  have prologue : Leads (· = original) (failing faults.readEntry *>
      Fallible.onlyIf (upload.rollbackState original).vectorSnapshot.isSome
        (failing faults.snapshot) : Action Unit) (fun _ => (· = original))
      (fun world => world = original ∧ ¬ faults.Commits) := by
    change Leads _ (failing faults.readEntry >>= fun _ => _) _ _
    apply Leads.bind (leads_failing fun fault _ same =>
      ⟨same, fun commits => fault commits.readEntry⟩)
    intro _
    apply Leads.onlyIf
    · exact fun _ => leads_failing fun fault _ same =>
        ⟨same, fun commits => fault commits.snapshot⟩
    · exact fun _ _ same => same
  have leads := @leads_commitMoves faults upload original staged
  rw [commitStagedUpload, if_neg (not_not_intro staged.valid),
    if_neg (not_not_intro staged.present)]
  dsimp only
  cases begun : (failing faults.readEntry *>
      Fallible.onlyIf (upload.rollbackState original).vectorSnapshot.isSome
        (failing faults.snapshot) : Action Unit) original with
  | error failure world =>
      obtain ⟨same, fault⟩ := Leads.error prologue rfl begun
      rw [same]
      exact ⟨uploadRestored_refl, rfl, fault⟩
  | ok _ world =>
      have same : world = original := Leads.ok prologue rfl begun
      rw [same]
      dsimp only
      cases moved : commitMoves faults upload (upload.rollbackState original).hadExistingFile
          (upload.rollbackState original).hadExistingTranscript
          (original, upload.rollbackState original) with
      | ok _ pair =>
          have done := leads.ok rfl moved
          rw [done]
          exact ⟨rfl, rfl⟩
      | error failure pair =>
          rcases pair with ⟨next, state⟩
          obtain ⟨stopped, fault⟩ := leads.error rfl moved
          dsimp only
          rw [restoreUploadFiles_ok recovers staged (undoable_of_stopped staged stopped)]
          exact ⟨uploadRestored_of_stopped staged stopped,
            undoFiles_entries.trans (stopped_stores stopped).2, fault⟩

end

/-! ## The cleanup -/

section

variable {parser : Parser} {ocr : OcrService} {voice : VoiceService} {faults : UploadFaults}
  {upload : Upload} {original world : World} {content : Content}

theorem get?_removeBackup (recovers : faults.Recovers) {created : Bool} {backup : String}
    (wanted : String) :
    (removeBackup faults created backup world).files.get? wanted =
      if created ∧ wanted = backup then none else world.files.get? wanted := by
  rw [removeBackup, recovers.cleanBackup]
  cases created with
  | false => simp
  | true =>
      by_cases present : world.isFile backup
      · simp [present, get?_removeFile]
      · have missing := get?_eq_none_of_isFile (Bool.not_eq_true _ ▸ present)
        by_cases same : wanted = backup
        · simp [same, missing, present]
        · simp [same, present]

theorem kept_files (staged : Staged upload original)
    (kept : UploadKept upload (upload.side parser ocr content) (upload.committed original) world)
    {path : String} (spared : upload.Spared parser ocr content path)
    (notTranscript : path ≠ upload.transcriptPath) (notFile : path ≠ upload.filePath) :
    world.files.get? path = (upload.afterBackups original).files.get? path := by
  rw [kept.files path (side_ne spared fun _ => notTranscript), get?_committedUpload staged,
    if_neg notFile, if_neg spared.1]

theorem side_ne_filePath : upload.side parser ocr content ≠ some upload.filePath := by
  rw [Upload.side]
  cases upload.kind with
  | file => exact stray_ne Upload.ocrTextPath_ne_filePath.symm
  | audio => exact fun same => Upload.transcriptPath_ne_filePath (Option.some.inj same)

theorem uploadReplaced_of_kept (recovers : faults.Recovers) (staged : Staged upload original)
    (kept : UploadKept upload (upload.side parser ocr content) (upload.committed original) world) :
    UploadReplaced upload original
      (finalizeCommittedUpload faults upload (upload.committedState original) world) where
  file := by
    rw [finalizeCommittedUpload, get?_removeBackup recovers,
      if_neg fun same => staged.backupNotFile.2 same.2.symm, get?_removeBackup recovers,
      if_neg fun same => staged.backupNotFile.1 same.2.symm, kept.files _ side_ne_filePath,
      get?_committedUpload staged, if_pos rfl]
  backupFile := by
    rw [finalizeCommittedUpload, get?_removeBackup recovers,
      if_neg fun same => staged.backupsDistinct same.2, get?_removeBackup recovers]
    by_cases existing : (upload.committedState original).hadExistingFile = true
    · rw [if_pos ⟨existing, rfl⟩]
    · have missing : original.isFile upload.filePath = false := Bool.not_eq_true _ ▸ existing
      rw [if_neg fun same => existing same.1, kept_files staged kept
        ⟨ne_staged_of_absent staged staged.backupFile,
          stray_ne Upload.backupFilePath_ne_ocrTextPath⟩
        Upload.backupFilePath_ne_transcriptPath staged.backupNotFile.1,
        afterBackups_other (fun _ => Upload.backupFilePath_ne_transcriptPath)
          fun _ => staged.backupsDistinct,
        afterFile_other staged.backupNotFile.1 (by simp [missing]), staged.backupFile]
  backupTranscript := by
    rw [finalizeCommittedUpload, get?_removeBackup recovers]
    by_cases existing : (upload.committedState original).hadExistingTranscript = true
    · rw [if_pos ⟨existing, rfl⟩]
    · have missing : upload.hadTranscript original = false := Bool.not_eq_true _ ▸ existing
      rw [if_neg fun same => existing same.1, get?_removeBackup recovers,
        if_neg fun same => staged.backupsDistinct same.2.symm, kept_files staged kept
        ⟨ne_staged_of_absent staged staged.backupTranscript,
          stray_ne Upload.backupTranscriptPath_ne_ocrTextPath⟩
        Upload.backupTranscriptPath_ne_transcriptPath staged.backupNotFile.2,
        afterBackups_other (by simp [missing]) (by simp [missing]),
        afterFile_other staged.backupNotFile.2 fun _ => staged.backupsDistinct.symm,
        staged.backupTranscript]

theorem holding_committed (staged : Staged upload original)
    (stored : original.files.get? upload.stagedFilePath = some content) :
    Holding upload (upload.side parser ocr content) (upload.committed original) content
      (upload.committed original) := by
  refine ⟨.refl, ?_⟩
  rw [get?_committedUpload staged, if_pos rfl, stored]

/-- How a call ends: before its commit, or after what indexing left is kept or undone. -/
theorem indexStagedUpload_cases (parser : Parser) (ocr : OcrService) (voice : VoiceService)
    (recovers : faults.Recovers) (staged : Staged upload original)
    (stored : original.files.get? upload.stagedFilePath = some content) :
    (∃ failure world, indexStagedUpload parser ocr voice faults upload original =
        .error failure world ∧ UploadRestored upload original world ∧
          world.entries = original.entries) ∨
      (∃ indexed world, indexUpload parser ocr voice faults upload (upload.committed original) =
          .ok indexed world ∧
        indexStagedUpload parser ocr voice faults upload original = .ok indexed
          (finalizeCommittedUpload faults upload (upload.committedState original) world)) ∨
      ∃ failure world, indexUpload parser ocr voice faults upload (upload.committed original) =
          .error failure world ∧
        indexStagedUpload parser ocr voice faults upload original = .error failure
          (upload.undo (upload.committedState original) world) := by
  have indexes := @keeps_indexUpload parser ocr voice faults upload
    (upload.committed original) content
  have commits := commitStagedUpload_outcome recovers staged
  rw [indexStagedUpload]
  cases healthy : faults.leaseLost 0 with
  | some message =>
      have lost : (assertLocksHealthy faults.toFaults 0 *> commitStagedUpload faults upload)
          original = .error (.leaseLost message) original := by
        rw [assertLocksHealthy, healthy]
        rfl
      rw [lost]
      exact .inl ⟨_, _, rfl, uploadRestored_refl, rfl⟩
  | none =>
      have passed : (assertLocksHealthy faults.toFaults 0 *> commitStagedUpload faults upload)
          original = commitStagedUpload faults upload original := by
        rw [assertLocksHealthy, healthy]
        rfl
      rw [passed]
      cases moved : commitStagedUpload faults upload original with
      | error failure world =>
          rw [moved] at commits
          exact .inl ⟨_, _, rfl, commits.1, commits.2.1⟩
      | ok state world =>
          rw [moved] at commits
          obtain ⟨rfl, rfl⟩ := commits
          dsimp only
          cases indexed : indexUpload parser ocr voice faults upload
              (upload.committed original) with
          | ok result world => exact .inr (.inl ⟨_, _, rfl, rfl⟩)
          | error failure world =>
              have kept := indexes.error (holding_committed staged stored) indexed
              dsimp only
              rw [rollbackCommittedUpload_eq recovers staged (undoable_of_kept staged kept)]
              exact .inr (.inr ⟨_, _, rfl, rfl⟩)

/-- The conditions under which a call undoes what it did. -/
theorem uploadAtomic_of (recovers : faults.Recovers) (staged : Staged upload original)
    (stored : original.files.get? upload.stagedFilePath = some content)
    (accounted : upload.Accounted original) (unread : upload.ocrText parser ocr content = none) :
    UploadAtomic parser ocr voice faults upload original := by
  have unstray : upload.stray parser ocr content = none := by
    rw [Upload.stray, unread]
    rfl
  have indexes := @keeps_indexUpload parser ocr voice faults upload
    (upload.committed original) content
  have holding := @holding_committed parser ocr upload original content staged stored
  rw [UploadAtomic]
  rcases indexStagedUpload_cases parser ocr voice recovers staged stored with
    ⟨failure, world, ended, restored, -⟩ | ⟨indexed, world, performed, ended⟩ |
      ⟨failure, world, performed, ended⟩
  · rw [ended]
    exact restored
  · rw [ended]
    exact uploadReplaced_of_kept recovers staged (indexes.ok holding performed)
  · rw [ended]
    exact uploadRestored_of_undo staged accounted unstray (indexes.error holding performed)

end

/-! ## Calls that fail and leave something -/

section

variable {parser : Parser} {ocr : OcrService} {voice : VoiceService} {faults : UploadFaults}
  {upload : Upload} {original world : World} {content : Content} {text : String}

/-- A call whose commit succeeds and whose indexing fails. -/
theorem indexStagedUpload_failed (recovers : faults.Recovers) (commits : faults.Commits)
    (held : faults.leaseLost 0 = none) (staged : Staged upload original)
    (stored : original.files.get? upload.stagedFilePath = some content) {failure : Failure}
    (failed : indexUpload parser ocr voice faults upload (upload.committed original) =
      .error failure world) :
    indexStagedUpload parser ocr voice faults upload original =
      .error failure (upload.undo (upload.committedState original) world) := by
  have outcome := commitStagedUpload_outcome recovers staged
  have kept := Leads.error keeps_indexUpload (holding_committed staged stored) failed
  have moved : commitStagedUpload faults upload original =
      .ok (upload.committedState original) (upload.committed original) := by
    cases moved : commitStagedUpload faults upload original with
    | ok state world =>
        rw [moved] at outcome
        rw [outcome.1, outcome.2]
    | error failure world =>
        rw [moved] at outcome
        exact absurd commits outcome.2.2
  have passed : (assertLocksHealthy faults.toFaults 0 *> commitStagedUpload faults upload)
      original = .ok (upload.committedState original) (upload.committed original) := by
    rw [assertLocksHealthy, held]
    exact moved
  rw [indexStagedUpload, passed]
  dsimp only
  rw [failed]
  dsimp only
  rw [rollbackCommittedUpload_eq recovers staged (undoable_of_kept staged kept)]

/-- The lease is lost after the commit. -/
def leaseLostAfterCommit : UploadFaults where
  leaseLost := fun check => if check = 5 then some "lease lost" else none

/-- The disk is full after some bytes of the text of the images. -/
def diskFullAfter (written : Nat) : UploadFaults where
  writeOcr := some ("disk full", some written)

/-- Without a snapshot, the chunks of the path are lost. -/
theorem accounted_of_restored (staged : Staged upload original)
    (stored : original.files.get? upload.stagedFilePath = some content)
    (atomic : UploadAtomic parser ocr voice leaseLostAfterCommit upload original) :
    upload.Accounted original := by
  by_contra unaccounted
  rw [Upload.Accounted, not_or, not_or, not_or] at unaccounted
  obtain ⟨noFile, noTranscript, noEntry, chunks⟩ := unaccounted
  have skipped : (upload.committedState original).vectorSnapshot = none := by
    change (if _ then some (original.chunksOf upload.filePath) else none) = none
    rw [if_neg]
    rw [Bool.or_eq_true, Bool.or_eq_true, not_or, not_or]
    exact ⟨⟨noFile, noTranscript⟩, noEntry⟩
  have failed : indexUpload parser ocr voice leaseLostAfterCommit upload
      (upload.committed original) =
        .error (.leaseLost "lease lost") (upload.committed original) := rfl
  rw [UploadAtomic, indexStagedUpload_failed ⟨rfl, rfl, rfl, rfl, rfl⟩ ⟨rfl, rfl, rfl, rfl, rfl⟩
    rfl staged stored failed] at atomic
  obtain ⟨⟨id, chunk⟩, member⟩ := List.exists_mem_of_ne_nil _ chunks
  obtain ⟨present, own⟩ := mem_chunksOf.mp member
  have restored := (atomic.chunks id).trans present
  change (upload.undoChunks (upload.committedState original) _).chunks.get? id = _ at restored
  rw [Upload.undoChunks, skipped] at restored
  exact (get?_withoutSource.mp restored).2 own

end

/-! ### The text of the images -/

theorem encodeText_line_ne_nil (text : String) : encodeText (text ++ "\n") ≠ [] := by
  intro empty
  have size := congrArg List.length empty
  rw [encodeText, Array.length_toList] at size
  change (text ++ "\n").utf8ByteSize = 0 at size
  rw [String.utf8ByteSize_append] at size
  have line : "\n".utf8ByteSize = 1 := by decide
  omega

section

variable {parser : Parser} {ocr : OcrService} {voice : VoiceService} {upload : Upload}
  {original world : World} {content : Content} {text : String} {written : Nat}

theorem textFor_eq_some {parseError : String}
    (extracted : ocr.textFor parseError content = some text) :
    ocr.refusal parseError = none ∧ ocr.extract content = .ok text ∧ text ≠ "" := by
  rw [OcrService.textFor] at extracted
  cases refused : ocr.refusal parseError with
  | some message =>
      rw [refused] at extracted
      cases extracted
  | none =>
      rw [refused] at extracted
      cases outcome : ocr.extract content with
      | error message =>
          rw [outcome] at extracted
          cases extracted
      | ok found =>
          rw [outcome] at extracted
          dsimp only at extracted
          split at extracted
          · cases extracted
          · rename_i nonempty
            cases extracted
            exact ⟨rfl, rfl, nonempty⟩

theorem ocrText_eq_some (extracted : upload.ocrText parser ocr content = some text) :
    upload.kind = .file ∧ normalizeExtension upload.extension = "pdf" ∧
      ∀ documents, parser.texts "pdf" content = .ok documents → documents = [] := by
  rw [Upload.ocrText] at extracted
  split at extracted
  · rename_i image
    refine ⟨image.1, image.2, ?_⟩
    intro documents parsed
    cases documents with
    | nil => rfl
    | cons first rest =>
        rw [parsed] at extracted
        cases extracted
  · cases extracted

theorem parseFile_empty (stored : world.files.get? upload.filePath = some content)
    (empty : ∀ documents, parser.texts "pdf" content = .ok documents → documents = []) :
    (parseFile parser upload.filePath "pdf" world).1 = [] := by
  rw [parseFile, processFile, stored]
  cases texts : parser.texts "pdf" content with
  | error message => simp [texts, Bind.bind, Except.bind]
  | ok documents =>
      have none := empty documents texts
      subst none
      simp [texts, Bind.bind, Except.bind, pure, Except.pure]

theorem ocrDocumentsForConfig_diskFull {path parseError : String}
    (stored : world.files.get? path = some content)
    (extracted : ocr.textFor parseError content = some text) :
    ocrDocumentsForConfig parser ocr (diskFullAfter written) path [] parseError world =
      .error (.raised "disk full")
        (world.writeFile (path ++ ".ocr.txt") ((encodeText (text ++ "\n")).take written)) := by
  obtain ⟨accepted, found, nonempty⟩ := textFor_eq_some extracted
  rw [ocrDocumentsForConfig, accepted, if_neg (not_not_intro rfl)]
  have settings : failing (diskFullAfter written).settings world = .ok () world := rfl
  rw [bind_of_ok settings]
  dsimp only
  rw [bind_of_ok (readFile_ok stored), found]
  dsimp only
  rw [if_neg nonempty]
  apply bind_of_error
  rfl

theorem indexUpload_diskFull (stored : world.files.get? upload.filePath = some content)
    (extracted : upload.ocrText parser ocr content = some text) :
    indexUpload parser ocr voice (diskFullAfter written) upload world =
      .error (.raised "disk full")
        (world.writeFile upload.ocrTextPath ((encodeText (text ++ "\n")).take written)) := by
  obtain ⟨kind, image, parsed⟩ := ocrText_eq_some extracted
  have empty := parseFile_empty stored parsed
  have found := @textFor_of_parseFile parser ocr upload content world kind image stored empty
  rw [extracted] at found
  have read : readUploadImages parser ocr (diskFullAfter written) upload.filePath "pdf"
      (parseFile parser upload.filePath "pdf" world).1
      (merge (Dictionary.empty.set "source_type" (.text (sourceTypeForExtension "pdf")))
        upload.request.extraMetadata)
      (parseFile parser upload.filePath "pdf" world).2 world =
      .error (.raised "disk full")
        (world.writeFile upload.ocrTextPath ((encodeText (text ++ "\n")).take written)) := by
    rw [readUploadImages, if_neg (not_not_intro rfl), empty]
    exact bind_of_error (ocrDocumentsForConfig_diskFull stored found)
  have parses : parseUpload parser ocr (diskFullAfter written) upload.request upload.filePath "pdf"
      world = .error (.raised "disk full")
        (world.writeFile upload.ocrTextPath ((encodeText (text ++ "\n")).take written)) := by
    rw [parseUpload, bind_of_ok (rfl : (get : Action World) world = .ok world world)]
    exact bind_of_error read
  have indexes : indexSavedDocumentUpload parser ocr (diskFullAfter written) upload world =
      .error (.raised "disk full")
        (world.writeFile upload.ocrTextPath ((encodeText (text ++ "\n")).take written)) := by
    rw [indexSavedDocumentUpload, image, if_neg (by decide)]
    exact bind_of_error parses
  have healthy : assertLocksHealthy (diskFullAfter written).toFaults 5 world = .ok () world := rfl
  rw [indexUpload, bind_of_ok healthy, indexCommitted, kind]
  exact bind_of_error indexes

/-- The text of the images stays beside the file. -/
theorem ocrText_left (staged : Staged upload original)
    (stored : original.files.get? upload.stagedFilePath = some content)
    (extracted : upload.ocrText parser ocr content = some text)
    (atomic : UploadAtomic parser ocr voice (diskFullAfter written) upload original) :
    original.files.get? upload.ocrTextPath =
      some ((encodeText (text ++ "\n")).take written) := by
  obtain ⟨kind, -, -⟩ := ocrText_eq_some extracted
  have holding := @holding_committed parser ocr upload original content staged stored
  have failed := @indexUpload_diskFull parser ocr voice upload (upload.committed original)
    content text written holding.2 extracted
  have undoable := undoable_of_kept staged (Leads.error keeps_indexUpload holding failed)
  rw [UploadAtomic, indexStagedUpload_failed ⟨rfl, rfl, rfl, rfl, rfl⟩ ⟨rfl, rfl, rfl, rfl, rfl⟩
    rfl staged stored failed] at atomic
  have restored := atomic.files upload.ocrTextPath Upload.stagedFilePath_ne_ocrTextPath.symm
  rw [← restored, undo_files, Upload.undoFiles, if_neg (by simp [kind]),
    get?_restoredFile_of_ne (undoable.backupFile staged) Upload.ocrTextPath_ne_filePath
      fun _ => Upload.backupFilePath_ne_ocrTextPath.symm]
  exact Dictionary.get?_set_self ..

theorem unread_of_restored (staged : Staged upload original)
    (stored : original.files.get? upload.stagedFilePath = some content)
    (atomic : ∀ written, UploadAtomic parser ocr voice (diskFullAfter written) upload original) :
    upload.ocrText parser ocr content = none := by
  cases extracted : upload.ocrText parser ocr content with
  | none => rfl
  | some text =>
      have nothing := ocrText_left staged stored extracted (atomic 0)
      have whole := ocrText_left staged stored extracted
        (atomic (encodeText (text ++ "\n")).length)
      rw [nothing, List.take_zero, List.take_length] at whole
      exact absurd (Option.some.inj whole).symm (encodeText_line_ne_nil text)

end

/-- A call undoes what it did, wherever it fails, if and only if no text is read from the
images of the file, and the call replaces something or no chunk has its path as source. -/
theorem indexStagedUpload_atomic_iff (parser : Parser) (ocr : OcrService) (voice : VoiceService)
    (upload : Upload) (original : World) (staged : Staged upload original) :
    (∀ faults : UploadFaults, faults.Recovers →
        UploadAtomic parser ocr voice faults upload original) ↔
      upload.Accounted original ∧
        ∀ content, original.files.get? upload.stagedFilePath = some content →
          upload.ocrText parser ocr content = none := by
  obtain ⟨content, stored⟩ := Option.isSome_iff_exists.mp staged.present
  constructor
  · intro atomic
    refine ⟨accounted_of_restored staged stored (atomic _ ⟨rfl, rfl, rfl, rfl, rfl⟩), ?_⟩
    intro other same
    rw [stored] at same
    cases same
    exact unread_of_restored staged stored fun written => atomic _ ⟨rfl, rfl, rfl, rfl, rfl⟩
  · rintro ⟨accounted, unread⟩ faults recovers
    exact uploadAtomic_of recovers staged stored accounted (unread content stored)

/-! ## Sample uploads -/

/-- A parser that finds no text, as in a scan. -/
def scannedPages : Parser :=
  { wholeFile with texts := fun _ _ => .ok [] }

/-- An OCR service that reads the same text from every file. -/
def sampleOcr : OcrService where
  refusal := fun _ => none
  extract := fun _ => .ok "read"
  texts := fun text => .ok [text]
  provider := "provider"
  model := "model"

def sampleVoice : VoiceService where
  transcribe := fun _ => .ok "heard"
  texts := fun text => .ok [text]

/-- An upload of a PDF file. -/
def sampleUpload : Upload where
  kind := .file
  uploadFolder := "/uploads"
  filename := "a.pdf"
  filePath := "/uploads/a.pdf"
  extension := "pdf"
  relativePath := ""
  indexProfile := "profile"
  now := "2024-01-01T00:00:00+00:00"
  stagedUnique := "0"
  fileUnique := "1"
  transcriptUnique := "2"

/-- A file and its staged replacement. -/
def sampleUploads : World where
  files := (Dictionary.empty.set "/uploads/a.pdf" [1]).set
    "/uploads/.a.pdf.0.pending-upload" [2, 3]
  chunks := .empty
  entries := []

theorem staged_sampleUploads : Staged sampleUpload sampleUploads where
  valid := by decide +kernel
  present := by decide +kernel
  distinct := by decide +kernel
  backupFile := by decide +kernel
  backupTranscript := by decide +kernel
  backupsDistinct := by decide +kernel
  backupNotFile := by decide +kernel

theorem indexStagedUpload_atomic_sample :
    (∀ faults : UploadFaults, faults.Recovers →
        UploadAtomic wholeFile sampleOcr sampleVoice faults sampleUpload sampleUploads) ↔
      sampleUpload.Accounted sampleUploads ∧
        ∀ content, sampleUploads.files.get? sampleUpload.stagedFilePath = some content →
          sampleUpload.ocrText wholeFile sampleOcr content = none :=
  indexStagedUpload_atomic_iff wholeFile sampleOcr sampleVoice sampleUpload sampleUploads
    staged_sampleUploads

/-- A replaced scan leaves a part of its text, if the disk is full before it is written. -/
theorem indexStagedUpload_leaves_text :
    ¬ ∀ (parser : Parser) (ocr : OcrService) (voice : VoiceService) (faults : UploadFaults)
      (upload : Upload) (original : World), Staged upload original → faults.Recovers →
        UploadAtomic parser ocr voice faults upload original := by
  intro claim
  have stored : sampleUploads.files.get? sampleUpload.stagedFilePath = some [2, 3] := by
    decide +kernel
  have extracted : sampleUpload.ocrText scannedPages sampleOcr [2, 3] = some "read" := by
    decide +kernel
  have atomic := claim scannedPages sampleOcr sampleVoice (diskFullAfter 2) sampleUpload
    sampleUploads staged_sampleUploads ⟨rfl, rfl, rfl, rfl, rfl⟩
  have left := @ocrText_left scannedPages sampleOcr sampleVoice sampleUpload sampleUploads [2, 3]
    "read" 2 staged_sampleUploads stored extracted atomic
  have absent : sampleUploads.files.get? sampleUpload.ocrTextPath = none := by decide +kernel
  rw [absent] at left
  exact Option.some_ne_none _ left.symm

end RAGuardian.Documents
