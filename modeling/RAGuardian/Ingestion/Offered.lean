import RAGuardian.Ingestion.Drive
import RAGuardian.Ingestion.Email

/-! # Items that are never offered again

Both plugins move their cursor past an item before it is fetched, and the service saves
the cursor whatever became of the item. -/

namespace RAGuardian.Ingestion

open Execution

/-- Careful syncs of a new data source pass over no item that has not been received. -/
theorem run_items_offered {library : Library} {emails : EmailConfig}
    {messages : Nat → Except String Message} {folder : Source Nat}
    {folderSyncs : List (Sync Mailbox)} {files : DriveConfig} {drive : Source DriveCursor}
    {driveSyncs : List (Sync Drive)} (folderStart : folder.cursor = 0)
    (driveStart : drive.cursor.items = .empty)
    (emailsCareful : EmailsCareful library emails messages folder folderSyncs)
    (filesCareful : FilesCareful library files drive driveSyncs) :
    EmailsOffered library emails messages folder folderSyncs ∧
      FilesOffered library files drive driveSyncs :=
  ⟨run_emails_offered folderStart emailsCareful, run_files_offered driveStart filesCareful⟩

/-! ## Syncs of a small source -/

/-- The library on plain texts. -/
def exampleLibrary : Library where
  lower := Text.lower
  before first second := some (decide (first < second))
  htmlToText text := text
  decode content := String.ofList (content.map fun byte => Char.ofNat byte.toNat)

def exampleEmails (maxMessages : Nat) (bounded : 1 ≤ maxMessages ∧ maxMessages ≤ 500) :
    EmailConfig where
  fromContains := ""
  subjectContains := ""
  since := ""
  maxMessages := maxMessages
  bounded := bounded
  includeBody := true
  includeAttachments := true

def exampleMessages (_ : Nat) : Except String Message :=
  .ok {
    subject := "Hello"
    sender := "a@example.com"
    recipients := ["b@example.com"]
    messageId := "m"
    inReplyTo := ""
    references := ""
    date := some "2026-01-01T00:00:00+00:00"
    multipart := false
    parts := [⟨"", "text/plain", "", [104, 105], .ok "hi"⟩] }

/-- A sync that finds the uids, and the indexer accepts every document. -/
def exampleMailSync (uids : List Nat) (fetch : Nat → Fetch) : Sync Mailbox where
  remote := ⟨.ok (), uids, fetch, "2026-02-01T00:00:00+00:00"⟩
  indexing := ⟨fun _ => none, fun _ => .indexed⟩

def exampleFolder : Source Nat where
  id := "mail"
  enabled := true
  cursor := 0

theorem exampleMessages_parsed (config : EmailConfig) (plain : config.fromContains = "")
    (subject : config.subjectContains = "") (since : config.since = "")
    (attachments : config.includeAttachments = true) (now : String) (uid : Nat) :
    ∃ item, parseEmailMessage exampleLibrary config now (exampleMessages uid) (toString uid) =
      .ok (some item) := by
  have passes : ∀ sender title updatedAt,
      matchesFilters exampleLibrary config sender title updatedAt = true := by
    intro sender title updatedAt
    rw [matchesFilters, plain, subject, since]
    have lowered : exampleLibrary.lower "" = "" := by decide
    have stripped : Text.strip "" = "" := by decide
    simp [lowered, stripped]
  rw [exampleMessages]
  simp [parseEmailMessage, passes, attachments, extractBody, bodyTexts, Bind.bind, Except.bind, pure,
    Except.pure]

def exampleFiles : DriveConfig where
  driveId := "d"
  maxFiles := 50
  filesBounded := by decide
  maxFileSizeMb := 10
  sizeBounded := by decide
  includeExtensions := ["md", "pdf", "txt"]

def exampleFile (id eTag : String) : DriveItem where
  id := id
  name := id ++ ".md"
  eTag := eTag
  cTag := ""
  size := 2
  lastModified := ""
  file := true

/-- A sync that lists the files, and the indexer accepts every document. -/
def exampleDriveSync (listing : List DriveItem)
    (download : String → Except String (List UInt8)) : Sync Drive where
  remote := ⟨.ok (), listing, none, download, "2026-02-01T00:00:00+00:00"⟩
  indexing := ⟨fun _ => none, fun _ => .indexed⟩

def exampleDrive : Source DriveCursor where
  id := "drive"
  enabled := true
  cursor := ⟨.empty, "", 0⟩

/-- A message is received, and then another one. -/
def carefulMailSyncs : List (Sync Mailbox) :=
  [exampleMailSync [1] fun _ => .found, exampleMailSync [1, 2] fun _ => .found]

/-- A file is received, and then a new version of it. -/
def carefulDriveSyncs : List (Sync Drive) :=
  [exampleDriveSync [exampleFile "a" "1"] fun _ => .ok [104, 105],
    exampleDriveSync [exampleFile "a" "2"] fun _ => .ok [104, 105]]

theorem run_items_offered_careful :
    EmailsOffered exampleLibrary (exampleEmails 25 (by decide)) exampleMessages exampleFolder
        carefulMailSyncs ∧
      FilesOffered exampleLibrary exampleFiles exampleDrive carefulDriveSyncs := by
  apply run_items_offered rfl rfl
  · constructor
    · intro sync member uid present
      simp only [carefulMailSyncs, List.mem_cons, List.not_mem_nil, or_false] at member
      rcases member with rfl | rfl
      · simp only [exampleMailSync, List.mem_singleton] at present
        omega
      · simp only [exampleMailSync, List.mem_cons, List.not_mem_nil, or_false] at present
        omega
    · intro past sync within uid present earlier member absent other known
      rcases eq_take_of_concat_prefix within with ⟨same, happens⟩
      generalize past.length = position at same happens
      subst same
      match position with
      | 0 => cases member
      | 1 =>
          cases happens
          rw [List.mem_singleton.mp member] at absent known
          rw [List.mem_singleton.mp known]
          rcases List.mem_cons.mp present with first | second
          · exact absurd (List.mem_singleton.mpr first) absent
          · rw [List.mem_singleton.mp second]
            decide
      | _ + 2 => cases happens
    · intro past sync within summary _ lastUid _ uid found beyond
      have short : (sync.remote.search lastUid).length ≤ 25 := by
        apply (List.length_filter_le _ _).trans
        have member := within.subset (List.mem_append_right _ List.mem_cons_self)
        simp only [carefulMailSyncs, List.mem_cons, List.not_mem_nil, or_false] at member
        rcases member with rfl | rfl <;> decide
      rw [Mailbox.page, exampleEmails, List.take_of_length_le short] at beyond
      exact absurd found beyond
    · intro past sync within summary _ lastUid _ uid _ _
      have member := within.subset (List.mem_append_right _ List.mem_cons_self)
      simp only [carefulMailSyncs, List.mem_cons, List.not_mem_nil, or_false] at member
      rcases exampleMessages_parsed (exampleEmails 25 (by decide)) rfl rfl rfl rfl
        sync.remote.now uid with ⟨item, parsed⟩
      rcases member with rfl | rfl
      · exact ⟨rfl, item, parsed, ⟨rfl, .inl rfl⟩, fun _ _ _ => ⟨rfl, .inl rfl⟩⟩
      · exact ⟨rfl, item, parsed, ⟨rfl, .inl rfl⟩, fun _ _ _ => ⟨rfl, .inl rfl⟩⟩
  · constructor
    · intro sync member item listed _
      simp only [carefulDriveSyncs, List.mem_cons, List.not_mem_nil, or_false] at member
      rcases member with rfl | rfl
      · simp only [exampleDriveSync, List.mem_singleton] at listed
        rw [listed]
        decide
      · simp only [exampleDriveSync, List.mem_singleton] at listed
        rw [listed]
        decide
    · intro past sync within summary _
      rcases eq_take_of_concat_prefix within with ⟨same, happens⟩
      generalize past.length = position at same happens
      subst same
      match position with
      | 0 =>
          cases happens
          intro _
          rw [if_pos (by decide +kernel)]
          exact ⟨by decide, ⟨_, rfl⟩, ⟨rfl, .inl rfl⟩, trivial⟩
      | 1 =>
          cases happens
          intro _
          rw [if_pos (by decide +kernel)]
          exact ⟨by decide, ⟨_, rfl⟩, ⟨rfl, .inl rfl⟩, trivial⟩
      | _ + 2 => cases happens

/-- The first of two messages cannot be fetched. -/
def failedFetchSyncs : List (Sync Mailbox) :=
  [exampleMailSync [1, 2] fun uid => if uid = 1 then .raised "timeout" else .found,
    exampleMailSync [1, 2] fun _ => .found]

/-- The server lists the greater uid first, and the page holds one. -/
def descendingSyncs : List (Sync Mailbox) :=
  [exampleMailSync [2, 1] fun _ => .found, exampleMailSync [2, 1] fun _ => .found]

/-- A file cannot be downloaded. -/
def failedDownloadSyncs : List (Sync Drive) :=
  [exampleDriveSync [exampleFile "a" "1"] fun _ => .error "timeout",
    exampleDriveSync [exampleFile "a" "1"] fun _ => .ok [104, 105]]

theorem parsed_remoteId {library : Library} {config : EmailConfig} {now uid : String}
    {raw : Except String Message} {item : IngestionItem}
    (parsed : parseEmailMessage library config now raw uid = .ok (some item)) :
    item.remoteId = uid := by
  cases raw with
  | error error => cases parsed
  | ok message =>
      simp only [parseEmailMessage, Bind.bind, Except.bind, pure, Except.pure] at parsed
      split at parsed
      · cases parsed
      · split at parsed
        · cases parsed
        · split at parsed
          · cases parsed
          · cases parsed
            rfl

/-- A message that was not received, by the ids of the documents that were. -/
theorem not_emailReceived {config : EmailConfig} {uid : Nat} {received : List Document}
    (missing : toString uid ∉ received.map (·.remoteId)) :
    ¬ EmailReceived exampleLibrary config exampleMessages exampleFolder uid received := by
  intro ⟨now, item, parsed, delivered⟩
  apply missing
  rw [← parsed_remoteId parsed]
  exact List.mem_map_of_mem (f := Document.remoteId) delivered.body

/-- A message or a file whose processing failed is passed over by the next sync, and so
is a message that was listed after a greater one. -/
theorem items_lost :
    ¬ EmailsOffered exampleLibrary (exampleEmails 25 (by decide)) exampleMessages exampleFolder
        failedFetchSyncs ∧
      ¬ EmailsOffered exampleLibrary (exampleEmails 1 (by decide)) exampleMessages exampleFolder
        descendingSyncs ∧
      ¬ FilesOffered exampleLibrary exampleFiles exampleDrive failedDownloadSyncs := by
  have passes : ∀ config : EmailConfig, config.fromContains = "" → config.subjectContains = "" →
      config.since = "" → config.includeAttachments = true →
      ¬ Excluded exampleLibrary config exampleMessages 1 := by
    intro config plain subject since attachments excluded
    rcases exampleMessages_parsed config plain subject since attachments "" 1 with ⟨item, parsed⟩
    rw [excluded ""] at parsed
    cases parsed
  refine ⟨?_, ?_, ?_⟩
  · intro offered
    have received := offered (failedFetchSyncs.take 1) _ ⟨[], rfl⟩ 1 (by decide)
      (passes _ rfl rfl rfl rfl) (by decide +kernel)
    exact not_emailReceived (by decide +kernel) received
  · intro offered
    have received := offered (descendingSyncs.take 1) _ ⟨[], rfl⟩ 1 (by decide)
      (passes _ rfl rfl rfl rfl) (by decide +kernel)
    exact not_emailReceived (by decide +kernel) received
  · intro offered
    rcases offered (failedDownloadSyncs.take 1) _ ⟨[], rfl⟩ (exampleFile "a" "1")
      List.mem_cons_self (by decide +kernel) (by decide +kernel) with ⟨document, member, _⟩
    have received : (driveRun exampleLibrary exampleFiles exampleDrive
        (failedDownloadSyncs.take 1)).received.map (·.remoteId) = [] := by decide +kernel
    rw [List.map_eq_nil_iff] at received
    rw [received] at member
    cases member

end RAGuardian.Ingestion
