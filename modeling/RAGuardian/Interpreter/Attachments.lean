import RAGuardian.Foundation.SecureFilename
import RAGuardian.Interpreter.Outputs
import RAGuardian.Service.ScopeKeys

/-! # Attachments of a code run

The names that the attached files of a chat get in the data directory of the program, and what
the program finds under them. -/

namespace RAGuardian.Interpreter.Attachments

open Json (Value)

/-! ## Resolution -/

/-- The folder of the chat uploads: the regular files in it and what they hold. -/
structure Uploads where
  folder : String
  files : Dictionary String (List UInt8)

def Uploads.path (uploads : Uploads) (name : String) : String :=
  uploads.folder ++ "/" ++ name

/-- The bytes at a path, if a file is there -/
def Uploads.read (uploads : Uploads) (path : String) : Option (List UInt8) :=
  (uploads.files.entries.find? fun entry => uploads.path entry.1 == path).map Prod.snd

/-- What the resolution uses of the language and its library. -/
structure Library where
  /-- `str(value)` -/
  str : Value → String
  secureFilename : SecureFilename
  /-- `mimetypes.guess_type(name)[0]` -/
  guessType : String → Option String
  /-- `_chat_file_preview`, of the bytes and the extension -/
  preview : List UInt8 → String → String

/-- A `ValidationError` by its message, field and code -/
structure Invalid where
  message : String
  field : String
  code : Option String := none
deriving DecidableEq, Repr

/-- An attachment that is found -/
structure Resolved where
  id : String
  name : String
  type : Value
  path : String
  runtimeName : String
  containerPath : String
  preview : String
  size : Nat

/-- `CHAT_UPLOAD_EXTENSIONS` -/
def chatUploadExtensions : List String :=
  ["csv", "xlsx", "xls", "json", "parquet", "tsv", "zip",
    "png", "jpg", "jpeg", "gif", "pdf", "txt", "md"]

/-- `CHAT_FILE_ID_PATTERN` -/
def isFileId (value : String) : Bool :=
  value.toList.length == 32 && value.toList.all Service.isHexDigit

/-- `f"{file_id[:8]}_{safe_name}"` -/
def shortName (fileId safeName : String) : String :=
  Text.truncate 8 fileId ++ "_" ++ safeName

/-- `safe_name.rsplit(".", 1)[1].lower() if "." in safe_name else ""` -/
def nameExtension (name : String) : String :=
  if '.' ∈ name.toList then
    Text.lower (String.ofList (name.toList.reverse.takeWhile (· ≠ '.')).reverse)
  else ""

section

variable (library : Library)

/-- The id that is asked for -/
def itemId (item : List (String × Value)) : String :=
  Text.lower (Text.strip (library.str
    (((Value.lookup item "id").orElse (Value.lookup item "file_id")).orElse (.str ""))))

/-- The first file of an id, in the order of the names -/
def storedName (uploads : Uploads) (fileId : String) : Option String :=
  (Text.sorted (uploads.files.keys.filter (Text.startsWith (fileId ++ "_"))).toFinset).head?

/-- The name that an upload was given, made safe -/
def safeName (fileId stored : String) : String :=
  library.secureFilename (String.ofList (stored.toList.drop (fileId ++ "_").length))

/-- The name an attachment gets, where some names are in use -/
def runtimeName (used : List String) (fileId safeName : String) : String :=
  if safeName ∈ used then shortName fileId safeName else safeName

/-- One pass of the loop of `_resolve_chat_attachments` -/
def resolveItem (uploads : Option Uploads) (used : List String) (index : Nat)
    (item : List (String × Value)) : Except Invalid Resolved := do
  let fileId := itemId library item
  if !isFileId fileId then
    throw ⟨"attached_files[" ++ toString index ++ "].id non valido", "attached_files", none⟩
  else match uploads with
    | none => throw ⟨"File allegato non trovato", "attached_files", some "not_found"⟩
    | some uploads =>
        match storedName uploads fileId with
        | none => throw ⟨"File allegato non trovato", "attached_files", some "not_found"⟩
        | some stored =>
            let name := safeName library fileId stored
            if name = "" then throw ⟨"Nome file allegato non valido", "attached_files", none⟩
            else if nameExtension name ∉ chatUploadExtensions then
              throw ⟨"Formato file allegato non supportato", "attached_files", none⟩
            else
              let bytes := (uploads.files.get? stored).getD []
              let runtime := runtimeName used fileId name
              .ok {
                id := fileId
                name := name
                type := match library.guessType name with
                  | some type => .str type
                  | none => (Value.lookup item "type").orElse (.str "application/octet-stream")
                path := uploads.path stored
                runtimeName := runtime
                containerPath := "/data/" ++ runtime
                preview := library.preview bytes (nameExtension name)
                size := bytes.length }

/-- The loop of `_resolve_chat_attachments`, with the names that are in use -/
def resolveFrom (uploads : Option Uploads) (used : List String) (index : Nat) :
    List (List (String × Value)) → Except Invalid (List Resolved)
  | [] => .ok []
  | item :: rest => do
      let resolved ← resolveItem library uploads used index item
      let others ← resolveFrom uploads (used ++ [resolved.runtimeName]) (index + 1) rest
      return resolved :: others

/-- `_resolve_chat_attachments` -/
def resolveChatAttachments (uploads : Option Uploads)
    (attachedFiles : List (List (String × Value))) : Except Invalid (List Resolved) :=
  resolveFrom library uploads [] 0 attachedFiles

end

/-! ## The data directory -/

/-- A file that is handed to a run -/
structure DataFile where
  path : String
  runtimeName : String

/-- `code.encode("utf-8")` -/
def utf8 (code : String) : List UInt8 :=
  code.toByteArray.data.toList

/-- Copy a file into the data directory, if there is one. -/
def copyDataFile (uploads : Uploads) (directory : Dictionary String (List UInt8))
    (file : DataFile) : Dictionary String (List UInt8) :=
  match uploads.read file.path with
  | none => directory
  | some bytes =>
      let name := sanitizeFilename (if file.runtimeName = "" then
        String.ofList (Ingestion.pathName file.path) else file.runtimeName)
      if name = "" then directory else directory.set name bytes

/-- The data directory `_prepare_run_dirs` makes -/
def prepareRunDirs (uploads : Uploads) (code : String) (dataFiles : List DataFile) :
    Dictionary String (List UInt8) :=
  (dataFiles.foldl (copyDataFile uploads) .empty).set "run.py" (utf8 code)

/-- The data directory of a run with attachments -/
def dataDirectory (uploads : Uploads) (code : String) (attachments : List Resolved) :
    Dictionary String (List UInt8) :=
  prepareRunDirs uploads code
    (attachments.map fun resolved => ⟨resolved.path, resolved.runtimeName⟩)

/-- The program finds every attachment under its own name, and itself. -/
structure SeesEveryFile (uploads : Uploads) (code : String) (attachments : List Resolved) :
    Prop where
  apart : ∀ resolved ∈ attachments, ∀ other ∈ attachments, resolved.id ≠ other.id →
    resolved.runtimeName ≠ other.runtimeName
  found : ∀ resolved ∈ attachments, ∃ name bytes, resolved.containerPath = "/data/" ++ name ∧
    uploads.read resolved.path = some bytes ∧
      (dataDirectory uploads code attachments).get? name = some bytes
  program : (dataDirectory uploads code attachments).get? "run.py" = some (utf8 code)

/-! ## Names in use -/

/-- An attachment that is asked for: its id and its safe name -/
abbrev Request := String × String

/-- A name is in use after some attachments: one of them has it as its own, or one got it as its
short name because its own was in use. -/
inductive Taken : List Request → String → Prop
  | own {before after : List Request} {id name : String} :
      Taken (before ++ (id, name) :: after) name
  | short {before after : List Request} {id name : String} (taken : Taken before name) :
      Taken (before ++ (id, name) :: after) (shortName id name)

/-- The name that an attachment gets after others -/
def Gets (before : List Request) (request : Request) (name : String) : Prop :=
  (¬Taken before request.2 ∧ name = request.2) ∨
    (Taken before request.2 ∧ name = shortName request.1 request.2)

/-- No attachment that needs its short name finds it with another id. -/
def ShortNamesFree (requests : List Request) : Prop :=
  ∀ before id name after, requests = before ++ (id, name) :: after → Taken before name →
    ∀ prior other rest, before = prior ++ other :: rest → other.1 ≠ id →
      ¬Gets prior other (shortName id name)

def usedNames (requests : List Request) : List String :=
  requests.foldl (fun used request => used ++ [runtimeName used request.1 request.2]) []

theorem usedNames_append (before : List Request) (request : Request) :
    usedNames (before ++ [request]) =
      usedNames before ++ [runtimeName (usedNames before) request.1 request.2] := by
  rw [usedNames, List.foldl_append]
  rfl

theorem taken_append {before : List Request} {id own name : String} :
    Taken (before ++ [(id, own)]) name ↔
      Taken before name ∨ name = own ∨ Taken before own ∧ name = shortName id own := by
  constructor
  · intro taken
    generalize whole : before ++ [(id, own)] = requests at taken
    cases taken with
    | @own front back id' name =>
        cases back using List.reverseRecOn with
        | nil =>
            obtain ⟨-, last⟩ := List.append_inj' whole rfl
            cases last
            exact .inr (.inl rfl)
        | append_singleton back last =>
            have split : before ++ [(id, own)] = (front ++ (id', name) :: back) ++ [last] := by
              rw [whole]
              simp
            obtain ⟨rfl, -⟩ := List.append_inj' split rfl
            exact .inl .own
    | @short front back id' name' taken =>
        cases back using List.reverseRecOn with
        | nil =>
            obtain ⟨rfl, last⟩ := List.append_inj' whole rfl
            cases last
            exact .inr (.inr ⟨taken, rfl⟩)
        | append_singleton back last =>
            have split : before ++ [(id, own)] = (front ++ (id', name') :: back) ++ [last] := by
              rw [whole]
              simp
            obtain ⟨rfl, -⟩ := List.append_inj' split rfl
            exact .inl (.short taken)
  · have longer : ∀ {name : String}, Taken before name → Taken (before ++ [(id, own)]) name := by
      intro name taken
      cases taken with
      | own =>
          rw [List.append_assoc, List.cons_append]
          exact .own
      | short taken =>
          rw [List.append_assoc, List.cons_append]
          exact .short taken
    rintro (earlier | rfl | ⟨taken, rfl⟩)
    · exact longer earlier
    · exact .own
    · exact .short taken

theorem mem_usedNames {requests : List Request} {name : String} :
    name ∈ usedNames requests ↔ Taken requests name := by
  induction requests using List.reverseRecOn generalizing name with
  | nil =>
      constructor
      · rintro ⟨⟩
      · intro taken
        generalize whole : ([] : List Request) = requests at taken
        cases taken <;> simp at whole
  | append_singleton before request induction =>
      obtain ⟨id, own⟩ := request
      rw [usedNames_append, List.mem_append, List.mem_singleton, induction, taken_append,
        runtimeName]
      by_cases taken : Taken before own
      · rw [if_pos (induction.mpr taken)]
        constructor
        · rintro (earlier | short)
          · exact .inl earlier
          · exact .inr (.inr ⟨taken, short⟩)
        · rintro (earlier | rfl | ⟨-, short⟩)
          · exact .inl earlier
          · exact .inl taken
          · exact .inr short
      · rw [if_neg (mt induction.mp taken)]
        constructor
        · rintro (earlier | own)
          · exact .inl earlier
          · exact .inr (.inl own)
        · rintro (earlier | own | ⟨other, -⟩)
          · exact .inl earlier
          · exact .inr own
          · exact absurd other taken

/-- The name the loop gives is the one an attachment gets. -/
theorem gets_iff {before : List Request} {request : Request} {name : String} :
    Gets before request name ↔ name = runtimeName (usedNames before) request.1 request.2 := by
  rw [Gets, runtimeName]
  by_cases taken : Taken before request.2
  · simp [taken, mem_usedNames]
  · simp [taken, mem_usedNames]

/-- Names are in use once they are given. -/
theorem taken_of_gets {before after : List Request} {request : Request} {name : String}
    (gets : Gets before request name) : Taken (before ++ request :: after) name := by
  obtain ⟨id, own⟩ := request
  rcases gets with ⟨-, rfl⟩ | ⟨taken, rfl⟩
  · exact .own
  · exact .short taken

/-- Attachments of different ids get different names exactly if no short name is in use. -/
theorem shortNamesFree_iff (requests : List Request) : ShortNamesFree requests ↔
    ∀ before request after, requests = before ++ request :: after →
      ∀ prior other rest, before = prior ++ other :: rest → other.1 ≠ request.1 →
        ∀ name, Gets before request name → ¬Gets prior other name := by
  constructor
  · rintro free before ⟨id, own⟩ after shape prior other rest split different name gets earlier
    rcases gets with ⟨open_, rfl⟩ | ⟨taken, rfl⟩
    · rw [split] at open_
      exact open_ (taken_of_gets earlier)
    · exact free before id own after shape taken prior other rest split different earlier
  · intro apart before id own after shape taken prior other rest split different
    exact apart before (id, own) after shape prior other rest split different _
      (.inr ⟨taken, rfl⟩)

/-! ## What is resolved -/

section

variable {library : Library} {uploads : Uploads}

def Resolved.request (resolved : Resolved) : Request :=
  (resolved.id, resolved.name)

/-- The ids and the safe names of the attachments that are asked for -/
def requests (library : Library) (uploads : Uploads)
    (attachedFiles : List (List (String × Value))) : List Request :=
  attachedFiles.map fun item =>
    let fileId := itemId library item
    (fileId, safeName library fileId ((storedName uploads fileId).getD ""))

/-- An attachment that is resolved after others -/
structure IsResolved (library : Library) (uploads : Uploads) (before : List Request)
    (resolved : Resolved) : Prop where
  id : isFileId resolved.id = true
  extension : nameExtension resolved.name ∈ chatUploadExtensions
  nonempty : resolved.name ≠ ""
  gets : Gets before resolved.request resolved.runtimeName
  container : resolved.containerPath = "/data/" ++ resolved.runtimeName
  stored : ∃ stored, storedName uploads resolved.id = some stored ∧
    resolved.path = uploads.path stored ∧ resolved.name = safeName library resolved.id stored

theorem resolveItem_ok {before : List Request} {index : Nat} {item : List (String × Value)}
    {resolved : Resolved}
    (found : resolveItem library (some uploads) (usedNames before) index item = .ok resolved) :
    IsResolved library uploads before resolved ∧
      [resolved.request] = requests library uploads [item] := by
  unfold resolveItem at found
  dsimp only at found
  split at found
  · cases found
  · rename_i valid
    split at found
    · cases found
    · rename_i stored first
      split at found
      · cases found
      · rename_i nonempty
        split at found
        · cases found
        · rename_i extension
          rw [Except.ok.injEq] at found
          subst found
          refine ⟨?_, ?_⟩
          · exact {
              id := by simpa using valid
              extension := not_not.mp extension
              nonempty := nonempty
              gets := gets_iff.mpr rfl
              container := rfl
              stored := ⟨stored, first, rfl, rfl⟩ }
          · simp [requests, Resolved.request, first]

theorem resolveFrom_ok (before : List Request) {index : Nat}
    {items : List (List (String × Value))} {attachments : List Resolved}
    (found : resolveFrom library (some uploads) (usedNames before) index items =
      .ok attachments) :
    attachments.map Resolved.request = requests library uploads items ∧
      ∀ prior resolved rest, attachments = prior ++ resolved :: rest →
        IsResolved library uploads (before ++ prior.map Resolved.request) resolved := by
  induction items generalizing before index attachments with
  | nil =>
      cases found
      refine ⟨rfl, ?_⟩
      intro prior resolved rest shape
      simp at shape
  | cons item items induction =>
      unfold resolveFrom at found
      obtain ⟨first, here, found⟩ := Fallible.bind_ok found
      obtain ⟨others, later, found⟩ := Fallible.bind_ok found
      cases found
      obtain ⟨isFirst, request⟩ := resolveItem_ok here
      have used : usedNames before ++ [first.runtimeName] =
          usedNames (before ++ [first.request]) := by
        rw [usedNames_append, gets_iff.mp isFirst.gets]
      rw [used] at later
      obtain ⟨rest, isRest⟩ := induction _ later
      constructor
      · rw [List.map_cons, rest]
        have split : requests library uploads (item :: items) =
            requests library uploads [item] ++ requests library uploads items := rfl
        rw [split, ← request, List.singleton_append]
      · intro prior resolved more shape
        cases prior with
        | nil =>
            obtain ⟨rfl, -⟩ := List.cons.inj shape
            rw [List.map_nil, List.append_nil]
            exact isFirst
        | cons head prior =>
            obtain ⟨rfl, tail⟩ := List.cons.inj shape
            have position := isRest prior resolved more tail
            rwa [List.append_assoc, List.singleton_append] at position

/-! ## What is copied -/

theorem Uploads.read_path (uploads : Uploads) (name : String) :
    uploads.read (uploads.path name) = uploads.files.get? name := by
  have same : (fun entry : String × List UInt8 => uploads.path entry.1 == uploads.path name) =
      fun entry => entry.1 == name := by
    funext entry
    rw [Bool.eq_iff_iff, beq_iff_eq, beq_iff_eq, path, path, String.append_right_inj]
  rw [read, same, Dictionary.get?]

theorem isFilenameCharacter_of_isHexDigit {character : Char}
    (hex : Service.isHexDigit character = true) : isFilenameCharacter character = true := by
  have plain := Service.isPlain_of_isHexDigit hex
  simp only [Service.isPlain, Service.isWorkspaceCharacter, Bool.or_eq_true, beq_iff_eq] at plain
  simp only [isFilenameCharacter, Bool.or_eq_true, decide_eq_true_eq, List.mem_cons,
    List.not_mem_nil, or_false]
  tauto

theorem toList_shortName (id name : String) :
    (shortName id name).toList = id.toList.take 8 ++ '_' :: name.toList := by
  simp [shortName, Text.truncate]

/-- A name that is given is one that `sanitize_filename` leaves as it is. -/
theorem IsResolved.characters {before : List Request} {resolved : Resolved}
    (is : IsResolved library uploads before resolved) :
    ∀ character ∈ resolved.runtimeName.toList, isFilenameCharacter character = true := by
  obtain ⟨stored, -, -, name⟩ := is.stored
  have own : ∀ character ∈ resolved.name.toList, isFilenameCharacter character = true := by
    rw [name]
    exact library.secureFilename.characters _
  rcases is.gets with ⟨-, same⟩ | ⟨-, same⟩
  · rw [same]
    exact own
  · have digits := is.id
    rw [isFileId, Bool.and_eq_true, List.all_eq_true] at digits
    rw [same, toList_shortName]
    intro character member
    rcases List.mem_append.mp member with short | rest
    · exact isFilenameCharacter_of_isHexDigit (digits.2 character (List.mem_of_mem_take short))
    · rcases List.mem_cons.mp rest with rfl | later
      · rfl
      · exact own character later

theorem IsResolved.sanitized {before : List Request} {resolved : Resolved}
    (is : IsResolved library uploads before resolved) :
    sanitizeFilename resolved.runtimeName = resolved.runtimeName := by
  have all : resolved.runtimeName.toList.filter isFilenameCharacter =
      resolved.runtimeName.toList := List.filter_eq_self.mpr is.characters
  change String.ofList (resolved.runtimeName.toList.filter isFilenameCharacter) = _
  rw [all, String.ofList_toList]

theorem IsResolved.runtimeName_ne {before : List Request} {resolved : Resolved}
    (is : IsResolved library uploads before resolved) :
    resolved.runtimeName ≠ "" ∧ resolved.runtimeName ≠ "run.py" := by
  rcases is.gets with ⟨-, same⟩ | ⟨-, same⟩
  · refine ⟨same ▸ is.nonempty, ?_⟩
    intro program
    have extension := is.extension
    have name : resolved.name = "run.py" := same.symm.trans program
    rw [name] at extension
    exact absurd extension (by decide +kernel)
  · have underscore : '_' ∈ resolved.runtimeName.toList := by
      rw [same, toList_shortName]
      exact List.mem_append_right _ List.mem_cons_self
    constructor
    · intro empty
      rw [empty] at underscore
      cases underscore
    · intro program
      rw [program] at underscore
      exact absurd underscore (by decide)

/-- A file of which there are the bytes is found in the directory under its name, if no file of
other bytes has the name. -/
theorem get?_copyDataFiles (file : DataFile) {files : List DataFile} {bytes : List UInt8}
    (listed : file ∈ files)
    (sanitized : ∀ other ∈ files, sanitizeFilename other.runtimeName = other.runtimeName ∧
      other.runtimeName ≠ "")
    (same : ∀ other ∈ files, other.runtimeName = file.runtimeName →
      uploads.read other.path = some bytes) :
    (files.foldl (copyDataFile uploads) .empty).get? file.runtimeName = some bytes := by
  induction files using List.reverseRecOn with
  | nil => cases listed
  | append_singleton files last induction =>
      rw [List.foldl_append, List.foldl_cons, List.foldl_nil]
      have isLast : last ∈ files ++ [last] := by simp
      have kept := sanitized last isLast
      unfold copyDataFile
      by_cases here : last.runtimeName = file.runtimeName
      · rw [same last isLast here]
        simp only [if_neg kept.2, kept.1]
        rw [here, Dictionary.get?_set_self]
      · have earlier : file ∈ files := by
          rcases List.mem_append.mp listed with earlier | final
          · exact earlier
          · exact absurd (congrArg DataFile.runtimeName (List.mem_singleton.mp final).symm) here
        have before := induction earlier
          (fun other member => sanitized other (List.mem_append_left _ member))
          (fun other member => same other (List.mem_append_left _ member))
        cases uploads.read last.path with
        | none => exact before
        | some content =>
            simp only [if_neg kept.2, kept.1]
            rwa [Dictionary.get?_set_of_ne (Ne.symm here)]

/-- The upload that an id names is there. -/
theorem get?_storedName {fileId stored : String} (first : storedName uploads fileId = some stored) :
    ∃ bytes, uploads.files.get? stored = some bytes := by
  have member := List.mem_of_head? first
  rw [Finset.mem_sort, List.mem_toFinset, List.mem_filter] at member
  obtain ⟨entry, listed, rfl⟩ := List.mem_map.mp member.1
  exact ⟨entry.2, Dictionary.get?_eq_some.mpr listed⟩

/-- Attachments whose positions are known, of different ids, have different names. -/
theorem runtimeName_apart {attachments : List Resolved}
    (is : ∀ prior resolved rest, attachments = prior ++ resolved :: rest →
      IsResolved library uploads (prior.map Resolved.request) resolved) :
    ShortNamesFree (attachments.map Resolved.request) ↔
      ∀ before resolved after, attachments = before ++ resolved :: after →
        ∀ other ∈ before, other.id ≠ resolved.id → other.runtimeName ≠ resolved.runtimeName := by
  rw [shortNamesFree_iff]
  constructor
  · rintro apart before resolved after rfl other listed different same
    obtain ⟨prior, rest, rfl⟩ := List.append_of_mem listed
    have later := is _ _ _ rfl
    have earlier := is prior other (rest ++ resolved :: after) (by simp)
    refine apart _ resolved.request (after.map Resolved.request) (by simp)
      (prior.map Resolved.request) other.request (rest.map Resolved.request) (by simp)
      different _ later.gets ?_
    rw [← same]
    exact earlier.gets
  · rintro apart before request after shape prior other rest rfl different name gets earlier
    obtain ⟨front, back, rfl, split, last⟩ := List.map_eq_append_iff.mp shape
    obtain ⟨resolved, back, rfl, rfl, -⟩ := List.map_eq_cons_iff.mp last
    obtain ⟨first, middle, rfl, rfl, inner⟩ := List.map_eq_append_iff.mp split
    obtain ⟨former, middle, rfl, rfl, -⟩ := List.map_eq_cons_iff.mp inner
    have later := (is (first ++ former :: middle) resolved back rfl).gets
    have former_gets := (is first former (middle ++ resolved :: back) (by simp)).gets
    refine apart (first ++ former :: middle) resolved back rfl former (by simp) different ?_
    rw [gets_iff.mp former_gets, ← gets_iff.mp earlier, gets_iff.mp later, split,
      ← gets_iff.mp gets]

/-- The program finds every attachment exactly if no attachment whose name is in use finds its
short name given to another one. -/
theorem seesEveryFile_iff {attachedFiles : List (List (String × Value))}
    {attachments : List Resolved} (code : String)
    (found : resolveChatAttachments library (some uploads) attachedFiles = .ok attachments) :
    SeesEveryFile uploads code attachments ↔
      ShortNamesFree (requests library uploads attachedFiles) := by
  obtain ⟨asked, is⟩ := resolveFrom_ok [] found
  simp only [List.nil_append] at is
  rw [← asked, runtimeName_apart is]
  constructor
  · rintro sees before resolved after rfl other listed different
    exact sees.apart other (List.mem_append_left _ listed) resolved (by simp) different
  · intro apart
    have distinct : ∀ resolved ∈ attachments, ∀ other ∈ attachments, resolved.id ≠ other.id →
        resolved.runtimeName ≠ other.runtimeName := by
      intro resolved member other listed different same
      obtain ⟨before, after, rfl⟩ := List.append_of_mem member
      rcases List.mem_append.mp listed with earlier | later
      · exact apart before resolved after rfl other earlier (Ne.symm different) same.symm
      · rcases List.mem_cons.mp later with rfl | later
        · exact different rfl
        · obtain ⟨middle, rest, rfl⟩ := List.append_of_mem later
          exact apart (before ++ resolved :: middle) other rest (by simp) resolved (by simp)
            different same
    have somewhere : ∀ resolved ∈ attachments, ∃ before,
        IsResolved library uploads before resolved := by
      intro resolved member
      obtain ⟨before, after, shape⟩ := List.append_of_mem member
      exact ⟨_, is before resolved after shape⟩
    refine ⟨distinct, ?_, Dictionary.get?_set_self _ _ _⟩
    intro resolved member
    obtain ⟨before, isResolved⟩ := somewhere resolved member
    obtain ⟨stored, first, path, -⟩ := isResolved.stored
    obtain ⟨bytes, held⟩ := get?_storedName first
    have read : uploads.read resolved.path = some bytes := by
      rw [path, Uploads.read_path, held]
    refine ⟨resolved.runtimeName, bytes, isResolved.container, read, ?_⟩
    rw [dataDirectory, prepareRunDirs, Dictionary.get?_set_of_ne isResolved.runtimeName_ne.2]
    apply get?_copyDataFiles ⟨resolved.path, resolved.runtimeName⟩
    · exact List.mem_map_of_mem (f := fun resolved : Resolved =>
        DataFile.mk resolved.path resolved.runtimeName) member
    · intro file listed
      obtain ⟨other, among, rfl⟩ := List.mem_map.mp listed
      obtain ⟨prior, isOther⟩ := somewhere other among
      exact ⟨isOther.sanitized, isOther.runtimeName_ne.1⟩
    · intro file listed same
      obtain ⟨other, among, rfl⟩ := List.mem_map.mp listed
      obtain ⟨prior, isOther⟩ := somewhere other among
      obtain ⟨otherStored, otherFirst, otherPath, -⟩ := isOther.stored
      have sameId : other.id = resolved.id := by
        by_contra different
        exact distinct other among resolved member different same
      rw [sameId, first, Option.some.injEq] at otherFirst
      rw [otherPath, ← otherFirst, Uploads.read_path, held]

end

/-! ## A short name in use -/

namespace Library

/-- A library that guesses no types and shows no previews. -/
def sample : Library where
  str value := value.scalarText.getD ""
  secureFilename := .sample
  guessType _ := none
  preview _ _ := ""

end Library

/-- The id of so many equal digits -/
def equalDigits (digit : Char) : String :=
  String.ofList (List.replicate 32 digit)

def request (digit : Char) : List (String × Value) :=
  [("id", .str (equalDigits digit))]

/-- Three uploads, the first of which has for its name what is a short name of the third one -/
def clashing : Uploads where
  folder := "/uploads"
  files := ((Dictionary.empty.set (equalDigits '1' ++ "_00000000_x.csv") [1]).set
    (equalDigits '2' ++ "_x.csv") [2]).set (equalDigits '0' ++ "_x.csv") [0]

/-- The ids and the names that are given -/
def givenNames (outcome : Except Invalid (List Resolved)) : Option (List (String × String)) :=
  match outcome with
  | .ok attachments => some (attachments.map fun resolved => (resolved.id, resolved.runtimeName))
  | .error _ => none

theorem clashing_names :
    givenNames (resolveChatAttachments .sample (some clashing)
      [request '1', request '2', request '0']) =
    some [(equalDigits '1', "00000000_x.csv"), (equalDigits '2', "x.csv"),
      (equalDigits '0', "00000000_x.csv")] := by
  decide +kernel

/-- The third of three attachments gets the name of the first one. -/
theorem short_name_clashes : ∃ attachments,
    resolveChatAttachments .sample (some clashing) [request '1', request '2', request '0'] =
      .ok attachments ∧ ¬SeesEveryFile clashing "print(1)" attachments := by
  have names := clashing_names
  cases outcome : resolveChatAttachments .sample (some clashing)
      [request '1', request '2', request '0'] with
  | error invalid =>
      rw [outcome] at names
      cases names
  | ok attachments =>
      refine ⟨attachments, rfl, ?_⟩
      intro sees
      rw [outcome, givenNames, Option.some.injEq] at names
      have given : ∀ pair ∈ [(equalDigits '1', "00000000_x.csv"), (equalDigits '2', "x.csv"),
          (equalDigits '0', "00000000_x.csv")], ∃ resolved ∈ attachments,
            (resolved.id, resolved.runtimeName) = pair := by
        rw [← names]
        intro pair member
        obtain ⟨resolved, listed, same⟩ := List.mem_map.mp member
        exact ⟨resolved, listed, same⟩
      obtain ⟨first, one, firstPair⟩ := given _ List.mem_cons_self
      obtain ⟨third, three, thirdPair⟩ := given (equalDigits '0', "00000000_x.csv") (by simp)
      rw [Prod.mk.injEq] at firstPair thirdPair
      refine sees.apart first one third three ?_ (firstPair.2.trans thirdPair.2.symm)
      rw [firstPair.1, thirdPair.1]
      decide +kernel

/-- Two of them are told apart as soon as no short name is in use. -/
theorem two_attachments_iff : ∃ attachments,
    resolveChatAttachments .sample (some clashing) [request '1', request '2'] =
      .ok attachments ∧
    (SeesEveryFile clashing "print(1)" attachments ↔
      ShortNamesFree (requests .sample clashing [request '1', request '2'])) := by
  have names : givenNames (resolveChatAttachments .sample (some clashing)
      [request '1', request '2']) ≠ none := by
    decide +kernel
  cases outcome : resolveChatAttachments .sample (some clashing) [request '1', request '2'] with
  | error invalid =>
      rw [outcome] at names
      exact absurd rfl names
  | ok attachments => exact ⟨attachments, rfl, seesEveryFile_iff "print(1)" outcome⟩

end RAGuardian.Interpreter.Attachments
