import RAGuardian.Artifacts.Folders
import RAGuardian.Artifacts.Readability
import RAGuardian.Interpreter.RegularOutputs

/-! # Reclaiming the artifacts of a run

A run leaves pictures and a folder of its own, and a deletion later finds them by what the
response says of the run. -/

namespace RAGuardian.Interpreter

open Json (Value)
open Artifacts
open History (StoreError)

/-! ## The response -/

/-- What `execute` returns; nothing after an error. -/
def Outcome.result : Outcome → Option (List (String × Value))
  | .failed error none => some [("success", .bool false), ("error", .str error)]
  | .failed error (some runId) =>
      some [("success", .bool false), ("error", .str error), ("run_id", .str runId)]
  | .parsed success text error images runId =>
      some [("success", success), ("text", text), ("error", error),
        ("images", .list (images.map .str)), ("run_id", .str runId)]
  | .raised _ => none

def Outcome.images : Outcome → List String
  | .parsed _ _ _ images _ => images
  | .failed _ _ | .raised _ => []

/-- An attached file of a prepared turn -/
structure AttachedFile where
  id : Value
  name : Value
  kind : Value
  size : Value

/-- What the response takes from the prepared turn. -/
structure Prepared where
  model : Value
  provider : Value
  providerName : Value
  responseLanguage : Value
  attachedFiles : List AttachedFile
  context : Value
  sources : Value
  knowledgeBaseIds : Value
  knowledgeBaseId : Value
  rawConversationId : Value
  ragError : Value

/-- `if value: response[key] = value` -/
def whenSet (key : String) (value : Value) : List (String × Value) :=
  if value.truthy then [(key, value)] else []

/-- `_code_interpreter_response` -/
def codeInterpreterResponse (prepared : Prepared) (code : String)
    (result : List (String × Value)) : List (String × Value) :=
  [("type", .str "code_interpreter"), ("code", .str code), ("result", .dict result),
    ("model", prepared.model), ("provider", prepared.provider),
    ("provider_name", prepared.providerName),
    ("response_language", prepared.responseLanguage),
    ("attachments", .list (prepared.attachedFiles.map fun item =>
      .dict [("id", item.id), ("name", item.name), ("type", item.kind), ("size", item.size)])),
    ("context", prepared.context), ("sources", prepared.sources), ("usage", .null),
    ("knowledge_base_ids", prepared.knowledgeBaseIds)] ++
    whenSet "knowledge_base_id" prepared.knowledgeBaseId ++
    whenSet "conversation_id" prepared.rawConversationId ++
    whenSet "rag_warning" prepared.ragError

/-- The references of the response; without one there are none. -/
def responseReferences (rules : UrlRules) (prepared : Prepared) (code : String)
    (outcome : Outcome) : Except StoreError References :=
  match outcome.result with
  | none => .ok .empty
  | some result =>
      referencesFromResponsePayload rules (codeInterpreterResponse prepared code result)

/-! ## The folders of the workspace -/

/-- The folders of chat artifacts; the interpreter has made the last two. -/
structure Workspace where
  uploads : ArtifactFolder
  pics : Entries
  codeRuns : Entries

def addCopies (runId : String) (copies : Copies) (pics : Entries) : Entries :=
  copies.foldl (fun pics copy => pics.set (runId ++ "_" ++ copy.1) .file) pics

/-- The container is started in a folder of the run's own. -/
def Started (code : String) (issues : List String) : Prop :=
  code ≠ "" ∧ issues = []

instance (code : String) (issues : List String) : Decidable (Started code issues) :=
  inferInstanceAs (Decidable (_ ∧ _))

/-- The folders after a run. Nothing has the run's identifier before it. -/
def Workspace.after (workspace : Workspace) (runId code : String) (issues : List String)
    (copies : Copies) : ArtifactFolders where
  uploads := workspace.uploads
  pics := .directory (addCopies runId copies workspace.pics)
  codeRuns := .directory
    (if Started code issues then workspace.codeRuns.set runId .directory else workspace.codeRuns)

/-- The images are URLs of different pictures of the run, every picture that the run added
is among them, and a cleanup by the response leaves nothing of the run. -/
structure Reclaimed (rules : UrlRules) (prepared : Prepared) (workspace : Workspace)
    (strict : Bool) (runId code : String) (issues : List String) (outcome : Outcome)
    (copies : Copies) : Prop where
  distinct : outcome.images.Nodup
  returned : ∀ image ∈ outcome.images, ∃ name, image = "/code_pics/" ++ name ∧
    (workspace.after runId code issues copies).pics.get? name = some .file ∧
    runIdForImage name = some runId
  complete : ∀ copy ∈ copies, "/code_pics/" ++ runId ++ "_" ++ copy.1 ∈ outcome.images
  removed : ∃ references, responseReferences rules prepared code outcome = .ok references ∧
    (∀ copy ∈ copies, (cleanupWorkspaceArtifacts references strict
      (.plain (workspace.after runId code issues copies))).2.folders.pics.get?
        (runId ++ "_" ++ copy.1) = none) ∧
    (Started code issues → (cleanupWorkspaceArtifacts references strict
      (.plain (workspace.after runId code issues copies))).2.folders.codeRuns.get? runId = none)

/-! ## What the program reports -/

/-- What the loops make of the result of a run. -/
inductive Report
  | nothing
  | unusable
  | images (references : List Value)

section

variable (library : Library) (runId : String) (folder : Folder (List UInt8))

/-- A result that is no JSON counts as one without images. -/
def report : Report :=
  match folder.entries.get? "result.json" with
  | some (.file content) =>
      match library.loads content with
      | .ok .null => .nothing
      | .ok (.dict raw) =>
          match Settings.iterate (imageReferences raw) with
          | none => .unusable
          | some references => .images references
      | .ok _ => .unusable
      | .error (.value _) => .images []
      | .error (.other _) => .unusable
  | _ => .nothing

/-- A cleanup recognises a name that ends in `.png` after at least one more character. -/
def Recognised (name : String) : Prop :=
  4 < name.toList.length ∧ ".png".toList.isSuffixOf name.toList = true

instance (name : String) : Decidable (Recognised name) :=
  inferInstanceAs (Decidable (_ ∧ _))

/-- The image is left out, or copied under a name that a cleanup recognises. -/
def Fate.Fits : Fate → Prop
  | .failing => False
  | .absent => True
  | .copied name => Recognised name

/-- No error is raised by a run that succeeded, none is raised after a copy, and the copies
have recognised names. -/
def Reclaimable (statusCode : Int) : Prop :=
  match report library folder with
  | .nothing => True
  | .unusable => statusCode ≠ 0
  | .images references =>
      (∀ fate ∈ fates library runId folder (wantedImages folder references), fate.Fits) ∨
        (statusCode ≠ 0 ∧
          StopsAtOnce (fates library runId folder (wantedImages folder references)))

end

variable {library : Library} {runId code : String} {folder : Folder (List UInt8)}
variable {issues : List String}

/-! ## The outcome by the report -/

theorem find_result (library : Library) (regular : Regular folder) (host : Host (List UInt8)) :
    (∃ content, folder.entries.get? "result.json" = some (.file content) ∧
      folder.find library.openError host "result.json" = .file content) ∨
    (folder.entries.get? "result.json" = none ∧
      ∃ error, folder.find library.openError host "result.json" = .missing error) := by
  have simple : '/' ∉ "result.json".toList := by decide
  have readable : ¬ Unreadable "result.json" := by decide
  cases found : folder.entries.get? "result.json" with
  | none =>
      have unknown : "result.json" ∉ folder.entries.keys := by
        rw [Dictionary.mem_keys, found]
        simp
      exact .inr ⟨rfl, find_missing library folder host simple readable unknown⟩
  | some entry =>
      cases entry with
      | link target => exact absurd found (regular.solid "result.json" target)
      | file content =>
          refine .inl ⟨content, rfl, ?_⟩
          obtain ⟨special, short⟩ := not_or.mp readable
          rw [Folder.find, Folder.lead_name simple, if_neg special, if_neg short, found]

theorem execute_nothing (regular : Regular folder) (started : Started code issues)
    (nothing : report library folder = .nothing) (statusCode : Int)
    (logs : Except Failure String) (host : Host (List UInt8)) :
    execute library runId folder code issues (.exited statusCode logs) host =
      (withoutResult runId statusCode logs, []) := by
  have read : readResult library folder host = .ok none := by
    rcases find_result library regular host with
      ⟨content, stored, found⟩ | ⟨absent, error, missing⟩
    · rw [report, stored] at nothing
      rw [readResult, found]
      simp only at nothing ⊢
      split at nothing
      · rename_i loaded
        rw [loaded]
      · split at nothing
        · cases nothing
        · cases nothing
      · cases nothing
      · cases nothing
      · cases nothing
    · rw [readResult, missing]
  rw [execute_exited started.1 started.2, read]

theorem execute_unusable (regular : Regular folder) (started : Started code issues)
    (unusable : report library folder = .unusable) (statusCode : Int)
    (logs : Except Failure String) (host : Host (List UInt8)) :
    ∃ error, execute library runId folder code issues (.exited statusCode logs) host =
      (onError runId statusCode error, []) := by
  rw [execute_exited started.1 started.2]
  rcases find_result library regular host with
    ⟨content, stored, found⟩ | ⟨absent, error, missing⟩
  · rw [report, stored] at unusable
    rw [readResult, found]
    simp only at unusable ⊢
    split at unusable
    · cases unusable
    · rename_i raw loaded
      split at unusable
      · rename_i unlisted
        rw [loaded]
        refine ⟨library.notIterable (imageReferences raw), ?_⟩
        simp only [normaliseResult, unlisted]
      · cases unusable
    · rename_i raw notNull notDict loaded
      rw [loaded]
      cases raw with
      | null => exact absurd rfl notNull
      | dict entries => exact absurd rfl (notDict entries)
      | _ => exact ⟨_, rfl⟩
    · cases unusable
    · rename_i error loaded
      rw [loaded]
      exact ⟨error, rfl⟩
  · rw [report, absent] at unusable
    cases unusable

theorem execute_listed (regular : Regular folder) (started : Started code issues)
    {references : List Value} (listed : report library folder = .images references)
    (statusCode : Int) (logs : Except Failure String) (host : Host (List UInt8)) :
    ∃ raw, execute library runId folder code issues (.exited statusCode logs) host =
      @conclude runId statusCode raw
        (copyImages library runId folder host (wantedImages folder references) []) := by
  rcases find_result library regular host with
    ⟨content, stored, found⟩ | ⟨absent, error, missing⟩
  · rw [report, stored] at listed
    simp only at listed
    split at listed
    · cases listed
    · rename_i raw loaded
      split at listed
      · cases listed
      · rename_i iterated
        cases listed
        refine ⟨raw, execute_images started.1 started.2 ?_ iterated⟩
        rw [readResult, found]
        simp only [loaded]
    · cases listed
    · rename_i error loaded
      cases listed
      have none : Settings.iterate (imageReferences [("success", .bool false),
          ("error", .str ("Invalid result: " ++ error))]) = some [] := rfl
      refine ⟨_, execute_images started.1 started.2 ?_ none⟩
      rw [readResult, found]
      simp only [loaded]
    · cases listed
  · rw [report, absent] at listed
    cases listed

/-! ## The names of pictures -/

theorem isImageNameCharacter_of_sanitized {name : String} {character : Char}
    (member : character ∈ (sanitizeFilename name).toList) :
    isImageNameCharacter character = true := by
  rw [sanitizeFilename, String.toList_ofList] at member
  have kept := (List.mem_filter.mp member).2
  simp only [List.mem_cons, List.not_mem_nil, or_false, Bool.or_eq_true,
    decide_eq_true_eq] at kept
  simp only [isImageNameCharacter, Bool.or_eq_true, beq_iff_eq]
  tauto

theorem savedAs_eq_copied {name other : String}
    (copied : savedAs library runId name = .copied other) : other = name := by
  unfold savedAs at copied
  split at copied
  · cases copied
  · cases copied
    rfl

/-- Copies have names that passed the filter. -/
theorem fate_copied_characters {image : Image} {name : String}
    (copied : image.fate library runId folder = .copied name) :
    name.toList.all isImageNameCharacter = true := by
  have filtered : ∃ original, name = sanitizeFilename original := by
    cases image with
    | named reference =>
        cases reference with
        | str reference =>
            simp only [Image.fate] at copied
            split at copied
            · cases copied
            · split at copied
              · exact ⟨_, savedAs_eq_copied copied⟩
              · cases copied
        | _ => cases copied
    | scanned original =>
        simp only [Image.fate] at copied
        split at copied
        · cases copied
        · exact ⟨original, savedAs_eq_copied copied⟩
  obtain ⟨original, rfl⟩ := filtered
  rw [List.all_eq_true]
  exact fun character member => isImageNameCharacter_of_sanitized member

/-- The pattern of picture names, behind the identifier of a run. -/
theorem runIdForImage_append (hex : matchesRunId runId = true) {name : String}
    (characters : name.toList.all isImageNameCharacter = true) :
    runIdForImage (runId ++ "_" ++ name) = some runId ↔ Recognised name := by
  simp only [matchesRunId, Bool.and_eq_true, beq_iff_eq] at hex
  have parts : (runId ++ "_" ++ name).toList = runId.toList ++ '_' :: name.toList := by
    simp
  have digits : (runId ++ "_" ++ name).toList.take 12 = runId.toList := by
    rw [parts, ← hex.1, List.take_left]
  have rest : (runId ++ "_" ++ name).toList.drop 13 = name.toList := by
    rw [parts, List.append_cons]
    exact List.drop_left' (by simp [hex.1])
  have underscore : (runId ++ "_" ++ name).toList[12]? = some '_' := by
    rw [parts, List.getElem?_append_right (Nat.le_of_eq hex.1), hex.1]
    rfl
  simp only [runIdForImage, digits, rest, underscore, hex, characters, beq_self_eq_true,
    Bool.true_and, Bool.and_true, Recognised, String.ofList_toList, Bool.and_eq_true,
    decide_eq_true_eq, Nat.succ_le_iff]
  constructor
  · intro matched
    split at matched
    · rename_i recognised
      exact recognised
    · cases matched
  · intro recognised
    rw [if_pos recognised]

/-! ## The references of a response -/

section

variable {rules : UrlRules}

theorem lowerHex_codes {character : Char} (hex : isLowerHex character = true) :
    (48 ≤ character.toNat ∧ character.toNat ≤ 57) ∨
      (97 ≤ character.toNat ∧ character.toNat ≤ 102) := by
  simp only [isLowerHex, Bool.or_eq_true, Bool.and_eq_true, decide_eq_true_eq, Char.le_def,
    UInt32.le_iff_toNat_le] at hex
  exact hex

theorem isSpace_of_lowerHex {character : Char} (hex : isLowerHex character = true) :
    Text.isSpace character = false := by
  have codes := lowerHex_codes hex
  simp only [Text.isSpace, Bool.or_eq_false_iff, Bool.and_eq_false_iff, beq_eq_false_iff_ne,
    decide_eq_false_iff_not]
  omega

theorem toLower_of_lowerHex {character : Char} (hex : isLowerHex character = true) :
    character.toLower = character := by
  have codes := lowerHex_codes hex
  rcases Text.toLower_cases character with ⟨-, same⟩ | ⟨⟨above, below⟩, -⟩
  · exact same
  · have first : 65 ≤ character.toNat := UInt32.le_iff_toNat_le.mp above
    have last : character.toNat ≤ 90 := UInt32.le_iff_toNat_le.mp below
    omega

/-- The identifier of a run is its own text. -/
theorem identifierText_runId (hex : matchesRunId runId = true) :
    identifierText (.str runId) = some runId := by
  simp only [matchesRunId, Bool.and_eq_true, beq_iff_eq, List.all_eq_true] at hex
  have stripped : Text.strip runId = runId :=
    Text.strip_eq_self fun character member => isSpace_of_lowerHex (hex.2 character member)
  have lowered : Text.lower runId = runId := by
    rw [Text.lower, List.map_congr_left fun character member =>
      toLower_of_lowerHex (hex.2 character member), List.map_id', String.ofList_toList]
  rw [identifierText, Value.scalarText, Option.map_some, stripped, lowered]

theorem splitScheme_slash (rest : List Char) :
    splitScheme ('/' :: rest) = ("", '/' :: rest) := by
  unfold splitScheme
  rw [Text.partition]
  simp only [show ('/' == ':') = false from rfl]
  cases Text.partition ':' rest with
  | mk before after =>
      cases after with
      | none => rfl
      | some after => rfl

/-- The URL of a picture has no network location. -/
theorem urlsplit_picture (bare : rules.netlocRefused "" = false) (name : String) :
    ∃ parsed, urlsplit rules ("/code_pics/" ++ name) = .ok parsed := by
  have start : ("/code_pics/" ++ name).toList =
      '/' :: 'c' :: ("ode_pics/".toList ++ name.toList) := by
    rw [String.toList_append]
    rfl
  have trimmed : ("/code_pics/" ++ name).toList.dropWhile
      (fun character => character.toNat ≤ 0x20) = '/' :: 'c' :: ("ode_pics/".toList ++ name.toList) := by
    rw [start]
    rfl
  have kept : ∀ rest : List Char, ('/' :: 'c' :: rest).filter (fun character =>
      !(character == '\t' || character == '\r' || character == '\n')) =
        '/' :: 'c' :: rest.filter (fun character =>
          !(character == '\t' || character == '\r' || character == '\n')) := fun _ => rfl
  have local_ : ∀ rest : List Char,
      Text.afterPrefix? "//".toList ('/' :: 'c' :: rest) = none := fun _ => rfl
  rw [urlsplit]
  simp only [trimmed, kept, splitScheme_slash, local_]
  rw [if_neg (by simp [bare])]
  exact ⟨_, rfl⟩

/-- References can be taken from a response whose images are URLs of pictures, and the
identifier that it gives is among them. -/
theorem references_extracted (prepared : Prepared) (code : String)
    (bare : rules.netlocRefused "" = false) (result : List (String × Value))
    (images : List String)
    (listed : (Value.lookup result "images").orElse (.list []) = .list (images.map .str))
    (pictures : ∀ image ∈ images, ∃ name, image = "/code_pics/" ++ name) :
    ∃ references, referencesFromResponsePayload rules
        (codeInterpreterResponse prepared code result) = .ok references ∧
      ∀ identifier ∈ (identifierText ((Value.lookup result "run_id").orElse (.str ""))).filter
        matchesRunId, identifier ∈ references.runIds := by
  have attached : Value.lookup (codeInterpreterResponse prepared code result) "attachments" =
      .list (prepared.attachedFiles.map fun item => .dict
        [("id", item.id), ("name", item.name), ("type", item.kind), ("size", item.size)]) := rfl
  have held : Value.lookup (codeInterpreterResponse prepared code result) "result" =
      .dict result := rfl
  have readable : ∀ item ∈ images.map Value.str, ∃ name, publicImageName rules item = .ok name := by
    intro item member
    obtain ⟨image, among, rfl⟩ := List.mem_map.mp member
    obtain ⟨name, rfl⟩ := pictures image among
    refine publicImageName_returns_iff.mpr fun text same => ?_
    cases same
    exact urlsplit_picture bare name
  obtain ⟨names, read⟩ := mapM_returns_iff.mpr readable
  have iterated : iterate ((Value.list (prepared.attachedFiles.map fun item => .dict
      [("id", item.id), ("name", item.name), ("type", item.kind),
        ("size", item.size)])).orElse (.list [])) = .ok _ :=
    iterate_orElse_eq_ok.mpr ⟨fun _ => trivial, rfl⟩
  have pics : iterate ((Value.lookup result "images").orElse (.list [])) =
      .ok (images.map .str) := by
    rw [listed]
    rfl
  simp only [referencesFromResponsePayload, attached, held, History.bind_eq_ok]
  refine ⟨_, ⟨_, iterated, _, pics, names, read, rfl⟩, fun identifier given => ?_⟩
  exact List.mem_toFinset.mpr (List.mem_append_left _ (Option.mem_toList.mpr given))

/-- A response that gives the identifier of its run names the run. -/
theorem references_name_run (prepared : Prepared) (code : String)
    (hex : matchesRunId runId = true) (bare : rules.netlocRefused "" = false)
    (result : List (String × Value))
    (identified : Value.lookup result "run_id" = .str runId) (images : List String)
    (listed : (Value.lookup result "images").orElse (.list []) = .list (images.map .str))
    (pictures : ∀ image ∈ images, ∃ name, image = "/code_pics/" ++ name) :
    ∃ references, referencesFromResponsePayload rules
        (codeInterpreterResponse prepared code result) = .ok references ∧
      runId ∈ references.runIds := by
  obtain ⟨references, extracted, named⟩ :=
    references_extracted prepared code bare result images listed pictures
  refine ⟨references, extracted, named runId ?_⟩
  have truthy : (Value.str runId).truthy = true := by
    simp only [matchesRunId, Bool.and_eq_true, beq_iff_eq] at hex
    simp only [Value.truthy, bne_iff_ne, ne_eq]
    rintro rfl
    exact absurd hex.1 (by decide)
  rw [identified, Value.orElse, if_pos truthy, identifierText_runId hex]
  exact if_pos hex

end

/-! ## The cleanup of a run -/

theorem addCopies_of_file {key : String} (copies : Copies) {pics : Entries}
    (held : pics.get? key = some .file) : (addCopies runId copies pics).get? key = some .file := by
  induction copies generalizing pics with
  | nil => exact held
  | cons copy rest induction =>
      refine induction ?_
      rw [Dictionary.get?_set]
      split
      · rfl
      · exact held

/-- Every copy is a picture. -/
theorem addCopies_of_mem {name : String} {copies : Copies} (member : name ∈ copies.map Prod.fst)
    (pics : Entries) :
    (addCopies runId copies pics).get? (runId ++ "_" ++ name) = some .file := by
  induction copies generalizing pics with
  | nil => cases member
  | cons copy rest induction =>
      rcases List.mem_cons.mp member with rfl | later
      · exact addCopies_of_file rest (Dictionary.get?_set_self _ _ _)
      · exact induction later _

section

variable {references : References} {folders : ArtifactFolders}

/-- A cleanup removes the pictures of a run that the references name. -/
theorem cleanup_removes_picture (named : runId ∈ references.runIds) {name : String}
    (parsed : runIdForImage name = some runId) (held : folders.pics.get? name = some .file)
    (strict : Bool) :
    (cleanupWorkspaceArtifacts references strict (.plain folders)).2.folders.pics.get? name =
      none := by
  refine ArtifactFolder.clean_gone (fun entries =>
    pictureVictims references entries.keys) Cleaning.unlinkFileLike_works
      Cleaning.unlinkFileLike_shrinks held (by decide) fun entries _ stored => ?_
  exact mem_pictureVictims.mpr ⟨mem_keys_of_get? stored, .inr ⟨runId, parsed, named⟩⟩

/-- A cleanup removes the folder of a run that the references name. -/
theorem cleanup_removes_run (named : runId ∈ references.runIds)
    (hex : matchesRunId runId = true) (held : folders.codeRuns.get? runId = some .directory)
    (strict : Bool) :
    (cleanupWorkspaceArtifacts references strict (.plain folders)).2.folders.codeRuns.get? runId =
      none := by
  refine ArtifactFolder.clean_gone (fun _ =>
    (Text.sorted references.runIds).filter matchesRunId) Cleaning.removeRun_works
      Cleaning.removeRun_shrinks held (by decide) fun entries _ stored => ?_
  exact List.mem_filter.mpr ⟨(Finset.mem_sort _).mpr named, hex⟩

end

/-! ## Outcomes -/

section

variable {rules : UrlRules} {prepared : Prepared} {workspace : Workspace} {strict : Bool}

theorem Workspace.after_codeRuns (started : Started code issues) (copies : Copies) :
    (workspace.after runId code issues copies).codeRuns.get? runId = some .directory := by
  rw [Workspace.after, if_pos started]
  exact Dictionary.get?_set_self _ _ _

/-- Nothing is left of a run that never started. -/
theorem reclaimed_of_idle (bare : rules.netlocRefused "" = false)
    (idle : ¬ Started code issues) (error : String) :
    Reclaimed rules prepared workspace strict runId code issues (.failed error none) [] where
  distinct := List.nodup_nil
  returned := by simp [Outcome.images]
  complete := by simp
  removed := by
    obtain ⟨references, extracted, -⟩ := references_extracted prepared code bare
      [("success", .bool false), ("error", .str error)] [] rfl (by simp)
    exact ⟨references, extracted, by simp, fun started => absurd started idle⟩

/-- A failed run can be reclaimed if it has no pictures. -/
theorem reclaimed_failed_iff (hex : matchesRunId runId = true)
    (bare : rules.netlocRefused "" = false) (error : String) {copies : Copies} :
    Reclaimed rules prepared workspace strict runId code issues (.failed error (some runId))
      copies ↔ copies = [] := by
  constructor
  · intro reclaimed
    cases copies with
    | nil => rfl
    | cons copy rest => cases reclaimed.complete copy List.mem_cons_self
  · rintro rfl
    obtain ⟨references, extracted, named⟩ := references_name_run prepared code hex bare
      [("success", .bool false), ("error", .str error), ("run_id", .str runId)] rfl [] rfl (by simp)
    refine ⟨List.nodup_nil, by simp [Outcome.images], by simp, references, extracted, by simp, ?_⟩
    intro started
    exact cleanup_removes_run named hex (Workspace.after_codeRuns started []) strict

theorem pictureUrl_eq (runId name : String) :
    "/code_pics/" ++ runId ++ "_" ++ name = "/code_pics/" ++ (runId ++ "_" ++ name) := by
  rw [String.append_assoc, String.append_assoc, String.append_assoc]

/-- `result.get("images") or ()` -/
theorem orElse_images (images : List String) :
    (Value.list (images.map .str)).orElse (.list []) = .list (images.map .str) := by
  cases images with
  | nil => rfl
  | cons image rest => rfl

/-- A run with pictures can be reclaimed if a cleanup recognises their names. -/
theorem reclaimed_parsed_iff (hex : matchesRunId runId = true)
    (bare : rules.netlocRefused "" = false) (success text error : Value) {copies : Copies}
    (distinct : (copies.map Prod.fst).Nodup)
    (characters : ∀ name ∈ copies.map Prod.fst, name.toList.all isImageNameCharacter = true) :
    Reclaimed rules prepared workspace strict runId code issues (.parsed success text error
        (copies.map fun copy => "/code_pics/" ++ runId ++ "_" ++ copy.1) runId) copies ↔
      ∀ name ∈ copies.map Prod.fst, Recognised name := by
  constructor
  · intro reclaimed name member
    obtain ⟨copy, among, rfl⟩ := List.mem_map.mp member
    obtain ⟨stored, same, -, parsed⟩ := reclaimed.returned _ (List.mem_map_of_mem among)
    rw [pictureUrl_eq] at same
    rw [← (String.append_right_inj _).mp same] at parsed
    exact (runIdForImage_append hex (characters _ member)).mp parsed
  · intro recognised
    have parsed : ∀ copy ∈ copies, runIdForImage (runId ++ "_" ++ copy.1) = some runId := by
      intro copy member
      have named := List.mem_map_of_mem (f := Prod.fst) member
      exact (runIdForImage_append hex (characters _ named)).mpr (recognised _ named)
    have held : ∀ copy ∈ copies, (workspace.after runId code issues copies).pics.get?
        (runId ++ "_" ++ copy.1) = some .file := fun copy member =>
      addCopies_of_mem (List.mem_map_of_mem member) workspace.pics
    have pictures : ∀ image ∈ copies.map fun copy => "/code_pics/" ++ runId ++ "_" ++ copy.1,
        ∃ name, image = "/code_pics/" ++ name := by
      intro image member
      obtain ⟨copy, -, rfl⟩ := List.mem_map.mp member
      exact ⟨runId ++ "_" ++ copy.1, pictureUrl_eq runId copy.1⟩
    obtain ⟨references, extracted, named⟩ := references_name_run prepared code hex bare
      [("success", success), ("text", text), ("error", error),
        ("images", .list ((copies.map fun copy =>
          "/code_pics/" ++ runId ++ "_" ++ copy.1).map .str)), ("run_id", .str runId)]
      rfl _ (orElse_images (copies.map fun copy : String × List UInt8 =>
        "/code_pics/" ++ runId ++ "_" ++ copy.1))
      pictures
    refine ⟨?_, ?_, ?_, references, extracted, ?_, ?_⟩
    · have urls := distinct.map (f := fun name => "/code_pics/" ++ runId ++ "_" ++ name)
        fun _ _ same => (String.append_right_inj _).mp same
      rwa [List.map_map] at urls
    · intro image member
      obtain ⟨copy, among, rfl⟩ := List.mem_map.mp member
      exact ⟨runId ++ "_" ++ copy.1, pictureUrl_eq runId copy.1, held copy among,
        parsed copy among⟩
    · exact fun copy member => List.mem_map_of_mem member
    · exact fun copy member =>
        cleanup_removes_picture named (parsed copy member) (held copy member) strict
    · exact fun started =>
        cleanup_removes_run named hex (Workspace.after_codeRuns started copies) strict

/-- Nothing names a run that raised an error. -/
theorem not_reclaimed_raised (started : Started code issues) (error : String) (copies : Copies) :
    ¬ Reclaimed rules prepared workspace strict runId code issues (.raised error) copies := by
  rintro ⟨-, -, -, references, extracted, -, removed⟩
  cases extracted
  have gone := removed started
  simp only [cleanupWorkspaceArtifacts, cleanup_empty, WorkspaceFolder.folders,
    Workspace.after_codeRuns started] at gone
  cases gone

/-! ## Runs -/

/-- After an error a run can be reclaimed if it failed before a copy. -/
theorem reclaimed_onError_iff (hex : matchesRunId runId = true)
    (bare : rules.netlocRefused "" = false) (started : Started code issues) (statusCode : Int)
    (error : String) (copies : Copies) :
    Reclaimed rules prepared workspace strict runId code issues
      (onError runId statusCode error) copies ↔ statusCode ≠ 0 ∧ copies = [] := by
  unfold onError
  split
  · rename_i success
    exact iff_of_false (not_reclaimed_raised started error copies) fun held => held.1 success
  · rename_i failure
    rw [reclaimed_failed_iff hex bare]
    exact (and_iff_right failure).symm

theorem reclaimed_withoutResult (hex : matchesRunId runId = true)
    (bare : rules.netlocRefused "" = false) (statusCode : Int) (logs : Except Failure String) :
    Reclaimed rules prepared workspace strict runId code issues
      (withoutResult runId statusCode logs) [] := by
  unfold withoutResult
  split
  · exact (reclaimed_failed_iff hex bare _).mpr rfl
  · cases logs with
    | error failure => exact (reclaimed_failed_iff hex bare _).mpr rfl
    | ok logs => exact (reclaimed_failed_iff hex bare _).mpr rfl

/-- Fates that are no errors fit if the names of the copies are recognised. -/
theorem fits_iff {fates : List Fate} (succeed : Fate.failing ∉ fates) {names : List String}
    (copied : ∀ name, name ∈ names ↔ Fate.copied name ∈ fates) :
    (∀ fate ∈ fates, fate.Fits) ↔ ∀ name ∈ names, Recognised name := by
  constructor
  · intro fit name member
    exact fit _ ((copied name).mp member)
  · intro recognised fate member
    cases fate with
    | failing => exact succeed member
    | absent => trivial
    | copied name => exact recognised name ((copied name).mpr member)

/-- A run that started and exited leaves something that a cleanup cannot find, or returns less
than it copied, unless its report and its images are as they should be. -/
theorem reclaimed_exited_iff (hex : matchesRunId runId = true)
    (bare : rules.netlocRefused "" = false) (regular : Regular folder)
    (started : Started code issues) (statusCode : Int) (logs : Except Failure String)
    (host : Host (List UInt8)) :
    Reclaimed rules prepared workspace strict runId code issues
      (execute library runId folder code issues (.exited statusCode logs) host).1
      (execute library runId folder code issues (.exited statusCode logs) host).2 ↔
      Reclaimable library runId folder statusCode := by
  unfold Reclaimable
  cases reported : report library folder with
  | nothing =>
      rw [execute_nothing regular started reported]
      exact iff_of_true (reclaimed_withoutResult hex bare statusCode logs) trivial
  | unusable =>
      obtain ⟨error, returned⟩ := execute_unusable regular started reported statusCode logs host
      rw [returned, reclaimed_onError_iff hex bare started]
      simp
  | images references =>
      obtain ⟨raw, returned⟩ := execute_listed regular started reported statusCode logs host
      have listed : ∀ image ∈ wantedImages folder references, image.Listed folder :=
        fun image => wantedImages_listed
      rw [returned]
      by_cases fails : Fate.failing ∈ fates library runId folder (wantedImages folder references)
      · obtain ⟨copies, error, copied, nothing⟩ :=
          copyImages_failing regular host listed fails .empty
        have unfit : ¬ ∀ fate ∈ fates library runId folder (wantedImages folder references),
            fate.Fits := fun fit => fit _ fails
        rw [copied, conclude, reclaimed_onError_iff hex bare started, nothing]
        simp [unfit]
      · obtain ⟨copies, copied, saved, names⟩ := copyImages_ok regular host listed fails .empty
        have named : ∀ name, name ∈ copies.map Prod.fst ↔
            Fate.copied name ∈ fates library runId folder (wantedImages folder references) := by
          simpa using names
        have goesOn : ¬ StopsAtOnce (fates library runId folder (wantedImages folder references)) :=
          fun stops => fails (List.mem_of_find?_eq_some stops)
        have characters : ∀ name ∈ copies.map Prod.fst,
            name.toList.all isImageNameCharacter = true := by
          intro name member
          obtain ⟨image, -, fate⟩ := List.mem_map.mp ((named name).mp member)
          exact fate_copied_characters fate
        rw [copied, conclude, reclaimed_parsed_iff hex bare _ _ _ saved.distinct characters,
          ← fits_iff fails named]
        simp [goesOn]

end

/-- The artifacts of a run can be reclaimed in just those cases in which its container did not
exit, it left no result, or its images are copied without an error under names that a
cleanup recognises; after a failed run also if an error came before the first copy. -/
theorem reclaimed_iff (library : Library) {runId : String} (hex : matchesRunId runId = true)
    {folder : Folder (List UInt8)} (regular : Regular folder) {rules : UrlRules}
    (bare : rules.netlocRefused "" = false) (prepared : Prepared) (workspace : Workspace)
    (strict : Bool) (code : String) (issues : List String) (ended : Ended)
    (host : Host (List UInt8)) :
    Reclaimed rules prepared workspace strict runId code issues
      (execute library runId folder code issues ended host).1
      (execute library runId folder code issues ended host).2 ↔
      (Started code issues → ∀ statusCode logs, ended = .exited statusCode logs →
        Reclaimable library runId folder statusCode) := by
  by_cases started : Started code issues
  · cases ended with
    | exited statusCode logs =>
        rw [reclaimed_exited_iff hex bare regular started]
        constructor
        · rintro reclaimable _ _ _ ⟨rfl⟩
          exact reclaimable
        · intro reclaimable
          exact reclaimable started statusCode logs rfl
    | failed failure =>
        have returned : execute library runId folder code issues (.failed failure) host =
            (.failed failure.text (some runId), []) := by
          rw [execute, if_neg started.1, if_neg (not_not_intro started.2)]
        rw [returned]
        refine iff_of_true ((reclaimed_failed_iff hex bare _).mpr rfl) ?_
        rintro _ _ _ ⟨⟩
    | timedOut =>
        have returned : execute library runId folder code issues .timedOut host =
            (.failed "Execution timed out" (some runId), []) := by
          rw [execute, if_neg started.1, if_neg (not_not_intro started.2)]
        rw [returned]
        refine iff_of_true ((reclaimed_failed_iff hex bare _).mpr rfl) ?_
        rintro _ _ _ ⟨⟩
  · have returned : ∃ error, execute library runId folder code issues ended host =
        (.failed error none, []) := by
      unfold execute
      by_cases empty : code = ""
      · exact ⟨_, if_pos empty⟩
      · have unsafe_ : issues ≠ [] := fun safe => started ⟨empty, safe⟩
        exact ⟨_, by rw [if_neg empty, if_pos unsafe_]⟩
    obtain ⟨error, returned⟩ := returned
    rw [returned]
    exact iff_of_true (reclaimed_of_idle bare started error) fun held => absurd held started

/-! ## A vector image -/

/-- The result `"{}"` or one that names `plot.svg`. -/
def Library.pictured : Library where
  loads content :=
    if content = [123, 125] then .ok (.dict [])
    else .ok (.dict [("success", .bool true), ("images", .list [.str "plot.svg"])])
  openError _ _ := "cannot be opened"
  saveError _ := none
  notIterable _ := "object is not iterable"
  notPath _ := "argument should be a str"
  noGet _ := "object has no attribute 'get'"

/-- A run that saved a chart as `plot.svg`. -/
def svgOutputs : Folder (List UInt8) where
  place := ["o"]
  entries := (Dictionary.empty.set "result.json" (.file [91])).set "plot.svg" (.file [60])
  plain := by decide

/-- A run that saved a chart as `plot.png`. -/
def pngOutputs : Folder (List UInt8) where
  place := ["o"]
  entries := (Dictionary.empty.set "result.json" (.file [123, 125])).set "plot.png" (.file [137])
  plain := by decide

/-- A file whose name fits a directory. -/
def isShortFile : String × FolderEntry (List UInt8) → Bool
  | (name, .file _) => decide (name.utf8ByteSize ≤ 255)
  | (_, .link _) => false

theorem regular_of_files {folder : Folder (List UInt8)}
    (files : folder.entries.entries.all isShortFile = true) : Regular folder := by
  rw [List.all_eq_true] at files
  constructor
  · intro name target found
    cases files (name, .link target) (Dictionary.get?_eq_some.mp found)
  · intro name member
    obtain ⟨⟨name, entry⟩, listed, rfl⟩ := List.mem_map.mp member
    have kept := files (name, entry) listed
    cases entry with
    | file content => exact of_decide_eq_true kept
    | link target => cases kept

theorem svgOutputs_regular : Regular svgOutputs := regular_of_files (by decide)

theorem pngOutputs_regular : Regular pngOutputs := regular_of_files (by decide)

def Prepared.sample : Prepared where
  model := .str "m"
  provider := .str "p"
  providerName := .str "P"
  responseLanguage := .str "it"
  attachedFiles := []
  context := .str ""
  sources := .list []
  knowledgeBaseIds := .list []
  knowledgeBaseId := .null
  rawConversationId := .null
  ragError := .null

def Workspace.sample : Workspace where
  uploads := .missing
  pics := .empty
  codeRuns := .empty

/-- The chart is returned to the user, and a cleanup by the response leaves its copy. -/
theorem svg_not_reclaimed :
    Regular svgOutputs ∧
    execute .pictured "a1b2c3d4e5f6" svgOutputs "plot()" [] (.exited 0 (.ok "")) bareHost =
      (.parsed (.bool true) (.str "") (.str "") ["/code_pics/a1b2c3d4e5f6_plot.svg"] "a1b2c3d4e5f6",
        [("plot.svg", [60])]) ∧
    ¬ Reclaimed ⟨fun _ => false⟩ .sample .sample false "a1b2c3d4e5f6" "plot()" []
      (execute .pictured "a1b2c3d4e5f6" svgOutputs "plot()" [] (.exited 0 (.ok "")) bareHost).1
      (execute .pictured "a1b2c3d4e5f6" svgOutputs "plot()" [] (.exited 0 (.ok ""))
        bareHost).2 := by
  have returned : execute .pictured "a1b2c3d4e5f6" svgOutputs "plot()" [] (.exited 0 (.ok ""))
      bareHost = (.parsed (.bool true) (.str "") (.str "")
        ["/code_pics/a1b2c3d4e5f6_plot.svg"] "a1b2c3d4e5f6", [("plot.svg", [60])]) := by
    rfl
  refine ⟨svgOutputs_regular, returned, ?_⟩
  rw [returned]
  intro reclaimed
  obtain ⟨name, same, -, parsed⟩ := reclaimed.returned _ List.mem_cons_self
  have url : "/code_pics/a1b2c3d4e5f6_plot.svg" = "/code_pics/" ++ "a1b2c3d4e5f6_plot.svg" := by
    decide
  rw [← (String.append_right_inj _).mp (url.symm.trans same)] at parsed
  exact absurd parsed (by decide)

/-- A chart saved as `plot.png` is reclaimed. -/
theorem png_reclaimed :
    Reclaimed ⟨fun _ => false⟩ .sample .sample true "a1b2c3d4e5f6" "plot()" []
      (execute .pictured "a1b2c3d4e5f6" pngOutputs "plot()" [] (.exited 0 (.ok "")) bareHost).1
      (execute .pictured "a1b2c3d4e5f6" pngOutputs "plot()" [] (.exited 0 (.ok ""))
        bareHost).2 := by
  refine (reclaimed_iff .pictured (by decide) pngOutputs_regular rfl .sample .sample true "plot()"
    [] (.exited 0 (.ok "")) bareHost).mpr ?_
  rintro - statusCode logs ⟨rfl⟩
  have reported : report .pictured pngOutputs = .images [] := rfl
  have copied : fates .pictured "a1b2c3d4e5f6" pngOutputs (wantedImages pngOutputs []) =
      [.copied "plot.png"] := by
    decide +kernel
  have recognised : Recognised "plot.png" := by decide
  rw [Reclaimable, reported]
  refine .inl fun fate member => ?_
  rw [copied, List.mem_singleton] at member
  rw [member]
  exact recognised

end RAGuardian.Interpreter
