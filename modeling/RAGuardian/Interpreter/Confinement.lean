import RAGuardian.Interpreter.Outputs

/-! # Reading only the outputs of the run

The host copies what a link leads to, so what the application returns depends on the host as
soon as a link that is read leads out of the output directory. -/

namespace RAGuardian.Interpreter

open Json (Value)

variable (library : Library) (runId : String) (folder : Folder (List UInt8))

/-- The image is read, and its path leads out of the output directory. -/
def Image.Strays (image : Image) (copies : Copies) : Prop :=
  ∃ path name, image.source library = .ok (path, name) ∧
    image.skipped copies name = false ∧ folder.Leaves path

/-- A host with no other files. -/
def bareHost : Host (List UInt8) := fun _ => .missing ""

/-- No image strays that the loops come to. -/
def ImagesStay : List Image → Copies → Prop
  | [], _ => True
  | image :: rest, copies =>
      ¬ image.Strays library folder copies ∧
        ∀ reached, copyImage library runId folder bareHost image copies = (reached, none) →
          ImagesStay rest reached

/-- Neither the result of the run nor an image that the loops come to is a link that leads
out of the output directory. -/
structure ResultStays : Prop where
  result : ¬ folder.Leaves "result.json"
  images : ∀ raw references,
    readResult library folder bareHost = .ok (some (.dict raw)) →
    Settings.iterate (imageReferences raw) = some references →
    ImagesStay library runId folder (wantedImages folder references) []

/-- A run whose outputs are read back has outputs that stay in their directory. -/
def Confined (code : String) (issues : List String) (ended : Ended) : Prop :=
  code ≠ "" → issues = [] → ∀ statusCode logs, ended = .exited statusCode logs →
    ResultStays library runId folder

variable {library runId folder}

/-! ## Images -/

theorem copyImage_of_stays {image : Image} {copies : Copies}
    (stays : ¬ image.Strays library folder copies) (host other : Host (List UInt8)) :
    copyImage library runId folder host image copies =
      copyImage library runId folder other image copies := by
  rw [copyImage, copyImage]
  cases source : image.source library with
  | error error => rfl
  | ok names =>
      obtain ⟨path, name⟩ := names
      cases skipped : image.skipped copies name with
      | true => simp [skipped]
      | false =>
          have inside : ¬ folder.Leaves path := fun leaves =>
            stays ⟨path, name, source, skipped, leaves⟩
          simp only
          rw [Folder.find_of_stays inside host other]

theorem copyImage_of_strays {image : Image} {copies : Copies}
    (strays : image.Strays library folder copies) (error : String) :
    copyImage library runId folder (fun _ => .failing error) image copies =
      (copies, some error) := by
  obtain ⟨path, name, source, skipped, leaves⟩ := strays
  rw [copyImage, source]
  simp only [skipped, Folder.find_of_leaves leaves]
  rfl

/-- An error that is not the known one. -/
theorem exists_other_error (known : Option String) : ∃ error, known ≠ some error := by
  cases known with
  | none => exact ⟨"", (Option.some_ne_none "").symm⟩
  | some text =>
      refine ⟨text ++ "!", fun same => ?_⟩
      have longer := congrArg String.length (Option.some.inj same)
      rw [String.length_append] at longer
      have one : "!".length = 1 := by decide
      omega

theorem copyImages_independent_iff (images : List Image) (copies : Copies) :
    Independent (fun host => copyImages library runId folder host images copies) ↔
      ImagesStay library runId folder images copies := by
  induction images generalizing copies with
  | nil => exact iff_of_true (fun _ _ => rfl) trivial
  | cons image rest induction =>
      constructor
      · intro independent
        have stays : ¬ image.Strays library folder copies := by
          intro strays
          obtain ⟨error, different⟩ := exists_other_error
            (copyImages library runId folder bareHost (image :: rest) copies).2
          have same := independent bareHost fun _ => .failing error
          simp only at same
          rw [same, copyImages, copyImage_of_strays strays] at different
          exact different rfl
        refine ⟨stays, fun reached copied => (induction reached).mp fun host other => ?_⟩
        have same := independent host other
        simp only [copyImages, copyImage_of_stays stays host bareHost,
          copyImage_of_stays stays other bareHost, copied] at same
        exact same
      · rintro ⟨stays, later⟩ host other
        simp only [copyImages]
        rw [copyImage_of_stays stays host bareHost, copyImage_of_stays stays other bareHost]
        cases copied : copyImage library runId folder bareHost image copies with
        | mk reached raised =>
            cases raised with
            | some error => rfl
            | none => exact (induction reached).mpr (later reached copied) host other

/-! ## The whole run -/

/-- What is returned once the images were copied. -/
def conclude (statusCode : Int) (raw : List (String × Value)) :
    Copies × Option String → Outcome × Copies
  | (copies, some error) => (onError runId statusCode error, copies)
  | (copies, none) =>
      (.parsed (Settings.getOr raw "success" (.bool false))
        (Settings.getOr raw "text" (.str "")) (Settings.getOr raw "error" (.str ""))
        (copies.map fun copy => "/code_pics/" ++ runId ++ "_" ++ copy.1) runId, copies)

theorem onError_injective {statusCode : Int} {error other : String}
    (same : onError runId statusCode error = onError runId statusCode other) : error = other := by
  rw [onError, onError] at same
  split at same
  · exact Outcome.raised.inj same
  · exact (Outcome.failed.inj same).1

theorem conclude_injective {statusCode : Int} {raw : List (String × Value)} :
    Function.Injective (@conclude runId statusCode raw) := by
  rintro ⟨copies, raised⟩ ⟨others, other⟩ same
  have outcome := congrArg Prod.fst same
  have copied := congrArg Prod.snd same
  cases raised with
  | none =>
      cases other with
      | none => exact congrArg (·, none) copied
      | some other =>
          simp only [conclude, onError] at outcome
          split at outcome <;> cases outcome
  | some error =>
      cases other with
      | none =>
          simp only [conclude, onError] at outcome
          split at outcome <;> cases outcome
      | some other => rw [onError_injective outcome, show copies = others from copied]

theorem execute_exited {code : String} {issues : List String} (nonempty : code ≠ "")
    (safe : issues = []) (statusCode : Int) (logs : Except Failure String)
    (host : Host (List UInt8)) :
    execute library runId folder code issues (.exited statusCode logs) host =
      match readResult library folder host with
      | .error error => (onError runId statusCode error, [])
      | .ok none => (withoutResult runId statusCode logs, [])
      | .ok (some raw) =>
          match normaliseResult library runId folder host raw with
          | (copies, .error error) => (onError runId statusCode error, copies)
          | (copies, .ok outcome) => (outcome, copies) := by
  rw [execute, if_neg nonempty]
  exact if_neg (not_not_intro safe)

theorem execute_images {code : String} {issues : List String} (nonempty : code ≠ "")
    (safe : issues = []) {statusCode : Int} {logs : Except Failure String}
    {host : Host (List UInt8)} {raw : List (String × Value)} {references : List Value}
    (read : readResult library folder host = .ok (some (.dict raw)))
    (listed : Settings.iterate (imageReferences raw) = some references) :
    execute library runId folder code issues (.exited statusCode logs) host =
      @conclude runId statusCode raw
        (copyImages library runId folder host (wantedImages folder references) []) := by
  rw [execute_exited nonempty safe, read]
  simp only [normaliseResult, listed]
  cases copyImages library runId folder host (wantedImages folder references) [] with
  | mk copies raised => cases raised <;> rfl

theorem readResult_of_stays (stays : ¬ folder.Leaves "result.json")
    (host other : Host (List UInt8)) :
    readResult library folder host = readResult library folder other := by
  rw [readResult, readResult, Folder.find_of_stays stays host other]

/-- A link in the place of the result that leads out shows whether something is there. -/
theorem execute_of_result_leaves {code : String} {issues : List String} (nonempty : code ≠ "")
    (safe : issues = []) (statusCode : Int) (logs : Except Failure String)
    (leaves : folder.Leaves "result.json") :
    ¬ Independent (execute library runId folder code issues (.exited statusCode logs)) := by
  intro independent
  have missing : readResult library folder bareHost = .ok none := by
    have nothing : folder.find library.openError bareHost "result.json" = .missing "" :=
      Folder.find_of_leaves leaves _
    rw [readResult, nothing]
  have failing : ∀ error, readResult library folder (fun _ => .failing error) = .error error := by
    intro error
    rw [readResult, Folder.find_of_leaves leaves]
  have returned : ∀ error, withoutResult runId statusCode logs = onError runId statusCode error := by
    intro error
    have same := congrArg Prod.fst (independent bareHost fun _ => .failing error)
    rw [execute_exited nonempty safe, execute_exited nonempty safe, missing, failing] at same
    exact same
  have known := onError_injective ((returned "").symm.trans (returned "!"))
  exact absurd known (by decide)

/-- Without a dictionary that lists images, nothing is copied. -/
theorem normaliseResult_of_unlisted {raw : Value}
    (unlisted : ∀ entries references, raw = .dict entries →
      Settings.iterate (imageReferences entries) ≠ some references)
    (host other : Host (List UInt8)) :
    normaliseResult library runId folder host raw =
      normaliseResult library runId folder other raw := by
  cases raw with
  | dict entries =>
      cases listed : Settings.iterate (imageReferences entries) with
      | none => rw [normaliseResult, normaliseResult, listed]
      | some references => exact absurd listed (unlisted entries references rfl)
  | _ => rfl

theorem execute_of_stays {code : String} {issues : List String} (nonempty : code ≠ "")
    (safe : issues = []) (statusCode : Int) (logs : Except Failure String)
    (stays : ResultStays library runId folder) :
    Independent (execute library runId folder code issues (.exited statusCode logs)) := by
  intro host other
  have read : ∀ host other, readResult library folder host = readResult library folder other :=
    readResult_of_stays stays.result
  by_cases listed : ∃ raw references,
      readResult library folder bareHost = .ok (some (.dict raw)) ∧
        Settings.iterate (imageReferences raw) = some references
  · obtain ⟨raw, references, found, iterated⟩ := listed
    rw [execute_images nonempty safe ((read host bareHost).trans found) iterated,
      execute_images nonempty safe ((read other bareHost).trans found) iterated]
    exact congrArg _ ((copyImages_independent_iff _ _).mpr
      (stays.images raw references found iterated) host other)
  · rw [execute_exited nonempty safe, execute_exited nonempty safe, read host bareHost,
      read other bareHost]
    cases found : readResult library folder bareHost with
    | error error => rfl
    | ok parsed =>
        cases parsed with
        | none => rfl
        | some raw =>
            have same : normaliseResult library runId folder host raw =
                normaliseResult library runId folder other raw :=
              normaliseResult_of_unlisted (fun entries references isDict iterated =>
                listed ⟨entries, references, by rw [found, isDict], iterated⟩) host other
            simp only [same]

/-- What a run returns and copies is the same on every host in just those cases in which
nothing that is read is a link out of the output directory. -/
theorem execute_independent_iff (code : String) (issues : List String) (ended : Ended) :
    Independent (execute library runId folder code issues ended) ↔
      Confined library runId folder code issues ended := by
  constructor
  · rintro independent nonempty safe statusCode logs rfl
    have result : ¬ folder.Leaves "result.json" := fun leaves =>
      execute_of_result_leaves nonempty safe statusCode logs leaves independent
    refine ⟨result, fun raw references read listed => ?_⟩
    refine (copyImages_independent_iff _ _).mp fun host other => ?_
    have same := independent host other
    rw [execute_images nonempty safe ((readResult_of_stays result host bareHost).trans read) listed,
      execute_images nonempty safe ((readResult_of_stays result other bareHost).trans read)
        listed] at same
    exact conclude_injective same
  · intro confined host other
    by_cases nonempty : code = ""
    · unfold execute
      rw [if_pos nonempty, if_pos nonempty]
    by_cases safe : issues = []
    · cases ended with
      | failed failure => rfl
      | timedOut => rfl
      | exited statusCode logs =>
          exact execute_of_stays nonempty safe statusCode logs
            (confined nonempty safe statusCode logs rfl) host other
    · unfold execute
      rw [if_neg nonempty, if_neg nonempty, if_pos safe, if_pos safe]

/-! ## Sanitized names -/

theorem slash_not_mem_sanitizeFilename (filename : String) :
    '/' ∉ (sanitizeFilename filename).toList := by
  rw [sanitizeFilename, String.toList_ofList, List.mem_filter]
  exact fun kept => absurd kept.2 (by decide)

/-! ## A picture that is a link -/

/-- The result `"{}"` can be read. -/
def Library.sample : Library where
  loads content :=
    if content = [123, 125] then .ok (.dict []) else .error (.value "Expecting value")
  openError _ _ := "cannot be opened"
  saveError _ := none
  notIterable _ := "object is not iterable"
  notPath _ := "argument should be a str"
  noGet _ := "object has no attribute 'get'"

/-- An empty result, and a link to a file elsewhere in the place of a picture. -/
def linkedPicture : Folder (List UInt8) where
  place := ["o"]
  entries := (Dictionary.empty.set "result.json" (.file [123, 125])).set "a.png" (.link "/e")
  plain := by decide

/-- The copy has the bytes of the host's file. -/
theorem linkedPicture_not_independent :
    ¬ Independent (execute .sample "r" linkedPicture "pass" [] (.exited 0 (.ok ""))) := by
  intro independent
  have copied : ∀ byte : UInt8, byte = 1 ∨ byte = 2 →
      (execute .sample "r" linkedPicture "pass" [] (.exited 0 (.ok ""))
        fun _ => .file [byte]).2 = [("a.png", [byte])] := by
    rintro byte (rfl | rfl) <;> decide +kernel
  have same := congrArg Prod.snd (independent (fun _ => .file [1]) fun _ => .file [2])
  rw [copied 1 (.inl rfl), copied 2 (.inr rfl)] at same
  exact absurd same (by decide)

end RAGuardian.Interpreter
