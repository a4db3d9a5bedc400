import RAGuardian.Foundation.Folder
import RAGuardian.Ingestion.Storage
import RAGuardian.Settings.Values

/-! # Outputs of a code run

How the host reads back what an executed program left in its output directory. -/

namespace RAGuardian.Interpreter

open Json (Value)

/-- An error of reading JSON: a `ValueError`, or another one such as a `RecursionError`. -/
inductive LoadError
  | value (error : String)
  | other (error : String)

/-- What the interpreter uses of the language and its library. -/
structure Library where
  /-- `json.loads` of the decoded text -/
  loads : List UInt8 → Except LoadError Value
  /-- The error of opening an entry of the output directory -/
  openError : PathError → String → String
  /-- The error of writing a copy of that name, if there is one -/
  saveError : String → Option String
  /-- The errors of iterating over a value, of `Path(value)`, and of `value.get` -/
  notIterable : Value → String
  notPath : Value → String
  noGet : Value → String

/-- An error of the container engine, or another one. -/
inductive Failure
  | imageNotFound
  | docker
  | other (error : String)
deriving DecidableEq, Repr

def Failure.text : Failure → String
  | .imageNotFound =>
      "Immagine Docker non trovata e auto-build non disponibile. " ++
      "Esegui: docker build -f Dockerfile.code-interpreter " ++
      "-t code-interpreter:latest . oppure abilita CODE_INTERPRETER_AUTO_BUILD=1."
  | .docker =>
      "Docker non disponibile per il code interpreter. " ++
      "Verifica che il daemon sia attivo e che l'immagine " ++
      "code-interpreter:latest sia stata creata."
  | .other error => error

/-- How the container ended, with the result of reading its logs. -/
inductive Ended
  | failed (failure : Failure)
  | timedOut
  | exited (statusCode : Int) (logs : Except Failure String)

/-- What `execute` returns, or the error it raises. -/
inductive Outcome
  | failed (error : String) (runId : Option String)
  | parsed (success text error : Value) (images : List String) (runId : String)
  | raised (error : String)

/-- The copies in the pictures directory: the name of the image and its bytes. -/
abbrev Copies := List (String × List UInt8)

/-- `sanitize_filename` -/
def sanitizeFilename (filename : String) : String :=
  String.ofList (filename.toList.filter fun character =>
    character.isAlphanum || character ∈ ['.', '_', '-'])

/-- An image to copy: one that the result names, or a file found by its suffix. -/
inductive Image
  | named (reference : Value)
  | scanned (name : String)

section

variable (library : Library) (runId : String) (folder : Folder (List UInt8))

/-- The path that is read for an image and the name of its copy. -/
def Image.source : Image → Except String (String × String)
  | .named (.str reference) =>
      let name := sanitizeFilename (String.ofList (Ingestion.pathName reference))
      .ok (name, name)
  | .named reference => .error (library.notPath reference)
  | .scanned name => .ok (name, sanitizeFilename name)

/-- The loops leave out images that were copied, and the second one also those without a
name. -/
def Image.skipped (image : Image) (copies : Copies) (name : String) : Bool :=
  name ∈ copies.map Prod.fst ||
    match image with
    | .named _ => false
    | .scanned _ => name == ""

/-- One round of a loop over images; the error is the one it raises. Only the first loop
checks that the file exists. -/
def copyImage (host : Host (List UInt8)) (image : Image) (copies : Copies) :
    Copies × Option String :=
  match image.source library with
  | .error error => (copies, some error)
  | .ok (path, name) =>
      if image.skipped copies name then (copies, none)
      else
        match folder.find library.openError host path with
        | .file content =>
            match library.saveError (runId ++ "_" ++ name) with
            | some error => (copies, some error)
            | none => (copies ++ [(name, content)], none)
        | .missing error =>
            match image with
            | .named _ => (copies, none)
            | .scanned _ => (copies, some error)
        | .failing error => (copies, some error)

def copyImages (host : Host (List UInt8)) : List Image → Copies → Copies × Option String
  | [], copies => (copies, none)
  | image :: rest, copies =>
      match copyImage library runId folder host image copies with
      | (copies, some error) => (copies, some error)
      | (copies, none) => copyImages host rest copies

/-- The images of `_normalise_result`: those of the result, then the files of
`output_dir.glob("*.png")`. -/
def wantedImages (references : List Value) : List Image :=
  references.map .named ++
    (folder.entries.keys.filter fun name => ".png".toList.isSuffixOf name.toList).map .scanned

/-- `raw.get("images") or []` -/
def imageReferences (raw : List (String × Value)) : Value :=
  (Value.lookup raw "images").orElse (.list [])

/-- `_read_result` -/
def readResult (host : Host (List UInt8)) : Except String (Option Value) :=
  match folder.find library.openError host "result.json" with
  | .missing _ => .ok none
  | .failing error => .error error
  | .file content =>
      match library.loads content with
      | .ok .null => .ok none
      | .ok raw => .ok (some raw)
      | .error (.value error) =>
          .ok (some (.dict
            [("success", .bool false), ("error", .str ("Invalid result: " ++ error))]))
      | .error (.other error) => .error error

/-- `_normalise_result`, with the copies it makes also when it raises an error. -/
def normaliseResult (host : Host (List UInt8)) : Value → Copies × Except String Outcome
  | .dict raw =>
      match Settings.iterate (imageReferences raw) with
      | none => ([], .error (library.notIterable (imageReferences raw)))
      | some references =>
          match copyImages library runId folder host (wantedImages folder references) [] with
          | (copies, some error) => (copies, .error error)
          | (copies, none) =>
              (copies, .ok (.parsed (Settings.getOr raw "success" (.bool false))
                (Settings.getOr raw "text" (.str "")) (Settings.getOr raw "error" (.str ""))
                (copies.map fun copy => "/code_pics/" ++ runId ++ "_" ++ copy.1) runId))
  | raw => ([], .error (library.noGet raw))

/-- The outcome of a run without a result. -/
def withoutResult (statusCode : Int) (logs : Except Failure String) : Outcome :=
  if statusCode = 0 then .failed "Execution produced no result" (some runId)
  else
    match logs with
    | .error failure => .failed failure.text (some runId)
    | .ok logs =>
        let text := Text.truncate 8192 (Text.strip logs)
        .failed (if text = "" then "Execution failed" else text) (some runId)

/-- An error is caught while the container is at hand, which it is no more after a run
that succeeded. -/
def onError (statusCode : Int) (error : String) : Outcome :=
  if statusCode = 0 then .raised error else .failed error (some runId)

/-- `execute`, from the issues of `check_code_safety` and the end of the container on. -/
def execute (code : String) (issues : List String) (ended : Ended) (host : Host (List UInt8)) :
    Outcome × Copies :=
  if code = "" then (.failed "Nessun codice fornito" none, [])
  else if issues ≠ [] then (.failed ("; ".intercalate issues) none, [])
  else
    match ended with
    | .failed failure => (.failed failure.text (some runId), [])
    | .timedOut => (.failed "Execution timed out" (some runId), [])
    | .exited statusCode logs =>
        match readResult library folder host with
        | .error error => (onError runId statusCode error, [])
        | .ok none => (withoutResult runId statusCode logs, [])
        | .ok (some raw) =>
            match normaliseResult library runId folder host raw with
            | (copies, .error error) => (onError runId statusCode error, copies)
            | (copies, .ok outcome) => (outcome, copies)

end

end RAGuardian.Interpreter
