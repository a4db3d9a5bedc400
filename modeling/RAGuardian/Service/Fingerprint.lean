import RAGuardian.Foundation.JsonText
import RAGuardian.Foundation.Keyed

/-! # Request fingerprints

A turn is identified by a hash of the parameters of its request. The parameters are
written as one JSON text, the keys of every dictionary in order. -/

namespace RAGuardian.Fingerprint

open Json (FloatText FloatValue IsJson)

/-! ## Arguments -/

/-- A key of a dictionary, other than a float -/
inductive Key
  | text (value : String)
  | integer (value : Int)
  | flag (value : Bool)
  | none
deriving DecidableEq, Repr

/-- A value as a caller may pass it. Tuples are lists, and an `object` is any other value by
its `str`. -/
inductive Argument
  | none
  | flag (value : Bool)
  | integer (value : Int)
  | float (value : FloatValue)
  | text (value : String)
  | list (items : List Argument)
  | dict (entries : List (Key × Argument))
  | object (text : String)
deriving Repr

namespace Key

def text? : Key → Option String
  | .text value => some value
  | _ => Option.none

/-- Integers and flags are ordered as numbers. -/
def number? : Key → Option Int
  | .integer value => some value
  | .flag value => some (if value then 1 else 0)
  | _ => Option.none

/-- What `json.dumps` makes of a key -/
def spelled : Key → String
  | .text value => value
  | .integer value => toString value
  | .flag value => if value then "true" else "false"
  | .none => "null"

/-- `str(key)` -/
def str : Key → String
  | .text value => value
  | .integer value => toString value
  | .flag value => if value then "True" else "False"
  | .none => "None"

end Key

/-! ## JSON texts of arguments -/

/-- `sorted(entries)`, or none for the `TypeError` of keys that are not comparable -/
def sortedEntries {α : Type} (entries : List (Key × α)) : Option (List (Key × α)) :=
  if entries.all fun entry => entry.1.text?.isSome then
    some (Keyed.sortBy (fun entry => entry.1.text?.getD "") entries)
  else if entries.all fun entry => entry.1.number?.isSome then
    some (Keyed.sortBy (fun entry => entry.1.number?.getD 0) entries)
  else if entries.length ≤ 1 then some entries
  else none

namespace Argument

mutual
/-- What `json.dumps` writes a value as, with `sort_keys` -/
def toJson : Argument → Option Json.Value
  | .none => some .null
  | .flag value => some (.bool value)
  | .integer value => some (.int value)
  | .float value => some (.float value)
  | .text value => some (.str value)
  | .list items => (toJsonItems items).map .list
  | .dict entries => do
      let members ← toJsonEntries entries
      let ordered ← sortedEntries members
      return .dict (ordered.map fun entry => (entry.1.spelled, entry.2))
  | .object _ => Option.none

def toJsonItems : List Argument → Option (List Json.Value)
  | [] => some []
  | item :: rest => do
      let first ← toJson item
      let others ← toJsonItems rest
      return first :: others

def toJsonEntries : List (Key × Argument) → Option (List (Key × Json.Value))
  | [] => some []
  | (key, value) :: rest => do
      let first ← toJson value
      let others ← toJsonEntries rest
      return (key, first) :: others
end

/-- `json.dumps(value, ensure_ascii=False, sort_keys=True, separators=(",", ":"))`, or none for
the `TypeError` -/
def dumps (value : Argument) : Option String :=
  value.toJson.bind (Json.Value.dumpsWith .canonical)

/-- `{str(key): value for key, value in sorted(entries, key=lambda pair: str(pair[0]))}` -/
def byString (entries : List (Key × Argument)) : List (Key × Argument) :=
  (Keyed.collect (fun entry => entry.1.str) (fun _ entry => entry.2)
    (Keyed.sortBy (fun entry => entry.1.str) entries)).entries.map fun entry =>
      (Key.text entry.1, entry.2)

mutual
/-- `_canonical_fingerprint_value` -/
def canonical : Argument → Argument
  | .dict entries => .dict (byString (canonicalEntries entries))
  | .list items => .list (canonicalItems items)
  | .object value => .text value
  | .none => .none
  | .flag value => .flag value
  | .integer value => .integer value
  | .float value => .float value
  | .text value => .text value

def canonicalItems : List Argument → List Argument
  | [] => []
  | item :: rest => canonical item :: canonicalItems rest

def canonicalEntries : List (Key × Argument) → List (Key × Argument)
  | [] => []
  | (key, value) :: rest => (key, canonical value) :: canonicalEntries rest
end

/-- `bool(value)` -/
def truthy : Argument → Bool
  | .none => false
  | .flag value => value
  | .integer value => value ≠ 0
  | .float value => value ≠ .finite "0.0" ∧ value ≠ .finite "-0.0"
  | .text value => value ≠ ""
  | .list items => items ≠ []
  | .dict entries => ¬entries.isEmpty
  | .object _ => true

/-- `str(value)`, where `repr` writes lists and dictionaries -/
def str (repr : Argument → String) : Argument → String
  | .none => "None"
  | .flag value => if value then "True" else "False"
  | .integer value => toString value
  | .float (.finite representation) => representation
  | .float (.infinity negative) => if negative then "-inf" else "inf"
  | .float .nan => "nan"
  | .text value => value
  | .object value => value
  | .list items => repr (.list items)
  | .dict entries => repr (.dict entries)

end Argument

/-! ## Fingerprints -/

/-- A number of a request, a float by its representation -/
inductive Number
  | integer (value : Int)
  | float (representation : String)
deriving DecidableEq, Repr

/-- The library functions that a fingerprint is made with -/
structure Library where
  /-- `hashlib.sha256(text.encode("utf-8")).hexdigest()` -/
  sha256 : String → String
  /-- `round(float(value), 6)`, by its representation -/
  rounded : Number → String
  rounded_text : ∀ value, FloatText (rounded value)
  /-- `str(value)` of a list or a dictionary -/
  repr : Argument → String

/-- The arguments of `compute_request_fingerprint` -/
structure Request where
  query : String
  model : Option String
  provider : Option String
  temperature : Option Number
  k : Option Int
  knowledgeBaseIds : Option (List String)
  systemPromptId : Option String
  systemPromptScope : Option String
  agentId : Option String
  responseLanguage : Option String
  clientContext : Option (List (Key × Argument))
  useCodeInterpreter : Bool
  attachedFiles : Option (List Argument)
  extra : Option (List (Key × Argument))

/-- What a fingerprint says of an attachment -/
structure Attachment where
  id : String
  name : String
  type : String
  digest : String
deriving DecidableEq, Repr

section

variable (library : Library)

/-- `str(attachment.get(first) or attachment.get(second) or ... or "")` -/
def firstText (entries : List (Key × Argument)) (names : List String) : String :=
  let read (name : String) : Argument :=
    ((entries.find? fun entry => entry.1 = .text name).map Prod.snd).getD .none
  ((names.map read).find? Argument.truthy).elim "" (Argument.str library.repr)

def attachmentOf (entries : List (Key × Argument)) : Attachment where
  id := firstText library entries ["id", "file_id"]
  name := firstText library entries ["name"]
  type := firstText library entries ["type"]
  digest := firstText library entries ["digest", "sha256"]

/-- The attachments of a request. What is not a dictionary is passed over. -/
def Request.attachments (request : Request) : List Attachment :=
  (request.attachedFiles.getD []).filterMap fun item =>
    match item with
    | .dict entries => some (attachmentOf library entries)
    | _ => none

def Attachment.argument (attachment : Attachment) : Argument :=
  .dict [
    (.text "id", .text attachment.id),
    (.text "name", .text attachment.name),
    (.text "type", .text attachment.type),
    (.text "digest", .text attachment.digest)]

/-- `str(value or "")` -/
def textOf (value : Option String) : Argument :=
  .text (value.getD "")

/-- `payload` -/
def Request.payload (request : Request) : Argument :=
  .dict [
    (.text "query", .text request.query),
    (.text "model", textOf request.model),
    (.text "provider", textOf request.provider),
    (.text "temperature", request.temperature.elim .none fun temperature =>
      .float (.finite (library.rounded temperature))),
    (.text "k", request.k.elim .none .integer),
    (.text "knowledge_base_ids",
      .list ((Keyed.sortBy id (request.knowledgeBaseIds.getD [])).map .text)),
    (.text "system_prompt_id", textOf request.systemPromptId),
    (.text "system_prompt_scope", textOf request.systemPromptScope),
    (.text "agent_id", textOf request.agentId),
    (.text "response_language", textOf request.responseLanguage),
    (.text "client_context", .dict (request.clientContext.getD [])),
    (.text "use_code_interpreter", .flag request.useCodeInterpreter),
    (.text "attached_files", .list ((request.attachments library).map Attachment.argument)),
    (.text "extra", .dict (request.extra.getD []))]

/-- `compute_request_fingerprint`, or none if it raises -/
def computeRequestFingerprint (request : Request) : Option String :=
  let payload := request.payload library
  (payload.dumps.or payload.canonical.dumps).map library.sha256

end

end RAGuardian.Fingerprint
