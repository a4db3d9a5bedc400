import RAGuardian.Foundation.Json
import RAGuardian.Settings.Slug

/-! # Values of the settings

What the settings store reads from a JSON document that may hold anything: texts,
numbers between bounds, switches and lists of models. -/

namespace RAGuardian.Settings

open Json (Value)

/-- What the store uses of the language and its library. -/
structure Language where
  characters : Characters
  /-- `value.lower()` -/
  lower : String → String
  /-- `str(value)` of a list or a dictionary -/
  repr : Value → String
  /-- `int(value)` of a text -/
  parseInt : String → Option Int
  /-- `int(value)` of a finite float, by its representation -/
  truncate : String → Int

/-- A language with simple texts, whose texts hold no numbers. -/
def Language.sample : Language where
  characters := .sample
  lower := Text.lower
  repr _ := ""
  parseInt _ := none
  truncate _ := 0

/-- Entries of a dictionary. A key that is absent reads as `None`. -/
abbrev Entries := List (String × Value)

/-- `entries.get(key, default)` -/
def getOr (entries : Entries) (key : String) (default : Value) : Value :=
  ((entries.find? fun entry => entry.1 == key).map Prod.snd).getD default

variable (language : Language)

/-- `str(value)` -/
def Language.str (value : Value) : String :=
  value.scalarText.getD (language.repr value)

/-- `str(value or default).strip()` -/
def textOr (value : Value) (default : String) : String :=
  Text.strip (if value.truthy then language.str value else default)

/-- `for item in value` -/
def iterate : Value → Option (List Value)
  | .list items => some items
  | .dict entries => some (entries.map fun entry => .str entry.1)
  | .str text => some (text.toList.map fun character => .str (String.singleton character))
  | _ => none

/-! ## Numbers -/

/-- `int(value)`: a number, an error that is caught, or one that is not. -/
inductive Converted
  | number (value : Int)
  | invalid
  | overflow
deriving DecidableEq, Repr

def toInt : Value → Converted
  | .bool value => .number (if value then 1 else 0)
  | .int value => .number value
  | .float (.finite representation) => .number (language.truncate representation)
  | .float (.infinity _) => .overflow
  | .str text =>
      match language.parseInt text with
      | some value => .number value
      | none => .invalid
  | .float .nan | .null | .list _ | .dict _ | .object _ => .invalid

/-- The number of `_int_between` before it is clamped; `none` stands for the
`OverflowError` of an infinity. -/
def parsedInt (value : Value) (default : Int) : Option Int :=
  match toInt language value with
  | .number value => some value
  | .invalid => some default
  | .overflow => none

/-- `max(min_value, min(max_value, parsed))` -/
def clamp (minValue maxValue parsed : Int) : Int :=
  max minValue (min maxValue parsed)

/-- `_int_between` -/
def intBetween (value : Value) (minValue maxValue default : Int) : Option Int :=
  (parsedInt language value default).map (clamp minValue maxValue)

theorem le_clamp (minValue maxValue parsed : Int) : minValue ≤ clamp minValue maxValue parsed :=
  le_max_left _ _

/-! ## Switches -/

/-- `_as_bool` -/
def asBool (value : Value) (default : Bool) : Bool :=
  match value with
  | .null => default
  | .bool value => value
  | .int value => value ≠ 0
  | other =>
      language.lower (Text.strip (language.str other)) ∈
        ["1", "true", "yes", "y", "on", "enabled"]

/-! ## Models -/

/-- The characters at which `splitlines` ends a line. A carriage return with a line feed
ends one line, and here also an empty one, which no caller keeps. -/
def isLineEnd (character : Char) : Bool :=
  "\n\r\x0b\x0c\x1c\x1d\x1e\u0085\u2028\u2029".toList.contains character

/-- `str(raw or "").replace(",", "\n").splitlines()` -/
def splitModels (raw : Value) : List String :=
  let text := if raw.truthy then language.str raw else ""
  (text.toList.splitOnP fun character => character = ',' || isLineEnd character).map
    String.ofList

/-- The values that are kept: stripped, not empty, and each one once. -/
def distinctModels : List String → List String
  | [] => []
  | value :: rest =>
      let model := Text.strip value
      if model = "" then distinctModels rest
      else model :: (distinctModels rest).filter (· ≠ model)

/-- `parse_models` -/
def parseModels (raw : Value) : List String :=
  match raw with
  | .list values => distinctModels (values.map language.str)
  | other => distinctModels (splitModels language other)

/-- `_canonical_model_from_list` -/
def canonicalModelFromList (models : List String) (selectedModel : String) : Option String :=
  let selected := Text.strip selectedModel
  if selected = "" then none
  else if selected ∈ models then some selected
  else
    match models.filter fun model => language.lower model = language.lower selected with
    | [model] => some model
    | _ => none

variable {language}

theorem canonicalModelFromList_mem {models : List String} {selected model : String}
    (found : canonicalModelFromList language models selected = some model) : model ∈ models := by
  rw [canonicalModelFromList] at found
  split at found
  · cases found
  · split at found
    · rename_i member
      rw [← Option.some.inj found]
      exact member
    · split at found
      · rename_i matched same
        rw [← Option.some.inj found]
        have listed : matched ∈ models.filter fun model =>
            language.lower model = language.lower (Text.strip selected) := by
          rw [same]
          exact List.mem_singleton_self _
        exact List.mem_of_mem_filter listed
      · cases found

end RAGuardian.Settings
