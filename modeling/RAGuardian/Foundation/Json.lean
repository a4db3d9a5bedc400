import RAGuardian.Foundation.Text

/-! # JSON values and their encoding

Values as the application handles them, and `json.dumps` on them. -/

namespace RAGuardian.Json

/-- A floating-point number by its shortest representation. -/
inductive FloatValue
  | finite (representation : String)
  | infinity (negative : Bool)
  | nan
deriving DecidableEq, Repr

/-- Values handed to or obtained from `json`. Dictionaries keep their insertion
order. `object` stands for any other object, which no encoder accepts. -/
inductive Value
  | null
  | bool (value : Bool)
  | int (value : Int)
  | float (value : FloatValue)
  | str (value : String)
  | list (items : List Value)
  | dict (entries : List (String × Value))
  | object (typeName : String)
deriving Repr

/-- The spelling options of `json.dumps` the application uses. -/
structure Layout where
  itemSeparator : String
  keySeparator : String
  allowNan : Bool
deriving DecidableEq, Repr

/-- `json.dumps(value, ensure_ascii=False)` -/
def Layout.default : Layout := ⟨", ", ": ", true⟩

/-- `separators=(",", ":")` with `allow_nan=False` -/
def Layout.compact : Layout := ⟨",", ":", false⟩

/-- `separators=(",", ":")` -/
def Layout.canonical : Layout := ⟨",", ":", true⟩

def hexDigit (value : Nat) : Char :=
  if value < 10 then Char.ofNat (0x30 + value) else Char.ofNat (0x57 + value)

/-- The escape sequence of a character when `ensure_ascii` is off: quotes,
backslashes and the C0 controls. -/
def escapeCharacter (character : Char) : List Char :=
  if character == '"' then ['\\', '"']
  else if character == '\\' then ['\\', '\\']
  else if character == '\n' then ['\\', 'n']
  else if character == '\r' then ['\\', 'r']
  else if character == '\t' then ['\\', 't']
  else if character.toNat == 0x08 then ['\\', 'b']
  else if character.toNat == 0x0C then ['\\', 'f']
  else if character.toNat < 0x20 then
    ['\\', 'u', '0', '0', hexDigit (character.toNat / 16),
      hexDigit (character.toNat % 16)]
  else [character]

def quote (value : String) : String :=
  String.ofList ('"' :: value.toList.flatMap escapeCharacter ++ ['"'])

/-- The four hexadecimal digits of a UTF-16 code unit. -/
def codeUnit (value : Nat) : List Char :=
  ['\\', 'u', hexDigit (value / 4096 % 16), hexDigit (value / 256 % 16),
    hexDigit (value / 16 % 16), hexDigit (value % 16)]

/-- The escape sequence of a character when `ensure_ascii` is on. -/
def escapeAscii (character : Char) : List Char :=
  let code := character.toNat
  if code < 0x80 then escapeCharacter character
  else if code < 0x10000 then codeUnit code
  else
    codeUnit (0xD800 + (code - 0x10000) / 0x400) ++ codeUnit (0xDC00 + (code - 0x10000) % 0x400)

/-- `json.dumps(value)` of a text -/
def quoteAscii (value : String) : String :=
  String.ofList ('"' :: value.toList.flatMap escapeAscii ++ ['"'])

def FloatValue.dumps (allowNan : Bool) : FloatValue → Option String
  | .finite representation => some representation
  | .infinity negative =>
      if allowNan then some (if negative then "-Infinity" else "Infinity") else none
  | .nan => if allowNan then some "NaN" else none

namespace Value

mutual
/-- `json.dumps`; `none` stands for the `TypeError` or `ValueError` raised on
an object that has no encoding. -/
def dumpsWith (layout : Layout) : Value → Option String
  | .null => some "null"
  | .bool value => some (if value then "true" else "false")
  | .int value => some (toString value)
  | .float value => value.dumps layout.allowNan
  | .str value => some (quote value)
  | .list items => do
      let encoded ← dumpsItems layout items
      return "[" ++ layout.itemSeparator.intercalate encoded ++ "]"
  | .dict entries => do
      let encoded ← dumpsEntries layout entries
      return "\x7b" ++ layout.itemSeparator.intercalate encoded ++ "\x7d"
  | .object _ => none

def dumpsItems (layout : Layout) : List Value → Option (List String)
  | [] => some []
  | item :: rest => do
      let encoded ← dumpsWith layout item
      let others ← dumpsItems layout rest
      return encoded :: others

def dumpsEntries (layout : Layout) : List (String × Value) → Option (List String)
  | [] => some []
  | (key, value) :: rest => do
      let encoded ← dumpsWith layout value
      let others ← dumpsEntries layout rest
      return (quote key ++ layout.keySeparator ++ encoded) :: others
end

/-- `json.dumps(value, ensure_ascii=False)` -/
def dumps (value : Value) : Option String :=
  value.dumpsWith .default

/-- `bool(value)` -/
def truthy : Value → Bool
  | .null => false
  | .bool value => value
  | .int value => value != 0
  | .float value => value != .finite "0.0" && value != .finite "-0.0"
  | .str value => value != ""
  | .list items => !items.isEmpty
  | .dict entries => !entries.isEmpty
  | .object _ => true

/-- `left or right` -/
def orElse (left right : Value) : Value :=
  if left.truthy then left else right

/-- `entries.get(key)`, with `None` for an absent key. -/
def lookup (entries : List (String × Value)) (key : String) : Value :=
  ((entries.find? fun entry => entry.1 == key).map Prod.snd).getD .null

/-- `str(value)` of a scalar. The text of a list or dictionary starts with a
bracket, and no caller has a use for it. -/
def scalarText : Value → Option String
  | .null => some "None"
  | .bool value => some (if value then "True" else "False")
  | .int value => some (toString value)
  | .float (.finite representation) => some representation
  | .float (.infinity negative) => some (if negative then "-inf" else "inf")
  | .float .nan => some "nan"
  | .str value => some value
  | .list _ | .dict _ | .object _ => none

example : dumps (.dict [("id", .str "s1"), ("hits", .list [.int 2, .null])]) =
    some "\x7b\"id\": \"s1\", \"hits\": [2, null]\x7d" := by decide

end Value

/-- A JSON document as a TEXT column holds it: the text together with the value
it encodes, so that reading it back is the projection `value`. -/
structure Document where
  value : Value
  layout : Layout
  text : String
  encodes : value.dumpsWith layout = some text

/-- `json.dumps` in a given layout, keeping the value. -/
def Document.dumpsWith (layout : Layout) (value : Value) : Option Document :=
  match encoded : value.dumpsWith layout with
  | some text => some ⟨value, layout, text, encoded⟩
  | none => none

/-- `json.dumps(value, ensure_ascii=False)`, keeping the value. -/
def Document.dumps (value : Value) : Option Document :=
  Document.dumpsWith .default value

theorem Document.dumps_eq_some {value : Value} {document : Document}
    (dumped : Document.dumps value = some document) :
    document.value = value ∧ value.dumps = some document.text := by
  unfold Document.dumps Document.dumpsWith at dumped
  split at dumped
  · rename_i text encoded
    cases dumped
    exact ⟨rfl, encoded⟩
  · cases dumped

/-- A TEXT column read with `json.loads`: a document this store wrote, or a text
the decoder refuses. -/
inductive Column
  | document (stored : Document)
  | malformed (text : String)

/-- `json.loads(text or default)`; `none` stands for `JSONDecodeError`. -/
def Column.loads (default : Value) : Column → Option Value
  | .document stored => some stored.value
  | .malformed text => if text == "" then some default else none

def Column.isDocument : Column → Bool
  | .document _ => true
  | .malformed _ => false

theorem Column.loads_of_isDocument {column : Column} {default : Value}
    (wellFormed : column.isDocument = true) :
    ∃ value, column.loads default = some value := by
  cases column with
  | document stored => exact ⟨stored.value, rfl⟩
  | malformed text => cases wellFormed

end RAGuardian.Json
