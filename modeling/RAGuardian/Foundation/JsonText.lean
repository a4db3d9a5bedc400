import RAGuardian.Foundation.Json

/-! # Canonical JSON texts

The text `json.dumps` writes of a value determines the value. -/

namespace RAGuardian.Json

/-! ## Characters of texts -/

/-- Of a hexadecimal digit in lower case -/
def digitValue (character : Char) : Nat :=
  if character.toNat < 0x57 then character.toNat - 0x30 else character.toNat - 0x57

theorem digitValue_hexDigit {value : Nat} (small : value < 16) :
    digitValue (hexDigit value) = value := by
  have all : ∀ value : Fin 16, digitValue (hexDigit value) = value := by
    decide
  exact all ⟨value, small⟩

/-- The first character of a quoted text, and what follows it -/
def unescape : List Char → Option (Char × List Char)
  | '\\' :: 'u' :: _ :: _ :: high :: low :: rest =>
      some (Char.ofNat (16 * digitValue high + digitValue low), rest)
  | '\\' :: 'n' :: rest => some ('\n', rest)
  | '\\' :: 'r' :: rest => some ('\r', rest)
  | '\\' :: 't' :: rest => some ('\t', rest)
  | '\\' :: 'b' :: rest => some (Char.ofNat 0x08, rest)
  | '\\' :: 'f' :: rest => some (Char.ofNat 0x0C, rest)
  | '\\' :: character :: rest => some (character, rest)
  | character :: rest => some (character, rest)
  | [] => none

theorem unescape_escapeCharacter (character : Char) (rest : List Char) :
    unescape (escapeCharacter character ++ rest) = some (character, rest) := by
  rw [escapeCharacter]
  split
  · rename_i same
    rw [eq_of_beq same]
    rfl
  · split
    · rename_i same
      rw [eq_of_beq same]
      rfl
    · split
      · rename_i same
        rw [eq_of_beq same]
        rfl
      · split
        · rename_i same
          rw [eq_of_beq same]
          rfl
        · split
          · rename_i same
            rw [eq_of_beq same]
            rfl
          · split
            · rename_i same
              have code := Char.ofNat_toNat character
              rw [eq_of_beq same] at code
              rw [← code]
              rfl
            · split
              · rename_i same
                have code := Char.ofNat_toNat character
                rw [eq_of_beq same] at code
                rw [← code]
                rfl
              · split
                · have code : 16 * (character.toNat / 16) + character.toNat % 16 =
                      character.toNat := Nat.div_add_mod _ _
                  simp only [List.cons_append, List.nil_append, unescape]
                  rw [digitValue_hexDigit (by omega), digitValue_hexDigit (by omega), code,
                    Char.ofNat_toNat]
                · rename_i plain _ _ _ _ _ _
                  simp_all [unescape]

theorem escapeCharacter_inj {first second : Char} {left right : List Char}
    (same : escapeCharacter first ++ left = escapeCharacter second ++ right) :
    first = second ∧ left = right := by
  have read := unescape_escapeCharacter first left
  rw [same, unescape_escapeCharacter, Option.some.injEq, Prod.mk.injEq] at read
  exact ⟨read.1.symm, read.2.symm⟩

/-- No escape sequence starts with a quote. -/
theorem escapeCharacter_ne_quote (character : Char) (left right : List Char) :
    escapeCharacter character ++ left ≠ '"' :: right := by
  intro same
  have read := unescape_escapeCharacter character left
  have front : unescape ('"' :: right) = some ('"', right) := by
    simp [unescape]
  rw [same, front, Option.some.injEq, Prod.mk.injEq] at read
  rw [← read.1] at same
  have escaped : escapeCharacter '"' = ['\\', '"'] := by decide
  rw [escaped] at same
  cases same

theorem escaped_inj {first second left right : List Char}
    (same : first.flatMap escapeCharacter ++ '"' :: left =
      second.flatMap escapeCharacter ++ '"' :: right) : first = second ∧ left = right := by
  induction first generalizing second with
  | nil =>
      cases second with
      | nil => exact ⟨rfl, (List.cons.inj same).2⟩
      | cons character rest =>
          rw [List.flatMap_cons, List.append_assoc] at same
          exact absurd same.symm (escapeCharacter_ne_quote _ _ _)
  | cons character rest induction =>
      cases second with
      | nil =>
          rw [List.flatMap_cons, List.append_assoc] at same
          exact absurd same (escapeCharacter_ne_quote _ _ _)
      | cons other others =>
          rw [List.flatMap_cons, List.append_assoc, List.flatMap_cons, List.append_assoc] at same
          obtain ⟨rfl, tails⟩ := escapeCharacter_inj same
          obtain ⟨rfl, ends⟩ := induction tails
          exact ⟨rfl, ends⟩

theorem toList_quote (value : String) :
    (quote value).toList = '"' :: value.toList.flatMap escapeCharacter ++ ['"'] := by
  rw [quote, String.toList_ofList]

/-- A quoted text shows where it ends. -/
theorem quote_inj {first second : String} {left right : List Char}
    (same : (quote first).toList ++ left = (quote second).toList ++ right) :
    first = second ∧ left = right := by
  rw [toList_quote, toList_quote, List.cons_append, List.cons_append, List.cons_append,
    List.cons_append, List.cons.injEq, List.append_assoc, List.append_assoc] at same
  obtain ⟨texts, ends⟩ := escaped_inj same.2
  exact ⟨String.toList_inj.mp texts, ends⟩

/-! ## Numbers -/

/-- A character of a number -/
def isNumberCharacter (character : Char) : Bool :=
  character.isDigit || character ∈ ['-', '+', '.', 'e']

/-- What follows a number -/
def Ends (rest : List Char) : Prop :=
  ∀ character others, rest = character :: others → isNumberCharacter character = false

theorem ends_nil : Ends [] := by
  intro character others impossible
  cases impossible

theorem ends_cons {character : Char} {rest : List Char}
    (other : isNumberCharacter character = false) : Ends (character :: rest) := by
  intro first others same
  rw [(List.cons.inj same).1] at other
  exact other

/-- Numbers show where they end. -/
theorem number_inj {first second left right : List Char}
    (firstNumber : ∀ character ∈ first, isNumberCharacter character = true)
    (secondNumber : ∀ character ∈ second, isNumberCharacter character = true)
    (leftEnds : Ends left) (rightEnds : Ends right) (same : first ++ left = second ++ right) :
    first = second ∧ left = right := by
  induction first generalizing second with
  | nil =>
      cases second with
      | nil => exact ⟨rfl, same⟩
      | cons character rest =>
          have ended := leftEnds character (rest ++ right) same
          rw [secondNumber character List.mem_cons_self] at ended
          cases ended
  | cons character rest induction =>
      cases second with
      | nil =>
          have ended := rightEnds character (rest ++ left) same.symm
          rw [firstNumber character List.mem_cons_self] at ended
          cases ended
      | cons other others =>
          obtain ⟨rfl, tails⟩ := List.cons.inj same
          obtain ⟨rfl, ends⟩ := induction
            (fun character member => firstNumber character (List.mem_cons_of_mem _ member))
            (fun character member => secondNumber character (List.mem_cons_of_mem _ member)) tails
          exact ⟨rfl, ends⟩

theorem isDigit_of_mem_repr {value : Nat} {character : Char}
    (member : character ∈ value.repr.toList) : character.isDigit = true := by
  rw [Nat.toList_repr] at member
  exact Nat.isDigit_of_mem_toDigits (by decide) (by decide) member

theorem repr_ne_nil (value : Nat) : value.repr.toList ≠ [] := by
  rw [Nat.toList_repr]
  exact Nat.toDigits_ne_nil

theorem natRepr_injective {first second : Nat} (same : first.repr = second.repr) :
    first = second :=
  Text.toString_natCast_injective same

theorem toString_int_injective {first second : Int} (same : toString first = toString second) :
    first = second := by
  have signed : ∀ left right : Nat, left.repr ≠ "-" ++ right.repr := by
    intro left right impossible
    have digit : '-' ∈ left.repr.toList := by
      rw [impossible, String.toList_append]
      exact List.mem_append_left _ (by decide)
    exact absurd (isDigit_of_mem_repr digit) (by decide)
  cases first with
  | ofNat left =>
      cases second with
      | ofNat right => exact congrArg Int.ofNat (natRepr_injective same)
      | negSucc right => exact absurd same (signed _ _)
  | negSucc left =>
      cases second with
      | ofNat right => exact absurd same.symm (signed _ _)
      | negSucc right =>
          have digits : "-" ++ (left + 1).repr = "-" ++ (right + 1).repr := same
          have values := natRepr_injective ((String.append_right_inj _).mp digits)
          rw [Nat.add_right_cancel values]

/-- The characters of an integer, and the first of them -/
theorem toString_int_characters (value : Int) :
    (∀ character ∈ (toString value).toList, character.isDigit = true ∨ character = '-') ∧
      (toString value).toList ≠ [] := by
  cases value with
  | ofNat value =>
      exact ⟨fun character member => .inl (isDigit_of_mem_repr member), repr_ne_nil value⟩
  | negSucc value =>
      have spelled : (toString (Int.negSucc value)).toList = '-' :: (value + 1).repr.toList := by
        have text : toString (Int.negSucc value) = "-" ++ (value + 1).repr := rfl
        rw [text, String.toList_append]
        rfl
      rw [spelled]
      refine ⟨fun character member => ?_, List.cons_ne_nil _ _⟩
      rcases List.mem_cons.mp member with rfl | digit
      · exact .inr rfl
      · exact .inl (isDigit_of_mem_repr digit)

/-- The representation of a float, which is not the one of an integer -/
structure FloatText (text : String) : Prop where
  characters : ∀ character ∈ text.toList, isNumberCharacter character = true
  starts : ∃ character rest, text.toList = character :: rest ∧
    (character.isDigit = true ∨ character = '-')
  marked : '.' ∈ text.toList ∨ 'e' ∈ text.toList

/-! ## Values -/

/-- A value that a JSON document can hold -/
inductive IsJson : Value → Prop
  | null : IsJson .null
  | bool (value : Bool) : IsJson (.bool value)
  | int (value : Int) : IsJson (.int value)
  | float {representation : String} (text : FloatText representation) :
      IsJson (.float (.finite representation))
  | str (value : String) : IsJson (.str value)
  | list {items : List Value} (members : ∀ item ∈ items, IsJson item) : IsJson (.list items)
  | dict {entries : List (String × Value)} (members : ∀ entry ∈ entries, IsJson entry.2) :
      IsJson (.dict entries)

namespace Value

mutual
/-- What `json.dumps` writes of a value -/
def spell : Value → List Char
  | .null => ['n', 'u', 'l', 'l']
  | .bool true => ['t', 'r', 'u', 'e']
  | .bool false => ['f', 'a', 'l', 's', 'e']
  | .int value => (toString value).toList
  | .float (.finite representation) => representation.toList
  | .float _ => []
  | .str value => (quote value).toList
  | .list items => '[' :: spellItems items
  | .dict entries => '\x7b' :: spellEntries entries
  | .object _ => []

def spellItems : List Value → List Char
  | [] => [']']
  | item :: rest => spell item ++ spellMoreItems rest

def spellMoreItems : List Value → List Char
  | [] => [']']
  | item :: rest => ',' :: (spell item ++ spellMoreItems rest)

def spellEntries : List (String × Value) → List Char
  | [] => ['\x7d']
  | (key, value) :: rest => (quote key).toList ++ ':' :: (spell value ++ spellMoreEntries rest)

def spellMoreEntries : List (String × Value) → List Char
  | [] => ['\x7d']
  | (key, value) :: rest =>
      ',' :: ((quote key).toList ++ ':' :: (spell value ++ spellMoreEntries rest))
end

/-- What the text of a value starts with, a number starting with `0` -/
def lead : Value → Char
  | .null => 'n'
  | .bool true => 't'
  | .bool false => 'f'
  | .int _ | .float _ => '0'
  | .str _ => '"'
  | .list _ => '['
  | .dict _ => '\x7b'
  | .object _ => ' '

end Value

/-- A first character, up to the one of a number -/
def leadOf (character : Char) : Char :=
  if character.isDigit ∨ character = '-' then '0' else character

variable {value other : Value} {left right : List Char}

theorem spell_lead (json : IsJson value) :
    ∃ character rest, value.spell = character :: rest ∧ leadOf character = value.lead := by
  cases json with
  | null => exact ⟨_, _, rfl, by decide⟩
  | bool value => cases value <;> exact ⟨_, _, rfl, by decide⟩
  | int value =>
      obtain ⟨characters, nonempty⟩ := toString_int_characters value
      obtain ⟨character, rest, spelled⟩ := List.exists_cons_of_ne_nil nonempty
      refine ⟨character, rest, spelled, ?_⟩
      rw [leadOf, if_pos (characters character (spelled ▸ List.mem_cons_self))]
      rfl
  | float text =>
      obtain ⟨character, rest, spelled, starts⟩ := text.starts
      refine ⟨character, rest, spelled, ?_⟩
      rw [leadOf, if_pos starts]
      rfl
  | str value =>
      refine ⟨'"', value.toList.flatMap escapeCharacter ++ ['"'], ?_, by simp [leadOf, Value.lead]⟩
      rw [Value.spell, toList_quote]
      rfl
  | list members => exact ⟨_, _, rfl, by simp [leadOf, Value.lead]⟩
  | dict members => exact ⟨_, _, rfl, by simp [leadOf, Value.lead]⟩

/-- Texts of values that start alike -/
theorem lead_eq (json : IsJson value) (otherJson : IsJson other)
    (same : value.spell ++ left = other.spell ++ right) : other.lead = value.lead := by
  obtain ⟨character, rest, spelled, lead⟩ := spell_lead json
  obtain ⟨otherCharacter, otherRest, otherSpelled, otherLead⟩ := spell_lead otherJson
  rw [spelled, otherSpelled] at same
  rw [← lead, ← otherLead, (List.cons.inj same).1]

theorem eq_null (json : IsJson value) (lead : value.lead = 'n') : value = .null := by
  cases json with
  | null => rfl
  | bool flag => cases flag <;> simp [Value.lead] at lead
  | _ => simp [Value.lead] at lead

theorem eq_bool (json : IsJson value) {flag : Bool} (lead : value.lead = (Value.bool flag).lead) :
    value = .bool flag := by
  cases json with
  | bool other => cases flag <;> cases other <;> first | rfl | simp [Value.lead] at lead
  | _ => cases flag <;> simp [Value.lead] at lead

theorem eq_number (json : IsJson value) (lead : value.lead = '0') :
    (∃ number, value = .int number) ∨
      ∃ representation, value = .float (.finite representation) ∧ FloatText representation := by
  cases json with
  | int number => exact .inl ⟨number, rfl⟩
  | float text => exact .inr ⟨_, rfl, text⟩
  | bool flag => cases flag <;> simp [Value.lead] at lead
  | _ => simp [Value.lead] at lead

theorem eq_str (json : IsJson value) (lead : value.lead = '"') : ∃ text, value = .str text := by
  cases json with
  | str text => exact ⟨text, rfl⟩
  | bool flag => cases flag <;> simp [Value.lead] at lead
  | _ => simp [Value.lead] at lead

theorem eq_list (json : IsJson value) (lead : value.lead = '[') :
    ∃ items, value = .list items ∧ ∀ item ∈ items, IsJson item := by
  cases json with
  | list members => exact ⟨_, rfl, members⟩
  | bool flag => cases flag <;> simp [Value.lead] at lead
  | _ => simp [Value.lead] at lead

theorem eq_dict (json : IsJson value) (lead : value.lead = '\x7b') :
    ∃ entries, value = .dict entries ∧ ∀ entry ∈ entries, IsJson entry.2 := by
  cases json with
  | dict members => exact ⟨_, rfl, members⟩
  | bool flag => cases flag <;> simp [Value.lead] at lead
  | _ => simp [Value.lead] at lead

/-! ## Texts determine values -/

/-- A value is determined by its text, whatever follows. -/
def Determined (value : Value) : Prop :=
  ∀ other left right, IsJson other → Ends left → Ends right →
    value.spell ++ left = other.spell ++ right → value = other ∧ left = right

theorem ends_spellMoreItems (items : List Value) (rest : List Char) :
    Ends (Value.spellMoreItems items ++ rest) := by
  cases items <;> exact ends_cons (by decide)

theorem ends_spellMoreEntries (entries : List (String × Value)) (rest : List Char) :
    Ends (Value.spellMoreEntries entries ++ rest) := by
  cases entries <;> exact ends_cons (by decide)

theorem spellMoreItems_inj {items others : List Value}
    (determined : ∀ item ∈ items, Determined item) (json : ∀ item ∈ others, IsJson item)
    (same : Value.spellMoreItems items ++ left = Value.spellMoreItems others ++ right) :
    items = others ∧ left = right := by
  induction items generalizing others with
  | nil =>
      cases others with
      | nil => exact ⟨rfl, (List.cons.inj same).2⟩
      | cons other others => cases same
  | cons item items induction =>
      cases others with
      | nil => cases same
      | cons other others =>
          rw [Value.spellMoreItems, Value.spellMoreItems, List.cons_append, List.cons_append,
            List.cons.injEq, List.append_assoc, List.append_assoc] at same
          obtain ⟨rfl, tails⟩ := determined item List.mem_cons_self other _ _
            (json other List.mem_cons_self) (ends_spellMoreItems _ _) (ends_spellMoreItems _ _)
            same.2
          obtain ⟨rfl, rests⟩ := induction
            (fun item member => determined item (List.mem_cons_of_mem _ member))
            (fun item member => json item (List.mem_cons_of_mem _ member)) tails
          exact ⟨rfl, rests⟩

/-- No value starts with the bracket that closes a list. -/
theorem spell_ne_bracket (json : IsJson value) (left right : List Char) :
    value.spell ++ left ≠ ']' :: right := by
  intro same
  obtain ⟨character, rest, spelled, lead⟩ := spell_lead json
  rw [spelled] at same
  rw [(List.cons.inj same).1] at lead
  cases json with
  | bool flag => cases flag <;> simp [leadOf, Value.lead] at lead
  | _ => simp [leadOf, Value.lead] at lead

theorem spellItems_inj {items others : List Value}
    (determined : ∀ item ∈ items, Determined item) (itemsJson : ∀ item ∈ items, IsJson item)
    (json : ∀ item ∈ others, IsJson item)
    (same : Value.spellItems items ++ left = Value.spellItems others ++ right) :
    items = others ∧ left = right := by
  cases items with
  | nil =>
      cases others with
      | nil => exact ⟨rfl, (List.cons.inj same).2⟩
      | cons other others =>
          rw [Value.spellItems, Value.spellItems, List.append_assoc] at same
          exact absurd same.symm (spell_ne_bracket (json other List.mem_cons_self) _ _)
  | cons item items =>
      cases others with
      | nil =>
          rw [Value.spellItems, Value.spellItems, List.append_assoc] at same
          exact absurd same (spell_ne_bracket (itemsJson item List.mem_cons_self) _ _)
      | cons other others =>
          rw [Value.spellItems, Value.spellItems, List.append_assoc, List.append_assoc] at same
          obtain ⟨rfl, tails⟩ := determined item List.mem_cons_self other _ _
            (json other List.mem_cons_self) (ends_spellMoreItems _ _) (ends_spellMoreItems _ _)
            same
          obtain ⟨rfl, rests⟩ := spellMoreItems_inj
            (fun item member => determined item (List.mem_cons_of_mem _ member))
            (fun item member => json item (List.mem_cons_of_mem _ member)) tails
          exact ⟨rfl, rests⟩

/-- Entries are determined by their texts, the first one being given. -/
theorem spellEntry_inj {key otherKey : String} {value other : Value}
    {entries others : List (String × Value)} (determined : Determined value)
    (json : IsJson other)
    (same : (quote key).toList ++ ':' :: (value.spell ++ Value.spellMoreEntries entries) ++ left =
      (quote otherKey).toList ++ ':' :: (other.spell ++ Value.spellMoreEntries others) ++ right) :
    key = otherKey ∧ value = other ∧
      Value.spellMoreEntries entries ++ left = Value.spellMoreEntries others ++ right := by
  rw [List.append_assoc, List.append_assoc] at same
  obtain ⟨rfl, values⟩ := quote_inj same
  rw [List.cons_append, List.cons_append, List.cons.injEq, List.append_assoc,
    List.append_assoc] at values
  obtain ⟨rfl, tails⟩ := determined other _ _ json (ends_spellMoreEntries _ _)
    (ends_spellMoreEntries _ _) values.2
  exact ⟨rfl, rfl, tails⟩

theorem spellMoreEntries_inj {entries others : List (String × Value)}
    (determined : ∀ entry ∈ entries, Determined entry.2)
    (json : ∀ entry ∈ others, IsJson entry.2)
    (same : Value.spellMoreEntries entries ++ left = Value.spellMoreEntries others ++ right) :
    entries = others ∧ left = right := by
  induction entries generalizing others with
  | nil =>
      cases others with
      | nil => exact ⟨rfl, (List.cons.inj same).2⟩
      | cons other others => cases same
  | cons entry entries induction =>
      obtain ⟨key, value⟩ := entry
      cases others with
      | nil => cases same
      | cons other others =>
          obtain ⟨otherKey, other⟩ := other
          rw [Value.spellMoreEntries, Value.spellMoreEntries, List.cons_append, List.cons_append,
            List.cons.injEq] at same
          obtain ⟨rfl, rfl, tails⟩ := spellEntry_inj (determined _ List.mem_cons_self)
            (json _ List.mem_cons_self) same.2
          obtain ⟨rfl, rests⟩ := induction
            (fun entry member => determined entry (List.mem_cons_of_mem _ member))
            (fun entry member => json entry (List.mem_cons_of_mem _ member)) tails
          exact ⟨rfl, rests⟩

theorem spellEntries_inj {entries others : List (String × Value)}
    (determined : ∀ entry ∈ entries, Determined entry.2)
    (json : ∀ entry ∈ others, IsJson entry.2)
    (same : Value.spellEntries entries ++ left = Value.spellEntries others ++ right) :
    entries = others ∧ left = right := by
  cases entries with
  | nil =>
      cases others with
      | nil => exact ⟨rfl, (List.cons.inj same).2⟩
      | cons other others =>
          rw [Value.spellEntries, Value.spellEntries, toList_quote] at same
          cases same
  | cons entry entries =>
      obtain ⟨key, value⟩ := entry
      cases others with
      | nil =>
          rw [Value.spellEntries, Value.spellEntries, toList_quote] at same
          cases same
      | cons other others =>
          obtain ⟨otherKey, other⟩ := other
          rw [Value.spellEntries, Value.spellEntries] at same
          obtain ⟨rfl, rfl, tails⟩ := spellEntry_inj (determined _ List.mem_cons_self)
            (json _ List.mem_cons_self) same
          obtain ⟨rfl, rests⟩ := spellMoreEntries_inj
            (fun entry member => determined entry (List.mem_cons_of_mem _ member))
            (fun entry member => json entry (List.mem_cons_of_mem _ member)) tails
          exact ⟨rfl, rests⟩

theorem isNumberCharacter_of_mem_toString {value : Int} {character : Char}
    (member : character ∈ (toString value).toList) : isNumberCharacter character = true := by
  rcases (toString_int_characters value).1 character member with digit | rfl
  · rw [isNumberCharacter, digit, Bool.true_or]
  · decide

/-- No integer is written like a float. -/
theorem toString_ne_floatText (value : Int) {representation : String}
    (text : FloatText representation) : (toString value).toList ≠ representation.toList := by
  intro same
  have characters := (toString_int_characters value).1
  rw [same] at characters
  rcases text.marked with dot | exponent
  · rcases characters _ dot with digit | minus
    · exact absurd digit (by decide)
    · exact absurd minus (by decide)
  · rcases characters _ exponent with digit | minus
    · exact absurd digit (by decide)
    · exact absurd minus (by decide)

theorem determined_of_isJson (json : IsJson value) : Determined value := by
  induction json with
  | null =>
      intro other left right otherJson _ _ same
      obtain rfl := eq_null otherJson (lead_eq .null otherJson same)
      exact ⟨rfl, List.append_cancel_left same⟩
  | bool flag =>
      intro other left right otherJson _ _ same
      obtain rfl := eq_bool otherJson (lead_eq (.bool flag) otherJson same)
      exact ⟨rfl, List.append_cancel_left same⟩
  | int number =>
      intro other left right otherJson leftEnds rightEnds same
      rcases eq_number otherJson (lead_eq (.int number) otherJson same) with
        ⟨otherNumber, rfl⟩ | ⟨representation, rfl, text⟩
      · obtain ⟨texts, ends⟩ := number_inj
          (fun _ member => isNumberCharacter_of_mem_toString member)
          (fun _ member => isNumberCharacter_of_mem_toString member) leftEnds rightEnds same
        rw [toString_int_injective (String.toList_inj.mp texts)]
        exact ⟨rfl, ends⟩
      · exact absurd (number_inj (fun _ member => isNumberCharacter_of_mem_toString member)
          text.characters leftEnds rightEnds same).1 (toString_ne_floatText number text)
  | float text =>
      intro other left right otherJson leftEnds rightEnds same
      rcases eq_number otherJson (lead_eq (.float text) otherJson same) with
        ⟨number, rfl⟩ | ⟨otherRepresentation, rfl, otherText⟩
      · exact absurd (number_inj text.characters
          (fun _ member => isNumberCharacter_of_mem_toString member) leftEnds rightEnds
          same).1.symm (toString_ne_floatText number text)
      · obtain ⟨texts, ends⟩ := number_inj text.characters otherText.characters leftEnds rightEnds
          same
        rw [String.toList_inj.mp texts]
        exact ⟨rfl, ends⟩
  | str value =>
      intro other left right otherJson _ _ same
      obtain ⟨text, rfl⟩ := eq_str otherJson (lead_eq (.str value) otherJson same)
      obtain ⟨rfl, ends⟩ := quote_inj same
      exact ⟨rfl, ends⟩
  | list members determined =>
      intro other left right otherJson _ _ same
      obtain ⟨items, rfl, json⟩ := eq_list otherJson (lead_eq (.list members) otherJson same)
      rw [Value.spell, Value.spell, List.cons_append, List.cons_append, List.cons.injEq] at same
      obtain ⟨rfl, ends⟩ := spellItems_inj determined members json same.2
      exact ⟨rfl, ends⟩
  | dict members determined =>
      intro other left right otherJson _ _ same
      obtain ⟨entries, rfl, json⟩ := eq_dict otherJson (lead_eq (.dict members) otherJson same)
      rw [Value.spell, Value.spell, List.cons_append, List.cons_append, List.cons.injEq] at same
      obtain ⟨rfl, ends⟩ := spellEntries_inj determined json same.2
      exact ⟨rfl, ends⟩

theorem spell_injective (json : IsJson value) (otherJson : IsJson other)
    (same : value.spell = other.spell) : value = other :=
  (determined_of_isJson json other [] [] otherJson ends_nil ends_nil (by rw [same])).1

/-! ## Texts that are written -/

theorem toList_intercalate_items (item : Value) (items : List Value) :
    (String.intercalate "," ((item :: items).map fun item =>
      String.ofList item.spell)).toList ++ [']'] = Value.spellItems (item :: items) := by
  induction items generalizing item with
  | nil =>
      rw [List.map_singleton, String.intercalate_singleton, String.toList_ofList]
      rfl
  | cons next items induction =>
      have rest := induction next
      rw [List.map_cons] at rest
      rw [List.map_cons, List.map_cons, String.intercalate_cons_cons, String.toList_append,
        String.toList_append, String.toList_ofList, List.append_assoc, List.append_assoc, rest]
      rfl

theorem toList_intercalate_entries (entry : String × Value) (entries : List (String × Value)) :
    (String.intercalate "," ((entry :: entries).map fun entry =>
      quote entry.1 ++ ":" ++ String.ofList entry.2.spell)).toList ++ ['\x7d'] =
        Value.spellEntries (entry :: entries) := by
  obtain ⟨key, value⟩ := entry
  have front : (quote key ++ ":" ++ String.ofList value.spell).toList =
      (quote key).toList ++ ':' :: value.spell := by
    simp
  induction entries generalizing key value with
  | nil =>
      rw [List.map_singleton, String.intercalate_singleton, front, List.append_assoc]
      rfl
  | cons next entries induction =>
      obtain ⟨nextKey, next⟩ := next
      have rest := induction nextKey next (by simp)
      rw [List.map_cons] at rest
      rw [List.map_cons, List.map_cons, String.intercalate_cons_cons, String.toList_append,
        String.toList_append, front, List.append_assoc, List.append_assoc, rest,
        Value.spellEntries, List.append_assoc]
      rfl

theorem dumpsItems_eq {items : List Value}
    (written : ∀ item ∈ items, item.dumpsWith .canonical = some (String.ofList item.spell)) :
    Value.dumpsItems .canonical items = some (items.map fun item => String.ofList item.spell) := by
  induction items with
  | nil => rfl
  | cons item items induction =>
      rw [Value.dumpsItems, written item List.mem_cons_self,
        induction fun item member => written item (List.mem_cons_of_mem _ member)]
      rfl

theorem dumpsEntries_eq {entries : List (String × Value)}
    (written : ∀ entry ∈ entries,
      entry.2.dumpsWith .canonical = some (String.ofList entry.2.spell)) :
    Value.dumpsEntries .canonical entries = some (entries.map fun entry =>
      quote entry.1 ++ ":" ++ String.ofList entry.2.spell) := by
  induction entries with
  | nil => rfl
  | cons entry entries induction =>
      obtain ⟨key, value⟩ := entry
      have own := written (key, value) List.mem_cons_self
      rw [Value.dumpsEntries, own,
        induction fun entry member => written entry (List.mem_cons_of_mem _ member)]
      rfl

/-- What `json.dumps` writes of a value that a document can hold -/
theorem dumpsWith_eq_spell (json : IsJson value) :
    value.dumpsWith .canonical = some (String.ofList value.spell) := by
  induction json with
  | null => rfl
  | bool flag => cases flag <;> rfl
  | int number => rw [Value.dumpsWith, Value.spell, String.ofList_toList]
  | float text => rw [Value.dumpsWith, FloatValue.dumps, Value.spell, String.ofList_toList]
  | str text => rw [Value.dumpsWith, Value.spell, String.ofList_toList]
  | @list items members written =>
      rw [Value.dumpsWith, dumpsItems_eq written]
      refine congrArg some (String.toList_inj.mp ?_)
      rw [String.toList_ofList, Value.spell]
      cases items with
      | nil => rfl
      | cons item items =>
          rw [← toList_intercalate_items, String.toList_append, String.toList_append,
            List.append_assoc]
          rfl
  | @dict entries members written =>
      rw [Value.dumpsWith, dumpsEntries_eq written]
      refine congrArg some (String.toList_inj.mp ?_)
      rw [String.toList_ofList, Value.spell]
      cases entries with
      | nil => rfl
      | cons entry entries =>
          rw [← toList_intercalate_entries, String.toList_append, String.toList_append,
            List.append_assoc]
          rfl

end RAGuardian.Json
