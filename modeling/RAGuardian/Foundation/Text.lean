import Mathlib.Data.Finset.Sort
import Mathlib.Data.List.Basic
import Mathlib.Data.List.DropRight
import Mathlib.Data.String.Basic

/-! # Text primitives of the source language

The string methods the application relies on, over Unicode scalar values. -/

namespace RAGuardian.Text

/-- The characters for which `str.isspace` holds, which are the ones
`str.strip` and the argument-free `str.split` treat as white space. -/
def isSpace (character : Char) : Bool :=
  let code := character.toNat
  (0x09 ≤ code && code ≤ 0x0D) || (0x1C ≤ code && code ≤ 0x20) ||
    code == 0x85 || code == 0xA0 || code == 0x1680 ||
    (0x2000 ≤ code && code ≤ 0x200A) || code == 0x2028 || code == 0x2029 ||
    code == 0x202F || code == 0x205F || code == 0x3000

/-- Drop the members satisfying `test` from both ends. -/
def stripList (test : α → Bool) (values : List α) : List α :=
  ((values.dropWhile test).reverse.dropWhile test).reverse

theorem stripList_stripList (test : α → Bool) (values : List α) :
    stripList test (stripList test values) = stripList test values := by
  have ends : stripList test values = (values.dropWhile test).rdropWhile test := rfl
  have front : (stripList test values).dropWhile test = stripList test values := by
    rw [List.dropWhile_eq_self_iff]
    intro nonempty
    have kept : stripList test values <+: values.dropWhile test := by
      rw [ends]
      exact List.rdropWhile_prefix test _
    rw [kept.getElem nonempty]
    exact List.dropWhile_get_zero_not test values _
  rw [stripList, front]
  exact List.rdropWhile_idempotent test (values.dropWhile test)

theorem stripList_length_le (test : α → Bool) (values : List α) :
    (stripList test values).length ≤ values.length := by
  rw [stripList, List.length_reverse]
  refine (List.dropWhile_sublist _).length_le.trans ?_
  rw [List.length_reverse]
  exact (List.dropWhile_sublist _).length_le

/-- What is stripped does not begin with what is stripped off. -/
theorem stripList_head {test : α → Bool} {values rest : List α} {first : α}
    (stripped : stripList test values = first :: rest) : test first = false := by
  by_contra selected
  have again := stripList_stripList test values
  rw [stripped, stripList, List.dropWhile_cons_of_pos (by simpa using selected),
    ← stripList] at again
  have shorter := stripList_length_le test rest
  rw [again, List.length_cons] at shorter
  omega

theorem mem_of_mem_stripList {test : α → Bool} {values : List α} {value : α}
    (member : value ∈ stripList test values) : value ∈ values := by
  rw [stripList, List.mem_reverse] at member
  exact (List.dropWhile_sublist _).mem
    (List.mem_reverse.mp ((List.dropWhile_sublist _).mem member))

/-- Nothing is stripped off members that are not to be stripped. -/
theorem stripList_eq_self {test : α → Bool} {values : List α}
    (kept : ∀ value ∈ values, test value = false) : stripList test values = values := by
  have front : ∀ list : List α, (∀ value ∈ list, test value = false) →
      list.dropWhile test = list := by
    intro list plain
    rw [List.dropWhile_eq_self_iff]
    intro nonempty dropped
    rw [plain _ (List.getElem_mem nonempty)] at dropped
    cases dropped
  rw [stripList, front _ kept, front _ (by simpa using kept), List.reverse_reverse]

/-- Nothing is stripped off a list whose ends are not to be stripped. -/
theorem stripList_of_ends {test : α → Bool} {values : List α} (nonempty : values ≠ [])
    (first : test (values.head nonempty) = false)
    (last : test (values.getLast nonempty) = false) : stripList test values = values := by
  have front : values.dropWhile test = values := by
    rw [List.dropWhile_eq_self_iff]
    intro positive dropped
    rw [← List.head_eq_getElem nonempty, first] at dropped
    cases dropped
  have ends : stripList test values = (values.dropWhile test).rdropWhile test := rfl
  rw [ends, front, List.rdropWhile_eq_self_iff]
  intro _ dropped
  rw [last] at dropped
  cases dropped

/-- `value.strip()` -/
def strip (value : String) : String :=
  String.ofList (stripList isSpace value.toList)

theorem strip_strip (value : String) : strip (strip value) = strip value := by
  rw [strip, strip, String.toList_ofList, stripList_stripList]

theorem strip_eq_self {value : String}
    (kept : ∀ character ∈ value.toList, isSpace character = false) : strip value = value := by
  rw [strip, stripList_eq_self kept, String.ofList_toList]

/-- `value.lstrip()` -/
def lstrip (value : String) : String :=
  String.ofList (value.toList.dropWhile isSpace)

/-- `value.rstrip()` -/
def rstrip (value : String) : String :=
  String.ofList (value.toList.reverse.dropWhile isSpace).reverse

/-- The words of a character list, `pending` being the word read so far in
reverse. -/
def words (pending : List Char) : List Char → List String
  | [] => if pending.isEmpty then [] else [String.ofList pending.reverse]
  | character :: rest =>
      if isSpace character then
        if pending.isEmpty then words [] rest
        else String.ofList pending.reverse :: words [] rest
      else
        words (character :: pending) rest

/-- `value.split()` -/
def split (value : String) : List String :=
  words [] value.toList

/-- `value[:limit]` -/
def truncate (limit : Nat) (value : String) : String :=
  String.ofList (value.toList.take limit)

theorem truncate_truncate (limit : Nat) (value : String) :
    truncate limit (truncate limit value) = truncate limit value := by
  rw [truncate, truncate, String.toList_ofList, List.take_take, Nat.min_self]

/-- `value[-count:]` for a positive count. -/
def last (count : Nat) (value : String) : String :=
  String.ofList (value.toList.drop (value.toList.length - count))

/-- `value.lower()` on the ASCII letters. Identifier patterns below accept
ASCII only, and no other character lowers into that range. -/
def lower (value : String) : String :=
  String.ofList (value.toList.map Char.toLower)

/-- `value.startswith(prefix)`, returning what follows the prefix. -/
def afterPrefix? (start : List Char) (value : List Char) : Option (List Char) :=
  if start.isPrefixOf value then some (value.drop start.length) else none

/-- `value.startswith(start)` -/
def startsWith (start value : String) : Bool :=
  start.toList.isPrefixOf value.toList

theorem startsWith_iff {start value : String} :
    startsWith start value = true ↔ start.toList <+: value.toList := by
  rw [startsWith, List.isPrefixOf_iff_prefix]

theorem startsWith_append (start rest : String) : startsWith start (start ++ rest) = true := by
  rw [startsWith_iff, String.toList_append]
  exact List.prefix_append _ _

/-- Split at the first occurrence of a separator, which is dropped. The second
part is absent when the separator does not occur. -/
def partition (separator : Char) : List Char → List Char × Option (List Char)
  | [] => ([], none)
  | character :: rest =>
      if character == separator then ([], some rest)
      else
        let (before, after) := partition separator rest
        (character :: before, after)

theorem partition_append {separator : Char} {left : List Char} (absent : separator ∉ left)
    (right : List Char) : partition separator (left ++ separator :: right) = (left, some right) := by
  induction left with
  | nil => simp [partition]
  | cons character left induction =>
      rw [List.mem_cons, not_or] at absent
      have different : (character == separator) = false := by
        simpa using Ne.symm absent.1
      rw [List.cons_append, partition, different, induction absent.2]
      rfl

/-- What stands before the first separator, and what follows it, are determined. -/
theorem append_separator_inj {separator : Char} {first second left right : List Char}
    (firstFree : separator ∉ first) (secondFree : separator ∉ second) :
    first ++ separator :: left = second ++ separator :: right ↔
      first = second ∧ left = right := by
  constructor
  · intro same
    have parts := congrArg (partition separator) same
    rw [partition_append firstFree, partition_append secondFree] at parts
    simpa using parts
  · rintro ⟨rfl, rfl⟩
    rfl

theorem toString_natCast_injective {left right : Nat}
    (same : toString (left : Int) = toString (right : Int)) : left = right := by
  have digits : left.repr.toList = right.repr.toList := congrArg String.toList same
  rw [Nat.toList_repr, Nat.toList_repr] at digits
  have values := congrArg (fun characters => Nat.ofDigitChars 10 characters 0) digits
  rwa [Nat.ofDigitChars_ten_toDigits, Nat.ofDigitChars_ten_toDigits] at values

/-- `sorted(names)` -/
abbrev sorted (names : Finset String) : List String :=
  names.sort (· ≤ ·)

/-! ## ASCII letters and digits -/

theorem isAlphanum_iff {character : Char} : character.isAlphanum = true ↔
    (65 ≤ character.toNat ∧ character.toNat ≤ 90) ∨
      (97 ≤ character.toNat ∧ character.toNat ≤ 122) ∨
      (48 ≤ character.toNat ∧ character.toNat ≤ 57) := by
  have upper : character.isUpper = true ↔ 65 ≤ character.toNat ∧ character.toNat ≤ 90 := by
    change decide (character.val ≥ 'A'.val ∧ character.val ≤ 'Z'.val) = true ↔ _
    rw [decide_eq_true_eq, ge_iff_le, UInt32.le_iff_toNat_le, UInt32.le_iff_toNat_le]
    exact Iff.rfl
  have lower : character.isLower = true ↔ 97 ≤ character.toNat ∧ character.toNat ≤ 122 := by
    change (decide (character.val ≥ 'a'.val) && decide (character.val ≤ 'z'.val)) = true ↔ _
    rw [Bool.and_eq_true, decide_eq_true_eq, decide_eq_true_eq, ge_iff_le,
      UInt32.le_iff_toNat_le, UInt32.le_iff_toNat_le]
    exact Iff.rfl
  have digit : character.isDigit = true ↔ 48 ≤ character.toNat ∧ character.toNat ≤ 57 := by
    change (decide (character.val ≥ '0'.val) && decide (character.val ≤ '9'.val)) = true ↔ _
    rw [Bool.and_eq_true, decide_eq_true_eq, decide_eq_true_eq, ge_iff_le,
      UInt32.le_iff_toNat_le, UInt32.le_iff_toNat_le]
    exact Iff.rfl
  change ((character.isUpper || character.isLower) || character.isDigit) = true ↔ _
  rw [Bool.or_eq_true, Bool.or_eq_true, upper, lower, digit, or_assoc]

/-- What `toLower` does to a character -/
theorem toLower_cases (character : Char) :
    (¬(character.val ≥ 'A'.val ∧ character.val ≤ 'Z'.val) ∧ character.toLower = character) ∨
      ((character.val ≥ 'A'.val ∧ character.val ≤ 'Z'.val) ∧
        character.toLower.val = character.val + ('a'.val - 'A'.val)) := by
  by_cases upper : character.val ≥ 'A'.val ∧ character.val ≤ 'Z'.val
  · exact .inr ⟨upper, congrArg Char.val (dif_pos upper)⟩
  · exact .inl ⟨upper, dif_neg upper⟩

/-- `len(value.encode("utf-8"))` -/
def utf8Bytes (value : String) : Nat :=
  value.utf8ByteSize

example : strip "  a b \n" = "a b" := by decide

example : split " one\ttwo  three " = ["one", "two", "three"] := by decide

end RAGuardian.Text
