import Mathlib.Data.List.Infix
import Mathlib.Data.String.Basic

/-! # Glob patterns

The patterns a key-value server matches its keys against: `*`, `?`, classes in brackets and
escapes. -/

namespace RAGuardian.Glob

inductive Token
  | anyText
  | anyCharacter
  | literal (character : Char)
  | oneOf (negated : Bool) (ranges : List (Char × Char))

/-- Whether tokens accept a whole text. -/
def accepts : List Token → List Char → Bool
  | [], text => text.isEmpty
  | .anyText :: rest, text => text.tails.any (accepts rest)
  | .anyCharacter :: rest, _ :: text => accepts rest text
  | .literal character :: rest, other :: text => character == other && accepts rest text
  | .oneOf negated ranges :: rest, other :: text =>
      (negated != ranges.any fun range =>
        (range.1 ≤ other && other ≤ range.2) || (range.2 ≤ other && other ≤ range.1)) &&
      accepts rest text
  | _ :: _, [] => false

/-- The ranges of a class, and what follows its bracket. -/
def ranges : List Char → List (Char × Char) × List Char
  | [] => ([], [])
  | '\\' :: character :: rest =>
      let (others, after) := ranges rest
      ((character, character) :: others, after)
  | ']' :: rest => ([], rest)
  | first :: '-' :: last :: rest =>
      let (others, after) := ranges rest
      ((first, last) :: others, after)
  | character :: rest =>
      let (others, after) := ranges rest
      ((character, character) :: others, after)

/-- The tokens of a pattern, at most as many as the fuel. -/
def tokens : Nat → List Char → List Token
  | 0, _ => []
  | _ + 1, [] => []
  | fuel + 1, '*' :: rest => .anyText :: tokens fuel rest
  | fuel + 1, '?' :: rest => .anyCharacter :: tokens fuel rest
  | fuel + 1, '[' :: '^' :: rest =>
      let (ranges, after) := ranges rest
      .oneOf true ranges :: tokens fuel after
  | fuel + 1, '[' :: rest =>
      let (ranges, after) := ranges rest
      .oneOf false ranges :: tokens fuel after
  | fuel + 1, '\\' :: character :: rest => .literal character :: tokens fuel rest
  | fuel + 1, character :: rest => .literal character :: tokens fuel rest

/-- Whether a pattern matches a key. -/
def selects (pattern key : String) : Bool :=
  accepts (tokens pattern.toList.length pattern.toList) key.toList

/-- The characters that mean something in a pattern. -/
def specialCharacters : List Char := ['*', '?', '[', '\\']

theorem tokens_literal {fuel : Nat} {character : Char} {rest : List Char}
    (plain : character ∉ specialCharacters) :
    tokens (fuel + 1) (character :: rest) = .literal character :: tokens fuel rest := by
  simp only [specialCharacters, List.mem_cons, List.not_mem_nil, or_false, not_or] at plain
  conv_lhs => unfold tokens
  split <;> simp_all

theorem tokens_start {start : List Char} (plain : ∀ character ∈ start,
    character ∉ specialCharacters) : tokens (start ++ ['*']).length (start ++ ['*']) =
      start.map .literal ++ [.anyText] := by
  induction start with
  | nil => rfl
  | cons character start induction =>
      rw [List.cons_append, List.length_cons, tokens_literal (plain _ List.mem_cons_self),
        induction fun other member => plain other (List.mem_cons_of_mem character member)]
      rfl

theorem accepts_anyText (text : List Char) : accepts [.anyText] text = true := by
  rw [accepts, List.any_eq_true]
  exact ⟨[], by simp, rfl⟩

theorem accepts_start (start text : List Char) :
    accepts (start.map .literal ++ [.anyText]) text = true ↔ start <+: text := by
  induction start generalizing text with
  | nil => simp [accepts_anyText]
  | cons character start induction =>
      cases text with
      | nil => simp [accepts]
      | cons other text =>
          rw [List.map_cons, List.cons_append, accepts, Bool.and_eq_true, beq_iff_eq, induction,
            List.cons_prefix_cons]

/-- A text without special characters and an asterisk match what starts with the text. -/
theorem selects_start {start key : String}
    (plain : ∀ character ∈ start.toList, character ∉ specialCharacters) :
    selects (start ++ "*") key = true ↔ start.toList <+: key.toList := by
  rw [selects, String.toList_append]
  change accepts (tokens (start.toList ++ ['*']).length (start.toList ++ ['*'])) key.toList =
    true ↔ _
  rw [tokens_start plain, accepts_start]

example : selects "a[b-d]?\\*z*" "acx*zoo" = true := by decide

end RAGuardian.Glob
