import Mathlib.Data.List.Basic
import Mathlib.Data.UInt

/-! # Lines of a file

Lines that end with a newline, read one after another by their byte offsets. -/

namespace RAGuardian.Lines

/-- A line and its end, or what is left of the file. -/
def firstLine : List UInt8 → List UInt8
  | [] => []
  | byte :: rest => if byte = 10 then [byte] else byte :: firstLine rest

/-- `fgets` at an offset; `none` stands for `false` at the end of the file. -/
def fgets (content : List UInt8) (offset : Nat) : Option (List UInt8) :=
  match content.drop offset with
  | [] => none
  | rest => some (firstLine rest)

/-- A line of the file starts at the offset. -/
def Starts (content : List UInt8) (offset : Nat) : Prop :=
  offset < content.length ∧ (offset = 0 ∨ content[offset - 1]? = some 10)

/-- Every line, with its end. -/
def join (lines : List (List UInt8)) : List UInt8 :=
  lines.flatMap (· ++ [10])

/-- The bytes that so many lines take. -/
def position (lines : List (List UInt8)) (count : Nat) : Nat :=
  (join (lines.take count)).length

@[simp] theorem position_zero (lines : List (List UInt8)) : position lines 0 = 0 :=
  rfl

theorem join_cons (line : List UInt8) (lines : List (List UInt8)) :
    join (line :: lines) = (line ++ [10]) ++ join lines :=
  List.flatMap_cons

theorem position_cons (line : List UInt8) (lines : List (List UInt8)) (count : Nat) :
    position (line :: lines) (count + 1) = line.length + 1 + position lines count := by
  rw [position, List.take_succ_cons, join_cons, List.length_append, List.length_append]
  rfl

theorem position_succ {lines : List (List UInt8)} {count : Nat} (within : count < lines.length) :
    position lines (count + 1) = position lines count + (lines[count].length + 1) := by
  induction lines generalizing count with
  | nil => cases within
  | cons line lines induction =>
      cases count with
      | zero => rw [position_cons, position_zero, position_zero, Nat.zero_add]; rfl
      | succ count =>
          rw [position_cons, position_cons, induction (Nat.lt_of_succ_lt_succ within)]
          exact (Nat.add_assoc _ _ _).symm

theorem position_pos {lines : List (List UInt8)} {count : Nat} (within : count ≤ lines.length)
    (positive : 0 < count) : 0 < position lines count := by
  cases count with
  | zero => exact absurd positive (Nat.lt_irrefl 0)
  | succ count =>
      rw [position_succ within]
      omega

theorem firstLine_append {line : List UInt8} (plain : 10 ∉ line) (rest : List UInt8) :
    firstLine ((line ++ [10]) ++ rest) = line ++ [10] := by
  induction line with
  | nil => rfl
  | cons byte line induction =>
      rw [List.mem_cons, not_or] at plain
      have different : byte ≠ 10 := fun same => plain.1 same.symm
      rw [List.cons_append, List.cons_append, firstLine, if_neg different, induction plain.2]

theorem drop_position (lines : List (List UInt8)) (count : Nat) :
    (join lines).drop (position lines count) = join (lines.drop count) := by
  have split : join lines = join (lines.take count) ++ join (lines.drop count) := by
    rw [join, join, join, ← List.flatMap_append, List.take_append_drop]
  rw [split, position, List.drop_left]

/-- The line that starts after so many lines. -/
theorem fgets_position {lines : List (List UInt8)} (plain : ∀ line ∈ lines, 10 ∉ line)
    {count : Nat} (within : count < lines.length) :
    fgets (join lines) (position lines count) = some (lines[count] ++ [10]) := by
  have first := firstLine_append (plain lines[count] (List.getElem_mem within))
    (join (lines.drop (count + 1)))
  rw [fgets, drop_position, List.drop_eq_getElem_cons within, join_cons]
  generalize lines[count] = line at first ⊢
  cases line with
  | nil => rfl
  | cons byte line => exact congrArg some first

/-- Lines start after the lines before them, and nowhere else. -/
theorem starts_join {lines : List (List UInt8)} (plain : ∀ line ∈ lines, 10 ∉ line)
    {offset : Nat} (starts : Starts (join lines) offset) :
    ∃ count < lines.length, offset = position lines count := by
  induction lines generalizing offset with
  | nil => exact absurd starts.1 (Nat.not_lt_zero _)
  | cons line lines induction =>
      obtain ⟨within, start⟩ := starts
      rcases start with rfl | newline
      · exact ⟨0, Nat.succ_pos _, rfl⟩
      rw [join_cons] at within newline
      by_cases inside : offset ≤ line.length
      · -- no byte of the first line before its end is a newline
        by_cases first : offset = 0
        · exact ⟨0, Nat.succ_pos _, first⟩
        have shorter : offset - 1 < line.length := by omega
        rw [List.append_assoc, List.getElem?_append_left shorter] at newline
        exact absurd (List.mem_of_getElem? newline) (plain line List.mem_cons_self)
      · have beyond : (line ++ [10]).length ≤ offset := by
          rw [List.length_append]
          change line.length + 1 ≤ offset
          omega
        have later : Starts (join lines) (offset - (line ++ [10]).length) := by
          rw [List.length_append] at within
          refine ⟨by omega, ?_⟩
          by_cases next : offset = (line ++ [10]).length
          · exact .inl (by omega)
          · rw [List.getElem?_append_right (by omega)] at newline
            right
            rw [← newline]
            congr 1
            omega
        obtain ⟨count, shorter, same⟩ := induction
          (fun other member => plain other (List.mem_cons_of_mem line member)) later
        refine ⟨count + 1, Nat.succ_lt_succ shorter, ?_⟩
        rw [position_cons, ← same]
        rw [List.length_append] at beyond ⊢
        change line.length + 1 ≤ offset at beyond
        change offset = line.length + 1 + (offset - (line.length + 1))
        omega

end RAGuardian.Lines
