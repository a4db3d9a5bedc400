import Mathlib.Data.List.Nodup
import Mathlib.Algebra.BigOperators.Group.List.Basic

/-! # Keyed tables

Tables are lists of rows in insertion order. `update` and `delete` are the
`UPDATE ... WHERE` and `DELETE ... WHERE` statements. -/

namespace RAGuardian.Table

variable {Row : Type u} {Key : Type v}

/-- Change the selected rows in place. -/
def update (selects : Row → Bool) (change : Row → Row) (rows : List Row) : List Row :=
  rows.map fun row => if selects row then change row else row

/-- Keep the rows that are not selected. -/
def delete (selects : Row → Bool) (rows : List Row) : List Row :=
  rows.filter fun row => !selects row

theorem mem_update {selects : Row → Bool} {change : Row → Row} {rows : List Row}
    {row : Row} :
    row ∈ update selects change rows ↔
      ∃ old ∈ rows, (if selects old then change old else old) = row :=
  List.mem_map

@[simp] theorem mem_delete {selects : Row → Bool} {rows : List Row} {row : Row} :
    row ∈ delete selects rows ↔ row ∈ rows ∧ selects row = false := by
  simp [delete]

theorem delete_sublist (selects : Row → Bool) (rows : List Row) :
    (delete selects rows).Sublist rows :=
  List.filter_sublist

/-- Updating other columns leaves a column as it is. -/
theorem map_update {selects : Row → Bool} {change : Row → Row} (column : Row → Key)
    (same : ∀ row, column (change row) = column row) (rows : List Row) :
    (update selects change rows).map column = rows.map column := by
  simp only [update, List.map_map]
  apply List.map_congr_left
  intro row _
  by_cases selected : selects row = true
  · simp [selected, same row]
  · simp [selected]

/-- Updating rows without changing what a test says of them leaves its count. -/
theorem countP_update {selects : Row → Bool} {change : Row → Row} {test : Row → Bool}
    {rows : List Row}
    (same : ∀ row ∈ rows, selects row = true → test (change row) = test row) :
    (update selects change rows).countP test = rows.countP test := by
  rw [update, List.countP_map]
  apply List.countP_congr
  intro row member
  by_cases selected : selects row = true
  · simp [selected, same row member selected]
  · simp [selected]

/-- Rows outside the filter before and after an update are not seen by it. -/
theorem filter_update_of_disjoint {selects : Row → Bool} {change : Row → Row}
    {visible : Row → Bool} {rows : List Row}
    (before : ∀ row ∈ rows, selects row = true → visible row = false)
    (after : ∀ row ∈ rows, selects row = true → visible (change row) = false) :
    (update selects change rows).filter visible = rows.filter visible := by
  induction rows with
  | nil => rfl
  | cons row rows induction =>
      have rest := induction
        (fun other member => before other (List.mem_cons_of_mem row member))
        (fun other member => after other (List.mem_cons_of_mem row member))
      simp only [update, List.map_cons] at rest ⊢
      by_cases selected : selects row = true
      · rw [if_pos selected, List.filter_cons_of_neg, List.filter_cons_of_neg, rest]
        · simp [before row List.mem_cons_self selected]
        · simp [after row List.mem_cons_self selected]
      · rw [if_neg selected, List.filter_cons, List.filter_cons, rest]

/-- A deletion that spares the visible rows is not seen by a filter. -/
theorem filter_delete_of_disjoint {selects visible : Row → Bool} {rows : List Row}
    (disjoint : ∀ row ∈ rows, visible row = true → selects row = false) :
    (delete selects rows).filter visible = rows.filter visible := by
  rw [delete, List.filter_filter]
  apply List.filter_congr
  intro row member
  cases seen : visible row with
  | false => simp
  | true => simp [disjoint row member seen]

/-- An update that never makes a row visible leaves a sublist of the visible
column values. -/
theorem map_filter_update_sublist {selects visible : Row → Bool}
    {change : Row → Row} (column : Row → Key)
    (same : ∀ row, column (change row) = column row)
    (quiet : ∀ row, visible (change row) = true → visible row = true)
    (rows : List Row) :
    (((update selects change rows).filter visible).map column).Sublist
      ((rows.filter visible).map column) := by
  induction rows with
  | nil => exact List.Sublist.slnil
  | cons row rows induction =>
      simp only [update, List.map_cons] at induction ⊢
      by_cases selected : selects row = true
      · rw [if_pos selected]
        cases after : visible (change row) with
        | false =>
            rw [List.filter_cons_of_neg (by simp [after])]
            exact induction.trans
              (((List.sublist_cons_self row rows).filter visible).map column)
        | true =>
            rw [List.filter_cons_of_pos after, List.filter_cons_of_pos (quiet row after),
              List.map_cons, List.map_cons, same row]
            exact induction.cons_cons _
      · rw [if_neg selected]
        cases seen : visible row with
        | false =>
            rw [List.filter_cons_of_neg (by simp [seen]),
              List.filter_cons_of_neg (by simp [seen])]
            exact induction
        | true =>
            rw [List.filter_cons_of_pos seen, List.filter_cons_of_pos seen,
              List.map_cons, List.map_cons]
            exact induction.cons_cons _

/-- Two rows of a uniquely keyed table with one key are the same row. -/
theorem eq_of_key_eq {key : Row → Key} {rows : List Row}
    (unique : (rows.map key).Nodup) {left right : Row} (leftMember : left ∈ rows)
    (rightMember : right ∈ rows) (equal : key left = key right) : left = right :=
  List.inj_on_of_nodup_map unique leftMember rightMember equal

/-- Looking a key up in a uniquely keyed table finds the row that has it. -/
theorem find?_eq_some_iff_of_unique [BEq Key] [LawfulBEq Key] {key : Row → Key}
    {rows : List Row}
    (unique : (rows.map key).Nodup) {wanted : Key} {row : Row} :
    (rows.find? fun other => key other == wanted) = some row ↔
      row ∈ rows ∧ key row = wanted := by
  constructor
  · intro found
    exact ⟨List.mem_of_find?_eq_some found, by simpa using List.find?_some found⟩
  · rintro ⟨member, keyed⟩
    cases found : rows.find? fun other => key other == wanted with
    | none =>
        have absent := List.find?_eq_none.mp found row member
        simp [keyed] at absent
    | some other =>
        have otherKeyed : key other = wanted := by simpa using List.find?_some found
        rw [eq_of_key_eq unique (List.mem_of_find?_eq_some found) member
          (otherKeyed.trans keyed.symm)]

/-- An update that selects one row of a uniquely keyed table replaces that row
at its position. -/
theorem exists_update_eq {key : Row → Key} {rows : List Row}
    (unique : (rows.map key).Nodup) {row : Row} (member : row ∈ rows)
    (selects : Row → Bool) (change : Row → Row)
    (selected : ∀ other ∈ rows, selects other = true ↔ key other = key row) :
    ∃ before after, rows = before ++ row :: after ∧
      update selects change rows = before ++ change row :: after ∧
      (∀ other ∈ before, key other ≠ key row) ∧
      ∀ other ∈ after, key other ≠ key row := by
  obtain ⟨before, after, rfl⟩ := List.append_of_mem member
  have distinct : ∀ other ∈ before ++ after, key other ≠ key row := by
    intro other otherMember equal
    rw [List.map_append, List.map_cons] at unique
    have absent := (List.nodup_middle.mp unique).notMem
    rw [← List.map_append] at absent
    exact absent (equal ▸ List.mem_map_of_mem otherMember)
  have unselected : ∀ part : List Row, (∀ other ∈ part, other ∈ before ++ after) →
      update selects change part = part := by
    intro part contained
    refine (List.map_congr_left ?_).trans (List.map_id part)
    intro other otherMember
    have outside : ¬ selects other = true := by
      intro chosen
      have inRows : other ∈ before ++ row :: after := by
        rcases List.mem_append.mp (contained other otherMember) with left | right
        · exact List.mem_append_left _ left
        · exact List.mem_append_right _ (List.mem_cons_of_mem row right)
      exact distinct other (contained other otherMember)
        ((selected other inRows).mp chosen)
    simp [outside]
  refine ⟨before, after, rfl, ?_, ?_, ?_⟩
  · have chosen : selects row = true := (selected row member).mpr rfl
    have left := unselected before fun other => List.mem_append_left _
    have right := unselected after fun other => List.mem_append_right _
    simp only [update] at left right ⊢
    rw [List.map_append, List.map_cons, left, right, if_pos chosen]
  · exact fun other otherMember => distinct other (List.mem_append_left _ otherMember)
  · exact fun other otherMember => distinct other (List.mem_append_right _ otherMember)

end RAGuardian.Table
