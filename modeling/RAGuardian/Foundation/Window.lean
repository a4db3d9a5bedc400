import Mathlib.Data.List.Basic

/-! # Windows of recent items

Items come one by one into a window of bounded length, and something is gathered
from the items that leave it. -/

namespace RAGuardian.Window

variable {α : Type u} {β : Type v}

/-- An item enters the window, and the oldest one leaves if there is no room. -/
def push (keep : Nat) (leave : β → α → β) (state : β × List α) (item : α) : β × List α :=
  match state.2 ++ [item] with
  | [] => state
  | oldest :: rest =>
      if keep ≤ rest.length then (leave state.1 oldest, rest) else (state.1, oldest :: rest)

/-- The items that have left a window that was given all of a list. -/
def past (keep : Nat) (items : List α) : List α :=
  items.take (items.length - keep)

/-- The items that are in the window. -/
def recent (keep : Nat) (items : List α) : List α :=
  items.drop (items.length - keep)

theorem past_cons {keep : Nat} {oldest : α} {rest : List α} (full : keep ≤ rest.length) :
    past keep (oldest :: rest) = oldest :: past keep rest := by
  have more : (oldest :: rest).length - keep = rest.length - keep + 1 := by
    rw [List.length_cons]
    omega
  rw [past, more, List.take_succ_cons]
  rfl

theorem recent_cons {keep : Nat} {oldest : α} {rest : List α} (full : keep ≤ rest.length) :
    recent keep (oldest :: rest) = recent keep rest := by
  have more : (oldest :: rest).length - keep = rest.length - keep + 1 := by
    rw [List.length_cons]
    omega
  rw [recent, more, List.drop_succ_cons]
  rfl

theorem past_of_le {keep : Nat} {items : List α} (room : items.length ≤ keep) :
    past keep items = [] := by
  rw [past, Nat.sub_eq_zero_of_le room, List.take_zero]

theorem recent_of_le {keep : Nat} {items : List α} (room : items.length ≤ keep) :
    recent keep items = items := by
  rw [recent, Nat.sub_eq_zero_of_le room, List.drop_zero]

/-- After a list of items the window has the last of them, and what was gathered
comes from the others in order. -/
theorem foldl_push {keep : Nat} (leave : β → α → β) (gathered : β) {window : List α}
    (bounded : window.length ≤ keep) (items : List α) :
    items.foldl (push keep leave) (gathered, window) =
      ((past keep (window ++ items)).foldl leave gathered, recent keep (window ++ items)) := by
  induction items generalizing gathered window with
  | nil => simp [past_of_le bounded, recent_of_le bounded]
  | cons item items induction =>
      rw [List.foldl_cons, push]
      have joined : window ++ item :: items = (window ++ [item]) ++ items := by simp
      rw [joined]
      have length : (window ++ [item]).length = window.length + 1 := by simp
      split
      · rename_i empty
        cases window <;> cases empty
      · rename_i oldest rest entered
        rw [entered, List.length_cons] at length
        rw [entered]
        split
        · rename_i full
          have enough : keep ≤ (rest ++ items).length := by
            rw [List.length_append]
            omega
          rw [induction _ (by omega), List.cons_append, past_cons enough, recent_cons enough,
            List.foldl_cons]
        · rename_i room
          rw [induction gathered (by rw [List.length_cons]; omega)]

end RAGuardian.Window
