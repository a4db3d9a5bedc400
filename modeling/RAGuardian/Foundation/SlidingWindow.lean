import Mathlib.Algebra.Order.Group.Basic
import Mathlib.Data.List.Basic

/-! # Sliding windows

How many of the times of a list lie in the half-open windows of one length. -/

namespace RAGuardian.SlidingWindow

variable {Time : Type*} [AddCommGroup Time] [LinearOrder Time]

/-- No half-open window of the length has more than `bound` of the times. -/
def Bounded (bound : Nat) (length : Time) (times : List Time) : Prop :=
  ∀ start, (times.countP fun time => start ≤ time ∧ time < start + length) ≤ bound ∧
    (times.countP fun time => start < time ∧ time ≤ start + length) ≤ bound

/-- How many of the times lie in the window that ends now. -/
def recent (length now : Time) (times : List Time) : Nat :=
  times.countP fun time => now - time < length

namespace Bounded

variable {bound : Nat} {length now : Time} {times others : List Time}

theorem nil : Bounded bound length ([] : List Time) :=
  fun _ => ⟨Nat.zero_le _, Nat.zero_le _⟩

theorem sublist (bounded : Bounded bound length times) (within : others.Sublist times) :
    Bounded bound length others :=
  fun start => ⟨within.countP_le.trans (bounded start).1, within.countP_le.trans (bounded start).2⟩

theorem perm (bounded : Bounded bound length times) (same : others.Perm times) :
    Bounded bound length others := by
  intro start
  rw [same.countP_eq, same.countP_eq]
  exact bounded start

/-- A time can be added as long as the window that ends at it has room. -/
theorem add [IsOrderedAddMonoid Time] (bounded : Bounded bound length times)
    (room : recent length now times < bound) :
    Bounded bound length (now :: times) := by
  -- a window with the new time has no other times than those of the window that ends at it
  have covered : ∀ window : Time → Bool,
      (∀ time, window now = true → window time = true → now - time < length) →
      times.countP window ≤ bound → (now :: times).countP window ≤ bound := by
    intro window close within
    rw [List.countP_cons]
    by_cases inside : window now = true
    · have fewer : times.countP window ≤ recent length now times :=
        List.countP_mono_left fun time _ other => decide_eq_true (close time inside other)
      rw [if_pos inside]
      omega
    · rw [if_neg inside]
      exact within
  intro start
  constructor
  · refine covered _ ?_ (bounded start).1
    intro time inside other
    simp only [decide_eq_true_eq] at inside other
    rw [sub_lt_iff_lt_add']
    exact inside.2.trans_le (add_le_add_left other.1 length)
  · refine covered _ ?_ (bounded start).2
    intro time inside other
    simp only [decide_eq_true_eq] at inside other
    rw [sub_lt_iff_lt_add']
    exact inside.2.trans_lt (add_lt_add_left other.1 length)

end Bounded

end RAGuardian.SlidingWindow
