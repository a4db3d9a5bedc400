import Mathlib.Data.List.Induction

/-! # The latest entry of a log

Entries of a log by a key, of which the latest counts. -/

namespace RAGuardian.Latest

variable {Entry : Type u} {Key : Type v} {Other : Type w} [DecidableEq Key] [DecidableEq Other]

/-- The last entry with a key. -/
def latest (key : Entry → Key) (log : List Entry) (wanted : Key) : Option Entry :=
  log.reverse.find? fun entry => key entry = wanted

variable {key : Entry → Key} {other : Entry → Other} {log : List Entry} {entry last : Entry}
  {wanted : Key}

theorem latest_concat (key : Entry → Key) (log : List Entry) (entry : Entry) (wanted : Key) :
    latest key (log ++ [entry]) wanted =
      if key entry = wanted then some entry else latest key log wanted := by
  rw [latest, List.reverse_append, List.reverse_singleton, List.singleton_append,
    List.find?_cons]
  by_cases same : key entry = wanted
  · simp [same]
  · simp [same, latest]

theorem mem_of_latest (found : latest key log wanted = some last) : last ∈ log :=
  List.mem_reverse.mp (List.mem_of_find?_eq_some found)

theorem key_of_latest (found : latest key log wanted = some last) : key last = wanted := by
  simpa using List.find?_some found

/-- Every entry has a latest one with its key. -/
theorem exists_latest (member : entry ∈ log) : ∃ last, latest key log (key entry) = some last := by
  rw [← Option.isSome_iff_exists, latest, List.find?_isSome]
  exact ⟨entry, List.mem_reverse.mpr member, by simp⟩

/-- The latest entry with one key is the latest with another, if all entries with the
second key have the first. -/
theorem latest_of_coarser (found : latest key log wanted = some last)
    (coarser : ∀ entry ∈ log, other entry = other last → key entry = wanted) :
    latest other log (other last) = some last := by
  induction log using List.reverseRecOn with
  | nil => cases found
  | append_singleton log entry induction =>
      rw [latest_concat] at found ⊢
      split at found
      · cases found
        rw [if_pos rfl]
      · rename_i different
        rw [if_neg, induction found fun earlier member =>
          coarser earlier (List.mem_append_left _ member)]
        intro same
        exact different (coarser entry (by simp) same)

end RAGuardian.Latest
