import RAGuardian.Foundation.Json

/-! # Retrieved documents

A document as the vector store returns it: the text of a chunk with its metadata. -/

namespace RAGuardian.Ranking

open Json

/-- A metadata dictionary, in insertion order. -/
abbrev Metadata := List (String × Value)

namespace Metadata

/-- `metadata.get(key)` -/
def get (metadata : Metadata) (key : String) : Value :=
  Value.lookup metadata key

/-- `metadata[key] = value` -/
def set (metadata : Metadata) (key : String) (value : Value) : Metadata :=
  if metadata.any (·.1 == key) then
    metadata.map fun entry => if entry.1 == key then (key, value) else entry
  else
    metadata ++ [(key, value)]

theorem get_set_self (metadata : Metadata) (key : String) (value : Value) :
    (metadata.set key value).get key = value := by
  unfold set get Value.lookup
  split
  · rename_i present
    induction metadata with
    | nil => cases present
    | cons entry metadata induction =>
        rw [List.map_cons]
        by_cases here : (entry.1 == key) = true
        · rw [if_pos here]
          simp
        · have other : (entry.1 == key) = false := by simpa using here
          rw [if_neg here]
          simp only [List.find?_cons, other]
          exact induction (by simpa [other] using present)
  · rename_i absent
    have skips : metadata.find? (fun entry => entry.1 == key) = none := by
      rw [List.find?_eq_none]
      intro entry member same
      exact absent (List.any_eq_true.mpr ⟨entry, member, same⟩)
    simp [skips]

theorem get_set_of_ne (metadata : Metadata) {key other : String} (different : other ≠ key)
    (value : Value) : (metadata.set key value).get other = metadata.get other := by
  have apart : (key == other) = false := by simpa using Ne.symm different
  unfold set get Value.lookup
  split
  · rename_i present
    clear present
    induction metadata with
    | nil => rfl
    | cons entry metadata induction =>
        rw [List.map_cons]
        by_cases here : (entry.1 == key) = true
        · have skipped : (entry.1 == other) = false := by
            rw [beq_iff_eq.mp here]
            exact apart
          rw [if_pos here]
          simp only [List.find?_cons, apart, skipped]
          exact induction
        · rw [if_neg here]
          simp only [List.find?_cons]
          split
          · rfl
          · exact induction
  · rw [List.find?_append]
    cases metadata.find? fun entry => entry.1 == other with
    | some entry => rfl
    | none => simp [apart]

end Metadata

/-- `langchain_core.documents.Document` -/
structure Document where
  pageContent : String
  metadata : Metadata

end RAGuardian.Ranking
