import RAGuardian.Foundation.Table
import Mathlib.Data.List.Induction

/-! # Dictionaries

Dictionaries in insertion order. An assignment to a key that is present keeps its
place, as in the source language. -/

namespace RAGuardian

/-- A dictionary with distinct keys, oldest entry first. -/
structure Dictionary (Key : Type u) (Value : Type v) where
  entries : List (Key × Value)
  distinct : (entries.map Prod.fst).Nodup

namespace Dictionary

variable {Key : Type u} {Value : Type v} [DecidableEq Key]

def empty : Dictionary Key Value where
  entries := []
  distinct := List.nodup_nil

def keys (dictionary : Dictionary Key Value) : List Key :=
  dictionary.entries.map Prod.fst

/-- `dictionary.get(key)` -/
def get? (dictionary : Dictionary Key Value) (key : Key) : Option Value :=
  (dictionary.entries.find? fun entry => entry.1 == key).map Prod.snd

/-- Keep the entries that fail a test. -/
def removeWhere (test : Key → Value → Bool) (dictionary : Dictionary Key Value) :
    Dictionary Key Value where
  entries := dictionary.entries.filter fun entry => !test entry.1 entry.2
  distinct := (List.filter_sublist.map Prod.fst).nodup dictionary.distinct

/-- `dictionary.pop(key, None)` -/
def erase (key : Key) (dictionary : Dictionary Key Value) : Dictionary Key Value :=
  dictionary.removeWhere fun other _ => other == key

/-- `dictionary[key] = value` -/
def set (key : Key) (value : Value) (dictionary : Dictionary Key Value) :
    Dictionary Key Value where
  entries :=
    if dictionary.entries.any (·.1 == key) then
      Table.update (·.1 == key) (fun _ => (key, value)) dictionary.entries
    else
      dictionary.entries ++ [(key, value)]
  distinct := by
    split
    · have keys : (Table.update (·.1 == key) (fun _ => (key, value))
          dictionary.entries).map Prod.fst = dictionary.entries.map Prod.fst := by
        simp only [Table.update, List.map_map]
        apply List.map_congr_left
        intro entry _
        by_cases same : entry.1 = key
        · simp [same]
        · simp [same]
      rw [keys]
      exact dictionary.distinct
    · rename_i absent
      rw [List.map_append, List.map_singleton]
      apply List.nodup_append.mpr
      refine ⟨dictionary.distinct, by simp, ?_⟩
      intro left leftMember right rightMember equal
      rcases List.mem_map.mp leftMember with ⟨entry, member, rfl⟩
      apply absent
      rw [List.any_eq_true]
      exact ⟨entry, member, by simpa using equal.trans (List.mem_singleton.mp rightMember)⟩

/-- `ordered.move_to_end(key)` -/
def moveToEnd (key : Key) (dictionary : Dictionary Key Value) : Dictionary Key Value where
  entries :=
    dictionary.entries.filter (fun entry => !(entry.1 == key)) ++
      dictionary.entries.filter fun entry => entry.1 == key
  distinct := by
    apply (List.Perm.nodup_iff (List.Perm.map Prod.fst ?_)).mpr dictionary.distinct
    have parts := List.filter_append_perm (fun entry : Key × Value => entry.1 == key)
      dictionary.entries
    exact List.perm_append_comm.trans parts

/-- `ordered.popitem(last=False)` -/
def dropOldest (dictionary : Dictionary Key Value) : Dictionary Key Value where
  entries := dictionary.entries.tail
  distinct := ((List.tail_sublist _).map Prod.fst).nodup dictionary.distinct

/-! ## Lookups -/

theorem get?_eq_some {dictionary : Dictionary Key Value} {key : Key} {value : Value} :
    dictionary.get? key = some value ↔ (key, value) ∈ dictionary.entries := by
  rw [get?, Option.map_eq_some_iff]
  constructor
  · rintro ⟨entry, found, rfl⟩
    have keyed := (Table.find?_eq_some_iff_of_unique dictionary.distinct).mp found
    rw [← keyed.2]
    exact keyed.1
  · intro member
    exact ⟨(key, value),
      (Table.find?_eq_some_iff_of_unique dictionary.distinct).mpr ⟨member, rfl⟩, rfl⟩

@[simp] theorem get?_empty (key : Key) :
    (empty : Dictionary Key Value).get? key = none :=
  rfl

theorem get?_removeWhere {test : Key → Value → Bool} {dictionary : Dictionary Key Value}
    {key : Key} {value : Value} :
    (dictionary.removeWhere test).get? key = some value ↔
      dictionary.get? key = some value ∧ test key value = false := by
  simp [get?_eq_some, removeWhere]

theorem get?_erase_self (dictionary : Dictionary Key Value) (key : Key) :
    (dictionary.erase key).get? key = none := by
  rw [Option.eq_none_iff_forall_ne_some]
  intro value found
  have spared := (get?_removeWhere.mp found).2
  simp at spared

theorem get?_erase_of_ne {dictionary : Dictionary Key Value} {key other : Key}
    (different : other ≠ key) : (dictionary.erase key).get? other = dictionary.get? other := by
  apply Option.ext
  intro value
  simp [erase, get?_removeWhere, different]

theorem get?_of_erase {dictionary : Dictionary Key Value} {key other : Key} {value : Value}
    (found : (dictionary.erase key).get? other = some value) :
    dictionary.get? other = some value :=
  (get?_removeWhere.mp found).1

theorem mem_entries_set {dictionary : Dictionary Key Value} {key other : Key}
    {value stored : Value} :
    (other, stored) ∈ (dictionary.set key value).entries ↔
      other = key ∧ stored = value ∨ other ≠ key ∧ (other, stored) ∈ dictionary.entries := by
  rw [set]
  split
  · rename_i present
    rcases List.any_eq_true.mp present with ⟨entry, entryMember, keyed⟩
    rw [Table.mem_update]
    constructor
    · rintro ⟨old, member, equal⟩
      split at equal
      · cases equal
        exact .inl ⟨rfl, rfl⟩
      · rename_i unselected
        subst equal
        exact .inr ⟨by simpa using unselected, member⟩
    · rintro (⟨rfl, rfl⟩ | ⟨different, member⟩)
      · exact ⟨entry, entryMember, by rw [if_pos keyed]⟩
      · exact ⟨(other, stored), member, by simp [different]⟩
  · rename_i absent
    rw [List.mem_append, List.mem_singleton]
    constructor
    · rintro (member | equal)
      · refine .inr ⟨?_, member⟩
        rintro rfl
        exact absent (List.any_eq_true.mpr ⟨_, member, by simp⟩)
      · cases equal
        exact .inl ⟨rfl, rfl⟩
    · rintro (⟨rfl, rfl⟩ | ⟨-, member⟩)
      · exact .inr rfl
      · exact .inl member

theorem get?_set {dictionary : Dictionary Key Value} {key other : Key} {value : Value} :
    (dictionary.set key value).get? other =
      if other = key then some value else dictionary.get? other := by
  apply Option.ext
  intro stored
  rw [get?_eq_some, mem_entries_set]
  split
  · rename_i same
    simp [same, eq_comm]
  · rename_i different
    rw [get?_eq_some]
    simp [different]

@[simp] theorem get?_set_self (dictionary : Dictionary Key Value) (key : Key)
    (value : Value) : (dictionary.set key value).get? key = some value := by
  rw [get?_set, if_pos rfl]

theorem get?_set_of_ne {dictionary : Dictionary Key Value} {key other : Key} {value : Value}
    (different : other ≠ key) :
    (dictionary.set key value).get? other = dictionary.get? other := by
  rw [get?_set, if_neg different]

/-- Assignments of all the entries of a dictionary. -/
theorem get?_foldl_set (base extra : Dictionary Key Value) (key : Key) :
    (extra.entries.foldl (fun dictionary entry => dictionary.set entry.1 entry.2) base).get? key =
      (extra.get? key).or (base.get? key) := by
  suffices listed : ∀ entries : List (Key × Value), (entries.map Prod.fst).Nodup →
      (entries.foldl (fun dictionary entry => dictionary.set entry.1 entry.2) base).get? key =
        ((entries.find? fun entry => entry.1 == key).map Prod.snd).or (base.get? key) from
    listed extra.entries extra.distinct
  intro entries distinct
  induction entries using List.reverseRecOn with
  | nil => rfl
  | append_singleton entries entry induction =>
      rw [List.map_append, List.map_singleton] at distinct
      obtain ⟨earlier, -, apart⟩ := List.nodup_append.mp distinct
      rw [List.foldl_append, List.foldl_cons, List.foldl_nil, get?_set, induction earlier,
        List.find?_append]
      by_cases same : key = entry.1
      · have absent : entries.find? (fun other => other.1 == key) = none := by
          rw [List.find?_eq_none]
          intro other member equal
          exact apart other.1 (List.mem_map_of_mem (f := Prod.fst) member) entry.1 (by simp)
            ((beq_iff_eq.mp equal).trans same)
        rw [if_pos same, absent]
        simp [same]
      · have different : ¬ entry.1 = key := fun equal => same equal.symm
        simp [same, different]

@[simp] theorem get?_moveToEnd (dictionary : Dictionary Key Value) (key other : Key) :
    (dictionary.moveToEnd key).get? other = dictionary.get? other := by
  apply Option.ext
  intro value
  rw [get?_eq_some, get?_eq_some, moveToEnd, List.mem_append, List.mem_filter,
    List.mem_filter]
  by_cases same : other = key
  · simp [same]
  · simp [same]

theorem get?_of_dropOldest {dictionary : Dictionary Key Value} {key : Key} {value : Value}
    (found : dictionary.dropOldest.get? key = some value) :
    dictionary.get? key = some value := by
  rw [get?_eq_some] at found ⊢
  exact List.mem_of_mem_tail found

omit [DecidableEq Key] in
theorem nodup_entries (dictionary : Dictionary Key Value) : dictionary.entries.Nodup :=
  List.Nodup.of_map Prod.fst dictionary.distinct

/-- The entry of a key, and what another dictionary has under the other keys. -/
theorem perm_cons_erase {dictionary others : Dictionary Key Value} {key : Key} {value : Value}
    (found : dictionary.get? key = some value)
    (same : ∀ other, other ≠ key → dictionary.get? other = others.get? other) :
    dictionary.entries.Perm ((key, value) :: (others.erase key).entries) := by
  have absent : (key, value) ∉ (others.erase key).entries := by
    simp [erase, removeWhere]
  rw [List.perm_ext_iff_of_nodup dictionary.nodup_entries
    (List.nodup_cons.mpr ⟨absent, nodup_entries _⟩)]
  rintro ⟨other, stored⟩
  rw [List.mem_cons, ← get?_eq_some, ← get?_eq_some]
  by_cases equal : other = key
  · subst equal
    rw [found, get?_erase_self]
    simp [eq_comm]
  · rw [same other equal, get?_erase_of_ne equal]
    simp [equal]

theorem perm_erase {dictionary : Dictionary Key Value} {key : Key} {value : Value}
    (found : dictionary.get? key = some value) :
    dictionary.entries.Perm ((key, value) :: (dictionary.erase key).entries) :=
  perm_cons_erase found fun _ _ => rfl

omit [DecidableEq Key] in
theorem entries_dropOldest (count : Nat) (dictionary : Dictionary Key Value) :
    (dropOldest^[count] dictionary).entries = dictionary.entries.drop count := by
  induction count generalizing dictionary with
  | zero => rfl
  | succ count induction =>
      rw [Function.iterate_succ_apply, induction, dropOldest, List.drop_tail]

theorem entries_moveToEnd {dictionary : Dictionary Key Value} {key : Key} {value : Value}
    (found : dictionary.get? key = some value) :
    ∃ front, (dictionary.moveToEnd key).entries = front ++ [(key, value)] := by
  have others : (dictionary.erase key).entries.filter (fun entry => entry.1 == key) = [] := by
    rw [List.filter_eq_nil_iff]
    rintro ⟨other, stored⟩ member keyed
    obtain rfl : other = key := eq_of_beq keyed
    have missing := get?_erase_self dictionary other
    rw [get?_eq_some.mpr member] at missing
    cases missing
  have alone := (perm_erase found).filter fun entry => entry.1 == key
  rw [List.filter_cons_of_pos (by simp), others] at alone
  exact ⟨_, congrArg _ (List.perm_singleton.mp alone)⟩

/-- The entry used last is the last one to be dropped. -/
theorem get?_dropOldest_moveToEnd {dictionary : Dictionary Key Value} {key : Key} {value : Value}
    (found : dictionary.get? key = some value) {count : Nat}
    (room : count < (dictionary.moveToEnd key).entries.length) :
    (dropOldest^[count] (dictionary.moveToEnd key)).get? key = some value := by
  obtain ⟨front, entries⟩ := entries_moveToEnd found
  rw [entries, List.length_append, List.length_singleton] at room
  rw [get?_eq_some, entries_dropOldest, entries, List.drop_append_of_le_length (by omega)]
  exact List.mem_append_right _ (List.mem_singleton_self _)

theorem perm_set (dictionary : Dictionary Key Value) (key : Key) (value : Value) :
    (dictionary.set key value).entries.Perm ((key, value) :: (dictionary.erase key).entries) :=
  perm_cons_erase (get?_set_self _ _ _) fun _ => get?_set_of_ne

theorem erase_of_get?_none {dictionary : Dictionary Key Value} {key : Key}
    (missing : dictionary.get? key = none) :
    (dictionary.erase key).entries = dictionary.entries := by
  rw [erase, removeWhere, List.filter_eq_self]
  rintro ⟨other, value⟩ member
  have different : other ≠ key := by
    rintro rfl
    rw [get?_eq_some.mpr member] at missing
    cases missing
  simpa using different

theorem length_set (dictionary : Dictionary Key Value) (key : Key) (value : Value) :
    (dictionary.set key value).entries.length =
      if (dictionary.get? key).isSome then dictionary.entries.length
      else dictionary.entries.length + 1 := by
  rw [(perm_set dictionary key value).length_eq, List.length_cons]
  cases found : dictionary.get? key with
  | none => rw [erase_of_get?_none found]; rfl
  | some old => exact (perm_erase found).length_eq.symm

theorem length_moveToEnd (dictionary : Dictionary Key Value) (key : Key) :
    (dictionary.moveToEnd key).entries.length = dictionary.entries.length := by
  have parts := List.filter_append_perm (fun entry : Key × Value => entry.1 == key)
    dictionary.entries
  exact (List.perm_append_comm.trans parts).length_eq

theorem removeWhere_eq_self {test : Key → Value → Bool} {dictionary : Dictionary Key Value}
    (kept : ∀ key value, dictionary.get? key = some value → test key value = false) :
    dictionary.removeWhere test = dictionary := by
  cases dictionary with
  | mk entries distinct =>
      simp only [removeWhere, mk.injEq, List.filter_eq_self]
      rintro ⟨key, value⟩ member
      have failed := kept key value (get?_eq_some.mpr member)
      simp [failed]

theorem mem_keys {dictionary : Dictionary Key Value} {key : Key} :
    key ∈ dictionary.keys ↔ ∃ value, dictionary.get? key = some value := by
  simp [keys, get?_eq_some]

end Dictionary

end RAGuardian
