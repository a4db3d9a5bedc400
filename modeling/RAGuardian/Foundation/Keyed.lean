import Mathlib.Algebra.BigOperators.Group.List.Basic
import Mathlib.Data.List.MinMax
import Mathlib.Data.List.Sort
import RAGuardian.Foundation.Dictionary

/-! # Passes over a list by a key

Dictionaries collected in one pass, sorts and least items. With keys that tell the items
apart, the order of the list does not matter to them. -/

namespace RAGuardian

/-- Dictionaries with the same values, seen through `finish`, have the same entries. -/
theorem Dictionary.perm_entries {Key : Type u} {Value : Type v} {Result : Type w}
    [DecidableEq Key] {first second : Dictionary Key Value} {finish : Value → Result}
    (same : ∀ key, (first.get? key).map finish = (second.get? key).map finish) :
    (first.entries.map fun entry => (entry.1, finish entry.2)).Perm
      (second.entries.map fun entry => (entry.1, finish entry.2)) := by
  have distinct : ∀ dictionary : Dictionary Key Value,
      (dictionary.entries.map fun entry => (entry.1, finish entry.2)).Nodup := by
    intro dictionary
    apply List.Nodup.of_map Prod.fst
    rw [List.map_map]
    exact dictionary.distinct
  have listed : ∀ (dictionary : Dictionary Key Value) key result,
      (key, result) ∈ dictionary.entries.map (fun entry => (entry.1, finish entry.2)) ↔
        (dictionary.get? key).map finish = some result := by
    intro dictionary key result
    simp only [List.mem_map, Prod.mk.injEq, Option.map_eq_some_iff, Dictionary.get?_eq_some]
    constructor
    · rintro ⟨⟨key, value⟩, member, rfl, rfl⟩
      exact ⟨value, member, rfl⟩
    · rintro ⟨value, member, rfl⟩
      exact ⟨(key, value), member, rfl, rfl⟩
  rw [List.perm_ext_iff_of_nodup (distinct first) (distinct second)]
  rintro ⟨key, result⟩
  rw [listed, listed, same]

/-- The sum of a dictionary, over any list of names that has its keys -/
theorem Dictionary.sum_entries {Key : Type u} {Value : Type v} [DecidableEq Key]
    [AddCommMonoid Value] (dictionary : Dictionary Key Value) {names : List Key}
    (distinct : names.Nodup) (keys : ∀ key, dictionary.get? key ≠ none → key ∈ names) :
    (dictionary.entries.map Prod.snd).sum =
      (names.map fun name => (dictionary.get? name).getD 0).sum := by
  have read : ∀ names : List Key,
      ((names.filterMap fun name => (dictionary.get? name).map fun value =>
        (name, value)).map Prod.snd).sum =
        (names.map fun name => (dictionary.get? name).getD 0).sum := by
    intro names
    induction names with
    | nil => rfl
    | cons name names induction =>
        rw [List.filterMap_cons, List.map_cons, List.sum_cons, ← induction]
        cases dictionary.get? name with
        | none => simp
        | some value => simp
  rw [← read]
  refine (List.Perm.map Prod.snd ?_).sum_eq
  have listed : (names.filterMap fun name => (dictionary.get? name).map fun value =>
      (name, value)).Nodup := by
    refine distinct.filterMap ?_
    intro name other entry member otherMember
    obtain ⟨value, -, rfl⟩ := Option.map_eq_some_iff.mp member
    obtain ⟨otherValue, -, same⟩ := Option.map_eq_some_iff.mp otherMember
    exact (congrArg Prod.fst same).symm
  rw [List.perm_ext_iff_of_nodup (List.Nodup.of_map Prod.fst dictionary.distinct) listed]
  rintro ⟨key, value⟩
  rw [← Dictionary.get?_eq_some, List.mem_filterMap]
  constructor
  · intro stored
    exact ⟨key, keys key (by simp [stored]), by rw [stored]; rfl⟩
  · rintro ⟨name, -, found⟩
    obtain ⟨other, stored, same⟩ := Option.map_eq_some_iff.mp found
    cases same
    exact stored

namespace Keyed

variable {α : Type u} {β : Type v} {Key : Type w}

/-! ## Dictionaries collected in one pass -/

section

variable [DecidableEq Key]

/-- For each item, assign to its key what its value is updated to. -/
def collect (key : α → Key) (update : Option β → α → β) (items : List α) : Dictionary Key β :=
  items.foldl (fun found item => found.set (key item) (update (found.get? (key item)) item))
    Dictionary.empty

variable {key : α → Key} {update : Option β → α → β} {items : List α}

/-- The value of a key is made of the items with that key, in their order. -/
theorem get?_collect (key : α → Key) (update : Option β → α → β) (items : List α) (name : Key) :
    (collect key update items).get? name =
      (items.filter fun item => key item = name).foldl
        (fun old item => some (update old item)) none := by
  induction items using List.reverseRecOn with
  | nil => rfl
  | append_singleton items item induction =>
      have last : collect key update (items ++ [item]) =
          (collect key update items).set (key item)
            (update ((collect key update items).get? (key item)) item) := by
        rw [collect, List.foldl_append]
        rfl
      rw [last, Dictionary.get?_set, List.filter_append, List.foldl_append]
      by_cases same : name = key item
      · subst same
        rw [if_pos rfl, induction]
        simp
      · rw [if_neg same, induction]
        simp [Ne.symm same]

theorem get?_collect_eq_none_iff {name : Key} :
    (collect key update items).get? name = none ↔ ∀ item ∈ items, key item ≠ name := by
  have some_of_cons : ∀ (rest : List α) (old : Option β) (item : α),
      ((item :: rest).foldl (fun old item => some (update old item)) old).isSome = true := by
    intro rest
    induction rest with
    | nil => exact fun _ _ => rfl
    | cons next rest induction => exact fun old item => induction (some (update old item)) next
  rw [get?_collect]
  cases kept : items.filter (fun item => key item = name) with
  | nil =>
      simpa [List.filter_eq_nil_iff] using kept
  | cons item rest =>
      have listed : item ∈ items ∧ key item = name := by
        have member : item ∈ items.filter fun item => key item = name := by
          rw [kept]
          exact List.mem_cons_self
        simpa using member
      constructor
      · intro missing
        have present := some_of_cons rest none item
        rw [missing] at present
        cases present
      · intro apart
        exact absurd listed.2 (apart item listed.1)

/-- Items collected in lists are grouped by their keys. -/
theorem get?_collect_append (key : α → Key) (items : List α) (name : Key) :
    (collect key (fun group item => group.getD [] ++ [item]) items).get? name =
      if items.filter (fun item => key item = name) = [] then none
      else some (items.filter fun item => key item = name) := by
  have gathers : ∀ (rest group : List α),
      rest.foldl (fun (old : Option (List α)) item => some (old.getD [] ++ [item]))
        (some group) = some (group ++ rest) := by
    intro rest
    induction rest with
    | nil => simp
    | cons item rest induction =>
        intro group
        rw [List.foldl_cons, Option.getD_some, induction, List.append_assoc]
        rfl
  rw [get?_collect]
  cases items.filter fun item => key item = name with
  | nil => rfl
  | cons item rest =>
      rw [List.foldl_cons, gathers]
      rfl

/-- Of items told apart by their keys, the last one under a key is the only one. -/
theorem perm_collect_last {first second : List α} {key : α → Key} (perm : first.Perm second)
    (distinct : (first.map key).Nodup) :
    (collect key (fun _ item => item) first).entries.Perm
      (collect key (fun _ item => item) second).entries := by
  have same : ∀ name, first.filter (fun item => key item = name) =
      second.filter fun item => key item = name := by
    intro name
    have kept := perm.filter fun item => key item = name
    have short : (first.filter fun item => key item = name).length ≤ 1 := by
      have once := List.nodup_iff_count_le_one.mp distinct name
      rw [List.count, List.countP_map] at once
      rw [← List.countP_eq_length_filter]
      refine le_trans (List.countP_mono_left ?_) once
      intro item _ same
      simpa using same
    cases listed : first.filter fun item => key item = name with
    | nil =>
        rw [listed] at kept
        exact (List.nil_perm.mp kept).symm
    | cons item rest =>
        rw [listed] at kept short
        have alone : rest = [] := by
          cases rest with
          | nil => rfl
          | cons other rest => simp at short
        rw [alone] at kept ⊢
        exact List.singleton_perm.mp kept
  have values : ∀ name, ((collect key (fun _ item => item) first).get? name).map id =
      ((collect key (fun _ item => item) second).get? name).map id := by
    intro name
    rw [get?_collect, get?_collect, same]
  simpa using Dictionary.perm_entries values

/-- Items told apart by their keys are collected one by one. -/
theorem perm_collect (value : α → β) {items : List α} (distinct : (items.map key).Nodup) :
    (collect key (fun _ item => value item) items).entries.Perm
      (items.map fun item => (key item, value item)) := by
  induction items using List.reverseRecOn with
  | nil => exact .refl _
  | append_singleton items item induction =>
      rw [List.map_append, List.nodup_append] at distinct
      obtain ⟨apart, -, absent⟩ := distinct
      have last : collect key (fun _ item => value item) (items ++ [item]) =
          (collect key (fun _ item => value item) items).set (key item) (value item) := by
        rw [collect, List.foldl_append]
        rfl
      have missing : (collect key (fun _ item => value item) items).get? (key item) = none := by
        rw [get?_collect_eq_none_iff]
        intro other member
        exact absent (key other) (List.mem_map_of_mem member) (key item) List.mem_cons_self
      have stored := Dictionary.perm_set (collect key (fun _ item => value item) items) (key item)
        (value item)
      rw [Dictionary.erase_of_get?_none missing] at stored
      rw [last, List.map_append]
      exact stored.trans (((induction apart).cons _).trans (List.perm_append_singleton _ _).symm)

end

/-! ## Sorts and least items -/

section

variable [LinearOrder Key]

/-- `sorted(items, key=key)` -/
def sortBy (key : α → Key) (items : List α) : List α :=
  items.insertionSort fun first second => key first ≤ key second

theorem sortBy_perm (key : α → Key) (items : List α) : (sortBy key items).Perm items :=
  List.perm_insertionSort _ items

theorem sortBy_pairwise (key : α → Key) (items : List α) :
    (sortBy key items).Pairwise fun first second => key first ≤ key second := by
  have : Std.Total fun first second : α => key first ≤ key second :=
    ⟨fun first second => le_total (key first) (key second)⟩
  have : IsTrans α fun first second => key first ≤ key second :=
    ⟨fun _ _ _ => le_trans⟩
  exact List.pairwise_insertionSort _ items

variable {key : α → Key} {first second : List α}

/-- No two items of the list share a key. -/
def Apart (key : α → Key) (items : List α) : Prop :=
  ∀ item ∈ items, ∀ other ∈ items, key item = key other → item = other

theorem sortBy_eq_of_perm (perm : first.Perm second) (apart : Apart key first) :
    sortBy key first = sortBy key second := by
  have listed : ∀ item ∈ sortBy key first, item ∈ first :=
    fun item member => (sortBy_perm key first).mem_iff.mp member
  have reordered : (sortBy key first).Perm (sortBy key second) :=
    (sortBy_perm key first).trans (perm.trans (sortBy_perm key second).symm)
  refine List.Perm.eq_of_pairwise ?_ (sortBy_pairwise key first) (sortBy_pairwise key second)
    reordered
  intro item other itemMember otherMember below above
  exact apart item (listed item itemMember) other
    (listed other (reordered.mem_iff.mpr otherMember)) (le_antisymm below above)

/-- Items that are changed without their keys are sorted the same. -/
theorem map_sortBy (change : α → β) {key : α → Key} {changedKey : β → Key} {items : List α}
    (kept : ∀ item ∈ items, key item = changedKey (change item)) :
    (sortBy key items).map change = sortBy changedKey (items.map change) := by
  refine List.map_insertionSort (r := fun first second => key first ≤ key second)
    (s := fun first second => changedKey first ≤ changedKey second) change items ?_
  intro first firstMember second secondMember
  rw [kept first firstMember, kept second secondMember]

theorem argmin_eq_of_perm (perm : first.Perm second) (apart : Apart key first) :
    first.argmin key = second.argmin key := by
  cases least : first.argmin key with
  | none =>
      rw [List.argmin_eq_none.mp least] at perm
      rw [List.nil_perm.mp perm, List.argmin_nil]
  | some item =>
      cases other : second.argmin key with
      | none =>
          rw [List.argmin_eq_none.mp other] at perm
          rw [List.perm_nil.mp perm, List.argmin_nil] at least
          cases least
      | some found =>
          have itemMember := List.argmin_mem least
          have foundMember := perm.mem_iff.mpr (List.argmin_mem other)
          have below := List.le_of_mem_argmin foundMember least
          have above := List.le_of_mem_argmin (perm.mem_iff.mp itemMember) other
          rw [apart item itemMember found foundMember (le_antisymm below above)]

end

end Keyed

end RAGuardian
