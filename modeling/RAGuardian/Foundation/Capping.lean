import Mathlib.Data.List.Basic
import Mathlib.Data.List.Infix
import Mathlib.Order.Lattice

/-! # Selections capped by a key

From a list, take the items that have few earlier ones of their key, then the others, up
to a limit. -/

namespace RAGuardian.Capping

variable {α : Type u} {Key : Type v} [DecidableEq Key]

/-! ## Places -/

/-- Fewer than `cap` earlier items have the key of the item at this place. -/
def withinCap (key : α → Key) (cap : Nat) (items : List α) (place : α × Nat) : Bool :=
  decide ((items.take place.2).countP (fun other => key other = key place.1) < cap)

/-- The places within the cap, and those beyond it. -/
def within (key : α → Key) (cap : Nat) (items : List α) : List (α × Nat) :=
  items.zipIdx.filter (withinCap key cap items)

def beyond (key : α → Key) (cap : Nat) (items : List α) : List (α × Nat) :=
  items.zipIdx.filter fun place => !withinCap key cap items place

/-- The places selected, in order. -/
def select (key : α → Key) (limit cap : Nat) (items : List α) : List (α × Nat) :=
  (within key cap items ++ beyond key cap items).take limit

section

variable {key : α → Key} {limit cap : Nat} {items : List α}

theorem order_perm (key : α → Key) (cap : Nat) (items : List α) :
    (within key cap items ++ beyond key cap items).Perm items.zipIdx :=
  List.filter_append_perm _ _

theorem withinCap_append {place : α × Nat} (inside : place.2 ≤ items.length) (later : List α) :
    withinCap key cap (items ++ later) place = withinCap key cap items place := by
  rw [withinCap, withinCap, List.take_append_of_le_length inside]

theorem filter_earlier (test : Bool → Bool) (items later : List α) :
    items.zipIdx.filter (fun place => test (withinCap key cap (items ++ later) place)) =
      items.zipIdx.filter fun place => test (withinCap key cap items place) := by
  refine List.filter_congr fun place member => ?_
  rw [withinCap_append (List.snd_lt_of_mem_zipIdx member).le]

theorem within_prefix (key : α → Key) (cap : Nat) (items later : List α) :
    within key cap items <+: within key cap (items ++ later) := by
  rw [within, within, List.zipIdx_append, List.filter_append]
  exact ⟨_, congrArg (· ++ _) (filter_earlier id items later).symm⟩

theorem beyond_concat (item : α) :
    beyond key cap (items ++ [item]) = beyond key cap items ++
      if items.countP (fun other => key other = key item) < cap then []
      else [(item, items.length)] := by
  rw [beyond, List.zipIdx_append, List.filter_append, filter_earlier]
  congr 1
  by_cases room : items.countP (fun other => key other = key item) < cap
  · simp [withinCap, room]
  · simp [withinCap, room]

theorem within_concat (item : α) :
    within key cap (items ++ [item]) = within key cap items ++
      if items.countP (fun other => key other = key item) < cap then [(item, items.length)]
      else [] := by
  rw [within, List.zipIdx_append, List.filter_append]
  rw [show items.zipIdx.filter (withinCap key cap (items ++ [item])) = within key cap items from
    filter_earlier id items [item]]
  congr 1
  simp [List.filter_cons, withinCap]

/-- As many places of a key are within the cap as the cap allows. -/
theorem countP_within (key : α → Key) (cap : Nat) (items : List α) (name : Key) :
    (within key cap items).countP (fun place => key place.1 = name) =
      min cap (items.countP fun other => key other = name) := by
  induction items using List.reverseRecOn with
  | nil => simp [within]
  | append_singleton items item induction =>
      rw [within_concat, List.countP_append, induction, List.countP_append]
      by_cases same : key item = name
      · subst same
        split
        · rename_i room
          simp
          omega
        · rename_i full
          simp
          omega
      · split
        · simp [same]
        · simp [same]

/-! ## What is selected -/

theorem mem_zipIdx_of_mem_select {place : α × Nat} (member : place ∈ select key limit cap items) :
    place ∈ items.zipIdx :=
  (order_perm key cap items).subset (List.mem_of_mem_take member)

theorem length_select (key : α → Key) (limit cap : Nat) (items : List α) :
    (select key limit cap items).length = min limit items.length := by
  rw [select, List.length_take, (order_perm key cap items).length_eq, List.length_zipIdx]

theorem nodup_positions (key : α → Key) (limit cap : Nat) (items : List α) :
    ((select key limit cap items).map Prod.snd).Nodup := by
  have whole : ((within key cap items ++ beyond key cap items).map Prod.snd).Nodup := by
    rw [((order_perm key cap items).map Prod.snd).nodup_iff, List.zipIdx_map_snd]
    exact List.nodup_range'
  exact ((List.take_sublist limit _).map Prod.snd).nodup whole

/-- When a key is taken more often than the cap allows, everything within the cap is
taken. -/
theorem within_subset_select {name : Key}
    (exceeds : cap < (select key limit cap items).countP fun place => key place.1 = name) :
    within key cap items ⊆ select key limit cap items := by
  by_cases room : (within key cap items).length ≤ limit
  · intro place member
    rw [select, List.take_append]
    exact List.mem_append_left _ (by rwa [List.take_of_length_le room])
  · have only : select key limit cap items = (within key cap items).take limit := by
      rw [select, List.take_append_of_le_length (by omega)]
    rw [only] at exceeds
    have fewer := (List.take_sublist limit (within key cap items)).countP_le
      (p := fun place => decide (key place.1 = name))
    rw [countP_within] at fewer
    omega

/-- The places within the cap come first, and each part is in the order of the list. -/
theorem pairwise_select (key : α → Key) (limit cap : Nat) (items : List α) :
    (select key limit cap items).Pairwise fun first second =>
      withinCap key cap items first = true ∧ withinCap key cap items second = false ∨
        withinCap key cap items first = withinCap key cap items second ∧ first.2 < second.2 := by
  have ascending : items.zipIdx.Pairwise fun first second => first.2 < second.2 := by
    rw [← List.pairwise_map (f := Prod.snd) (R := (· < ·)), List.zipIdx_map_snd]
    exact List.pairwise_lt_range'
  refine List.Pairwise.sublist (List.take_sublist limit _) (List.pairwise_append.mpr ⟨?_, ?_, ?_⟩)
  · refine (ascending.filter _).imp_of_mem fun first second order => ?_
    have left := (List.mem_filter.mp first).2
    have right := (List.mem_filter.mp second).2
    exact .inr ⟨left.trans right.symm, order⟩
  · refine (ascending.filter _).imp_of_mem fun first second order => ?_
    have left := (List.mem_filter.mp first).2
    have right := (List.mem_filter.mp second).2
    rw [Bool.not_eq_true'] at left right
    exact .inr ⟨left.trans right.symm, order⟩
  · intro first firstMember second secondMember
    have right := (List.mem_filter.mp secondMember).2
    rw [Bool.not_eq_true'] at right
    exact .inl ⟨(List.mem_filter.mp firstMember).2, right⟩

end

/-- Two keys that tell the items apart alike select alike. -/
theorem select_congr {OtherKey : Type w} [DecidableEq OtherKey] {key : α → Key}
    {otherKey : α → OtherKey} {items : List α} (limit cap : Nat)
    (same : ∀ first ∈ items, ∀ second ∈ items,
      key first = key second ↔ otherKey first = otherKey second) :
    select key limit cap items = select otherKey limit cap items := by
  have alike : ∀ place ∈ items.zipIdx,
      withinCap key cap items place = withinCap otherKey cap items place := by
    intro place member
    have counts : (items.take place.2).countP (fun other => key other = key place.1) =
        (items.take place.2).countP fun other => otherKey other = otherKey place.1 := by
      refine List.countP_congr fun other earlier => ?_
      rw [decide_eq_true_iff, decide_eq_true_iff]
      exact same other (List.mem_of_mem_take earlier) place.1 (List.fst_mem_of_mem_zipIdx member)
    rw [withinCap, withinCap, counts]
  have firstPart : within key cap items = within otherKey cap items :=
    List.filter_congr alike
  have secondPart : beyond key cap items = beyond otherKey cap items :=
    List.filter_congr fun place member => congrArg (!·) (alike place member)
  rw [select, select, firstPart, secondPart]

/-- A selection as its positions in the list. A position is within the cap if fewer than
`cap` earlier items have its key. -/
structure Selects (key : α → Key) (limit cap : Nat) (items result : List α)
    (positions : List Nat) : Prop where
  distinct : positions.Nodup
  taken : result.map some = positions.map fun position => items[position]?
  length : positions.length = min limit items.length
  capped : ∀ name, cap < result.countP (fun item => key item = name) →
    ∀ position item, items[position]? = some item →
      (items.take position).countP (fun other => key other = key item) < cap →
        position ∈ positions
  ordered : positions.Pairwise fun first second => ∀ firstItem secondItem,
    items[first]? = some firstItem → items[second]? = some secondItem →
      withinCap key cap items (firstItem, first) = true ∧
          withinCap key cap items (secondItem, second) = false ∨
        withinCap key cap items (firstItem, first) =
          withinCap key cap items (secondItem, second) ∧ first < second

theorem select_selects (key : α → Key) (limit cap : Nat) (items : List α) :
    Selects key limit cap items ((select key limit cap items).map Prod.fst)
      ((select key limit cap items).map Prod.snd) where
  distinct := nodup_positions key limit cap items
  taken := by
    rw [List.map_map, List.map_map]
    refine List.map_congr_left fun place member => ?_
    exact (List.mem_zipIdx_iff_getElem?.mp (mem_zipIdx_of_mem_select member)).symm
  length := by rw [List.length_map, length_select]
  capped := by
    intro name exceeds position item stored room
    rw [List.countP_map] at exceeds
    refine List.mem_map.mpr ⟨(item, position), within_subset_select exceeds ?_, rfl⟩
    exact List.mem_filter.mpr ⟨List.mem_zipIdx_iff_getElem?.mpr stored, decide_eq_true room⟩
  ordered := by
    rw [List.pairwise_map]
    refine (pairwise_select key limit cap items).imp_of_mem ?_
    intro first second firstMember secondMember order firstItem secondItem firstStored secondStored
    have left := List.mem_zipIdx_iff_getElem?.mp (mem_zipIdx_of_mem_select firstMember)
    have right := List.mem_zipIdx_iff_getElem?.mp (mem_zipIdx_of_mem_select secondMember)
    rw [left] at firstStored
    rw [right] at secondStored
    cases firstStored
    cases secondStored
    exact order

end RAGuardian.Capping
