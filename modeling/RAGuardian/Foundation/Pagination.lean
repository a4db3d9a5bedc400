import Mathlib.Data.List.Sort

/-! # Pages of a growing list

The entries of a list ascend by a key, and new entries are only appended. A
reader follows a cursor through the list one page at a time, in either
direction. -/

namespace RAGuardian.Pagination

variable {α : Type u} (key : α → Nat)

/-! ## Cursors -/

/-- The keys increase along the list. -/
def Ascending (entries : List α) : Prop :=
  entries.Pairwise fun left right => key left < key right

/-- The entries past a cursor. -/
def above (cursor : Int) (entries : List α) : List α :=
  entries.filter fun entry => decide (cursor < key entry)

/-- The entries short of a cursor, all of them if there is no cursor. -/
def below (cursor : Option Int) (entries : List α) : List α :=
  entries.filter fun entry => cursor.all fun cursor => decide ((key entry : Int) < cursor)

@[simp] theorem mem_above {cursor : Int} {entries : List α} {entry : α} :
    entry ∈ above key cursor entries ↔ entry ∈ entries ∧ cursor < key entry := by
  simp [above]

@[simp] theorem below_none (entries : List α) : below key none entries = entries := by
  simp [below]

theorem above_append (cursor : Int) (entries others : List α) :
    above key cursor (entries ++ others) = above key cursor entries ++ above key cursor others :=
  List.filter_append ..

theorem below_append (cursor : Option Int) (entries others : List α) :
    below key cursor (entries ++ others) = below key cursor entries ++ below key cursor others :=
  List.filter_append ..

theorem above_of_forall_gt {cursor : Int} {entries : List α}
    (past : ∀ entry ∈ entries, cursor < key entry) : above key cursor entries = entries :=
  List.filter_eq_self.mpr fun entry member => decide_eq_true (past entry member)

theorem above_of_forall_le {cursor : Int} {entries : List α}
    (short : ∀ entry ∈ entries, (key entry : Int) ≤ cursor) : above key cursor entries = [] :=
  List.filter_eq_nil_iff.mpr fun entry member => by simpa using short entry member

theorem below_of_forall_lt {cursor : Int} {entries : List α}
    (short : ∀ entry ∈ entries, (key entry : Int) < cursor) :
    below key (some cursor) entries = entries :=
  List.filter_eq_self.mpr fun entry member => decide_eq_true (short entry member)

theorem below_of_forall_ge {cursor : Int} {entries : List α}
    (past : ∀ entry ∈ entries, cursor ≤ key entry) : below key (some cursor) entries = [] :=
  List.filter_eq_nil_iff.mpr fun entry member => by simpa using past entry member

/-- What lies past a later cursor lies past an earlier one. -/
theorem above_above {earlier later : Int} (ordered : earlier ≤ later) (entries : List α) :
    above key later (above key earlier entries) = above key later entries := by
  unfold above
  rw [List.filter_filter]
  apply List.filter_congr
  intro entry _
  simp only [← Bool.decide_and, decide_eq_decide]
  omega

/-- What lies short of an entry short of a cursor lies short of the cursor. -/
theorem below_below {cursor : Option Int} {entries : List α} {entry : α}
    (member : entry ∈ below key cursor entries) :
    below key (some (key entry : Int)) (below key cursor entries) =
      below key (some (key entry : Int)) entries := by
  have short := (List.mem_filter.mp member).2
  unfold below
  rw [List.filter_filter]
  apply List.filter_congr
  intro other _
  cases cursor with
  | none => simp
  | some cursor =>
      simp only [Option.all_some, decide_eq_true_eq] at short
      simp only [Option.all_some, ← Bool.decide_and, decide_eq_decide]
      omega

variable {key}

theorem Ascending.past {entries : List α} (ascending : Ascending key entries) (cursor : Int) :
    Ascending key (above key cursor entries) :=
  List.Pairwise.filter _ ascending

theorem Ascending.short {entries : List α} (ascending : Ascending key entries)
    (cursor : Option Int) : Ascending key (below key cursor entries) :=
  List.Pairwise.filter _ ascending

/-- An entry splits an ascending list by its key. -/
theorem Ascending.splits {front back : List α} {entry : α}
    (ascending : Ascending key (front ++ entry :: back)) :
    above key (key entry) (front ++ entry :: back) = back ∧
      below key (some (key entry)) (front ++ entry :: back) = front := by
  obtain ⟨-, rest, across⟩ := List.pairwise_append.mp ascending
  have earlier : ∀ other ∈ front, key other < key entry :=
    fun other member => across other member entry List.mem_cons_self
  have later : ∀ other ∈ back, key entry < key other := fun other member =>
    (List.pairwise_cons.mp rest).1 other member
  constructor
  · rw [above_append, above_of_forall_le key fun other member => by
        have := earlier other member
        omega, List.nil_append, above, List.filter_cons_of_neg (by simp)]
    exact above_of_forall_gt key fun other member => by
      have := later other member
      omega
  · rw [below_append, below_of_forall_lt key fun other member => by
        have := earlier other member
        omega]
    rw [below_of_forall_ge key, List.append_nil]
    intro other member
    rcases List.mem_cons.mp member with rfl | member
    · exact le_refl _
    · have := later other member
      omega

theorem Ascending.key_injective {entries : List α} (ascending : Ascending key entries)
    {left right : α} (leftMember : left ∈ entries) (rightMember : right ∈ entries)
    (same : key left = key right) : left = right := by
  obtain ⟨front, back, rfl⟩ := List.append_of_mem leftMember
  obtain ⟨-, rest, across⟩ := List.pairwise_append.mp ascending
  rcases List.mem_append.mp rightMember with member | member
  · have := across right member left List.mem_cons_self
    omega
  · rcases List.mem_cons.mp member with rfl | member
    · rfl
    · have := (List.pairwise_cons.mp rest).1 right member
      omega

theorem Ascending.sort_eq {entries : List α} (ascending : Ascending key entries) :
    entries.insertionSort (fun left right => key left ≤ key right) = entries :=
  List.Pairwise.insertionSort_eq (ascending.imp fun ordered => Nat.le_of_lt ordered)

/-- Sorted the other way, an ascending list is reversed. -/
theorem Ascending.sort_eq_reverse {entries : List α} (ascending : Ascending key entries) :
    entries.insertionSort (fun left right => key right ≤ key left) = entries.reverse := by
  have sorted : entries.reverse.Pairwise fun left right => key right ≤ key left :=
    List.pairwise_reverse.mpr (ascending.imp fun ordered => Nat.le_of_lt ordered)
  have permuted := List.perm_insertionSort (fun left right => key right ≤ key left) entries
  refine List.Perm.eq_of_pairwise (fun left right leftMember rightMember descends ascends => ?_)
    (List.pairwise_insertionSort _ entries) sorted (permuted.trans entries.reverse_perm.symm)
  exact ascending.key_injective (permuted.mem_iff.mp leftMember)
    (List.mem_reverse.mp rightMember) (Nat.le_antisymm ascends descends)

/-! ## Pages -/

structure Page (α : Type u) where
  entries : List α
  /-- The cursor of the page to read next, if there is more. -/
  next : Option Nat

variable (key)

/-- The first entries past a cursor. -/
def pageAbove (cursor : Int) (limit : Nat) (entries : List α) : Page α :=
  let rest := above key cursor entries
  let page := rest.take limit
  ⟨page, if limit < rest.length then page.getLast?.map key else none⟩

/-- The last entries short of a cursor. -/
def pageBelow (cursor : Option Int) (limit : Nat) (entries : List α) : Page α :=
  let rest := below key cursor entries
  let page := rest.drop (rest.length - limit)
  ⟨page, if limit < rest.length then page.head?.map key else none⟩

/-- One entry more than a page shows whether there is another page. -/
theorem probe_more (limit : Nat) (rest : List α) :
    decide (limit < (rest.take (limit + 1)).length) = decide (limit < rest.length) := by
  rw [List.length_take, decide_eq_decide]
  omega

theorem probe_page (limit : Nat) (rest : List α) :
    (if decide (limit < rest.length) then (rest.take (limit + 1)).take limit
      else rest.take (limit + 1)) = rest.take limit := by
  by_cases more : limit < rest.length
  · rw [if_pos (decide_eq_true more), List.take_take, Nat.min_eq_left (Nat.le_succ limit)]
  · rw [if_neg (by simpa using more), List.take_of_length_le (by omega),
      List.take_of_length_le (by omega)]

variable {key}
variable {entries : List α} {limit next : Nat}

theorem pageAbove_last {cursor : Int} (positive : 0 < limit)
    (last : (pageAbove key cursor limit entries).next = none) :
    (pageAbove key cursor limit entries).entries = above key cursor entries := by
  simp only [pageAbove] at last ⊢
  split at last
  · rename_i more
    rw [Option.map_eq_none_iff, List.getLast?_eq_none_iff, List.take_eq_nil_iff] at last
    rcases last with zero | empty
    · omega
    · rw [empty] at more
      cases more
  · rename_i done
    exact List.take_of_length_le (by omega)

theorem pageBelow_last {cursor : Option Int} (positive : 0 < limit)
    (last : (pageBelow key cursor limit entries).next = none) :
    (pageBelow key cursor limit entries).entries = below key cursor entries := by
  simp only [pageBelow] at last ⊢
  split at last
  · rename_i more
    rw [Option.map_eq_none_iff, List.head?_eq_none_iff, List.drop_eq_nil_iff] at last
    omega
  · rename_i done
    rw [Nat.sub_eq_zero_of_le (by omega), List.drop_zero]

/-- A page that is not the last one is followed by what lies past its cursor. -/
theorem Ascending.pageAbove_more (ascending : Ascending key entries) {cursor : Int}
    (more : (pageAbove key cursor limit entries).next = some next) :
    (∃ entry ∈ above key cursor entries, key entry = next) ∧
      (pageAbove key cursor limit entries).entries ≠ [] ∧
      above key cursor entries =
        (pageAbove key cursor limit entries).entries ++ above key next entries := by
  simp only [pageAbove, Option.ite_none_right_eq_some, Option.map_eq_some_iff] at more ⊢
  obtain ⟨-, entry, last, rfl⟩ := more
  obtain ⟨front, taken⟩ := List.getLast?_eq_some_iff.mp last
  have parts := List.take_append_drop limit (above key cursor entries)
  rw [taken, List.append_assoc, List.singleton_append] at parts
  have member : entry ∈ above key cursor entries :=
    parts ▸ List.mem_append_right front List.mem_cons_self
  have ordered := ascending.past cursor
  rw [← parts] at ordered
  have split := ordered.splits.1
  rw [parts, above_above key ((mem_above key).mp member).2.le] at split
  refine ⟨⟨entry, member, rfl⟩, by simp [taken], ?_⟩
  rw [split, List.take_append_drop]

/-- A page that is not the last one is preceded by what lies short of its cursor. -/
theorem Ascending.pageBelow_more (ascending : Ascending key entries) {cursor : Option Int}
    (more : (pageBelow key cursor limit entries).next = some next) :
    (∃ entry ∈ entries, key entry = next) ∧
      (pageBelow key cursor limit entries).entries ≠ [] ∧
      below key cursor entries =
        below key (some (next : Int)) entries ++ (pageBelow key cursor limit entries).entries := by
  simp only [pageBelow, Option.ite_none_right_eq_some, Option.map_eq_some_iff] at more ⊢
  obtain ⟨-, entry, first, rfl⟩ := more
  obtain ⟨back, dropped⟩ := List.head?_eq_some_iff.mp first
  have parts := List.take_append_drop ((below key cursor entries).length - limit)
    (below key cursor entries)
  rw [dropped] at parts
  have member : entry ∈ below key cursor entries :=
    parts ▸ List.mem_append_right _ List.mem_cons_self
  have ordered := ascending.short cursor
  rw [← parts] at ordered
  have split := ordered.splits.2
  rw [parts, below_below key member] at split
  refine ⟨⟨entry, List.mem_of_mem_filter member, rfl⟩, by simp [dropped], ?_⟩
  rw [split, List.take_append_drop]

/-! ## Following a cursor -/

/-- Entries are only appended from one reading to the next. -/
def Growing (log : Nat → List α) : Prop :=
  ∀ page, log page <+: log (page + 1)

theorem Growing.le {log : Nat → List α} (growing : Growing log) {earlier later : Nat}
    (ordered : earlier ≤ later) : log earlier <+: log later := by
  induction later, ordered using Nat.le_induction with
  | base => exact List.prefix_rfl
  | succ later _ induction => exact induction.trans (growing later)

variable (key) in
/-- The entries of all pages upwards from a cursor, with the number of the last
page. -/
def followAbove (log : Nat → List α) (limit : Nat → Nat) : Nat → Nat → Int →
    Option (List α × Nat)
  | 0, _, _ => none
  | fuel + 1, page, cursor =>
      let read := pageAbove key cursor (limit page) (log page)
      match read.next with
      | none => some (read.entries, page)
      | some next => (followAbove log limit fuel (page + 1) next).map fun (rest, last) =>
          (read.entries ++ rest, last)

variable (key) in
/-- The entries of all pages downwards from a cursor, the page read last in
front. -/
def followBelow (log : Nat → List α) (limit : Nat → Nat) : Nat → Nat → Option Int →
    Option (List α)
  | 0, _, _ => none
  | fuel + 1, page, cursor =>
      let read := pageBelow key cursor (limit page) (log page)
      match read.next with
      | none => some read.entries
      | some next =>
          (followBelow log limit fuel (page + 1) (some (next : Int))).map (· ++ read.entries)

section Following

variable {log : Nat → List α} {limits : Nat → Nat}

/-- Entries that are appended lie past every entry there is. -/
theorem appended_past {entries appended : List α} (ascending : Ascending key (entries ++ appended))
    {entry other : α} (present : entry ∈ entries) (new : other ∈ appended) :
    key entry < key other :=
  (List.pairwise_append.mp ascending).2.2 entry present other new

/-- Downwards, a reader gets what the list held at the first page. -/
theorem followBelow_eq (growing : Growing log) (ascending : ∀ page, Ascending key (log page))
    (positive : ∀ page, 0 < limits page) (fuel page : Nat) (cursor : Option Int)
    (enough : (below key cursor (log page)).length < fuel) :
    followBelow key log limits fuel page cursor = some (below key cursor (log page)) := by
  induction fuel generalizing page cursor with
  | zero => cases enough
  | succ fuel induction =>
      rw [followBelow]
      cases read : (pageBelow key cursor (limits page) (log page)).next with
      | none => exact congrArg some (pageBelow_last (positive page) read)
      | some next =>
          obtain ⟨⟨entry, present, same⟩, nonempty, parts⟩ :=
            (ascending page).pageBelow_more read
          have unchanged : below key (some (next : Int)) (log (page + 1)) =
              below key (some (next : Int)) (log page) := by
            obtain ⟨appended, grown⟩ := growing page
            have ordered := ascending (page + 1)
            rw [← grown] at ordered ⊢
            have beyond : ∀ other ∈ appended, (next : Int) ≤ key other := by
              intro other new
              have := appended_past ordered present new
              omega
            rw [below_append, below_of_forall_ge key beyond, List.append_nil]
          have shorter := congrArg List.length parts
          rw [List.length_append] at shorter
          have read := List.length_pos_iff.mpr nonempty
          have rest := induction (page + 1) (some (next : Int)) (by rw [unchanged]; omega)
          simp only [rest, unchanged, Option.map_some, ← parts]

/-- Upwards, a reader gets what the list holds at the last page. -/
theorem followAbove_eq (growing : Growing log) (ascending : ∀ page, Ascending key (log page))
    (positive : ∀ page, 0 < limits page) (fuel page : Nat) (cursor : Int) {rest : List α}
    {last : Nat} (followed : followAbove key log limits fuel page cursor = some (rest, last)) :
    page ≤ last ∧ rest = above key cursor (log last) := by
  induction fuel generalizing page cursor rest with
  | zero => cases followed
  | succ fuel induction =>
      rw [followAbove] at followed
      cases read : (pageAbove key cursor (limits page) (log page)).next with
      | none =>
          simp only [read, Option.some.injEq, Prod.mk.injEq] at followed
          obtain ⟨rfl, rfl⟩ := followed
          exact ⟨le_refl page, pageAbove_last (positive page) read⟩
      | some next =>
          simp only [read, Option.map_eq_some_iff, Prod.mk.injEq, Prod.exists] at followed
          obtain ⟨later, final, followed, rfl, rfl⟩ := followed
          obtain ⟨reached, rfl⟩ := induction (page + 1) next followed
          obtain ⟨⟨entry, past, same⟩, -, parts⟩ := (ascending page).pageAbove_more read
          obtain ⟨present, beyond⟩ := (mem_above key).mp past
          refine ⟨by omega, ?_⟩
          obtain ⟨appended, grown⟩ := growing.le (Nat.le_of_succ_le reached)
          have ordered := ascending final
          rw [← grown] at ordered ⊢
          have new : ∀ other ∈ appended, (next : Int) < key other := by
            intro other member
            have := appended_past ordered present member
            omega
          have further : ∀ other ∈ appended, cursor < key other := by
            intro other member
            have := new other member
            omega
          rw [above_append, above_append, parts, above_of_forall_gt key new,
            above_of_forall_gt key further, List.append_assoc]

/-- A reader that came to an end needs no more fuel. -/
theorem followAbove_of_le {fuel more page : Nat} {cursor : Int} {read : List α × Nat}
    (enough : fuel ≤ more) (followed : followAbove key log limits fuel page cursor = some read) :
    followAbove key log limits more page cursor = some read := by
  induction fuel generalizing more page cursor read with
  | zero => cases followed
  | succ fuel induction =>
      obtain ⟨more, rfl⟩ := Nat.exists_eq_add_of_le' (Nat.le_trans (Nat.le_add_left 1 fuel) enough)
      rw [followAbove] at followed ⊢
      cases next : (pageAbove key cursor (limits page) (log page)).next with
      | none =>
          simp only [next] at followed ⊢
          exact followed
      | some next =>
          simp only [next, Option.map_eq_some_iff] at followed ⊢
          obtain ⟨rest, followed, same⟩ := followed
          exact ⟨rest, induction (by omega) followed, same⟩

/-- A reader upwards comes to an end if the list does. -/
theorem followAbove_ends (growing : Growing log) (ascending : ∀ page, Ascending key (log page))
    {bound : Nat} (bounded : ∀ page, (log page).length ≤ bound) (fuel page : Nat)
    (cursor : Int)
    (enough : bound + (above key cursor (log page)).length < fuel + (log page).length) :
    (followAbove key log limits fuel page cursor).isSome = true := by
  induction fuel generalizing page cursor with
  | zero =>
      have := bounded page
      have : (above key cursor (log page)).length ≤ (log page).length := List.length_filter_le ..
      omega
  | succ fuel induction =>
      rw [followAbove]
      cases read : (pageAbove key cursor (limits page) (log page)).next with
      | none => rfl
      | some next =>
          obtain ⟨-, nonempty, parts⟩ := (ascending page).pageAbove_more read
          have shorter := congrArg List.length parts
          rw [List.length_append] at shorter
          have advanced := List.length_pos_iff.mpr nonempty
          obtain ⟨appended, grown⟩ := growing page
          have added : (above key next appended).length ≤ appended.length :=
            List.length_filter_le ..
          have rest := induction (page + 1) next (by
            rw [← grown, above_append, List.length_append, List.length_append]
            omega)
          simpa only [Option.isSome_map] using rest

end Following

end RAGuardian.Pagination
