import RAGuardian.Access.KeyRestriction
import RAGuardian.Foundation.Noninterference

/-! # Deletions that are refused

Deletions of a user whose callback raises in the preflight, beside updates of the user.
Which steps keep such deletions neutral, and that they leave the user as the updates
have it. -/

namespace RAGuardian.Access

open Concurrency Execution

/-! ## Where the calls are -/

abbrev UserTask (hash : String → String) : Type :=
  Concurrency.Task (userSystem hash)

def UserCall.isDeletion : UserCall → Bool
  | .deleteUserAfter _ => true
  | _ => false

section

variable {hash : String → String}

/-- A deletion that has read the user and has not returned. -/
def inProgress (task : UserTask hash) : Bool :=
  task.call.isDeletion && task.running && decide (0 < task.trail.length)

/-- A deletion between its first and its last phase. -/
def marked (task : UserTask hash) : Bool :=
  task.call.isDeletion && task.running && decide (1 < task.trail.length)

/-- A deletion that is about to write the saved values back. -/
def restoring (task : UserTask hash) : Bool :=
  task.call.isDeletion && task.running && decide (2 < task.trail.length)

/-- The row a call has read first. -/
def readRow (userId : String) (task : UserTask hash) : Option UserRow :=
  task.trail.head?.bind fun step => step.before.userById userId

/-- The flag an update is about to write. -/
def enabling (task : UserTask hash) : Option Bool :=
  match task.call with
  | .updateUser patch => if task.running = true ∧ task.trail.length = 1 then patch.enabled else none
  | _ => none

/-- A step that keeps refused deletions neutral. A deletion reads the user while no other
one is in progress, and marks the user while no update that has read it is about to enable
it. While a deletion is in progress, an update writes the flag the deletion has saved. The
saved values are written back on a database that is not locked. -/
def StepCareful (userId : String) (machine : Machine (userSystem hash)) (index : Nat)
    (draw : UserDraw) : Prop :=
  ∀ task ∈ machine.tasks[index]?,
    (draw.locked = false →
      (task.call.isDeletion = true → task.running = true → task.trail.length = 0 →
        ∀ other ∈ machine.tasks, inProgress other = false) ∧
      (task.call.isDeletion = true → task.running = true → task.trail.length = 1 →
        ∀ other ∈ machine.tasks, enabling other ≠ some true) ∧
      ∀ value ∈ enabling task, ∀ other ∈ machine.tasks, inProgress other = true →
        (readRow userId other).map (·.enabled) = some value) ∧
    (restoring task = true → draw.locked = false)

instance (userId : String) (machine : Machine (userSystem hash)) (index : Nat)
    (draw : UserDraw) : Decidable (StepCareful userId machine index draw) := by
  unfold StepCareful
  infer_instance

/-! ## The flag -/

/-- The flag an event writes, if it does. -/
def flagWritten (machine : Machine (userSystem hash)) : Event UserDraw UserCall → Option Bool
  | .start _ => none
  | .step index draw =>
      if draw.locked = true then none else machine.tasks[index]?.bind enabling

/-- The flag the last update of a run has written, or the one before. -/
def lastEnabled (machine : Machine (userSystem hash)) :
    List (Event UserDraw UserCall) → Bool → Bool
  | [], value => value
  | event :: events, value =>
      lastEnabled (machine.next event) events ((flagWritten machine event).getD value)

theorem lastEnabled_concat (machine : Machine (userSystem hash))
    (past : List (Event UserDraw UserCall)) (event : Event UserDraw UserCall) (value : Bool) :
    lastEnabled machine (past ++ [event]) value =
      (flagWritten (run Machine.next machine past) event).getD
        (lastEnabled machine past value) := by
  induction past generalizing machine value with
  | nil => rfl
  | cons head past induction => exact induction (machine.next head) _

/-! ## The stages of the calls -/

/-- A deletion of the user or an update of the user at one of its stages, with the steps
it has taken. -/
inductive Known (userId : String) : UserTask hash → Prop
  | selecting {deletion : UserDeletion} (same : deletion.userId = userId) :
      Known userId ⟨.deleteUserAfter deletion, [], deleteUserAfter deletion⟩
  | marking {deletion : UserDeletion} (same : deletion.userId = userId)
      {first : Step UserRequest UserDraw UserDatabase} {original : UserRow}
      (read : first.before.userById userId = some original) :
      Known userId ⟨.deleteUserAfter deletion, [first], deletion.mark original⟩
  | callback {deletion : UserDeletion} (same : deletion.userId = userId)
      {first second : Step UserRequest UserDraw UserDatabase} {original : UserRow}
      (read : first.before.userById userId = some original) :
      Known userId ⟨.deleteUserAfter deletion, [first, second], deletion.runCallback original⟩
  | restoring {deletion : UserDeletion} (same : deletion.userId = userId)
      {first second third : Step UserRequest UserDraw UserDatabase} {original : UserRow}
      (read : first.before.userById userId = some original) (message : String) :
      Known userId ⟨.deleteUserAfter deletion, [first, second, third],
        deletion.restore original message⟩
  | reading {patch : UserPatch} (same : patch.userId = userId) :
      Known userId ⟨.updateUser patch, [], updateUser patch⟩
  | writing {patch : UserPatch} (same : patch.userId = userId)
      (first : Step UserRequest UserDraw UserDatabase) (row : UserRow) :
      Known userId ⟨.updateUser patch, [first], writePatch patch row⟩
  | done (call : UserCall) (trail : List (Step UserRequest UserDraw UserDatabase))
      (result : Except UserStoreError call.Result) : Known userId ⟨call, trail, .done result⟩

theorem inProgress_of_marked {task : UserTask hash} (isMarked : marked task = true) :
    inProgress task = true := by
  simp only [marked, inProgress, Bool.and_eq_true, decide_eq_true_eq] at isMarked ⊢
  exact ⟨isMarked.1, by omega⟩

theorem marked_of_inProgress {task : UserTask hash} (idle : inProgress task = false) :
    marked task = false := by
  by_contra running
  rw [inProgress_of_marked (by simpa using running)] at idle
  cases idle

/-- A deletion writes no flag of its own. -/
theorem enabling_of_marked {task : UserTask hash} (isMarked : marked task = true) :
    enabling task = none := by
  rcases task with ⟨call, trail, remaining⟩
  cases call with
  | updateUser patch => simp [marked, UserCall.isDeletion] at isMarked
  | _ => rfl

/-- The values a row has at rest. -/
structure AtRest (user : UserRow) (enabled : Bool) (row : UserRow) : Prop where
  enabled : row.enabled = enabled
  deletionStatus : row.deletionStatus = user.deletionStatus
  deletionError : row.deletionError = user.deletionError

/-- What a run keeps: the calls are where they can be, deletions do not overlap, what a
deletion has saved are the values at rest, no update is about to enable a marked user, and
the user is marked or at rest. -/
structure Neutral (userId : String) (user : UserRow) (enabled : Bool)
    (machine : Machine (userSystem hash)) : Prop where
  known : ∀ (index : Nat) (task : UserTask hash), machine.tasks[index]? = some task →
    Known userId task
  alone : ∀ (left right : Nat) (first second : UserTask hash), left ≠ right →
    machine.tasks[left]? = some first → machine.tasks[right]? = some second →
    inProgress first = true → inProgress second = false
  saved : ∀ (index : Nat) (task : UserTask hash), machine.tasks[index]? = some task →
    inProgress task = true → ∃ original, readRow userId task = some original ∧
      AtRest user enabled original
  pending : ∀ (left right : Nat) (first second : UserTask hash),
    machine.tasks[left]? = some first → machine.tasks[right]? = some second →
    marked first = true → enabling second ≠ some true
  row : ∃ row, machine.state.userById userId = some row ∧
    (∀ (index : Nat) (task : UserTask hash), machine.tasks[index]? = some task →
      marked task = true → row.enabled = false ∧ row.deletionStatus = "deleting") ∧
    ((∀ (index : Nat) (task : UserTask hash), machine.tasks[index]? = some task →
      marked task = false) → AtRest user enabled row)

/-! ## Steps -/

/-- The user after an update of the user. -/
theorem userById_updateUsers {database : UserDatabase} {userId : String} {row : UserRow}
    (found : database.userById userId = some row) (update : UserUpdate) :
    (database.updateUsers (·.id == userId) update).userById userId = some (update.apply row) := by
  have stored := (Table.find?_eq_some_iff_of_unique database.constraints.userKeys).mp found
  apply (Table.find?_eq_some_iff_of_unique
    (database.updateUsers (·.id == userId) update).constraints.userKeys).mpr
  refine ⟨Table.mem_update.mpr ⟨row, stored.1, ?_⟩, (update.id row).trans stored.2⟩
  rw [if_pos (by simp [stored.2])]

/-- A call makes its next request. -/
theorem advanced_asking {call : UserCall} {trail : List (Step UserRequest UserDraw UserDatabase)}
    {request : UserRequest} {next : request.Payload → UserProgram call.Result} {draw : UserDraw}
    {state : UserDatabase} :
    (⟨call, trail, asking request next⟩ : UserTask hash).advanced draw state =
      (⟨call, trail ++ [⟨request, draw, state⟩], propagating next (request.execute draw state).1⟩,
        (request.execute draw state).2) :=
  rfl

theorem execute_unlocked {draw : UserDraw} (unlocked : draw.locked = false)
    {request : UserRequest} {state : UserDatabase} :
    request.execute draw state = request.perform draw state := by
  rw [UserRequest.execute, if_neg (by simp [unlocked])]

/-- A call whose request finds the database locked is done. -/
theorem advanced_locked {call : UserCall} {trail : List (Step UserRequest UserDraw UserDatabase)}
    {request : UserRequest} (next : request.Payload → UserProgram call.Result) {draw : UserDraw}
    {state : UserDatabase} (locked : draw.locked = true) (reaches : request.isCallback = false) :
    (⟨call, trail, asking request next⟩ : UserTask hash).advanced draw state =
      (⟨call, trail ++ [⟨request, draw, state⟩], .done (.error .locked)⟩, state) := by
  rw [advanced_asking, UserRequest.execute, if_pos ⟨locked, reaches⟩]
  rfl

/-- A call runs code of its caller. -/
theorem advanced_callback {call : UserCall} {trail : List (Step UserRequest UserDraw UserDatabase)}
    {next : Except UserStoreError Unit → UserProgram call.Result} {draw : UserDraw}
    {state : UserDatabase} :
    (⟨call, trail, .call .callback next⟩ : UserTask hash).advanced draw state =
      (⟨call, trail ++ [⟨.callback, draw, state⟩], next draw.callback⟩, state) := by
  have executed : UserRequest.callback.execute draw state = (draw.callback, state) := by
    rw [UserRequest.execute, if_neg (by simp [UserRequest.isCallback])]
    rfl
  rw [Task.advanced_of_call rfl, Task.answered]
  change (_, ((userSystem hash).execute draw .callback state).2) = _
  rw [show (userSystem hash).execute draw .callback state = (draw.callback, state) from executed]

namespace Neutral

variable {userId : String} {user : UserRow} {enabled : Bool} {state : UserDatabase}
  {tasks : List (UserTask hash)}

/-- A call has taken a step. -/
theorem replace (neutral : Neutral userId user enabled ⟨state, tasks⟩) {index : Nat}
    {task next : UserTask hash} (found : tasks[index]? = some task) (known : Known userId next)
    {flag : Bool} {after : UserDatabase}
    (alone : inProgress next = true → inProgress task = true ∨
      ∀ (position : Nat) (other : UserTask hash), tasks[position]? = some other →
        inProgress other = false)
    (saved : inProgress next = true → ∃ original, readRow userId next = some original ∧
      AtRest user flag original)
    (flags : flag = enabled ∨ ∀ (position : Nat) (other : UserTask hash),
      tasks[position]? = some other → inProgress other = false)
    (pending : enabling next = some true → ∀ (position : Nat) (other : UserTask hash),
      tasks[position]? = some other → marked other = false)
    (marks : marked next = true → ∀ (position : Nat) (other : UserTask hash),
      tasks[position]? = some other → enabling other ≠ some true)
    (row : ∃ row, after.userById userId = some row ∧
      (marked next = true ∨ (∃ position other, position ≠ index ∧
          tasks[position]? = some other ∧ marked other = true) →
        row.enabled = false ∧ row.deletionStatus = "deleting") ∧
      (marked next = false → (∀ (position : Nat) (other : UserTask hash), position ≠ index →
          tasks[position]? = some other → marked other = false) → AtRest user flag row)) :
    Neutral userId user flag ⟨after, tasks.set index next⟩ := by
  refine ⟨?_, ?_, ?_, ?_, ?_⟩
  · intro position other here
    rcases Machine.getElem?_step here with ⟨rfl, rfl⟩ | ⟨_, old⟩
    · exact known
    · exact neutral.known position other old
  · intro left right first second different leftFound rightFound progress
    rcases Machine.getElem?_step leftFound with ⟨rfl, rfl⟩ | ⟨leftApart, leftOld⟩
    · rcases Machine.getElem?_step rightFound with ⟨rfl, -⟩ | ⟨_, rightOld⟩
      · exact absurd rfl different
      · rcases alone progress with before | none
        · exact neutral.alone left right task second different found rightOld before
        · exact none right second rightOld
    · rcases Machine.getElem?_step rightFound with ⟨rfl, rfl⟩ | ⟨_, rightOld⟩
      · by_contra running
        rcases alone (by simpa using running) with before | none
        · rw [neutral.alone right left task first (Ne.symm different) found leftOld before]
            at progress
          cases progress
        · rw [none left first leftOld] at progress
          cases progress
      · exact neutral.alone left right first second different leftOld rightOld progress
  · intro position other here progress
    rcases Machine.getElem?_step here with ⟨rfl, rfl⟩ | ⟨_, old⟩
    · exact saved progress
    · rcases flags with rfl | none
      · exact neutral.saved position other old progress
      · rw [none position other old] at progress
        cases progress
  · intro left right first second leftFound rightFound isMarked
    rcases Machine.getElem?_step leftFound with ⟨rfl, rfl⟩ | ⟨_, leftOld⟩
    · rcases Machine.getElem?_step rightFound with ⟨rfl, rfl⟩ | ⟨_, rightOld⟩
      · rw [enabling_of_marked isMarked]
        nofun
      · exact marks isMarked right second rightOld
    · rcases Machine.getElem?_step rightFound with ⟨rfl, rfl⟩ | ⟨_, rightOld⟩
      · intro enables
        rw [pending enables left first leftOld] at isMarked
        cases isMarked
      · exact neutral.pending left right first second leftOld rightOld isMarked
  · rcases row with ⟨row, stored, whileMarked, otherwise⟩
    have within : index < tasks.length := (List.getElem?_eq_some_iff.mp found).1
    refine ⟨row, stored, ?_, ?_⟩
    · intro position other here isMarked
      rcases Machine.getElem?_step here with ⟨rfl, rfl⟩ | ⟨apart, old⟩
      · exact whileMarked (.inl isMarked)
      · exact whileMarked (.inr ⟨position, other, apart, old, isMarked⟩)
    · intro none
      apply otherwise
      · exact none index next (List.getElem?_set_self within)
      · intro position other apart old
        exact none position other (by rw [List.getElem?_set_ne (Ne.symm apart)]; exact old)

/-- A call that leaves the database, and neither is in progress nor about to write. -/
theorem quiet (neutral : Neutral userId user enabled ⟨state, tasks⟩) {index : Nat}
    {task next : UserTask hash} (found : tasks[index]? = some task) (unmarked : marked task = false)
    (known : Known userId next) (idle : inProgress next = false) (silent : enabling next = none) :
    Neutral userId user enabled ⟨state, tasks.set index next⟩ := by
  have still := marked_of_inProgress idle
  refine neutral.replace found known ?_ ?_ (.inl rfl) ?_ ?_ ?_
  · rw [idle]
    nofun
  · rw [idle]
    nofun
  · rw [silent]
    nofun
  · rw [still]
    nofun
  · rcases neutral.row with ⟨row, stored, whileMarked, otherwise⟩
    refine ⟨row, stored, ?_, ?_⟩
    · rintro (isMarked | ⟨position, other, _, old, isMarked⟩)
      · rw [still] at isMarked
        cases isMarked
      · exact whileMarked position other old isMarked
    · intro _ none
      apply otherwise
      intro position other old
      by_cases same : position = index
      · subst same
        cases found.symm.trans old
        exact unmarked
      · exact none position other same old

/-- A deletion reads the user. -/
theorem select (neutral : Neutral userId user enabled ⟨state, tasks⟩) {index : Nat}
    {deletion : UserDeletion} (same : deletion.userId = userId) {task : UserTask hash}
    (here : task = ⟨.deleteUserAfter deletion, [], deleteUserAfter deletion⟩)
    (found : tasks[index]? = some task) {draw : UserDraw} (free : draw.locked = false →
      ∀ (position : Nat) (other : UserTask hash), tasks[position]? = some other →
        inProgress other = false) :
    Neutral userId user enabled
      ⟨(task.advanced draw state).2, tasks.set index (task.advanced draw state).1⟩ := by
  subst same here
  rcases neutral.row with ⟨row, stored, whileMarked, otherwise⟩
  cases locked : draw.locked with
  | true =>
      rw [deleteUserAfter, advanced_locked _ locked rfl]
      exact neutral.quiet found rfl (.done _ _ _) rfl rfl
  | false =>
      rw [deleteUserAfter, advanced_asking, execute_unlocked locked, UserRequest.perform, stored]
      have none := free locked
      have rest := otherwise fun position other old => marked_of_inProgress (none position other old)
      refine neutral.replace found (.marking rfl stored) (fun _ => .inr none)
        (fun _ => ⟨row, stored, rest⟩) (.inl rfl) (by rintro ⟨⟩) (by rintro ⟨⟩) ⟨row, stored, ?_, fun _ _ => rest⟩
      rintro (isMarked | ⟨position, other, _, old, isMarked⟩)
      · cases isMarked
      · exact whileMarked position other old isMarked

/-- A deletion marks the user. -/
theorem mark (neutral : Neutral userId user enabled ⟨state, tasks⟩) {index : Nat}
    {deletion : UserDeletion} (same : deletion.userId = userId)
    {first : Step UserRequest UserDraw UserDatabase} {original : UserRow}
    (read : first.before.userById userId = some original) {task : UserTask hash}
    (here : task = ⟨.deleteUserAfter deletion, [first], deletion.mark original⟩)
    (found : tasks[index]? = some task) {draw : UserDraw} (free : draw.locked = false →
      ∀ (position : Nat) (other : UserTask hash), tasks[position]? = some other →
        enabling other ≠ some true) :
    Neutral userId user enabled
      ⟨(task.advanced draw state).2, tasks.set index (task.advanced draw state).1⟩ := by
  subst same here
  have before := neutral.saved index _ found rfl
  rcases neutral.row with ⟨row, stored, whileMarked, otherwise⟩
  cases locked : draw.locked with
  | true =>
      rw [UserDeletion.mark, advanced_locked _ locked rfl]
      exact neutral.quiet found rfl (.done _ _ _) rfl rfl
  | false =>
      rw [UserDeletion.mark, advanced_asking, execute_unlocked locked]
      exact neutral.replace found (.callback rfl read) (fun _ => .inl rfl) (fun _ => before)
        (.inl rfl) nofun (fun _ => free locked)
        ⟨_, userById_updateUsers stored (.setDeletion false "deleting" "" deletion.marked),
          fun _ => ⟨rfl, rfl⟩, nofun⟩

/-- The callback of a deletion raises in the preflight. -/
theorem refuse (neutral : Neutral userId user enabled ⟨state, tasks⟩) {index : Nat}
    {deletion : UserDeletion} (same : deletion.userId = userId)
    {first second : Step UserRequest UserDraw UserDatabase} {original : UserRow}
    (read : first.before.userById userId = some original) {task : UserTask hash}
    (here : task = ⟨.deleteUserAfter deletion, [first, second], deletion.runCallback original⟩)
    (found : tasks[index]? = some task) {draw : UserDraw} {message : String}
    (raises : draw.callback = .error (.preflight message)) :
    Neutral userId user enabled
      ⟨(task.advanced draw state).2, tasks.set index (task.advanced draw state).1⟩ := by
  subst here
  have before := neutral.saved index _ found rfl
  rcases neutral.row with ⟨row, stored, whileMarked, _⟩
  rw [UserDeletion.runCallback, advanced_callback, raises]
  refine neutral.replace found (.restoring same read message) (fun _ => .inl rfl)
    (fun _ => before) (.inl rfl) nofun ?_ ⟨row, stored, ?_, nofun⟩
  · exact fun _ position other old => neutral.pending index position _ other found old rfl
  · exact fun _ => whileMarked index _ found rfl

/-- A deletion writes the saved values back. -/
theorem restore (neutral : Neutral userId user enabled ⟨state, tasks⟩) {index : Nat}
    {deletion : UserDeletion} (same : deletion.userId = userId)
    {first second third : Step UserRequest UserDraw UserDatabase} {original : UserRow}
    (read : first.before.userById userId = some original) {message : String}
    {task : UserTask hash}
    (here : task = ⟨.deleteUserAfter deletion, [first, second, third],
      deletion.restore original message⟩)
    (found : tasks[index]? = some task) {draw : UserDraw} (unlocked : draw.locked = false) :
    Neutral userId user enabled
      ⟨(task.advanced draw state).2, tasks.set index (task.advanced draw state).1⟩ := by
  subst same here
  rcases neutral.saved index _ found rfl with ⟨saved, readSaved, atRest⟩
  cases readSaved.symm.trans read
  rcases neutral.row with ⟨row, stored, _, _⟩
  rw [UserDeletion.restore, advanced_asking, execute_unlocked unlocked]
  refine neutral.replace found (.done _ _ _) nofun nofun (.inl rfl) nofun nofun
    ⟨_, userById_updateUsers stored (.setDeletion original.enabled original.deletionStatus
      original.deletionError deletion.returned), ?_, ?_⟩
  · rintro (isMarked | ⟨position, other, apart, old, isMarked⟩)
    · cases isMarked
    · have running := inProgress_of_marked isMarked
      rw [neutral.alone index position _ other (Ne.symm apart) found old rfl] at running
      cases running
  · exact fun _ _ => ⟨atRest.enabled, atRest.deletionStatus, atRest.deletionError⟩

/-- An update reads the user, and goes on unless it would enable a marked one. -/
theorem read (neutral : Neutral userId user enabled ⟨state, tasks⟩) {index : Nat}
    {patch : UserPatch} (same : patch.userId = userId) {task : UserTask hash}
    (here : task = ⟨.updateUser patch, [], updateUser patch⟩)
    (found : tasks[index]? = some task) (draw : UserDraw) :
    Neutral userId user enabled
      ⟨(task.advanced draw state).2, tasks.set index (task.advanced draw state).1⟩ := by
  subst same here
  rcases neutral.row with ⟨row, stored, whileMarked, otherwise⟩
  cases locked : draw.locked with
  | true =>
      rw [updateUser, advanced_locked _ locked rfl]
      exact neutral.quiet found rfl (.done _ _ _) rfl rfl
  | false =>
      rw [updateUser, advanced_asking, execute_unlocked locked, UserRequest.perform, stored]
      simp only [propagating]
      by_cases refused : patch.enabled = some true ∧ row.deletionStatus ∈ userDeletionStatuses
      · rw [if_pos refused]
        exact neutral.quiet found rfl (.done _ _ _) rfl rfl
      · rw [if_neg refused]
        refine neutral.replace found (.writing rfl _ row) (by rintro ⟨⟩) (by rintro ⟨⟩) (.inl rfl) ?_ (by rintro ⟨⟩)
          ⟨row, stored, ?_, ?_⟩
        · intro enables position other old
          by_contra isMarked
          apply refused
          rw [(whileMarked position other old (by simpa using isMarked)).2]
          exact ⟨enables, by decide⟩
        · rintro (isMarked | ⟨position, other, _, old, isMarked⟩)
          · cases isMarked
          · exact whileMarked position other old isMarked
        · intro _ none
          apply otherwise
          intro position other old
          by_cases apart : position = index
          · subst apart
            cases found.symm.trans old
            rfl
          · exact none position other apart old

/-- An update writes the user. -/
theorem write (neutral : Neutral userId user enabled ⟨state, tasks⟩) {index : Nat}
    {patch : UserPatch} (same : patch.userId = userId)
    {first : Step UserRequest UserDraw UserDatabase} {read : UserRow} {task : UserTask hash}
    (here : task = ⟨.updateUser patch, [first], writePatch patch read⟩)
    (found : tasks[index]? = some task) {draw : UserDraw} (careful : draw.locked = false →
      ∀ value ∈ patch.enabled, ∀ (position : Nat) (other : UserTask hash),
        tasks[position]? = some other → inProgress other = true →
        (readRow userId other).map (·.enabled) = some value) :
    Neutral userId user ((if draw.locked = true then none else patch.enabled).getD enabled)
      ⟨(task.advanced draw state).2, tasks.set index (task.advanced draw state).1⟩ := by
  subst same here
  rcases neutral.row with ⟨row, stored, whileMarked, otherwise⟩
  cases locked : draw.locked with
  | true =>
      rw [writePatch, advanced_locked _ locked rfl]
      exact neutral.quiet found rfl (.done _ _ _) rfl rfl
  | false =>
      rw [writePatch, advanced_asking, execute_unlocked locked, if_neg (by decide)]
      refine neutral.replace found (.done _ _ _) nofun nofun ?_ nofun nofun
        ⟨_, userById_updateUsers stored (.columns (patch.columns read) patch.now), ?_, ?_⟩
      · cases value : patch.enabled with
        | none => exact .inl rfl
        | some value' =>
            by_cases none : ∀ (position : Nat) (other : UserTask hash),
                tasks[position]? = some other → inProgress other = false
            · exact .inr none
            · push Not at none
              rcases none with ⟨position, other, old, running⟩
              have progress : inProgress other = true := by simpa using running
              have equal := careful locked value' value position other old progress
              rcases neutral.saved position other old progress with ⟨original, readOther, rest⟩
              rw [readOther, Option.map_some, rest.enabled] at equal
              exact .inl (Option.some.inj equal).symm
      · rintro (isMarked | ⟨position, other, _, old, isMarked⟩)
        · cases isMarked
        · rcases whileMarked position other old isMarked with ⟨disabled, status⟩
          refine ⟨?_, status⟩
          have safe := neutral.pending position index other _ old found isMarked
          change patch.enabled.getD row.enabled = false
          change patch.enabled ≠ some true at safe
          cases value : patch.enabled with
          | none => exact disabled
          | some value' =>
              cases value' with
              | false => rfl
              | true => exact absurd value safe
      · intro _ none
        have rest : AtRest user enabled row := by
          apply otherwise
          intro position other old
          by_cases apart : position = index
          · subst apart
            cases found.symm.trans old
            rfl
          · exact none position other apart old
        refine ⟨?_, rest.deletionStatus, rest.deletionError⟩
        change patch.enabled.getD row.enabled = patch.enabled.getD enabled
        rw [rest.enabled]

/-- A call of the run starts. -/
theorem start (neutral : Neutral userId user enabled ⟨state, tasks⟩) {call : UserCall}
    (known : Known userId (.begun (userSystem hash) call)) :
    Neutral userId user enabled ⟨state, tasks ++ [.begun (userSystem hash) call]⟩ := by
  have idle : ∀ (position : Nat) (other : UserTask hash),
      (tasks ++ [Task.begun (userSystem hash) call])[position]? = some other →
      tasks[position]? = some other ∨ other = Task.begun (userSystem hash) call := by
    intro position other here
    rcases Machine.getElem?_start here with old | ⟨_, new⟩
    · exact .inl old
    · exact .inr new
  have resting : inProgress (Task.begun (userSystem hash) call) = false := by
    simp [inProgress, Task.begun]
  have silent : enabling (Task.begun (userSystem hash) call) = none := by
    cases call <;> simp [enabling, Task.begun]
  refine ⟨?_, ?_, ?_, ?_, ?_⟩
  · intro position other here
    rcases idle position other here with old | rfl
    · exact neutral.known position other old
    · exact known
  · intro left right first second different leftFound rightFound progress
    rcases idle right second rightFound with rightOld | rfl
    · rcases idle left first leftFound with leftOld | rfl
      · exact neutral.alone left right first second different leftOld rightOld progress
      · rw [resting] at progress
        cases progress
    · exact resting
  · intro position other here progress
    rcases idle position other here with old | rfl
    · exact neutral.saved position other old progress
    · rw [resting] at progress
      cases progress
  · intro left right first second leftFound rightFound isMarked
    rcases idle right second rightFound with rightOld | rfl
    · rcases idle left first leftFound with leftOld | rfl
      · exact neutral.pending left right first second leftOld rightOld isMarked
      · rw [marked_of_inProgress resting] at isMarked
        cases isMarked
    · rw [silent]
      rintro ⟨⟩
  · rcases neutral.row with ⟨row, stored, whileMarked, otherwise⟩
    refine ⟨row, stored, ?_, ?_⟩
    · intro position other here isMarked
      rcases idle position other here with old | rfl
      · exact whileMarked position other old isMarked
      · rw [marked_of_inProgress resting] at isMarked
        cases isMarked
    · intro none
      apply otherwise
      intro position other old
      apply none position other
      rw [List.getElem?_append_left (List.getElem?_eq_some_iff.mp old).1]
      exact old

theorem initial (stored : state.userById userId = some user) :
    Neutral userId user user.enabled (.initial (userSystem hash) state) := by
  have empty : ∀ (index : Nat) (task : UserTask hash),
      (Machine.initial (userSystem hash) state).tasks[index]? = some task → False := by
    intro index task found
    cases found
  exact {
    known := fun index task found => (empty index task found).elim
    alone := fun left _ first _ _ found => (empty left first found).elim
    saved := fun index task found => (empty index task found).elim
    pending := fun left _ first _ found => (empty left first found).elim
    row := ⟨user, stored, fun index task found => (empty index task found).elim,
      fun _ => ⟨rfl, rfl, rfl⟩⟩ }

/-- A careful step. -/
theorem step {machine : Machine (userSystem hash)} (neutral : Neutral userId user enabled machine)
    {index : Nat} {draw : UserDraw} (careful : StepCareful userId machine index draw)
    (refused : ∃ message, draw.callback = .error (.preflight message)) :
    Neutral userId user ((flagWritten machine (.step index draw)).getD enabled)
      (machine.next (.step index draw)) := by
  rcases machine with ⟨state, tasks⟩
  cases found : tasks[index]? with
  | none =>
      rw [Machine.next_step_none _ found]
      have flag : flagWritten ⟨state, tasks⟩ (.step index draw) = none := by
        simp [flagWritten, found]
      rw [flag]
      exact neutral
  | some task =>
      rw [Machine.next_step_some _ found]
      have flag : flagWritten ⟨state, tasks⟩ (.step index draw) =
          if draw.locked = true then none else enabling task := by
        simp [flagWritten, found]
      rw [flag]
      rcases careful task found with ⟨free, unlocked⟩
      have silent : enabling task = none →
          (if draw.locked = true then none else enabling task).getD enabled = enabled := by
        intro same
        rw [same, ite_self]
        rfl
      have known := neutral.known index task found
      cases known with
      | selecting same =>
          rw [silent rfl]
          refine neutral.select same rfl found ?_
          intro open' position other old
          exact (free open').1 rfl rfl rfl other (List.mem_of_getElem? old)
      | marking same read =>
          rw [silent rfl]
          refine neutral.mark same read rfl found ?_
          intro open' position other old
          exact (free open').2.1 rfl rfl rfl other (List.mem_of_getElem? old)
      | callback same read =>
          rcases refused with ⟨message, raises⟩
          rw [silent rfl]
          exact neutral.refuse same read rfl found raises
      | restoring same read message =>
          rw [silent rfl]
          exact neutral.restore same read rfl found (unlocked rfl)
      | reading same =>
          rw [silent rfl]
          exact neutral.read same rfl found draw
      | writing same first row =>
          refine neutral.write same rfl found ?_
          intro open' value written position other old progress
          exact (free open').2.2 value written other (List.mem_of_getElem? old) progress
      | done call trail result =>
          rw [silent (by cases call <;> simp [enabling, Task.running]), Task.advanced_of_done rfl]
          rcases List.getElem?_eq_some_iff.mp found with ⟨within, same⟩
          rw [← same, List.set_getElem_self]
          exact neutral

end Neutral

/-! ## Runs -/

/-- Deletions of one user, whose callbacks all raise in the preflight, and updates of the
user, in any order of their steps. -/
structure PreflightRun where
  userId : String
  events : List (Event UserDraw UserCall)
  calls : ∀ call, .start call ∈ events →
    (∃ deletion : UserDeletion, deletion.userId = userId ∧ call = .deleteUserAfter deletion) ∨
      ∃ patch : UserPatch, patch.userId = userId ∧ call = .updateUser patch
  refused : ∀ index draw, .step index draw ∈ events →
    ∃ message, draw.callback = .error (.preflight message)

/-- Once all calls have returned the user is as at the start, but for the flag, which is
as the last update has set it, and at no time does an update enable the user between the
first and the last phase of a deletion. -/
def PreflightRun.LeavesUser (hash : String → String) (preflights : PreflightRun)
    (database : UserDatabase) (user : UserRow) : Prop :=
  let machine := run Machine.next (.initial (userSystem hash) database) preflights.events
  (machine.Quiescent → ∃ row, machine.state.userById preflights.userId = some row ∧
    AtRest user (lastEnabled (.initial (userSystem hash) database) preflights.events
      user.enabled) row) ∧
  ∀ past index draw, past ++ [.step index draw] <+: preflights.events →
    flagWritten (run Machine.next (.initial (userSystem hash) database) past)
      (.step index draw) = some true →
    ∀ task ∈ (run Machine.next (.initial (userSystem hash) database) past).tasks,
      marked task = false

/-- A run of careful steps leaves the user. -/
theorem PreflightRun.leavesUser (hash : String → String) (preflights : PreflightRun)
    {database : UserDatabase} {user : UserRow}
    (stored : database.userById preflights.userId = some user)
    (careful : ∀ past index draw, past ++ [.step index draw] <+: preflights.events →
      StepCareful preflights.userId
        (run Machine.next (.initial (userSystem hash) database) past) index draw) :
    preflights.LeavesUser hash database user := by
  have kept : ∀ past, past <+: preflights.events → Neutral preflights.userId user
      (lastEnabled (.initial (userSystem hash) database) past user.enabled)
      (run Machine.next (.initial (userSystem hash) database) past) := by
    intro past within
    induction past using List.reverseRecOn with
    | nil =>
        exact .initial stored
    | append_singleton past event induction =>
        have before := induction ((List.prefix_append past _).trans within)
        have listed : event ∈ preflights.events :=
          within.subset (List.mem_append_right _ List.mem_cons_self)
        rw [run_concat, lastEnabled_concat]
        cases event with
        | start call =>
            rw [Machine.next_start fun _ _ => rfl]
            apply before.start
            rcases preflights.calls call listed with ⟨deletion, same, rfl⟩ | ⟨patch, same, rfl⟩
            · exact .selecting same
            · exact .reading same
        | step index draw =>
            exact before.step (careful past index draw within)
              (preflights.refused index draw listed)
  refine ⟨?_, ?_⟩
  · intro quiescent
    rcases (kept preflights.events List.prefix_rfl).row with ⟨row, found, _, otherwise⟩
    refine ⟨row, found, otherwise ?_⟩
    intro index task here
    have returned := quiescent task (List.mem_of_getElem? here)
    simp [marked, returned]
  · intro past index draw within written task member
    have before := kept past ((List.prefix_append past _).trans within)
    rcases List.mem_iff_getElem?.mp member with ⟨position, here⟩
    simp only [flagWritten] at written
    split at written
    · cases written
    · cases found : (run Machine.next (.initial (userSystem hash) database) past).tasks[index]? with
      | none =>
          rw [found] at written
          cases written
      | some writer =>
          rw [found] at written
          by_contra isMarked
          exact before.pending position index task writer here found (by simpa using isMarked)
            written

end

/-! ## Deletions that overlap, and deletions that do not -/

/-- What every step of the runs below meets: the callback raises. -/
def refusal : UserDraw :=
  { callback := .error (.preflight "retry") }

def someDeletion : UserCall :=
  .deleteUserAfter ⟨"u", "", ""⟩

/-- The second deletion reads the user the first one has marked. -/
def overlapping : PreflightRun where
  userId := "u"
  events := [.start someDeletion, .start someDeletion, .step 0 refusal, .step 0 refusal,
    .step 1 refusal, .step 1 refusal, .step 0 refusal, .step 0 refusal, .step 1 refusal,
    .step 1 refusal]
  calls := by
    intro call member
    simp only [List.mem_cons, Event.start.injEq, reduceCtorEq, List.not_mem_nil, or_false,
      or_self] at member
    exact .inl ⟨⟨"u", "", ""⟩, rfl, member⟩
  refused := by
    intro index draw member
    simp only [List.mem_cons, Event.step.injEq, reduceCtorEq, List.not_mem_nil, or_false,
      false_or] at member
    have same : draw = refusal := by tauto
    exact ⟨"retry", by rw [same]; rfl⟩

theorem overlapping_deleting : ∃ user, oneUser.userById overlapping.userId = some user ∧
    ¬ overlapping.LeavesUser (fun value => value) oneUser user := by
  refine ⟨_, rfl, ?_⟩
  rintro ⟨leaves, _⟩
  rcases leaves (by unfold Machine.Quiescent; decide +kernel) with ⟨row, found, rest⟩
  have status : ((run Machine.next (.initial (userSystem fun value => value) oneUser)
      overlapping.events).state.userById overlapping.userId).map (·.deletionStatus) =
      some "deleting" := by decide +kernel
  rw [found, Option.map_some, rest.deletionStatus] at status
  revert status
  decide

/-- A deletion that is refused, then an update. -/
def refusedThenDisabled : PreflightRun where
  userId := "u"
  events := [.start someDeletion, .step 0 refusal, .step 0 refusal, .step 0 refusal,
    .step 0 refusal, .start (.updateUser ⟨"u", none, none, some false, none, "", ""⟩),
    .step 1 refusal, .step 1 refusal]
  calls := by
    intro call member
    simp only [List.mem_cons, Event.start.injEq, reduceCtorEq, List.not_mem_nil, or_false,
      false_or] at member
    rcases member with rfl | rfl
    · exact .inl ⟨⟨"u", "", ""⟩, rfl, rfl⟩
    · exact .inr ⟨_, rfl, rfl⟩
  refused := by
    intro index draw member
    simp only [List.mem_cons, Event.step.injEq, reduceCtorEq, List.not_mem_nil, or_false,
      false_or] at member
    have same : draw = refusal := by tauto
    exact ⟨"retry", by rw [same]; rfl⟩

theorem refusedThenDisabled_leavesUser : ∃ user,
    oneUser.userById refusedThenDisabled.userId = some user ∧
    refusedThenDisabled.LeavesUser (fun value => value) oneUser user := by
  refine ⟨_, rfl, PreflightRun.leavesUser _ refusedThenDisabled rfl ?_⟩
  intro past index draw within
  have checked : checkEach (fun past event => match event with
      | .start _ => true
      | .step index draw => decide (StepCareful "u"
          (run Machine.next (.initial (userSystem fun value => value) oneUser) past) index draw))
      refusedThenDisabled.events = true := by decide +kernel
  exact of_decide_eq_true (checkEach_sound checked within)

end RAGuardian.Access
