import Mathlib.Data.List.Forall2
import RAGuardian.Foundation.Concurrency

/-! # Two runs of the same calls

Two runs of a system take the same events from states that agree on what matters. When
the programs of the calls are alike, the states agree all along. The calls of one of the
runs may come after a first call that the other run does not have. -/

namespace RAGuardian.Concurrency

open Execution

variable {Request : Type} {Response : Request → Type} {Draw State Call : Type}
  {Outcome : Call → Type} {α : Type}

section

variable (system : System Request Response Draw State Call Outcome)
  (agree : State → State → Prop)

/-- A request that leaves the left state in agreement with any state it agreed with. -/
def ConfinedLeft (request : Request) : Prop :=
  ∀ draw left right, agree left right → agree (system.execute draw request left).2 right

/-- A request that leaves the right state in agreement with any state it agreed with. -/
def ConfinedRight (request : Request) : Prop :=
  ∀ draw left right, agree left right → agree left (system.execute draw request right).2

/-- What remains of a call in each of two runs. Either both rests do nothing that matters,
or both make a request that keeps the states in agreement and go on alike, also from one
and the same state. -/
inductive Alike : Program Request Response α → Program Request Response α → Prop
  | confined {left right : Program Request Response α}
      (leftMakes : left.Makes (ConfinedLeft system agree))
      (rightMakes : right.Makes (ConfinedRight system agree)) : Alike left right
  | call {leftRequest rightRequest : Request}
      {leftNext : Response leftRequest → Program Request Response α}
      {rightNext : Response rightRequest → Program Request Response α}
      (keeps : ∀ draw left right, agree left right →
        agree (system.execute draw leftRequest left).2
          (system.execute draw rightRequest right).2)
      (later : ∀ draw left right, left = right ∨ agree left right →
        Alike (leftNext (system.execute draw leftRequest left).1)
          (rightNext (system.execute draw rightRequest right).1)) :
      Alike (.call leftRequest leftNext) (.call rightRequest rightNext)

/-- The same call in two runs. -/
inductive TasksAlike : Task system → Task system → Prop
  | intro (call : Call) (leftTrail rightTrail : List (Step Request Draw State))
      {left right : Program Request Response (Outcome call)}
      (alike : Alike system agree left right) :
      TasksAlike ⟨call, leftTrail, left⟩ ⟨call, rightTrail, right⟩

/-- The states agree, and the calls are alike. -/
structure MachinesAlike (left right : Machine system) : Prop where
  states : agree left.state right.state
  tasks : List.Forall₂ (TasksAlike system agree) left.tasks right.tasks

end

variable {system : System Request Response Draw State Call Outcome}
  {agree : State → State → Prop}

theorem forall₂_set {related : α → α → Prop} {lefts rights : List α} {left right : α}
    (all : List.Forall₂ related lefts rights) (here : related left right) (index : Nat) :
    List.Forall₂ related (lefts.set index left) (rights.set index right) := by
  induction all generalizing index with
  | nil => exact .nil
  | cons head rest induction =>
      cases index with
      | zero => exact .cons here rest
      | succ index => exact .cons head (induction index)

theorem Alike.done (left right : α) : Alike system agree (.done left) (.done right) :=
  .confined trivial trivial

/-! ## Steps -/

namespace Task

/-- A call and the state after it has taken its next step, if it has one. -/
def advanced (draw : Draw) (state : State) (task : Task system) : Task system × State :=
  match task.remaining with
  | .done _ => (task, state)
  | .call request next =>
      (task.answered draw state request next, (system.execute draw request state).2)

theorem advanced_of_done {task : Task system} {result : Outcome task.call}
    (finished : task.remaining = .done result) (draw : Draw) (state : State) :
    task.advanced draw state = (task, state) := by
  simp only [advanced, finished]

theorem advanced_of_call {task : Task system} {request : Request}
    {next : Response request → Program Request Response (Outcome task.call)}
    (asks : task.remaining = .call request next) (draw : Draw) (state : State) :
    task.advanced draw state =
      (task.answered draw state request next, (system.execute draw request state).2) := by
  simp only [advanced, asks]

end Task

namespace Machine

theorem next_step_none (machine : Machine system) {index : Nat}
    (missing : machine.tasks[index]? = none) (draw : Draw) :
    machine.next (.step index draw) = machine := by
  simp only [Machine.next, missing]

theorem next_step_some (machine : Machine system) {index : Nat} {task : Task system}
    (found : machine.tasks[index]? = some task) (draw : Draw) :
    machine.next (.step index draw) = {
      state := (task.advanced draw machine.state).2
      tasks := machine.tasks.set index (task.advanced draw machine.state).1 } := by
  cases asks : task.remaining with
  | done result =>
      rw [Task.advanced_of_done asks]
      simp only [Machine.next, found, asks]
      rcases List.getElem?_eq_some_iff.mp found with ⟨within, rfl⟩
      rw [List.set_getElem_self]
  | call request next =>
      rw [Task.advanced_of_call asks]
      simp only [Machine.next, found, asks]

theorem next_start (free : ∀ call other, system.excludes call other = false)
    (machine : Machine system) (call : Call) :
    machine.next (.start call) =
      { machine with tasks := machine.tasks ++ [.begun system call] } := by
  simp [Machine.next, free]

end Machine

/-- A program that is confined on the left stays so, and leaves the states in agreement. -/
theorem advanced_confinedLeft (task : Task system) {left right : State}
    (makes : task.remaining.Makes (ConfinedLeft system agree)) (states : agree left right)
    (draw : Draw) :
    ∃ trail remaining, (task.advanced draw left).1 = ⟨task.call, trail, remaining⟩ ∧
      remaining.Makes (ConfinedLeft system agree) ∧ agree (task.advanced draw left).2 right := by
  cases asks : task.remaining with
  | done result =>
      rw [Task.advanced_of_done asks]
      exact ⟨task.trail, task.remaining, rfl, makes, states⟩
  | call request next =>
      rw [Task.advanced_of_call asks]
      rw [asks] at makes
      exact ⟨_, _, rfl, makes.2 _, makes.1 draw left right states⟩

theorem advanced_confinedRight (task : Task system) {left right : State}
    (makes : task.remaining.Makes (ConfinedRight system agree)) (states : agree left right)
    (draw : Draw) :
    ∃ trail remaining, (task.advanced draw right).1 = ⟨task.call, trail, remaining⟩ ∧
      remaining.Makes (ConfinedRight system agree) ∧
      agree left (task.advanced draw right).2 := by
  cases asks : task.remaining with
  | done result =>
      rw [Task.advanced_of_done asks]
      exact ⟨task.trail, task.remaining, rfl, makes, states⟩
  | call request next =>
      rw [Task.advanced_of_call asks]
      rw [asks] at makes
      exact ⟨_, _, rfl, makes.2 _, makes.1 draw left right states⟩

/-- A step of one call in both runs. -/
theorem TasksAlike.advanced {leftTask rightTask : Task system} {left right : State}
    (alike : TasksAlike system agree leftTask rightTask) (states : agree left right)
    (draw : Draw) :
    agree (leftTask.advanced draw left).2 (rightTask.advanced draw right).2 ∧
      TasksAlike system agree (leftTask.advanced draw left).1
        (rightTask.advanced draw right).1 := by
  cases alike with
  | intro call leftTrail rightTrail alike =>
      cases alike with
      | confined leftMakes rightMakes =>
          rcases advanced_confinedLeft ⟨call, leftTrail, _⟩ leftMakes states draw with
            ⟨_, _, leftAfter, leftMakes, between⟩
          rcases advanced_confinedRight ⟨call, rightTrail, _⟩ rightMakes between draw
            with ⟨_, _, rightAfter, rightMakes, after⟩
          rw [leftAfter, rightAfter]
          exact ⟨after, .intro call _ _ (.confined leftMakes rightMakes)⟩
      | call keeps later =>
          exact ⟨keeps draw left right states,
            .intro call _ _ (later draw left right (.inr states))⟩

/-- An event in both runs. -/
theorem MachinesAlike.next {left right : Machine system}
    (free : ∀ call other, system.excludes call other = false)
    (alike : MachinesAlike system agree left right) (event : Event Draw Call)
    (started : ∀ call, event = .start call →
      Alike system agree (system.program call) (system.program call)) :
    MachinesAlike system agree (left.next event) (right.next event) := by
  cases event with
  | start call =>
      rw [Machine.next_start free, Machine.next_start free]
      exact ⟨alike.states, List.rel_append alike.tasks
        (.cons (.intro call [] [] (started call rfl)) .nil)⟩
  | step index draw =>
      have lengths := alike.tasks.length_eq
      cases leftFound : left.tasks[index]? with
      | none =>
          have rightFound : right.tasks[index]? = none := by
            rw [List.getElem?_eq_none_iff] at leftFound ⊢
            omega
          rw [Machine.next_step_none _ leftFound, Machine.next_step_none _ rightFound]
          exact alike
      | some leftTask =>
          rcases List.getElem?_eq_some_iff.mp leftFound with ⟨leftWithin, rfl⟩
          have rightWithin : index < right.tasks.length := by omega
          have rightFound : right.tasks[index]? = some right.tasks[index] :=
            List.getElem?_eq_getElem rightWithin
          have here := alike.tasks.get leftWithin rightWithin
          rcases here.advanced alike.states draw with ⟨states, tasks⟩
          rw [Machine.next_step_some _ leftFound, Machine.next_step_some _ rightFound]
          exact ⟨states, forall₂_set alike.tasks tasks index⟩

/-- Any events in both runs. -/
theorem MachinesAlike.run {left right : Machine system}
    (free : ∀ call other, system.excludes call other = false)
    (alike : MachinesAlike system agree left right) (events : List (Event Draw Call))
    (started : ∀ call, .start call ∈ events →
      Alike system agree (system.program call) (system.program call)) :
    MachinesAlike system agree (run Machine.next left events)
      (run Machine.next right events) := by
  induction events generalizing left right with
  | nil => exact alike
  | cons event events induction =>
      rw [run_cons, run_cons]
      apply induction
      · exact alike.next free event fun call same => started call (same ▸ List.mem_cons_self)
      · exact fun call member => started call (List.mem_cons_of_mem event member)

/-! ## A call that comes first -/

/-- An event of a run in which another call comes first. -/
def Event.shifted : Event Draw Call → Event Draw Call
  | .start call => .start call
  | .step index draw => .step (index + 1) draw

/-- A machine with another call before its own. -/
def Machine.preceded (first : Task system) (machine : Machine system) : Machine system :=
  { machine with tasks := first :: machine.tasks }

theorem Machine.next_shifted (free : ∀ call other, system.excludes call other = false)
    (first : Task system) (machine : Machine system) (event : Event Draw Call) :
    (machine.preceded first).next event.shifted = (machine.next event).preceded first := by
  cases event with
  | start call =>
      rw [Event.shifted, Machine.next_start free, Machine.next_start free]
      rfl
  | step index draw =>
      cases found : machine.tasks[index]? with
      | none =>
          rw [Machine.next_step_none _ found]
          exact Machine.next_step_none (machine.preceded first) found draw
      | some task =>
          rw [Machine.next_step_some _ found]
          exact Machine.next_step_some (machine.preceded first) found draw

theorem Machine.run_shifted (free : ∀ call other, system.excludes call other = false)
    (first : Task system) (machine : Machine system) (events : List (Event Draw Call)) :
    run Machine.next (machine.preceded first) (events.map Event.shifted) =
      (run Machine.next machine events).preceded first := by
  induction events generalizing machine with
  | nil => rfl
  | cons event events induction =>
      rw [List.map_cons, run_cons, run_cons, Machine.next_shifted free, induction]

/-- A step of the call that comes first. -/
theorem Machine.next_first (first : Task system) (machine : Machine system) (draw : Draw) :
    (machine.preceded first).next (.step 0 draw) =
      ({ machine with state := (first.advanced draw machine.state).2 } : Machine system).preceded
        (first.advanced draw machine.state).1 :=
  Machine.next_step_some (machine.preceded first) rfl draw

/-! ## The calls of one run -/

/-- Calls whose programs are alike to themselves stay so. -/
theorem run_alike {state : State} (events : List (Event Draw Call))
    (started : ∀ call, .start call ∈ events →
      Alike system agree (system.program call) (system.program call)) :
    ∀ task ∈ (run Machine.next (.initial system state) events).tasks,
      Alike system agree task.remaining task.remaining := by
  induction events using List.reverseRecOn with
  | nil =>
      intro task member
      cases member
  | append_singleton past event induction =>
      have before := induction fun call member => started call (List.mem_append_left _ member)
      rw [run_concat]
      generalize reached : Machine.next event (run Machine.next (.initial system state) past) =
        after
      have moves := (run Machine.next (.initial system state) past).moves event
      rw [reached] at moves
      cases moves with
      | idle => exact before
      | start call _ =>
          intro task member
          rcases List.mem_append.mp member with old | new
          · exact before task old
          · rw [List.mem_singleton.mp new]
            exact started call (List.mem_append_right _ List.mem_cons_self)
      | step index draw task request next found asks =>
          intro other member
          rcases Machine.mem_set member with old | rfl
          · exact before other old
          · have alike := before task (List.mem_of_getElem? found)
            rw [asks] at alike
            cases alike with
            | confined leftMakes rightMakes =>
                exact .confined (leftMakes.2 _) (rightMakes.2 _)
            | call keeps later => exact later draw _ _ (.inl rfl)

/-- One state, and calls alike to themselves. -/
theorem machinesAlike_of_agree {left right : Machine system} (states : agree left.state right.state)
    (same : left.tasks = right.tasks)
    (alike : ∀ task ∈ right.tasks, Alike system agree task.remaining task.remaining) :
    MachinesAlike system agree left right := by
  refine ⟨states, ?_⟩
  rw [same, List.forall₂_same]
  exact fun task member => .intro task.call task.trail task.trail (alike task member)

end RAGuardian.Concurrency
