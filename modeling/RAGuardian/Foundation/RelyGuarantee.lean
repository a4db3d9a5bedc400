import RAGuardian.Foundation.Concurrency

/-! # Programs that rely on each other

The steps of all calls move the shared state along a relation. A program that keeps an
invariant however the state has moved along the relation between its requests keeps it in
every run. -/

namespace RAGuardian.Concurrency

open Execution

variable {Request : Type} {Response : Request → Type} {Draw State Call : Type}
  {Outcome : Call → Type} {α β : Type}

section

variable (execute : Draw → (request : Request) → State → Response request × State)
  (relation : State → State → Prop) (invariant : State → Prop)

/-- From a state on, every request of the program keeps the invariant, and the result meets
a condition in the state in which the program is done. -/
def Program.Safe (condition : α → State → Prop) : Program Request Response α → State → Prop
  | .done result, state => condition result state
  | .call request next, state =>
      ∀ draw later, relation state later → invariant later →
        invariant (execute draw request later).2 ∧
          (next (execute draw request later).1).Safe condition (execute draw request later).2

variable {execute relation invariant}

theorem Program.Safe.bind {first : α → State → Prop} {condition : β → State → Prop}
    {program : Program Request Response α} {continuation : α → Program Request Response β}
    {state : State} (safe : program.Safe execute relation invariant first state)
    (continues : ∀ result later, first result later →
      (continuation result).Safe execute relation invariant condition later) :
    (program.bind continuation).Safe execute relation invariant condition state := by
  induction program generalizing state with
  | done result => exact continues result state safe
  | call request next induction =>
      intro draw later moved holds
      obtain ⟨kept, rest⟩ := safe draw later moved holds
      exact ⟨kept, induction _ rest⟩

/-- What is safe stays safe while the state moves along the relation. -/
theorem Program.Safe.later
    (transitive : ∀ first second third, relation first second → relation second third →
      relation first third)
    {program : Program Request Response α} {state later : State}
    (safe : program.Safe execute relation invariant (fun _ _ => True) state)
    (moved : relation state later) :
    program.Safe execute relation invariant (fun _ _ => True) later := by
  cases program with
  | done result => trivial
  | call request next =>
      intro draw latest further holds
      exact safe draw latest (transitive _ _ _ moved further) holds

end

/-- Calls that are safe from every state of the invariant keep it in every run. -/
theorem run_safe {system : System Request Response Draw State Call Outcome}
    {relation : State → State → Prop} {invariant : State → Prop}
    (reflexive : ∀ state, relation state state)
    (transitive : ∀ first second third, relation first second → relation second third →
      relation first third)
    (moves : ∀ draw request state, relation state (system.execute draw request state).2)
    (safe : ∀ call state, invariant state →
      (system.program call).Safe system.execute relation invariant (fun _ _ => True) state)
    {state : State} (holds : invariant state) (events : List (Event Draw Call)) :
    invariant (run Machine.next (.initial system state) events).state := by
  refine (run_moves (fun machine : Machine system => invariant machine.state ∧
    ∀ task ∈ machine.tasks,
      task.remaining.Safe system.execute relation invariant (fun _ _ => True) machine.state)
    ?_ ⟨holds, ?_⟩ events).1
  · intro before event after moved ⟨current, tasks⟩
    cases moved with
    | idle => exact ⟨current, tasks⟩
    | start call free =>
        refine ⟨current, fun task member => ?_⟩
        rcases List.mem_append.mp member with old | new
        · exact tasks task old
        · rw [List.mem_singleton.mp new]
          exact safe call before.state current
    | step index draw task request next found asks =>
        have ready := tasks task (List.mem_of_getElem? found)
        rw [asks] at ready
        have onward := moves draw request before.state
        obtain ⟨kept, rest⟩ := ready draw before.state (reflexive before.state) current
        refine ⟨kept, fun other member => ?_⟩
        rcases Machine.mem_set member with old | rfl
        · exact (tasks other old).later transitive onward
        · exact rest
  · intro task member
    cases member

end RAGuardian.Concurrency
