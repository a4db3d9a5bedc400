/-! # Actions that fail

An action on a state returns a value or a failure, and leaves a state in both
cases. -/

namespace RAGuardian.Fallible

variable {Failure State α β : Type}

/-- A sequence of outcomes that is one, by its two parts. -/
theorem bind_ok {first : Except Failure α} {second : α → Except Failure β} {result : β}
    (done : (first >>= second) = .ok result) :
    ∃ value, first = .ok value ∧ second value = .ok result := by
  cases first with
  | error failure => cases done
  | ok value => exact ⟨value, rfl, done⟩

/-- An action that is taken on a condition only. -/
def onlyIf (condition : Bool) (action : EStateM Failure State PUnit) :
    EStateM Failure State PUnit :=
  if condition then action else pure ⟨⟩

/-- An action on the first part of a state. -/
def onFirst {Rest : Type} (action : EStateM Failure State α) :
    EStateM Failure (State × Rest) α := fun (state, rest) =>
  match action state with
  | .ok value next => .ok value (next, rest)
  | .error failure next => .error failure (next, rest)

/-- A sequence that returns, by its two parts. -/
theorem bind_returns {action : EStateM Failure State α}
    {continuation : α → EStateM Failure State β} {state final : State} {result : β}
    (performed : (action >>= continuation) state = .ok result final) :
    ∃ value next, action state = .ok value next ∧ continuation value next = .ok result final := by
  change EStateM.bind action continuation state = _ at performed
  rw [EStateM.bind] at performed
  cases outcome : action state with
  | ok value next =>
      rw [outcome] at performed
      exact ⟨value, next, rfl, performed⟩
  | error failure next =>
      rw [outcome] at performed
      cases performed

theorem bind_of_ok {action : EStateM Failure State α} {continuation : α → EStateM Failure State β}
    {state next : State} {value : α} (performed : action state = .ok value next) :
    (action >>= continuation) state = continuation value next := by
  change EStateM.bind action continuation state = _
  rw [EStateM.bind, performed]

theorem bind_of_error {action : EStateM Failure State α}
    {continuation : α → EStateM Failure State β} {state next : State} {failure : Failure}
    (performed : action state = .error failure next) :
    (action >>= continuation) state = .error failure next := by
  change EStateM.bind action continuation state = _
  rw [EStateM.bind, performed]

/-- From the states `before`, an action that returns leaves a state `returned`
describes, and one that fails leaves a state `failed` describes. -/
structure Leads (before : State → Prop) (action : EStateM Failure State α)
    (returned : α → State → Prop) (failed : State → Prop) : Prop where
  outcome : ∀ state, before state →
    match action state with
    | .ok value next => returned value next
    | .error _ next => failed next

/-- Whether the action returns or fails, it leaves the invariant as it was. -/
abbrev Keeps (invariant : State → Prop) (action : EStateM Failure State α) : Prop :=
  Leads invariant action (fun _ => invariant) invariant

namespace Leads

variable {before : State → Prop} {failed : State → Prop}

theorem ok {action : EStateM Failure State α} {returned : α → State → Prop}
    (leads : Leads before action returned failed) {state next : State} {value : α}
    (holds : before state) (performed : action state = .ok value next) :
    returned value next := by
  have outcome := leads.outcome state holds
  rw [performed] at outcome
  exact outcome

theorem error {action : EStateM Failure State α} {returned : α → State → Prop}
    (leads : Leads before action returned failed) {state next : State} {failure : Failure}
    (holds : before state) (performed : action state = .error failure next) :
    failed next := by
  have outcome := leads.outcome state holds
  rw [performed] at outcome
  exact outcome

/-- The two cases of an action. -/
theorem cases {action : EStateM Failure State α} {returned : α → State → Prop}
    (onOk : ∀ state value next, before state → action state = .ok value next →
      returned value next)
    (onError : ∀ state failure next, before state → action state = .error failure next →
      failed next) :
    Leads before action returned failed where
  outcome := by
    intro state holds
    cases performed : action state with
    | ok value next => exact onOk state value next holds performed
    | error failure next => exact onError state failure next holds performed

theorem done {returned : α → State → Prop} {value : α}
    (holds : ∀ state, before state → returned value state) :
    Leads before (pure value : EStateM Failure State α) returned failed :=
  ⟨holds⟩

theorem fail {returned : α → State → Prop} {failure : Failure}
    (holds : ∀ state, before state → failed state) :
    Leads before (throw failure : EStateM Failure State α) returned failed :=
  ⟨holds⟩

theorem read : Leads before (get : EStateM Failure State State)
    (fun value state => value = state ∧ before state) failed :=
  ⟨fun _ holds => ⟨rfl, holds⟩⟩

/-- A state that is known is read. -/
theorem readAt {state : State} {continuation : State → EStateM Failure State β}
    {returned : β → State → Prop} (rest : Leads (· = state) (continuation state) returned failed) :
    Leads (· = state) (get >>= continuation) returned failed where
  outcome := by
    rintro _ rfl
    exact rest.outcome _ rfl

theorem update {returned : Unit → State → Prop} {change : State → State}
    (holds : ∀ state, before state → returned () (change state)) :
    Leads before (modify change : EStateM Failure State Unit) returned failed :=
  ⟨holds⟩

/-- From one state, a change leaves the changed state. -/
theorem change {state : State} {change : State → State} :
    Leads (· = state) (modify change : EStateM Failure State Unit)
      (fun _ next => next = change state) failed :=
  update fun _ same => congrArg change same

theorem bind {action : EStateM Failure State α} {continuation : α → EStateM Failure State β}
    {between : α → State → Prop} {returned : β → State → Prop}
    (first : Leads before action between failed)
    (second : ∀ value, Leads (between value) (continuation value) returned failed) :
    Leads before (action >>= continuation) returned failed where
  outcome := by
    intro state holds
    have middle := first.outcome state holds
    change match EStateM.bind action continuation state with
      | .ok value next => returned value next
      | .error _ next => failed next
    rw [EStateM.bind]
    cases performed : action state with
    | ok value next =>
        rw [performed] at middle
        exact (second value).outcome next middle
    | error failure next =>
        rw [performed] at middle
        exact middle

theorem weaken {weaker : State → Prop} {action : EStateM Failure State α}
    {returned : α → State → Prop} (leads : Leads weaker action returned failed)
    (implied : ∀ state, before state → weaker state) :
    Leads before action returned failed :=
  ⟨fun state holds => leads.outcome state (implied state holds)⟩

theorem strengthen {action : EStateM Failure State α} {returned stronger : α → State → Prop}
    (leads : Leads before action stronger failed)
    (implied : ∀ value state, stronger value state → returned value state) :
    Leads before action returned failed :=
  cases (fun _ value next holds performed => implied value next (leads.ok holds performed))
    fun _ _ _ holds performed => leads.error holds performed

theorem onlyIf {condition : Bool} {action : EStateM Failure State PUnit}
    {returned : State → Prop}
    (taken : condition = true → Leads before action (fun _ => returned) failed)
    (skipped : condition = false → ∀ state, before state → returned state) :
    Leads before (Fallible.onlyIf condition action) (fun _ => returned) failed := by
  cases condition with
  | true => exact taken rfl
  | false => exact done (skipped rfl)

/-- A fact that follows from what holds before. -/
theorem assuming {fact : Prop} {action : EStateM Failure State α}
    {returned : α → State → Prop} (implied : ∀ state, before state → fact)
    (leads : fact → Leads before action returned failed) :
    Leads before action returned failed :=
  ⟨fun state holds => (leads (implied state holds)).outcome state holds⟩

/-- A fact that does not depend on the state. -/
theorem given {fact : Prop} {action : EStateM Failure State α} {returned : α → State → Prop}
    (leads : fact → Leads before action returned failed) :
    Leads (fun state => fact ∧ before state) action returned failed :=
  ⟨fun state holds => (leads holds.1).outcome state holds.2⟩

/-- An action on the first part of a state leaves the rest as it is. -/
theorem onFirst {Rest : Type} {before : State × Rest → Prop} {action : EStateM Failure State α}
    {returned : α → State × Rest → Prop} {failed : State × Rest → Prop}
    (leads : ∀ rest, Leads (fun state => before (state, rest)) action
      (fun value state => returned value (state, rest)) fun state => failed (state, rest)) :
    Leads before (Fallible.onFirst action) returned failed where
  outcome := by
    rintro ⟨state, rest⟩ holds
    have outcome := (leads rest).outcome state holds
    rw [Fallible.onFirst]
    cases performed : action state with
    | ok value next =>
        rw [performed] at outcome
        exact outcome
    | error failure next =>
        rw [performed] at outcome
        exact outcome

end Leads

namespace Keeps

variable {invariant failed : State → Prop}

theorem done (value : α) : Keeps invariant (pure value : EStateM Failure State α) :=
  Leads.done fun _ holds => holds

theorem fail (failure : Failure) : Keeps invariant (throw failure : EStateM Failure State α) :=
  Leads.fail fun _ holds => holds

theorem read : Keeps invariant (get : EStateM Failure State State) :=
  ⟨fun _ holds => holds⟩

theorem update {change : State → State}
    (preserved : ∀ state, invariant state → invariant (change state)) :
    Keeps invariant (modify change : EStateM Failure State Unit) :=
  Leads.update preserved

theorem bind {action : EStateM Failure State α} {continuation : α → EStateM Failure State β}
    (first : Keeps invariant action) (second : ∀ value, Keeps invariant (continuation value)) :
    Keeps invariant (action >>= continuation) :=
  Leads.bind first second

theorem leads {action : EStateM Failure State α} (keeps : Keeps invariant action)
    (implied : ∀ state, invariant state → failed state) :
    Leads invariant action (fun _ => invariant) failed :=
  Leads.cases (fun _ _ _ holds performed => Leads.ok keeps holds performed)
    fun _ _ next holds performed => implied next (Leads.error keeps holds performed)

end Keeps

end RAGuardian.Fallible
