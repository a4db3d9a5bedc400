import RAGuardian.Foundation.Fallible

/-! # Handlers

An action may have a handler for its failures, and an action that is taken after it in
every case. -/

namespace RAGuardian.Fallible

variable {Failure State α β : Type}

/-- A failure goes to the handler, with the state it leaves. -/
def handle (action : EStateM Failure State α) (handler : Failure → EStateM Failure State α) :
    EStateM Failure State α := fun state =>
  match action state with
  | .ok value next => .ok value next
  | .error failure next => handler failure next

/-- The last action follows in every case; its own failure takes the place of the result. -/
def ensure (action : EStateM Failure State α) (last : EStateM Failure State Unit) :
    EStateM Failure State α := fun state =>
  match action state with
  | .ok value next => (last >>= fun _ => pure value) next
  | .error failure next => (last >>= fun _ => throw failure) next

/-- What an action leaves when it returns a value, and what it leaves with each failure. -/
structure Settles (before : State → Prop) (action : EStateM Failure State α)
    (returned : α → State → Prop) (failed : Failure → State → Prop) : Prop where
  outcome : ∀ state, before state →
    match action state with
    | .ok value next => returned value next
    | .error failure next => failed failure next

/-- What holds before holds afterwards. -/
abbrev Maintains (holds : State → Prop) (failed : Failure → State → Prop)
    (action : EStateM Failure State α) : Prop :=
  Settles holds action (fun _ => holds) failed

namespace Settles

variable {before : State → Prop} {failed : Failure → State → Prop}

theorem ok {action : EStateM Failure State α} {returned : α → State → Prop}
    (settles : Settles before action returned failed) {state next : State} {value : α}
    (holds : before state) (performed : action state = .ok value next) :
    returned value next := by
  have outcome := settles.outcome state holds
  rw [performed] at outcome
  exact outcome

theorem error {action : EStateM Failure State α} {returned : α → State → Prop}
    (settles : Settles before action returned failed) {state next : State} {failure : Failure}
    (holds : before state) (performed : action state = .error failure next) :
    failed failure next := by
  have outcome := settles.outcome state holds
  rw [performed] at outcome
  exact outcome

theorem cases {action : EStateM Failure State α} {returned : α → State → Prop}
    (onOk : ∀ state value next, before state → action state = .ok value next →
      returned value next)
    (onError : ∀ state failure next, before state → action state = .error failure next →
      failed failure next) :
    Settles before action returned failed where
  outcome := by
    intro state holds
    cases performed : action state with
    | ok value next => exact onOk state value next holds performed
    | error failure next => exact onError state failure next holds performed

theorem done {returned : α → State → Prop} {value : α}
    (holds : ∀ state, before state → returned value state) :
    Settles before (pure value : EStateM Failure State α) returned failed :=
  ⟨holds⟩

theorem fail {returned : α → State → Prop} {failure : Failure}
    (holds : ∀ state, before state → failed failure state) :
    Settles before (throw failure : EStateM Failure State α) returned failed :=
  ⟨holds⟩

theorem read : Settles before (get : EStateM Failure State State)
    (fun value state => value = state ∧ before state) failed :=
  ⟨fun _ holds => ⟨rfl, holds⟩⟩

theorem look : Settles before (get : EStateM Failure State State) (fun _ => before) failed :=
  ⟨fun _ holds => holds⟩

theorem update {returned : Unit → State → Prop} {change : State → State}
    (holds : ∀ state, before state → returned () (change state)) :
    Settles before (modify change : EStateM Failure State Unit) returned failed :=
  ⟨holds⟩

theorem bind {action : EStateM Failure State α} {continuation : α → EStateM Failure State β}
    {between : α → State → Prop} {returned : β → State → Prop}
    (first : Settles before action between failed)
    (second : ∀ value, Settles (between value) (continuation value) returned failed) :
    Settles before (action >>= continuation) returned failed := by
  constructor
  intro state holds
  cases performed : action state with
  | ok value next =>
      rw [bind_of_ok performed]
      exact (second value).outcome next (first.ok holds performed)
  | error failure next =>
      rw [bind_of_error performed]
      exact first.error holds performed

theorem weaken {weaker : State → Prop} {action : EStateM Failure State α}
    {returned : α → State → Prop} (settles : Settles weaker action returned failed)
    (implied : ∀ state, before state → weaker state) :
    Settles before action returned failed :=
  ⟨fun state holds => settles.outcome state (implied state holds)⟩

theorem strengthen {action : EStateM Failure State α} {returned stronger : α → State → Prop}
    {worse : Failure → State → Prop} (settles : Settles before action stronger worse)
    (onOk : ∀ value state, stronger value state → returned value state)
    (onError : ∀ failure state, worse failure state → failed failure state) :
    Settles before action returned failed :=
  cases (fun _ value next holds performed => onOk value next (settles.ok holds performed))
    fun _ failure next holds performed => onError failure next (settles.error holds performed)

theorem onlyIf {condition : Bool} {action : EStateM Failure State PUnit}
    {returned : State → Prop}
    (taken : condition = true → Settles before action (fun _ => returned) failed)
    (skipped : condition = false → ∀ state, before state → returned state) :
    Settles before (Fallible.onlyIf condition action) (fun _ => returned) failed := by
  cases condition with
  | true => exact taken rfl
  | false => exact done (skipped rfl)

theorem handle {action : EStateM Failure State α} {handler : Failure → EStateM Failure State α}
    {returned : α → State → Prop} {between : Failure → State → Prop}
    (first : Settles before action returned between)
    (second : ∀ failure, Settles (between failure) (handler failure) returned failed) :
    Settles before (Fallible.handle action handler) returned failed := by
  constructor
  intro state holds
  rw [Fallible.handle]
  cases performed : action state with
  | ok value next => exact first.ok holds performed
  | error failure next => exact (second failure).outcome next (first.error holds performed)

theorem ensure {action : EStateM Failure State α} {last : EStateM Failure State Unit}
    {returned : α → State → Prop}
    (first : Settles before action returned failed)
    (onOk : ∀ value, Settles (returned value) last (fun _ => returned value) failed)
    (onError : ∀ failure, Settles (failed failure) last (fun _ => failed failure) failed) :
    Settles before (Fallible.ensure action last) returned failed := by
  constructor
  intro state holds
  rw [Fallible.ensure]
  cases performed : action state with
  | ok value next =>
      have after := bind (onOk value) fun _ => done fun _ held => held
      exact after.outcome next (first.ok holds performed)
  | error failure next =>
      have after : Settles (failed failure) (last >>= fun _ => throw failure) returned failed :=
        bind (onError failure) fun _ => fail fun _ held => held
      exact after.outcome next (first.error holds performed)

/-- A loop, by what holds before each of the items that are left. -/
theorem forM {invariant : List β → State → Prop} {body : β → EStateM Failure State PUnit}
    (step : ∀ item rest, Settles (invariant (item :: rest)) (body item)
      (fun _ => invariant rest) failed) (items : List β) :
    Settles (invariant items) (items.forM body) (fun _ => invariant []) failed := by
  induction items with
  | nil => exact done fun _ holds => holds
  | cons item rest induction => exact bind (step item rest) fun _ => induction

/-- A loop that keeps what holds. -/
theorem each {body : β → EStateM Failure State PUnit}
    (step : ∀ item, Maintains before failed (body item)) (items : List β) :
    Maintains before failed (items.forM body) := by
  induction items with
  | nil => exact done fun _ holds => holds
  | cons item rest induction => exact bind (step item) fun _ => induction

end Settles

end RAGuardian.Fallible
