import Mathlib.Data.List.Induction
import Mathlib.Logic.Relation

/-! # Executions

Runs of a machine whose events carry everything its steps depend on, and the
rules that carry a property from one step to a whole run. -/

namespace RAGuardian.Execution

variable {State : Type u} {Event : Type v}

/-! ## Runs -/

/-- The state after a sequence of events. -/
def run (next : Event → State → State) (state : State) (events : List Event) : State :=
  events.foldl (fun state event => next event state) state

@[simp] theorem run_nil (next : Event → State → State) (state : State) :
    run next state [] = state :=
  rfl

@[simp] theorem run_cons (next : Event → State → State) (state : State)
    (event : Event) (events : List Event) :
    run next state (event :: events) = run next (next event state) events :=
  rfl

theorem run_append (next : Event → State → State) (state : State)
    (earlier later : List Event) :
    run next state (earlier ++ later) = run next (run next state earlier) later :=
  List.foldl_append

@[simp] theorem run_concat (next : Event → State → State) (state : State)
    (events : List Event) (event : Event) :
    run next state (events ++ [event]) = next event (run next state events) := by
  rw [run_append, run_cons, run_nil]

/-- What has happened when a given event of a list comes. -/
theorem eq_take_of_concat_prefix {α : Type u} {past events : List α} {event : α}
    (within : past ++ [event] <+: events) :
    past = events.take past.length ∧ events[past.length]? = some event := by
  rcases within with ⟨rest, rfl⟩
  simp

/-- A check of every event of a list together with the events before it. -/
def checkEach {α : Type u} (check : List α → α → Bool) (events : List α) : Bool :=
  (List.range events.length).all fun count => (events[count]?).all (check (events.take count))

theorem checkEach_sound {α : Type u} {check : List α → α → Bool} {events past : List α} {event : α}
    (checked : checkEach check events = true) (within : past ++ [event] <+: events) :
    check past event = true := by
  rcases eq_take_of_concat_prefix within with ⟨same, next⟩
  have listed : past.length ∈ List.range events.length :=
    List.mem_range.mpr (List.getElem?_eq_some_iff.mp next).1
  have here := List.all_eq_true.mp checked past.length listed
  rw [next, Option.all_some, ← same] at here
  exact here

/-- What every admissible step preserves holds after every run of admissible
steps. -/
theorem run_invariant {next : Event → State → State} {invariant : State → Prop}
    (admissible : Event → Prop)
    (preserved : ∀ event state, admissible event → invariant state →
      invariant (next event state))
    (events : List Event) (admitted : ∀ event ∈ events, admissible event)
    {state : State} (initial : invariant state) : invariant (run next state events) := by
  induction events generalizing state with
  | nil => exact initial
  | cons event events induction =>
      rw [run_cons]
      apply induction (fun other member => admitted other (List.mem_cons_of_mem event member))
      exact preserved event state (admitted event List.mem_cons_self) initial

/-- A relation between the events so far and the state, established step by
step. -/
theorem run_history {next : Event → State → State} {initial : State}
    (invariant : List Event → State → Prop) (started : invariant [] initial)
    (preserved : ∀ past event, invariant past (run next initial past) →
      invariant (past ++ [event]) (next event (run next initial past)))
    (events : List Event) : invariant events (run next initial events) := by
  induction events using List.reverseRecOn with
  | nil => exact started
  | append_singleton past event induction =>
      rw [run_concat]
      exact preserved past event induction

/-- What is alive after a run was alive before it, if steps bring nothing to
life. -/
theorem run_earlier {next : Event → State → State} (admissible : Event → Prop)
    (alive : State → Prop)
    (earlier : ∀ event state, admissible event → alive (next event state) → alive state)
    (events : List Event) (admitted : ∀ event ∈ events, admissible event)
    {state : State} (survives : alive (run next state events)) : alive state := by
  induction events generalizing state with
  | nil => exact survives
  | cons event events induction =>
      apply earlier event state (admitted event List.mem_cons_self)
      exact induction (fun other member => admitted other (List.mem_cons_of_mem event member))
        survives

/-- What every step preserves as long as something stays alive holds after every
run it survives. -/
theorem run_while {next : Event → State → State} {holds : State → Prop}
    (admissible : Event → Prop) (alive : State → Prop)
    (earlier : ∀ event state, admissible event → alive (next event state) → alive state)
    (preserved : ∀ event state, admissible event → alive (next event state) →
      holds state → holds (next event state))
    (events : List Event) (admitted : ∀ event ∈ events, admissible event)
    {state : State} (initial : holds state) (survives : alive (run next state events)) :
    holds (run next state events) := by
  induction events generalizing state with
  | nil => exact initial
  | cons event events induction =>
      have rest : ∀ other ∈ events, admissible other :=
        fun other member => admitted other (List.mem_cons_of_mem event member)
      rw [run_cons] at survives ⊢
      refine induction rest ?_ survives
      exact preserved event state (admitted event List.mem_cons_self)
        (run_earlier admissible alive earlier events rest survives) initial

/-- If every step of a run moves along a relation, any two of its states are
related. -/
theorem run_related {next : Event → State → State} (relation : State → State → Prop)
    (reflexive : ∀ state, relation state state)
    (transitive : ∀ first second third, relation first second → relation second third →
      relation first third)
    {initial : State} {events : List Event}
    (steps : ∀ past event, past ++ [event] <+: events →
      relation (run next initial past) (next event (run next initial past)))
    {earlier later : List Event} (order : earlier <+: later) (within : later <+: events) :
    relation (run next initial earlier) (run next initial later) := by
  rcases order with ⟨between, rfl⟩
  induction between using List.reverseRecOn with
  | nil =>
      rw [List.append_nil]
      exact reflexive _
  | append_singleton between event induction =>
      rw [← List.append_assoc] at within ⊢
      rw [run_concat]
      exact transitive _ _ _ (induction ((List.prefix_append _ _).trans within))
        (steps _ event within)

/-- Every step of a run meets a condition on its event and the state before it. -/
def Along (next : Event → State → State) (condition : Event → State → Prop) :
    State → List Event → Prop
  | _, [] => True
  | state, event :: events =>
      condition event state ∧ Along next condition (next event state) events

section

variable {next : Event → State → State} {condition : Event → State → Prop} {state : State}
  {events : List Event}

theorem Along.and {other : Event → State → Prop} (first : Along next condition state events)
    (second : Along next other state events) :
    Along next (fun event state => condition event state ∧ other event state) state events := by
  induction events generalizing state with
  | nil => trivial
  | cons event events induction =>
      exact ⟨⟨first.1, second.1⟩, induction first.2 second.2⟩

theorem Along.of_prefix (along : Along next condition state events) {past : List Event}
    (within : past <+: events) : Along next condition state past := by
  induction past generalizing state events with
  | nil => trivial
  | cons event past induction =>
      rcases within with ⟨rest, rfl⟩
      exact ⟨along.1, induction along.2 (List.prefix_append past rest)⟩

theorem Along.of_append {earlier later : List Event}
    (along : Along next condition state (earlier ++ later)) :
    Along next condition (run next state earlier) later := by
  induction earlier generalizing state with
  | nil => exact along
  | cons event earlier induction => exact induction along.2

/-- What the steps that meet a condition preserve holds after a run of such steps. -/
theorem along_invariant {invariant : State → Prop}
    (preserved : ∀ event state, condition event state → invariant state →
      invariant (next event state))
    (along : Along next condition state events) (holds : invariant state) :
    invariant (run next state events) := by
  induction events generalizing state with
  | nil => exact holds
  | cons event events induction =>
      rw [run_cons]
      exact induction along.2 (preserved event state along.1 holds)

end

/-! ## Chains of effects -/

/-- What every effect preserves is preserved along a chain of effects. -/
theorem chain_invariant {effect : State → State → Prop} {invariant : State → Prop}
    (preserved : ∀ before after, effect before after → invariant before → invariant after)
    {before after : State} (chain : Relation.ReflTransGen effect before after)
    (holds : invariant before) : invariant after := by
  induction chain with
  | refl => exact holds
  | tail _ step induction => exact preserved _ _ step induction

/-- What is alive after a chain was alive before it, if effects bring nothing to
life. -/
theorem chain_earlier {effect : State → State → Prop} (alive : State → Prop)
    (earlier : ∀ before after, effect before after → alive after → alive before)
    {before after : State} (chain : Relation.ReflTransGen effect before after)
    (survives : alive after) : alive before := by
  induction chain with
  | refl => exact survives
  | tail _ step induction => exact induction (earlier _ _ step survives)

/-- What every effect preserves as long as something stays alive is preserved
along a chain it survives. -/
theorem chain_while {effect : State → State → Prop} {holds : State → Prop}
    (alive : State → Prop)
    (earlier : ∀ before after, effect before after → alive after → alive before)
    (preserved : ∀ before after, effect before after → alive after → holds before →
      holds after)
    {before after : State} (chain : Relation.ReflTransGen effect before after)
    (initial : holds before) (survives : alive after) : holds after := by
  induction chain with
  | refl => exact initial
  | tail _ step induction =>
      exact preserved _ _ step survives (induction (earlier _ _ step survives))

/-- Repeating an effect over a list is a chain, as long as its guard survives. -/
theorem chain_foldl {effect : State → State → Prop} {step : State → α → State}
    {items : List α} (guard : α → State → Prop)
    (related : ∀ item state, guard item state → effect state (step state item))
    (stable : ∀ item other state, guard other state → guard other (step state item))
    {state : State} (guarded : ∀ item ∈ items, guard item state) :
    Relation.ReflTransGen effect state (items.foldl step state) := by
  induction items generalizing state with
  | nil => exact .refl
  | cons item items induction =>
      rw [List.foldl_cons]
      refine .head (related item state (guarded item List.mem_cons_self)) (induction ?_)
      intro other member
      exact stable item other state (guarded other (List.mem_cons_of_mem item member))

/-- What every step of a fold preserves is preserved by the fold. -/
theorem foldl_invariant {step : State → α → State} {invariant : State → Prop}
    (preserved : ∀ item state, invariant state → invariant (step state item))
    (items : List α) {state : State} (holds : invariant state) :
    invariant (items.foldl step state) := by
  induction items generalizing state with
  | nil => exact holds
  | cons item items induction => exact induction (preserved item state holds)

end RAGuardian.Execution
