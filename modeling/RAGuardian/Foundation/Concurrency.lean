import RAGuardian.Foundation.Execution

/-! # Concurrent calls over a shared state

Calls are sequential programs. The shared state executes their requests one at a
time, in any order of the calls. Every call keeps the trail of its requests, so
what happened while it ran can be read off the call itself. -/

namespace RAGuardian.Concurrency

open Execution

/-! ## Programs -/

/-- A sequential program over atomic requests. -/
inductive Program (Request : Type) (Response : Request → Type) (α : Type)
  | done (result : α)
  | call (request : Request) (next : Response request → Program Request Response α)

namespace Program

variable {Request : Type} {Response : Request → Type} {α β : Type}

def bind : Program Request Response α → (α → Program Request Response β) →
    Program Request Response β
  | done result, continuation => continuation result
  | call request next, continuation =>
      call request fun response => (next response).bind continuation

instance : Monad (Program Request Response) where
  pure := done
  bind := bind

/-- Make a request and return its response. -/
def ask (request : Request) : Program Request Response (Response request) :=
  call request done

/-- Run a body on every item, in order. -/
def each (items : List β) (body : β → Program Request Response Unit) :
    Program Request Response Unit :=
  match items with
  | [] => done ()
  | item :: rest => (body item).bind fun _ => each rest body

@[simp] theorem pure_eq_done (result : α) :
    (pure result : Program Request Response α) = done result :=
  rfl

@[simp] theorem bind_eq_bind (program : Program Request Response α)
    (continuation : α → Program Request Response β) :
    program >>= continuation = program.bind continuation :=
  rfl

@[simp] theorem done_bind (result : α) (continuation : α → Program Request Response β) :
    (done result).bind continuation = continuation result :=
  rfl

theorem bind_assoc {γ : Type} (program : Program Request Response α)
    (first : α → Program Request Response β) (second : β → Program Request Response γ) :
    (program.bind first).bind second = program.bind fun result => (first result).bind second := by
  induction program with
  | done result => rfl
  | call request next induction =>
      simp only [bind]
      congr 1
      funext response
      exact induction response

/-! ### What a program does on every path -/

/-- Wherever the program makes a request, the obligation holds of the request and
of what follows it. -/
def Always (obligation :
      (request : Request) → (Response request → Program Request Response α) → Prop) :
    Program Request Response α → Prop
  | done _ => True
  | call request next =>
      obligation request next ∧ ∀ response, (next response).Always obligation

/-- The program makes allowed requests only. -/
abbrev Makes (allowed : Request → Prop) (program : Program Request Response α) : Prop :=
  program.Always fun request _ => allowed request

@[simp] theorem always_done {obligation :
      (request : Request) → (Response request → Program Request Response α) → Prop}
    (result : α) : (done result).Always obligation :=
  trivial

theorem Always.mono {weak strong :
      (request : Request) → (Response request → Program Request Response α) → Prop}
    (weaker : ∀ request next, strong request next → weak request next)
    {program : Program Request Response α} (holds : program.Always strong) :
    program.Always weak := by
  induction program with
  | done result => trivial
  | call request next induction =>
      exact ⟨weaker request next holds.1, fun response => induction response (holds.2 response)⟩

theorem Always.bind {obligation :
      (request : Request) → (Response request → Program Request Response β) → Prop}
    {program : Program Request Response α}
    {continuation : α → Program Request Response β}
    (first : program.Always fun request next =>
      obligation request fun response => (next response).bind continuation)
    (second : ∀ result, (continuation result).Always obligation) :
    (program.bind continuation).Always obligation := by
  induction program with
  | done result => exact second result
  | call request next induction =>
      exact ⟨first.1, fun response => induction response (first.2 response)⟩

/-! ### Uninterrupted execution -/

/-- The result of a program no other request comes between. -/
def perform {State : Type} (execute : (request : Request) → State → Response request × State) :
    Program Request Response α → State → α × State
  | done result, state => (result, state)
  | call request next, state =>
      let (response, state) := execute request state
      (next response).perform execute state

section

variable {State : Type} {execute : (request : Request) → State → Response request × State}

@[simp] theorem perform_done (result : α) (state : State) :
    (done result : Program Request Response α).perform execute state = (result, state) :=
  rfl

@[simp] theorem perform_call (request : Request)
    (next : Response request → Program Request Response α) (state : State) :
    (call request next).perform execute state =
      (next (execute request state).1).perform execute (execute request state).2 :=
  rfl

@[simp] theorem perform_bind (program : Program Request Response α)
    (continuation : α → Program Request Response β) (state : State) :
    (program.bind continuation).perform execute state =
      (continuation (program.perform execute state).1).perform execute
        (program.perform execute state).2 := by
  induction program generalizing state with
  | done result => rfl
  | call request next induction => exact induction _ _

/-- What every request of a program preserves is preserved by the program. -/
theorem Makes.perform {allowed : Request → Prop} {invariant : State → Prop}
    {program : Program Request Response α} (makes : program.Makes allowed)
    (preserved : ∀ request state, allowed request → invariant state →
      invariant (execute request state).2)
    {state : State} (holds : invariant state) :
    invariant (program.perform execute state).2 := by
  induction program generalizing state with
  | done result => exact holds
  | call request next induction =>
      exact induction _ (makes.2 _) (preserved request state makes.1 holds)

end

end Program

/-! ## Systems -/

/-- What calls run on: how the shared state answers a request, the program of
each call, and which calls never overlap. -/
structure System (Request : Type) (Response : Request → Type) (Draw State Call : Type)
    (Outcome : Call → Type) where
  execute : Draw → (request : Request) → State → Response request × State
  program : (call : Call) → Program Request Response (Outcome call)
  excludes : Call → Call → Bool

/-- A request a call has made, with the state that answered it. -/
structure Step (Request Draw State : Type) where
  request : Request
  draw : Draw
  before : State

section Machines

variable {Request : Type} {Response : Request → Type} {Draw State Call : Type}
  {Outcome : Call → Type} {α β : Type}

namespace Step

variable (system : System Request Response Draw State Call Outcome)

def after (step : Step Request Draw State) : State :=
  (system.execute step.draw step.request step.before).2

end Step

/-- A call, the steps it has taken and the program that remains. -/
structure Task (system : System Request Response Draw State Call Outcome) where
  call : Call
  trail : List (Step Request Draw State)
  remaining : Program Request Response (Outcome call)

/-- Every call that was ever started, in order, over the shared state. -/
structure Machine (system : System Request Response Draw State Call Outcome) where
  state : State
  tasks : List (Task system)

inductive Event (Draw Call : Type)
  | start (call : Call)
  | step (index : Nat) (draw : Draw)

variable {system : System Request Response Draw State Call Outcome}

namespace Task

/-- The call has not returned. -/
def running (task : Task system) : Bool :=
  match task.remaining with
  | .done _ => false
  | .call _ _ => true

def begun (system : System Request Response Draw State Call Outcome) (call : Call) :
    Task system :=
  ⟨call, [], system.program call⟩

/-- The call after the request it was about to make. -/
def answered (task : Task system) (draw : Draw) (state : State) (request : Request)
    (next : Response request → Program Request Response (Outcome task.call)) :
    Task system where
  call := task.call
  trail := task.trail ++ [⟨request, draw, state⟩]
  remaining := next (system.execute draw request state).1

theorem running_of_call {task : Task system} {request : Request}
    {next : Response request → Program Request Response (Outcome task.call)}
    (asks : task.remaining = .call request next) : task.running = true := by
  rw [running, asks]

end Task

namespace Machine

def initial (system : System Request Response Draw State Call Outcome) (state : State) :
    Machine system :=
  ⟨state, []⟩

/-- All calls have returned. -/
def Quiescent (machine : Machine system) : Prop :=
  ∀ task ∈ machine.tasks, task.running = false

/-- One event. A call that some running call excludes does not start, and a call
that has returned takes no step. -/
def next : Event Draw Call → Machine system → Machine system
  | .start call, machine =>
      if machine.tasks.any fun task => task.running && system.excludes call task.call then
        machine
      else
        { machine with tasks := machine.tasks ++ [.begun system call] }
  | .step index draw, machine =>
      match machine.tasks[index]? with
      | none => machine
      | some task =>
          match task.remaining with
          | .done _ => machine
          | .call request next => {
              state := (system.execute draw request machine.state).2
              tasks := machine.tasks.set index
                (task.answered draw machine.state request next) }

/-- What an event can do. -/
inductive Moves (machine : Machine system) : Event Draw Call → Machine system → Prop
  | idle (event : Event Draw Call) : Moves machine event machine
  | start (call : Call)
      (free : ∀ task ∈ machine.tasks, task.running = true →
        system.excludes call task.call = false) :
      Moves machine (.start call)
        { machine with tasks := machine.tasks ++ [.begun system call] }
  | step (index : Nat) (draw : Draw) (task : Task system) (request : Request)
      (next : Response request → Program Request Response (Outcome task.call))
      (found : machine.tasks[index]? = some task)
      (asks : task.remaining = .call request next) :
      Moves machine (.step index draw) {
        state := (system.execute draw request machine.state).2
        tasks := machine.tasks.set index (task.answered draw machine.state request next) }

theorem moves (machine : Machine system) (event : Event Draw Call) :
    machine.Moves event (machine.next event) := by
  cases event with
  | start call =>
      rw [next]
      split
      · exact .idle _
      · rename_i free
        apply Moves.start call
        intro task member running
        by_contra excluded
        apply free
        rw [List.any_eq_true]
        exact ⟨task, member, by simp [running, excluded]⟩
  | step index draw =>
      rw [next]
      split
      · exact .idle _
      · rename_i task found
        split
        · exact .idle _
        · rename_i request next asks
          exact .step index draw task request next found asks

theorem next_step_state {machine : Machine system} {index : Nat} {task : Task system}
    {request : Request} {next : Response request → Program Request Response (Outcome task.call)}
    (found : machine.tasks[index]? = some task) (asks : task.remaining = .call request next)
    (draw : Draw) :
    (machine.next (.step index draw)).state = (system.execute draw request machine.state).2 := by
  rw [Machine.next]
  split
  · rename_i missing
    rw [found] at missing
    cases missing
  · rename_i other same
    rw [found] at same
    cases same
    split
    · rename_i finished
      rw [asks] at finished
      cases finished
    · rename_i other next' same
      rw [asks] at same
      cases same
      rfl

/-- The tasks after a step are those before it, but for the one that took it. -/
theorem mem_set {tasks : List (Task system)} {index : Nat} {task other : Task system}
    (member : other ∈ tasks.set index task) : other ∈ tasks ∨ other = task :=
  List.mem_or_eq_of_mem_set member

end Machine

/-! ## Trails -/

variable (system) in
/-- Running a program with the answers of a trail leaves the remaining program. -/
inductive Follows : Program Request Response α → List (Step Request Draw State) →
    Program Request Response α → Prop
  | here (program : Program Request Response α) : Follows program [] program
  | call (request : Request) (next : Response request → Program Request Response α)
      (draw : Draw) (before : State) {trail : List (Step Request Draw State)}
      {remaining : Program Request Response α}
      (rest : Follows (next (system.execute draw request before).1) trail remaining) :
      Follows (.call request next) (⟨request, draw, before⟩ :: trail) remaining

namespace Follows

variable {program remaining : Program Request Response α}
  {trail : List (Step Request Draw State)}

theorem snoc {request : Request} {next : Response request → Program Request Response α}
    (follows : Follows system program trail (.call request next)) (draw : Draw)
    (before : State) :
    Follows system program (trail ++ [⟨request, draw, before⟩])
      (next (system.execute draw request before).1) := by
  generalize reached : Program.call request next = remaining at follows
  induction follows with
  | here program =>
      subst reached
      exact .call request next draw before (.here _)
  | call _ _ _ _ _ induction => exact .call _ _ _ _ (induction reached)

/-- The steps of two programs in sequence. -/
theorem bind_cases {first : Program Request Response β}
    {continuation : β → Program Request Response α}
    (follows : Follows system (first.bind continuation) trail remaining) :
    (∃ rest, Follows system first trail rest ∧ remaining = rest.bind continuation) ∨
      ∃ earlier later result, trail = earlier ++ later ∧
        Follows system first earlier (.done result) ∧
        Follows system (continuation result) later remaining := by
  generalize composed : first.bind continuation = program at follows
  induction follows generalizing first with
  | here program => exact .inl ⟨first, .here first, composed.symm⟩
  | call request next draw before rest induction =>
      cases first with
      | done result =>
          refine .inr ⟨[], _, result, rfl, .here _, ?_⟩
          rw [Program.done_bind] at composed
          rw [composed]
          exact .call request next draw before rest
      | call other following =>
          cases composed
          rcases induction rfl with ⟨rest, steps, same⟩ | ⟨earlier, later, result, rfl, steps, rest⟩
          · exact .inl ⟨rest, .call _ _ _ _ steps, same⟩
          · exact .inr ⟨_ :: earlier, later, result, rfl, .call _ _ _ _ steps, rest⟩

/-- A finished sequence finished its first part. -/
theorem bind_done {first : Program Request Response β}
    {continuation : β → Program Request Response α} {result : α}
    (follows : Follows system (first.bind continuation) trail (.done result)) :
    ∃ earlier later value, trail = earlier ++ later ∧
      Follows system first earlier (.done value) ∧
      Follows system (continuation value) later (.done result) := by
  rcases follows.bind_cases with ⟨rest, steps, same⟩ | finished
  · cases rest with
    | done value => exact ⟨trail, [], value, by simp, steps, same ▸ .here _⟩
    | call request next => cases same
  · exact finished

theorem always {obligation :
      (request : Request) → (Response request → Program Request Response α) → Prop}
    (follows : Follows system program trail remaining) (holds : program.Always obligation) :
    remaining.Always obligation := by
  induction follows with
  | here program => exact holds
  | call request next draw before rest induction => exact induction (holds.2 _)

end Follows

/-! ## Runs -/

/-- What every move preserves holds after every run. -/
theorem run_moves (invariant : Machine system → Prop)
    (preserved : ∀ before event after, Machine.Moves before event after →
      invariant before → invariant after)
    {machine : Machine system} (holds : invariant machine) (events : List (Event Draw Call)) :
    invariant (run Machine.next machine events) :=
  run_invariant (fun _ => True)
    (fun event before _ held => preserved before event _ (before.moves event) held)
    events (fun _ _ => trivial) holds

/-- What remains of every call is what its trail has left of its program. -/
def Machine.Consistent (machine : Machine system) : Prop :=
  ∀ task ∈ machine.tasks, Follows system (system.program task.call) task.trail task.remaining

theorem Machine.Moves.consistent {before after : Machine system} {event : Event Draw Call}
    (moves : before.Moves event after) (holds : before.Consistent) : after.Consistent := by
  cases moves with
  | idle => exact holds
  | start call free =>
      intro task member
      rcases List.mem_append.mp member with old | new
      · exact holds task old
      · rw [List.mem_singleton.mp new]
        exact .here _
  | step index draw task request next found asks =>
      intro other member
      rcases Machine.mem_set member with old | rfl
      · exact holds other old
      · have follows := holds task (List.mem_of_getElem? found)
        rw [asks] at follows
        exact follows.snoc draw before.state

theorem run_trails (state : State) (events : List (Event Draw Call)) :
    (run Machine.next (.initial system state) events).Consistent := by
  apply run_moves Machine.Consistent (fun before event after moves => moves.consistent)
  intro task member
  cases member

/-- The request a call is about to make is one its program allows. -/
theorem Machine.Consistent.allows {machine : Machine system} (consistent : machine.Consistent)
    {task : Task system} (member : task ∈ machine.tasks) {request : Request}
    {next : Response request → Program Request Response (Outcome task.call)}
    (asks : task.remaining = .call request next)
    {obligation : (request : Request) →
      (Response request → Program Request Response (Outcome task.call)) → Prop}
    (always : (system.program task.call).Always obligation) : obligation request next := by
  have remaining := (consistent task member).always always
  rw [asks] at remaining
  exact remaining.1

/-- The tasks after a start. -/
theorem Machine.getElem?_start {tasks : List (Task system)} {call : Call} {index : Nat}
    {task : Task system} (found : (tasks ++ [.begun system call])[index]? = some task) :
    tasks[index]? = some task ∨ index = tasks.length ∧ task = .begun system call := by
  rcases Nat.lt_trichotomy index tasks.length with before | rfl | beyond
  · rw [List.getElem?_append_left before] at found
    exact .inl found
  · rw [List.getElem?_concat_length] at found
    exact .inr ⟨rfl, (Option.some.inj found).symm⟩
  · rw [List.getElem?_eq_none (by simp; omega)] at found
    cases found

/-- The tasks after a step. -/
theorem Machine.getElem?_step {tasks : List (Task system)} {stepped other : Nat}
    {task changed : Task system} (found : (tasks.set stepped changed)[other]? = some task) :
    other = stepped ∧ task = changed ∨ other ≠ stepped ∧ tasks[other]? = some task := by
  rw [List.getElem?_set] at found
  split at found
  · rename_i equal
    split at found
    · exact .inl ⟨equal.symm, (Option.some.inj found).symm⟩
    · cases found
  · rename_i different
    exact .inr ⟨fun equal => different equal.symm, found⟩

/-- Every step in the trail of a call was taken at some point of the run, when the
call had taken the steps before it. -/
def Machine.Recorded (initial : Machine system) (events : List (Event Draw Call))
    (machine : Machine system) : Prop :=
  ∀ (index : Nat) (task : Task system), machine.tasks[index]? = some task →
    ∀ earlier step later, task.trail = earlier ++ step :: later →
      ∃ past task', past ++ [.step index step.draw] <+: events ∧
        (run next initial past).tasks[index]? = some task' ∧
        (run next initial past).state = step.before ∧ task'.call = task.call ∧
        task'.trail = earlier ∧ ∃ next, task'.remaining = .call step.request next

theorem run_recorded (state : State) (events : List (Event Draw Call)) :
    Machine.Recorded (.initial system state) events
      (run Machine.next (.initial system state) events) := by
  induction events using List.reverseRecOn with
  | nil =>
      intro index task found
      cases found
  | append_singleton past event induction =>
      have extended : ∀ (index : Nat) (task : Task system),
          (run Machine.next (.initial system state) past).tasks[index]? = some task →
          ∀ earlier step later, task.trail = earlier ++ step :: later →
            ∃ before task', before ++ [.step index step.draw] <+: past ++ [event] ∧
              (run Machine.next (.initial system state) before).tasks[index]? = some task' ∧
              (run Machine.next (.initial system state) before).state = step.before ∧
              task'.call = task.call ∧ task'.trail = earlier ∧
              ∃ next, task'.remaining = .call step.request next := by
        intro index task found earlier step later split
        rcases induction index task found earlier step later split with
          ⟨before, task', within, rest⟩
        exact ⟨before, task', within.trans (List.prefix_append past [event]), rest⟩
      rw [run_concat]
      generalize reached : Machine.next event (run Machine.next (.initial system state) past) =
        after
      have moves := (run Machine.next (.initial system state) past).moves event
      rw [reached] at moves
      cases moves with
      | idle => exact extended
      | start call free =>
          intro index task found earlier step later split
          rcases Machine.getElem?_start found with old | ⟨_, rfl⟩
          · exact extended index task old earlier step later split
          · simp [Task.begun] at split
      | step stepped draw task request next found asks =>
          intro index other otherFound earlier step later split
          rcases Machine.getElem?_step otherFound with ⟨rfl, rfl⟩ | ⟨_, old⟩
          · change task.trail ++ [_] = earlier ++ step :: later at split
            rcases List.eq_nil_or_concat later with rfl | ⟨init, last, rfl⟩
            · rcases List.append_inj' split rfl with ⟨same, final⟩
              rw [← List.singleton_inj.mp final]
              exact ⟨past, task, List.prefix_rfl, found, rfl, rfl, same, next, asks⟩
            · rw [List.concat_eq_append, ← List.cons_append, ← List.append_assoc] at split
              exact extended index task found earlier step init (List.append_inj' split rfl).1
          · exact extended index other old earlier step later split

/-- Every call of a run was started by one of its events. -/
theorem run_started {state : State} {events : List (Event Draw Call)} {task : Task system}
    (member : task ∈ (run Machine.next (.initial system state) events).tasks) :
    Event.start task.call ∈ events := by
  induction events using List.reverseRecOn generalizing task with
  | nil => cases member
  | append_singleton past event induction =>
      rw [run_concat] at member
      generalize reached : Machine.next event (run Machine.next (.initial system state) past) =
        after at member
      have moves := (run Machine.next (.initial system state) past).moves event
      rw [reached] at moves
      apply List.mem_append.mpr
      cases moves with
      | idle => exact .inl (induction member)
      | start call free =>
          rcases List.mem_append.mp member with old | new
          · exact .inl (induction old)
          · rw [List.mem_singleton.mp new]
            exact .inr List.mem_cons_self
      | step index draw stepped request next found asks =>
          rcases Machine.mem_set member with old | rfl
          · exact .inl (induction old)
          · have started := induction (List.mem_of_getElem? found)
            exact .inl started

/-- The calls started by some point of a run are among those started later. -/
theorem run_tasks_length {state : State} {earlier later : List (Event Draw Call)}
    (order : earlier <+: later) :
    (run Machine.next (.initial system state) earlier).tasks.length ≤
      (run Machine.next (.initial system state) later).tasks.length := by
  apply run_related (fun before after : Machine system =>
    before.tasks.length ≤ after.tasks.length) (fun _ => Nat.le_refl _) (fun _ _ _ => Nat.le_trans) _ order
    List.prefix_rfl
  intro past event _
  generalize reached : Machine.next event (run Machine.next (.initial system state) past) = after
  have moves := (run Machine.next (.initial system state) past).moves event
  rw [reached] at moves
  cases moves with
  | idle => exact Nat.le_refl _
  | start call free => simp
  | step index draw task request next found asks => simp

/-! ## Exclusion -/

/-- No two running calls exclude each other. -/
def Machine.Compatible (machine : Machine system) : Prop :=
  ∀ (left right : Nat) (first second : Task system), left ≠ right →
    machine.tasks[left]? = some first → machine.tasks[right]? = some second →
    first.running = true → second.running = true →
    system.excludes first.call second.call = false

theorem Machine.Moves.compatible
    (symmetric : ∀ left right, system.excludes left right = system.excludes right left)
    {before after : Machine system} {event : Event Draw Call}
    (moves : before.Moves event after) (holds : before.Compatible) : after.Compatible := by
  cases moves with
  | idle => exact holds
  | start call free =>
      intro left right first second different leftFound rightFound leftRuns rightRuns
      rcases getElem?_start leftFound with leftOld | ⟨rfl, rfl⟩
      · rcases getElem?_start rightFound with rightOld | ⟨rfl, rfl⟩
        · exact holds left right first second different leftOld rightOld leftRuns rightRuns
        · rw [symmetric]
          exact free first (List.mem_of_getElem? leftOld) leftRuns
      · rcases getElem?_start rightFound with rightOld | ⟨rfl, rfl⟩
        · exact free second (List.mem_of_getElem? rightOld) rightRuns
        · exact absurd rfl different
  | step index draw task request next found asks =>
      have runs := Task.running_of_call asks
      intro left right first second different leftFound rightFound leftRuns rightRuns
      rcases getElem?_step leftFound with ⟨rfl, rfl⟩ | ⟨-, leftOld⟩
      · rcases getElem?_step rightFound with ⟨rfl, -⟩ | ⟨-, rightOld⟩
        · exact absurd rfl different
        · exact holds left right task second different found rightOld runs rightRuns
      · rcases getElem?_step rightFound with ⟨rfl, rfl⟩ | ⟨-, rightOld⟩
        · exact holds left right first task different leftOld found leftRuns runs
        · exact holds left right first second different leftOld rightOld leftRuns rightRuns

theorem run_compatible
    (symmetric : ∀ left right, system.excludes left right = system.excludes right left)
    (state : State) (events : List (Event Draw Call)) :
    (run Machine.next (.initial system state) events).Compatible := by
  apply run_moves Machine.Compatible
    (fun before event after moves => moves.compatible symmetric)
  intro left right first second _ leftFound
  simp [Machine.initial] at leftFound

end Machines

end RAGuardian.Concurrency
