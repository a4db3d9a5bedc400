import RAGuardian.Lifecycle.Generations

/-! # Invalidation across processes

A process misses a publication when it records a number without running its
invalidators: at its first synchronization, or after its own publication. As long as
nothing is unseen at these moments, every process that enters a section has run its
invalidators since every publication before. -/

namespace RAGuardian.Lifecycle

open Concurrency Execution

variable {Process Callback : Type} [DecidableEq Process]

/-! ## Unseen publications -/

/-- The invalidator registered under a name. -/
def registration (process : Process) (name : String) (log : List (Effect Process Callback)) :
    Option Callback :=
  log.foldl (fun held effect =>
    match effect with
    | .registered other named callback =>
        if other = process ∧ named = name then some callback else held
    | _ => held) none

/-- Another process has published since the registration of an invalidator, which has
not run since. -/
def Unseen (process : Process) (name : String) (callback : Callback)
    (log : List (Effect Process Callback)) : Prop :=
  ∃ earlier publisher later, log = earlier ++ .published publisher :: later ∧
    publisher ≠ process ∧ registration process name earlier = some callback ∧
    (∀ other, .registered process name other ∉ later) ∧ .ran process callback ∉ later

def Effect.isPublished : Effect Process Callback → Bool
  | .published _ => true
  | _ => false

def publications (log : List (Effect Process Callback)) : Nat :=
  log.countP Effect.isPublished

omit [DecidableEq Process] in
theorem publications_append (first second : List (Effect Process Callback)) :
    publications (first ++ second) = publications first + publications second :=
  List.countP_append

omit [DecidableEq Process] in
theorem publications_of_prefix {first second : List (Effect Process Callback)}
    (within : first <+: second) : publications first ≤ publications second := by
  rcases within with ⟨rest, rfl⟩
  rw [publications_append]
  omega

theorem registration_concat (process other : Process) (name named : String)
    (callback : Callback) (log : List (Effect Process Callback)) :
    registration process name (log ++ [.registered other named callback]) =
      if other = process ∧ named = name then some callback
      else registration process name log := by
  rw [registration, List.foldl_append]
  rfl

theorem registration_append {process : Process} {name : String}
    {log later : List (Effect Process Callback)}
    (kept : ∀ other, .registered process name other ∉ later) :
    registration process name (log ++ later) = registration process name log := by
  induction later using List.reverseRecOn with
  | nil => rw [List.append_nil]
  | append_singleton later effect induction =>
      have before := induction fun other member => kept other (List.mem_append_left _ member)
      rw [← List.append_assoc, registration, List.foldl_append, ← registration, before]
      cases effect with
      | registered other named callback =>
          apply if_neg
          rintro ⟨rfl, rfl⟩
          exact kept callback (List.mem_append_right _ List.mem_cons_self)
      | published _ => rfl
      | ran _ _ => rfl

/-- An unseen publication was unseen before, or has been made since. -/
theorem Unseen.split {process : Process} {name : String} {callback : Callback}
    {front rest : List (Effect Process Callback)}
    (unseen : Unseen process name callback (front ++ rest)) :
    (Unseen process name callback front ∧ .ran process callback ∉ rest) ∨
      publications front < publications (front ++ rest) := by
  rcases unseen with ⟨earlier, publisher, later, split, foreign, registered, kept, missed⟩
  have counted : ∀ middle, 0 < publications (middle ++ .published publisher :: later) := by
    intro middle
    rw [publications_append]
    have positive : 0 < publications (.published publisher :: later) :=
      List.countP_pos_iff.mpr ⟨_, List.mem_cons_self, rfl⟩
    omega
  rcases List.append_eq_append_iff.mp split with ⟨middle, rfl, cut⟩ | ⟨middle, rfl, cut⟩
  · right
    have positive := counted middle
    rw [← cut] at positive
    rw [publications_append]
    omega
  · cases middle with
    | nil =>
        right
        have positive := counted []
        rw [List.nil_append] at cut positive
        rw [← cut, List.append_nil, publications_append]
        omega
    | cons effect middle =>
        cases cut
        left
        refine ⟨⟨earlier, publisher, middle, rfl, foreign, registered, ?_, ?_⟩, ?_⟩
        · exact fun other member => kept other (List.mem_append_left _ member)
        · exact fun member => missed (List.mem_append_left _ member)
        · exact fun member => missed (List.mem_append_right _ member)

theorem Unseen.registration_eq {process : Process} {name : String} {callback : Callback}
    {log : List (Effect Process Callback)} (unseen : Unseen process name callback log) :
    registration process name log = some callback := by
  rcases unseen with ⟨earlier, publisher, later, rfl, _, registered, kept, _⟩
  rw [registration_append, registered]
  intro other member
  rcases List.mem_cons.mp member with impossible | later
  · cases impossible
  · exact kept other later

/-! ## States -/

/-- The counter counts the publications, and a process with something unseen has not
observed the last of them. -/
structure Epochs.Sound (epochs : Epochs Process Callback) : Prop where
  counted : epochs.generation = publications epochs.log
  registered : ∀ process name, (epochs.processes process).invalidators.get? name =
    registration process name epochs.log
  bounded : ∀ process observed, (epochs.processes process).observed = some observed →
    observed ≤ epochs.generation
  lags : ∀ process name callback, Unseen process name callback epochs.log →
    ∀ observed, (epochs.processes process).observed = some observed →
      observed < epochs.generation

theorem Epochs.Sound.empty : (Epochs.empty : Epochs Process Callback).Sound where
  counted := rfl
  registered process name := rfl
  bounded process observed impossible := by cases impossible
  lags process name callback unseen := by
    rcases unseen with ⟨earlier, publisher, later, impossible, _⟩
    simp [Epochs.empty] at impossible

/-- The process has seen every publication of the others. -/
def SeesAll (process : Process) (epochs : Epochs Process Callback) : Prop :=
  ∀ name callback, ¬Unseen process name callback epochs.log

/-- A first synchronization and an own publication find nothing unseen; the file of the
counter is found once there is one, and a synchronization that fails to read it does not
take the zero for what the process has observed while something is unseen. -/
def EpochRequest.Admitted (draw : EpochDraw) (epochs : Epochs Process Callback) :
    EpochRequest Process Callback → Prop
  | .read process => draw.fate = .returns →
      ((epochs.processes process).observed = none ∨
        (draw.readable = false ∧ (epochs.processes process).observed = some 0)) →
      SeesAll process epochs
  | .increment process =>
      (draw.fate ≠ .refused → draw.readable = true ∨ epochs.generation = 0) ∧
        (draw.fate = .returns → SeesAll process epochs)
  | _ => True

theorem change_self (process : Process) (update : ProcessState Callback → ProcessState Callback)
    (epochs : Epochs Process Callback) :
    (epochs.change process update).processes process = update (epochs.processes process) :=
  if_pos rfl

theorem change_other {process other : Process} (different : other ≠ process)
    (update : ProcessState Callback → ProcessState Callback) (epochs : Epochs Process Callback) :
    (epochs.change process update).processes other = epochs.processes other :=
  if_neg different

theorem Epochs.Sound.published {epochs : Epochs Process Callback} (sound : epochs.Sound)
    (process : Process) :
    ({ epochs with generation := epochs.generation + 1 }.record (.published process)).Sound where
  counted := by
    rw [Epochs.record, publications_append, sound.counted]
    rfl
  registered other name := by
    rw [Epochs.record, registration_append (by simp)]
    exact sound.registered other name
  bounded other observed held := Nat.le_succ_of_le (sound.bounded other observed held)
  lags other name callback _ observed held :=
    Nat.lt_succ_of_le (sound.bounded other observed held)

/-- An effect that is no publication brings nothing unseen. -/
theorem Unseen.of_concat {process : Process} {name : String} {callback : Callback}
    {log : List (Effect Process Callback)} {effect : Effect Process Callback}
    (quiet : effect.isPublished = false)
    (unseen : Unseen process name callback (log ++ [effect])) :
    Unseen process name callback log := by
  rcases unseen.split with ⟨before, _⟩ | more
  · exact before
  · rw [publications_append] at more
    simp [publications, quiet] at more

theorem Epochs.Sound.registers {epochs : Epochs Process Callback} (sound : epochs.Sound)
    (process : Process) (name : String) (callback : Callback) :
    ((epochs.change process fun state =>
      { state with invalidators := state.invalidators.set name callback }).record
        (.registered process name callback)).Sound := by
  have observed : ∀ other, ((epochs.change process fun state =>
      { state with invalidators := state.invalidators.set name callback }).processes
        other).observed = (epochs.processes other).observed := by
    intro other
    by_cases same : other = process
    · subst same
      rw [change_self]
    · rw [change_other same]
  constructor
  · rw [Epochs.record, publications_append]
    exact sound.counted
  · intro other named
    rw [Epochs.record, registration_concat]
    by_cases same : process = other ∧ name = named
    · rw [if_pos same]
      rcases same with ⟨rfl, rfl⟩
      rw [change_self]
      exact Dictionary.get?_set_self _ _ _
    · rw [if_neg same]
      refine Eq.trans ?_ (sound.registered other named)
      by_cases here : other = process
      · subst here
        rw [change_self]
        exact Dictionary.get?_set_of_ne fun equal => same ⟨rfl, equal.symm⟩
      · rw [change_other here]
  · intro other number held
    rw [Epochs.record, observed] at held
    exact sound.bounded other number held
  · intro other named watched unseen number held
    rw [Epochs.record, observed] at held
    exact sound.lags other named watched (unseen.of_concat rfl) number held

theorem Epochs.Sound.ran {epochs : Epochs Process Callback} (sound : epochs.Sound)
    (process : Process) (callback : Callback) : (epochs.record (.ran process callback)).Sound where
  counted := by
    rw [Epochs.record, publications_append]
    exact sound.counted
  registered other name := by
    rw [Epochs.record, registration_append (by simp)]
    exact sound.registered other name
  bounded := sound.bounded
  lags other name watched unseen := sound.lags other name watched (unseen.of_concat rfl)

/-- A process may record a number that counts all it has seen. -/
theorem Epochs.Sound.observes {epochs : Epochs Process Callback} (sound : epochs.Sound)
    {process : Process} {generation : Nat} (bounded : generation ≤ epochs.generation)
    (lags : ∀ name callback, Unseen process name callback epochs.log →
      generation < epochs.generation) :
    (epochs.change process fun state => { state with observed := some generation }).Sound := by
  constructor
  · exact sound.counted
  · intro other name
    by_cases same : other = process
    · subst same
      rw [change_self]
      exact sound.registered other name
    · rw [change_other same]
      exact sound.registered other name
  · intro other observed held
    by_cases same : other = process
    · subst same
      rw [change_self] at held
      cases held
      exact bounded
    · rw [change_other same] at held
      exact sound.bounded other observed held
  · intro other name callback unseen observed held
    by_cases same : other = process
    · subst same
      rw [change_self] at held
      cases held
      exact lags name callback unseen
    · rw [change_other same] at held
      exact sound.lags other name callback unseen observed held

/-! ## Steps -/

/-- A step with what it may do is sound, whatever a process has recorded before. -/
theorem Epochs.Sound.step {epochs : Epochs Process Callback} (sound : epochs.Sound)
    {draw : EpochDraw} {request : EpochRequest Process Callback}
    (admitted : request.Admitted draw epochs)
    (recorded : ∀ process generation, request = .observe process generation →
      generation ≤ epochs.generation ∧
        ∀ name callback, Unseen process name callback epochs.log →
          generation < epochs.generation) : (request.execute draw epochs).2.Sound := by
  cases request with
  | register process name callback => exact sound.registers process name callback
  | callbacks process => exact sound
  | invoke process callback =>
      rw [EpochRequest.execute]
      split
      · exact sound.ran process callback
      · exact sound
  | read process =>
      rw [EpochRequest.execute]
      split
      · exact sound
      · exact sound
  | increment process =>
      have next : draw.fate ≠ .refused →
          nextGeneration draw epochs.generation = epochs.generation + 1 := by
        intro effective
        rw [nextGeneration]
        rcases admitted.1 effective with readable | first
        · rw [if_pos readable]
        · rw [first]
          split <;> rfl
      rw [EpochRequest.execute]
      split
      · rename_i fate
        rw [next (by rw [fate]; decide)]
        exact sound.published process
      · exact sound
      · rename_i fate
        rw [next (by rw [fate]; decide)]
        exact sound.published process
  | observe process generation =>
      rcases recorded process generation rfl with ⟨bounded, lags⟩
      exact sound.observes bounded lags
  | body process => exact sound

/-- Steps add to the log. -/
theorem execute_log (draw : EpochDraw) (request : EpochRequest Process Callback)
    (epochs : Epochs Process Callback) :
    epochs.log <+: (request.execute draw epochs).2.log := by
  cases request with
  | register process name callback => exact List.prefix_append _ _
  | callbacks process => exact List.prefix_rfl
  | invoke process callback =>
      rw [EpochRequest.execute]
      split
      · exact List.prefix_append _ _
      · exact List.prefix_rfl
  | read process =>
      rw [EpochRequest.execute]
      split
      · exact List.prefix_rfl
      · exact List.prefix_rfl
  | increment process =>
      rw [EpochRequest.execute]
      split
      · exact List.prefix_append _ _
      · exact List.prefix_rfl
      · exact List.prefix_append _ _
  | observe process generation => exact List.prefix_rfl
  | body process => exact List.prefix_rfl

/-! ## What a call has done -/

abbrev EpochStep (Process Callback : Type) :=
  Step (EpochRequest Process Callback) EpochDraw (Epochs Process Callback)

/-- The callbacks ran, one step each. -/
def RanAll (process : Process) (callbacks : List Callback)
    (trail : List (EpochStep Process Callback)) : Prop :=
  ∀ callback ∈ callbacks, ∃ step ∈ trail,
    step.request = .invoke process callback ∧ step.draw.fate = .returns

/-- What a reading takes. -/
def reading (process : Process) (draw : EpochDraw) (epochs : Epochs Process Callback) :
    Reading Callback :=
  ⟨if draw.readable then epochs.generation else 0, (epochs.processes process).observed,
    (epochs.processes process).callbacks⟩

/-- A synchronization that records or returns a number has read it, and has run the
invalidators unless it has observed no number or the same one. -/
structure Synchronized (process : Process) (generation : Nat)
    (trail : List (EpochStep Process Callback)) (draw : EpochDraw)
    (before : Epochs Process Callback) (rest : List (EpochStep Process Callback)) : Prop where
  read : trail = ⟨.read process, draw, before⟩ :: rest
  returned : draw.fate = .returns
  current : generation = (reading process draw before).current
  invalidated : (before.processes process).observed = none ∨
    (before.processes process).observed = some generation ∨
      RanAll process (before.processes process).callbacks rest

omit [DecidableEq Process] in
theorem runCallbacks_makes (process : Process) (callbacks : List Callback) :
    (runCallbacks process callbacks).Makes fun request =>
      ∃ callback, request = .invoke process callback := by
  induction callbacks with
  | nil => trivial
  | cons callback callbacks induction =>
      refine ⟨⟨callback, rfl⟩, fun succeeded => ?_⟩
      cases succeeded with
      | true => exact induction
      | false => trivial

theorem follows_runCallbacks {process : Process} {callbacks : List Callback}
    {trail : List (EpochStep Process Callback)}
    (follows : Follows (epochSystem Process Callback) (runCallbacks process callbacks) trail
      (.done true)) : RanAll process callbacks trail := by
  induction callbacks generalizing trail with
  | nil =>
      intro callback member
      cases member
  | cons callback callbacks induction =>
      cases follows with
      | call _ _ draw before rest =>
          have answer : ((epochSystem Process Callback).execute draw (.invoke process callback)
              before).1 = decide (draw.fate = .returns) := by
            change (EpochRequest.execute draw (.invoke process callback) before).1 = _
            rw [EpochRequest.execute]
            cases draw.fate <;> rfl
          by_cases fate : draw.fate = .returns
          · rw [answer, decide_eq_true fate] at rest
            intro other member
            rcases List.mem_cons.mp member with rfl | listed
            · exact ⟨_, List.mem_cons_self, rfl, fate⟩
            · rcases induction rest other listed with ⟨step, inTrail, ran⟩
              exact ⟨step, List.mem_cons_of_mem _ inTrail, ran⟩
          · rw [answer, decide_eq_false fate] at rest
            cases rest

/-- The program is about to record the number, or has returned it. -/
def Ends (generation : Nat) (remaining : EpochProgram Process Callback (Option Nat)) : Prop :=
  remaining = .done (some generation) ∨
    ∃ process next, remaining = .call (.observe process generation) next

omit [DecidableEq Process] in
theorem Ends.some_eq {current generation : Nat}
    (ends : Ends generation (.done (some current) : EpochProgram Process Callback _)) :
    generation = current := by
  rcases ends with same | ⟨_, _, impossible⟩
  · cases same
    rfl
  · cases impossible

omit [DecidableEq Process] in
theorem not_ends_none {generation : Nat} :
    ¬Ends generation (.done none : EpochProgram Process Callback _) := by
  rintro (impossible | ⟨_, _, impossible⟩)
  · cases impossible
  · cases impossible

theorem Ends.observe {process : Process} {current generation : Nat}
    {trail : List (EpochStep Process Callback)}
    {remaining : EpochProgram Process Callback (Option Nat)}
    (follows : Follows (epochSystem Process Callback)
      (.call (.observe process current) fun _ => .done (some current)) trail remaining)
    (ends : Ends generation remaining) : generation = current := by
  cases follows with
  | here =>
      rcases ends with impossible | ⟨_, _, same⟩
      · cases impossible
      · cases same
        rfl
  | call _ _ _ _ rest =>
      cases rest
      exact ends.some_eq

omit [DecidableEq Process] in
theorem RanAll.append {process : Process} {callbacks : List Callback}
    {trail : List (EpochStep Process Callback)} (ran : RanAll process callbacks trail)
    (later : List (EpochStep Process Callback)) : RanAll process callbacks (trail ++ later) := by
  intro callback member
  rcases ran callback member with ⟨step, inTrail, invoked⟩
  exact ⟨step, List.mem_append_left _ inTrail, invoked⟩

/-- The part of a synchronization that has found a new number. -/
theorem follows_changed {process : Process} {generation current : Nat}
    {callbacks : List Callback} {trail : List (EpochStep Process Callback)}
    {remaining : EpochProgram Process Callback (Option Nat)}
    (follows : Follows (epochSystem Process Callback)
      ((runCallbacks process callbacks).bind fun
        | false => .done none
        | true =>
            if callbacks.isEmpty then .done (some current)
            else .call (.observe process current) fun _ => .done (some current)) trail remaining)
    (ends : Ends generation remaining) :
    generation = current ∧ RanAll process callbacks trail := by
  rcases follows.bind_cases with
    ⟨rest, steps, rfl⟩ | ⟨earlier, later, succeeded, rfl, steps, recorded⟩
  · cases rest with
    | call request next =>
        rcases (steps.always (runCallbacks_makes process callbacks)).1 with ⟨callback, rfl⟩
        rcases ends with impossible | ⟨_, _, impossible⟩
        · cases impossible
        · cases impossible
    | done succeeded =>
        cases succeeded with
        | false => exact absurd ends not_ends_none
        | true =>
            refine ⟨?_, follows_runCallbacks steps⟩
            rw [Program.done_bind] at ends
            dsimp only at ends
            split at ends
            · exact ends.some_eq
            · exact ends.observe (.here _)
  · cases succeeded with
    | false =>
        cases recorded
        exact absurd ends not_ends_none
    | true =>
        refine ⟨?_, (follows_runCallbacks steps).append later⟩
        dsimp only at recorded
        split at recorded
        · cases recorded
          exact ends.some_eq
        · exact ends.observe recorded

theorem follows_synchronize {process : Process} {generation : Nat}
    {trail : List (EpochStep Process Callback)}
    {remaining : EpochProgram Process Callback (Option Nat)}
    (follows : Follows (epochSystem Process Callback) (synchronizeLifecycleGeneration process)
      trail remaining)
    (ends : Ends generation remaining) :
    ∃ draw before rest, Synchronized process generation trail draw before rest := by
  cases follows with
  | here =>
      rcases ends with impossible | ⟨_, _, impossible⟩
      · cases impossible
      · cases impossible
  | @call _ _ draw before later _ rest =>
      have answer : ((epochSystem Process Callback).execute draw (.read process) before).1 =
          if draw.fate = .returns then some (reading process draw before) else none := by
        change (EpochRequest.execute draw (.read process) before).1 = _
        rw [EpochRequest.execute]
        cases draw.fate <;> rfl
      by_cases returned : draw.fate = .returns
      · rw [answer, if_pos returned] at rest
        suffices outcome : generation = (reading process draw before).current ∧
            ((before.processes process).observed = none ∨
              (before.processes process).observed = some generation ∨
                RanAll process (before.processes process).callbacks later) from
          ⟨draw, before, later, rfl, returned, outcome.1, outcome.2⟩
        dsimp only at rest
        split at rest
        · rename_i first
          exact ⟨ends.observe rest, .inl first⟩
        · rename_i observed held
          split at rest
          · rename_i same
            cases rest
            cases ends.some_eq
            exact ⟨rfl, .inr (.inl (held.trans (congrArg some same.symm)))⟩
          · exact (follows_changed rest ends).imp_right fun ran => .inr (.inr ran)
      · rw [answer, if_neg returned] at rest
        cases rest
        exact absurd ends not_ends_none

/-- A request of one process that is not the body of a section. -/
def EpochRequest.Of (process : Process) (request : EpochRequest Process Callback) : Prop :=
  (∀ other generation, request = .observe other generation → other = process) ∧
    ∀ other, request ≠ .body other

omit [DecidableEq Process] in
theorem runCallbacks_of (process : Process) (callbacks : List Callback) :
    (runCallbacks process callbacks).Makes (EpochRequest.Of process) := by
  apply (runCallbacks_makes process callbacks).mono
  rintro request _ ⟨callback, rfl⟩
  exact ⟨fun _ _ impossible => (nomatch impossible), fun _ => by simp⟩

omit [DecidableEq Process] in
theorem of_observe (process : Process) (generation : Nat) :
    (EpochRequest.observe process generation : EpochRequest Process Callback).Of process :=
  ⟨fun _ _ same => (EpochRequest.observe.inj same).1.symm, fun _ => by simp⟩

omit [DecidableEq Process] in
theorem synchronize_of (process : Process) :
    (synchronizeLifecycleGeneration process : EpochProgram Process Callback _).Makes
      (EpochRequest.Of process) := by
  refine ⟨⟨fun _ _ impossible => (nomatch impossible), fun _ => by simp⟩, ?_⟩
  intro response
  cases response with
  | none => trivial
  | some reading =>
      dsimp only
      split
      · exact ⟨of_observe process _, fun _ => trivial⟩
      · split
        · trivial
        · apply Program.Always.bind (runCallbacks_of process _)
          intro succeeded
          cases succeeded with
          | false => trivial
          | true =>
              dsimp only
              split
              · trivial
              · exact ⟨of_observe process _, fun _ => trivial⟩

omit [DecidableEq Process] in
theorem bump_of (process : Process) :
    (bumpLifecycleGeneration process : EpochProgram Process Callback _).Makes
      (EpochRequest.Of process) := by
  refine ⟨⟨fun _ _ impossible => (nomatch impossible), fun _ => by simp⟩, ?_⟩
  intro response
  cases response with
  | none => trivial
  | some generation => exact ⟨of_observe process generation, fun _ => trivial⟩

/-- A publication that records a number has counted it. -/
structure Bumped (process : Process) (generation : Nat)
    (trail : List (EpochStep Process Callback)) (draw : EpochDraw)
    (before : Epochs Process Callback) : Prop where
  counted : trail = [⟨.increment process, draw, before⟩]
  returned : draw.fate = .returns
  next : generation = nextGeneration draw before.generation

theorem follows_bump {process other : Process} {generation : Nat}
    {trail : List (EpochStep Process Callback)}
    {next : Unit → EpochProgram Process Callback (Option Nat)}
    (follows : Follows (epochSystem Process Callback) (bumpLifecycleGeneration process) trail
      (.call (.observe other generation) next)) :
    ∃ draw before, Bumped process generation trail draw before := by
  cases follows with
  | call _ _ draw before rest =>
      have answer : ((epochSystem Process Callback).execute draw (.increment process) before).1 =
          if draw.fate = .returns then some (nextGeneration draw before.generation)
          else none := by
        change (EpochRequest.execute draw (.increment process) before).1 = _
        rw [EpochRequest.execute]
        cases draw.fate <;> rfl
      by_cases returned : draw.fate = .returns
      · rw [answer, if_pos returned] at rest
        cases rest with
        | here => exact ⟨draw, before, rfl, returned, rfl⟩
        | call _ _ _ _ ended => cases ended
      · rw [answer, if_neg returned] at rest
        cases rest

/-- A call that is about to record a number has synchronized or published. -/
def Records (process : Process) (generation : Nat)
    (trail : List (EpochStep Process Callback)) : Prop :=
  (∃ draw before rest, Synchronized process generation trail draw before rest) ∨
    ∃ earlier later draw before, trail = earlier ++ later ∧
      Bumped process generation later draw before

/-- The part of a section behind its synchronization. -/
theorem follows_body {entered : Section Process} {other : Process} {generation : Nat}
    {trail : List (EpochStep Process Callback)}
    {next : Unit → EpochProgram Process Callback Bool}
    (follows : Follows (epochSystem Process Callback)
      (.call (.body entered.process) fun succeeded =>
        if entered.publishes then
          (bumpLifecycleGeneration entered.process).bind fun bumped =>
            .done (succeeded && bumped.isSome)
        else .done succeeded) trail (.call (.observe other generation) next)) :
    other = entered.process ∧ ∃ earlier later draw before, trail = earlier ++ later ∧
      Bumped entered.process generation later draw before := by
  cases follows with
  | @call _ _ bodyDraw bodyBefore later _ rest =>
      split at rest
      · rcases rest.bind_cases with ⟨left, steps, same⟩ | ⟨_, _, _, _, _, ended⟩
        · cases left with
          | done bumped => cases same
          | call request following =>
              cases same
              have own := (steps.always (bump_of entered.process)).1.1 other generation rfl
              rcases follows_bump steps with ⟨draw, before, bumped⟩
              exact ⟨own, [_], later, draw, before, rfl, bumped⟩
        · cases ended
      · cases rest

theorem follows_section_observe {entered : Section Process} {other : Process} {generation : Nat}
    {trail : List (EpochStep Process Callback)}
    {next : Unit → EpochProgram Process Callback Bool}
    (follows : Follows (epochSystem Process Callback) (lifecycleSection entered) trail
      (.call (.observe other generation) next)) :
    other = entered.process ∧ Records entered.process generation trail := by
  rw [lifecycleSection] at follows
  rcases follows.bind_cases with
    ⟨rest, steps, same⟩ | ⟨earlier, later, synchronized, rfl, steps, bodied⟩
  · cases rest with
    | done synchronized => cases synchronized <;> cases same
    | call request following =>
        cases same
        split at steps
        · have own := (steps.always (synchronize_of entered.process)).1.1 other generation rfl
          exact ⟨own, .inl (follows_synchronize steps (.inr ⟨_, _, rfl⟩))⟩
        · cases steps
  · cases synchronized with
    | none => cases bodied
    | some synchronized =>
        rcases follows_body bodied with ⟨own, before, bump, draw, state, rfl, bumped⟩
        refine ⟨own, .inr ⟨earlier ++ before, bump, draw, state, ?_, bumped⟩⟩
        rw [List.append_assoc]

/-- A section that is about to start its body has synchronized, if it does at all. -/
theorem follows_section_body {entered : Section Process} (synchronizes : entered.synchronizes = true)
    {other : Process} {trail : List (EpochStep Process Callback)}
    {next : Bool → EpochProgram Process Callback Bool}
    (follows : Follows (epochSystem Process Callback) (lifecycleSection entered) trail
      (.call (.body other) next)) :
    ∃ generation draw before rest,
      Synchronized entered.process generation trail draw before rest := by
  rw [lifecycleSection, if_pos synchronizes] at follows
  rcases follows.bind_cases with
    ⟨rest, steps, same⟩ | ⟨earlier, later, synchronized, rfl, steps, bodied⟩
  · cases rest with
    | done synchronized =>
        cases synchronized with
        | none => cases same
        | some generation => exact ⟨generation, follows_synchronize steps (.inl rfl)⟩
    | call request following =>
        cases same
        exact absurd rfl ((steps.always (synchronize_of entered.process)).1.2 other)
  · cases synchronized with
    | none => cases bodied
    | some generation =>
        cases bodied with
        | here =>
            rw [List.append_nil]
            exact ⟨generation, follows_synchronize steps (.inl rfl)⟩
        | call _ _ _ _ rest =>
            split at rest
            · rcases rest.bind_cases with ⟨left, steps, same⟩ | ⟨_, _, _, _, _, ended⟩
              · cases left with
                | done bumped => cases same
                | call request following =>
                    cases same
                    exact absurd rfl ((steps.always (bump_of entered.process)).1.2 other)
              · cases ended
            · cases rest

theorem follows_observe {call : EpochCall Process Callback} {process : Process}
    {generation : Nat} {trail : List (EpochStep Process Callback)}
    {next : Unit → EpochProgram Process Callback Bool}
    (follows : Follows (epochSystem Process Callback) call.program trail
      (.call (.observe process generation) next)) : Records process generation trail := by
  cases call with
  | register other name callback =>
      cases follows with
      | call _ _ _ _ rest => cases rest
  | invalidate other =>
      cases follows with
      | call _ _ _ _ rest =>
          rcases (rest.always (runCallbacks_makes other _)).1 with ⟨callback, impossible⟩
          cases impossible
  | enter entered =>
      rcases follows_section_observe follows with ⟨rfl, records⟩
      exact records

/-! ## Runs -/

abbrev EpochMachine (Process Callback : Type) [DecidableEq Process] :=
  Machine (epochSystem Process Callback)

abbrev EpochTask (Process Callback : Type) [DecidableEq Process] :=
  Task (epochSystem Process Callback)

/-- Every state a call has met is sound and admitted its request, and the log has only
grown since. -/
structure EpochTask.Sound (task : EpochTask Process Callback) (now : Epochs Process Callback) :
    Prop where
  states : ∀ step ∈ task.trail, step.before.Sound ∧ step.request.Admitted step.draw step.before
  past : ∀ step ∈ task.trail, (step.after (epochSystem Process Callback)).log <+: now.log
  ordered : task.trail.Pairwise fun first second =>
    (first.after (epochSystem Process Callback)).log <+: second.before.log

omit [DecidableEq Process] in
/-- An effect of a step is among those since any state before it. -/
theorem mem_since {front rest before now : List (Effect Process Callback)}
    {effect : Effect Process Callback} (split : now = front ++ rest) (earlier : front <+: before)
    (within : before ++ [effect] <+: now) : effect ∈ rest := by
  rcases earlier with ⟨first, rfl⟩
  rcases within with ⟨last, same⟩
  rw [split, List.append_assoc, List.append_assoc] at same
  rw [← List.append_cancel_left same]
  exact List.mem_append_right _ (List.mem_append_left _ List.mem_cons_self)

theorem read_after (process : Process) (draw : EpochDraw) (before : Epochs Process Callback) :
    (Step.after (epochSystem Process Callback) ⟨.read process, draw, before⟩) = before := by
  change (EpochRequest.execute draw (.read process) before).2 = before
  rw [EpochRequest.execute]
  split <;> rfl

/-- What a call has run since it read the counter. -/
theorem EpochTask.Sound.ran {task : EpochTask Process Callback} {now : Epochs Process Callback}
    (sound : task.Sound now) {process : Process} {draw : EpochDraw}
    {before : Epochs Process Callback} {rest : List (EpochStep Process Callback)}
    (read : task.trail = ⟨.read process, draw, before⟩ :: rest)
    (ran : RanAll process (before.processes process).callbacks rest)
    {more : List (Effect Process Callback)} (split : now.log = before.log ++ more)
    {name : String} {callback : Callback}
    (registered : registration process name before.log = some callback) :
    .ran process callback ∈ more := by
  have first : (⟨.read process, draw, before⟩ : EpochStep Process Callback) ∈ task.trail := by
    rw [read]
    exact List.mem_cons_self
  have held := (sound.states _ first).1.registered process name
  rw [registered] at held
  have listed : callback ∈ (before.processes process).callbacks :=
    List.mem_map.mpr ⟨(name, callback), Dictionary.get?_eq_some.mp held, rfl⟩
  rcases ran callback listed with ⟨step, inRest, invokes, fate⟩
  have ordered := sound.ordered
  rw [read, List.pairwise_cons] at ordered
  have after := ordered.1 step inRest
  rw [read_after] at after
  have within := sound.past step (by rw [read]; exact List.mem_cons_of_mem _ inRest)
  rcases step with ⟨request, stepDraw, stepBefore⟩
  dsimp only at invokes fate after
  subst invokes
  change (EpochRequest.execute stepDraw (.invoke process callback) stepBefore).2.log <+: _ at within
  rw [EpochRequest.execute, fate] at within
  exact mem_since split after within

theorem Unseen.of_own {process : Process} {name : String} {callback : Callback}
    {log : List (Effect Process Callback)}
    (unseen : Unseen process name callback (log ++ [.published process])) :
    Unseen process name callback log := by
  rcases unseen with ⟨earlier, publisher, later, split, foreign, registered, kept, missed⟩
  rcases List.eq_nil_or_concat later with rfl | ⟨init, last, rfl⟩
  · rcases List.append_inj' split rfl with ⟨_, same⟩
    cases same
    exact absurd rfl foreign
  · rw [List.concat_eq_append, ← List.cons_append, ← List.append_assoc] at split
    rcases List.append_inj' split rfl with ⟨same, _⟩
    refine ⟨earlier, publisher, init, same, foreign, registered, ?_, ?_⟩
    · intro other member
      exact kept other (by rw [List.concat_eq_append]; exact List.mem_append_left _ member)
    · intro member
      exact missed (by rw [List.concat_eq_append]; exact List.mem_append_left _ member)

/-- What a synchronization has read counts all its process has seen. -/
theorem EpochTask.Sound.synchronized {task : EpochTask Process Callback}
    {now : Epochs Process Callback} (sound : task.Sound now) (current : now.Sound)
    {process : Process} {generation : Nat} {draw : EpochDraw} {before : Epochs Process Callback}
    {rest : List (EpochStep Process Callback)}
    (synchronized : Synchronized process generation task.trail draw before rest) :
    generation ≤ now.generation ∧ ∀ name callback, Unseen process name callback now.log →
      generation < now.generation := by
  have first : (⟨.read process, draw, before⟩ : EpochStep Process Callback) ∈ task.trail := by
    rw [synchronized.read]
    exact List.mem_cons_self
  rcases sound.states _ first with ⟨earlier, admitted⟩
  have grown := sound.past _ first
  rw [read_after] at grown
  have counted := publications_of_prefix grown
  rw [← earlier.counted, ← current.counted] at counted
  have bounded : generation ≤ before.generation := by
    rw [synchronized.current, reading]
    dsimp only
    split
    · exact Nat.le_refl _
    · exact Nat.zero_le _
  refine ⟨Nat.le_trans bounded counted, fun name callback unseen => ?_⟩
  rcases grown with ⟨more, split⟩
  rw [← split] at unseen
  rcases unseen.split with ⟨old, missed⟩ | published
  · rcases synchronized.invalidated with unobserved | same | ran
    · exact absurd old (admitted synchronized.returned (.inl unobserved) name callback)
    · exact Nat.lt_of_lt_of_le (earlier.lags process name callback old generation same) counted
    · exact absurd (sound.ran synchronized.read ran split.symm old.registration_eq) missed
  · rw [split, ← earlier.counted, ← current.counted] at published
    exact Nat.lt_of_le_of_lt bounded published

/-- What a call records counts all its process has seen. -/
theorem EpochTask.Sound.records {task : EpochTask Process Callback}
    {now : Epochs Process Callback} (sound : task.Sound now) (current : now.Sound)
    {process : Process} {generation : Nat} (records : Records process generation task.trail) :
    generation ≤ now.generation ∧ ∀ name callback, Unseen process name callback now.log →
      generation < now.generation := by
  rcases records with ⟨draw, before, rest, synchronized⟩ | ⟨earlier, _, draw, before, trail, bumped⟩
  · exact sound.synchronized current synchronized
  · rw [bumped.counted] at trail
    have last : (⟨.increment process, draw, before⟩ : EpochStep Process Callback) ∈ task.trail := by
      rw [trail]
      exact List.mem_append_right _ List.mem_cons_self
    rcases sound.states _ last with ⟨sane, found, seesAll⟩
    have grown := sound.past _ last
    change (EpochRequest.execute draw (.increment process) before).2.log <+: now.log at grown
    rw [EpochRequest.execute, bumped.returned] at grown
    change before.log ++ [.published process] <+: now.log at grown
    have next : generation = publications (before.log ++ [.published process]) := by
      rw [bumped.next, nextGeneration, publications_append, ← sane.counted]
      rcases found (by rw [bumped.returned]; decide) with readable | first
      · rw [if_pos readable]
        rfl
      · rw [first]
        split <;> rfl
    refine ⟨?_, fun name callback unseen => ?_⟩
    · rw [next, current.counted]
      exact publications_of_prefix grown
    · rcases grown with ⟨more, split⟩
      rw [← split] at unseen
      rcases unseen.split with ⟨old, _⟩ | published
      · exact absurd old.of_own (seesAll bumped.returned name callback)
      · rw [split, ← next, ← current.counted] at published
        exact published

theorem EpochTask.Sound.later {task : EpochTask Process Callback}
    {before now : Epochs Process Callback} (sound : task.Sound before)
    (grown : before.log <+: now.log) : task.Sound now where
  states := sound.states
  past step member := (sound.past step member).trans grown
  ordered := sound.ordered

/-- A call after one more step. -/
theorem EpochTask.Sound.answered {task : EpochTask Process Callback}
    {epochs : Epochs Process Callback} (sound : task.Sound epochs) (current : epochs.Sound)
    {draw : EpochDraw} {request : EpochRequest Process Callback}
    (admitted : request.Admitted draw epochs)
    (next : request.Response → EpochProgram Process Callback Bool) :
    EpochTask.Sound (Task.answered task draw epochs request next)
      ((epochSystem Process Callback).execute draw request epochs).2 := by
  have grown := execute_log draw request epochs
  constructor
  · intro step member
    rcases List.mem_append.mp member with old | new
    · exact sound.states step old
    · rw [List.mem_singleton.mp new]
      exact ⟨current, admitted⟩
  · intro step member
    rcases List.mem_append.mp member with old | new
    · exact (sound.past step old).trans grown
    · rw [List.mem_singleton.mp new]
      exact List.prefix_rfl
  · refine List.pairwise_append.mpr ⟨sound.ordered, List.pairwise_singleton _ _, ?_⟩
    intro step member last new
    rw [List.mem_singleton.mp new]
    exact sound.past step member

/-- The next request of a call is admitted. -/
def EpochMachine.Admits (machine : EpochMachine Process Callback) (index : Nat)
    (draw : EpochDraw) : Prop :=
  ∀ task request next, machine.tasks[index]? = some task →
    task.remaining = .call request next → request.Admitted draw machine.state

/-- All states of a machine are sound. -/
structure EpochMachine.Sound (machine : EpochMachine Process Callback) : Prop where
  consistent : machine.Consistent
  current : machine.state.Sound
  tasks : ∀ task ∈ machine.tasks, EpochTask.Sound task machine.state

theorem EpochMachine.Sound.moves {before after : EpochMachine Process Callback}
    {event : Event EpochDraw (EpochCall Process Callback)}
    (sound : EpochMachine.Sound before) (moves : before.Moves event after)
    (admits : ∀ index draw, event = .step index draw → EpochMachine.Admits before index draw) :
    EpochMachine.Sound after := by
  have consistent := moves.consistent sound.consistent
  cases moves with
  | idle => exact sound
  | start call free =>
      refine ⟨consistent, sound.current, ?_⟩
      intro task member
      rcases List.mem_append.mp member with old | new
      · exact sound.tasks task old
      · rw [List.mem_singleton.mp new]
        refine ⟨?_, ?_, List.Pairwise.nil⟩
        · intro step impossible
          cases impossible
        · intro step impossible
          cases impossible
  | step index draw task request next found asks =>
      have member := List.mem_of_getElem? found
      have admitted := admits index draw rfl task request next found asks
      have follows := sound.consistent task member
      rw [asks] at follows
      refine ⟨consistent, sound.current.step admitted ?_, ?_⟩
      · rintro process generation rfl
        exact (sound.tasks task member).records sound.current (follows_observe follows)
      · intro other otherMember
        rcases Machine.mem_set otherMember with old | rfl
        · exact (sound.tasks other old).later (execute_log draw request before.state)
        · exact (sound.tasks task member).answered sound.current admitted next

/-- The states of a run. -/
abbrev epochRun (events : List (Event EpochDraw (EpochCall Process Callback))) :
    EpochMachine Process Callback :=
  run Machine.next (.initial (epochSystem Process Callback) .empty) events

/-- Every step of the run is admitted. -/
def AllAdmitted (events : List (Event EpochDraw (EpochCall Process Callback))) : Prop :=
  ∀ past index draw, past ++ [.step index draw] <+: events →
    EpochMachine.Admits (epochRun past) index draw

theorem run_epochs_sound {events : List (Event EpochDraw (EpochCall Process Callback))}
    (admitted : AllAdmitted events) : EpochMachine.Sound (epochRun events) := by
  induction events using List.reverseRecOn with
  | nil =>
      refine ⟨run_trails _ [], .empty, ?_⟩
      intro task member
      cases member
  | append_singleton past event induction =>
      rw [epochRun, run_concat]
      have before := induction fun earlier index draw within =>
        admitted earlier index draw (within.trans (List.prefix_append past [event]))
      apply before.moves (Machine.moves _ event)
      rintro index draw rfl
      exact admitted past index draw List.prefix_rfl

/-- The invalidator has run after every publication of another process in the log that
came after its registration. -/
def RanSince (process : Process) (name : String) (callback : Callback)
    (log now : List (Effect Process Callback)) : Prop :=
  ∀ earlier publisher later, log = earlier ++ .published publisher :: later →
    publisher ≠ process → registration process name earlier = some callback →
    (∀ other, .registered process name other ∉ later) →
    ∃ more, now = log ++ more ∧ .ran process callback ∈ later ++ more

theorem EpochTask.Sound.ranSince {task : EpochTask Process Callback}
    {now : Epochs Process Callback} (sound : task.Sound now)
    {process : Process} {generation : Nat} {draw : EpochDraw} {before : Epochs Process Callback}
    {rest : List (EpochStep Process Callback)}
    (synchronized : Synchronized process generation task.trail draw before rest)
    (name : String) (callback : Callback) :
    RanSince process name callback before.log now.log := by
  intro earlier publisher later published foreign registered kept
  have first : (⟨.read process, draw, before⟩ : EpochStep Process Callback) ∈ task.trail := by
    rw [synchronized.read]
    exact List.mem_cons_self
  rcases sound.states _ first with ⟨sane, admitted⟩
  have grown := sound.past _ first
  rw [read_after] at grown
  rcases grown with ⟨more, split⟩
  refine ⟨more, split.symm, List.mem_append.mpr ?_⟩
  by_cases seen : .ran process callback ∈ later
  · exact .inl seen
  · have unseen : Unseen process name callback before.log :=
      ⟨earlier, publisher, later, published, foreign, registered, kept, seen⟩
    right
    rcases synchronized.invalidated with unobserved | same | ran
    · exact absurd unseen (admitted synchronized.returned (.inl unobserved) name callback)
    · have lags := sane.lags process name callback unseen generation same
      have current := synchronized.current
      rw [reading] at current
      dsimp only at current
      split at current
      · exact absurd current (Nat.ne_of_lt lags)
      · rename_i unreadable
        rw [current] at same
        exact absurd unseen (admitted synchronized.returned
          (.inr ⟨eq_false_of_ne_true unreadable, same⟩) name callback)
    · exact sound.ran synchronized.read ran split.symm unseen.registration_eq

/-- In a run whose steps are admitted, a process that starts the body of a section that
synchronizes has run every invalidator after every publication of another process that
came after its registration and before the first step of the section. -/
theorem run_invalidators_run {Process Callback : Type} [DecidableEq Process]
    (events : List (Event EpochDraw (EpochCall Process Callback)))
    (admitted : AllAdmitted events) (task : EpochTask Process Callback)
    (member : task ∈ (epochRun events).tasks) (entered : Section Process)
    (enters : task.call = .enter entered) (synchronizes : entered.synchronizes = true)
    (next : Bool → EpochProgram Process Callback Bool)
    (starts : task.remaining = .call (.body entered.process) next)
    (first : EpochStep Process Callback) (begins : task.trail.head? = some first)
    (name : String) (callback : Callback) :
    RanSince entered.process name callback first.before.log (epochRun events).state.log := by
  have sound := run_epochs_sound admitted
  have follows := sound.consistent task member
  rw [starts, enters] at follows
  rcases follows_section_body synchronizes follows with
    ⟨generation, draw, before, rest, synchronized⟩
  rw [synchronized.read, List.head?_cons] at begins
  rw [← Option.some.inj begins]
  exact (sound.tasks task member).ranSince synchronized name callback

/-! ## Missed publications -/

/-- The second process publishes; the first has registered an invalidator and enters its
first section. -/
def firstEvents : List (Event EpochDraw (EpochCall Nat Nat)) :=
  [.start (.register 0 "cache" 7), .step 0 {}, .start (.enter ⟨1, true, true⟩), .step 1 {},
    .step 1 {}, .step 1 {}, .step 1 {}, .step 1 {}, .start (.enter ⟨0, true, false⟩),
    .step 2 {}, .step 2 {}]

/-- The second process publishes while the first is in a section that it publishes
itself. Then the first enters another section. -/
def ownEvents : List (Event EpochDraw (EpochCall Nat Nat)) :=
  [.start (.register 0 "cache" 7), .step 0 {}, .start (.enter ⟨0, true, true⟩), .step 1 {},
    .step 1 {}, .start (.enter ⟨1, true, true⟩), .step 2 {}, .step 2 {}, .step 2 {}, .step 2 {},
    .step 2 {}, .step 1 {}, .step 1 {}, .step 1 {}, .start (.enter ⟨0, true, false⟩), .step 3 {}]

/-- The first process is about to start the body of its section. -/
def Misses (events : List (Event EpochDraw (EpochCall Nat Nat))) : Prop :=
  ∃ task ∈ (epochRun events).tasks, ∃ first next, task.call = .enter ⟨0, true, false⟩ ∧
    task.remaining = .call (.body 0) next ∧ task.trail.head? = some first ∧
    ¬RanSince 0 "cache" 7 first.before.log (epochRun events).state.log

theorem not_ranSince {log now : List (Effect Nat Nat)} {later : List (Effect Nat Nat)}
    (published : log = [.registered 0 "cache" 7, .published 1] ++ later) (same : now = log)
    (kept : ∀ other, .registered 0 "cache" other ∉ later) (missed : .ran 0 7 ∉ later) :
    ¬RanSince 0 "cache" 7 log now := by
  intro ran
  rcases ran [.registered 0 "cache" 7] 1 later published (by decide) rfl kept with
    ⟨more, extended, member⟩
  rw [same] at extended
  rw [List.self_eq_append_right.mp extended, List.append_nil] at member
  exact missed member

/-- An invalidator that is registered has not run after a publication. -/
theorem section_misses_publication : Misses firstEvents ∧ Misses ownEvents := by
  constructor
  · exact ⟨_, List.mem_of_getElem? (i := 2) rfl, _, _, rfl, rfl, rfl,
      @not_ranSince _ _ [] rfl rfl (by simp) (by simp)⟩
  · exact ⟨_, List.mem_of_getElem? (i := 3) rfl, _, _, rfl, rfl, rfl,
      @not_ranSince _ _ [.published 0] rfl rfl (by simp) (by simp)⟩

/-! ## A publication that is seen -/

/-- Nothing is published yet, or the process has no invalidators. -/
def quiet (process : Process) (log : List (Effect Process Callback)) : Bool :=
  log.all (fun effect => !effect.isPublished) ||
    log.all fun effect =>
      match effect with
      | .registered other _ _ => other ≠ process
      | _ => true

theorem seesAll_of_quiet {process : Process} {epochs : Epochs Process Callback}
    (calm : quiet process epochs.log = true) : SeesAll process epochs := by
  rintro name callback ⟨earlier, publisher, later, split, _, registered, _, _⟩
  rw [quiet, Bool.or_eq_true] at calm
  rcases calm with unpublished | unregistered
  · have published : .published publisher ∈ epochs.log := by
      rw [split]
      exact List.mem_append_right _ List.mem_cons_self
    have impossible := List.all_eq_true.mp unpublished _ published
    cases impossible
  · have absent : ∀ other, .registered process name other ∉ earlier := by
      intro other member
      have listed : .registered process name other ∈ epochs.log := by
        rw [split]
        exact List.mem_append_left _ member
      have different := List.all_eq_true.mp unregistered _ listed
      simp at different
    have nothing : registration process name ([] ++ earlier) = registration process name [] :=
      registration_append absent
    rw [List.nil_append, registered] at nothing
    cases nothing

/-- A check that implies admission. -/
def EpochRequest.cautious (draw : EpochDraw) (epochs : Epochs Process Callback) :
    EpochRequest Process Callback → Bool
  | .read process => (draw.readable && (epochs.processes process).observed.isSome) ||
      quiet process epochs.log
  | .increment process => draw.readable && quiet process epochs.log
  | _ => true

theorem EpochRequest.admitted_of_cautious {draw : EpochDraw} {epochs : Epochs Process Callback}
    {request : EpochRequest Process Callback} (cautious : request.cautious draw epochs = true) :
    request.Admitted draw epochs := by
  cases request with
  | read process =>
      intro _ risky
      rw [EpochRequest.cautious, Bool.or_eq_true, Bool.and_eq_true] at cautious
      rcases cautious with ⟨readable, observed⟩ | calm
      · rcases risky with unobserved | ⟨unreadable, _⟩
        · rw [unobserved] at observed
          cases observed
        · rw [unreadable] at readable
          cases readable
      · exact seesAll_of_quiet calm
  | increment process =>
      rw [EpochRequest.cautious, Bool.and_eq_true] at cautious
      exact ⟨fun _ => .inl cautious.1, fun _ => seesAll_of_quiet cautious.2⟩
  | _ => trivial

def cautiousEvents (events : List (Event EpochDraw (EpochCall Process Callback))) : Bool :=
  checkEach (fun past event =>
    match event with
    | .start _ => true
    | .step index draw => (epochRun past).tasks[index]?.all fun task =>
        match task.remaining with
        | .done _ => true
        | .call request _ => request.cautious draw (epochRun past).state) events

theorem allAdmitted_of_cautious {events : List (Event EpochDraw (EpochCall Process Callback))}
    (cautious : cautiousEvents events = true) : AllAdmitted events := by
  intro past index draw within task request next found asks
  have checked := checkEach_sound cautious within
  dsimp only at checked
  rw [found, Option.all_some, asks] at checked
  exact EpochRequest.admitted_of_cautious checked

/-- The first process has entered a section before the second publishes, and enters
another one. -/
def seenEvents : List (Event EpochDraw (EpochCall Nat Nat)) :=
  [.start (.register 0 "cache" 7), .step 0 {}, .start (.enter ⟨0, true, false⟩), .step 1 {},
    .step 1 {}, .step 1 {}, .start (.enter ⟨1, true, true⟩), .step 2 {}, .step 2 {}, .step 2 {},
    .step 2 {}, .step 2 {}, .start (.enter ⟨0, true, false⟩), .step 3 {}, .step 3 {}, .step 3 {}]

theorem run_invalidators_run_seen :
    ∃ log, .published 1 ∈ log ∧ RanSince 0 "cache" 7 log (epochRun seenEvents).state.log :=
  ⟨_, by decide, run_invalidators_run seenEvents (allAdmitted_of_cautious (by decide +kernel)) _
    (List.mem_of_getElem? (i := 3) rfl) ⟨0, true, false⟩ rfl rfl _ rfl _ rfl "cache" 7⟩

end RAGuardian.Lifecycle
