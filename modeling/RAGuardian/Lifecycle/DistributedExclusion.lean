import RAGuardian.Lifecycle.RedisLock

/-! # Exclusion between processes

A writer that has found no key while it kept the gate is alone. What an attempt leaves
behind depends on what its failed calls have done. -/

namespace RAGuardian.Lifecycle

open Execution

/-! ## The commands -/

section

variable {self other : Nat} {store : LockStore}

@[simp, grind =] theorem acquire_readers : (store.acquire self).readers = store.readers := by
  rw [LockStore.acquire]
  split <;> rfl

@[simp, grind =] theorem release_readers : (store.release self).readers = store.readers := by
  rw [LockStore.release]
  split <;> rfl

@[simp, grind =] theorem setReader_gate : (store.setReader self).gate = store.gate := rfl

@[simp, grind =] theorem deleteReader_gate : (store.deleteReader self).gate = store.gate := rfl

@[simp, grind =] theorem mem_setReader :
    other ∈ (store.setReader self).readers ↔ other = self ∨ other ∈ store.readers :=
  Finset.mem_insert

@[simp, grind =] theorem mem_deleteReader :
    other ∈ (store.deleteReader self).readers ↔ other ≠ self ∧ other ∈ store.readers :=
  Finset.mem_erase

theorem acquire_gate (free : store.gate = none) : (store.acquire self).gate = some self := by
  rw [LockStore.acquire, if_pos free]

theorem release_gate : (store.release self).gate ≠ some self := by
  rw [LockStore.release]
  split
  · nofun
  · assumption

theorem acquire_other (different : other ≠ self) :
    (store.acquire self).gate = some other ↔ store.gate = some other := by
  rw [LockStore.acquire]
  split
  · rename_i free
    simp [free, Ne.symm different]
  · rfl

theorem release_other (different : other ≠ self) :
    (store.release self).gate = some other ↔ store.gate = some other := by
  rw [LockStore.release]
  split
  · rename_i held
    simp [held, Ne.symm different]
  · rfl

end

/-! ## One attempt -/

namespace Attempt

/-- The attempt has the gate. -/
def holdsGate (attempt : Attempt) : Bool :=
  match attempt.phase with
  | .setting | .releasing => true
  | .starting | .scanning _ | .polling | .body | .stopping | .freeing => !attempt.shared
  | _ => false

/-- The key of the attempt is set. -/
def hasKey (attempt : Attempt) : Bool :=
  match attempt.phase with
  | .releasing => attempt.readerKey
  | .starting | .body | .stopping | .deleting => attempt.shared
  | _ => false

/-- Readers and writers are only where their code is. -/
def Shaped (attempt : Attempt) : Prop :=
  match attempt.phase with
  | .acquiring => attempt.readerKey = false
  | .setting => attempt.shared = true ∧ attempt.readerKey = false
  | .releasing | .deleting => attempt.shared = true
  | .scanning _ | .polling | .freeing => attempt.shared = false
  | _ => True

section

variable {self other : Nat} {store : LockStore} {attempt : Attempt}

/-- What a call of an attempt can do. -/
inductive Moves (self : Nat) (store : LockStore) (attempt : Attempt) :
    CallOutcome → Attempt × LockStore → Prop
  | acquire (at_acquiring : attempt.phase = .acquiring) (free : store.gate = none) :
      Moves self store attempt (.returns true)
        (attempt.goTo (if attempt.shared then .setting else .starting), store.acquire self)
  | wait (at_acquiring : attempt.phase = .acquiring) (held : store.gate ≠ none) :
      Moves self store attempt (.returns true) (attempt, store)
  | refused (at_acquiring : attempt.phase = .acquiring) :
      Moves self store attempt (.returns false) (attempt.goTo .ended, store)
  | acquireRaises (effect fatal : Bool) (at_acquiring : attempt.phase = .acquiring) :
      Moves self store attempt (.raises effect fatal)
        (attempt.goTo .ended, if effect then store.acquire self else store)
  | set (value : Bool) (at_setting : attempt.phase = .setting) :
      Moves self store attempt (.returns value)
        ({ attempt with phase := .releasing, readerKey := true }, store.setReader self)
  | setRaises (effect fatal : Bool) (at_setting : attempt.phase = .setting) :
      Moves self store attempt (.raises effect fatal)
        (attempt.goTo .releasing, if effect then store.setReader self else store)
  | release (value : Bool) (at_releasing : attempt.phase = .releasing) :
      Moves self store attempt (.returns value)
        (attempt.goTo (if attempt.readerKey then .starting else .ended), store.release self)
  | releaseRaises (effect fatal : Bool) (at_releasing : attempt.phase = .releasing) :
      Moves self store attempt (.raises effect fatal)
        ({ attempt with
            phase := if attempt.readerKey && !fatal then .deleting else .ended
            releaseFailed := true },
          if effect then store.release self else store)
  | start (value : Bool) (at_starting : attempt.phase = .starting) :
      Moves self store attempt (.returns value)
        (attempt.goTo (if attempt.shared then .body else .scanning store.readers), store)
  | fail (effect fatal : Bool) (failing : attempt.phase = .starting ∨
        (∃ present, attempt.phase = .scanning present) ∨ attempt.phase = .polling) :
      Moves self store attempt (.raises effect fatal) (attempt.fail fatal, store)
  | poll (present : Finset Nat) (at_scanning : attempt.phase = .scanning present) :
      Moves self store attempt (.returns true) (attempt.goTo .polling, store)
  | enter (present : Finset Nat) (at_scanning : attempt.phase = .scanning present)
      (alone : present ∩ store.readers = ∅) :
      Moves self store attempt (.returns false) (attempt.goTo .body, store)
  | seen (present : Finset Nat) (at_scanning : attempt.phase = .scanning present)
      (found : present ∩ store.readers ≠ ∅) :
      Moves self store attempt (.returns false) (attempt, store)
  | scan (value : Bool) (at_polling : attempt.phase = .polling) :
      Moves self store attempt (.returns value) (attempt.goTo (.scanning store.readers), store)
  | leave (outcome : CallOutcome) (at_body : attempt.phase = .body) :
      Moves self store attempt outcome (attempt.goTo .stopping, store)
  | stop (value : Bool) (at_stopping : attempt.phase = .stopping) :
      Moves self store attempt (.returns value) (attempt.fail false, store)
  | stopRaises (effect fatal : Bool) (at_stopping : attempt.phase = .stopping) :
      Moves self store attempt (.raises effect fatal) (attempt.goTo .ended, store)
  | delete (value : Bool) (at_deleting : attempt.phase = .deleting) :
      Moves self store attempt (.returns value) (attempt.goTo .ended, store.deleteReader self)
  | deleteRaises (effect fatal : Bool) (at_deleting : attempt.phase = .deleting) :
      Moves self store attempt (.raises effect fatal)
        ({ attempt with phase := .ended, deleteFailed := true },
          if effect then store.deleteReader self else store)
  | free (value : Bool) (at_freeing : attempt.phase = .freeing) :
      Moves self store attempt (.returns value) (attempt.goTo .ended, store.release self)
  | freeRaises (effect fatal : Bool) (at_freeing : attempt.phase = .freeing) :
      Moves self store attempt (.raises effect fatal)
        ({ attempt with phase := .ended, releaseFailed := true },
          if effect then store.release self else store)
  | idle (outcome : CallOutcome) (at_end : attempt.phase = .ended) :
      Moves self store attempt outcome (attempt, store)

theorem moves (attempt : Attempt) (self : Nat) (outcome : CallOutcome) (store : LockStore) :
    Moves self store attempt outcome (attempt.step self outcome store) := by
  fun_cases attempt.step self outcome store
  case case1 at_acquiring free => exact .acquire at_acquiring free
  all_goals first
    | exact .wait ‹_› ‹_›
    | exact .enter _ ‹_› ‹_›
    | exact .seen _ ‹_› ‹_›
    | exact .poll _ ‹_›
    | exact .fail _ _ (.inl ‹_›)
    | exact .fail _ _ (.inr (.inl ⟨_, ‹_›⟩))
    | exact .fail _ _ (.inr (.inr ‹_›))
    | (constructor; assumption)

theorem step_shared (outcome : CallOutcome) :
    (attempt.step self outcome store).1.shared = attempt.shared := by
  have moves := attempt.moves self outcome store
  generalize attempt.step self outcome store = result at moves ⊢
  cases moves <;> simp [goTo, fail] <;> grind

theorem step_shaped (shaped : attempt.Shaped) (outcome : CallOutcome) :
    (attempt.step self outcome store).1.Shaped := by
  have moves := attempt.moves self outcome store
  generalize attempt.step self outcome store = result at moves ⊢
  cases moves <;> simp_all [goTo, fail, Shaped] <;> grind

/-- A call has no effect on the gate of another attempt. -/
theorem step_gate_other (different : other ≠ self) (outcome : CallOutcome) :
    (attempt.step self outcome store).2.gate = some other ↔ store.gate = some other := by
  have moves := attempt.moves self outcome store
  generalize attempt.step self outcome store = result at moves ⊢
  cases moves <;>
    simp [acquire_other different, release_other different] <;> grind [acquire_other, release_other]

/-- A call has no effect on the keys of other attempts. -/
theorem step_readers_other (different : other ≠ self) (outcome : CallOutcome) :
    other ∈ (attempt.step self outcome store).2.readers ↔ other ∈ store.readers := by
  have moves := attempt.moves self outcome store
  generalize attempt.step self outcome store = result at moves ⊢
  cases moves <;> simp [different] <;> split <;> simp [different]

/-- An attempt that takes the gate finds it free, and it has released it when it goes on
without. -/
theorem step_owned (shaped : attempt.Shaped)
    (owned : attempt.holdsGate = true → store.gate = some self) (outcome : CallOutcome) :
    (attempt.step self outcome store).1.holdsGate = true →
      (attempt.step self outcome store).2.gate = some self := by
  have moves := attempt.moves self outcome store
  generalize attempt.step self outcome store = result at moves ⊢
  cases moves <;>
    simp_all [goTo, fail, holdsGate, Shaped, acquire_gate] <;> grind

theorem step_keyed (shaped : attempt.Shaped)
    (keyed : attempt.hasKey = true → self ∈ store.readers) (outcome : CallOutcome) :
    (attempt.step self outcome store).1.hasKey = true →
      self ∈ (attempt.step self outcome store).2.readers := by
  have moves := attempt.moves self outcome store
  generalize attempt.step self outcome store = result at moves ⊢
  cases moves <;>
    simp_all [goTo, fail, hasKey, Shaped] <;> grind

/-- A key is set under the gate. -/
theorem step_registers (shaped : attempt.Shaped) (outcome : CallOutcome) :
    (attempt.step self outcome store).1.hasKey = true →
      attempt.hasKey = true ∨ attempt.holdsGate = true := by
  have moves := attempt.moves self outcome store
  generalize attempt.step self outcome store = result at moves ⊢
  cases moves <;>
    simp_all [goTo, fail, hasKey, holdsGate, Shaped] <;> grind

/-- A scan begins with the keys there are. -/
theorem step_scans {present : Finset Nat} (outcome : CallOutcome) :
    (attempt.step self outcome store).1.phase = .scanning present →
      attempt.phase = .scanning present ∨ present = store.readers := by
  have moves := attempt.moves self outcome store
  generalize attempt.step self outcome store = result at moves ⊢
  cases moves <;> simp_all [goTo, fail] <;> grind

/-- A writer enters its body at the end of a scan that has found no key. -/
theorem step_enters (writer : attempt.shared = false) (outcome : CallOutcome) :
    (attempt.step self outcome store).1.phase = .body → attempt.phase = .body ∨
      ∃ present, attempt.phase = .scanning present ∧ present ∩ store.readers = ∅ := by
  have moves := attempt.moves self outcome store
  generalize attempt.step self outcome store = result at moves ⊢
  cases moves <;> simp_all [goTo, fail] <;> grind

/-- The call that a clean attempt makes next: what takes the gate or sets the key raises only
without effect, and an attempt that has either is interrupted by no other than an
`Exception`. -/
def isClean (store : LockStore) (outcome : CallOutcome) (attempt : Attempt) : Bool :=
  match attempt.phase, outcome with
  | .acquiring, .raises effect _ => !effect || store.gate.isSome
  | .setting, .raises effect _ => !effect
  | .releasing, .raises _ fatal => !(fatal && attempt.readerKey)
  | .starting, .raises _ fatal => !fatal
  | .scanning _, .raises _ fatal => !fatal
  | .polling, .raises _ fatal => !fatal
  | .stopping, .raises _ _ => false
  | _, _ => true

/-- The attempt leaves the gate only to its own code, or to a release that has failed. -/
theorem step_gate_tidy (shaped : attempt.Shaped) {outcome : CallOutcome}
    (clean : attempt.isClean store outcome = true)
    (tidy : store.gate = some self → attempt.holdsGate = true ∨ attempt.releaseFailed = true) :
    (attempt.step self outcome store).2.gate = some self →
      (attempt.step self outcome store).1.holdsGate = true ∨
        (attempt.step self outcome store).1.releaseFailed = true := by
  have moves := attempt.moves self outcome store
  generalize attempt.step self outcome store = result at moves ⊢
  cases moves <;>
    simp_all [goTo, fail, holdsGate, Shaped, isClean, release_gate] <;> grind [LockStore.acquire]

/-- The attempt leaves the key only to its own code, or to a deletion that has failed. -/
theorem step_key_tidy (shaped : attempt.Shaped) {outcome : CallOutcome}
    (clean : attempt.isClean store outcome = true)
    (tidy : self ∈ store.readers → attempt.hasKey = true ∨ attempt.deleteFailed = true) :
    self ∈ (attempt.step self outcome store).2.readers →
      (attempt.step self outcome store).1.hasKey = true ∨
        (attempt.step self outcome store).1.deleteFailed = true := by
  have moves := attempt.moves self outcome store
  generalize attempt.step self outcome store = result at moves ⊢
  cases moves <;>
    simp_all [goTo, fail, hasKey, Shaped, isClean] <;> grind

end

end Attempt

/-! ## All attempts -/

namespace LockSystem

/-- The gate and the keys are those of the attempts, and a writer in its body has found
every key that there is. -/
structure Sound (system : LockSystem) : Prop where
  shaped : ∀ (index : Nat) attempt, system.attempts[index]? = some attempt → attempt.Shaped
  owned : ∀ (index : Nat) attempt, system.attempts[index]? = some attempt →
    attempt.holdsGate = true → system.store.gate = some index
  keyed : ∀ (index : Nat) attempt, system.attempts[index]? = some attempt →
    attempt.hasKey = true → index ∈ system.store.readers
  scanned : ∀ (index : Nat) attempt present, system.attempts[index]? = some attempt →
    attempt.phase = .scanning present → ∀ (other : Nat) reader,
      system.attempts[other]? = some reader → reader.hasKey = true → other ∈ present
  alone : ∀ (index : Nat) attempt, system.attempts[index]? = some attempt →
    attempt.shared = false → attempt.phase = .body → ∀ (other : Nat) reader,
      system.attempts[other]? = some reader → reader.hasKey = false

/-- What an attempt leaves behind once it has ended is due to a command that has failed. -/
structure Tidy (system : LockSystem) : Prop where
  gate : ∀ index, system.store.gate = some index → ∃ attempt,
    system.attempts[index]? = some attempt ∧
      (attempt.holdsGate = true ∨ attempt.releaseFailed = true)
  readers : ∀ index ∈ system.store.readers, ∃ attempt,
    system.attempts[index]? = some attempt ∧ (attempt.hasKey = true ∨ attempt.deleteFailed = true)

variable {system : LockSystem}

theorem enter_cases {shared : Bool} {index : Nat} {attempt : Attempt}
    (found : (system.attempts ++ [{ shared := shared }])[index]? = some attempt) :
    system.attempts[index]? = some attempt ∨ attempt = { shared := shared } := by
  rcases List.mem_append.mp (List.mem_of_getElem? found) with _ | new
  · rw [List.getElem?_append] at found
    split at found
    · exact .inl found
    · right
      exact List.mem_singleton.mp (List.mem_of_getElem? found)
  · exact .inr (List.mem_singleton.mp new)

theorem Sound.enter (sound : system.Sound) (shared : Bool) :
    (LockAttemptEvent.after (.enter shared) system).Sound := by
  have keyless : ∀ attempt : Attempt, attempt = { shared := shared } → attempt.hasKey = false := by
    rintro _ rfl
    rfl
  constructor
  · intro index attempt found
    rcases enter_cases found with before | rfl
    · exact sound.shaped index attempt before
    · exact rfl
  · intro index attempt found holds
    rcases enter_cases found with before | rfl
    · exact sound.owned index attempt before holds
    · nomatch holds
  · intro index attempt found keyed
    rcases enter_cases found with before | rfl
    · exact sound.keyed index attempt before keyed
    · nomatch keyed
  · intro index attempt present found scans other reader among keyed
    rcases enter_cases among with earlier | new
    · rcases enter_cases found with before | rfl
      · exact sound.scanned index attempt present before scans other reader earlier keyed
      · nomatch scans
    · rw [keyless reader new] at keyed
      nomatch keyed
  · intro index attempt found writer enters other reader among
    rcases enter_cases among with earlier | new
    · rcases enter_cases found with before | rfl
      · exact sound.alone index attempt before writer enters other reader earlier
      · nomatch enters
    · exact keyless reader new

theorem call_cases {self index : Nat} {called attempt : Attempt}
    (found : (system.attempts.set self called)[index]? = some attempt) :
    index = self ∧ attempt = called ∨ index ≠ self ∧ system.attempts[index]? = some attempt := by
  rw [List.getElem?_set] at found
  split at found
  · rename_i same
    split at found
    · exact .inl ⟨same.symm, (Option.some.inj found).symm⟩
    · nomatch found
  · rename_i different
    exact .inr ⟨Ne.symm different, found⟩

/-- Two attempts that have the gate are one. -/
theorem Sound.same (sound : system.Sound) {first second : Nat} {attempt other : Attempt}
    (found : system.attempts[first]? = some attempt)
    (among : system.attempts[second]? = some other) (holds : attempt.holdsGate = true)
    (otherHolds : other.holdsGate = true) : second = first := by
  have gate := sound.owned first attempt found holds
  rw [sound.owned second other among otherHolds] at gate
  exact Option.some.inj gate

theorem Sound.call (sound : system.Sound) (self : Nat) (outcome : CallOutcome) :
    (LockAttemptEvent.after (.call self outcome) system).Sound := by
  rw [LockAttemptEvent.after]
  split
  · exact sound
  · rename_i attempt here
    have shaped := sound.shaped self attempt here
    have owned := sound.owned self attempt here
    have keyed := sound.keyed self attempt here
    have writerHolds : ∀ {writer : Attempt} {present}, writer.Shaped →
        writer.phase = .scanning present → writer.holdsGate = true := by
      intro writer present shaped scans
      rw [Attempt.Shaped, scans] at shaped
      rw [Attempt.holdsGate, scans, shaped]
      rfl
    -- a key is new only under the gate, which a scanning writer or one in its body has
    have registered : ∀ {index : Nat} {writer : Attempt}, index ≠ self →
        system.attempts[index]? = some writer → writer.holdsGate = true →
        (attempt.step self outcome system.store).1.hasKey = true → attempt.hasKey = true := by
      intro index writer different found holds registers
      apply (Attempt.step_registers shaped outcome registers).resolve_right
      intro taken
      exact different (sound.same here found taken holds)
    constructor
    · intro index other found
      rcases call_cases found with ⟨_, rfl⟩ | ⟨_, before⟩
      · exact Attempt.step_shaped shaped outcome
      · exact sound.shaped index other before
    · intro index other found holds
      rcases call_cases found with ⟨rfl, rfl⟩ | ⟨different, before⟩
      · exact Attempt.step_owned shaped owned outcome holds
      · exact (Attempt.step_gate_other different outcome).mpr (sound.owned index other before holds)
    · intro index other found has
      rcases call_cases found with ⟨rfl, rfl⟩ | ⟨different, before⟩
      · exact Attempt.step_keyed shaped keyed outcome has
      · exact (Attempt.step_readers_other different outcome).mpr (sound.keyed index other before has)
    · intro index writer present found scans other reader among has
      rcases call_cases found with ⟨rfl, rfl⟩ | ⟨different, before⟩
      · rcases call_cases among with ⟨rfl, rfl⟩ | ⟨_, earlier⟩
        · rw [Attempt.hasKey, scans] at has
          nomatch has
        · rcases Attempt.step_scans outcome scans with scanning | rfl
          · exact sound.scanned index attempt present here scanning other reader earlier has
          · exact sound.keyed other reader earlier has
      · have holds := writerHolds (sound.shaped index writer before) scans
        rcases call_cases among with ⟨rfl, rfl⟩ | ⟨_, earlier⟩
        · exact sound.scanned index writer present before scans other attempt here
            (registered different before holds has)
        · exact sound.scanned index writer present before scans other reader earlier has
    · intro index writer found exclusive enters other reader among
      rw [Bool.eq_false_iff]
      intro has
      rcases call_cases found with ⟨rfl, rfl⟩ | ⟨different, before⟩
      · rcases call_cases among with ⟨rfl, rfl⟩ | ⟨_, earlier⟩
        · rw [Attempt.hasKey, enters, exclusive] at has
          nomatch has
        · rw [Attempt.step_shared] at exclusive
          rcases Attempt.step_enters exclusive outcome enters with inside | ⟨present, scans, empty⟩
          · rw [sound.alone index attempt here exclusive inside other reader earlier] at has
            nomatch has
          · have stale : other ∈ present ∩ system.store.readers := by
              apply Finset.mem_inter_of_mem
              · exact sound.scanned index attempt present here scans other reader earlier has
              · exact sound.keyed other reader earlier has
            rw [empty] at stale
            nomatch stale
      · have holds : writer.holdsGate = true := by
          rw [Attempt.holdsGate, enters, exclusive]
          rfl
        have absent := sound.alone index writer before exclusive enters
        rcases call_cases among with ⟨rfl, rfl⟩ | ⟨_, earlier⟩
        · rw [absent other attempt here] at registered
          nomatch registered different before holds has
        · rw [absent other reader earlier] at has
          nomatch has

theorem Tidy.after (sound : system.Sound) (tidy : system.Tidy) {event : LockAttemptEvent}
    (clean : ∀ self outcome, event = .call self outcome → ∀ attempt,
      system.attempts[self]? = some attempt → attempt.isClean system.store outcome = true) :
    (event.after system).Tidy := by
  cases event with
  | enter shared =>
      have kept : ∀ (index : Nat) attempt, system.attempts[index]? = some attempt →
          (system.attempts ++ [{ shared := shared }])[index]? = some attempt := by
        intro index attempt found
        rw [List.getElem?_append_left (List.getElem?_eq_some_iff.mp found).1]
        exact found
      constructor
      · intro index taken
        rcases tidy.gate index taken with ⟨attempt, found, holds⟩
        exact ⟨attempt, kept index attempt found, holds⟩
      · intro index stored
        rcases tidy.readers index stored with ⟨attempt, found, has⟩
        exact ⟨attempt, kept index attempt found, has⟩
  | call self outcome =>
      rw [LockAttemptEvent.after]
      split
      · exact tidy
      · rename_i attempt here
        have bound := (List.getElem?_eq_some_iff.mp here).1
        have shaped := sound.shaped self attempt here
        have next := clean self outcome rfl attempt here
        have own : ∀ called : Attempt, (system.attempts.set self called)[self]? = some called := by
          intro called
          rw [List.getElem?_set, if_pos rfl, if_pos bound]
        have others : ∀ (index : Nat) (called other : Attempt), index ≠ self →
            system.attempts[index]? = some other →
            (system.attempts.set self called)[index]? = some other := by
          intro index called other different found
          rw [List.getElem?_set, if_neg (Ne.symm different)]
          exact found
        constructor
        · intro index taken
          by_cases same : index = self
          · subst same
            refine ⟨_, own _, Attempt.step_gate_tidy shaped next ?_ taken⟩
            intro before
            rcases tidy.gate index before with ⟨other, found, holds⟩
            rw [here] at found
            cases found
            exact holds
          · rcases tidy.gate index ((Attempt.step_gate_other same outcome).mp taken) with
              ⟨other, found, holds⟩
            exact ⟨other, others index _ other same found, holds⟩
        · intro index stored
          by_cases same : index = self
          · subst same
            refine ⟨_, own _, Attempt.step_key_tidy shaped next ?_ stored⟩
            intro before
            rcases tidy.readers index before with ⟨other, found, has⟩
            rw [here] at found
            cases found
            exact has
          · rcases tidy.readers index ((Attempt.step_readers_other same outcome).mp stored) with
              ⟨other, found, has⟩
            exact ⟨other, others index _ other same found, has⟩

end LockSystem

/-! ## Runs -/

/-- Every call of a run is one of a clean attempt. -/
def CleanRun (events : List LockAttemptEvent) : Prop :=
  ∀ past self outcome, past ++ [.call self outcome] <+: events → ∀ attempt,
    (redisLockRun past).attempts[self]? = some attempt →
      attempt.isClean (redisLockRun past).store outcome = true

theorem redis_lock_sound (events : List LockAttemptEvent) : (redisLockRun events).Sound := by
  apply run_invariant (fun _ => True) _ events (fun _ _ => trivial)
  · exact ⟨nofun, nofun, nofun, nofun, nofun⟩
  · intro event system _ sound
    cases event with
    | enter shared => exact sound.enter shared
    | call self outcome => exact sound.call self outcome

theorem redis_lock_tidy {events : List LockAttemptEvent} (clean : CleanRun events) :
    (redisLockRun events).Tidy := by
  induction events using List.reverseRecOn with
  | nil => exact ⟨nofun, fun _ stored => nomatch stored⟩
  | append_singleton past event induction =>
      rw [redisLockRun, run_concat]
      apply LockSystem.Tidy.after (redis_lock_sound past)
      · apply induction
        intro earlier self outcome within
        exact clean earlier self outcome (within.trans (List.prefix_append _ _))
      · rintro self outcome rfl
        exact clean past self outcome List.prefix_rfl

/-- No two attempts are in their bodies if one of them is exclusive. -/
def LockSystem.Excludes (system : LockSystem) : Prop :=
  ∀ (index : Nat) writer (other : Nat) attempt, system.attempts[index]? = some writer →
    system.attempts[other]? = some attempt → writer.shared = false → writer.phase = .body →
    attempt.phase = .body → other = index

/-- An attempt that has ended has left the gate only if its release has failed, and its key
only if its deletion has. -/
def LockSystem.LeavesNothing (system : LockSystem) : Prop :=
  ∀ (index : Nat) attempt, system.attempts[index]? = some attempt → attempt.phase = .ended →
    (system.store.gate = some index → attempt.releaseFailed = true) ∧
      (index ∈ system.store.readers → attempt.deleteFailed = true)

theorem redis_lock_excludes (events : List LockAttemptEvent) : (redisLockRun events).Excludes := by
  have sound := redis_lock_sound events
  intro index writer other attempt found among exclusive writes enters
  cases shared : attempt.shared with
  | true =>
      have absent := sound.alone index writer found exclusive writes other attempt among
      rw [Attempt.hasKey, enters, shared] at absent
      nomatch absent
  | false =>
      apply sound.same found among
      · rw [Attempt.holdsGate, writes, exclusive]
        rfl
      · rw [Attempt.holdsGate, enters, shared]
        rfl

theorem LockSystem.Tidy.leavesNothing {system : LockSystem} (tidy : system.Tidy) :
    system.LeavesNothing := by
  intro index attempt found ended
  constructor
  · intro taken
    rcases tidy.gate index taken with ⟨other, among, left⟩
    rw [found] at among
    cases among
    apply left.resolve_left
    rw [Attempt.holdsGate, ended]
    nofun
  · intro stored
    rcases tidy.readers index stored with ⟨other, among, left⟩
    rw [found] at among
    cases among
    apply left.resolve_left
    rw [Attempt.hasKey, ended]
    nofun

/-- A writer is alone in its body, and clean attempts leave nothing behind. -/
theorem run_distributed_exclusion {events : List LockAttemptEvent} (clean : CleanRun events) :
    (redisLockRun events).Excludes ∧ (redisLockRun events).LeavesNothing :=
  ⟨redis_lock_excludes events, (redis_lock_tidy clean).leavesNothing⟩

/-- `CleanRun`, call by call. -/
def isCleanRun (events : List LockAttemptEvent) : Bool :=
  checkEach (fun past event =>
    match event with
    | .enter _ => true
    | .call self outcome =>
        ((redisLockRun past).attempts[self]?).all fun attempt =>
          attempt.isClean (redisLockRun past).store outcome) events

/-- A writer waits for a reader, another reader fails to set its key, and both end. -/
def orderlyAttempts : List LockAttemptEvent :=
  [.enter true, .call 0 (.returns true), .call 0 (.returns true), .call 0 (.returns true),
    .call 0 (.returns true), .enter true, .call 1 (.returns true), .call 1 (.raises false false),
    .call 1 (.returns true), .enter false, .call 2 (.returns true), .call 2 (.returns true),
    .call 2 (.returns true), .call 0 (.returns true), .call 0 (.returns true),
    .call 0 (.returns true), .call 2 (.returns true), .call 2 (.returns false),
    .call 2 (.returns true), .call 2 (.returns true), .call 2 (.returns true)]

theorem run_distributed_exclusion_orderly :
    (redisLockRun orderlyAttempts).Excludes ∧ (redisLockRun orderlyAttempts).LeavesNothing := by
  apply run_distributed_exclusion
  have checked : isCleanRun orderlyAttempts = true := by decide +kernel
  intro past self outcome within attempt found
  have here := checkEach_sound checked within
  dsimp only at here
  rw [found, Option.all_some] at here
  exact here

/-- The gate is taken by an `acquire` that raises. -/
def takenAndRaised : List LockAttemptEvent :=
  [.enter false, .call 0 (.raises true false)]

/-- The key is set by a `SET` that raises. -/
def setAndRaised : List LockAttemptEvent :=
  [.enter true, .call 0 (.returns true), .call 0 (.raises true false), .call 0 (.returns true)]

/-- A writer is interrupted while it waits for a reader. -/
def interruptedWriter : List LockAttemptEvent :=
  [.enter true, .call 0 (.returns true), .call 0 (.returns true), .call 0 (.returns true),
    .call 0 (.returns true), .enter false, .call 1 (.returns true), .call 1 (.returns true),
    .call 1 (.returns true), .call 1 (.raises false true)]

theorem attempts_leave_locks :
    ¬(redisLockRun takenAndRaised).LeavesNothing ∧ ¬(redisLockRun setAndRaised).LeavesNothing ∧
      ¬(redisLockRun interruptedWriter).LeavesNothing := by
  refine ⟨?_, ?_, ?_⟩
  · intro leaves
    have ended := leaves 0 { shared := false, phase := .ended } (by decide +kernel) rfl
    exact absurd (ended.1 (by decide +kernel)) (by decide)
  · intro leaves
    have ended := leaves 0 { shared := true, phase := .ended } (by decide +kernel) rfl
    exact absurd (ended.2 (by decide +kernel)) (by decide)
  · intro leaves
    have ended := leaves 1 { shared := false, phase := .ended } (by decide +kernel) rfl
    exact absurd (ended.1 (by decide +kernel)) (by decide)

end RAGuardian.Lifecycle
