import Mathlib.Data.Set.Finite.Lemmas
import RAGuardian.Lifecycle.Sections
import RAGuardian.Lifecycle.WriterExclusion

/-! # Progress of lifecycle sections

Every thread takes its locks in one order: the global lock, then those of scopes by
their names. A thread that sleeps waits for a thread that holds a lock, which sleeps at
a later lock at most. -/

namespace RAGuardian.Lifecycle

open Execution Text

/-! ## One lock -/

/-- A thread that sleeps on a lock is in one of its loops, and a reader sleeps behind a
writer only. -/
structure ThreadLock.Awake {Thread : Type} [DecidableEq Thread] (lock : ThreadLock Thread) :
    Prop where
  inside : ∀ thread ∈ lock.blocked, thread ∈ lock.inRead ∨ thread ∈ lock.inWrite
  behind : ∀ thread ∈ lock.inRead, thread ∈ lock.blocked →
    lock.writer ≠ none ∨ 0 < lock.waitingWriters

def Mode.acquire : Mode → LockCall
  | .shared => .acquireRead
  | .exclusive => .acquireWrite

def Mode.releaseCall : Mode → LockCall
  | .shared => .releaseRead
  | .exclusive => .releaseWrite

/-- What an attempt leaves: its thread is in a loop only if it waits, and no other has
entered or left one. -/
structure Attempted (mode : Mode) (thread : Nat) (before : ThreadLock Nat)
    (outcome : LockReply × ThreadLock Nat) : Prop where
  sound : outcome.2.Sound
  awake : outcome.2.Awake
  moves : mode.acquire.Moves thread before outcome
  inRead : ∀ other ∈ outcome.2.inRead,
    other ∈ before.inRead ∧ other ≠ thread ∨
      other = thread ∧ mode = .shared ∧ outcome.1 = .waits
  inWrite : ∀ other ∈ outcome.2.inWrite,
    other ∈ before.inWrite ∧ other ≠ thread ∨
      other = thread ∧ mode = .exclusive ∧ outcome.1 = .waits

section

variable {lock : ThreadLock Nat} {thread : Nat}

/-- A thread that leaves takes nobody along. -/
theorem mem_leave
    (inside : ∀ thread ∈ lock.blocked, thread ∈ lock.inRead ∨ thread ∈ lock.inWrite) {other : Nat}
    (sleeps : other ∈ (lock.leave thread).blocked) :
    other ∈ (lock.leave thread).inRead ∨ other ∈ (lock.leave thread).inWrite := by
  rcases Finset.mem_erase.mp sleeps with ⟨different, before⟩
  rcases inside other before with reading | writing
  · exact .inl (Finset.mem_erase.mpr ⟨different, reading⟩)
  · exact .inr (Finset.mem_erase.mpr ⟨different, writing⟩)

theorem passRead_attempted (sound : lock.Sound) (awake : lock.Awake)
    (outside : thread ∉ lock.inWrite) {held : Bool}
    (holds : held = true → lock.writer = some thread ∨ 0 < lock.depth thread) :
    Attempted .shared thread lock (lock.passRead thread held) where
  sound := sound.passRead outside holds
  moves := passRead_moves held
  awake := by
    rw [ThreadLock.passRead]
    split
    · rename_i waits
      have busy : lock.writer ≠ none ∨ 0 < lock.waitingWriters := by
        rw [Bool.and_eq_true, Bool.or_eq_true, Option.isSome_iff_ne_none, decide_eq_true_eq] at waits
        exact waits.2
      constructor
      · intro other sleeps
        rcases Finset.mem_insert.mp sleeps with rfl | before
        · exact .inl (Finset.mem_insert_self _ _)
        · rcases awake.inside other before with reading | writing
          · exact .inl (Finset.mem_insert_of_mem reading)
          · exact .inr writing
      · intro _ _ _
        exact busy
    · constructor
      · intro other sleeps
        exact mem_leave awake.inside sleeps
      · intro other reading sleeps
        exact awake.behind other (Finset.mem_of_mem_erase reading) (Finset.mem_of_mem_erase sleeps)
  inRead := by
    rw [ThreadLock.passRead]
    split
    · intro other inside
      by_cases same : other = thread
      · exact .inr ⟨same, rfl, rfl⟩
      · exact .inl ⟨(Finset.mem_insert.mp inside).resolve_left same, same⟩
    · intro other inside
      rcases Finset.mem_erase.mp inside with ⟨different, before⟩
      exact .inl ⟨before, different⟩
  inWrite := by
    rw [ThreadLock.passRead]
    split
    · intro other inside
      exact .inl ⟨inside, fun same => outside (same ▸ inside)⟩
    · intro other inside
      rcases Finset.mem_erase.mp inside with ⟨different, before⟩
      exact .inl ⟨before, different⟩

theorem passWrite_attempted (sound : lock.Sound) (awake : lock.Awake)
    (outside : thread ∉ lock.inRead) {count : Int}
    (counted : count = (insert thread lock.inWrite).card) :
    Attempted .exclusive thread lock ({ lock with waitingWriters := count }.passWrite thread) where
  sound := sound.passWrite outside counted
  moves := passWrite_moves count
  awake := by
    have positive : 0 < (insert thread lock.inWrite).card :=
      Finset.card_pos.mpr ⟨thread, Finset.mem_insert_self _ _⟩
    rw [ThreadLock.passWrite]
    dsimp only
    split
    · constructor
      · intro other sleeps
        rcases Finset.mem_insert.mp sleeps with rfl | before
        · exact .inr (Finset.mem_insert_self _ _)
        · rcases awake.inside other before with reading | writing
          · exact .inl reading
          · exact .inr (Finset.mem_insert_of_mem writing)
      · intro _ _ _
        right
        dsimp only
        omega
    · constructor
      · intro other sleeps
        exact mem_leave awake.inside sleeps
      · intro _ _ _
        exact .inl (Option.some_ne_none thread)
  inRead := by
    rw [ThreadLock.passWrite]
    dsimp only
    split
    · intro other inside
      exact .inl ⟨inside, fun same => outside (same ▸ inside)⟩
    · intro other inside
      rcases Finset.mem_erase.mp inside with ⟨different, before⟩
      exact .inl ⟨before, different⟩
  inWrite := by
    rw [ThreadLock.passWrite]
    dsimp only
    split
    · intro other inside
      by_cases same : other = thread
      · exact .inr ⟨same, rfl, rfl⟩
      · exact .inl ⟨(Finset.mem_insert.mp inside).resolve_left same, same⟩
    · intro other inside
      rcases Finset.mem_erase.mp inside with ⟨different, before⟩
      exact .inl ⟨before, different⟩

theorem acquireWrite_attempted (sound : lock.Sound) (awake : lock.Awake)
    (outside : thread ∉ lock.inRead) (idle : thread ∉ lock.inWrite) :
    Attempted .exclusive thread lock (lock.acquireWrite thread) := by
  have inRead : ∀ other ∈ lock.inRead, other ∈ lock.inRead ∧ other ≠ thread :=
    fun other inside => ⟨inside, fun same => outside (same ▸ inside)⟩
  have inWrite : ∀ other ∈ lock.inWrite, other ∈ lock.inWrite ∧ other ≠ thread :=
    fun other inside => ⟨inside, fun same => idle (same ▸ inside)⟩
  have kept := sound.acquireWrite outside idle
  have moves := @acquireWrite_moves Nat _ lock thread
  rw [ThreadLock.acquireWrite] at kept moves ⊢
  split at kept
  · rename_i writes
    rw [if_pos writes] at moves ⊢
    exact ⟨kept, ⟨awake.inside, awake.behind⟩, moves, fun other inside => .inl (inRead other inside),
      fun other inside => .inl (inWrite other inside)⟩
  · rename_i unwritten
    rw [if_neg unwritten] at moves ⊢
    split at kept
    · rename_i reads
      rw [if_pos reads] at moves ⊢
      exact ⟨kept, awake, moves, fun other inside => .inl (inRead other inside),
        fun other inside => .inl (inWrite other inside)⟩
    · rename_i unread
      rw [if_neg unread]
      apply passWrite_attempted sound awake outside
      rw [Finset.card_insert_of_notMem idle, sound.waiting]
      omega

/-- An attempt of a thread that is in no other loop of the lock. -/
theorem Mode.attempt_spec (mode : Mode) (sound : lock.Sound) (awake : lock.Awake)
    (reading : thread ∈ lock.inRead → mode = .shared)
    (writing : thread ∈ lock.inWrite → mode = .exclusive) :
    Attempted mode thread lock (mode.attempt thread lock) := by
  cases mode with
  | shared =>
      have outside : thread ∉ lock.inWrite := by
        intro inside
        cases writing inside
      rw [Mode.attempt]
      split
      · exact passRead_attempted sound awake outside (by rintro ⟨⟩)
      · apply passRead_attempted sound awake outside
        intro held
        simpa using held
  | exclusive =>
      have outside : thread ∉ lock.inRead := by
        intro inside
        cases reading inside
      rw [Mode.attempt]
      split
      · rename_i inside
        apply passWrite_attempted sound awake outside
        rw [Finset.insert_eq_of_mem inside]
        exact sound.waiting
      · rename_i idle
        exact acquireWrite_attempted sound awake outside idle

/-- What a release leaves. -/
structure Released (mode : Mode) (thread : Nat) (before after : ThreadLock Nat) : Prop where
  sound : after.Sound
  awake : after.Awake
  moves : ThreadLock.Moved thread mode.releaseCall.reads mode.releaseCall.writes before after
  inRead : after.inRead = before.inRead
  inWrite : after.inWrite = before.inWrite

theorem releaseRead_spec (sound : lock.Sound) (held : 0 < lock.depth thread) :
    Released .shared thread lock (lock.releaseRead thread).2 := by
  have kept : (lock.releaseRead thread).2.Sound := sound.releaseRead
  have moves := @releaseRead_moves Nat _ lock thread
  rw [ThreadLock.releaseRead, if_neg (Nat.ne_of_gt held)] at kept moves ⊢
  exact ⟨kept, ⟨by rintro _ ⟨⟩, by rintro _ _ ⟨⟩⟩,
    moves, rfl, rfl⟩

theorem releaseWrite_spec (sound : lock.Sound) (awake : lock.Awake)
    (held : 0 < lock.written thread) :
    Released .exclusive thread lock (lock.releaseWrite thread).2 := by
  have writes : lock.writer = some thread := by
    by_contra unwritten
    rw [ThreadLock.written, if_neg unwritten] at held
    omega
  have kept : (lock.releaseWrite thread).2.Sound := sound.releaseWrite
  have moves := @releaseWrite_moves Nat _ lock thread
  rw [ThreadLock.releaseWrite, if_neg (not_not.mpr writes)] at kept moves ⊢
  dsimp only at kept moves ⊢
  split at kept
  · rename_i last
    rw [if_pos last] at moves ⊢
    exact ⟨kept,
      ⟨by rintro _ ⟨⟩, by rintro _ _ ⟨⟩⟩,
      moves, rfl, rfl⟩
  · rename_i several
    rw [if_neg several] at moves ⊢
    exact ⟨kept, ⟨awake.inside, awake.behind⟩, moves, rfl, rfl⟩

end

/-! ## Threads -/

def Activity.held : Activity → List Gate
  | .idle => []
  | .acquiring held _ => held
  | .releasing held => held

def Activity.pending : Activity → List Gate
  | .acquiring _ pending => pending
  | _ => []

/-- How often the thread holds the lock of the key in this mode. -/
def Worker.holds (sha256 : String → String) (mode : Mode) (key : String) (worker : Worker) : Nat :=
  worker.activity.held.countP fun gate => gate.mode = mode && lockKey sha256 gate.name = key

/-- The thread is about to take the lock of the key in this mode. -/
def Worker.Takes (sha256 : String → String) (mode : Mode) (key : String) (worker : Worker) : Prop :=
  ∃ held gate pending, worker.activity = .acquiring held (gate :: pending) ∧ gate.mode = mode ∧
    lockKey sha256 gate.name = key

theorem Worker.Takes.key_eq {sha256 : String → String} {mode : Mode} {key : String}
    {worker : Worker} (takes : worker.Takes sha256 mode key) {held pending : List Gate} {gate : Gate}
    (acquires : worker.activity = .acquiring held (gate :: pending)) :
    gate.mode = mode ∧ lockKey sha256 gate.name = key := by
  rcases takes with ⟨_, other, _, same, moded, keyed⟩
  rw [acquires] at same
  cases same
  exact ⟨moded, keyed⟩

/-- The locks a thread holds and is to take are in order, and it uses known names. -/
structure Worker.Sound (used : WithBot String → Prop) (worker : Worker) : Prop where
  ordered : (worker.activity.held.reverse ++ worker.activity.pending).Pairwise
    fun first second => first.name < second.name
  present : ∀ gate ∈ worker.activity.held ++ worker.activity.pending, used gate.name
  future : ∀ entered ∈ worker.sections, ∀ gate ∈ entered.gates, used gate.name

def Workers.holds (sha256 : String → String) (mode : Mode) (key : String) (thread : Nat)
    (state : Workers) : Nat :=
  (state.workers[thread]?).elim 0 (Worker.holds sha256 mode key)

def Workers.Takes (sha256 : String → String) (mode : Mode) (key : String) (thread : Nat)
    (state : Workers) : Prop :=
  ∃ worker, state.workers[thread]? = some worker ∧ worker.Takes sha256 mode key

/-- The locks agree with what the threads hold and wait for. -/
structure Workers.Sound (sha256 : String → String) (used : WithBot String → Prop)
    (state : Workers) : Prop where
  locks : ∀ key, (state.locks key).Sound
  awake : ∀ key, (state.locks key).Awake
  reading : ∀ key, ∀ thread ∈ (state.locks key).inRead, state.Takes sha256 .shared key thread
  writing : ∀ key, ∀ thread ∈ (state.locks key).inWrite, state.Takes sha256 .exclusive key thread
  reads : ∀ key thread, (state.locks key).depth thread = state.holds sha256 .shared key thread
  writes : ∀ key thread,
    (state.locks key).written thread = state.holds sha256 .exclusive key thread
  workers : ∀ worker ∈ state.workers, worker.Sound used

section

variable {sha256 : String → String} {used : WithBot String → Prop} {state next : Workers}
  {thread : Nat} {worker changed : Worker} {key : String} {lock : ThreadLock Nat}

/-- One thread and one lock change together. -/
theorem Workers.Sound.update (sound : state.Sound sha256 used)
    (found : state.workers[thread]? = some worker)
    (locks : ∀ other, next.locks other = if other = key then lock else state.locks other)
    (workers : ∀ other : Nat, next.workers[other]? =
      if other = thread then some changed else state.workers[other]?)
    (lockSound : lock.Sound) (lockAwake : lock.Awake)
    (inRead : ∀ other ∈ lock.inRead, other ∈ (state.locks key).inRead ∧ other ≠ thread ∨
      other = thread ∧ changed.Takes sha256 .shared key)
    (inWrite : ∀ other ∈ lock.inWrite, other ∈ (state.locks key).inWrite ∧ other ≠ thread ∨
      other = thread ∧ changed.Takes sha256 .exclusive key)
    (elsewhere : ∀ other ≠ key, ∀ mode, worker.Takes sha256 mode other →
      changed.Takes sha256 mode other)
    {reads writes : Int} (moved : ThreadLock.Moved thread reads writes (state.locks key) lock)
    (readsHere : (changed.holds sha256 .shared key : Int) =
      worker.holds sha256 .shared key + reads)
    (writesHere : (changed.holds sha256 .exclusive key : Int) =
      worker.holds sha256 .exclusive key + writes)
    (holdsElsewhere : ∀ other ≠ key, ∀ mode, changed.holds sha256 mode other =
      worker.holds sha256 mode other)
    (fine : changed.Sound used) : next.Sound sha256 used := by
  have here : next.workers[thread]? = some changed := by
    rw [workers, if_pos rfl]
  have others : ∀ other, other ≠ thread → next.workers[other]? = state.workers[other]? := by
    intro other different
    rw [workers, if_neg different]
  have kept : ∀ other mode place, other ≠ thread → state.Takes sha256 mode place other →
      next.Takes sha256 mode place other := by
    rintro other mode place different ⟨old, held, takes⟩
    exact ⟨old, (others other different).trans held, takes⟩
  have apart : ∀ other mode place, place ≠ key → state.Takes sha256 mode place other →
      next.Takes sha256 mode place other := by
    intro other mode place away takes
    by_cases same : other = thread
    · rcases takes with ⟨old, held, takes⟩
      rw [same, found] at held
      cases held
      exact ⟨changed, same ▸ here, elsewhere place away mode takes⟩
    · exact kept other mode place same takes
  have holdsOther : ∀ other mode place, other ≠ thread →
      next.holds sha256 mode place other = state.holds sha256 mode place other := by
    intro other mode place different
    rw [Workers.holds, others other different, Workers.holds]
  have holdsNow : ∀ mode place, next.holds sha256 mode place thread =
      changed.holds sha256 mode place := by
    intro mode place
    rw [Workers.holds, here, Option.elim_some]
  have heldBefore : ∀ mode place, state.holds sha256 mode place thread =
      worker.holds sha256 mode place := by
    intro mode place
    rw [Workers.holds, found, Option.elim_some]
  constructor
  · intro place
    rw [locks]
    split
    · exact lockSound
    · exact sound.locks place
  · intro place
    rw [locks]
    split
    · exact lockAwake
    · exact sound.awake place
  · intro place other inside
    rw [locks] at inside
    split at inside
    · rename_i same
      subst same
      rcases inRead other inside with ⟨before, different⟩ | ⟨rfl, takes⟩
      · exact kept other _ _ different (sound.reading _ other before)
      · exact ⟨changed, here, takes⟩
    · rename_i away
      exact apart other _ place away (sound.reading place other inside)
  · intro place other inside
    rw [locks] at inside
    split at inside
    · rename_i same
      subst same
      rcases inWrite other inside with ⟨before, different⟩ | ⟨rfl, takes⟩
      · exact kept other _ _ different (sound.writing _ other before)
      · exact ⟨changed, here, takes⟩
    · rename_i away
      exact apart other _ place away (sound.writing place other inside)
  · intro place other
    have before := sound.reads place other
    rw [locks]
    by_cases same : other = thread
    · subst same
      rw [holdsNow]
      rw [heldBefore] at before
      split
      · rename_i at_
        subst at_
        have after := moved.depth other
        rw [if_pos rfl, before, ← readsHere] at after
        exact Int.ofNat_inj.mp after
      · rename_i away
        rw [before, holdsElsewhere place away]
    · rw [holdsOther other _ _ same, ← before]
      split
      · rename_i at_
        subst at_
        have after := moved.depth other
        rw [if_neg same, add_zero] at after
        exact Int.ofNat_inj.mp after
      · rfl
  · intro place other
    have before := sound.writes place other
    rw [locks]
    by_cases same : other = thread
    · subst same
      rw [holdsNow]
      rw [heldBefore] at before
      split
      · rename_i at_
        subst at_
        have after := moved.written other
        rw [if_pos rfl, before, ← writesHere] at after
        exact after
      · rename_i away
        rw [before, holdsElsewhere place away]
    · rw [holdsOther other _ _ same, ← before]
      split
      · rename_i at_
        subst at_
        have after := moved.written other
        rw [if_neg same, add_zero] at after
        exact after
      · rfl
  · intro some member
    rcases List.mem_iff_getElem?.mp member with ⟨position, held⟩
    rw [workers] at held
    split at held
    · cases held
      exact fine
    · exact sound.workers some (List.mem_of_getElem? held)

/-! ## Steps -/

theorem getElem?_become (state : Workers) (found : state.workers[thread]? = some worker)
    (other : Nat) : (state.become thread changed).workers[other]? =
      if other = thread then some changed else state.workers[other]? := by
  have bound := (List.getElem?_eq_some_iff.mp found).1
  rw [Workers.become, List.getElem?_set]
  by_cases same : other = thread
  · subst same
    rw [if_pos rfl, if_pos rfl, if_pos bound]
  · rw [if_neg (Ne.symm same), if_neg same]

/-- A thread that neither takes nor releases a lock may change its activity. -/
theorem Workers.Sound.become (sound : state.Sound sha256 used)
    (found : state.workers[thread]? = some worker)
    (idle : ∀ mode key, ¬worker.Takes sha256 mode key)
    (same : changed.activity.held = worker.activity.held) (fine : changed.Sound used) :
    (state.become thread changed).Sound sha256 used := by
  have holds : ∀ mode key, changed.holds sha256 mode key = worker.holds sha256 mode key := by
    intro mode key
    rw [Worker.holds, same, Worker.holds]
  have outside : ∀ mode, ¬state.Takes sha256 mode "global" thread := by
    rintro mode ⟨other, held, takes⟩
    rw [found] at held
    cases held
    exact idle mode _ takes
  refine @Workers.Sound.update sha256 used state _ thread worker changed "global"
    (state.locks "global") sound found ?_ (getElem?_become state found) (sound.locks _)
    (sound.awake _) ?_ ?_ ?_ 0 0 (.still rfl rfl rfl) ?_ ?_ ?_ fine
  · intro other
    split
    · rename_i at_
      rw [at_]
      rfl
    · rfl
  · intro other inside
    refine .inl ⟨inside, ?_⟩
    rintro rfl
    exact outside _ (sound.reading _ other inside)
  · intro other inside
    refine .inl ⟨inside, ?_⟩
    rintro rfl
    exact outside _ (sound.writing _ other inside)
  · intro other _ mode takes
    exact absurd takes (idle mode other)
  · rw [holds, add_zero]
  · rw [holds, add_zero]
  · intro other _ mode
    exact holds mode other

theorem holds_cons {sections others : List SectionCall} {activity less : Activity} {gate : Gate}
    (held : activity.held = gate :: less.held) (mode : Mode) (key : String) :
    (⟨sections, activity⟩ : Worker).holds sha256 mode key =
      (⟨others, less⟩ : Worker).holds sha256 mode key +
        if gate.mode = mode ∧ lockKey sha256 gate.name = key then 1 else 0 := by
  rw [Worker.holds, Worker.holds, held, List.countP_cons]
  simp

theorem Mode.acquire_reads (mode : Mode) :
    mode.acquire.reads = if mode = .shared then 1 else 0 := by
  cases mode <;> rfl

theorem Mode.acquire_writes (mode : Mode) :
    mode.acquire.writes = if mode = .exclusive then 1 else 0 := by
  cases mode <;> rfl

theorem Mode.release_reads (mode : Mode) :
    mode.releaseCall.reads = if mode = .shared then -1 else 0 := by
  cases mode <;> rfl

theorem Mode.release_writes (mode : Mode) :
    mode.releaseCall.writes = if mode = .exclusive then -1 else 0 := by
  cases mode <;> rfl

theorem locks_withLock (state : Workers) (changed : Worker) (other : String) :
    ((state.withLock key lock).become thread changed).locks other =
      if other = key then lock else state.locks other :=
  rfl

theorem getElem?_withLock (state : Workers) (found : state.workers[thread]? = some worker)
    (other : Nat) : (state.withLock key lock).workers[other]? =
      if other = thread then some worker else state.workers[other]? := by
  split
  · rename_i same
    rw [same]
    exact found
  · rfl

/-- The thread takes a lock, goes on waiting for it, or gives up. -/
theorem Workers.Sound.attempted (sound : state.Sound sha256 used)
    {sections : List SectionCall} {held pending : List Gate} {gate : Gate}
    (found : state.workers[thread]? = some ⟨sections, .acquiring held (gate :: pending)⟩)
    (fine : Worker.Sound used ⟨sections, .acquiring held (gate :: pending)⟩) :
    (state.step sha256 thread).Sound sha256 used := by
  have only : ∀ {mode key}, state.Takes sha256 mode key thread →
      gate.mode = mode ∧ lockKey sha256 gate.name = key := by
    rintro mode key ⟨worker, held, takes⟩
    rw [found] at held
    cases held
    exact takes.key_eq rfl
  have spec := gate.mode.attempt_spec (sound.locks (lockKey sha256 gate.name)) (sound.awake _)
    (fun inside => (only (sound.reading _ thread inside)).1)
    (fun inside => (only (sound.writing _ thread inside)).1)
  have takes : Worker.Takes sha256 gate.mode (lockKey sha256 gate.name)
      ⟨sections, .acquiring held (gate :: pending)⟩ := ⟨held, gate, pending, rfl, rfl, rfl⟩
  have elsewhere : ∀ (changed : Worker), ∀ other ≠ lockKey sha256 gate.name, ∀ mode,
      Worker.Takes sha256 mode other ⟨sections, .acquiring held (gate :: pending)⟩ →
      changed.Takes sha256 mode other := by
    intro changed other away mode takes
    exact absurd (takes.key_eq rfl).2.symm away
  simp only [Workers.step, found]
  generalize gate.mode.attempt thread (state.locks (lockKey sha256 gate.name)) = outcome at spec ⊢
  rcases outcome with ⟨reply, lock⟩
  cases reply with
  | returned outermost =>
      have counted := @holds_cons sha256 sections sections
        (.acquiring (gate :: held) pending) (.acquiring held (gate :: pending)) gate rfl
      refine sound.update found (locks_withLock state _) (getElem?_become _ found) spec.sound
        spec.awake ?_ ?_ (elsewhere _) spec.moves ?_ ?_ ?_ ?_
      · intro other inside
        rcases spec.inRead other inside with before | ⟨_, _, waits⟩
        · exact .inl before
        · nomatch waits
      · intro other inside
        rcases spec.inWrite other inside with before | ⟨_, _, waits⟩
        · exact .inl before
        · nomatch waits
      · rw [counted, Mode.acquire_reads]
        cases gate.mode <;> simp
      · rw [counted, Mode.acquire_writes]
        cases gate.mode <;> simp
      · intro other away mode
        rw [counted, if_neg fun same => away same.2.symm, add_zero]
      · refine ⟨?_, ?_, fine.future⟩
        · have ordered := fine.ordered
          simpa [Activity.held, Activity.pending] using ordered
        · intro some member
          apply fine.present some
          simp only [Activity.held, Activity.pending, List.mem_append, List.mem_cons] at member ⊢
          tauto
  | waits =>
      refine sound.update found
        (fun _ => rfl) (getElem?_withLock _ found) spec.sound
        spec.awake ?_ ?_ (elsewhere _) spec.moves ?_ ?_ ?_ fine
      · intro other inside
        rcases spec.inRead other inside with before | ⟨same, shared, _⟩
        · exact .inl before
        · exact .inr ⟨same, shared ▸ takes⟩
      · intro other inside
        rcases spec.inWrite other inside with before | ⟨same, exclusive, _⟩
        · exact .inl before
        · exact .inr ⟨same, exclusive ▸ takes⟩
      · rw [add_zero]
      · rw [add_zero]
      · intro _ _ _
        rfl
  | raised message =>
      refine sound.update found (locks_withLock state _) (getElem?_become _ found) spec.sound
        spec.awake ?_ ?_ (elsewhere _) spec.moves ?_ ?_ ?_ ?_
      · intro other inside
        rcases spec.inRead other inside with before | ⟨_, _, waits⟩
        · exact .inl before
        · nomatch waits
      · intro other inside
        rcases spec.inWrite other inside with before | ⟨_, _, waits⟩
        · exact .inl before
        · nomatch waits
      · rw [add_zero]
        rfl
      · rw [add_zero]
        rfl
      · intro _ _ _
        rfl
      · refine ⟨?_, ?_, fine.future⟩
        · have ordered := (List.pairwise_append.mp fine.ordered).1
          simpa [Activity.held, Activity.pending] using ordered
        · intro some member
          apply fine.present some
          simp only [Activity.held, Activity.pending, List.append_nil] at member
          exact List.mem_append_left _ member

theorem Workers.Sound.released (sound : state.Sound sha256 used)
    {sections : List SectionCall} {held : List Gate} {gate : Gate}
    (found : state.workers[thread]? = some ⟨sections, .releasing (gate :: held)⟩)
    (fine : Worker.Sound used ⟨sections, .releasing (gate :: held)⟩) :
    (state.step sha256 thread).Sound sha256 used := by
  have idle : ∀ mode key,
      ¬(⟨sections, .releasing (gate :: held)⟩ : Worker).Takes sha256 mode key := by
    rintro mode key ⟨_, _, _, acquires, _⟩
    nomatch acquires
  have outside : ∀ mode key, ¬state.Takes sha256 mode key thread := by
    rintro mode key ⟨worker, held, takes⟩
    rw [found] at held
    cases held
    exact idle mode key takes
  have counted := @holds_cons sha256 sections sections
    (.releasing (gate :: held)) (.releasing held) gate rfl
  have holding : 0 < state.holds sha256 gate.mode (lockKey sha256 gate.name) thread := by
    rw [Workers.holds, found, Option.elim_some, counted, if_pos ⟨rfl, rfl⟩]
    omega
  have spec : Released gate.mode thread (state.locks (lockKey sha256 gate.name))
      (gate.mode.release thread (state.locks (lockKey sha256 gate.name))).2 := by
    have locked := sound.locks (lockKey sha256 gate.name)
    have awake := sound.awake (lockKey sha256 gate.name)
    have reads := sound.reads (lockKey sha256 gate.name) thread
    have writes := sound.writes (lockKey sha256 gate.name) thread
    cases mode : gate.mode with
    | shared =>
        rw [mode] at holding
        exact releaseRead_spec locked (reads ▸ holding)
    | exclusive =>
        rw [mode] at holding
        exact releaseWrite_spec locked awake (by omega)
  simp only [Workers.step, found]
  refine sound.update found (locks_withLock state _) (getElem?_become _ found) spec.sound
    spec.awake ?_ ?_ (fun other _ mode takes => absurd takes (idle mode other)) spec.moves
    ?_ ?_ ?_ ?_
  · intro other inside
    rw [spec.inRead] at inside
    refine .inl ⟨inside, ?_⟩
    rintro rfl
    exact outside _ _ (sound.reading _ other inside)
  · intro other inside
    rw [spec.inWrite] at inside
    refine .inl ⟨inside, ?_⟩
    rintro rfl
    exact outside _ _ (sound.writing _ other inside)
  · rw [counted, Mode.release_reads]
    cases gate.mode <;> simp
  · rw [counted, Mode.release_writes]
    cases gate.mode <;> simp
  · intro other away mode
    rw [counted, if_neg fun same => away same.2.symm, add_zero]
  · refine ⟨?_, ?_, fine.future⟩
    · have ordered := fine.ordered
      simp only [Activity.held, Activity.pending, List.append_nil, List.reverse_cons] at ordered ⊢
      exact (List.pairwise_append.mp ordered).1
    · intro some member
      apply fine.present some
      simp only [Activity.held, Activity.pending, List.append_nil] at member ⊢
      exact List.mem_cons_of_mem _ member

/-- The stripped scopes are taken in increasing order. -/
theorem orderedScopes_increasing (scopes : List String) :
    (orderedScopes scopes).Pairwise (· < ·) := by
  have sorted : (orderedScopes scopes).Pairwise (· ≤ ·) := List.pairwise_insertionSort _ _
  have distinct : (orderedScopes scopes).Nodup :=
    (List.perm_insertionSort _ _).nodup_iff.mpr (List.nodup_dedup _)
  exact (sorted.and distinct).imp fun both => lt_of_le_of_ne both.1 both.2

theorem mem_orderedScopes {scopes : List String} {scope : String}
    (member : scope ∈ orderedScopes scopes) : strip scope = scope := by
  rw [orderedScopes, List.mem_insertionSort, List.mem_dedup, List.mem_filter, List.mem_map] at member
  rcases member with ⟨⟨given, _, rfl⟩, _⟩
  exact strip_strip given

theorem SectionCall.gates_ordered (entered : SectionCall) :
    entered.gates.Pairwise fun first second => first.name < second.name := by
  have below : ∀ first second scope,
      (globalGate first).name < (scopeGate second scope).name :=
    fun _ _ scope => WithBot.bot_lt_coe (strip scope)
  cases entered with
  | readLock scope =>
      cases scope with
      | none => exact List.pairwise_singleton _ _
      | some scope => exact List.pairwise_pair.mpr (below .shared .shared scope)
  | readLocks scopes =>
      rw [SectionCall.gates, List.pairwise_cons, List.pairwise_map]
      constructor
      · intro gate member
        rcases List.mem_map.mp member with ⟨scope, _, rfl⟩
        exact below .shared .shared scope
      · refine (orderedScopes_increasing scopes).imp_of_mem ?_
        intro first second firstMember secondMember increasing
        apply WithBot.coe_lt_coe.mpr
        rw [mem_orderedScopes firstMember, mem_orderedScopes secondMember]
        exact increasing
  | writeLock scope =>
      cases scope with
      | none => exact List.pairwise_singleton _ _
      | some scope => exact List.pairwise_pair.mpr (below .shared .exclusive scope)

theorem Workers.Sound.step (sound : state.Sound sha256 used) (thread : Nat) :
    (state.step sha256 thread).Sound sha256 used := by
  cases found : state.workers[thread]? with
  | none =>
      rw [Workers.step, found]
      exact sound
  | some worker =>
      have fine := sound.workers worker (List.mem_of_getElem? found)
      rcases worker with ⟨sections, activity⟩
      have idle : (∀ held gate pending, activity ≠ .acquiring held (gate :: pending)) →
          ∀ mode key, ¬(⟨sections, activity⟩ : Worker).Takes sha256 mode key := by
        rintro other mode key ⟨held, gate, pending, acquires, _⟩
        exact other held gate pending acquires
      match activity with
      | .idle =>
          cases sections with
          | nil =>
              simp only [Workers.step, found]
              exact sound
          | cons entered rest =>
              simp only [Workers.step, found]
              refine sound.become found (idle (by simp)) ?_ ⟨entered.gates_ordered, ?_, ?_⟩
              · rfl
              · intro gate member
                exact fine.future entered List.mem_cons_self gate member
              · intro later member
                exact fine.future later (List.mem_cons_of_mem _ member)
      | .acquiring held [] =>
          simp only [Workers.step, found]
          refine sound.become found (idle (by simp)) ?_ ⟨?_, fine.present, fine.future⟩
          · rfl
          · simpa [Activity.held, Activity.pending] using fine.ordered
      | .acquiring held (gate :: pending) => exact sound.attempted found fine
      | .releasing [] =>
          simp only [Workers.step, found]
          refine sound.become found (idle (by simp)) ?_ ⟨fine.ordered, fine.present, fine.future⟩
          rfl
      | .releasing (gate :: held) => exact sound.released found fine

end

/-! ## Runs -/

/-- The names of the locks that the sections take. -/
def gateNames (programs : List (List SectionCall)) : List (WithBot String) :=
  programs.flatten.flatMap fun entered => entered.gates.map Gate.name

theorem ThreadLock.Awake.empty : (ThreadLock.empty : ThreadLock Nat).Awake where
  inside _ impossible := by simp [ThreadLock.empty] at impossible
  behind _ impossible := by simp [ThreadLock.empty] at impossible

theorem launch_sound (sha256 : String → String) (programs : List (List SectionCall)) :
    (Workers.start programs).Sound sha256 (· ∈ gateNames programs) := by
  have holds : ∀ mode key thread, (Workers.start programs).holds sha256 mode key thread = 0 := by
    intro mode key thread
    rw [Workers.holds, Workers.start, List.getElem?_map]
    cases programs[thread]? <;> rfl
  refine ⟨fun _ => .empty, fun _ => .empty, ?_, ?_, ?_, ?_, ?_⟩
  · intro key thread impossible
    simp [Workers.start, ThreadLock.empty] at impossible
  · intro key thread impossible
    simp [Workers.start, ThreadLock.empty] at impossible
  · intro key thread
    rw [holds]
    rfl
  · intro key thread
    rw [holds]
    rfl
  · intro worker member
    rcases List.mem_map.mp member with ⟨sections, given, rfl⟩
    refine ⟨.nil, by rintro gate ⟨⟩, ?_⟩
    intro entered among gate taken
    rw [gateNames, List.mem_flatMap]
    exact ⟨entered, List.mem_flatten.mpr ⟨sections, given, among⟩, List.mem_map_of_mem taken⟩

theorem section_run_sound (sha256 : String → String) (programs : List (List SectionCall))
    (threads : List Nat) :
    (sectionRun sha256 programs threads).Sound sha256 (· ∈ gateNames programs) :=
  run_invariant (fun _ => True) (fun thread _ _ sound => sound.step thread) threads
    (fun _ _ => trivial) (launch_sound sha256 programs)

/-! ## Waiting -/

section

variable {sha256 : String → String} {used : WithBot String → Prop} {state : Workers}
  {lock : ThreadLock Nat} {thread : Nat}

/-- Somebody has entered a lock that a writer waits for. -/
theorem writer_behind (sound : lock.Sound)
    (waits : lock.writer ≠ none ∨ lock.readers.entries ≠ []) :
    ∃ holder, 0 < lock.depth holder ∨ 0 < lock.written holder := by
  by_cases free : lock.writer = none
  · rcases List.exists_mem_of_ne_nil _ (waits.resolve_left (not_not.mpr free)) with
      ⟨⟨reader, depth⟩, member⟩
    have found := Dictionary.get?_eq_some.mpr member
    refine ⟨reader, .inl ?_⟩
    rw [ThreadLock.depth, found, Option.getD_some]
    exact sound.positive reader depth found
  · rcases Option.ne_none_iff_exists'.mp free with ⟨holder, writes⟩
    refine ⟨holder, .inr ?_⟩
    rw [ThreadLock.written, if_pos writes]
    exact sound.writing holder writes

theorem passWrite_waits (waits : (lock.passWrite thread).1 = .waits) :
    lock.writer ≠ none ∨ lock.readers.entries ≠ [] := by
  rw [ThreadLock.passWrite] at waits
  split at waits
  · rename_i busy
    simpa [Option.isSome_iff_ne_none] using busy
  · cases waits

theorem passRead_waits {held : Bool} (waits : (lock.passRead thread held).1 = .waits) :
    lock.writer ≠ none ∨ 0 < lock.waitingWriters := by
  rw [ThreadLock.passRead] at waits
  split at waits
  · rename_i busy
    rw [Bool.and_eq_true, Bool.or_eq_true, Option.isSome_iff_ne_none, decide_eq_true_eq] at busy
    exact busy.2
  · cases waits

theorem acquireWrite_waits (waits : (lock.acquireWrite thread).1 = .waits) :
    lock.writer ≠ none ∨ lock.readers.entries ≠ [] := by
  rw [ThreadLock.acquireWrite] at waits
  split at waits
  · cases waits
  · split at waits
    · cases waits
    · exact @passWrite_waits { lock with waitingWriters := lock.waitingWriters + 1 } thread waits

/-- A thread holds what a lock says it holds. -/
theorem Workers.Sound.holder (sound : state.Sound sha256 used) {key : String} {holder : Nat}
    (holds : 0 < (state.locks key).depth holder ∨ 0 < (state.locks key).written holder) :
    ∃ worker gate, state.workers[holder]? = some worker ∧ gate ∈ worker.activity.held ∧
      lockKey sha256 gate.name = key := by
  have counted : ∃ mode, 0 < state.holds sha256 mode key holder := by
    rcases holds with reads | writes
    · exact ⟨.shared, sound.reads key holder ▸ reads⟩
    · have same := sound.writes key holder
      exact ⟨.exclusive, by omega⟩
  rcases counted with ⟨mode, counted⟩
  rw [Workers.holds] at counted
  cases found : state.workers[holder]? with
  | none =>
      rw [found] at counted
      cases counted
  | some worker =>
      rw [found, Option.elim_some, Worker.holds, List.countP_pos_iff] at counted
      rcases counted with ⟨gate, member, same⟩
      rw [Bool.and_eq_true, decide_eq_true_eq, decide_eq_true_eq] at same
      exact ⟨worker, gate, rfl, member, same.2⟩

/-- The lock of a waiting writer has been entered. -/
theorem Workers.Sound.writer_waits (sound : state.Sound sha256 used) {worker : Worker}
    {held pending : List Gate} {gate : Gate} (found : state.workers[thread]? = some worker)
    (acquires : worker.activity = .acquiring held (gate :: pending))
    (exclusive : gate.mode = .exclusive)
    (waits : thread ∈ (state.locks (lockKey sha256 gate.name)).blocked ∨
      (gate.mode.attempt thread (state.locks (lockKey sha256 gate.name))).1 = .waits) :
    ∃ holder, 0 < (state.locks (lockKey sha256 gate.name)).depth holder ∨
      0 < (state.locks (lockKey sha256 gate.name)).written holder := by
  apply writer_behind (sound.locks _)
  rcases waits with sleeps | waits
  · rcases (sound.awake _).inside thread sleeps with reading | writing
    · rcases sound.reading _ thread reading with ⟨other, held, takes⟩
      rw [found] at held
      cases held
      have shared := (takes.key_eq acquires).1
      rw [exclusive] at shared
      nomatch shared
    · by_contra free
      rw [not_or, not_not, not_not] at free
      exact (sound.locks _).notified free.1 free.2 thread writing sleeps
  · rw [exclusive, Mode.attempt] at waits
    split at waits
    · exact passWrite_waits waits
    · exact acquireWrite_waits waits

/-- A reader waits for a writer, which has entered its lock or waits for it. -/
theorem Workers.Sound.reader_waits (sound : state.Sound sha256 used) {worker : Worker}
    {held pending : List Gate} {gate : Gate} (found : state.workers[thread]? = some worker)
    (acquires : worker.activity = .acquiring held (gate :: pending))
    (shared : gate.mode = .shared)
    (waits : thread ∈ (state.locks (lockKey sha256 gate.name)).blocked ∨
      (gate.mode.attempt thread (state.locks (lockKey sha256 gate.name))).1 = .waits) :
    (state.locks (lockKey sha256 gate.name)).writer ≠ none ∨
      ∃ other, state.Takes sha256 .exclusive (lockKey sha256 gate.name) other := by
  have behind : (state.locks (lockKey sha256 gate.name)).writer ≠ none ∨
      0 < (state.locks (lockKey sha256 gate.name)).waitingWriters := by
    rcases waits with sleeps | waits
    · rcases (sound.awake _).inside thread sleeps with reading | writing
      · exact (sound.awake _).behind thread reading sleeps
      · rcases sound.writing _ thread writing with ⟨other, held, takes⟩
        rw [found] at held
        cases held
        have exclusive := (takes.key_eq acquires).1
        rw [shared] at exclusive
        nomatch exclusive
    · rw [shared, Mode.attempt] at waits
      split at waits
      · exact passRead_waits waits
      · exact passRead_waits waits
  apply behind.imp_right
  intro several
  rw [(sound.locks _).waiting, Int.natCast_pos, Finset.card_pos] at several
  rcases several with ⟨other, writing⟩
  exact ⟨other, sound.writing _ other writing⟩

/-- If all that is unfinished waits, each thread waits behind one that holds its lock. -/
theorem Workers.Sound.waits_behind (sound : state.Sound sha256 used)
    (stuck : ∀ (thread : Nat) worker, state.workers[thread]? = some worker →
      worker.unfinished = true → state.Blocked sha256 thread)
    {worker : Worker} {held pending : List Gate} {gate : Gate}
    (found : state.workers[thread]? = some worker)
    (acquires : worker.activity = .acquiring held (gate :: pending)) :
    ∃ holder, 0 < (state.locks (lockKey sha256 gate.name)).depth holder ∨
      0 < (state.locks (lockKey sha256 gate.name)).written holder := by
  have waits : ∀ {thread : Nat} {worker : Worker} {held pending : List Gate} {gate : Gate},
      state.workers[thread]? = some worker →
      worker.activity = .acquiring held (gate :: pending) →
      thread ∈ (state.locks (lockKey sha256 gate.name)).blocked ∨
        (gate.mode.attempt thread (state.locks (lockKey sha256 gate.name))).1 = .waits := by
    intro thread worker held pending gate found acquires
    have unfinished : worker.unfinished = true := by
      rw [Worker.unfinished, acquires]
    rcases stuck thread worker found unfinished with ⟨other, _, _, _, same, acquired, waits⟩
    rw [found] at same
    cases same
    rw [acquires] at acquired
    cases acquired
    exact waits
  cases mode : gate.mode with
  | exclusive => exact sound.writer_waits found acquires mode (waits found acquires)
  | shared =>
      rcases sound.reader_waits found acquires mode (waits found acquires) with writes | behind
      · exact writer_behind (sound.locks _) (.inl writes)
      · rcases behind with ⟨other, writer, writing, _, wanted, _, takes, exclusive, same⟩
        have entered := sound.writer_waits writing takes exclusive (waits writing takes)
        rw [same] at entered
        exact entered

/-- The lock a thread is about to take. -/
def Workers.awaited (state : Workers) (thread : Nat) : WithBot String :=
  ((state.workers[thread]?).bind fun worker => worker.activity.pending.head?).elim ⊥ Gate.name

theorem Workers.awaited_eq {worker : Worker} {held pending : List Gate} {gate : Gate}
    (found : state.workers[thread]? = some worker)
    (acquires : worker.activity = .acquiring held (gate :: pending)) :
    state.awaited thread = gate.name := by
  rw [Workers.awaited, found, Option.bind_some, acquires]
  rfl

/-- If all that is unfinished waits, each waits behind a thread that waits for a later lock. -/
theorem Workers.Sound.awaits_later (sound : state.Sound sha256 used)
    (separate : ∀ first second, used first → used second →
      lockKey sha256 first = lockKey sha256 second → first = second)
    (stuck : ∀ (thread : Nat) worker, state.workers[thread]? = some worker →
      worker.unfinished = true → state.Blocked sha256 thread)
    (blocked : state.Blocked sha256 thread) :
    ∃ holder, state.Blocked sha256 holder ∧ state.awaited thread < state.awaited holder := by
  rcases blocked with ⟨worker, held, gate, pending, found, acquires, _⟩
  rcases sound.waits_behind stuck found acquires with ⟨holder, entered⟩
  rcases sound.holder entered with ⟨other, taken, present, member, same⟩
  have unfinished : other.unfinished = true := by
    rcases other with ⟨sections, activity⟩
    cases activity with
    | idle => nomatch member
    | acquiring _ _ => rfl
    | releasing _ => rfl
  have blocked := stuck holder other present unfinished
  refine ⟨holder, blocked, ?_⟩
  rcases blocked with ⟨_, earlier, next, later, again, acquiring, _⟩
  rw [present] at again
  cases again
  rw [Workers.awaited_eq found acquires, Workers.awaited_eq present acquiring]
  have fine := sound.workers other (List.mem_of_getElem? present)
  have here := sound.workers worker (List.mem_of_getElem? found)
  have named : taken.name = gate.name := by
    apply separate _ _ (fine.present taken (List.mem_append_left _ member)) ?_ same
    apply here.present gate
    rw [acquires]
    exact List.mem_append_right _ List.mem_cons_self
  rw [← named]
  have ordered := fine.ordered
  rw [List.pairwise_append] at ordered
  apply ordered.2.2 taken (List.mem_reverse.mpr member) next
  rw [acquiring]
  exact List.mem_cons_self

end

/-- As long as the digests keep the scopes apart, some unfinished thread does not wait. -/
theorem section_run_progress (sha256 : String → String) (programs : List (List SectionCall))
    (separate : ∀ first ∈ gateNames programs, ∀ second ∈ gateNames programs,
      lockKey sha256 first = lockKey sha256 second → first = second) (threads : List Nat) :
    (∃ (thread : Nat) (worker : Worker),
      (sectionRun sha256 programs threads).workers[thread]? = some worker ∧
      worker.unfinished = true) →
    ∃ (thread : Nat) (worker : Worker),
      (sectionRun sha256 programs threads).workers[thread]? = some worker ∧
      worker.unfinished = true ∧ ¬(sectionRun sha256 programs threads).Blocked sha256 thread := by
  have sound := section_run_sound sha256 programs threads
  generalize sectionRun sha256 programs threads = state at sound
  rintro ⟨first, worker, found, unfinished⟩
  by_contra none
  have stuck : ∀ (thread : Nat) worker, state.workers[thread]? = some worker →
      worker.unfinished = true → state.Blocked sha256 thread := by
    intro thread worker found unfinished
    by_contra free
    exact none ⟨thread, worker, found, unfinished, free⟩
  -- among the waiting threads, take one that waits for a last lock
  have finite : {thread | state.Blocked sha256 thread}.Finite := by
    apply (Set.finite_lt_nat state.workers.length).subset
    rintro thread ⟨_, _, _, _, found, _⟩
    exact (List.getElem?_eq_some_iff.mp found).1
  rcases Set.exists_max_image _ state.awaited finite ⟨first, stuck first worker found unfinished⟩
    with ⟨last, blocked, greatest⟩
  rcases sound.awaits_later (fun first second used wanted => separate first used second wanted)
    stuck blocked with ⟨holder, waits, later⟩
  exact absurd (greatest holder waits) (not_le.mpr later)

/-- The digests of two scopes. -/
def sampleDigest (scope : String) : String :=
  if scope = "docs" then "46b42b4229cd7a39c564e780bb665a8bde4fdf722007e8473f167fe53ed4b995"
  else "ab5aa97074c454a0632057e704220d9a6678fbf773a0a5806fc09b8173b07309"

/-- A query over two scopes and a writer of one of them. -/
def samplePrograms : List (List SectionCall) :=
  [[.readLocks ["notes", " docs"]], [.writeLock (some "docs")]]

theorem section_run_progress_sample :
    ∃ (thread : Nat) (worker : Worker),
      (sectionRun sampleDigest samplePrograms [0, 0, 1, 1]).workers[thread]? = some worker ∧
      worker.unfinished = true ∧
      ¬(sectionRun sampleDigest samplePrograms [0, 0, 1, 1]).Blocked sampleDigest thread :=
  section_run_progress sampleDigest samplePrograms (by decide +kernel) [0, 0, 1, 1]
    ⟨1, _, rfl, rfl⟩

end RAGuardian.Lifecycle
