import RAGuardian.Lifecycle.ThreadLock

/-! # Writer exclusion

A writer is alone but for its own reads, the counters of a lock are those of the calls
that have returned, and no writer sleeps on a free lock. -/

namespace RAGuardian.Lifecycle

open Execution

variable {Thread : Type} [DecidableEq Thread]

namespace ThreadLock

/-! ## Locks -/

structure Sound (lock : ThreadLock Thread) : Prop where
  exclusive : ∀ holder reader depth, lock.writer = some holder →
    lock.readers.get? reader = some depth → reader = holder
  positive : ∀ reader depth, lock.readers.get? reader = some depth → 0 < depth
  writing : ∀ holder, lock.writer = some holder → 0 < lock.writerDepth
  separate : ∀ thread ∈ lock.inRead, thread ∉ lock.inWrite
  waiting : lock.waitingWriters = lock.inWrite.card
  notified : lock.writer = none → lock.readers.entries = [] →
    ∀ thread ∈ lock.inWrite, thread ∉ lock.blocked

theorem Sound.empty : (empty : ThreadLock Thread).Sound where
  exclusive _ _ _ impossible := nomatch impossible
  positive _ _ impossible := nomatch impossible
  writing _ impossible := nomatch impossible
  separate _ impossible := by simp [ThreadLock.empty] at impossible
  waiting := rfl
  notified _ _ _ impossible := by simp [ThreadLock.empty] at impossible

theorem depth_pos {lock : ThreadLock Thread} {thread : Thread} (held : 0 < lock.depth thread) :
    ∃ depth, lock.readers.get? thread = some depth := by
  rw [depth] at held
  cases found : lock.readers.get? thread with
  | none =>
      rw [found] at held
      cases held
  | some depth => exact ⟨depth, rfl⟩

theorem entries_of_get? {readers : Dictionary Thread Nat} {thread : Thread} {depth : Nat}
    (found : readers.get? thread = some depth) : readers.entries ≠ [] :=
  List.ne_nil_of_mem (Dictionary.get?_eq_some.mp found)

section

variable {lock : ThreadLock Thread} {thread : Thread}

/-- A reader is added when no other thread writes. -/
theorem Sound.addReader (sound : lock.Sound) (outside : thread ∉ lock.inWrite)
    (free : ∀ holder, lock.writer = some holder → thread = holder) :
    Sound { lock.leave thread with
      readers := lock.readers.set thread (lock.depth thread + 1) } := by
  have added : (lock.readers.set thread (lock.depth thread + 1)).get? thread =
      some (lock.depth thread + 1) :=
    Dictionary.get?_set_self _ _ _
  constructor
  · intro holder reader depth writes reads
    by_cases same : reader = thread
    · rw [same]
      exact free holder writes
    · rw [Dictionary.get?_set_of_ne same] at reads
      exact sound.exclusive holder reader depth writes reads
  · intro reader depth reads
    by_cases same : reader = thread
    · rw [same, added] at reads
      cases reads
      exact Nat.succ_pos _
    · rw [Dictionary.get?_set_of_ne same] at reads
      exact sound.positive reader depth reads
  · exact sound.writing
  · intro other inside writing
    exact sound.separate other (Finset.mem_of_mem_erase inside) (Finset.mem_of_mem_erase writing)
  · rw [ThreadLock.leave, Finset.erase_eq_of_notMem outside]
    exact sound.waiting
  · intro _ empty
    exact absurd empty (entries_of_get? added)

theorem Sound.passRead (sound : lock.Sound) (outside : thread ∉ lock.inWrite) {held : Bool}
    (holds : held = true → lock.writer = some thread ∨ 0 < lock.depth thread) :
    (lock.passRead thread held).2.Sound := by
  rw [ThreadLock.passRead]
  split
  · refine ⟨sound.exclusive, sound.positive, sound.writing, ?_, sound.waiting, ?_⟩
    · intro other inside
      rcases Finset.mem_insert.mp inside with rfl | before
      · exact outside
      · exact sound.separate other before
    · intro unwritten unread other writing blocked
      rcases Finset.mem_insert.mp blocked with rfl | before
      · exact outside writing
      · exact sound.notified unwritten unread other writing before
  · rename_i passes
    apply sound.addReader outside
    intro holder writes
    cases held with
    | false => simp [writes] at passes
    | true =>
        rcases holds rfl with writer | reading
        · rw [writer] at writes
          exact Option.some.inj writes
        · rcases depth_pos reading with ⟨depth, reads⟩
          exact sound.exclusive holder thread depth writes reads

theorem Sound.acquireRead (sound : lock.Sound) (outside : thread ∉ lock.inWrite) :
    (lock.acquireRead thread).2.Sound := by
  apply sound.passRead outside
  intro held
  simpa using held

theorem Sound.releaseRead (sound : lock.Sound) : (lock.releaseRead thread).2.Sound := by
  rw [ThreadLock.releaseRead]
  dsimp only
  split
  · exact sound
  · rename_i held
    have within : ∀ reader depth,
        (if lock.depth thread = 1 then lock.readers.erase thread
          else lock.readers.set thread (lock.depth thread - 1)).get? reader = some depth →
        0 < depth ∧ ∃ before, lock.readers.get? reader = some before := by
      intro reader depth reads
      split at reads
      · have before := Dictionary.get?_of_erase reads
        exact ⟨sound.positive reader depth before, depth, before⟩
      · rename_i several
        by_cases same : reader = thread
        · rw [same, Dictionary.get?_set_self] at reads
          cases reads
          rw [same]
          exact ⟨by omega, depth_pos (by omega)⟩
        · rw [Dictionary.get?_set_of_ne same] at reads
          exact ⟨sound.positive reader depth reads, depth, reads⟩
    refine ⟨?_, ?_, sound.writing, sound.separate, sound.waiting, ?_⟩
    · intro holder reader depth writes reads
      rcases (within reader depth reads).2 with ⟨before, held⟩
      exact sound.exclusive holder reader before writes held
    · intro reader depth reads
      exact (within reader depth reads).1
    · intro _ _ other _ impossible
      cases impossible

/-- The last step of `acquire_write`, of a thread that counts as waiting. -/
theorem Sound.passWrite (sound : lock.Sound) (outside : thread ∉ lock.inRead) {count : Int}
    (counted : count = (insert thread lock.inWrite).card) :
    ({ lock with waitingWriters := count }.passWrite thread).2.Sound := by
  rw [ThreadLock.passWrite]
  dsimp only
  split
  · rename_i busy
    refine ⟨sound.exclusive, sound.positive, sound.writing, ?_, counted, ?_⟩
    · intro other inside writing
      rcases Finset.mem_insert.mp writing with rfl | before
      · exact outside inside
      · exact sound.separate other inside before
    · intro unwritten unread
      dsimp only at unwritten unread
      simp [unwritten, unread] at busy
  · rename_i free
    have unread : ∀ reader depth, lock.readers.get? reader ≠ some depth := by
      intro reader depth reads
      apply free
      simp [entries_of_get? reads]
    constructor
    · intro holder reader depth _ reads
      exact absurd reads (unread reader depth)
    · intro reader depth reads
      exact absurd reads (unread reader depth)
    · intro _ _
      exact Int.one_pos
    · intro other inside writing
      exact sound.separate other (Finset.mem_of_mem_erase inside) (Finset.mem_of_mem_erase writing)
    · rw [counted, ThreadLock.leave]
      dsimp only
      by_cases waited : thread ∈ lock.inWrite
      · rw [Finset.insert_eq_of_mem waited, Finset.card_erase_of_mem waited]
        have positive := Finset.card_pos.mpr ⟨thread, waited⟩
        omega
      · rw [Finset.card_insert_of_notMem waited, Finset.erase_eq_of_notMem waited]
        omega
    · intro impossible
      cases impossible

theorem Sound.acquireWrite (sound : lock.Sound) (outside : thread ∉ lock.inRead)
    (idle : thread ∉ lock.inWrite) : (lock.acquireWrite thread).2.Sound := by
  rw [ThreadLock.acquireWrite]
  split
  · rename_i writes
    refine ⟨sound.exclusive, sound.positive, ?_, sound.separate, sound.waiting, sound.notified⟩
    intro holder writing
    have positive := sound.writing holder writing
    dsimp only
    omega
  · split
    · exact sound
    · apply sound.passWrite outside
      rw [Finset.card_insert_of_notMem idle, sound.waiting]
      omega

theorem Sound.releaseWrite (sound : lock.Sound) : (lock.releaseWrite thread).2.Sound := by
  rw [ThreadLock.releaseWrite]
  split
  · exact sound
  · dsimp only
    split
    · refine ⟨?_, sound.positive, ?_, sound.separate, sound.waiting, ?_⟩
      · intro holder reader depth impossible
        cases impossible
      · intro holder impossible
        cases impossible
      · intro _ _ other _ impossible
        cases impossible
    · rename_i writes several
      refine ⟨sound.exclusive, sound.positive, ?_, sound.separate, sound.waiting, sound.notified⟩
      intro holder writing
      have positive := sound.writing holder writing
      dsimp only
      omega

theorem Sound.interrupt (sound : lock.Sound) : (lock.interrupt thread).Sound := by
  have separate : ∀ other ∈ lock.inRead.erase thread, other ∉ lock.inWrite.erase thread := by
    intro other inside writing
    exact sound.separate other (Finset.mem_of_mem_erase inside) (Finset.mem_of_mem_erase writing)
  have notified : lock.writer = none → lock.readers.entries = [] →
      ∀ other ∈ lock.inWrite.erase thread, other ∉ lock.blocked.erase thread := by
    intro unwritten unread other writing blocked
    exact sound.notified unwritten unread other (Finset.mem_of_mem_erase writing)
      (Finset.mem_of_mem_erase blocked)
  rw [ThreadLock.interrupt]
  split
  · rename_i waited
    refine ⟨sound.exclusive, sound.positive, sound.writing, separate, ?_, notified⟩
    have positive := Finset.card_pos.mpr ⟨thread, waited⟩
    rw [ThreadLock.leave]
    dsimp only
    rw [Finset.card_erase_of_mem waited, sound.waiting]
    omega
  · rename_i idle
    refine ⟨sound.exclusive, sound.positive, sound.writing, separate, ?_, notified⟩
    rw [ThreadLock.leave]
    dsimp only
    rw [Finset.erase_eq_of_notMem idle]
    exact sound.waiting

end

/-! ## Depths -/

/-- What a thread holds of the writer depth. -/
def written (thread : Thread) (lock : ThreadLock Thread) : Int :=
  if lock.writer = some thread then lock.writerDepth else 0

/-- The depths of the thread have changed by these numbers, and no other depth has. -/
structure Moved (thread : Thread) (reads writes : Int) (before after : ThreadLock Thread) :
    Prop where
  depth : ∀ other, (after.depth other : Int) =
    before.depth other + if other = thread then reads else 0
  written : ∀ other, after.written other =
    before.written other + if other = thread then writes else 0

theorem Moved.still {thread : Thread} {before after : ThreadLock Thread}
    (readers : after.readers = before.readers) (writer : after.writer = before.writer)
    (writerDepth : after.writerDepth = before.writerDepth) : Moved thread 0 0 before after where
  depth other := by simp [ThreadLock.depth, readers]
  written other := by simp [ThreadLock.written, writer, writerDepth]

end ThreadLock

/-- What a call does to the depths once it returns. -/
def LockCall.reads : LockCall → Int
  | .acquireRead => 1
  | .releaseRead => -1
  | _ => 0

def LockCall.writes : LockCall → Int
  | .acquireWrite => 1
  | .releaseWrite => -1
  | _ => 0

/-- A call that returns moves the depths of its thread, and one that does not moves
none. -/
def LockCall.Moves (method : LockCall) (thread : Thread) (before : ThreadLock Thread) :
    LockReply × ThreadLock Thread → Prop
  | (.returned _, after) => ThreadLock.Moved thread method.reads method.writes before after
  | (_, after) => ThreadLock.Moved thread 0 0 before after

section

variable {lock : ThreadLock Thread} {thread : Thread}

open ThreadLock

theorem getD_set (readers : Dictionary Thread Nat) (thread other : Thread) (depth : Nat) :
    ((readers.set thread depth).get? other).getD 0 =
      if other = thread then depth else (readers.get? other).getD 0 := by
  split
  · rename_i same
    rw [same, Dictionary.get?_set_self, Option.getD_some]
  · rename_i different
    rw [Dictionary.get?_set_of_ne different]

theorem getD_erase (readers : Dictionary Thread Nat) (thread other : Thread) :
    ((readers.erase thread).get? other).getD 0 =
      if other = thread then 0 else (readers.get? other).getD 0 := by
  split
  · rename_i same
    rw [same, Dictionary.get?_erase_self, Option.getD_none]
  · rename_i different
    rw [Dictionary.get?_erase_of_ne different]

theorem passRead_moves (held : Bool) :
    LockCall.acquireRead.Moves thread lock (lock.passRead thread held) := by
  rw [passRead]
  split
  · exact .still rfl rfl rfl
  · constructor
    · intro other
      simp only [ThreadLock.depth, getD_set, LockCall.reads]
      split
      · rename_i same
        rw [same]
        omega
      · omega
    · intro other
      simp only [LockCall.writes, ite_self, add_zero]
      rfl

theorem releaseRead_moves : LockCall.releaseRead.Moves thread lock (lock.releaseRead thread) := by
  rw [releaseRead]
  dsimp only
  split
  · exact .still rfl rfl rfl
  · rename_i held
    constructor
    · intro other
      have after : ThreadLock.depth other { lock with
            readers := if lock.depth thread = 1 then lock.readers.erase thread
              else lock.readers.set thread (lock.depth thread - 1) } =
          if other = thread then lock.depth thread - 1 else lock.depth other := by
        split
        · rename_i last
          rw [last]
          exact getD_erase lock.readers thread other
        · exact getD_set lock.readers thread other _
      rw [LockCall.reads]
      refine (congrArg Nat.cast after).trans ?_
      split
      · rename_i same
        rw [same]
        omega
      · omega
    · intro other
      simp only [LockCall.writes, ite_self, add_zero]
      rfl

theorem passWrite_moves (count : Int) : LockCall.acquireWrite.Moves thread lock
    ({ lock with waitingWriters := count }.passWrite thread) := by
  rw [passWrite]
  dsimp only
  split
  · exact .still rfl rfl rfl
  · rename_i free
    have unwritten : lock.writer = none := by
      cases writer : lock.writer with
      | none => rfl
      | some holder => simp [writer] at free
    constructor
    · intro other
      simp [ThreadLock.depth, LockCall.reads, ThreadLock.leave]
    · intro other
      simp [ThreadLock.written, LockCall.writes, unwritten, eq_comm]

theorem acquireWrite_moves :
    LockCall.acquireWrite.Moves thread lock (lock.acquireWrite thread) := by
  rw [acquireWrite]
  split
  · rename_i writes
    constructor
    · intro other
      simp [ThreadLock.depth, LockCall.reads]
    · intro other
      simp only [ThreadLock.written, LockCall.writes, writes, Option.some.injEq]
      by_cases same : thread = other
      · simp [same]
      · simp [same, Ne.symm same]
  · split
    · exact .still rfl rfl rfl
    · exact passWrite_moves _

theorem releaseWrite_moves :
    LockCall.releaseWrite.Moves thread lock (lock.releaseWrite thread) := by
  rw [releaseWrite]
  split
  · exact .still rfl rfl rfl
  · rename_i writes
    rw [not_not] at writes
    dsimp only
    split
    · rename_i last
      constructor
      · intro other
        simp [ThreadLock.depth, LockCall.reads, ThreadLock.notifyAll]
      · intro other
        simp only [ThreadLock.written, LockCall.writes, ThreadLock.notifyAll, writes,
          Option.some.injEq]
        by_cases same : thread = other
        · simp [same]
          omega
        · simp [same, Ne.symm same]
    · constructor
      · intro other
        simp [ThreadLock.depth, LockCall.reads]
      · intro other
        simp only [ThreadLock.written, LockCall.writes, writes, Option.some.injEq]
        by_cases same : thread = other
        · simp [same]
          omega
        · simp [same, Ne.symm same]

theorem LockCall.perform_moves (method : LockCall) :
    method.Moves thread lock (method.perform thread lock) := by
  cases method with
  | acquireRead => exact passRead_moves _
  | releaseRead => exact releaseRead_moves
  | acquireWrite => exact acquireWrite_moves
  | releaseWrite => exact releaseWrite_moves

end

/-! ## Runs -/

/-- A sound lock whose depths are those of the calls that have returned. -/
structure LockHistory.Sound (history : LockHistory Thread) : Prop where
  lock : history.lock.Sound
  reads : ∀ thread, (history.lock.depth thread : Int) =
    balance thread .acquireRead .releaseRead history.log
  writes : ∀ thread, history.lock.written thread =
    balance thread .acquireWrite .releaseWrite history.log

theorem balance_concat (thread other : Thread) (acquire release method : LockCall)
    (log : List (Thread × LockCall)) :
    balance thread acquire release (log ++ [(other, method)]) =
      balance thread acquire release log +
        ((if (other, method) = (thread, acquire) then 1 else 0) -
          if (other, method) = (thread, release) then 1 else 0) := by
  simp only [balance, List.count_append, List.count_singleton, beq_iff_eq]
  split <;> split <;> omega

theorem LockHistory.Sound.kept {history : LockHistory Thread} (sound : history.Sound)
    {lock : ThreadLock Thread} (kept : lock.Sound) {thread : Thread}
    (still : ThreadLock.Moved thread 0 0 history.lock lock) :
    LockHistory.Sound { history with lock := lock } := by
  refine ⟨kept, ?_, ?_⟩
  · intro other
    have same := still.depth other
    rw [ite_self, add_zero] at same
    exact same.trans (sound.reads other)
  · intro other
    have same := still.written other
    rw [ite_self, add_zero] at same
    exact same.trans (sound.writes other)

theorem LockHistory.Sound.record {history : LockHistory Thread} (sound : history.Sound)
    {thread : Thread} {method : LockCall} {outcome : LockReply × ThreadLock Thread}
    (kept : outcome.2.Sound) (moves : method.Moves thread history.lock outcome) :
    (history.record thread method outcome).Sound := by
  rcases outcome with ⟨reply, lock⟩
  cases reply with
  | returned outermost =>
      refine ⟨kept, ?_, ?_⟩
      · intro other
        rw [LockHistory.record, balance_concat, moves.depth, sound.reads]
        by_cases same : thread = other
        · subst same
          cases method <;> simp [LockCall.reads]
        · cases method <;> simp [same, Ne.symm same]
      · intro other
        rw [LockHistory.record, balance_concat, moves.written, sound.writes]
        by_cases same : thread = other
        · subst same
          cases method <;> simp [LockCall.writes]
        · cases method <;> simp [same, Ne.symm same]
  | raised message => exact sound.kept kept moves
  | waits => exact sound.kept kept moves

theorem LockEvent.after_sound (event : LockEvent Thread) {history : LockHistory Thread}
    (sound : history.Sound) : (event.after history).Sound := by
  cases event with
  | call thread method =>
      rw [LockEvent.after]
      split
      · exact sound
      · rename_i outside
        rw [not_or] at outside
        refine sound.record ?_ (method.perform_moves)
        cases method with
        | acquireRead => exact sound.lock.acquireRead outside.2
        | releaseRead => exact sound.lock.releaseRead
        | acquireWrite => exact sound.lock.acquireWrite outside.1 outside.2
        | releaseWrite => exact sound.lock.releaseWrite
  | wake thread =>
      rw [LockEvent.after]
      split
      · rename_i reading
        refine sound.record ?_ (passRead_moves false)
        exact sound.lock.passRead (sound.lock.separate thread reading) fun held => nomatch held
      · split
        · rename_i outside writing
          refine sound.record ?_ (passWrite_moves history.lock.waitingWriters)
          apply sound.lock.passWrite outside
          rw [Finset.insert_eq_of_mem writing]
          exact sound.lock.waiting
        · exact sound
  | interrupt thread =>
      have fields : (history.lock.interrupt thread).readers = history.lock.readers ∧
          (history.lock.interrupt thread).writer = history.lock.writer ∧
          (history.lock.interrupt thread).writerDepth = history.lock.writerDepth := by
        rw [ThreadLock.interrupt]
        split <;> exact ⟨rfl, rfl, rfl⟩
      have still : ThreadLock.Moved thread 0 0 history.lock (history.lock.interrupt thread) :=
        .still fields.1 fields.2.1 fields.2.2
      exact sound.kept sound.lock.interrupt still

theorem run_lock_sound (events : List (LockEvent Thread)) : (lockRun events).Sound := by
  apply run_invariant (fun _ => True) (fun event history _ sound => event.after_sound sound)
    events (fun _ _ => trivial)
  refine ⟨.empty, ?_, ?_⟩
  · intro thread
    rfl
  · intro thread
    rfl

/-- In every state of a lock, a writer is the only reader, depths are the calls that
have returned, `waiting_writers` counts the threads in `acquire_write`, and no writer
sleeps while the lock is free. -/
theorem run_writer_exclusion (Thread : Type) [DecidableEq Thread]
    (events : List (LockEvent Thread)) :
    (∀ writer reader, (lockRun events).lock.writer = some writer →
      0 < (lockRun events).lock.depth reader → reader = writer) ∧
    (∀ thread, ((lockRun events).lock.depth thread : Int) =
      balance thread .acquireRead .releaseRead (lockRun events).log) ∧
    (∀ thread, (lockRun events).lock.written thread =
      balance thread .acquireWrite .releaseWrite (lockRun events).log) ∧
    (lockRun events).lock.waitingWriters = (lockRun events).lock.inWrite.card ∧
    ((lockRun events).lock.writer = none → (∀ reader, (lockRun events).lock.depth reader = 0) →
      ∀ thread ∈ (lockRun events).lock.inWrite, thread ∉ (lockRun events).lock.blocked) := by
  have sound := run_lock_sound events
  refine ⟨?_, sound.reads, sound.writes, sound.lock.waiting, ?_⟩
  · intro writer reader writes reads
    rcases ThreadLock.depth_pos reads with ⟨depth, found⟩
    exact sound.lock.exclusive writer reader depth writes found
  · intro unwritten unread
    apply sound.lock.notified unwritten
    rw [List.eq_nil_iff_forall_not_mem]
    rintro ⟨reader, depth⟩ member
    have found := Dictionary.get?_eq_some.mpr member
    have none := unread reader
    rw [ThreadLock.depth, found, Option.getD_some] at none
    have positive := sound.lock.positive reader depth found
    omega

end RAGuardian.Lifecycle
