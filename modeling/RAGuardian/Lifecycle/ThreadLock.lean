import Mathlib.Data.Finset.Card
import RAGuardian.Foundation.Dictionary
import RAGuardian.Foundation.Execution

/-! # The lock of one process

`_ThreadReadWriteLock`. Its methods run under the monitor of a condition, which they
release only in `wait`; what a method does between two waits is one step. -/

namespace RAGuardian.Lifecycle

open Execution

/-! ## State -/

/-- The fields of a lock, the threads in the loops of `acquire_read` and
`acquire_write`, and those of them that wait without having been notified. -/
structure ThreadLock (Thread : Type) where
  readers : Dictionary Thread Nat
  writer : Option Thread
  writerDepth : Int
  waitingWriters : Int
  inRead : Finset Thread
  inWrite : Finset Thread
  blocked : Finset Thread

inductive LockReply
  | returned (outermost : Bool)
  | raised (message : String)
  | waits
deriving DecidableEq

namespace ThreadLock

def empty {Thread : Type} : ThreadLock Thread where
  readers := ⟨[], List.nodup_nil⟩
  writer := none
  writerDepth := 0
  waitingWriters := 0
  inRead := ∅
  inWrite := ∅
  blocked := ∅

variable {Thread : Type} [DecidableEq Thread]

/-- `self._readers.get(thread_id, 0)` -/
def depth (thread : Thread) (lock : ThreadLock Thread) : Nat :=
  (lock.readers.get? thread).getD 0

/-- `self._condition.notify_all()` -/
def notifyAll (lock : ThreadLock Thread) : ThreadLock Thread :=
  { lock with blocked := ∅ }

/-- The thread has left its loop. -/
def leave (thread : Thread) (lock : ThreadLock Thread) : ThreadLock Thread :=
  { lock with
    inRead := lock.inRead.erase thread
    inWrite := lock.inWrite.erase thread
    blocked := lock.blocked.erase thread }

/-- `acquire_read` from the test of its loop on. -/
def passRead (thread : Thread) (alreadyHeld : Bool) (lock : ThreadLock Thread) :
    LockReply × ThreadLock Thread :=
  if !alreadyHeld && (lock.writer.isSome || 0 < lock.waitingWriters) then
    (.waits, { lock with
      inRead := insert thread lock.inRead
      blocked := insert thread lock.blocked })
  else
    (.returned !alreadyHeld, { lock.leave thread with
      readers := lock.readers.set thread (lock.depth thread + 1) })

/-- `acquire_read` -/
def acquireRead (thread : Thread) (lock : ThreadLock Thread) : LockReply × ThreadLock Thread :=
  lock.passRead thread (lock.writer = some thread || 0 < lock.depth thread)

/-- `release_read` -/
def releaseRead (thread : Thread) (lock : ThreadLock Thread) : LockReply × ThreadLock Thread :=
  let depth := lock.depth thread
  if depth = 0 then (.raised "Lifecycle read lock is not held", lock)
  else
    let readers :=
      if depth = 1 then lock.readers.erase thread else lock.readers.set thread (depth - 1)
    (.returned true, { lock with readers := readers }.notifyAll)

/-- `acquire_write` from the test of its loop on. -/
def passWrite (thread : Thread) (lock : ThreadLock Thread) : LockReply × ThreadLock Thread :=
  if lock.writer.isSome || !lock.readers.entries.isEmpty then
    (.waits, { lock with
      inWrite := insert thread lock.inWrite
      blocked := insert thread lock.blocked })
  else
    (.returned true, { lock.leave thread with
      writer := some thread
      writerDepth := 1
      waitingWriters := lock.waitingWriters - 1 })

/-- `acquire_write` -/
def acquireWrite (thread : Thread) (lock : ThreadLock Thread) : LockReply × ThreadLock Thread :=
  if lock.writer = some thread then
    (.returned false, { lock with writerDepth := lock.writerDepth + 1 })
  else if lock.depth thread ≠ 0 then
    (.raised "Lifecycle lock cannot be upgraded from read to write", lock)
  else { lock with waitingWriters := lock.waitingWriters + 1 }.passWrite thread

/-- `release_write` -/
def releaseWrite (thread : Thread) (lock : ThreadLock Thread) : LockReply × ThreadLock Thread :=
  if lock.writer ≠ some thread then (.raised "Lifecycle write lock is not held", lock)
  else
    let writerDepth := lock.writerDepth - 1
    if writerDepth = 0 then
      (.returned true, { lock with writerDepth := 0, writer := none }.notifyAll)
    else (.returned true, { lock with writerDepth := writerDepth })

/-- `wait` raises in a loop. Only `acquire_write` cleans up. -/
def interrupt (thread : Thread) (lock : ThreadLock Thread) : ThreadLock Thread :=
  if thread ∈ lock.inWrite then
    { lock.leave thread with waitingWriters := lock.waitingWriters - 1 }
  else lock.leave thread

end ThreadLock

/-! ## Runs -/

inductive LockCall
  | acquireRead
  | releaseRead
  | acquireWrite
  | releaseWrite
deriving DecidableEq

/-- A thread outside the loops calls a method; one inside wakes up, notified or not, or
its wait raises. -/
inductive LockEvent (Thread : Type)
  | call (thread : Thread) (method : LockCall)
  | wake (thread : Thread)
  | interrupt (thread : Thread)

/-- A lock and the calls that have returned, oldest first. -/
structure LockHistory (Thread : Type) where
  lock : ThreadLock Thread
  log : List (Thread × LockCall)

variable {Thread : Type} [DecidableEq Thread]

def LockCall.perform (thread : Thread) (lock : ThreadLock Thread) :
    LockCall → LockReply × ThreadLock Thread
  | .acquireRead => lock.acquireRead thread
  | .releaseRead => lock.releaseRead thread
  | .acquireWrite => lock.acquireWrite thread
  | .releaseWrite => lock.releaseWrite thread

/-- The state after a step of a call. -/
def LockHistory.record (thread : Thread) (method : LockCall)
    (outcome : LockReply × ThreadLock Thread) (history : LockHistory Thread) :
    LockHistory Thread :=
  match outcome with
  | (.returned _, lock) => ⟨lock, history.log ++ [(thread, method)]⟩
  | (_, lock) => { history with lock := lock }

def LockEvent.after : LockEvent Thread → LockHistory Thread → LockHistory Thread
  | .call thread method, history =>
      if thread ∈ history.lock.inRead ∨ thread ∈ history.lock.inWrite then history
      else history.record thread method (method.perform thread history.lock)
  | .wake thread, history =>
      if thread ∈ history.lock.inRead then
        history.record thread .acquireRead (history.lock.passRead thread false)
      else if thread ∈ history.lock.inWrite then
        history.record thread .acquireWrite (history.lock.passWrite thread)
      else history
  | .interrupt thread, history => { history with lock := history.lock.interrupt thread }

def lockRun (events : List (LockEvent Thread)) : LockHistory Thread :=
  run LockEvent.after ⟨.empty, []⟩ events

/-- Calls of one method less those of the other. -/
def balance (thread : Thread) (acquire release : LockCall) (log : List (Thread × LockCall)) : Int :=
  log.count (thread, acquire) - log.count (thread, release)

end RAGuardian.Lifecycle
