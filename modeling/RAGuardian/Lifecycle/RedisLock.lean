import Mathlib.Data.Finset.Basic
import RAGuardian.Foundation.Execution

/-! # The lifecycle lock in Redis

`_RedisLifecycleLock`, command by command. A reader registers a key of its own under the
gate, and a writer keeps the gate while it polls for keys of readers. Leases are renewed in
time, so nothing expires. -/

namespace RAGuardian.Lifecycle

open Execution

/-! ## Redis -/

/-- The gate with the attempt whose token it has, and the keys of readers by their
attempts. -/
structure LockStore where
  gate : Option Nat
  readers : Finset Nat
deriving DecidableEq

namespace LockStore

/-- The token is set if there is none. -/
def acquire (attempt : Nat) (store : LockStore) : LockStore :=
  if store.gate = none then { store with gate := some attempt } else store

/-- The gate is deleted if it has this token. -/
def release (attempt : Nat) (store : LockStore) : LockStore :=
  if store.gate = some attempt then { store with gate := none } else store

def setReader (attempt : Nat) (store : LockStore) : LockStore :=
  { store with readers := insert attempt store.readers }

def deleteReader (attempt : Nat) (store : LockStore) : LockStore :=
  { store with readers := store.readers.erase attempt }

end LockStore

/-! ## Attempts -/

/-- Where an attempt is. -/
inductive AttemptPhase
  | acquiring
  -- a reader has the gate and is about to set its key
  | setting
  -- `finally: self._gate.release()`
  | releasing
  -- about to start the renewer
  | starting
  -- a writer looks for keys of readers; those that were there when it began
  | scanning (present : Finset Nat)
  -- a writer has seen a key
  | polling
  | body
  -- `renewer.stop()` of `__exit__`
  | stopping
  -- a reader is about to delete its key and end
  | deleting
  -- a writer is about to release the gate and end
  | freeing
  | ended
deriving DecidableEq

/-- An attempt, with `self._reader_key is not None`, and whether a command that should
release the gate or delete the key has raised. -/
structure Attempt where
  shared : Bool
  phase : AttemptPhase := .acquiring
  readerKey : Bool := false
  releaseFailed : Bool := false
  deleteFailed : Bool := false
deriving DecidableEq

/-- A call returns, or raises. A command that raises may have taken effect, and what is
raised may be no `Exception`. -/
inductive CallOutcome
  | returns (value : Bool)
  | raises (effect fatal : Bool)

namespace Attempt

def goTo (phase : AttemptPhase) (attempt : Attempt) : Attempt :=
  { attempt with phase := phase }

/-- The handlers of a failed start and of a failed scan are `except Exception`. -/
def fail (fatal : Bool) (attempt : Attempt) : Attempt :=
  if fatal then attempt.goTo .ended
  else if attempt.shared then attempt.goTo .deleting
  else attempt.goTo .freeing

/-- One call of an attempt. -/
def step (self : Nat) (outcome : CallOutcome) (store : LockStore) (attempt : Attempt) :
    Attempt × LockStore :=
  match attempt.phase, outcome with
  | .acquiring, .returns true =>
      -- the call goes on for as long as another attempt has the gate
      if store.gate = none then
        (attempt.goTo (if attempt.shared then .setting else .starting), store.acquire self)
      else (attempt, store)
  | .acquiring, .returns false => (attempt.goTo .ended, store)
  | .acquiring, .raises effect _ =>
      (attempt.goTo .ended, if effect then store.acquire self else store)
  | .setting, .returns _ =>
      ({ attempt with phase := .releasing, readerKey := true }, store.setReader self)
  | .setting, .raises effect _ =>
      (attempt.goTo .releasing, if effect then store.setReader self else store)
  | .releasing, .returns _ =>
      -- without a key what the `SET` has raised goes on
      (attempt.goTo (if attempt.readerKey then .starting else .ended), store.release self)
  | .releasing, .raises effect fatal =>
      ({ attempt with
          phase := if attempt.readerKey && !fatal then .deleting else .ended
          releaseFailed := true },
        if effect then store.release self else store)
  | .starting, .returns _ =>
      (attempt.goTo (if attempt.shared then .body else .scanning store.readers), store)
  | .starting, .raises _ fatal => (attempt.fail fatal, store)
  | .scanning _, .returns true => (attempt.goTo .polling, store)
  | .scanning present, .returns false =>
      -- a scan reports the keys that are there from its beginning to its end
      if present ∩ store.readers = ∅ then (attempt.goTo .body, store) else (attempt, store)
  | .scanning _, .raises _ fatal => (attempt.fail fatal, store)
  | .polling, .returns _ => (attempt.goTo (.scanning store.readers), store)
  -- the lease is lost, the time is over, or the sleep is interrupted
  | .polling, .raises _ fatal => (attempt.fail fatal, store)
  | .body, _ => (attempt.goTo .stopping, store)
  | .stopping, .returns _ => (attempt.fail false, store)
  | .stopping, .raises _ _ => (attempt.goTo .ended, store)
  | .deleting, .returns _ => (attempt.goTo .ended, store.deleteReader self)
  | .deleting, .raises effect _ =>
      ({ attempt with phase := .ended, deleteFailed := true },
        if effect then store.deleteReader self else store)
  | .freeing, .returns _ => (attempt.goTo .ended, store.release self)
  | .freeing, .raises effect _ =>
      ({ attempt with phase := .ended, releaseFailed := true },
        if effect then store.release self else store)
  | .ended, _ => (attempt, store)

end Attempt

/-! ## Runs -/

/-- The attempts of all processes on one scope. -/
structure LockSystem where
  store : LockStore
  attempts : List Attempt

inductive LockAttemptEvent
  | enter (shared : Bool)
  | call (attempt : Nat) (outcome : CallOutcome)

def LockAttemptEvent.after : LockAttemptEvent → LockSystem → LockSystem
  | .enter shared, system => { system with attempts := system.attempts ++ [{ shared := shared }] }
  | .call self outcome, system =>
      match system.attempts[self]? with
      | none => system
      | some attempt =>
          let (attempt, store) := attempt.step self outcome system.store
          { store := store, attempts := system.attempts.set self attempt }

def redisLockRun (events : List LockAttemptEvent) : LockSystem :=
  run LockAttemptEvent.after ⟨⟨none, ∅⟩, []⟩ events

end RAGuardian.Lifecycle
