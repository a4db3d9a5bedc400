import Mathlib.Data.List.Dedup
import Mathlib.Data.List.Sort
import Mathlib.Data.String.Basic
import Mathlib.Order.WithBot
import RAGuardian.Foundation.Text
import RAGuardian.Lifecycle.ThreadLock

/-! # Lifecycle sections of one process

`lifecycle_read_lock`, `lifecycle_read_locks` and `lifecycle_write_lock` over the locks
of the process: one global and one for each scope. The threads of the process run
sections one after the other. -/

namespace RAGuardian.Lifecycle

open Execution Text

/-! ## Gates -/

inductive Mode
  | shared
  | exclusive
deriving DecidableEq

/-- A lock a section takes: the global one, or that of a scope by its stripped name. -/
structure Gate where
  name : WithBot String
  mode : Mode
deriving DecidableEq

def globalGate (mode : Mode) : Gate := ⟨⊥, mode⟩

def scopeGate (mode : Mode) (scope : String) : Gate := ⟨(strip scope : String), mode⟩

/-- `_lifecycle_scope_key` of a stripped scope, with the digest of the interpreter's
`hashlib`. -/
def lockKey (sha256 : String → String) : WithBot String → String
  | none => "global"
  | some scope => truncate 20 (sha256 scope)

/-- The stripped scopes of `lifecycle_read_locks`, sorted. -/
def orderedScopes (scopes : List String) : List String :=
  (((scopes.map strip).filter (· ≠ "")).dedup).insertionSort (· ≤ ·)

/-! ## Sections -/

inductive SectionCall
  | readLock (scope : Option String)
  | readLocks (scopes : List String)
  | writeLock (scope : Option String)

/-- The locks of a section, in the order in which it takes them. -/
def SectionCall.gates : SectionCall → List Gate
  | .readLock none => [globalGate .shared]
  | .readLock (some scope) => [globalGate .shared, scopeGate .shared scope]
  | .readLocks scopes => globalGate .shared :: (orderedScopes scopes).map (scopeGate .shared)
  | .writeLock none => [globalGate .exclusive]
  | .writeLock (some scope) => [globalGate .shared, scopeGate .exclusive scope]

/-! ## Threads -/

/-- A thread takes the locks of its section, runs the body, and releases them in the
opposite order. -/
inductive Activity
  | idle
  | acquiring (held pending : List Gate)
  | releasing (held : List Gate)

structure Worker where
  sections : List SectionCall
  activity : Activity := .idle

/-- The locks by their keys, and the threads by their numbers. -/
structure Workers where
  locks : String → ThreadLock Nat
  workers : List Worker

/-- Take a lock, or go on in the loop of its method. -/
def Mode.attempt (thread : Nat) (lock : ThreadLock Nat) : Mode → LockReply × ThreadLock Nat
  | .shared =>
      if thread ∈ lock.inRead then lock.passRead thread false else lock.acquireRead thread
  | .exclusive =>
      if thread ∈ lock.inWrite then lock.passWrite thread else lock.acquireWrite thread

def Mode.release (thread : Nat) (lock : ThreadLock Nat) : Mode → LockReply × ThreadLock Nat
  | .shared => lock.releaseRead thread
  | .exclusive => lock.releaseWrite thread

def Workers.withLock (key : String) (lock : ThreadLock Nat) (state : Workers) : Workers :=
  { state with locks := fun other => if other = key then lock else state.locks other }

def Workers.become (thread : Nat) (worker : Worker) (state : Workers) : Workers :=
  { state with workers := state.workers.set thread worker }

/-- A step of one thread. A thread that waits tests its loop again, notified or not. -/
def Workers.step (sha256 : String → String) (thread : Nat) (state : Workers) : Workers :=
  match state.workers[thread]? with
  | none => state
  | some worker =>
      match worker.activity with
      | .idle =>
          match worker.sections with
          | [] => state
          | entered :: rest => state.become thread ⟨rest, .acquiring [] entered.gates⟩
      | .acquiring held [] => state.become thread { worker with activity := .releasing held }
      | .acquiring held (gate :: pending) =>
          let key := lockKey sha256 gate.name
          match gate.mode.attempt thread (state.locks key) with
          | (.returned _, lock) =>
              (state.withLock key lock).become thread
                { worker with activity := .acquiring (gate :: held) pending }
          | (.waits, lock) => state.withLock key lock
          | (.raised _, lock) =>
              (state.withLock key lock).become thread { worker with activity := .releasing held }
      | .releasing [] => state.become thread { worker with activity := .idle }
      | .releasing (gate :: held) =>
          let key := lockKey sha256 gate.name
          (state.withLock key (gate.mode.release thread (state.locks key)).2).become thread
            { worker with activity := .releasing held }

/-- The threads of a process, each with its sections. -/
def Workers.start (programs : List (List SectionCall)) : Workers where
  locks := fun _ => .empty
  workers := programs.map fun sections => ⟨sections, .idle⟩

def sectionRun (sha256 : String → String) (programs : List (List SectionCall))
    (threads : List Nat) : Workers :=
  run (Workers.step sha256) (.start programs) threads

/-! ## Progress -/

def Worker.unfinished (worker : Worker) : Bool :=
  match worker.activity, worker.sections with
  | .idle, [] => false
  | _, _ => true

/-- The thread waits for a lock: nothing has notified it, or its loop would go on. -/
def Workers.Blocked (sha256 : String → String) (state : Workers) (thread : Nat) : Prop :=
  ∃ worker held gate pending, state.workers[thread]? = some worker ∧
    worker.activity = .acquiring held (gate :: pending) ∧
    (thread ∈ (state.locks (lockKey sha256 gate.name)).blocked ∨
      (gate.mode.attempt thread (state.locks (lockKey sha256 gate.name))).1 = .waits)

end RAGuardian.Lifecycle
