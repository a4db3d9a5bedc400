import RAGuardian.Foundation.Concurrency
import RAGuardian.Foundation.Dictionary

/-! # Lifecycle generations

Processes share a counter of published writer sections. A process that enters a
section compares the counter with the number it has observed, and runs its
invalidators when they differ. -/

namespace RAGuardian.Lifecycle

open Concurrency

/-! ## State -/

/-- What happens to the counter and to the invalidators. -/
inductive Effect (Process Callback : Type)
  | registered (process : Process) (name : String) (callback : Callback)
  | published (process : Process)
  | ran (process : Process) (callback : Callback)
deriving DecidableEq

/-- `_OBSERVED_LIFECYCLE_GENERATIONS` and `_LIFECYCLE_INVALIDATORS` of one process. -/
structure ProcessState (Callback : Type) where
  observed : Option Nat
  invalidators : Dictionary String Callback

def ProcessState.empty {Callback : Type} : ProcessState Callback := ⟨none, .empty⟩

/-- The shared counter, every process, and all effects, oldest first. -/
structure Epochs (Process Callback : Type) where
  generation : Nat
  processes : Process → ProcessState Callback
  log : List (Effect Process Callback)

variable {Process Callback : Type} [DecidableEq Process]

namespace Epochs

def empty : Epochs Process Callback := ⟨0, fun _ => .empty, []⟩

def change (process : Process) (update : ProcessState Callback → ProcessState Callback)
    (epochs : Epochs Process Callback) : Epochs Process Callback :=
  { epochs with
    processes := fun other =>
      if other = process then update (epochs.processes other) else epochs.processes other }

def record (effect : Effect Process Callback) (epochs : Epochs Process Callback) :
    Epochs Process Callback :=
  { epochs with log := epochs.log ++ [effect] }

end Epochs

/-! ## Requests -/

/-- Steps of the functions below. A `read` also takes what the process has observed and
registered, which its lock protects until the function returns. -/
inductive EpochRequest (Process Callback : Type)
  | register (process : Process) (name : String) (callback : Callback)
  | callbacks (process : Process)
  | invoke (process : Process) (callback : Callback)
  | read (process : Process)
  | increment (process : Process)
  | observe (process : Process) (generation : Nat)
  | body (process : Process)

structure Reading (Callback : Type) where
  current : Nat
  observed : Option Nat
  callbacks : List Callback

@[reducible] def EpochRequest.Response : EpochRequest Process Callback → Type
  | .register _ _ _ => Unit
  | .callbacks _ => List Callback
  | .invoke _ _ => Bool
  | .read _ => Option (Reading Callback)
  | .increment _ => Option Nat
  | .observe _ _ => Unit
  | .body _ => Bool

/-- How a step ends: it may raise, without effect or after it. -/
inductive Fate
  | returns
  | refused
  | unanswered
deriving DecidableEq

/-- A counter in a file that cannot be read counts as zero. -/
structure EpochDraw where
  fate : Fate := .returns
  readable : Bool := true

namespace ProcessState

def callbacks (process : ProcessState Callback) : List Callback :=
  process.invalidators.entries.map Prod.snd

end ProcessState

/-- `_increment_lifecycle_generation` -/
def nextGeneration (draw : EpochDraw) (generation : Nat) : Nat :=
  if draw.readable then generation + 1 else 1

def EpochRequest.execute (draw : EpochDraw) :
    (request : EpochRequest Process Callback) → Epochs Process Callback →
      request.Response × Epochs Process Callback
  | .register process name callback, epochs =>
      ((), (epochs.change process fun state =>
          { state with invalidators := state.invalidators.set name callback }).record
        (.registered process name callback))
  | .callbacks process, epochs => ((epochs.processes process).callbacks, epochs)
  | .invoke process callback, epochs =>
      match draw.fate with
      | .returns => (true, epochs.record (.ran process callback))
      | _ => (false, epochs)
  | .read process, epochs =>
      match draw.fate with
      | .returns =>
          (some ⟨if draw.readable then epochs.generation else 0,
            (epochs.processes process).observed, (epochs.processes process).callbacks⟩, epochs)
      | _ => (none, epochs)
  | .increment process, epochs =>
      let generation := nextGeneration draw epochs.generation
      let published := { epochs with generation := generation }.record (.published process)
      match draw.fate with
      | .returns => (some generation, published)
      | .refused => (none, epochs)
      | .unanswered => (none, published)
  | .observe process generation, epochs =>
      ((), epochs.change process fun state => { state with observed := some generation })
  | .body _, epochs => (draw.fate = .returns, epochs)

/-! ## Functions -/

abbrev EpochProgram (Process Callback α : Type) :=
  Program (EpochRequest Process Callback) EpochRequest.Response α

/-- Run callbacks until one raises. -/
def runCallbacks (process : Process) : List Callback → EpochProgram Process Callback Bool
  | [] => .done true
  | callback :: rest =>
      .call (.invoke process callback) fun
        | true => runCallbacks process rest
        | false => .done false

/-- `invalidate_lifecycle_caches` -/
def invalidateLifecycleCaches (process : Process) : EpochProgram Process Callback Bool :=
  .call (.callbacks process) (runCallbacks process)

/-- `synchronize_lifecycle_generation`, `none` when it raises. -/
def synchronizeLifecycleGeneration (process : Process) :
    EpochProgram Process Callback (Option Nat) :=
  .call (.read process) fun
    | none => .done none
    | some reading =>
        match reading.observed with
        | none => .call (.observe process reading.current) fun _ => .done (some reading.current)
        | some observed =>
            if reading.current = observed then .done (some reading.current)
            else
              (runCallbacks process reading.callbacks).bind fun
                | false => .done none
                | true =>
                    if reading.callbacks.isEmpty then .done (some reading.current)
                    else
                      .call (.observe process reading.current) fun _ =>
                        .done (some reading.current)

/-- `bump_lifecycle_generation`, `none` when it raises. -/
def bumpLifecycleGeneration (process : Process) : EpochProgram Process Callback (Option Nat) :=
  .call (.increment process) fun
    | none => .done none
    | some generation =>
        .call (.observe process generation) fun _ => .done (some generation)

/-- A lifecycle section. It synchronizes when its acquisition of the global lock is the
outermost of its thread, and publishes as `_lifecycle_lock` is told to. -/
structure Section (Process : Type) where
  process : Process
  synchronizes : Bool
  publishes : Bool

/-- `_lifecycle_lock` between its acquisitions and releases: whether it returns. The
body is published also when it raises. -/
def lifecycleSection (entered : Section Process) : EpochProgram Process Callback Bool :=
  (if entered.synchronizes then synchronizeLifecycleGeneration entered.process
    else .done (some 0)).bind fun
      | none => .done false
      | some _ =>
          .call (.body entered.process) fun succeeded =>
            if entered.publishes then
              (bumpLifecycleGeneration entered.process).bind fun bumped =>
                .done (succeeded && bumped.isSome)
            else .done succeeded

/-! ## The system -/

inductive EpochCall (Process Callback : Type)
  | register (process : Process) (name : String) (callback : Callback)
  | invalidate (process : Process)
  | enter (entered : Section Process)

def EpochCall.program : EpochCall Process Callback → EpochProgram Process Callback Bool
  | .register process name callback => .call (.register process name callback) fun _ => .done true
  | .invalidate process => invalidateLifecycleCaches process
  | .enter entered => lifecycleSection entered

/-- The processes. The locks of a section and of a process forbid some orders of these
steps; here every order is allowed. -/
def epochSystem (Process Callback : Type) [DecidableEq Process] :
    System (EpochRequest Process Callback) EpochRequest.Response EpochDraw
      (Epochs Process Callback) (EpochCall Process Callback) (fun _ => Bool) where
  execute := EpochRequest.execute
  program := EpochCall.program
  excludes _ _ := false

end RAGuardian.Lifecycle
