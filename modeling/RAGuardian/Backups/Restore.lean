import Mathlib.Logic.Function.Basic
import RAGuardian.Foundation.Handlers

/-! # Restoring a backup

`_restore_backup_locked` once a verified backup is unpacked. Copies are prepared next to
their targets; then each target is set aside and its copy takes its place. A failure takes
the swaps back. -/

namespace RAGuardian.Backups

open Fallible

variable {Content : Type}

/-! ## Files -/

/-- A path by its parts. -/
abbrev Path := List String

inductive Sidecar
  | wal
  | shm
deriving DecidableEq, Repr

/-- The paths a restore handles for a target: the target itself, its `.bak.` and its
`.restore.` neighbour, and the SQLite sidecars of the first two. -/
inductive Place
  | live
  | previous
  | copy
  | liveSidecar (sidecar : Sidecar)
  | previousSidecar (sidecar : Sidecar)
deriving DecidableEq, Repr

/-- What is stored for each target: a file, or a directory with all that is in it. -/
abbrev Files (Content : Type) := Path → Place → Option Content

namespace Files

def set (files : Files Content) (target : Path) (place : Place) (content : Option Content) :
    Files Content :=
  Function.update files target (Function.update (files target) place content)

/-- What is at the targets themselves. -/
def live (files : Files Content) (target : Path) : Option Content :=
  files target .live

end Files

/-- `target.suffix == ".db"` -/
def isDatabaseFile (target : Path) : Bool :=
  let name := (target.getLastD "").toList
  ['.', 'd', 'b'].isSuffixOf name && 3 < name.length

/-! ## Operations -/

inductive Failure
  | leaseLost
  | raised
deriving DecidableEq, Repr

/-- How an operation ends. One that fails leaves something in place of what it was to
delete or to copy, and nothing changed if it is a move. One that is late is done and
raises all the same. -/
inductive Outcome (Content : Type)
  | done
  | late
  | fails (left : Option Content)

inductive Phase
  | swap
  | recovery
deriving DecidableEq, Repr

/-- A running restore: the files, what the checks of the lease and the operations will
meet, and the lists it keeps. An entry of `swapped`, which has the newest first, tells
whether the target was set aside. -/
structure Machine (Content : Type) where
  files : Files Content
  healthy : List Bool
  outcomes : Phase → List (Outcome Content)
  swapped : List (Path × Bool)
  restoreDirs : List Path
  restoreFiles : List Path

abbrev Action (Content : Type) := EStateM Failure (Machine Content)

/-- The state after an operation that leaves these files. -/
def Machine.after (machine : Machine Content) (phase : Phase) (files : Files Content) :
    Machine Content :=
  { machine with
    files := files
    outcomes := Function.update machine.outcomes phase (machine.outcomes phase).tail }

def operate (phase : Phase) (perform : Files Content → Files Content)
    (partially : Option Content → Files Content → Files Content) : Action Content Unit :=
  fun machine =>
    match (machine.outcomes phase).headD .done with
    | .done => .ok () (machine.after phase (perform machine.files))
    | .late => .error .raised (machine.after phase (perform machine.files))
    | .fails left => .error .raised (machine.after phase (partially left machine.files))

/-- A step that changes no file the restore handles. -/
def attempt (phase : Phase) : Action Content Unit :=
  operate phase (fun files => files) fun _ files => files

/-- `assert_distributed_locks_healthy` -/
def assertLocksHealthy : Action Content Unit := fun machine =>
  let next := { machine with healthy := machine.healthy.tail }
  if machine.healthy.headD true then .ok () next else .error .leaseLost next

def present (target : Path) (place : Place) : Action Content Bool := do
  return ((← get).files target place).isSome

/-- `shutil.rmtree` and `unlink` -/
def remove (phase : Phase) (target : Path) (place : Place) : Action Content Unit :=
  operate phase (fun files => files.set target place none)
    fun left files => files.set target place left

/-- `_remove_path` -/
def removePath (phase : Phase) (target : Path) (place : Place) : Action Content Unit := do
  onlyIf (← present target place) (remove phase target place)

/-- `shutil.move` to a path where nothing is -/
def move (phase : Phase) (target : Path) (source destination : Place) : Action Content Unit :=
  operate phase
    (fun files => (files.set target destination (files target source)).set target source none)
    fun _ files => files

/-- A copy to the `.restore.` path -/
def copyTo (target : Path) (content : Content) : Action Content Unit :=
  operate .swap (fun files => files.set target .copy (some content))
    fun left files => files.set target .copy left

/-- `_remove_sqlite_sidecars` -/
def removeSidecars (phase : Phase) (target : Path) (place : Sidecar → Place) :
    Action Content Unit :=
  [Sidecar.wal, .shm].forM fun sidecar => remove phase target (place sidecar)

/-- `_move_sqlite_sidecars` -/
def moveSidecars (phase : Phase) (target : Path) (source destination : Sidecar → Place) :
    Action Content Unit :=
  [Sidecar.wal, .shm].forM fun sidecar => do
    onlyIf (← present target (source sidecar)) do
      removePath phase target (destination sidecar)
      move phase target (source sidecar) (destination sidecar)

/-- `swapped.append` -/
def note (entry : Path × Bool) : Action Content Unit :=
  modify fun machine => { machine with swapped := entry :: machine.swapped }

/-! ## The swaps -/

/-- The target is moved to its `.bak.` path. A move that raises is noted if it took
place. -/
def movePrevious (target : Path) : Action Content Unit :=
  handle (move .swap target .live .previous) fun failure => do
    onlyIf ((← present target .previous) && !(← present target .live)) (note (target, true))
    throw failure

/-- The target, if there is one, is moved away, and its swap is noted. -/
def setAside (target : Path) : Action Content Bool := do
  let live ← present target .live
  onlyIf live (movePrevious target)
  note (target, live)
  return live

/-- The body of the loop over the components -/
def swapComponent (target : Path) : Action Content Unit := do
  assertLocksHealthy
  onlyIf (← present target .previous) do
    assertLocksHealthy
    remove .swap target .previous
  assertLocksHealthy
  let _ ← setAside target
  assertLocksHealthy
  move .swap target .copy .live
  assertLocksHealthy

/-- The swap of the users database -/
def swapDatabase (target : Path) (source : Content) : Action Content Unit := do
  assertLocksHealthy
  attempt .swap
  removePath .swap target .copy
  copyTo target source
  attempt .swap
  modify fun machine => { machine with restoreFiles := machine.restoreFiles ++ [target] }
  removePath .swap target .previous
  removeSidecars .swap target .previousSidecar
  let live ← setAside target
  onlyIf live (moveSidecars .swap target .liveSidecar .previousSidecar)
  assertLocksHealthy
  removeSidecars .swap target .liveSidecar
  move .swap target .copy .live
  assertLocksHealthy

/-! ## The rollback -/

/-- What has come to the place of a target is removed. -/
def removeLive (target : Path) : Action Content Unit := do
  onlyIf (← present target .live) do
    remove .recovery target .live
    onlyIf (isDatabaseFile target) (removeSidecars .recovery target .liveSidecar)
    assertLocksHealthy

def bringBack (target : Path) : Action Content Unit := do
  assertLocksHealthy
  move .recovery target .previous .live
  onlyIf (isDatabaseFile target) (moveSidecars .recovery target .previousSidecar .liveSidecar)
  assertLocksHealthy

/-- The body of the loop of `_rollback_restore_components` -/
def rollbackComponent (entry : Path × Bool) : Action Content Unit := do
  assertLocksHealthy
  removeLive entry.1
  onlyIf (entry.2 && (← present entry.1 .previous)) (bringBack entry.1)

/-- `_rollback_restore_components` -/
def rollbackRestoreComponents : Action Content Unit := do
  let swapped := (← get).swapped
  onlyIf (!swapped.isEmpty) do
    assertLocksHealthy
    swapped.forM rollbackComponent
    modify fun machine => { machine with swapped := [] }

/-- Any exception but a lost lease is followed by a rollback. -/
def rollingBack (action : Action Content Unit) : Action Content Unit :=
  handle action fun failure =>
    match failure with
    | .leaseLost => throw .leaseLost
    | .raised => do
        rollbackRestoreComponents
        throw .raised

/-! ## The restore -/

/-- The prepared components, the users database if it has a swap of its own, and the
validations of what is live afterwards. -/
structure RestorePlan (Content : Type) where
  components : List (Path × Content)
  usersDatabase : Option (Path × Content)
  validations : List ((Path → Option Content) → Bool)

/-- The preparation of a component. -/
def prepare (component : Path × Content) : Action Content Unit := do
  attempt .swap
  removePath .swap component.1 .copy
  copyTo component.1 component.2
  modify fun machine => { machine with restoreDirs := machine.restoreDirs ++ [component.1] }

/-- The inner `try` statement -/
def swapAll (plan : RestorePlan Content) : Action Content Unit :=
  rollingBack do
    plan.components.forM fun component => swapComponent component.1
    plan.usersDatabase.toList.forM fun database => swapDatabase database.1 database.2

def validate (validation : (Path → Option Content) → Bool) : Action Content Unit := do
  attempt .swap
  onlyIf (!validation (← get).files.live) (throw .raised)

/-- The body of the outer `try` statement: `attempt` stands for the resets of caches and
for the publication of the generation. -/
def restoreSteps (plan : RestorePlan Content) : Action Content Unit := do
  plan.components.forM prepare
  assertLocksHealthy
  attempt .swap
  swapAll plan
  assertLocksHealthy
  plan.validations.forM validate
  assertLocksHealthy
  attempt .swap
  assertLocksHealthy
  attempt .swap

/-- The `finally` clause. The removal of a directory ignores errors. -/
def removeCopies : Action Content Unit := do
  (← get).restoreDirs.forM fun target =>
    handle (removePath .recovery target .copy) fun _ => pure ()
  (← get).restoreFiles.forM fun target => removePath .recovery target .copy

/-- `_restore_backup_locked` -/
def restoreBackup (plan : RestorePlan Content) : Action Content Unit :=
  ensure (rollingBack (restoreSteps plan)) removeCopies

end RAGuardian.Backups
