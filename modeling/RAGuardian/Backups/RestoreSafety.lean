import Mathlib.Data.List.Nodup
import RAGuardian.Backups.Restore

/-! # What a failing restore leaves

The list of swaps tells how to get back to the targets of the start. Each operation of a
restore keeps that true, and each step of a rollback takes one swap back. -/

namespace RAGuardian.Backups

open Fallible

/-- What was at the targets at the start, and whether the rollback meets no fault. -/
structure Start (Content : Type) where
  targets : Path → Option Content
  flawless : Prop

variable {Content : Type} {start : Start Content}
variable {noted : List (Path × Bool)} {machine next : Machine Content}

/-! ## Files -/

namespace Files

theorem set_apply (files : Files Content) (target other : Path) (place there : Place)
    (content : Option Content) :
    files.set target place content other there =
      if other = target ∧ there = place then content else files other there := by
  unfold set
  by_cases same : other = target
  · subst same
    by_cases equal : there = place
    · simp [equal]
    · simp [equal]
  · simp [same]

theorem set_of_ne (files : Files Content) {target other : Path} (different : other ≠ target)
    (place : Place) (content : Option Content) :
    files.set target place content other = files other := by
  funext there
  simp [set_apply, different]

theorem set_place_of_ne (files : Files Content) (target other : Path) {place there : Place}
    (different : there ≠ place) (content : Option Content) :
    files.set target place content other there = files other there := by
  simp [set_apply, different]

end Files

/-! ## Taking swaps back -/

/-- A swap is taken back. -/
def takeBack (files : Files Content) (entry : Path × Bool) : Files Content :=
  (files.set entry.1 .live (if entry.2 then files entry.1 .previous else none)).set
    entry.1 .previous (if entry.2 then none else files entry.1 .previous)

theorem takeBack_of_ne (files : Files Content) {entry : Path × Bool} {target : Path}
    (different : target ≠ entry.1) : takeBack files entry target = files target := by
  rw [takeBack, Files.set_of_ne _ different, Files.set_of_ne _ different]

theorem takeBack_live (files : Files Content) (entry : Path × Bool) :
    takeBack files entry entry.1 .live = if entry.2 then files entry.1 .previous else none := by
  simp [takeBack, Files.set_apply]

theorem takeBack_previous (files : Files Content) (entry : Path × Bool) :
    takeBack files entry entry.1 .previous =
      if entry.2 then none else files entry.1 .previous := by
  simp [takeBack, Files.set_apply]

/-- Taking the swaps back, the newest first, leads to what was at the targets. -/
def Undo (initial : Path → Option Content) (noted : List (Path × Bool))
    (files : Files Content) : Prop :=
  (noted.foldl takeBack files).live = initial

/-- Each target that there was is complete, in its place or set aside. -/
def Kept (initial : Path → Option Content) (files : Files Content) : Prop :=
  ∀ target content, initial target = some content →
    files target .live = some content ∨ files target .previous = some content

/-- Only what is set aside, and the targets that are not swapped, count for a list. -/
structure Agree (noted : List (Path × Bool)) (files after : Files Content) : Prop where
  live : ∀ target ∉ noted.map Prod.fst, after target .live = files target .live
  previous : ∀ target ∈ noted.map Prod.fst, after target .previous = files target .previous

theorem Undo.kept {initial : Path → Option Content} {files : Files Content}
    (undo : Undo initial noted files) : Kept initial files := by
  induction noted generalizing files with
  | nil => exact fun target content stored => .inl ((congrFun undo target).trans stored)
  | cons entry rest induction =>
      intro target content stored
      have later := induction undo target content stored
      by_cases same : target = entry.1
      · subst same
        rw [takeBack_live, takeBack_previous] at later
        cases aside : entry.2 <;> simp [aside] at later <;> exact .inr later
      · rwa [takeBack_of_ne _ same] at later

theorem Undo.agree {initial : Path → Option Content} {files after : Files Content}
    (undo : Undo initial noted files) (same : Agree noted files after) :
    Undo initial noted after := by
  induction noted generalizing files after with
  | nil => exact (funext fun target => same.live target (by simp)).trans undo
  | cons entry rest induction =>
      refine induction undo ⟨fun target unlisted => ?_, fun target listed => ?_⟩
      · by_cases equal : target = entry.1
        · rw [equal, takeBack_live, takeBack_live, same.previous entry.1 (by simp)]
        · rw [takeBack_of_ne _ equal, takeBack_of_ne _ equal, same.live target]
          simpa [equal] using unlisted
      · by_cases equal : target = entry.1
        · rw [equal, takeBack_previous, takeBack_previous, same.previous entry.1 (by simp)]
        · rw [takeBack_of_ne _ equal, takeBack_of_ne _ equal,
            same.previous target (List.mem_cons_of_mem _ listed)]

/-- A target that was set aside is noted. -/
theorem Undo.note {initial : Path → Option Content} {files after : Files Content}
    (undo : Undo initial noted files) {target : Path} {aside : Bool}
    (unlisted : target ∉ noted.map Prod.fst)
    (back : (if aside then after target .previous else none) = files target .live)
    (others : ∀ other, other ≠ target → after other = files other) :
    Undo initial ((target, aside) :: noted) after := by
  refine undo.agree ⟨fun other _ => ?_, fun other listed => ?_⟩
  · by_cases same : other = target
    · rw [same]
      exact (takeBack_live after (target, aside)).trans back
    · rw [takeBack_of_ne _ same, others other same]
  · have different : other ≠ target := fun equal => unlisted (equal ▸ listed)
    rw [takeBack_of_ne _ different, others other different]

/-! ## States of a restore -/

/-- The swaps `noted` can be taken back. -/
structure Tracked (start : Start Content) (noted : List (Path × Bool))
    (machine : Machine Content) : Prop where
  undo : Undo start.targets noted machine.files
  quiet : start.flawless → machine.outcomes .recovery = []

/-- All swaps are on the list. -/
def Noted (start : Start Content) (noted : List (Path × Bool))
    (machine : Machine Content) : Prop :=
  machine.swapped = noted ∧ Tracked start noted machine

/-- A failure before the rollback. -/
def Unwinding (start : Start Content) (_ : Failure) (machine : Machine Content) : Prop :=
  ∃ noted, Noted start noted machine

/-- A rollback that fails has lost nothing, and without a fault it fails by a lost lease
only. -/
def Halted (start : Start Content) (failure : Failure) (machine : Machine Content) : Prop :=
  Kept start.targets machine.files ∧
    (start.flawless → machine.outcomes .recovery = [] ∧ failure = .leaseLost)

/-- Neither a target nor what was set aside changes. -/
structure Frame (machine next : Machine Content) : Prop where
  live : ∀ target, next.files target .live = machine.files target .live
  previous : ∀ target, next.files target .previous = machine.files target .previous
  swapped : next.swapped = machine.swapped
  quiet : machine.outcomes .recovery = [] → next.outcomes .recovery = []

theorem Tracked.frame (tracked : Tracked start noted machine) (same : Frame machine next) :
    Tracked start noted next :=
  ⟨tracked.undo.agree ⟨fun target _ => same.live target, fun target _ => same.previous target⟩,
    fun flawless => same.quiet (tracked.quiet flawless)⟩

theorem Noted.frame (held : Noted start noted machine) (same : Frame machine next) :
    Noted start noted next :=
  ⟨same.swapped.trans held.1, held.2.frame same⟩

@[simp] theorem after_files (machine : Machine Content) (phase : Phase)
    (files : Files Content) : (machine.after phase files).files = files := rfl

theorem after_quiet (phase : Phase) (machine : Machine Content) (files : Files Content)
    (quiet : machine.outcomes .recovery = []) :
    (machine.after phase files).outcomes .recovery = [] := by
  cases phase with
  | swap => simpa [Machine.after] using quiet
  | recovery => simp [Machine.after, quiet]

theorem frame_same (phase : Phase) (machine : Machine Content) :
    Frame machine (machine.after phase machine.files) :=
  ⟨fun _ => rfl, fun _ => rfl, rfl, after_quiet phase machine _⟩

theorem frame_set (phase : Phase) (machine : Machine Content) (target : Path) {place : Place}
    (live : place ≠ .live) (previous : place ≠ .previous) (content : Option Content) :
    Frame machine (machine.after phase (machine.files.set target place content)) :=
  ⟨fun _ => Files.set_place_of_ne _ _ _ live.symm _,
    fun _ => Files.set_place_of_ne _ _ _ previous.symm _, rfl, after_quiet phase machine _⟩

/-! ## Operations -/

section

variable {holds : Machine Content → Prop} {failed : Failure → Machine Content → Prop}
variable {phase : Phase}

theorem operate_settles {perform : Files Content → Files Content}
    {partially : Option Content → Files Content → Files Content}
    {returned : Unit → Machine Content → Prop}
    (done : ∀ machine, holds machine → returned () (machine.after phase (perform machine.files)))
    (late : ∀ machine, holds machine → machine.outcomes phase ≠ [] →
      failed .raised (machine.after phase (perform machine.files)))
    (fails : ∀ machine left, holds machine → machine.outcomes phase ≠ [] →
      failed .raised (machine.after phase (partially left machine.files))) :
    Settles holds (operate phase perform partially) returned failed := by
  constructor
  intro machine held
  unfold operate
  cases outcomes : machine.outcomes phase with
  | nil => exact done machine held
  | cons outcome rest =>
      have more : machine.outcomes phase ≠ [] := by simp [outcomes]
      cases outcome with
      | done => exact done machine held
      | late => exact late machine held more
      | fails left => exact fails machine left held more

theorem present_settles (target : Path) (place : Place) :
    Settles holds (present target place)
      (fun found machine => found = (machine.files target place).isSome ∧ holds machine)
      failed := by
  refine Settles.bind Settles.read fun value => Settles.done ?_
  rintro machine ⟨rfl, held⟩
  exact ⟨rfl, held⟩

theorem removePath_settles {target : Path} {place : Place}
    (settles : Maintains holds failed (remove phase target place)) :
    Maintains holds failed (removePath phase target place) := by
  refine Settles.bind (present_settles target place) fun found => ?_
  exact (Settles.onlyIf (fun _ => settles) fun _ _ held => held).weaken fun _ read => read.2

/-- What the operations of a phase keep that change nothing of note, and what is left when
one of them fails. -/
structure Steady (phase : Phase) (holds : Machine Content → Prop)
    (failed : Failure → Machine Content → Prop) : Prop where
  frame : ∀ machine next, holds machine → Frame machine next → holds next
  raised : ∀ machine next, holds machine → Frame machine next →
    machine.outcomes phase ≠ [] → failed .raised next

namespace Steady

theorem operate (steady : Steady phase holds failed)
    {perform : Files Content → Files Content}
    {partially : Option Content → Files Content → Files Content}
    (performed : ∀ machine, Frame machine (machine.after phase (perform machine.files)))
    (partly : ∀ machine left,
      Frame machine (machine.after phase (partially left machine.files))) :
    Maintains holds failed (operate phase perform partially) :=
  operate_settles (fun machine held => steady.frame _ _ held (performed machine))
    (fun machine held more => steady.raised _ _ held (performed machine) more)
    fun machine left held more => steady.raised _ _ held (partly machine left) more

theorem assertLocksHealthy (steady : Steady phase holds failed)
    (lost : ∀ machine, holds machine → failed .leaseLost machine) :
    Maintains holds failed assertLocksHealthy := by
  constructor
  intro machine held
  have next : holds { machine with healthy := machine.healthy.tail } :=
    steady.frame _ _ held ⟨fun _ => rfl, fun _ => rfl, rfl, fun quiet => quiet⟩
  unfold Backups.assertLocksHealthy
  cases machine.healthy.headD true with
  | true => exact next
  | false => exact lost _ next

theorem attempt (steady : Steady phase holds failed) :
    Maintains holds failed (attempt phase) :=
  steady.operate (frame_same phase) fun machine _ => frame_same phase machine

theorem copyTo (steady : Steady .swap holds failed) (target : Path) (content : Content) :
    Maintains holds failed (copyTo target content) :=
  steady.operate (fun machine => frame_set _ machine _ (by simp) (by simp) _)
    fun machine _ => frame_set _ machine _ (by simp) (by simp) _

theorem remove (steady : Steady phase holds failed) (target : Path) {place : Place}
    (live : place ≠ .live) (previous : place ≠ .previous) :
    Maintains holds failed (remove phase target place) :=
  steady.operate (fun machine => frame_set _ machine _ live previous _)
    fun machine _ => frame_set _ machine _ live previous _

theorem removeSidecars (steady : Steady phase holds failed) (target : Path)
    {place : Sidecar → Place} (live : ∀ sidecar, place sidecar ≠ .live)
    (previous : ∀ sidecar, place sidecar ≠ .previous) :
    Maintains holds failed (removeSidecars phase target place) :=
  Settles.each (fun sidecar => steady.remove target (live sidecar) (previous sidecar)) _

theorem moveSidecars (steady : Steady phase holds failed) (target : Path)
    {source destination : Sidecar → Place}
    (sources : ∀ sidecar, source sidecar ≠ .live ∧ source sidecar ≠ .previous)
    (others : ∀ sidecar, destination sidecar ≠ .live ∧ destination sidecar ≠ .previous) :
    Maintains holds failed (moveSidecars phase target source destination) := by
  refine Settles.each (fun sidecar => ?_) _
  have leaves := sources sidecar
  have enters := others sidecar
  refine Settles.bind (present_settles target (source sidecar)) fun found => ?_
  refine (Settles.onlyIf (fun _ => ?_) fun _ _ held => held).weaken fun _ read => read.2
  refine Settles.bind (removePath_settles (steady.remove target enters.1 enters.2)) fun _ => ?_
  refine steady.operate (fun machine => ⟨fun other => ?_, fun other => ?_, rfl,
    after_quiet phase machine _⟩) fun machine _ => frame_same phase machine
  · simp [Files.set_apply, leaves.1.symm, enters.1.symm]
  · simp [Files.set_apply, leaves.2.symm, enters.2.symm]

end Steady

end

theorem Noted.steady : Steady .swap (Noted start noted) (Unwinding start) :=
  ⟨fun _ _ held same => held.frame same, fun _ _ held same _ => ⟨noted, held.frame same⟩⟩

theorem Noted.lock : Maintains (Noted start noted) (Unwinding start) assertLocksHealthy :=
  Noted.steady.assertLocksHealthy fun _ held => ⟨noted, held⟩

theorem Tracked.steady : Steady .recovery (Tracked start noted) (Halted start) where
  frame _ _ tracked same := tracked.frame same
  raised _ _ tracked same more :=
    ⟨(tracked.frame same).undo.kept, fun flawless => absurd (tracked.quiet flawless) more⟩

theorem Tracked.lock : Maintains (Tracked start noted) (Halted start) assertLocksHealthy :=
  Tracked.steady.assertLocksHealthy fun _ tracked =>
    ⟨tracked.undo.kept, fun flawless => ⟨tracked.quiet flawless, rfl⟩⟩

/-! ## The swaps -/

/-- An operation that leaves alone what counts for the list. -/
theorem operate_noted {perform : Files Content → Files Content}
    {partially : Option Content → Files Content → Files Content}
    (performed : ∀ files, Agree noted files (perform files))
    (partly : ∀ files left, Agree noted files (partially left files)) :
    Maintains (Noted start noted) (Unwinding start) (operate .swap perform partially) := by
  have changed : ∀ (machine : Machine Content) files, Noted start noted machine →
      Agree noted machine.files files → Noted start noted (machine.after .swap files) :=
    fun machine files held same => ⟨held.1, held.2.undo.agree same,
      fun flawless => after_quiet .swap machine _ (held.2.quiet flawless)⟩
  exact operate_settles (fun machine held => changed machine _ held (performed _))
    (fun machine held _ => ⟨noted, changed machine _ held (performed _)⟩)
    fun machine left held _ => ⟨noted, changed machine _ held (partly _ left)⟩

theorem removePrevious_noted {target : Path} (unlisted : target ∉ noted.map Prod.fst) :
    Maintains (Noted start noted) (Unwinding start) (remove .swap target .previous) := by
  have spare : ∀ (files : Files Content) content,
      Agree noted files (files.set target .previous content) := by
    refine fun files content => ⟨fun _ _ => Files.set_place_of_ne _ _ _ (by simp) _, ?_⟩
    intro other listed
    rw [Files.set_of_ne _ fun equal => unlisted (by rwa [equal] at listed)]
  exact operate_noted (fun files => spare files none) spare

/-- The copy takes the place of a target that is on the list. -/
theorem moveCopy_noted {target : Path} (listed : target ∈ noted.map Prod.fst) :
    Maintains (Noted start noted) (Unwinding start) (move .swap target .copy .live) := by
  refine operate_noted (fun files => ⟨fun other unlisted => ?_, fun _ _ => ?_⟩)
    fun files left => ⟨fun _ _ => rfl, fun _ _ => rfl⟩
  · have different : other ≠ target := fun equal => unlisted (by rwa [equal])
    rw [Files.set_of_ne _ different, Files.set_of_ne _ different]
  · simp [Files.set_apply]

/-- The target is away, but its swap is not noted yet. -/
def Aside (start : Start Content) (noted : List (Path × Bool)) (entry : Path × Bool)
    (machine : Machine Content) : Prop :=
  machine.swapped = noted ∧ Tracked start (entry :: noted) machine

/-- A move of a target that raises has left everything as it was, or has taken place all
the same. -/
def MoveRaised (start : Start Content) (noted : List (Path × Bool)) (target : Path)
    (machine : Machine Content) : Prop :=
  (machine.files target .live).isSome = true ∧ Noted start noted machine ∨
    (machine.files target .previous).isSome = true ∧ machine.files target .live = none ∧
      Aside start noted (target, true) machine

theorem movePrevious_aside {target : Path} (unlisted : target ∉ noted.map Prod.fst) :
    Settles (fun machine : Machine Content => (machine.files target .live).isSome = true ∧
        Noted start noted machine) (movePrevious target)
      (fun _ => Aside start noted (target, true)) (Unwinding start) := by
  have moved : ∀ machine : Machine Content, Noted start noted machine →
      Aside start noted (target, true) (machine.after .swap
        ((machine.files.set target .previous (machine.files target .live)).set
          target .live none)) := by
    rintro machine ⟨swapped, tracked⟩
    refine ⟨swapped, tracked.undo.note unlisted ?_ fun other different => ?_,
      fun flawless => after_quiet .swap machine _ (tracked.quiet flawless)⟩
    · simp [Files.set_apply]
    · simp [Files.set_of_ne _ different]
  refine Settles.handle (?_ : Settles _ _ _ fun _ => MoveRaised start noted target)
    fun failure => ?_
  · refine operate_settles (fun machine held => moved machine held.2) ?_ ?_
    · rintro machine ⟨live, held⟩ _
      refine .inr ⟨?_, ?_, moved machine held⟩
      · simpa [Files.set_apply] using live
      · simp [Files.set_apply]
    · rintro machine left ⟨live, held⟩ _
      exact .inl ⟨live, held.frame (frame_same _ machine)⟩
  · refine Settles.bind (present_settles target .previous) fun previous => ?_
    refine Settles.bind (present_settles target .live) fun live => ?_
    refine Settles.bind (?_ : Settles _ _ (fun _ => Unwinding start failure) _)
      fun _ => Settles.fail fun _ holds => holds
    refine Settles.onlyIf (fun taken => Settles.update ?_) ?_
    · rintro machine ⟨rfl, rfl, stays | ⟨-, -, rfl, tracked⟩⟩
      · simp [stays.1] at taken
      · exact ⟨_, rfl, tracked.undo, tracked.quiet⟩
    · rintro skipped machine ⟨rfl, rfl, stays | moved⟩
      · exact ⟨noted, stays.2⟩
      · simp [moved.1, moved.2.1] at skipped

/-- Setting a target aside notes its swap. -/
theorem setAside_noted {target : Path} (unlisted : target ∉ noted.map Prod.fst) :
    Settles (Noted start noted) (setAside target)
      (fun live => Noted start ((target, live) :: noted)) (Unwinding start) := by
  refine Settles.bind (present_settles target .live) fun live => ?_
  refine Settles.bind (?_ : Settles _ _ (fun _ => Aside start noted (target, live)) _)
    fun _ => Settles.bind (Settles.update ?_) fun _ => Settles.done fun _ held => held
  · refine Settles.onlyIf ?_ ?_
    · rintro rfl
      exact (movePrevious_aside unlisted).weaken fun machine read => ⟨read.1.symm, read.2⟩
    · rintro rfl machine ⟨absent, swapped, tracked⟩
      have gone : machine.files target .live = none := by simpa using absent.symm
      exact ⟨swapped, tracked.undo.note unlisted gone.symm fun _ _ => rfl, tracked.quiet⟩
  · rintro machine ⟨rfl, tracked⟩
    exact ⟨rfl, tracked.undo, tracked.quiet⟩

/-- A swap of one more target. -/
def Swaps (target : Path) (action : Action Content Unit) : Prop :=
  ∀ (start : Start Content) noted, target ∉ noted.map Prod.fst →
    Settles (Noted start noted) action
      (fun _ machine => ∃ live, Noted start ((target, live) :: noted) machine)
      (Unwinding start)

theorem swapComponent_swaps (target : Path) :
    Swaps target (swapComponent target : Action Content Unit) := by
  intro start noted unlisted
  refine Settles.bind Noted.lock fun _ => ?_
  refine Settles.bind (present_settles target .previous) fun found => ?_
  refine Settles.bind ((Settles.onlyIf (fun _ => ?_) fun _ _ held => held).weaken
    fun _ read => read.2) fun _ => ?_
  · exact Settles.bind Noted.lock fun _ => removePrevious_noted unlisted
  · refine Settles.bind Noted.lock fun _ => ?_
    refine Settles.bind (setAside_noted unlisted) fun live => ?_
    refine Settles.bind Noted.lock fun _ => ?_
    refine Settles.bind (moveCopy_noted (by simp)) fun _ => ?_
    exact Noted.lock.strengthen (fun _ _ held => ⟨live, held⟩) fun _ _ failed => failed

theorem swapDatabase_swaps (target : Path) (source : Content) :
    Swaps target (swapDatabase target source) := by
  intro start noted unlisted
  refine Settles.bind Noted.lock fun _ => ?_
  refine Settles.bind Noted.steady.attempt fun _ => ?_
  refine Settles.bind (removePath_settles (Noted.steady.remove target (by simp) (by simp)))
    fun _ => ?_
  refine Settles.bind (Noted.steady.copyTo target source) fun _ => ?_
  refine Settles.bind Noted.steady.attempt fun _ => ?_
  refine Settles.bind (?_ : Settles _ _ (fun _ => Noted start noted) _) fun _ => ?_
  · exact Settles.update fun machine held => ⟨held.1, held.2.undo, held.2.quiet⟩
  refine Settles.bind (removePath_settles (removePrevious_noted unlisted)) fun _ => ?_
  refine Settles.bind (Noted.steady.removeSidecars target (by simp) (by simp)) fun _ => ?_
  refine Settles.bind (setAside_noted unlisted) fun live => ?_
  refine Settles.bind (Settles.onlyIf (fun _ => Noted.steady.moveSidecars target (by simp)
    (by simp)) fun _ _ held => held) fun _ => ?_
  refine Settles.bind Noted.lock fun _ => ?_
  refine Settles.bind (Noted.steady.removeSidecars target (by simp) (by simp)) fun _ => ?_
  refine Settles.bind (moveCopy_noted (by simp)) fun _ => ?_
  exact Noted.lock.strengthen (fun _ _ held => ⟨live, held⟩) fun _ _ failed => failed

/-- The targets `rest` are still to be swapped. -/
def Pending (start : Start Content) (rest : List Path) (machine : Machine Content) : Prop :=
  ∃ noted, (noted.map Prod.fst ++ rest).Nodup ∧ Noted start noted machine

/-- Swaps of targets that are all different. -/
theorem Pending.forM {body : Path × Content → Action Content Unit}
    (swaps : ∀ component, Swaps component.1 (body component))
    (components : List (Path × Content)) (later : List Path) :
    Settles (Pending start (components.map Prod.fst ++ later)) (components.forM body)
      (fun _ => Pending start later) (Unwinding start) := by
  induction components with
  | nil => exact Settles.done fun _ pending => pending
  | cons component rest induction =>
      refine Settles.bind ⟨?_⟩ fun _ => induction
      rintro machine ⟨noted, once, held⟩
      have unlisted : component.1 ∉ noted.map Prod.fst := fun listed =>
        (List.nodup_append.mp once).2.2 _ listed _ List.mem_cons_self rfl
      refine ((swaps component start noted unlisted).strengthen ?_
        fun _ _ failed => failed).outcome machine held
      rintro _ after ⟨live, swapped⟩
      exact ⟨(component.1, live) :: noted, List.nodup_middle.mp once, swapped⟩

/-! ## The rollback -/

/-- Nothing is at a target whose swap is taken back next. -/
def Emptied (start : Start Content) (entry : Path × Bool) (rest : List (Path × Bool))
    (machine : Machine Content) : Prop :=
  machine.files entry.1 .live = none ∧ Tracked start (entry :: rest) machine

section

variable (entry : Path × Bool) (rest : List (Path × Bool))

theorem Emptied.steady : Steady .recovery (Emptied start entry rest) (Halted start) where
  frame _ _ emptied same := ⟨(same.live _).trans emptied.1, emptied.2.frame same⟩
  raised _ _ emptied same more := Tracked.steady.raised _ _ emptied.2 same more

theorem Emptied.lock : Maintains (Emptied start entry rest) (Halted start) assertLocksHealthy :=
  (Emptied.steady entry rest).assertLocksHealthy fun _ emptied =>
    ⟨emptied.2.undo.kept, fun flawless => ⟨emptied.2.quiet flawless, rfl⟩⟩

theorem removeLive_emptied :
    Settles (Tracked start (entry :: rest)) (removeLive entry.1)
      (fun _ => Emptied start entry rest) (Halted start) := by
  have changed : ∀ (machine : Machine Content) content, Tracked start (entry :: rest) machine →
      Undo start.targets (entry :: rest) (machine.files.set entry.1 .live content) := by
    intro machine content tracked
    refine tracked.undo.agree ⟨fun other unlisted => ?_,
      fun _ _ => Files.set_place_of_ne _ _ _ (by simp) _⟩
    rw [Files.set_of_ne _ fun equal => unlisted (by simp [equal])]
  refine Settles.bind (present_settles entry.1 .live) fun live => Settles.onlyIf (fun _ => ?_) ?_
  · refine Settles.bind (Settles.weaken ?_ fun _ read => read.2) fun _ => Settles.bind
      (Settles.onlyIf (fun _ => (Emptied.steady entry rest).removeSidecars entry.1 (by simp)
        (by simp)) fun _ _ emptied => emptied) fun _ => Emptied.lock entry rest
    refine operate_settles (fun machine tracked => ?_) ?_ ?_
    · exact ⟨by simp [Files.set_apply], changed machine none tracked,
        fun flawless => after_quiet .recovery machine _ (tracked.quiet flawless)⟩
    · exact fun machine tracked more => ⟨(changed machine none tracked).kept,
        fun flawless => absurd (tracked.quiet flawless) more⟩
    · exact fun machine left tracked more => ⟨(changed machine left tracked).kept,
        fun flawless => absurd (tracked.quiet flawless) more⟩
  · rintro rfl machine ⟨absent, tracked⟩
    exact ⟨by simpa using absent.symm, tracked⟩

theorem bringBack_tracked (aside : entry.2 = true) :
    Settles (Emptied start entry rest) (bringBack entry.1) (fun _ => Tracked start rest)
      (Halted start) := by
  have back : ∀ machine : Machine Content, Emptied start entry rest machine →
      Undo start.targets rest
        ((machine.files.set entry.1 .live (machine.files entry.1 .previous)).set
          entry.1 .previous none) := by
    intro machine emptied
    simpa [Undo, takeBack, aside] using emptied.2.undo
  refine Settles.bind (Emptied.lock entry rest) fun _ => ?_
  refine Settles.bind (operate_settles (fun machine emptied => ?_)
    (fun machine emptied more => ?_) fun machine left emptied more => ?_) fun _ =>
      Settles.bind (Settles.onlyIf (fun _ => Tracked.steady.moveSidecars entry.1
        (by simp) (by simp)) fun _ _ tracked => tracked) fun _ => Tracked.lock
  · exact ⟨back machine emptied,
      fun flawless => after_quiet .recovery machine _ (emptied.2.quiet flawless)⟩
  · exact ⟨(back machine emptied).kept, fun flawless => absurd (emptied.2.quiet flawless) more⟩
  · exact ⟨emptied.2.undo.kept, fun flawless => absurd (emptied.2.quiet flawless) more⟩

/-- A step of the rollback takes one swap back. -/
theorem rollbackComponent_tracked :
    Settles (Tracked start (entry :: rest)) (rollbackComponent entry)
      (fun _ => Tracked start rest) (Halted start) := by
  refine Settles.bind Tracked.lock fun _ => ?_
  refine Settles.bind (removeLive_emptied entry rest) fun _ => ?_
  refine Settles.bind (present_settles entry.1 .previous) fun previous => ?_
  refine Settles.onlyIf (fun taken => ?_) ?_
  · rw [Bool.and_eq_true] at taken
    exact (bringBack_tracked entry rest taken.1).weaken fun _ found => found.2
  · rintro skipped machine ⟨rfl, gone, tracked⟩
    have back : Undo start.targets rest (takeBack machine.files entry) := tracked.undo
    refine ⟨back.agree ⟨fun target _ => ?_, fun target _ => ?_⟩, tracked.quiet⟩
    · by_cases same : target = entry.1
      · rw [same, takeBack_live, gone]
        cases aside : entry.2 <;> simp_all
      · rw [takeBack_of_ne _ same]
    · by_cases same : target = entry.1
      · rw [same, takeBack_previous]
        cases aside : entry.2 <;> simp_all
      · rw [takeBack_of_ne _ same]

end

theorem rollbackRestoreComponents_noted :
    Settles (Noted start noted) rollbackRestoreComponents (fun _ => Noted start [])
      (Halted start) := by
  refine Settles.bind Settles.read fun found => Settles.onlyIf (fun _ => ?_) ?_
  · refine Settles.weaken (?_ : Settles (Tracked start found.swapped) _ _ _) ?_
    · refine Settles.bind Tracked.lock fun _ => ?_
      refine Settles.bind (Settles.forM rollbackComponent_tracked _) fun _ => ?_
      exact Settles.update fun machine tracked => ⟨rfl, tracked.undo, tracked.quiet⟩
    · rintro machine ⟨rfl, rfl, tracked⟩
      exact tracked
  · rintro skipped machine ⟨rfl, swapped, tracked⟩
    have none : found.swapped = [] := by simpa using skipped
    exact ⟨none, none ▸ swapped ▸ tracked⟩

/-! ## The whole restore -/

/-- A failure that a rollback can follow, or a lost lease. -/
def Unsettled (start : Start Content) (failure : Failure) (machine : Machine Content) : Prop :=
  Kept start.targets machine.files ∧ (start.flawless → machine.outcomes .recovery = []) ∧
    (failure = .raised → ∃ noted, Noted start noted machine)

/-- A failure that may have met a rollback, which leaves a list of some kind. -/
def Ended (start : Start Content) (lists : List (Path × Bool) → Prop) (failure : Failure)
    (machine : Machine Content) : Prop :=
  Kept start.targets machine.files ∧ (start.flawless → machine.outcomes .recovery = [] ∧
    (failure = .raised → ∃ noted, lists noted ∧ Noted start noted machine))

theorem rollingBack_settles {before : Machine Content → Prop} {action : Action Content Unit}
    {returned : Unit → Machine Content → Prop}
    (settles : Settles before action returned (Unsettled start)) :
    Settles before (rollingBack action) returned (Ended start (· = [])) := by
  refine Settles.handle settles fun failure => ?_
  cases failure with
  | leaseLost =>
      exact Settles.fail fun _ unsettled =>
        ⟨unsettled.1, fun flawless => ⟨unsettled.2.1 flawless, by simp⟩⟩
  | raised =>
      constructor
      rintro machine ⟨-, -, recoverable⟩
      obtain ⟨noted, held⟩ := recoverable rfl
      refine Settles.outcome (Settles.bind (rollbackRestoreComponents_noted.strengthen
        (fun _ _ rolledBack => rolledBack) ?_) fun _ => Settles.fail ?_) machine held
      · intro failure machine halted
        refine ⟨halted.1, fun flawless => ⟨(halted.2 flawless).1, fun raised => ?_⟩⟩
        rw [(halted.2 flawless).2] at raised
        cases raised
      · exact fun machine rolledBack => ⟨rolledBack.2.undo.kept,
          fun flawless => ⟨rolledBack.2.quiet flawless, fun _ => ⟨[], rfl, rolledBack⟩⟩⟩

/-- The targets of a plan, in the order of their swaps. -/
def RestorePlan.targets (plan : RestorePlan Content) : List Path :=
  plan.components.map Prod.fst ++ (plan.usersDatabase.toList.map Prod.fst ++ [])

theorem swapAll_settles (plan : RestorePlan Content) :
    Settles (Pending start plan.targets) (swapAll plan) (fun _ => Pending start [])
      (Ended start (· = [])) := by
  refine rollingBack_settles (Settles.strengthen (Settles.bind
    (Pending.forM (fun component => swapComponent_swaps component.1) _ _)
    fun _ => Pending.forM (fun database => swapDatabase_swaps database.1 database.2) _ [])
    (fun _ _ pending => pending) fun failure machine unwinding => ?_)
  obtain ⟨noted, held⟩ := unwinding
  exact ⟨held.2.undo.kept, held.2.quiet, fun _ => ⟨noted, held⟩⟩

theorem Pending.ended {rest : List Path} (pending : Pending start rest machine)
    (failure : Failure) : Ended start (fun _ => True) failure machine := by
  obtain ⟨noted, -, held⟩ := pending
  exact ⟨held.2.undo.kept, fun flawless =>
    ⟨held.2.quiet flawless, fun _ => ⟨noted, trivial, held⟩⟩⟩

theorem Pending.frame {rest : List Path} (pending : Pending start rest machine)
    (same : Frame machine next) : Pending start rest next := by
  obtain ⟨noted, once, held⟩ := pending
  exact ⟨noted, once, held.frame same⟩

theorem Pending.steady {rest : List Path} :
    Steady .swap (Pending start rest) (Ended start fun _ => True) :=
  ⟨fun _ _ pending same => pending.frame same,
    fun _ _ pending same _ => (pending.frame same).ended .raised⟩

theorem Pending.lock {rest : List Path} :
    Maintains (Pending start rest) (Ended start fun _ => True) assertLocksHealthy :=
  Pending.steady.assertLocksHealthy fun _ pending => pending.ended .leaseLost

theorem prepare_settles (rest : List Path) (component : Path × Content) :
    Maintains (Pending start rest) (Ended start fun _ => True) (prepare component) := by
  refine Settles.bind Pending.steady.attempt fun _ => ?_
  refine Settles.bind (removePath_settles
    (Pending.steady.remove component.1 (by simp) (by simp))) fun _ => ?_
  refine Settles.bind (Pending.steady.copyTo component.1 component.2) fun _ => ?_
  exact Settles.update fun machine pending => pending.frame
    ⟨fun _ => rfl, fun _ => rfl, rfl, fun quiet => quiet⟩

theorem validate_settles (validation : (Path → Option Content) → Bool) :
    Settles (Pending start []) (validate validation) (fun _ => Pending start [])
      (Ended start fun _ => True) := by
  refine Settles.bind Pending.steady.attempt fun _ => Settles.bind Settles.look fun read => ?_
  exact Settles.onlyIf (fun _ => Settles.fail fun _ pending => pending.ended .raised)
    fun _ _ held => held

theorem restoreSteps_settles (plan : RestorePlan Content) :
    Settles (Pending start plan.targets) (restoreSteps plan) (fun _ => Pending start [])
      (Ended start fun _ => True) := by
  refine Settles.bind (Settles.each (prepare_settles plan.targets) _) fun _ => ?_
  refine Settles.bind Pending.lock fun _ => Settles.bind Pending.steady.attempt fun _ => ?_
  refine Settles.bind ((swapAll_settles plan).strengthen (fun _ _ pending => pending) ?_)
    fun _ => ?_
  · refine fun failure machine ended => ⟨ended.1, fun flawless =>
      ⟨(ended.2 flawless).1, fun raised => ?_⟩⟩
    obtain ⟨noted, -, held⟩ := (ended.2 flawless).2 raised
    exact ⟨noted, trivial, held⟩
  · refine Settles.bind Pending.lock fun _ => ?_
    refine Settles.bind (Settles.each validate_settles _) fun _ => ?_
    refine Settles.bind Pending.lock fun _ => Settles.bind Pending.steady.attempt fun _ => ?_
    exact Settles.bind Pending.lock fun _ => Pending.steady.attempt

/-- Without faults of its own the `finally` clause changes nothing of note. -/
theorem removeCopies_settles {holds : Machine Content → Prop}
    {failed : Failure → Machine Content → Prop}
    (frame : ∀ machine next, holds machine → Frame machine next → holds next)
    (quiet : ∀ machine, holds machine → machine.outcomes .recovery = []) :
    Maintains holds failed removeCopies := by
  have steady : Steady .recovery holds fun _ _ => False :=
    ⟨frame, fun machine _ held _ more => more (quiet machine held)⟩
  have removes (target : Path) := removePath_settles
    (steady.remove target (by simp : Place.copy ≠ .live) (by simp : Place.copy ≠ .previous))
  refine Settles.bind Settles.look fun read => Settles.bind (Settles.each (fun target => ?_) _)
    fun _ => Settles.bind Settles.look fun read => ?_
  · exact Settles.handle (removes target) fun _ => Settles.done fun _ impossible => impossible.elim
  · exact (Settles.each removes _).strengthen (fun _ _ held => held)
      fun _ _ impossible => impossible.elim

theorem Ended.frame {failure : Failure} {start : Start Content} (flawless : start.flawless)
    (ended : Ended start (· = []) failure machine) (same : Frame machine next) :
    Ended start (· = []) failure next := by
  obtain ⟨quiet, settled⟩ := ended.2 flawless
  refine ⟨fun target content stored => ?_, fun _ => ⟨same.quiet quiet, fun raised => ?_⟩⟩
  · rw [same.live, same.previous]
    exact ended.1 target content stored
  · obtain ⟨noted, none, held⟩ := settled raised
    exact ⟨noted, none, held.frame same⟩

theorem Pending.initially {plan : RestorePlan Content} {flawless : Prop}
    (started : machine.swapped = []) (once : plan.targets.Nodup)
    (quiet : flawless → machine.outcomes .recovery = []) :
    Pending ⟨machine.files.live, flawless⟩ plan.targets machine :=
  ⟨[], once, started, rfl, quiet⟩

theorem restoreBackup_settles (plan : RestorePlan Content) (initial : Path → Option Content) :
    Settles (Pending ⟨initial, True⟩ plan.targets) (restoreBackup plan)
      (fun _ => Pending ⟨initial, True⟩ []) (Ended ⟨initial, True⟩ (· = [])) := by
  refine Settles.ensure (rollingBack_settles ((restoreSteps_settles plan).strengthen
    (fun _ _ pending => pending) ?_)) (fun _ => ?_) fun failure => ?_
  · refine fun failure machine ended =>
      ⟨ended.1, fun _ => (ended.2 trivial).1, fun raised => ?_⟩
    obtain ⟨noted, -, held⟩ := (ended.2 trivial).2 raised
    exact ⟨noted, held⟩
  · refine removeCopies_settles (fun _ _ => Pending.frame) ?_
    rintro machine ⟨noted, -, held⟩
    exact held.2.quiet trivial
  · exact removeCopies_settles (fun _ _ => Ended.frame trivial) fun machine ended =>
      (ended.2 trivial).1

/-- With a rollback whose own operations succeed, a restore that fails leaves every target as
it was, or complete if it fails by a lost lease. One that returns can be taken back. -/
theorem restoreBackup_all_or_nothing (plan : RestorePlan Content) (started : machine.swapped = [])
    (once : plan.targets.Nodup) (quiet : machine.outcomes .recovery = []) :
    (∀ failure next, restoreBackup plan machine = .error failure next →
      Kept machine.files.live next.files ∧
        (failure = .raised → next.files.live = machine.files.live)) ∧
      ∀ next, restoreBackup plan machine = .ok () next →
        (next.swapped.foldl takeBack next.files).live = machine.files.live := by
  have settles := restoreBackup_settles plan machine.files.live
  have pending : Pending ⟨machine.files.live, True⟩ plan.targets machine :=
    Pending.initially started once fun _ => quiet
  refine ⟨fun failure next failed => ?_, fun next restored => ?_⟩
  · have ended := settles.error pending failed
    refine ⟨ended.1, fun raised => ?_⟩
    obtain ⟨noted, rfl, held⟩ := (ended.2 trivial).2 raised
    exact held.2.undo
  · obtain ⟨noted, -, rfl, tracked⟩ := settles.ok pending restored
    exact tracked.undo

/-- Two directories, whose restored content is not accepted. -/
def RestorePlan.sample : RestorePlan Nat :=
  ⟨[(["data"], 1), (["uploads"], 2)], none, [fun _ => false]⟩

def Machine.sample (outcomes : Phase → List (Outcome Nat)) : Machine Nat :=
  ⟨fun _ place => if place = .live then some 0 else none, [], outcomes, [], [], []⟩

/-- The action raises and leaves a state that passes a check. -/
def raisesWith (check : Machine Nat → Bool) : EStateM.Result Failure (Machine Nat) Unit → Bool
  | .error .raised next => check next
  | _ => false

theorem exists_raised {check : Machine Nat → Bool}
    {result : EStateM.Result Failure (Machine Nat) Unit} (raises : raisesWith check result) :
    ∃ next, result = .error .raised next ∧ check next = true := by
  cases result with
  | ok value next => cases raises
  | error failure next =>
      cases failure with
      | leaseLost => cases raises
      | raised => exact ⟨next, rfl, raises⟩

theorem restoreBackup_all_or_nothing_sample : ∃ next,
    restoreBackup .sample (.sample fun _ => []) = .error .raised next ∧
      next.files.live = (Machine.sample fun _ => []).files.live := by
  obtain ⟨next, raised, -⟩ := exists_raised (by decide +kernel :
    raisesWith (fun _ => true) (restoreBackup .sample (.sample fun _ => [])))
  exact ⟨next, raised,
    ((restoreBackup_all_or_nothing .sample rfl (by decide) rfl).1 _ _ raised).2 rfl⟩

/-- Whatever fails, operations of the inner rollback and checks of the lease included, the
`try` statement never loses what was at a target. -/
theorem restoreSteps_kept (plan : RestorePlan Content) {failure : Failure}
    (started : machine.swapped = []) (once : plan.targets.Nodup)
    (failed : restoreSteps plan machine = .error failure next) :
    Kept machine.files.live next.files :=
  ((restoreSteps_settles plan).error (Pending.initially started once False.elim) failed).1

/-- The last move fails, and then the rollback of the first swap. -/
def faults : Phase → List (Outcome Nat)
  | .swap => List.replicate 8 .done ++ [.fails none]
  | .recovery => [.done, .fails none]

theorem restoreSteps_kept_sample : ∃ next,
    restoreSteps .sample (.sample faults) = .error .raised next ∧
      Kept (Machine.sample faults).files.live next.files := by
  obtain ⟨next, raised, -⟩ := exists_raised (by decide +kernel :
    raisesWith (fun _ => true) (restoreSteps .sample (.sample faults)))
  exact ⟨next, raised, restoreSteps_kept .sample rfl (by decide) raised⟩

/-! ## The second rollback -/

/-- Taking back swaps ends with nothing at a target for which nothing is set aside. -/
theorem foldl_takeBack_live {files : Files Content} {target : Path}
    (absent : files target .previous = none)
    (listed : target ∈ noted.map Prod.fst ∨ files target .live = none) :
    (noted.foldl takeBack files).live target = none := by
  induction noted generalizing files with
  | nil => simpa [Files.live] using listed
  | cons entry rest induction =>
      by_cases same : target = entry.1
      · subst same
        refine induction ?_ (.inr ?_)
        · simp [takeBack_previous, absent]
        · simp [takeBack_live, absent]
      · refine induction ?_ ?_
        · rw [takeBack_of_ne _ same, absent]
        · rw [takeBack_of_ne _ same]
          simpa [same] using listed

/-- When the inner rollback has brought a target back and fails before its end, the list of
swaps is still there. A second rollback that runs to its end then deletes the only copy. -/
theorem second_rollback_loses (plan : RestorePlan Content) {first second : Machine Content}
    {target : Path} {content : Content} (started : machine.swapped = [])
    (once : plan.targets.Nodup) (stored : machine.files target .live = some content)
    (failed : restoreSteps plan machine = .error .raised first)
    (listed : target ∈ first.swapped.map Prod.fst)
    (back : first.files target .previous = none)
    (finished : rollbackRestoreComponents first = .ok () second) :
    first.files target .live = some content ∧
      rollingBack (restoreSteps plan) machine = .error .raised second ∧
      second.files target .live = none := by
  have complete := ((restoreSteps_settles plan).error
    (Pending.initially started once False.elim) failed).1 target content stored
  rw [back] at complete
  have held : Noted ⟨(first.swapped.foldl takeBack first.files).live, False⟩ first.swapped
      first := ⟨rfl, rfl, False.elim⟩
  have undone := (rollbackRestoreComponents_noted.ok held finished).2.undo
  refine ⟨complete.resolve_right (by simp), ?_,
    (congrFun undone target).trans (foldl_takeBack_live back (.inl listed))⟩
  rw [rollingBack, Fallible.handle, failed]
  exact bind_of_ok finished

/-- The second rollback of the sample. -/
def secondRollback (first : Machine Nat) : Bool :=
  match rollbackRestoreComponents first with
  | .ok () _ =>
      decide (["uploads"] ∈ first.swapped.map Prod.fst ∧
        first.files ["uploads"] .previous = none)
  | .error _ _ => false

theorem second_rollback_loses_sample : ∃ first second : Machine Nat,
    first.files ["uploads"] .live = some 0 ∧
      rollingBack (restoreSteps .sample) (.sample faults) = .error .raised second ∧
      second.files ["uploads"] .live = none := by
  obtain ⟨first, raised, passed⟩ := exists_raised (by decide +kernel :
    raisesWith secondRollback (restoreSteps .sample (.sample faults)))
  unfold secondRollback at passed
  split at passed
  · rename_i second finished
    obtain ⟨listed, back⟩ := of_decide_eq_true passed
    exact ⟨first, second,
      second_rollback_loses .sample rfl (by decide) rfl raised listed back finished⟩
  · cases passed

end RAGuardian.Backups
