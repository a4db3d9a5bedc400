import Mathlib.Algebra.Order.Ring.Rat
import RAGuardian.Foundation.Concurrency
import RAGuardian.Foundation.Dictionary

/-! # A key-value server

Values under string keys, as clients reach them command by command. Keys expire on
their own, and a scan goes over the table of the server slot by slot. -/

namespace RAGuardian.Keyspace

open Concurrency

variable {Value : Type}

/-! ## Commands -/

/-- The commands of the server, and the clock of a client. -/
inductive Command (Value : Type)
  | get (key : String)
  | setex (key : String) (value : Value)
  | delete (keys : List String)
  | scan (cursor : Nat) (pattern : String)
  | clock

@[reducible] def Command.Response : Command Value → Type
  | .get _ => Option Value
  | .setex _ _ => Unit
  | .delete _ => Nat
  | .scan _ _ => List String
  | .clock => ℚ

abbrev Client (Value α : Type) := Program (Command Value) Command.Response α

abbrev Space (Value : Type) := Dictionary String Value

/-- A server: where its keys lie, and which keys a pattern selects. -/
structure Server where
  slots : Nat
  slot : String → Nat
  slot_lt : ∀ key, slot key < slots
  selects : String → String → Bool

/-- The characters that mean something in a pattern. -/
def patternCharacters : List Char := ['*', '?', '[', '\\']

/-- A text that stands for itself in a pattern. -/
def Literal (text : String) : Prop :=
  ∀ character ∈ text.toList, character ∉ patternCharacters

instance (text : String) : Decidable (Literal text) :=
  List.decidableBAll (fun character => character ∉ patternCharacters) text.toList

/-- A literal text and an asterisk select the keys that start with the text. -/
def Server.SelectsStart (server : Server) : Prop :=
  ∀ start key, Literal start →
    (server.selects (start ++ "*") key = true ↔ start.toList <+: key.toList)

/-- What a command meets: the time, and the keys that have expired by then. -/
structure Draw where
  now : ℚ
  expired : List String := []

/-- The keys but for some. -/
def Space.without (keys : List String) (space : Space Value) : Space Value :=
  space.removeWhere fun key _ => decide (key ∈ keys)

/-- A command on the keys that have not expired. -/
def serve (server : Server) (now : ℚ) (command : Command Value) (space : Space Value) :
    command.Response × Space Value :=
  match command with
  | .get key => (space.get? key, space)
  | .setex key value => ((), space.set key value)
  | .delete keys =>
      ((keys.dedup.filter fun key => (space.get? key).isSome).length, space.without keys)
  | .scan cursor pattern =>
      (space.keys.filter fun key => server.slot key = cursor ∧ server.selects pattern key, space)
  | .clock => (now, space)

def execute (server : Server) (draw : Draw) (command : Command Value) (space : Space Value) :
    command.Response × Space Value :=
  serve server draw.now command (space.without draw.expired)

theorem get?_without {space : Space Value} {keys : List String} {key : String} :
    (space.without keys).get? key = if key ∈ keys then none else space.get? key := by
  apply Option.ext
  intro value
  rw [Space.without, Dictionary.get?_removeWhere]
  split
  · rename_i removed
    simp [removed]
  · rename_i kept
    simp [kept]

theorem get?_of_without {space : Space Value} {keys : List String} {key : String}
    {value : Value} (found : (space.without keys).get? key = some value) :
    space.get? key = some value ∧ key ∉ keys := by
  rw [get?_without] at found
  split at found
  · cases found
  · rename_i kept
    exact ⟨found, kept⟩

/-- What is there later was there before. -/
def Shrinks (before after : Space Value) : Prop :=
  ∀ key value, after.get? key = some value → before.get? key = some value

namespace Shrinks

theorem refl (space : Space Value) : Shrinks space space :=
  fun _ _ found => found

theorem trans {first second third : Space Value} (left : Shrinks first second)
    (right : Shrinks second third) : Shrinks first third :=
  fun key value found => left key value (right key value found)

theorem without (space : Space Value) (keys : List String) :
    Shrinks space (space.without keys) :=
  fun _ _ found => (get?_of_without found).1

theorem absent {before after : Space Value} (shrinks : Shrinks before after) {key : String}
    (missing : before.get? key = none) : after.get? key = none := by
  cases found : after.get? key with
  | none => rfl
  | some value =>
      have present := shrinks key value found
      rw [missing] at present
      cases present

end Shrinks

/-- A command that stores nothing. -/
def Clearing : Command Value → Prop
  | .setex _ _ => False
  | _ => True

theorem shrinks_of_clearing {server : Server} (draw : Draw) {command : Command Value}
    (clearing : Clearing command) (space : Space Value) :
    Shrinks space (execute server draw command space).2 := by
  have expired := Shrinks.without space draw.expired
  cases command with
  | setex key value => cases clearing
  | delete keys => exact expired.trans (.without _ keys)
  | get key => exact expired
  | scan cursor pattern => exact expired
  | clock => exact expired

/-! ## Scans -/

def scanSlots (pattern : String) : List Nat → Client Value (List String)
  | [] => .done []
  | cursor :: rest =>
      .call (.scan cursor pattern) fun (page : List String) =>
        (scanSlots pattern rest).bind fun keys => .done (page ++ keys)

/-- `scan_iter`: the keys a pattern selects, in one pass over the table. -/
def scanIter (server : Server) (pattern : String) : Client Value (List String) :=
  scanSlots pattern (List.range server.slots)

/-- Delete the keys of a page in batches, and keep the batch begun. -/
def deleteBatches (limit : Nat) : List String → List String → Nat →
    Client Value (List String × Nat)
  | [], batch, deleted => .done (batch, deleted)
  | key :: rest, batch, deleted =>
      if limit ≤ (batch ++ [key]).length then
        .call (.delete (batch ++ [key])) fun (count : Nat) =>
          deleteBatches limit rest [] (deleted + count)
      else deleteBatches limit rest (batch ++ [key]) deleted

def scanDeleteSlots (pattern : String) (limit : Nat) : List Nat → List String → Nat →
    Client Value Nat
  | [], [], deleted => .done deleted
  | [], batch, deleted => .call (.delete batch) fun (count : Nat) => .done (deleted + count)
  | cursor :: rest, batch, deleted =>
      .call (.scan cursor pattern) fun (page : List String) =>
        (deleteBatches limit page batch deleted).bind fun progress =>
          scanDeleteSlots pattern limit rest progress.1 progress.2

/-- Delete the keys a pattern selects while scanning for them. -/
def scanDelete (server : Server) (pattern : String) (limit : Nat) : Client Value Nat :=
  scanDeleteSlots pattern limit (List.range server.slots) [] 0

theorem clearing_scanSlots (pattern : String) (cursors : List Nat) :
    (scanSlots pattern cursors : Client Value _).Makes Clearing := by
  induction cursors with
  | nil => trivial
  | cons cursor rest induction =>
      exact ⟨trivial, fun page => Program.Always.bind induction fun _ => trivial⟩

theorem clearing_scanIter (server : Server) (pattern : String) :
    (scanIter server pattern : Client Value _).Makes Clearing :=
  clearing_scanSlots pattern _

theorem clearing_deleteBatches (limit : Nat) (page batch : List String) (deleted : Nat) :
    (deleteBatches limit page batch deleted : Client Value _).Makes Clearing := by
  induction page generalizing batch deleted with
  | nil => trivial
  | cons key rest induction =>
      rw [deleteBatches]
      split
      · exact ⟨trivial, fun count => induction [] _⟩
      · exact induction _ _

theorem clearing_scanDelete (server : Server) (pattern : String) (limit : Nat) :
    (scanDelete server pattern limit : Client Value _).Makes Clearing := by
  rw [scanDelete]
  generalize List.range server.slots = cursors, ([] : List String) = batch, 0 = deleted
  induction cursors generalizing batch deleted with
  | nil =>
      cases batch with
      | nil => trivial
      | cons key rest => exact ⟨trivial, fun _ => trivial⟩
  | cons cursor rest induction =>
      refine ⟨trivial, fun page => ?_⟩
      apply Program.Always.bind (clearing_deleteBatches limit page batch deleted)
      intro progress
      exact induction progress.1 progress.2

/-! ### Scans nobody interrupts -/

section

variable (server : Server) (now : ℚ) (space : Space Value)

theorem without_nil : space.without [] = space := by
  rw [Space.without]
  cases space with
  | mk entries distinct => simp [Dictionary.removeWhere]

theorem perform_scanSlots (pattern : String) (cursors : List Nat) :
    ((scanSlots pattern cursors).perform (execute server ⟨now, []⟩) space).2 = space ∧
      ∀ key, key ∈ ((scanSlots pattern cursors).perform (execute server ⟨now, []⟩) space).1 ↔
        key ∈ space.keys ∧ server.slot key ∈ cursors ∧ server.selects pattern key := by
  induction cursors with
  | nil => simp [scanSlots]
  | cons cursor rest induction =>
      have same : (execute server ⟨now, []⟩ (.scan cursor pattern) space).2 = space :=
        without_nil space
      rw [scanSlots, Program.perform_call, Program.perform_bind, same, Program.perform_done]
      refine ⟨induction.1, ?_⟩
      intro key
      change key ∈ List.filter _ (space.without []).keys ++ _ ↔ _
      rw [without_nil, List.mem_append, induction.2 key, List.mem_filter, List.mem_cons]
      simp only [Bool.decide_and, Bool.decide_eq_true, Bool.and_eq_true, decide_eq_true_eq]
      tauto

/-- A scan nobody interrupts finds the keys its pattern selects. -/
theorem perform_scanIter (pattern : String) :
    ((scanIter server pattern).perform (execute server ⟨now, []⟩) space).2 = space ∧
      ∀ key, key ∈ ((scanIter server pattern).perform (execute server ⟨now, []⟩) space).1 ↔
        key ∈ space.keys ∧ server.selects pattern key := by
  refine ⟨(perform_scanSlots server now space pattern _).1, ?_⟩
  intro key
  rw [scanIter, (perform_scanSlots server now space pattern _).2 key, List.mem_range]
  simp [server.slot_lt key]

theorem perform_deleteBatches_keeps (limit deleted : Nat) {key : String}
    {page batch : List String} (inPage : key ∉ page) (inBatch : key ∉ batch) :
    let outcome := (deleteBatches limit page batch deleted).perform (execute server ⟨now, []⟩) space
    key ∉ outcome.1.1 ∧ outcome.2.get? key = space.get? key := by
  induction page generalizing space batch deleted with
  | nil => exact ⟨inBatch, rfl⟩
  | cons head rest induction =>
      rcases not_or.mp (mt List.mem_cons.mpr inPage) with ⟨other, inRest⟩
      have extended : key ∉ batch ++ [head] := by
        simp [inBatch, other]
      rw [deleteBatches]
      split
      · rw [Program.perform_call]
        rcases induction _ _ inRest List.not_mem_nil with ⟨absent, same⟩
        refine ⟨absent, same.trans ?_⟩
        change ((space.without []).without (batch ++ [head])).get? key = _
        rw [without_nil, get?_without, if_neg extended]
      · exact induction _ _ inRest extended

theorem perform_scanDeleteSlots_keeps {pattern key : String} (limit deleted : Nat)
    (unselected : server.selects pattern key = false) (cursors : List Nat) {batch : List String}
    (inBatch : key ∉ batch) :
    ((scanDeleteSlots pattern limit cursors batch deleted).perform (execute server ⟨now, []⟩)
      space).2.get? key = space.get? key := by
  induction cursors generalizing space batch deleted with
  | nil =>
      cases batch with
      | nil => rfl
      | cons head rest =>
          change ((space.without []).without (head :: rest)).get? key = _
          rw [without_nil, get?_without, if_neg inBatch]
  | cons cursor rest induction =>
      have inPage : key ∉ (execute server ⟨now, []⟩ (.scan cursor pattern) space).1 := by
        intro listed
        have selected := (List.mem_filter.mp listed).2
        simp [unselected] at selected
      have same : (execute server ⟨now, []⟩ (.scan cursor pattern) space).2 = space :=
        without_nil space
      rw [scanDeleteSlots, Program.perform_call, Program.perform_bind, same]
      rcases perform_deleteBatches_keeps server now space limit deleted inPage inBatch with
        ⟨absent, kept⟩
      rw [induction _ _ absent, kept]

/-- Deleting the keys a pattern selects keeps the others. -/
theorem perform_scanDelete_keeps {pattern key : String} (limit : Nat)
    (unselected : server.selects pattern key = false) :
    ((scanDelete server pattern limit).perform (execute server ⟨now, []⟩) space).2.get? key =
      space.get? key :=
  perform_scanDeleteSlots_keeps server now space limit 0 unselected _ List.not_mem_nil

/-- A command that stores nothing and deletes other keys. -/
def Spares (key : String) : Command Value → Prop
  | .setex _ _ => False
  | .delete keys => key ∉ keys
  | _ => True

theorem spares_perform {α : Type} {key : String} {program : Client Value α}
    (spares : program.Makes (Spares key)) :
    (program.perform (execute server ⟨now, []⟩) space).2.get? key = space.get? key := by
  have kept : ∀ (request : Command Value) (later : Space Value), Spares key request →
      later.get? key = space.get? key →
        (execute server ⟨now, []⟩ request later).2.get? key = space.get? key := by
    intro request later spared same
    cases request with
    | setex other value => cases spared
    | delete keys =>
        change ((later.without []).without keys).get? key = _
        rw [without_nil, get?_without, if_neg spared, same]
    | get other => exact (congrArg (Dictionary.get? · key) (without_nil later)).trans same
    | scan cursor pattern => exact (congrArg (Dictionary.get? · key) (without_nil later)).trans same
    | clock => exact (congrArg (Dictionary.get? · key) (without_nil later)).trans same
  exact spares.perform kept rfl

/-- A program that stores nothing only removes. -/
theorem shrinks_perform {α : Type} {program : Client Value α} (clears : program.Makes Clearing) :
    Shrinks space (program.perform (execute server ⟨now, []⟩) space).2 :=
  have kept := fun _ later clearing (shrinks : Shrinks space later) =>
    shrinks.trans (shrinks_of_clearing _ clearing later)
  clears.perform kept (.refl space)

end

end RAGuardian.Keyspace
