import Mathlib.Tactic.Linarith
import RAGuardian.Lifecycle.Renewer

/-! # Health of held leases

The check of a lease reads only what its renewal thread has recorded, and that thread
compares its deadline with the clock only when a renewal raises. A passed check proves
nothing about a lease whose renewal is late. -/

namespace RAGuardian.Lifecycle

open Execution

/-! ## Statements -/

/-- A passed check proves that the server still has every held lease. -/
def Holder.Healthy (holder : Holder) : Prop :=
  assertDistributedLocksHealthy holder = .ok () →
    ∀ lease ∈ holder.leases, lease.status = .held → holder.now < lease.expiresAt

/-- As long as the renewal thread of a lease has not ended, less than its time to live
passes between two renewals at the server: when time passes in its section, and when the
section is entered. -/
structure Punctual (events : List LeaseEvent) : Prop where
  passes : ∀ past (elapsed : NNRat), past ++ [.pass elapsed] <+: events →
    ∀ lease ∈ (leaseRun past).leases, lease.status = .held → lease.phase ≠ .ended →
      (leaseRun past).now + elapsed - lease.renewedAt < lease.timeout
  registers : ∀ past index, past ++ [.register index] <+: events →
    ∀ lease, (leaseRun past).leases[index]? = some lease → lease.status = .entering →
      lease.phase ≠ .ended → (leaseRun past).now - lease.renewedAt < lease.timeout

/-! ## One lease -/

/-- A thread that has ended has recorded an error, and a held lease is alive as long as its
thread runs. -/
structure Lease.Sound (now : Rat) (lease : Lease) : Prop where
  positive : 0 < lease.timeout
  recorded : lease.phase = .ended → lease.status ≠ .left → lease.renewer.error ≠ none
  alive : lease.status = .held → lease.phase ≠ .ended → now < lease.expiresAt

section

variable {now : Rat} {lease : Lease}

theorem setError_recorded (error : LeaseError) (renewer : Renewer) :
    (renewer.setError error).error ≠ none := by
  rw [Renewer.setError]
  split
  · exact Option.some_ne_none error
  · assumption

/-- A renewal that ends the thread has recorded an error. -/
theorem renewed_recorded (reply : Bool) (renewer : Renewer)
    (ended : (renewer.renewed now reply).2 = .ended) :
    (renewer.renewed now reply).1.error ≠ none := by
  rw [Renewer.renewed] at ended ⊢
  split
  · rename_i replied
    rw [if_pos replied] at ended
    nomatch ended
  · exact setError_recorded _ renewer

theorem raised_recorded (error : RedisError) (renewer : Renewer)
    (ended : (renewer.raised now error).2 = .ended) :
    (renewer.raised now error).1.error ≠ none := by
  rw [Renewer.raised] at ended ⊢
  split
  · exact setError_recorded _ renewer
  · rename_i transient
    rw [if_neg transient] at ended
    dsimp only at ended ⊢
    split
    · exact setError_recorded _ _
    · rename_i remaining
      rw [if_neg remaining] at ended
      nomatch ended

theorem Lease.Sound.wake (sound : lease.Sound now) : (lease.wake now).Sound now := by
  rw [Lease.wake]
  split
  · rename_i wakeAt phase
    split
    · refine ⟨sound.positive, nofun, fun held _ => ?_⟩
      apply sound.alive held
      rw [phase]
      nofun
    · exact sound
  · exact sound

theorem Lease.Sound.execute (sound : lease.Sound now) : (lease.execute now).Sound now := by
  rw [Lease.execute]
  split
  · rename_i phase
    split
    · refine ⟨sound.positive, nofun, fun _ _ => ?_⟩
      have positive := sound.positive
      rw [Lease.expiresAt]
      dsimp only
      linarith
    · refine ⟨sound.positive, nofun, fun held _ => ?_⟩
      apply sound.alive held
      rw [phase]
      nofun
  · exact sound

theorem Lease.Sound.answer (sound : lease.Sound now) : (lease.answer now).Sound now := by
  rw [Lease.answer]
  split
  · rename_i reply phase
    refine ⟨sound.positive, fun ended _ => renewed_recorded reply _ ended, fun held _ => ?_⟩
    apply sound.alive held
    rw [phase]
    nofun
  · exact sound

theorem Lease.Sound.raise (sound : lease.Sound now) (error : RedisError) :
    (lease.raise now error).Sound now := by
  rw [Lease.raise]
  split
  · rename_i reply phase
    refine ⟨sound.positive, fun ended _ => raised_recorded error _ ended, fun held _ => ?_⟩
    apply sound.alive held
    rw [phase]
    nofun
  · exact sound

theorem Lease.Sound.register (sound : lease.Sound now)
    (prompt : lease.status = .entering → lease.phase ≠ .ended →
      now - lease.renewedAt < lease.timeout) : lease.register.Sound now := by
  rw [Lease.register]
  split
  · rename_i entering
    refine ⟨sound.positive, fun ended _ => ?_, fun _ running => ?_⟩
    · apply sound.recorded ended
      rw [entering]
      nofun
    · have renewed := prompt entering running
      rw [Lease.expiresAt]
      dsimp only
      linarith
  · exact sound

theorem Lease.Sound.stop (sound : lease.Sound now) (alive : Bool) : (lease.stop now alive).Sound now :=
  ⟨sound.positive, fun _ left => absurd rfl left, nofun⟩

theorem Lease.Sound.pass (sound : lease.Sound now) {elapsed : Rat}
    (prompt : lease.status = .held → lease.phase ≠ .ended →
      now + elapsed - lease.renewedAt < lease.timeout) : lease.Sound (now + elapsed) := by
  refine ⟨sound.positive, sound.recorded, fun held running => ?_⟩
  have renewed := prompt held running
  rw [Lease.expiresAt]
  linarith

theorem start_sound (description : String) (configured : Int) (latency : Rat) (now : Rat) :
    Lease.Sound now {
      timeout := lockTtlSeconds configured
      renewedAt := now - latency
      renewer := .init description (lockTtlSeconds configured) now
      phase := .waiting (now + (Renewer.init description (lockTtlSeconds configured) now).interval) } := by
  refine ⟨?_, nofun, nofun⟩
  have least : 60 ≤ lockTtlSeconds configured := le_max_right configured 60
  have positive : 0 < lockTtlSeconds configured := by omega
  exact Int.cast_pos.mpr positive

end

/-! ## Runs -/

def Holder.Sound (holder : Holder) : Prop :=
  ∀ lease ∈ holder.leases, lease.Sound holder.now

theorem Holder.Sound.change {holder : Holder} (sound : holder.Sound) (index : Nat)
    {step : Lease → Lease}
    (kept : ∀ lease, holder.leases[index]? = some lease → lease.Sound holder.now →
      (step lease).Sound holder.now) : (holder.change index step).Sound := by
  rw [Holder.change]
  split
  · exact sound
  · rename_i lease found
    intro other member
    rcases List.mem_or_eq_of_mem_set member with before | rfl
    · exact sound other before
    · exact kept lease found (sound lease (List.mem_of_getElem? found))

/-- Time passes as the condition allows, and every other step keeps the leases sound. -/
theorem Holder.Sound.after {past : List LeaseEvent} {event : LeaseEvent}
    (punctual : Punctual (past ++ [event])) (sound : (leaseRun past).Sound) :
    (event.after (leaseRun past)).Sound := by
  cases event with
  | pass elapsed =>
      intro lease member
      exact (sound lease member).pass (punctual.passes past elapsed List.prefix_rfl lease member)
  | start description configured latency =>
      intro lease member
      rcases List.mem_append.mp member with before | new
      · exact sound lease before
      · rw [List.mem_singleton.mp new]
        exact start_sound description configured latency _
  | wake index => exact sound.change index fun _ _ lease => lease.wake
  | execute index => exact sound.change index fun _ _ lease => lease.execute
  | answer index => exact sound.change index fun _ _ lease => lease.answer
  | raise index error => exact sound.change index fun _ _ lease => lease.raise error
  | register index =>
      apply sound.change index
      intro lease found fine
      exact fine.register (punctual.registers past index List.prefix_rfl lease found)
  | stop index alive => exact sound.change index fun _ _ lease => lease.stop alive

theorem Punctual.before {past events : List LeaseEvent} (punctual : Punctual events)
    (within : past <+: events) : Punctual past where
  passes earlier elapsed early := punctual.passes earlier elapsed (early.trans within)
  registers earlier index early := punctual.registers earlier index (early.trans within)

theorem lease_run_sound {events : List LeaseEvent} (punctual : Punctual events) :
    (leaseRun events).Sound := by
  induction events using List.reverseRecOn with
  | nil => exact fun lease member => nomatch member
  | append_singleton past event induction =>
      rw [leaseRun, run_concat]
      exact Holder.Sound.after punctual (induction (punctual.before (List.prefix_append _ _)))

theorem forM_ok {Item Error : Type} {step : Item → Except Error Unit} {items : List Item}
    (passed : items.forM step = .ok ()) : ∀ item ∈ items, step item = .ok () := by
  induction items with
  | nil => nofun
  | cons first rest induction =>
      change (do step first; rest.forM step) = .ok () at passed
      cases outcome : step first with
      | error error =>
          rw [outcome] at passed
          nomatch passed
      | ok =>
          rw [outcome] at passed
          intro item member
          rcases List.mem_cons.mp member with rfl | later
          · exact outcome
          · exact induction passed item later

/-- A passed check has read no error. -/
theorem check_passed {holder : Holder} (passed : assertDistributedLocksHealthy holder = .ok ())
    {lease : Lease} (member : lease ∈ holder.leases) (held : lease.status = .held) :
    lease.renewer.error = none := by
  have read := forM_ok passed lease (List.mem_filter.mpr ⟨member, decide_eq_true held⟩)
  cases recorded : lease.renewer.error with
  | none => rfl
  | some error =>
      simp only [recorded] at read
      nomatch read

/-- `Punctual`, step by step. -/
def isPunctual (events : List LeaseEvent) : Bool :=
  checkEach (fun past event =>
    match event with
    | .pass elapsed =>
        (leaseRun past).leases.all fun lease =>
          lease.status = .held && lease.phase ≠ .ended →
            (leaseRun past).now + elapsed - lease.renewedAt < lease.timeout
    | .register index =>
        ((leaseRun past).leases[index]?).all fun lease =>
          lease.status = .entering && lease.phase ≠ .ended →
            (leaseRun past).now - lease.renewedAt < lease.timeout
    | _ => true) events

theorem punctual_of_check {events : List LeaseEvent} (checked : isPunctual events = true) :
    Punctual events where
  passes past elapsed within lease member held running := by
    have here := checkEach_sound checked within
    have here := of_decide_eq_true (List.all_eq_true.mp here lease member)
    apply here
    simp [held, running]
  registers past index within lease found entering running := by
    have here := checkEach_sound checked within
    dsimp only at here
    rw [found, Option.all_some] at here
    apply of_decide_eq_true here
    simp [entering, running]

/-- A lock that is renewed once, after a renewal that fails. -/
def renewedInTime : List LeaseEvent :=
  [.start "index writer" 60 (1 / 2), .register 0, .pass 20, .wake 0, .pass 5, .raise 0 .timeout,
    .pass 1, .wake 0, .pass 1, .execute 0, .pass 1, .answer 0, .pass 45]

/-- The renewal hangs until the lease is gone. -/
def renewedLate : List LeaseEvent :=
  [.start "index writer" 60 0, .register 0, .pass 20, .wake 0, .pass 40]

end RAGuardian.Lifecycle
