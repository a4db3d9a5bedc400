import Mathlib.Algebra.Order.Field.Rat
import Mathlib.Data.NNRat.Defs
import RAGuardian.Foundation.Execution

/-! # Lease renewal

`_RedisLeaseRenewer`, the lease it renews, and `assert_distributed_locks_healthy`. Times
are seconds of one clock. -/

namespace RAGuardian.Lifecycle

open Execution

/-! ## Errors -/

/-- What a Redis command raises. -/
inductive RedisError
  | authentication
  | authorization
  | connection
  | timeout
  | clusterDown
  | tryAgain
  | lockNotOwned
  | other (message : String)
deriving DecidableEq

/-- `_is_transient_redis_lease_error` -/
def RedisError.isTransient : RedisError → Bool
  | .connection | .timeout | .clusterDown | .tryAgain => true
  | _ => false

/-- The `error` of a renewer. -/
inductive LeaseError
  | raised (error : RedisError)
  | unrenewed (message : String)
  | expired (message : String) (cause : RedisError)
  | unstopped (message : String)
deriving DecidableEq

/-! ## Renewers -/

/-- The fields of a renewer. -/
structure Renewer where
  description : String
  ttl : Rat
  leaseDeadline : Rat
  lastRenewalError : Option RedisError := none
  error : Option LeaseError := none
deriving DecidableEq

/-- Where the thread of a renewer is: in `self._stop.wait`, in `self._renew` (with the reply
of the server, once it has executed the command), or at its end. -/
inductive RenewalPhase
  | waiting (wakeAt : Rat)
  | renewing (reply : Option Bool)
  | ended
deriving DecidableEq

namespace Renewer

def interval (renewer : Renewer) : Rat :=
  max 1 (renewer.ttl / 3)

def retryInterval (renewer : Renewer) : Rat :=
  max (1 / 20) (min 1 (renewer.ttl / 10))

/-- `__init__` -/
def init (description : String) (ttl now : Rat) : Renewer where
  description := description
  ttl := max (1 / 100) ttl
  leaseDeadline := now + max (1 / 100) ttl

/-- `_set_error` -/
def setError (error : LeaseError) (renewer : Renewer) : Renewer :=
  if renewer.error = none then { renewer with error := some error } else renewer

/-- `_set_expired_error` -/
def setExpiredError (cause : RedisError) (renewer : Renewer) : Renewer :=
  renewer.setError
    (.expired ("Unable to renew " ++ renewer.description ++ " lease before expiry") cause)

/-- `_run` once `self._renew()` has returned. -/
def renewed (now : Rat) (reply : Bool) (renewer : Renewer) : Renewer × RenewalPhase :=
  if reply then
    ({ renewer with lastRenewalError := none, leaseDeadline := now + renewer.ttl },
      .waiting (now + renewer.interval))
  else
    (renewer.setError (.unrenewed ("Unable to renew " ++ renewer.description ++ " lease")), .ended)

/-- `_run` once `self._renew()` has raised. -/
def raised (now : Rat) (error : RedisError) (renewer : Renewer) : Renewer × RenewalPhase :=
  if !error.isTransient then (renewer.setError (.raised error), .ended)
  else
    let renewer := { renewer with lastRenewalError := some error }
    let remaining := renewer.leaseDeadline - now
    if remaining ≤ 0 then (renewer.setExpiredError error, .ended)
    else (renewer, .waiting (now + min renewer.retryInterval remaining))

/-- `stop`, with the thread still alive after five seconds or not. -/
def stop (now : Rat) (alive : Bool) (renewer : Renewer) : Renewer :=
  let renewer :=
    if alive && renewer.error = none then
      renewer.setError
        (.unstopped ("Timed out stopping " ++ renewer.description ++ " lease renewer"))
    else renewer
  match renewer.error, renewer.lastRenewalError with
  | none, some cause =>
      if renewer.leaseDeadline ≤ now then renewer.setExpiredError cause else renewer
  | _, _ => renewer

end Renewer

/-! ## Leases -/

/-- A section before its renewer is registered, in its body, or after its end. -/
inductive LeaseStatus
  | entering
  | held
  | left
deriving DecidableEq

/-- A lease: when the server has last set its time to live, and who renews it. -/
structure Lease where
  timeout : Rat
  renewedAt : Rat
  renewer : Renewer
  phase : RenewalPhase
  status : LeaseStatus := .entering
deriving DecidableEq

namespace Lease

/-- The time at which the server drops the lease. -/
def expiresAt (lease : Lease) : Rat :=
  lease.renewedAt + lease.timeout

/-- `self._stop.wait(delay)` returns false. -/
def wake (now : Rat) (lease : Lease) : Lease :=
  match lease.phase with
  | .waiting wakeAt => if wakeAt ≤ now then { lease with phase := .renewing none } else lease
  | _ => lease

/-- The server executes the renewal. -/
def execute (now : Rat) (lease : Lease) : Lease :=
  match lease.phase with
  | .renewing none =>
      if now < lease.expiresAt then
        { lease with renewedAt := now, phase := .renewing (some true) }
      else { lease with phase := .renewing (some false) }
  | _ => lease

/-- The reply of the server arrives. -/
def answer (now : Rat) (lease : Lease) : Lease :=
  match lease.phase with
  | .renewing (some reply) =>
      let (renewer, phase) := lease.renewer.renewed now reply
      { lease with renewer := renewer, phase := phase }
  | _ => lease

/-- The renewal raises, whether the server has executed it or not. -/
def raise (now : Rat) (error : RedisError) (lease : Lease) : Lease :=
  match lease.phase with
  | .renewing _ =>
      let (renewer, phase) := lease.renewer.raised now error
      { lease with renewer := renewer, phase := phase }
  | _ => lease

/-- `_register_distributed_renewer` -/
def register (lease : Lease) : Lease :=
  if lease.status = .entering then { lease with status := .held } else lease

/-- The end of a section. -/
def stop (now : Rat) (alive : Bool) (lease : Lease) : Lease :=
  { lease with
    renewer := lease.renewer.stop now alive
    phase := if alive then lease.phase else .ended
    status := .left }

end Lease

/-! ## The thread that holds locks -/

structure Holder where
  now : Rat
  leases : List Lease

/-- `lock_ttl_seconds`, of the configured number. -/
def lockTtlSeconds (configured : Int) : Int :=
  max configured 60

/-- A lock is acquired some time before its renewer is started. Every step but the passing
of time happens at one instant. -/
inductive LeaseEvent
  | pass (elapsed : NNRat)
  | start (description : String) (configured : Int) (latency : NNRat)
  | wake (index : Nat)
  | execute (index : Nat)
  | answer (index : Nat)
  | raise (index : Nat) (error : RedisError)
  | register (index : Nat)
  | stop (index : Nat) (alive : Bool)

def Holder.change (index : Nat) (step : Lease → Lease) (holder : Holder) : Holder :=
  match holder.leases[index]? with
  | none => holder
  | some lease => { holder with leases := holder.leases.set index (step lease) }

def LeaseEvent.after : LeaseEvent → Holder → Holder
  | .pass elapsed, holder => { holder with now := holder.now + elapsed }
  | .start description configured latency, holder =>
      let renewer := Renewer.init description (lockTtlSeconds configured) holder.now
      { holder with leases := holder.leases ++ [{
          timeout := lockTtlSeconds configured
          renewedAt := holder.now - latency
          renewer := renewer
          phase := .waiting (holder.now + renewer.interval) }] }
  | .wake index, holder => holder.change index (Lease.wake holder.now)
  | .execute index, holder => holder.change index (Lease.execute holder.now)
  | .answer index, holder => holder.change index (Lease.answer holder.now)
  | .raise index error, holder => holder.change index (Lease.raise holder.now error)
  | .register index, holder => holder.change index Lease.register
  | .stop index alive, holder => holder.change index (Lease.stop holder.now alive)

def leaseRun (events : List LeaseEvent) : Holder :=
  run LeaseEvent.after ⟨0, []⟩ events

/-- `assert_distributed_locks_healthy`, with what it raises and from which error. -/
def assertDistributedLocksHealthy (holder : Holder) : Except (String × LeaseError) Unit :=
  (holder.leases.filter fun lease => lease.status = .held).forM fun lease =>
    match lease.renewer.error with
    | some error => .error ("Redis " ++ lease.renewer.description ++ " lock lease was lost", error)
    | none => .ok ()

end RAGuardian.Lifecycle
