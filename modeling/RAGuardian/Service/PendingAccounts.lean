import Mathlib.Algebra.Order.BigOperators.Group.List
import RAGuardian.Foundation.Execution
import RAGuardian.Service.PendingResults

/-! # The accounts of staged results

The store counts the bytes it holds, and a call reaches the entry of its own scope, turn
and lease only. -/

namespace RAGuardian.Service

open Execution Json Text
open History (Timestamp)

/-! ## Removal -/

theorem get?_removeLocked {keys : List String} {store : PendingStore} {key : String} :
    (store.removeLocked keys).entries.get? key =
      if key ∈ keys then none else store.entries.get? key := by
  induction keys generalizing store with
  | nil => rfl
  | cons head keys induction =>
      rw [PendingStore.removeLocked, List.foldl_cons, ← PendingStore.removeLocked, induction]
      by_cases later : key ∈ keys
      · simp [later]
      · rw [if_neg later]
        by_cases same : key = head
        · subst same
          rw [if_pos List.mem_cons_self]
          split
          · assumption
          · exact Dictionary.get?_erase_self _ _
        · rw [if_neg (by simp [same, later])]
          split
          · rfl
          · exact Dictionary.get?_erase_of_ne same

/-- A key that is purged is one of an entry that has expired. -/
theorem get?_purgeExpired {now : Timestamp} {store : PendingStore} {key : String}
    {entry : PendingEntry} : (store.purgeExpired now).entries.get? key = some entry ↔
      store.entries.get? key = some entry ∧ now < entry.expiresAt := by
  rw [PendingStore.purgeExpired, get?_removeLocked]
  split
  · rename_i purged
    rcases List.mem_map.mp purged with ⟨⟨_, other⟩, member, rfl⟩
    rcases List.mem_filter.mp member with ⟨stored, expired⟩
    rw [decide_eq_true_eq] at expired
    have found := Dictionary.get?_eq_some.mpr stored
    simp only [reduceCtorEq, false_iff, not_and, not_lt]
    intro same
    rw [found] at same
    exact Option.some.inj same ▸ expired
  · rename_i spared
    refine ⟨fun found => ⟨found, ?_⟩, fun found => found.1⟩
    by_contra expired
    refine spared (List.mem_map.mpr ⟨(key, entry), List.mem_filter.mpr ⟨?_, ?_⟩, rfl⟩)
    · exact Dictionary.get?_eq_some.mp found
    · exact decide_eq_true (not_lt.mp expired)

/-! ## Bytes -/

/-- The bytes of the payloads a store holds. -/
def PendingStore.storedBytes (store : PendingStore) : Int :=
  (store.entries.entries.map fun entry => (entry.2.sizeBytes : Int)).sum

/-- The counter is right and within the quota, and every payload can be decoded. -/
structure Accounted (config : PendingConfig) (store : PendingStore) : Prop where
  counted : store.totalBytes = store.storedBytes
  within : store.totalBytes ≤ config.maxTotalBytes
  decodes : ∀ key entry, store.entries.get? key = some entry → ∀ scopeKey turnId,
    decodePendingResult entry.payload scopeKey turnId ≠ none

section

variable {config : PendingConfig} {store : PendingStore} {key : String} {entry : PendingEntry}

theorem storedBytes_nonneg (entries : List (String × PendingEntry)) :
    0 ≤ (entries.map fun entry => (entry.2.sizeBytes : Int)).sum := by
  apply List.sum_nonneg
  intro size member
  rcases List.mem_map.mp member with ⟨entry, -, rfl⟩
  exact Int.natCast_nonneg _

/-- The bytes of an entry and of the rest. -/
theorem storedBytes_erase (found : store.entries.get? key = some entry) :
    store.storedBytes = entry.sizeBytes +
      ((store.entries.erase key).entries.map fun entry => (entry.2.sizeBytes : Int)).sum := by
  rw [PendingStore.storedBytes, ((Dictionary.perm_erase found).map _).sum_eq, List.map_cons,
    List.sum_cons]

theorem Accounted.remove (accounted : Accounted config store) (keys : List String) :
    Accounted config (store.removeLocked keys) := by
  apply foldl_invariant _ keys accounted
  intro key store accounted
  split
  · exact accounted
  · rename_i entry found
    have parts := storedBytes_erase found
    have rest := storedBytes_nonneg (store.entries.erase key).entries
    have counted := accounted.counted
    have within := accounted.within
    constructor
    · rw [PendingStore.storedBytes]
      dsimp only
      omega
    · dsimp only
      omega
    · intro other stored present
      exact accounted.decodes other stored (Dictionary.get?_of_erase present)

theorem Accounted.purge (accounted : Accounted config store) (now : Timestamp) :
    Accounted config (store.purgeExpired now) :=
  accounted.remove _

theorem decode_encodePayload {leaseToken resultDigest : String} {result : Value} {now : Instant}
    {payload : Document} (encoded : encodePayload leaseToken resultDigest result now = some payload)
    (scopeKey turnId : String) : decodePendingResult payload scopeKey turnId ≠ none := by
  have value : payload.value = .dict (pendingPayload leaseToken resultDigest result now) := by
    unfold encodePayload Document.dumpsWith at encoded
    split at encoded
    · cases encoded
      rfl
    · cases encoded
  rw [decodePendingResult, value]
  simp [pendingPayload, Value.lookup]

end

/-! ## Calls -/

/-- Where a result is staged. -/
structure Place where
  scopeKey : String
  turnId : String
  leaseToken : String
deriving DecidableEq

/-- No part has the separator. -/
def Place.Plain (place : Place) : Prop :=
  Char.ofNat 0x1f ∉ place.scopeKey.toList ∧ Char.ofNat 0x1f ∉ place.turnId.toList ∧
    Char.ofNat 0x1f ∉ place.leaseToken.toList

def Place.key (place : Place) : String :=
  pendingKey place.scopeKey place.turnId place.leaseToken

/-- The key names the place. -/
theorem Place.key_injective {place other : Place} (plain : place.Plain) (otherPlain : other.Plain)
    (same : place.key = other.key) : place = other := by
  have separator : unitSeparator.toList = [Char.ofNat 0x1f] := rfl
  have characters := congrArg String.toList same
  simp only [Place.key, pendingKey, turnPrefix, separator, String.toList_append,
    List.append_assoc, List.cons_append, List.nil_append] at characters
  have scopes := congrArg (partition (Char.ofNat 0x1f)) characters
  rw [partition_append plain.1, partition_append otherPlain.1, Prod.mk.injEq,
    Option.some.injEq] at scopes
  have turns := congrArg (partition (Char.ofNat 0x1f)) scopes.2
  rw [partition_append plain.2.1, partition_append otherPlain.2.1, Prod.mk.injEq,
    Option.some.injEq] at turns
  cases place
  cases other
  rw [Place.mk.injEq]
  exact ⟨String.toList_injective scopes.1, String.toList_injective turns.1,
    String.toList_injective turns.2⟩

/-- The calls of the store, with what each reads from its clock. -/
inductive PendingCall
  | put (now : Instant) (place : Place) (resultDigest : String) (result : Value)
    (ttlSeconds : Option Int)
  | get (now : Instant) (scopeKey turnId : String) (leaseToken : Option String)
  | delete (scopeKey turnId : String)
  | deleteIfLease (now : Instant) (place : Place)
  | clearByPrefix (now : Instant) (start : String)
  | clearScope (now : Instant) (scopeKey : String)
  | clearAll

def PendingCall.apply (config : PendingConfig) : PendingCall → PendingStore → PendingStore
  | .put now place resultDigest result ttlSeconds, store =>
      (store.put config now place.scopeKey place.turnId place.leaseToken resultDigest result
        ttlSeconds).2
  | .get now scopeKey turnId leaseToken, store => (store.get now scopeKey turnId leaseToken).2
  | .delete scopeKey turnId, store => (store.delete scopeKey turnId).2
  | .deleteIfLease now place, store =>
      (store.deleteIfLease now place.scopeKey place.turnId place.leaseToken).2
  | .clearByPrefix now start, store => (store.clearByPrefix now start).2
  | .clearScope now scopeKey, store => (store.clearScope now scopeKey).2
  | .clearAll, store => store.clearAll

def pendingRun (config : PendingConfig) (calls : List PendingCall) : PendingStore :=
  run (PendingCall.apply config) .empty calls

section

variable {config : PendingConfig} {store : PendingStore}

/-- A staged result replaces the one at its place. -/
theorem Accounted.put (accounted : Accounted config store) {entry : PendingEntry} {key : String}
    (within : store.totalBytes - ((store.entries.get? key).map (·.sizeBytes)).getD 0 +
      entry.sizeBytes ≤ config.maxTotalBytes)
    (decodes : ∀ scopeKey turnId, decodePendingResult entry.payload scopeKey turnId ≠ none) :
    Accounted config {
      entries := store.entries.set key entry
      totalBytes := store.totalBytes - ((store.entries.get? key).map (·.sizeBytes)).getD 0 +
        entry.sizeBytes } := by
  constructor
  · rw [PendingStore.storedBytes, ((Dictionary.perm_set store.entries key entry).map _).sum_eq,
      List.map_cons, List.sum_cons, accounted.counted]
    cases found : store.entries.get? key with
    | none =>
        rw [Dictionary.erase_of_get?_none found, PendingStore.storedBytes]
        simp [Int.add_comm]
    | some previous =>
        rw [storedBytes_erase found]
        simp only [Option.map_some, Option.getD_some]
        omega
  · exact within
  · intro other stored found
    rw [Dictionary.get?_set] at found
    split at found
    · cases found
      exact decodes
    · exact accounted.decodes other stored found

/-- The entry `get` reads is there. -/
theorem select_found {scopeKey turnId key : String} {leaseToken : Option String}
    {entry : PendingEntry} (selected : store.select scopeKey turnId leaseToken = some (key, entry)) :
    store.entries.get? key = some entry := by
  unfold PendingStore.select at selected
  split at selected
  · rcases Option.map_eq_some_iff.mp selected with ⟨stored, found, same⟩
    cases same
    exact found
  · have member := List.mem_of_find?_eq_some selected
    exact Dictionary.get?_eq_some.mpr (List.mem_filter.mp member).1

theorem get_accounted (accounted : Accounted config store) (now : Instant)
    (scopeKey turnId : String) (leaseToken : Option String) :
    (store.get now scopeKey turnId leaseToken).2 = store ∨
      (store.get now scopeKey turnId leaseToken).2 = store.purgeExpired now.time := by
  unfold PendingStore.get
  split
  · exact .inl rfl
  · right
    dsimp only
    split
    · rfl
    · rename_i key entry selected
      split
      · rename_i undecoded
        exact absurd undecoded
          ((accounted.purge now.time).decodes key entry (select_found selected) scopeKey turnId)
      · rfl

theorem PendingCall.apply_accounted (call : PendingCall) (accounted : Accounted config store) :
    Accounted config (call.apply config store) := by
  cases call with
  | put now place resultDigest result ttlSeconds =>
      rw [PendingCall.apply]
      unfold PendingStore.put
      split
      · exact accounted
      · dsimp only
        split
        · exact accounted
        · rename_i payload encoded
          split
          · exact accounted
          · split
            · exact accounted.purge now.time
            · rename_i fits
              exact (accounted.purge now.time).put (not_lt.mp fits) (decode_encodePayload encoded)
  | get now scopeKey turnId leaseToken =>
      rw [PendingCall.apply]
      rcases get_accounted accounted now scopeKey turnId leaseToken with same | purged
      · rw [same]
        exact accounted
      · rw [purged]
        exact accounted.purge now.time
  | delete scopeKey turnId =>
      rw [PendingCall.apply]
      unfold PendingStore.delete
      split
      · exact accounted
      · exact accounted.remove _
  | deleteIfLease now place =>
      rw [PendingCall.apply]
      unfold PendingStore.deleteIfLease
      split
      · exact accounted
      · dsimp only
        split
        · exact accounted.purge now.time
        · split
          · exact accounted.purge now.time
          · exact (accounted.purge now.time).remove _
  | clearByPrefix now start =>
      rw [PendingCall.apply]
      unfold PendingStore.clearByPrefix
      split
      · exact accounted
      · exact (accounted.purge now.time).remove _
  | clearScope now scopeKey =>
      rw [PendingCall.apply]
      unfold PendingStore.clearScope
      split
      · exact accounted
      · exact (accounted.purge now.time).remove _
  | clearAll =>
      exact ⟨rfl, Int.natCast_nonneg _, by intro key item stored; cases stored⟩

theorem pendingRun_accounted (config : PendingConfig) (calls : List PendingCall) :
    Accounted config (pendingRun config calls) := by
  apply run_invariant (fun _ => True) (fun call _ _ => call.apply_accounted) calls fun _ _ => trivial
  exact ⟨rfl, Int.natCast_nonneg _, nofun⟩

/-! ## Isolation -/

/-- A call that reads a time changes no entry that has not expired by then, except under
the keys it may touch. -/
def Spares (now : Timestamp) (touched : String → Prop) (before after : PendingStore) : Prop :=
  ∀ key entry, ¬ touched key → now < entry.expiresAt →
    (after.entries.get? key = some entry ↔ before.entries.get? key = some entry)

variable {now : Timestamp} {touched : String → Prop} {after : PendingStore}

theorem Spares.refl (store : PendingStore) : Spares now touched store store :=
  fun _ _ _ _ => Iff.rfl

theorem Spares.purge (store : PendingStore) : Spares now touched store (store.purgeExpired now) := by
  intro key entry _ unexpired
  rw [get?_purgeExpired]
  exact ⟨fun found => found.1, fun found => ⟨found, unexpired⟩⟩

theorem Spares.remove {keys : List String} (spares : Spares now touched store after)
    (within : ∀ key ∈ keys, touched key) : Spares now touched store (after.removeLocked keys) := by
  intro key entry spared unexpired
  rw [get?_removeLocked, if_neg fun member => spared (within key member)]
  exact spares key entry spared unexpired

theorem Spares.mono {wider : String → Prop} (spares : Spares now touched store after)
    (within : ∀ key, touched key → wider key) : Spares now wider store after :=
  fun key entry spared => spares key entry fun touches => spared (within key touches)

/-- A call on one place. -/
theorem put_spares (now : Instant) (place : Place) (resultDigest : String) (result : Value)
    (ttlSeconds : Option Int) (store : PendingStore) :
    Spares now.time (fun key => (store.put config now place.scopeKey place.turnId place.leaseToken
        resultDigest result ttlSeconds).1 = true ∧ key = place.key) store
      (store.put config now place.scopeKey place.turnId place.leaseToken resultDigest result
        ttlSeconds).2 := by
  unfold PendingStore.put
  split
  · exact .refl store
  · dsimp only
    split
    · exact .refl store
    · split
      · exact .refl store
      · split
        · exact .purge store
        · intro key entry spared unexpired
          have different : key ≠ pendingKey place.scopeKey place.turnId place.leaseToken :=
            fun same => spared ⟨rfl, same⟩
          dsimp only
          rw [Dictionary.get?_set_of_ne different]
          have purged : Spares now.time (fun _ => False) store (store.purgeExpired now.time) :=
            .purge store
          exact purged key entry id unexpired

theorem deleteIfLease_spares (now : Instant) (place : Place) (store : PendingStore) :
    Spares now.time (· = place.key) store
      (store.deleteIfLease now place.scopeKey place.turnId place.leaseToken).2 := by
  unfold PendingStore.deleteIfLease
  split
  · exact .refl store
  · dsimp only
    split
    · exact .purge store
    · split
      · exact .purge store
      · refine (Spares.purge store).remove ?_
        exact fun key member => List.mem_singleton.mp member

theorem get_spares (accounted : Accounted config store) (now : Instant)
    (scopeKey turnId : String) (leaseToken : Option String) :
    Spares now.time (fun _ => False) store (store.get now scopeKey turnId leaseToken).2 := by
  rcases get_accounted accounted now scopeKey turnId leaseToken with same | purged
  · rw [same]
    exact .refl store
  · rw [purged]
    exact .purge store

end

/-- After every run of calls the counter is the sum of the sizes and within the quota. What
has not expired is left alone by a refused `put`, and by the calls on other places. -/
theorem run_pending_accounted (config : PendingConfig) (calls : List PendingCall) :
    (pendingRun config calls).totalBytes = (pendingRun config calls).storedBytes ∧
    (pendingRun config calls).totalBytes ≤ config.maxTotalBytes ∧
    (∀ now place resultDigest result ttlSeconds,
      ((pendingRun config calls).put config now place.scopeKey place.turnId place.leaseToken
        resultDigest result ttlSeconds).1 = false →
      Spares now.time (fun _ => False) (pendingRun config calls)
        ((PendingCall.put now place resultDigest result ttlSeconds).apply config
          (pendingRun config calls))) ∧
    ∀ (now : Instant) (place other : Place), place.Plain → other.Plain → other ≠ place →
      ∀ entry : PendingEntry, now.time < entry.expiresAt →
      ∀ call : PendingCall,
        call = .deleteIfLease now place ∨
          call = .get now place.scopeKey place.turnId (some place.leaseToken) ∨
          (∃ resultDigest result ttlSeconds,
            call = .put now place resultDigest result ttlSeconds) →
        ((call.apply config (pendingRun config calls)).entries.get? other.key = some entry ↔
          (pendingRun config calls).entries.get? other.key = some entry) := by
  have accounted := pendingRun_accounted config calls
  refine ⟨accounted.counted, accounted.within, ?_, ?_⟩
  · intro now place resultDigest result ttlSeconds refused
    refine (put_spares now place resultDigest result ttlSeconds _).mono ?_
    rintro key ⟨accepted, -⟩
    rw [refused] at accepted
    cases accepted
  · intro now place other plain otherPlain different entry unexpired call
    have apart : other.key ≠ place.key := fun same =>
      different (Place.key_injective otherPlain plain same)
    rintro (rfl | rfl | ⟨resultDigest, result, ttlSeconds, rfl⟩)
    · exact deleteIfLease_spares now place _ other.key entry apart unexpired
    · exact get_spares accounted now _ _ _ other.key entry id unexpired
    · exact put_spares now place resultDigest result ttlSeconds _ other.key entry
        (fun touches => apart touches.2) unexpired

/-! ## Sample run -/

def samplePlace : Place := ⟨"w1:conversation-1", "turn-1", "lease-1"⟩
def takeover : Place := ⟨"w1:conversation-1", "turn-1", "lease-2"⟩

/-- The worker that has taken over stages its result next to the one of the first. -/
def stagedTwice : List PendingCall :=
  [.put ⟨10, "10.0"⟩ samplePlace "d1" (.str "first") none,
    .put ⟨20, "20.0"⟩ takeover "d2" (.str "second") (some 60)]

theorem run_pending_accounted_takeover :
    (((PendingCall.deleteIfLease ⟨30, "30.0"⟩ samplePlace).apply {}
      (pendingRun {} stagedTwice)).entries.get? takeover.key).isSome = true := by
  have isolated := (run_pending_accounted {} stagedTwice).2.2.2 ⟨30, "30.0"⟩ samplePlace takeover
    ⟨by decide, by decide, by decide⟩ ⟨by decide, by decide, by decide⟩ (by decide)
  have expires : ((pendingRun {} stagedTwice).entries.get? takeover.key).map (·.expiresAt) =
      some 80 := by
    decide +kernel
  rcases Option.map_eq_some_iff.mp expires with ⟨entry, found, later⟩
  rw [(isolated entry (by rw [later]; decide +kernel) _ (.inl rfl)).mpr found]
  rfl

end RAGuardian.Service
