import RAGuardian.Foundation.Dictionary
import RAGuardian.History.Schema

/-! # Staged results

`PendingTurnResultStore`: the results of turns between their generation and their
durable commit, each under the lease of the worker that staged it. -/

namespace RAGuardian.Service

open Json Text
open History (Timestamp)

/-! ## Payloads -/

def pendingResultSchemaVersion : Int := 1

/-- A reading of `time.time()` with its shortest representation. -/
structure Instant where
  time : Timestamp
  representation : String

/-- `PendingTurnResult` -/
structure PendingTurnResult where
  scopeKey : String
  turnId : String
  leaseToken : String
  resultDigest : String
  result : Value

/-- The dictionary `_encode_payload` builds. -/
def pendingPayload (leaseToken resultDigest : String) (result : Value) (createdAt : Instant) :
    List (String × Value) :=
  [("schema_version", .int pendingResultSchemaVersion),
    ("lease_token", .str leaseToken),
    ("result_digest", .str resultDigest),
    ("result", result),
    ("created_at", .float (.finite createdAt.representation))]

/-- `_encode_payload` -/
def encodePayload (leaseToken resultDigest : String) (result : Value) (createdAt : Instant) :
    Option Document :=
  Document.dumpsWith .compact (.dict (pendingPayload leaseToken resultDigest result createdAt))

/-- `str(value or "")` -/
def textOf (value : Value) : String :=
  if value.truthy then value.scalarText.getD "" else ""

/-- `_decode_pending_result` -/
def decodePendingResult (document : Document) (scopeKey turnId : String) :
    Option PendingTurnResult :=
  match document.value with
  | .dict payload =>
      match Value.lookup payload "schema_version" with
      | .int version =>
          if version = pendingResultSchemaVersion then
            some {
              scopeKey := scopeKey
              turnId := turnId
              leaseToken := textOf (Value.lookup payload "lease_token")
              resultDigest := textOf (Value.lookup payload "result_digest")
              result := Value.lookup payload "result" }
          else none
      | _ => none
  | _ => none

/-! ## The store -/

/-- The constructor arguments, as the constructor corrects them. -/
structure PendingConfig where
  ttlSeconds : Nat := 21600
  maxPayloadBytes : Nat := 2097152
  maxTotalBytes : Nat := 67108864

structure PendingEntry where
  leaseToken : String
  payload : Document
  createdAt : Timestamp
  expiresAt : Timestamp
  sizeBytes : Nat

/-- `_entries` and `_total_bytes` -/
structure PendingStore where
  entries : Dictionary String PendingEntry
  totalBytes : Int

def PendingStore.empty : PendingStore := ⟨.empty, 0⟩

def unitSeparator : String := "\x1f"

/-- `_turn_prefix` -/
def turnPrefix (scopeKey turnId : String) : String :=
  scopeKey ++ unitSeparator ++ turnId ++ unitSeparator

/-- `_key` -/
def pendingKey (scopeKey turnId leaseToken : String) : String :=
  turnPrefix scopeKey turnId ++ leaseToken

namespace PendingStore

/-- `_remove_locked` on every key in order. -/
def removeLocked (keys : List String) (store : PendingStore) : PendingStore :=
  keys.foldl (fun store key =>
    match store.entries.get? key with
    | none => store
    | some entry => {
        entries := store.entries.erase key
        totalBytes := max 0 (store.totalBytes - entry.sizeBytes) }) store

/-- `_purge_expired_locked` -/
def purgeExpired (now : Timestamp) (store : PendingStore) : PendingStore :=
  store.removeLocked
    ((store.entries.entries.filter fun entry => entry.2.expiresAt ≤ now).map Prod.fst)

/-- `put` -/
def put (config : PendingConfig) (now : Instant) (scopeKey turnId leaseToken resultDigest : String)
    (result : Value) (ttlSeconds : Option Int) (store : PendingStore) : Bool × PendingStore :=
  if scopeKey = "" ∨ turnId = "" ∨ leaseToken = "" then (false, store)
  else
    let ttl := max 1 ((ttlSeconds.filter (· ≠ 0)).getD config.ttlSeconds)
    match encodePayload leaseToken resultDigest result now with
    | none => (false, store)
    | some payload =>
        let sizeBytes := utf8Bytes payload.text
        if config.maxPayloadBytes < sizeBytes then (false, store)
        else
          let store := store.purgeExpired now.time
          let key := pendingKey scopeKey turnId leaseToken
          let previousSize := ((store.entries.get? key).map (·.sizeBytes)).getD 0
          let projectedTotal := store.totalBytes - previousSize + sizeBytes
          if config.maxTotalBytes < projectedTotal then (false, store)
          else
            (true, {
              entries := store.entries.set key {
                leaseToken := leaseToken
                payload := payload
                createdAt := now.time
                expiresAt := now.time + ttl
                sizeBytes := sizeBytes }
              totalBytes := projectedTotal })

/-- The entry `get` reads: the one of the lease, or without a lease the first of the
newest ones of the turn. -/
def select (scopeKey turnId : String) (leaseToken : Option String) (store : PendingStore) :
    Option (String × PendingEntry) :=
  match leaseToken.filter (· ≠ "") with
  | some leaseToken =>
      let key := pendingKey scopeKey turnId leaseToken
      (store.entries.get? key).map fun entry => (key, entry)
  | none =>
      let candidates := store.entries.entries.filter fun entry =>
        startsWith (turnPrefix scopeKey turnId) entry.1
      candidates.find? fun candidate =>
        candidates.all fun other => other.2.createdAt ≤ candidate.2.createdAt

/-- `get` -/
def get (now : Instant) (scopeKey turnId : String) (leaseToken : Option String)
    (store : PendingStore) : Option PendingTurnResult × PendingStore :=
  if scopeKey = "" ∨ turnId = "" then (none, store)
  else
    let store := store.purgeExpired now.time
    match store.select scopeKey turnId leaseToken with
    | none => (none, store)
    | some (key, entry) =>
        match decodePendingResult entry.payload scopeKey turnId with
        | none => (none, store.removeLocked [key])
        | some pending => (some pending, store)

/-- The keys with a given start. -/
def keysFrom (start : String) (store : PendingStore) : List String :=
  store.entries.keys.filter (startsWith start)

/-- `delete` -/
def delete (scopeKey turnId : String) (store : PendingStore) : Bool × PendingStore :=
  if scopeKey = "" ∨ turnId = "" then (false, store)
  else
    let keys := store.keysFrom (turnPrefix scopeKey turnId)
    (!keys.isEmpty, store.removeLocked keys)

/-- `delete_if_lease` -/
def deleteIfLease (now : Instant) (scopeKey turnId leaseToken : String) (store : PendingStore) :
    Bool × PendingStore :=
  if scopeKey = "" ∨ turnId = "" ∨ leaseToken = "" then (false, store)
  else
    let key := pendingKey scopeKey turnId leaseToken
    let store := store.purgeExpired now.time
    match store.entries.get? key with
    | none => (false, store)
    | some entry =>
        if entry.leaseToken ≠ leaseToken then (false, store)
        else (true, store.removeLocked [key])

/-- `clear_scope` -/
def clearScope (now : Instant) (scopeKey : String) (store : PendingStore) :
    Nat × PendingStore :=
  if scopeKey = "" then (0, store)
  else
    let store := store.purgeExpired now.time
    let keys := store.keysFrom (scopeKey ++ unitSeparator)
    (keys.length, store.removeLocked keys)

/-- `clear_by_prefix` -/
def clearByPrefix (now : Instant) (start : String) (store : PendingStore) :
    Nat × PendingStore :=
  if start = "" then (0, store)
  else
    let store := store.purgeExpired now.time
    let keys := store.entries.keys.filter fun key =>
      start.toList.isPrefixOf (partition (Char.ofNat 0x1f) key.toList).1
    (keys.length, store.removeLocked keys)

/-- `clear_all` -/
def clearAll (_ : PendingStore) : PendingStore :=
  .empty

end PendingStore

end RAGuardian.Service
