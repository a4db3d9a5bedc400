import RAGuardian.Foundation.Glob
import RAGuardian.Service.PendingResults
import RAGuardian.Service.ScopeKeys

/-! # Staged results in Redis

`RedisPendingTurnResultStore`. Keys that have expired are not there any more. -/

namespace RAGuardian.Service

open Json Text

/-! ## The server -/

inductive RedisValue
  | payload (document : Document)
  | members (keys : List String)

abbrev RedisKeys := Dictionary String RedisValue

namespace RedisKeys

/-- `SMEMBERS` -/
def smembers (key : String) (keys : RedisKeys) : List String :=
  match keys.get? key with
  | some (.members members) => members
  | _ => []

/-- `STRLEN` -/
def strlen (key : String) (keys : RedisKeys) : Nat :=
  match keys.get? key with
  | some (.payload document) => utf8Bytes document.text
  | _ => 0

/-- `SADD` -/
def sadd (key member : String) (keys : RedisKeys) : RedisKeys :=
  keys.set key (.members (if member ∈ keys.smembers key then keys.smembers key
    else keys.smembers key ++ [member]))

/-- `SREM`; a set without members is removed. -/
def srem (key member : String) (keys : RedisKeys) : RedisKeys :=
  match keys.get? key with
  | some (.members members) =>
      if members.filter (· ≠ member) = [] then keys.erase key
      else keys.set key (.members (members.filter (· ≠ member)))
  | _ => keys

/-- `redis_scan_delete` -/
def scanDelete (pattern : String) (keys : RedisKeys) : Nat × RedisKeys :=
  ((keys.keys.filter (Glob.selects pattern)).length,
    keys.removeWhere fun key _ => Glob.selects pattern key)

end RedisKeys

/-! ## The store -/

/-- The constructor arguments, as the constructor completes them. -/
structure RedisPendingConfig extends PendingConfig where
  keyPrefix : String

namespace RedisPendingConfig

variable (config : RedisPendingConfig)

/-- `_index_key` -/
def indexKey : String :=
  config.keyPrefix ++ ":__index"

/-- `_turn_index_key` -/
def turnIndexKey (scopeKey turnId : String) : String :=
  config.keyPrefix ++ ":__turn:" ++ scopeKey ++ ":" ++ turnId

/-- `_redis_key` -/
def redisKey (scopeKey turnId leaseToken : String) : String :=
  config.keyPrefix ++ ":" ++ scopeKey ++ ":" ++ turnId ++ ":" ++ leaseToken

end RedisPendingConfig

/-- The loop of the script of `put` over the members of the index: without the members
that have no payload, with the bytes of all and of the one to be replaced. -/
def countMembers (indexKey valueKey : String) (members : List String) (keys : RedisKeys) :
    Nat × Nat × RedisKeys :=
  members.foldl (fun (total, previous, keys) member =>
    let size := keys.strlen member
    if size = 0 then (total, previous, keys.srem indexKey member)
    else (total + size, if member = valueKey then size else previous, keys)) (0, 0, keys)

namespace RedisPending

/-- `put` -/
def put (config : RedisPendingConfig) (now : Instant)
    (scopeKey turnId leaseToken resultDigest : String) (result : Value) (keys : RedisKeys) :
    Bool × RedisKeys :=
  if scopeKey = "" ∨ turnId = "" ∨ leaseToken = "" then (false, keys)
  else
    match encodePayload leaseToken resultDigest result now with
    | none => (false, keys)
    | some payload =>
        if config.maxPayloadBytes < utf8Bytes payload.text then (false, keys)
        else
          let valueKey := config.redisKey scopeKey turnId leaseToken
          let (total, previous, keys) := countMembers config.indexKey valueKey
            (keys.smembers config.indexKey) keys
          if config.maxTotalBytes < total - previous + utf8Bytes payload.text then (false, keys)
          else
            let keys : RedisKeys := keys.set valueKey (.payload payload)
            let keys := keys.sadd config.indexKey valueKey
            (true, keys.sadd (config.turnIndexKey scopeKey turnId) valueKey)

/-- `delete` -/
def delete (config : RedisPendingConfig) (scopeKey turnId : String) (keys : RedisKeys) :
    Bool × RedisKeys :=
  if scopeKey = "" ∨ turnId = "" then (false, keys)
  else
    let members := keys.smembers (config.turnIndexKey scopeKey turnId)
    let (removed, keys) := members.foldl (fun (removed, keys) member =>
      (removed || (keys.get? member).isSome,
        RedisKeys.srem config.indexKey member (keys.erase member))) (false, keys)
    (removed, keys.erase (config.turnIndexKey scopeKey turnId))

/-- `clear_scope` -/
def clearScope (config : RedisPendingConfig) (scopeKey : String) (keys : RedisKeys) :
    Nat × RedisKeys :=
  if scopeKey = "" then (0, keys)
  else
    let (deleted, keys) := keys.scanDelete (config.keyPrefix ++ ":" ++ scopeKey ++ ":*")
    (deleted, (keys.scanDelete (config.keyPrefix ++ ":__turn:" ++ scopeKey ++ ":*")).2)

end RedisPending

end RAGuardian.Service
