import Mathlib.Algebra.Order.Ring.Rat
import Mathlib.Data.NNRat.Defs
import RAGuardian.Foundation.Concurrency
import RAGuardian.Foundation.Dictionary
import RAGuardian.Foundation.Text

/-! # The rate limiter

`RateLimiter` over the memory of one process, and over sorted sets of a Redis server.
Times are seconds of one clock. -/

namespace RAGuardian.Access

open Concurrency Execution Text

/-- The constructor arguments. -/
structure RateLimit where
  maxRequests : Nat
  windowSeconds : Nat
  maxRequests_pos : 1 ≤ maxRequests
  windowSeconds_pos : 1 ≤ windowSeconds

/-- `int` of a float -/
def truncated (value : ℚ) : Int :=
  value.num.tdiv value.den

/-! ## In memory -/

/-- `requests` -/
abbrev Requests := Dictionary String (List ℚ)

/-- `_is_allowed_memory`, with the lock held. -/
def isAllowedMemory (limit : RateLimit) (currentTime : ℚ) (clientIp : String)
    (requests : Requests) : (Bool × Int) × Requests :=
  let timestamps := ((requests.get? clientIp).getD []).filter fun timestamp =>
    currentTime - timestamp < limit.windowSeconds
  match timestamps with
  | oldest :: _ =>
      if limit.maxRequests ≤ timestamps.length then
        let waitTime := oldest + limit.windowSeconds - currentTime
        ((false, max 1 (truncated waitTime + 1)), requests.set clientIp timestamps)
      else ((true, 0), requests.set clientIp (timestamps ++ [currentTime]))
  -- the limit is at least one
  | [] => ((true, 0), requests.set clientIp [currentTime])

/-- The limiter of one process, and the calls it has allowed so far. -/
structure MemoryLimiter where
  now : ℚ
  requests : Requests
  allowed : List (String × ℚ)

/-- A call takes the lock some time after the one before it has released it. -/
structure MemoryCall where
  elapsed : ℚ≥0
  clientIp : String

def MemoryCall.apply (limit : RateLimit) (call : MemoryCall) (limiter : MemoryLimiter) :
    MemoryLimiter :=
  let currentTime := limiter.now + call.elapsed
  let ((isAllowed, _), requests) :=
    isAllowedMemory limit currentTime call.clientIp limiter.requests
  { now := currentTime
    requests := requests
    allowed :=
      if isAllowed then limiter.allowed ++ [(call.clientIp, currentTime)] else limiter.allowed }

/-- The times of the allowed calls of a client. -/
def MemoryLimiter.allowedTo (clientIp : String) (limiter : MemoryLimiter) : List ℚ :=
  (limiter.allowed.filter (·.1 = clientIp)).map Prod.snd

def memoryRun (limit : RateLimit) (start : ℚ) (calls : List MemoryCall) : MemoryLimiter :=
  run (MemoryCall.apply limit) ⟨start, .empty, []⟩ calls

/-! ## In Redis -/

/-- The scores of a sorted set, whose members are all different, and when it expires. -/
structure ScoreSet where
  scores : List ℚ
  deadline : Option ℚ

structure ScoreServer where
  now : ℚ
  sets : Dictionary String ScoreSet

/-- The clock of a worker, and the pipelines and commands of the server. -/
inductive ScoreCommand
  | time
  -- `zremrangebyscore(key, 0, cutoff)` and `zcard(key)`
  | pruneAndCount (key : String) (cutoff : ℚ)
  -- `zrange(key, 0, 0, withscores=True)`
  | lowest (key : String)
  | zadd (key : String) (score : ℚ)
  | expire (key : String) (seconds : Nat)

@[reducible] def ScoreCommand.Response : ScoreCommand → Type
  | .time => ℚ
  | .pruneAndCount _ _ => Nat
  | .lowest _ => Option ℚ
  | .zadd _ _ => Unit
  | .expire _ _ => Unit

namespace ScoreServer

/-- Time passes, and sets expire. -/
def elapse (elapsed : ℚ≥0) (server : ScoreServer) : ScoreServer where
  now := server.now + elapsed
  sets := server.sets.removeWhere fun _ set =>
    set.deadline.any fun deadline => deadline < server.now + elapsed

def scores (server : ScoreServer) (key : String) : List ℚ :=
  ((server.sets.get? key).map (·.scores)).getD []

/-- A set without members is removed together with its deadline. -/
def prune (key : String) (cutoff : ℚ) (server : ScoreServer) : ScoreServer :=
  match server.sets.get? key with
  | none => server
  | some set =>
      let kept := set.scores.filter fun score => ¬ (0 ≤ score ∧ score ≤ cutoff)
      { server with
        sets :=
          if kept = [] then server.sets.erase key
          else server.sets.set key { set with scores := kept } }

def add (key : String) (score : ℚ) (server : ScoreServer) : ScoreServer :=
  { server with
    sets := server.sets.set key {
      scores := server.scores key ++ [score]
      deadline := (server.sets.get? key).bind (·.deadline) } }

def setDeadline (key : String) (seconds : Nat) (server : ScoreServer) : ScoreServer :=
  match server.sets.get? key with
  | none => server
  | some set =>
      { server with
        sets := server.sets.set key { set with deadline := some (server.now + seconds) } }

end ScoreServer

def serveScores (command : ScoreCommand) (server : ScoreServer) :
    command.Response × ScoreServer :=
  match command with
  | .time => (server.now, server)
  | .pruneAndCount key cutoff =>
      let server := server.prune key cutoff
      ((server.scores key).length, server)
  | .lowest key => ((server.scores key).min?, server)
  | .zadd key score => ((), server.add key score)
  | .expire key seconds => ((), server.setDeadline key seconds)

/-- `_redis_key`; `digest` is the hexadecimal SHA-256 of a text. -/
def limiterKey (stateKeyPrefix : String) (digest : String → String) (clientIp : String) : String :=
  stateKeyPrefix ++ ":rate_limit:" ++ truncate 24 (digest clientIp)

abbrev ScoreProgram := Program ScoreCommand ScoreCommand.Response

/-- `_is_allowed_redis` from its pipeline on -/
def afterCount (limit : RateLimit) (key : String) (now : ℚ) (count : Nat) :
    ScoreProgram (Bool × Int) :=
  if limit.maxRequests ≤ count then
    .call (.lowest key) fun (oldest : Option ℚ) =>
    let waitTime :=
      match oldest with
      | none => (limit.windowSeconds : Int)
      | some score => truncated (score + limit.windowSeconds - now) + 1
    .call (.expire key (limit.windowSeconds + 1)) fun _ =>
    .done (false, max 1 waitTime)
  else
    .call (.zadd key now) fun _ =>
    .call (.expire key (limit.windowSeconds + 1)) fun _ =>
    .done (true, 0)

/-- `_is_allowed_redis` -/
def isAllowedRedis (limit : RateLimit) (key : String) : ScoreProgram (Bool × Int) :=
  .call .time fun (now : ℚ) =>
  .call (.pruneAndCount key (now - limit.windowSeconds)) (afterCount limit key now)

/-- The calls of all workers. -/
def limiterSystem (limit : RateLimit) (redisKey : String → String) :
    System ScoreCommand ScoreCommand.Response ℚ≥0 ScoreServer String fun _ => Bool × Int where
  execute elapsed command server := serveScores command (server.elapse elapsed)
  program clientIp := isAllowedRedis limit (redisKey clientIp)
  excludes _ _ := false

abbrev LimiterTask (limit : RateLimit) (redisKey : String → String) :=
  Task (limiterSystem limit redisKey)

abbrev LimiterMachine (limit : RateLimit) (redisKey : String → String) :=
  Machine (limiterSystem limit redisKey)

abbrev LimiterEvent := Event ℚ≥0 String

section

variable {limit : RateLimit} {redisKey : String → String}

/-- The time a call has read, which is the time of the call. -/
def readingOf (task : LimiterTask limit redisKey) : Option ℚ :=
  task.trail.findSome? fun step =>
    match step.request with
    | .time => some (step.after (limiterSystem limit redisKey)).now
    | _ => none

/-- The call has returned that it is allowed. -/
def isAllowed (task : LimiterTask limit redisKey) : Bool :=
  match task.remaining with
  | .done (isAllowed, _) => isAllowed
  | .call _ _ => false

/-- The times of the allowed calls of a client. -/
def allowedTo (clientIp : String) (machine : LimiterMachine limit redisKey) : List ℚ :=
  (machine.tasks.filter fun task => task.call = clientIp && isAllowed task).filterMap readingOf

end

def limiterRun (limit : RateLimit) (redisKey : String → String) (start : ℚ)
    (events : List LimiterEvent) : LimiterMachine limit redisKey :=
  run Machine.next (.initial _ ⟨start, .empty⟩) events

end RAGuardian.Access
