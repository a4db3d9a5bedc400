import Mathlib.Algebra.Order.Ring.Rat
import RAGuardian.Foundation.Dictionary
import RAGuardian.Memory.State

/-! # The warm memory stores

`ConversationMemoryStore`, and `RedisConversationMemoryStore` with every method
taken as one step. -/

namespace RAGuardian.Memory

open Text
open History (Timestamp)

/-! ## Methods -/

/-- What `snapshot` returns. -/
structure ConversationSnapshot where
  knowledgeBaseIds : Finset String
  promptContext : String
  retrievalContext : String
  version : Option Int
deriving DecidableEq

/-- The methods that work on one conversation, with their arguments. -/
inductive Method
  | snapshot (conversationId : String)
  | renderForPrompt (conversationId : String) (maxChars : Option Nat)
  | appendTurn (conversationId : String) (arguments : AppendArguments)
  | hydrateIfAbsent (conversationId : String) (snapshot : DurableSnapshot)
  | replaceFromDurable (conversationId : String) (snapshot : DurableSnapshot)
  | durableStateIsCurrent (conversationId : String) (assistantSequence : Int)
  | applySummary (job : ConversationSummaryJob) (summary : String)
  | clear (conversationId : String)
  | clearIfVersion (conversationId : String) (version : Option Int)
  | knowledgeBaseIds (conversationId : String)

@[reducible] def Method.Response : Method → Type
  | .snapshot _ => ConversationSnapshot
  | .renderForPrompt _ _ => String
  | .appendTurn _ _ => Option ConversationSummaryJob
  | .hydrateIfAbsent _ _ => Bool
  | .replaceFromDurable _ _ => Bool
  | .durableStateIsCurrent _ _ => Bool
  | .applySummary _ _ => Bool
  | .clear _ => Bool
  | .clearIfVersion _ _ => Bool
  | .knowledgeBaseIds _ => Finset String

/-- `ConversationSnapshot()` -/
def ConversationSnapshot.absent : ConversationSnapshot where
  knowledgeBaseIds := ∅
  promptContext := ""
  retrievalContext := ""
  version := none

/-- The snapshot of a state. -/
def ConversationState.snapshot (config : MemoryConfig) (state : ConversationState) :
    ConversationSnapshot :=
  let rendered := renderState state
  { knowledgeBaseIds := state.knowledgeBaseIds
    promptContext := trimLeft rendered config.promptMaxChars
    retrievalContext := trimLeft rendered config.retrievalMaxChars
    version := some state.version }

/-- `max_chars or self.prompt_max_chars` -/
def promptLimit (config : MemoryConfig) : Option Nat → Nat
  | none => config.promptMaxChars
  | some limit => if limit = 0 then config.promptMaxChars else limit

/-! ## In the process -/

/-- `_conversations`, least recently used first. -/
abbrev Conversations := Dictionary String ConversationState

/-- `_purge_expired` -/
def purgeExpired (config : MemoryConfig) (now : Timestamp) (memory : Conversations) : Conversations :=
  memory.removeWhere fun _ state => (config.ttlSeconds : ℚ) < now - state.updatedAt

/-- `_evict_if_needed` -/
def evictIfNeeded (config : MemoryConfig) (memory : Conversations) : Conversations :=
  Dictionary.dropOldest^[memory.entries.length - config.maxItems] memory

/-- Store a state as the most recently used one. -/
def Conversations.touch (conversationId : String) (state : ConversationState) (memory : Conversations) :
    Conversations :=
  (memory.set conversationId state).moveToEnd conversationId

/-- The state `snapshot` and `render_for_prompt` read, with the time of use
noted. -/
def Conversations.read (config : MemoryConfig) (clock : Clock) (conversationId : String)
    (memory : Conversations) : Option ConversationState × Conversations :=
  let memory := purgeExpired config clock.purgedAt memory
  match memory.get? conversationId with
  | none => (none, memory)
  | some state =>
      let state := { state with updatedAt := clock.updatedAt }
      (some state, Conversations.touch conversationId state memory)

namespace InProcess

variable (config : MemoryConfig) (clock : Clock)

/-- `append_turn` -/
def appendTurn (conversationId : String) (arguments : AppendArguments) (memory : Conversations) :
    Option ConversationSummaryJob × Conversations :=
  if conversationId = "" then (none, memory)
  else
    let memory := purgeExpired config clock.purgedAt memory
    let state := (memory.get? conversationId).getD (.fresh clock)
    let appended := state.append clock arguments.turn arguments.knowledgeBaseIds
    (summaryJob config conversationId appended,
      evictIfNeeded config (Conversations.touch conversationId appended.state memory))

/-- `hydrate_if_absent` -/
def hydrateIfAbsent (conversationId : String) (snapshot : DurableSnapshot)
    (memory : Conversations) : Bool × Conversations :=
  if conversationId = "" then (false, memory)
  else
    let memory := purgeExpired config clock.purgedAt memory
    match memory.get? conversationId with
    | some _ => (false, memory)
    | none =>
        let state := snapshot.state config clock.createdAt clock.updatedAt
        (true, evictIfNeeded config (Conversations.touch conversationId state memory))

/-- `replace_from_durable` -/
def replaceFromDurable (conversationId : String) (snapshot : DurableSnapshot)
    (memory : Conversations) : Bool × Conversations :=
  if conversationId = "" then (false, memory)
  else
    let memory := purgeExpired config clock.purgedAt memory
    let existing := memory.get? conversationId
    if existing.any fun state =>
        durableStateSequence snapshot.turns snapshot.throughSequence <
          conversationStateSequence state then
      (false, memory)
    else
      let createdAt := (existing.map (·.createdAt)).getD clock.createdAt
      let state := snapshot.state config createdAt clock.updatedAt
      (true, evictIfNeeded config (Conversations.touch conversationId state memory))

/-- `apply_summary` -/
def applySummary (job : ConversationSummaryJob) (summary : String) (memory : Conversations) :
    Bool × Conversations :=
  let memory := purgeExpired config clock.purgedAt memory
  match memory.get? job.conversationId with
  | none => (false, memory)
  | some state =>
      if state.version ≠ job.version then (false, memory)
      else
        (true, Conversations.touch job.conversationId
          (state.summarize config clock.updatedAt job summary) memory)

/-- `clear` -/
def clear (conversationId : String) (memory : Conversations) : Bool × Conversations :=
  if conversationId = "" then (false, memory)
  else ((memory.get? conversationId).isSome, memory.erase conversationId)

/-- `clear_if_version` -/
def clearIfVersion (conversationId : String) (version : Option Int) (memory : Conversations) :
    Bool × Conversations :=
  match version with
  | none => (false, memory)
  | some version =>
      if conversationId = "" then (false, memory)
      else
        let memory := purgeExpired config clock.purgedAt memory
        match memory.get? conversationId with
        | none => (false, memory)
        | some state =>
            if state.version ≠ version then (false, memory)
            else (true, memory.erase conversationId)

/-- One method call on the store of a process. -/
def execute : (method : Method) → Conversations → method.Response × Conversations
  | .snapshot conversationId, memory =>
      if conversationId = "" then (.absent, memory)
      else
        let (state, memory) := Conversations.read config clock conversationId memory
        ((state.map (·.snapshot config)).getD .absent, memory)
  | .renderForPrompt conversationId maxChars, memory =>
      if conversationId = "" then ("", memory)
      else
        let (state, memory) := Conversations.read config clock conversationId memory
        ((state.map fun state =>
          trimLeft (renderState state) (promptLimit config maxChars)).getD "", memory)
  | .appendTurn conversationId arguments, memory =>
      appendTurn config clock conversationId arguments memory
  | .hydrateIfAbsent conversationId snapshot, memory =>
      hydrateIfAbsent config clock conversationId snapshot memory
  | .replaceFromDurable conversationId snapshot, memory =>
      replaceFromDurable config clock conversationId snapshot memory
  | .durableStateIsCurrent conversationId assistantSequence, memory =>
      if conversationId = "" then (false, memory)
      else
        let memory := purgeExpired config clock.purgedAt memory
        (stateCoversSequence (memory.get? conversationId) assistantSequence, memory)
  | .applySummary job summary, memory => applySummary config clock job summary memory
  | .clear conversationId, memory => clear conversationId memory
  | .clearIfVersion conversationId version, memory =>
      clearIfVersion config clock conversationId version memory
  | .knowledgeBaseIds conversationId, memory =>
      if conversationId = "" then (∅, memory)
      else
        let memory := purgeExpired config clock.purgedAt memory
        (((memory.get? conversationId).map (·.knowledgeBaseIds)).getD ∅, memory)

/-- `clear_by_prefix` -/
def clearByPrefix (start : String) (memory : Conversations) : Nat × Conversations :=
  if start = "" then (0, memory)
  else
    let selects (conversationId : String) (_ : ConversationState) : Bool :=
      startsWith start conversationId
    ((memory.entries.countP fun entry => selects entry.1 entry.2),
      memory.removeWhere selects)

/-- `clear_by_knowledge_base` -/
def clearByKnowledgeBase (workspaceId knowledgeBaseId : String) (memory : Conversations) :
    Nat × Conversations :=
  let selects (conversationId : String) (state : ConversationState) : Bool :=
    startsWith (workspaceId ++ ":kb:" ++ knowledgeBaseId ++ ":") conversationId ||
      (startsWith (workspaceId ++ ":multi-chat:") conversationId &&
        decide (knowledgeBaseId ∈ state.knowledgeBaseIds))
  ((memory.entries.countP fun entry => selects entry.1 entry.2), memory.removeWhere selects)

end InProcess

/-! ## In Redis -/

/-- The states kept under the conversations' keys. -/
abbrev RedisMemory := Dictionary String ConversationState

/-- What a Redis call meets: the clock of its worker, and whether the server has
dropped the key of its conversation by then. -/
structure RedisDraw where
  clock : Clock
  expired : Bool

namespace Redis

variable (config : MemoryConfig) (draw : RedisDraw)

/-- The state `_load_state` makes of a payload; a falsy time is read as the present. -/
def stateOfPayload (now : Timestamp) (stored : ConversationState) : ConversationState :=
  { stored with
    createdAt := if stored.createdAt = 0 then now else stored.createdAt
    updatedAt := if stored.updatedAt = 0 then now else stored.updatedAt }

/-- `_load_state`, which deletes a state past its time to live. -/
def loadState (conversationId : String) (memory : RedisMemory) :
    Option ConversationState × RedisMemory :=
  if draw.expired then (none, memory.erase conversationId)
  else
    match memory.get? conversationId with
    | none => (none, memory)
    | some stored =>
        let now := draw.clock.purgedAt
        let state := stateOfPayload now stored
        if (config.ttlSeconds : ℚ) < now - state.updatedAt then
          (none, memory.erase conversationId)
        else
          (some state, memory)

/-- The state `snapshot` and `render_for_prompt` read, saved with the time of use. -/
def read (conversationId : String) (memory : RedisMemory) :
    Option ConversationState × RedisMemory :=
  match loadState config draw conversationId memory with
  | (none, memory) => (none, memory)
  | (some state, memory) =>
      let state := { state with updatedAt := draw.clock.updatedAt }
      (some state, memory.set conversationId state)

/-- `append_turn`, which saves only what has changed. -/
def appendTurn (conversationId : String) (arguments : AppendArguments)
    (memory : RedisMemory) : Option ConversationSummaryJob × RedisMemory :=
  if conversationId = "" then (none, memory)
  else
    let (loaded, memory) := loadState config draw conversationId memory
    let state := loaded.getD (.fresh draw.clock)
    let appended := state.append draw.clock arguments.turn arguments.knowledgeBaseIds
    (summaryJob config conversationId appended,
      if appended.changed then memory.set conversationId appended.state else memory)

/-- `hydrate_if_absent` -/
def hydrateIfAbsent (conversationId : String) (snapshot : DurableSnapshot)
    (memory : RedisMemory) : Bool × RedisMemory :=
  if conversationId = "" then (false, memory)
  else
    match loadState config draw conversationId memory with
    | (some _, memory) => (false, memory)
    | (none, memory) =>
        (true, memory.set conversationId
          (snapshot.state config draw.clock.createdAt draw.clock.updatedAt))

/-- `replace_from_durable` -/
def replaceFromDurable (conversationId : String) (snapshot : DurableSnapshot)
    (memory : RedisMemory) : Bool × RedisMemory :=
  if conversationId = "" then (false, memory)
  else
    let (existing, memory) := loadState config draw conversationId memory
    if existing.any fun state =>
        durableStateSequence snapshot.turns snapshot.throughSequence <
          conversationStateSequence state then
      (false, memory)
    else
      let createdAt := (existing.map (·.createdAt)).getD draw.clock.createdAt
      (true, memory.set conversationId (snapshot.state config createdAt draw.clock.updatedAt))

/-- `apply_summary` -/
def applySummary (job : ConversationSummaryJob) (summary : String)
    (memory : RedisMemory) : Bool × RedisMemory :=
  match loadState config draw job.conversationId memory with
  | (none, memory) => (false, memory)
  | (some state, memory) =>
      if state.version ≠ job.version then (false, memory)
      else
        (true, memory.set job.conversationId
          (state.summarize config draw.clock.updatedAt job summary))

/-- `clear` -/
def clear (conversationId : String) (memory : RedisMemory) : Bool × RedisMemory :=
  if conversationId = "" then (false, memory)
  else
    let (_, memory) := loadState config draw conversationId memory
    ((memory.get? conversationId).isSome, memory.erase conversationId)

/-- `clear_if_version` -/
def clearIfVersion (conversationId : String) (version : Option Int)
    (memory : RedisMemory) : Bool × RedisMemory :=
  match version with
  | none => (false, memory)
  | some version =>
      if conversationId = "" then (false, memory)
      else
        match loadState config draw conversationId memory with
        | (none, memory) => (false, memory)
        | (some state, memory) =>
            if state.version ≠ version then (false, memory)
            else (true, memory.erase conversationId)

/-- One method call on the store in Redis. -/
def execute : (method : Method) → RedisMemory → method.Response × RedisMemory
  | .snapshot conversationId, memory =>
      if conversationId = "" then (.absent, memory)
      else
        let (state, memory) := read config draw conversationId memory
        ((state.map (·.snapshot config)).getD .absent, memory)
  | .renderForPrompt conversationId maxChars, memory =>
      if conversationId = "" then ("", memory)
      else
        let (state, memory) := read config draw conversationId memory
        ((state.map fun state =>
          trimLeft (renderState state) (promptLimit config maxChars)).getD "", memory)
  | .appendTurn conversationId arguments, memory =>
      appendTurn config draw conversationId arguments memory
  | .hydrateIfAbsent conversationId snapshot, memory =>
      hydrateIfAbsent config draw conversationId snapshot memory
  | .replaceFromDurable conversationId snapshot, memory =>
      replaceFromDurable config draw conversationId snapshot memory
  | .durableStateIsCurrent conversationId assistantSequence, memory =>
      if conversationId = "" then (false, memory)
      else
        let (state, memory) := loadState config draw conversationId memory
        (stateCoversSequence state assistantSequence, memory)
  | .applySummary job summary, memory => applySummary config draw job summary memory
  | .clear conversationId, memory => clear config draw conversationId memory
  | .clearIfVersion conversationId version, memory =>
      clearIfVersion config draw conversationId version memory
  | .knowledgeBaseIds conversationId, memory =>
      if conversationId = "" then (∅, memory)
      else
        let (state, memory) := loadState config draw conversationId memory
        ((state.map (·.knowledgeBaseIds)).getD ∅, memory)

end Redis

end RAGuardian.Memory
