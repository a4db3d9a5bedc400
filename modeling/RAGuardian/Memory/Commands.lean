import RAGuardian.Foundation.Keyspace
import RAGuardian.Memory.Store

/-! # The warm memory in Redis, command by command

`RedisConversationMemoryStore` with the single commands its methods send. A method
that takes the lock of a conversation holds it from its first command to its last. -/

namespace RAGuardian.Memory

open Concurrency Keyspace Text
open History (Timestamp)

/-! ## Keys -/

/-- What the store keeps under a key: a state, or the mark of a membership. -/
inductive Stored
  | state (state : ConversationState)
  | mark
deriving DecidableEq

/-- A store with its server. A set is iterated in the order of its listing. -/
structure RedisStore where
  config : MemoryConfig
  keyPrefix : String
  server : Server
  listing : Finset String → List String
  mem_listing : ∀ ids id, id ∈ listing ids ↔ id ∈ ids

abbrev Commands (α : Type) := Client Stored α

/-- `conversation_id.split(":", 1)[0]` -/
def workspaceOf (conversationId : String) : String :=
  String.ofList (partition ':' conversationId.toList).1

namespace RedisStore

variable (store : RedisStore)

/-- `_state_key` -/
def stateKey (conversationId : String) : String :=
  store.keyPrefix ++ ":" ++ conversationId

/-- `_membership_workspace_prefix` -/
def membershipWorkspacePrefix (workspaceId : String) : String :=
  store.keyPrefix ++ ":kb-membership:" ++ workspaceId ++ ":"

/-- `_membership_prefix` -/
def membershipPrefix (workspaceId knowledgeBaseId : String) : String :=
  store.membershipWorkspacePrefix workspaceId ++ knowledgeBaseId ++ ":"

/-- `_membership_key`, in the workspace of the conversation. -/
def membershipKey (conversationId knowledgeBaseId : String) : String :=
  store.membershipPrefix (workspaceOf conversationId) knowledgeBaseId ++ conversationId

/-! ## States -/

/-- What `_load_state` comes to. A value that is no state raises an error. -/
inductive Loaded
  | absent
  | broken
  | found (state : ConversationState)

/-- `_remove_memberships` -/
def removeMemberships (conversationId : String) (knowledgeBaseIds : Finset String) :
    Commands Unit :=
  match (store.listing knowledgeBaseIds).map (store.membershipKey conversationId) with
  | [] => .done ()
  | keys => .call (.delete keys) fun _ => .done ()

/-- `_load_state` -/
def loadState (conversationId : String) : Commands Loaded :=
  .call (.get (store.stateKey conversationId)) fun (raw : Option Stored) =>
    match raw with
    | none => .done .absent
    | some .mark => .done .broken
    | some (.state stored) =>
        .call .clock fun (now : Timestamp) =>
          let state := Redis.stateOfPayload now stored
          if (store.config.ttlSeconds : ℚ) < now - state.updatedAt then
            .call (.delete [store.stateKey conversationId]) fun _ =>
              (store.removeMemberships conversationId state.knowledgeBaseIds).bind fun _ =>
                .done .absent
          else .done (.found state)

/-- `_save_state`: the markers first, the state last. -/
def saveState (conversationId : String) (state : ConversationState) : Commands Unit :=
  (Program.each (store.listing state.knowledgeBaseIds) fun knowledgeBaseId =>
    .call (.setex (store.membershipKey conversationId knowledgeBaseId) .mark) fun _ =>
      .done ()).bind fun _ =>
    .call (.setex (store.stateKey conversationId) (.state state)) fun _ => .done ()

/-- Load the state and go on with it, unless that raises an error. -/
def loading {α : Type} (conversationId : String)
    (continuation : Option ConversationState → Commands α) : Commands (Option α) :=
  (store.loadState conversationId).bind fun loaded =>
    match loaded with
    | .broken => .done none
    | .absent => (continuation none).bind fun result => .done (some result)
    | .found state => (continuation (some state)).bind fun result => .done (some result)

/-! ## Methods -/

/-- The part `snapshot` and `render_for_prompt` share. -/
def read {α : Type} (conversationId : String) (view : ConversationState → α) (missing : α) :
    Commands (Option α) :=
  if conversationId = "" then .done (some missing)
  else
    store.loading conversationId fun loaded =>
      match loaded with
      | none => .done missing
      | some state =>
          .call .clock fun (now : Timestamp) =>
            let state := { state with updatedAt := now }
            (store.saveState conversationId state).bind fun _ => .done (view state)

/-- `append_turn` -/
def appendTurn (conversationId : String) (arguments : AppendArguments) :
    Commands (Option (Option ConversationSummaryJob)) :=
  if conversationId = "" then .done (some none)
  else
    store.loading conversationId fun loaded =>
      .call .clock fun (created : Timestamp) =>
        .call .clock fun (updated : Timestamp) =>
          let clock : Clock := ⟨created, created, updated⟩
          let appended := (loaded.getD (.fresh clock)).append clock arguments.turn
            arguments.knowledgeBaseIds
          let job := summaryJob store.config conversationId appended
          if appended.changed then
            (store.saveState conversationId appended.state).bind fun _ => .done job
          else .done job

/-- `hydrate_if_absent` -/
def hydrateIfAbsent (conversationId : String) (snapshot : DurableSnapshot) :
    Commands (Option Bool) :=
  if conversationId = "" then .done (some false)
  else
    store.loading conversationId fun loaded =>
      match loaded with
      | some _ => .done false
      | none =>
          .call .clock fun (created : Timestamp) =>
            .call .clock fun (updated : Timestamp) =>
              (store.saveState conversationId
                (snapshot.state store.config created updated)).bind fun _ => .done true

/-- `replace_from_durable` -/
def replaceFromDurable (conversationId : String) (snapshot : DurableSnapshot) :
    Commands (Option Bool) :=
  if conversationId = "" then .done (some false)
  else
    store.loading conversationId fun existing =>
      if existing.any fun state =>
          durableStateSequence snapshot.turns snapshot.throughSequence <
            conversationStateSequence state then
        .done false
      else
        .call .clock fun (created : Timestamp) =>
          .call .clock fun (updated : Timestamp) =>
            (store.saveState conversationId (snapshot.state store.config
              ((existing.map (·.createdAt)).getD created) updated)).bind fun _ => .done true

/-- `durable_state_is_current` -/
def durableStateIsCurrent (conversationId : String) (assistantSequence : Int) :
    Commands (Option Bool) :=
  if conversationId = "" then .done (some false)
  else
    store.loading conversationId fun loaded =>
      .done (stateCoversSequence loaded assistantSequence)

/-- `apply_summary` -/
def applySummary (job : ConversationSummaryJob) (summary : String) : Commands (Option Bool) :=
  store.loading job.conversationId fun loaded =>
    match loaded with
    | none => .done false
    | some state =>
        if state.version ≠ job.version then .done false
        else
          .call .clock fun (now : Timestamp) =>
            (store.saveState job.conversationId
              (state.summarize store.config now job summary)).bind fun _ => .done true

/-- `clear_if_version` -/
def clearIfVersion (conversationId : String) (version : Option Int) : Commands (Option Bool) :=
  match version with
  | none => .done (some false)
  | some version =>
      if conversationId = "" then .done (some false)
      else
        store.loading conversationId fun loaded =>
          match loaded with
          | none => .done false
          | some state =>
              if state.version ≠ version then .done false
              else
                .call (.delete [store.stateKey conversationId]) fun (count : Nat) =>
                  if count = 0 then .done false
                  else
                    (store.removeMemberships conversationId state.knowledgeBaseIds).bind
                      fun _ => .done true

/-- `clear`, which takes no lock. -/
def clear (conversationId : String) : Commands (Option Bool) :=
  if conversationId = "" then .done (some false)
  else
    store.loading conversationId fun loaded =>
      .call (.delete [store.stateKey conversationId]) fun (count : Nat) =>
        match loaded with
        | none => .done (decide (count ≠ 0))
        | some state =>
            (store.removeMemberships conversationId state.knowledgeBaseIds).bind fun _ =>
              .done (decide (count ≠ 0))

/-- `knowledge_base_ids`, which takes no lock. -/
def knowledgeBaseIds (conversationId : String) : Commands (Option (Finset String)) :=
  if conversationId = "" then .done (some ∅)
  else
    store.loading conversationId fun loaded =>
      .done ((loaded.map (·.knowledgeBaseIds)).getD ∅)

/-- Clear some conversations, and count those that had a state. -/
def clearEach : List String → Nat → Commands (Option Nat)
  | [], count => .done (some count)
  | conversationId :: rest, count =>
      (store.clear conversationId).bind fun deleted =>
        match deleted with
        | none => .done none
        | some deleted => clearEach rest (if deleted then count + 1 else count)

/-- `key[len(start):]` -/
def dropStart (start key : String) : String :=
  String.ofList (key.toList.drop start.toList.length)

/-- The markers `clear_by_prefix` takes for orphans. -/
def orphaned (workspacePrefix start key : String) : Bool :=
  match (partition ':' (dropStart workspacePrefix key).toList).2 with
  | none => false
  | some conversationId => startsWith start (String.ofList conversationId)

/-- The batches of `redis_scan_delete`. -/
def batchLimit : Nat := 200

/-- `clear_by_prefix` -/
def clearByPrefix (start : String) : Commands (Option Nat) :=
  if start = "" then .done (some 0)
  else
    (scanIter store.server (store.stateKey start ++ "*")).bind fun keys =>
      (store.clearEach (keys.map (dropStart (store.stateKey ""))) 0).bind fun count =>
        match count with
        | none => .done none
        | some count =>
            (scanDelete store.server (store.stateKey "lock:" ++ start ++ "*") batchLimit).bind
              fun _ =>
                let workspacePrefix := store.membershipWorkspacePrefix (workspaceOf start)
                (scanIter store.server (workspacePrefix ++ "*")).bind fun keys =>
                  match keys.filter (orphaned workspacePrefix start) with
                  | [] => .done (some count)
                  | markers => .call (.delete markers) fun _ => .done (some count)

/-- `clear_by_knowledge_base` -/
def clearByKnowledgeBase (workspaceId knowledgeBaseId : String) : Commands (Option Nat) :=
  let start := store.membershipPrefix workspaceId knowledgeBaseId
  (scanIter store.server (start ++ "*")).bind fun markers =>
    let single := workspaceId ++ ":kb:" ++ knowledgeBaseId ++ ":"
    (scanIter store.server (store.stateKey single ++ "*")).bind fun keys =>
      let conversationIds :=
        markers.map (dropStart start) ++ keys.map (dropStart (store.stateKey ""))
      (store.clearEach (store.listing conversationIds.toFinset) 0).bind fun deleted =>
        match deleted with
        | none => .done none
        | some deleted =>
            (scanDelete store.server (start ++ "*") batchLimit).bind fun _ =>
              .done (some deleted)

end RedisStore

/-! ## Calls -/

/-- The calls on the store. -/
inductive RedisCall
  | on (method : Method)
  | clearByPrefix (start : String)
  | clearByKnowledgeBase (workspaceId knowledgeBaseId : String)

/-- What a call returns, unless it raises an error. -/
@[reducible] def RedisCall.Outcome : RedisCall → Type
  | .on method => Option method.Response
  | .clearByPrefix _ => Option Nat
  | .clearByKnowledgeBase _ _ => Option Nat

/-- The conversation whose lock a method takes. -/
def Method.locks : Method → Option String
  | .snapshot conversationId => some conversationId
  | .renderForPrompt conversationId _ => some conversationId
  | .appendTurn conversationId _ => some conversationId
  | .hydrateIfAbsent conversationId _ => some conversationId
  | .replaceFromDurable conversationId _ => some conversationId
  | .durableStateIsCurrent conversationId _ => some conversationId
  | .applySummary job _ => some job.conversationId
  | .clear _ => none
  | .clearIfVersion conversationId _ => some conversationId
  | .knowledgeBaseIds _ => none

def RedisCall.locks : RedisCall → Option String
  | .on method => method.locks
  | _ => none

def RedisStore.method (store : RedisStore) : (method : Method) → Commands (Option method.Response)
  | .snapshot conversationId =>
      store.read conversationId (·.snapshot store.config) .absent
  | .renderForPrompt conversationId maxChars =>
      store.read conversationId
        (fun state => trimLeft (renderState state) (promptLimit store.config maxChars)) ""
  | .appendTurn conversationId arguments => store.appendTurn conversationId arguments
  | .hydrateIfAbsent conversationId snapshot => store.hydrateIfAbsent conversationId snapshot
  | .replaceFromDurable conversationId snapshot =>
      store.replaceFromDurable conversationId snapshot
  | .durableStateIsCurrent conversationId assistantSequence =>
      store.durableStateIsCurrent conversationId assistantSequence
  | .applySummary job summary => store.applySummary job summary
  | .clear conversationId => store.clear conversationId
  | .clearIfVersion conversationId version => store.clearIfVersion conversationId version
  | .knowledgeBaseIds conversationId => store.knowledgeBaseIds conversationId

def RedisStore.program (store : RedisStore) : (call : RedisCall) → Commands call.Outcome
  | .on method => store.method method
  | .clearByPrefix start => store.clearByPrefix start
  | .clearByKnowledgeBase workspaceId knowledgeBaseId =>
      store.clearByKnowledgeBase workspaceId knowledgeBaseId

/-- Workers that run these calls at once. Calls that take the same lock exclude each
other. -/
def RedisStore.workers (store : RedisStore) :
    System (Command Stored) Command.Response Draw (Space Stored) RedisCall RedisCall.Outcome where
  execute := execute store.server
  program := store.program
  excludes left right := left.locks.isSome && left.locks == right.locks

end RAGuardian.Memory
