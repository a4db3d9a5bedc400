import RAGuardian.History.Store.Lifecycle

/-! # Conversations, deletions and the operations as a whole

Renaming, archiving, summaries and the deletions with their artifact cleanup,
and the store as a state machine over its database. -/

namespace RAGuardian.History

open Json Text Artifacts

/-! ## Conversation edits -/

/-- `title = ?, status = ?, archived_at = ?, updated_at = ?` -/
def ConversationUpdate.edit (title : String) (status : ConversationStatus)
    (archivedAt : Option Timestamp) (updatedAt : Timestamp) : ConversationUpdate where
  apply row := { row with
    title := title
    status := status
    archivedAt := archivedAt
    updatedAt := updatedAt }
  id _ := rfl
  scopeKey _ := rfl

/-- The title as `update_conversation` stores it. -/
def checkTitle (title : String) : Except StoreError String := do
  let title := strip title
  require (title ≠ "") (.history (.conversationHistory "title cannot be empty"))
  require (title.length ≤ titleRenameMaxLen)
    (.history (.conversationHistory "title exceeds 120 characters"))
  return title

/-- `update_conversation`, returning the row as updated; the reply decodes it
after the commit. -/
def updateConversation (draws : Draws) (historyId : String) (title : Option String)
    (archived : Option Bool) (database : Database) :
    Except StoreError (ConversationRow × Database) := do
  let title ← title.mapM checkTitle
  let row ← orRaise (.history .notFound) (database.conversationById historyId)
  let active := database.turnRequests.any fun turn =>
    turn.conversationId == historyId && turn.inFlight
  require (¬ (archived = some true ∧ active = true))
    (.history (.inProgress "cannot archive a conversation with an active turn"))
  let (status, archivedAt) := match archived with
    | some true => (ConversationStatus.archived, some draws.now)
    | some false => (.active, none)
    | none => (row.status, row.archivedAt)
  let update := ConversationUpdate.edit (title.getD row.title) status archivedAt draws.now
  return (update.apply row, database.updateConversations (·.id == historyId) update)

/-- `summary = ?, summary_version = ?, summary_through_sequence = ?,
updated_at = ?` -/
def ConversationUpdate.summarize (summary : String) (version throughSequence : Int)
    (updatedAt : Timestamp) : ConversationUpdate where
  apply row := { row with
    summary := summary
    summaryVersion := version
    summaryThroughSequence := throughSequence
    updatedAt := updatedAt }
  id _ := rfl
  scopeKey _ := rfl

/-- `update_summary` -/
def updateSummary (draws : Draws) (scopeKey summary : String)
    (expectedVersion throughSequence : Int) (database : Database) : Bool × Database :=
  match database.conversationByScope scopeKey with
  | none => (false, database)
  | some row =>
      if row.summaryVersion ≠ expectedVersion then (false, database)
      else if throughSequence ≤ row.summaryThroughSequence then (false, database)
      else
        (true, database.updateConversations (·.id == row.id)
          (.summarize summary (expectedVersion + 1) throughSequence draws.now))

/-- `delete` -/
def delete (historyId : String) (database : Database) : Bool × Database :=
  if (database.conversationById historyId).isSome then
    (true, database.deleteConversation historyId)
  else
    (false, database)

/-! ## Artifact cleanup -/

/-- What `_artifact_cleanup_plan_locked` has gathered. -/
structure GatheredReferences where
  target : References
  retained : References
  safe : Bool

/-- Its loop body, on one message. Metadata that cannot be decoded makes the
plan unsafe; an exception of the extraction itself is not caught. -/
def GatheredReferences.visit (rules : UrlRules) (targetIds : List String)
    (gathered : GatheredReferences) (row : MessageRow) :
    Except StoreError GatheredReferences :=
  match row.metadata.loads (.dict []) with
  | none => .ok { gathered with safe := false }
  | some metadata => do
      let references ← referencesFromHistoryMetadata rules metadata
      if row.conversationId ∈ targetIds then
        return { gathered with target := gathered.target.union references }
      else
        return { gathered with retained := gathered.retained.union references }

/-- `_artifact_cleanup_plan_locked` -/
def artifactCleanupPlanLocked (config : StoreConfig) (conversationIds : List String)
    (database : Database) : Except StoreError DeletionPlan := do
  let visited := if conversationIds = [] then [] else database.messages
  let gathered ← visited.foldlM (GatheredReferences.visit config.urlRules conversationIds)
    ⟨.empty, .empty, true⟩
  return {
    conversationIds := conversationIds
    target := gathered.target
    retained := gathered.retained
    exclusive :=
      if gathered.safe then exclusiveReferences gathered.target gathered.retained
      else .empty
    safe := gathered.safe }

/-- The payload of an outbox row, with its keys in sorted order. -/
def outboxPayload (references : References) : Value :=
  let sorted (values : Finset String) : Value := .list ((Text.sorted values).map .str)
  .dict [("attachment_ids", sorted references.attachmentIds),
    ("image_names", sorted references.imageNames),
    ("run_ids", sorted references.runIds)]

/-- `_stage_artifact_cleanup_locked` -/
def stageArtifactCleanupLocked (draws : Draws) (cleanupKey : String)
    (references : References) (database : Database) : Except StoreError Database := do
  let encoded ← orRaise .typeError
    (Document.dumpsWith .canonical (outboxPayload references))
  return database.stageCleanup {
    cleanupKey := cleanupKey
    referencesJson := .document encoded
    createdAt := draws.outboxNow }

/-- The checkpoint both deletions take: a plan that is safe is staged. -/
def stageSafePlan (draws : Draws) (cleanupKey : String) (plan : DeletionPlan)
    (database : Database) : Except StoreError Database :=
  if plan.safe then stageArtifactCleanupLocked draws cleanupKey plan.exclusive database
  else .ok database

/-- `frozenset(value or ())` of strings. No other hashable value is ever staged. -/
def stringSet (value : Value) : Except StoreError (Finset String) := do
  let items ← iterate (value.orElse (.list []))
  let texts ← items.mapM fun item =>
    match item with
    | .str text => .ok text
    | _ => .error StoreError.typeError
  return texts.toFinset

/-- The references an outbox row holds. A payload that is not a dictionary has
no `get`, an error the caller does not catch. -/
def outboxReferences (row : OutboxRow) : Except StoreError References := do
  match ← orRaise .jsonDecode (row.referencesJson.loads (.dict [])) with
  | .dict payload =>
      return {
        attachmentIds := ← stringSet (Value.lookup payload "attachment_ids")
        imageNames := ← stringSet (Value.lookup payload "image_names")
        runIds := ← stringSet (Value.lookup payload "run_ids") }
  | _ => throw .attributeError

/-- `_artifact_cleanup_outbox_locked` -/
def artifactCleanupOutboxLocked (cleanupKey : String) (conversationIds : List String)
    (database : Database) : Except StoreError DeletionPlan :=
  let unprovenPlan : DeletionPlan := ⟨conversationIds, .empty, .empty, .empty, false⟩
  match database.cleanupOutbox.find? (·.cleanupKey == cleanupKey) with
  | none => .ok unprovenPlan
  | some row =>
      match outboxReferences row with
      | .ok references => .ok ⟨conversationIds, references, .empty, references, true⟩
      | .error .attributeError => .error .attributeError
      | .error _ => .ok unprovenPlan

/-- `delete_with_artifact_cleanup` -/
def deleteWithArtifactCleanup (config : StoreConfig) (draws : Draws) (historyId : String)
    (database : Database) : Except StoreError ((Bool × DeletionPlan) × Database) := do
  let cleanupKey := "conversation:" ++ historyId
  if (database.conversationById historyId).isNone then
    let plan ← artifactCleanupOutboxLocked cleanupKey [historyId] database
    return ((false, plan), database)
  else
    let plan ← artifactCleanupPlanLocked config [historyId] database
    let database ← stageSafePlan draws cleanupKey plan database
    return ((true, plan), database.deleteConversation historyId)

/-- `complete_artifact_cleanup` -/
def completeArtifactCleanup (cleanupKey : String) (database : Database) :
    Bool × Database :=
  if cleanupKey = "" then (false, database)
  else
    (database.cleanupOutbox.any (·.cleanupKey == cleanupKey),
      database.deleteCleanup cleanupKey)

/-! ## Deletion by knowledge base -/

/-- The conversations associated with a knowledge base, in table order. -/
def conversationIdsOf (knowledgeBaseId : String) (database : Database) : List String :=
  (database.knowledgeBases.filter fun row =>
    row.knowledgeBaseId == knowledgeBaseId).map (·.conversationId)

def deleteConversationIds (ids : List String) (database : Database) : Database :=
  ids.foldl (fun database id => database.deleteConversation id) database

/-- `delete_by_knowledge_base` -/
def deleteByKnowledgeBase (knowledgeBaseId : String) (database : Database) :
    Nat × Database :=
  let ids := conversationIdsOf knowledgeBaseId database
  (ids.length, deleteConversationIds ids database)

/-- `SELECT DISTINCT conversation_id ... ORDER BY conversation_id ASC` -/
def distinctConversationIdsOf (knowledgeBaseId : String) (database : Database) :
    List String :=
  (conversationIdsOf knowledgeBaseId database).eraseDups.insertionSort (· ≤ ·)

/-- `delete_by_knowledge_base_with_artifact_cleanup` -/
def deleteByKnowledgeBaseWithArtifactCleanup (config : StoreConfig) (draws : Draws)
    (knowledgeBaseId : String) (database : Database) :
    Except StoreError ((Nat × DeletionPlan) × Database) := do
  let cleanupKey := "knowledge-base:" ++ knowledgeBaseId
  let ids := distinctConversationIdsOf knowledgeBaseId database
  if ids = [] then
    let plan ← artifactCleanupOutboxLocked cleanupKey [] database
    return ((0, plan), database)
  else
    let plan ← artifactCleanupPlanLocked config ids database
    let database ← stageSafePlan draws cleanupKey plan database
    return ((ids.length, plan), deleteConversationIds ids database)

/-! ## Status -/

structure QuotaStatus where
  conversations : Nat
  maxConversations : Int
  bytes : Nat
  maxBytes : Int
  pendingTurns : Nat
  maxPendingTurns : Int
deriving DecidableEq, Repr

/-- The counts `quota_status` reports after its `cleanup_expired`. -/
def quotaStatus (config : StoreConfig) (database : Database) : QuotaStatus where
  conversations := database.conversations.countP fun row => 0 < row.messageCount
  maxConversations := config.maxConversations
  bytes := (database.conversations.map (·.payloadBytes)).sum
  maxBytes := config.maxHistoryBytes
  pendingTurns := database.turnRequests.countP TurnRow.inFlight
  maxPendingTurns := config.maxPendingTurns

/-! ## The store as a state machine -/

/-- The calls that write, with their arguments. -/
inductive Operation
  | beginTurn (arguments : BeginTurnArguments)
  | markTurnReady (scopeKey turnId leaseToken resultDigest : String)
  | completeTurn (arguments : CompleteTurnArguments)
  | recoverReadyTurn (scopeKey turnId requestFingerprint : String)
      (expectedLeaseToken : Option String)
  | renewTurnLease (scopeKey turnId leaseToken : String)
  | failTurn (scopeKey turnId leaseToken : String)
  | resetContinuity (historyId : String)
  | cleanupExpired (now : Option Timestamp)
  | updateConversation (historyId : String) (title : Option String)
      (archived : Option Bool)
  | updateSummary (scopeKey summary : String) (expectedVersion throughSequence : Int)
  | delete (historyId : String)
  | deleteWithArtifactCleanup (historyId : String)
  | completeArtifactCleanup (cleanupKey : String)
  | deleteByKnowledgeBase (knowledgeBaseId : String)
  | deleteByKnowledgeBaseWithArtifactCleanup (knowledgeBaseId : String)
  | quotaStatus

inductive Reply
  | begun (result : BeginTurnResult)
  | completed (result : CompleteTurnResult)
  | recovered (result : RecoverResult)
  | flag (value : Bool)
  | continuity (result : ContinuityResult)
  | cleanup (result : CleanupResult)
  | conversation (result : Conversation)
  | deleted (existed : Bool) (plan : DeletionPlan)
  | count (value : Nat)
  | cascaded (count : Nat) (plan : DeletionPlan)
  | quota (status : QuotaStatus)

/-- `BEGIN IMMEDIATE`, then `COMMIT`, or `ROLLBACK` on an exception. What the
call answers is built from the result of the transaction. -/
def transaction (reply : α → Except StoreError β)
    (body : Database → Except StoreError (α × Database)) (database : Database) :
    Except StoreError β × Database :=
  match body database with
  | .ok (result, committed) => (reply result, committed)
  | .error raised => (.error raised, database)

/-- One call of the store. -/
def Operation.run (config : StoreConfig) (draws : Draws) :
    Operation → Database → Except StoreError Reply × Database
  | .beginTurn arguments =>
      transaction (fun result => .ok (.begun result)) (History.beginTurn config draws arguments)
  | .markTurnReady scopeKey turnId leaseToken resultDigest =>
      transaction (fun value => .ok (.flag value))
        (History.markTurnReady draws scopeKey turnId leaseToken resultDigest)
  | .completeTurn arguments =>
      transaction (fun result => .ok (.completed result))
        (History.completeTurn config draws arguments)
  | .recoverReadyTurn scopeKey turnId requestFingerprint expectedLeaseToken =>
      transaction (fun result => result.decode.map .recovered)
        (History.recoverReadyTurn config draws scopeKey turnId requestFingerprint
          expectedLeaseToken)
  | .renewTurnLease scopeKey turnId leaseToken =>
      transaction (fun value => .ok (.flag value)) fun database =>
        .ok (History.renewTurnLease config draws scopeKey turnId leaseToken database)
  | .failTurn scopeKey turnId leaseToken =>
      transaction (fun value => .ok (.flag value)) fun database =>
        .ok (History.failTurn draws scopeKey turnId leaseToken database)
  | .resetContinuity historyId =>
      transaction (fun result => .ok (.continuity result))
        (History.resetContinuity draws historyId)
  | .cleanupExpired now =>
      transaction (fun result => .ok (.cleanup result)) fun database =>
        .ok (cleanupExpiredLocked config (now.getD draws.now) database)
  | .updateConversation historyId title archived =>
      transaction (fun row => (conversationRow row).map .conversation)
        (History.updateConversation draws historyId title archived)
  | .updateSummary scopeKey summary expectedVersion throughSequence =>
      transaction (fun value => .ok (.flag value)) fun database =>
        .ok (History.updateSummary draws scopeKey summary expectedVersion throughSequence
          database)
  | .delete historyId =>
      transaction (fun value => .ok (.flag value)) fun database =>
        .ok (History.delete historyId database)
  | .deleteWithArtifactCleanup historyId =>
      transaction (fun result => .ok (.deleted result.1 result.2))
        (History.deleteWithArtifactCleanup config draws historyId)
  | .completeArtifactCleanup cleanupKey =>
      transaction (fun value => .ok (.flag value)) fun database =>
        .ok (History.completeArtifactCleanup cleanupKey database)
  | .deleteByKnowledgeBase knowledgeBaseId =>
      transaction (fun value => .ok (.count value)) fun database =>
        .ok (History.deleteByKnowledgeBase knowledgeBaseId database)
  | .deleteByKnowledgeBaseWithArtifactCleanup knowledgeBaseId =>
      transaction (fun result => .ok (.cascaded result.1 result.2))
        (History.deleteByKnowledgeBaseWithArtifactCleanup config draws knowledgeBaseId)
  | .quotaStatus =>
      transaction (fun status => .ok (.quota status)) fun database =>
        let cleaned := (cleanupExpiredLocked config draws.now database).2
        .ok (History.quotaStatus config cleaned, cleaned)

/-- A call together with what it draws from its surroundings. -/
structure Event where
  operation : Operation
  draws : Draws

/-- The database an event leaves behind. -/
def Event.after (config : StoreConfig) (event : Event) (database : Database) : Database :=
  (event.operation.run config event.draws database).2

/-! ## One client on a store with the default limits -/

namespace Sample

def config : StoreConfig where
  urlRules := ⟨fun _ => false⟩

/-- The draws of a call at a given time, told apart by a name. -/
def draws (now : Timestamp) (name : String) : Draws where
  now := now
  outboxNow := now
  conversationId := "conversation-" ++ name
  leaseToken := name
  revivedLeaseToken := "revived-" ++ name

def begins (turnId : String) (parentTurnId : Option String) : BeginTurnArguments where
  clientConversationId := "c"
  scopeKey := "w:c"
  scopeKind := "default"
  turnId := turnId
  parentTurnId := parentTurnId
  requestFingerprint := "f"

def completes (turnId leaseToken : String) : CompleteTurnArguments where
  scopeKey := "w:c"
  turnId := turnId
  leaseToken := leaseToken
  requestFingerprint := "f"
  userContent := "question"
  assistantContent := "answer"

/-- A turn begun and completed. -/
def oneTurn : List Event :=
  [⟨.beginTurn (begins "t1" none), draws 0 "a"⟩,
    ⟨.completeTurn (completes "t1" "a"), draws 10 "b"⟩]

/-- A turn begun with a knowledge base. -/
def knowledgeTurn : List Event :=
  [⟨.beginTurn { begins "t1" none with selectedKnowledgeBaseIds := some ["k"] },
    draws 0 "a"⟩]

end Sample

end RAGuardian.History
