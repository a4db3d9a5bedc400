import RAGuardian.History.Store.Common

/-! # Beginning a turn

Operations of `ConversationHistoryStore` run inside a single `BEGIN IMMEDIATE`
transaction. Each is a function from the database it finds to the database it
commits; an exception rolls the transaction back. -/

namespace RAGuardian.History

open Json

structure BeginTurnArguments where
  clientConversationId : String
  scopeKey : String
  scopeKind : String
  turnId : String
  parentTurnId : Option String
  requestFingerprint : String
  selectedKnowledgeBaseIds : Option (List String) := none
  agentId : String := ""
  agentName : String := ""
  providerId : String := ""
  modelId : String := ""
  promptRef : Option (List (String × Value)) := none
  responseLanguage : String := "auto"

inductive BeginTurnReply
  | new (leaseToken : String) (leaseExpiresAt : Timestamp)
  | ready (resultDigest leaseToken : Option String) (leaseExpiresAt : Option Timestamp)
  | complete (messages : List Message)

/-- `result["status"]` -/
def BeginTurnReply.status : BeginTurnReply → String
  | .new _ _ => "new"
  | .ready _ _ _ => "ready"
  | .complete _ => "complete"

structure BeginTurnResult where
  reply : BeginTurnReply
  conversation : Conversation

/-- `_assert_linear_parent` -/
def assertLinearParent (conversationId : String) (parentTurnId : Option String)
    (database : Database) : Except StoreError Unit :=
  let expected := (database.conversationById conversationId).bind (·.lastTurnId)
  match parentTurnId, expected with
  | none, none => .ok ()
  | none, some last =>
      .error (.history (.continuity "parent_turn_id required: a complete turn exists"
        (some last)))
  | some _, none =>
      .error (.history (.continuity "parent_turn_id does not match any complete turn" none))
  | some parent, some last =>
      require (last = parent)
        (.history (.continuity "parent_turn_id does not match last complete turn"
          (some last)))

/-- The empty conversation a first turn creates. -/
def stubConversation (draws : Draws) (arguments : BeginTurnArguments)
    (scopeKind : ScopeKind) : Conversation where
  id := draws.conversationId
  clientConversationId := arguments.clientConversationId
  scopeKey := arguments.scopeKey
  scopeKind := scopeKind
  title := ""
  status := .active
  agentId := arguments.agentId
  agentName := arguments.agentName
  providerId := arguments.providerId
  modelId := arguments.modelId
  promptRef := .dict (arguments.promptRef.getD [])
  responseLanguage := arguments.responseLanguage
  summary := ""
  summaryVersion := 0
  summaryThroughSequence := 0
  messageCount := 0
  payloadBytes := 0
  lastTurnId := none
  createdAt := draws.now
  updatedAt := draws.now
  archivedAt := none

/-- `_get_or_create_conversation` -/
def getOrCreateConversation (draws : Draws) (arguments : BeginTurnArguments)
    (scopeKind : ScopeKind) (database : Database) :
    Except StoreError (Conversation × Database) :=
  match database.conversationByScope arguments.scopeKey with
  | some row => do
      require (row.status ≠ .archived) (.history .archived)
      let conversation ← conversationRow row
      return (conversation, database)
  | none => do
      let conversation := stubConversation draws arguments scopeKind
      let encoded ← orRaise .typeError (Document.dumps conversation.promptRef)
      let database ← database.insertConversation
        { conversation with promptRef := Column.document encoded }
      return (conversation, database)

/-- `_associate_reservation_knowledge_bases`: ownership without selection. -/
def associateReservationKnowledgeBases (now : Timestamp) (conversationId : String)
    (knowledgeBaseIds : List String) (database : Database) : Except StoreError Database :=
  knowledgeBaseIds.eraseDups.foldlM
    (fun database knowledgeBaseId =>
      if knowledgeBaseId = "" then .ok database
      else database.insertKnowledgeBaseOrIgnore {
        conversationId := conversationId
        knowledgeBaseId := knowledgeBaseId
        isSelected := false
        firstUsedAt := now
        lastUsedAt := now })
    database

/-- A failed row put back to work under a new lease. -/
def TurnRow.revive (leaseToken : String) (leaseExpiresAt now : Timestamp)
    (row : TurnRow) : TurnRow :=
  { row with
    status := .generating
    leaseToken := some leaseToken
    leaseExpiresAt := some leaseExpiresAt
    updatedAt := now }

/-- `_handle_existing_turn` -/
def handleExistingTurn (config : StoreConfig) (draws : Draws) (existing : TurnRow)
    (requestFingerprint : String) (database : Database) :
    Except StoreError (BeginTurnReply × Database) := do
  require (existing.requestFingerprint = requestFingerprint) (.history .turnIdConflict)
  let leaseToken := draws.revivedLeaseToken
  let leaseExpires := draws.now + config.leaseSeconds
  match existing.status with
  | .complete =>
      let messages ← messagesForTurn database existing.conversationId existing.turnId
      return (.complete messages, database)
  | .ready =>
      return (.ready existing.resultDigest existing.leaseToken existing.leaseExpiresAt,
        database)
  | .failed =>
      -- Another turn may have completed from this parent in the meantime. The
      -- activation below is the statement whose integrity error nobody handles.
      assertLinearParent existing.conversationId existing.parentTurnId database
      let database ← database.activateTurn existing.key
        (TurnRow.revive leaseToken leaseExpires draws.now)
      return (.new leaseToken leaseExpires, database)
  | .generating =>
      -- A lease of exactly 0 is falsy and counts as not expired.
      require (existing.leaseExpiresAt.any fun expires => expires ≠ 0 ∧ expires < draws.now)
        (.history (.inProgress "turn_in_progress"))
      return (.new leaseToken leaseExpires,
        database.updateTurns (·.key == existing.key)
          (.takeOver leaseToken leaseExpires draws.now))

/-- The `INSERT` of a new reservation, whose integrity error is reported as a
turn in progress. -/
def insertReservation (row : TurnRow) (database : Database) : Except StoreError Database :=
  match database.insertTurn row with
  | .error .integrity =>
      .error (.history (.inProgress "a concurrent turn already claims this parent"))
  | outcome => outcome

/-- `begin_turn` -/
def beginTurn (config : StoreConfig) (draws : Draws) (arguments : BeginTurnArguments)
    (database : Database) : Except StoreError (BeginTurnResult × Database) := do
  let scopeKind ← orRaise
    (.history (.conversationHistory ("invalid scope_kind: " ++ arguments.scopeKind)))
    (ScopeKind.parse arguments.scopeKind)
  require (arguments.turnId ≠ "" ∧ arguments.turnId.length ≤ turnIdMaxLen)
    (.history (.conversationHistory "invalid turn_id"))
  require (arguments.requestFingerprint ≠ "" ∧
      arguments.requestFingerprint.length ≤ requestFingerprintLen)
    (.history (.conversationHistory "invalid request_fingerprint"))
  let leaseExpires := draws.now + config.leaseSeconds
  let database := (cleanupExpiredLocked config draws.now database).2
  enforceConversationQuotaForNewScope config arguments.scopeKey database
  let (conversation, database) ← getOrCreateConversation draws arguments scopeKind database
  let database ← associateReservationKnowledgeBases draws.now conversation.id
    (arguments.selectedKnowledgeBaseIds.getD []) database
  match database.turnRequest conversation.id arguments.turnId with
  | some existing => do
      let (reply, database) ← handleExistingTurn config draws existing
        arguments.requestFingerprint database
      return (⟨reply, conversation⟩, database)
  | none => do
      assertLinearParent conversation.id arguments.parentTurnId database
      enforcePendingQuota config database
      let database ← insertReservation {
        conversationId := conversation.id
        turnId := arguments.turnId
        parentTurnId := arguments.parentTurnId
        requestFingerprint := arguments.requestFingerprint
        status := .generating
        resultDigest := none
        leaseToken := some draws.leaseToken
        leaseExpiresAt := some leaseExpires
        createdAt := draws.now
        updatedAt := draws.now } database
      return (⟨.new draws.leaseToken leaseExpires, conversation⟩, database)

end RAGuardian.History
