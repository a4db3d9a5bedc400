import RAGuardian.History.Store.BeginTurn

/-! # The rest of a turn's life

Recovery, staging, completion, renewal and failure of a reservation. -/

namespace RAGuardian.History

open Json Text

/-! ## Recovery and staging -/

/-- What `recover_ready_turn` answers. The conversation row is decoded after the
commit, so the transaction still holds the row itself. -/
inductive RecoverResultOf (Row : Type)
  | complete (messages : List Message)
  | new (leaseToken : String) (leaseExpiresAt : Timestamp) (conversation : Option Row)

abbrev RecoverResult := RecoverResultOf Conversation

def RecoverResultOf.decode : RecoverResultOf ConversationRow → Except StoreError RecoverResult
  | .complete messages => .ok (.complete messages)
  | .new leaseToken leaseExpiresAt row => do
      let conversation ← row.mapM conversationRow
      return .new leaseToken leaseExpiresAt conversation

/-- A ready row put back to work after its staged payload was lost. -/
def TurnRow.recover (leaseToken : String) (leaseExpiresAt now : Timestamp)
    (row : TurnRow) : TurnRow :=
  { row with
    status := .generating
    resultDigest := none
    leaseToken := some leaseToken
    leaseExpiresAt := some leaseExpiresAt
    updatedAt := now }

/-- `recover_ready_turn` -/
def recoverReadyTurn (config : StoreConfig) (draws : Draws)
    (scopeKey turnId requestFingerprint : String) (expectedLeaseToken : Option String)
    (database : Database) :
    Except StoreError (RecoverResultOf ConversationRow × Database) := do
  let row ← orRaise (.history (.conversationNotFound "turn not found"))
    (database.turnForUpdate scopeKey turnId)
  require (row.requestFingerprint = requestFingerprint) (.history .turnIdConflict)
  if row.status = .complete then
    let messages ← messagesForTurn database row.conversationId turnId
    return (.complete messages, database)
  else
    require (row.status = .ready) (.history (.inProgress "turn_in_progress"))
    require (row.leaseToken = expectedLeaseToken)
      (.history (.inProgress "turn_in_progress"))
    let leaseExpiresAt := draws.now + config.leaseSeconds
    let database ← database.activateTurn row.key
      (TurnRow.recover draws.leaseToken leaseExpiresAt draws.now)
    return (.new draws.leaseToken leaseExpiresAt
      (database.conversationById row.conversationId), database)

/-- A row whose result is staged. -/
def TurnRow.stage (resultDigest : String) (now : Timestamp) (row : TurnRow) : TurnRow :=
  { row with status := .ready, resultDigest := some resultDigest, updatedAt := now }

/-- `mark_turn_ready` -/
def markTurnReady (draws : Draws) (scopeKey turnId leaseToken resultDigest : String)
    (database : Database) : Except StoreError (Bool × Database) :=
  match database.turnForUpdate scopeKey turnId with
  | none => .ok (false, database)
  | some row =>
      if row.leaseToken ≠ some leaseToken then .ok (false, database)
      else if row.inFlight = false then .ok (false, database)
      else do
        let database ← database.activateTurn row.key
          (TurnRow.stage resultDigest draws.now)
        return (true, database)

/-! ## Completion -/

structure CompleteTurnArguments where
  scopeKey : String
  turnId : String
  leaseToken : String
  requestFingerprint : String
  userContent : String
  assistantContent : String
  messageType : String := "text"
  selectedKnowledgeBaseIds : Option (List String) := none
  agentId : String := ""
  agentName : String := ""
  providerId : String := ""
  modelId : String := ""
  promptRef : Option (List (String × Value)) := none
  responseLanguage : String := "auto"
  sources : Option (List Value) := none
  metadata : Option (List (String × Value)) := none

structure CommittedTurn where
  userSequence : Nat
  assistantSequence : Nat
  messageCount : Nat
  payloadBytes : Nat
  title : String
  messages : List Message

inductive CompleteTurnResult
  | replayed (messages : List Message)
  | committed (turn : CommittedTurn)

/-- `_validate_message_content` -/
def validateMessageContent (config : StoreConfig) (userContent assistantContent : String) :
    Except StoreError Unit := do
  require ((userContent.length : Int) ≤ config.maxMessageChars)
    (.history (.conversationHistory "user message exceeds size limit"))
  require ((assistantContent.length : Int) ≤ config.maxMessageChars)
    (.history (.conversationHistory "assistant message exceeds size limit"))

/-- `_derive_title` -/
def deriveTitle (currentTitle userContent : String) : String :=
  if currentTitle ≠ "" then currentTitle
  else truncate titleMaxLen (" ".intercalate (split userContent))

/-- `_upsert_knowledge_bases` -/
def upsertKnowledgeBases (now : Timestamp) (conversationId : String)
    (knowledgeBaseIds : List String) (database : Database) :
    Except StoreError Database := do
  let existing := (database.knowledgeBases.filter fun row =>
    row.conversationId == conversationId).map (·.knowledgeBaseId)
  let database ← knowledgeBaseIds.foldlM
    (fun database knowledgeBaseId =>
      if knowledgeBaseId = "" then .ok database
      else if knowledgeBaseId ∈ existing then
        .ok (database.updateKnowledgeBases
          (·.key == (conversationId, knowledgeBaseId)) (.select now))
      else
        database.insertKnowledgeBase {
          conversationId := conversationId
          knowledgeBaseId := knowledgeBaseId
          isSelected := true
          firstUsedAt := now
          lastUsedAt := now })
    database
  let deselected := existing.filter fun knowledgeBaseId =>
    !knowledgeBaseIds.contains knowledgeBaseId
  return deselected.foldl
    (fun database knowledgeBaseId =>
      database.updateKnowledgeBases (·.key == (conversationId, knowledgeBaseId)) .deselect)
    database

/-- A committed row. -/
def TurnRow.commit (now : Timestamp) (row : TurnRow) : TurnRow :=
  { row with
    status := .complete
    leaseToken := none
    leaseExpiresAt := none
    updatedAt := now }

/-- The `UPDATE conversations` of a completion. -/
def ConversationUpdate.commit (arguments : CompleteTurnArguments) (title : String)
    (promptRef : Column) (messageCount payloadBytes : Nat) (now : Timestamp) :
    ConversationUpdate where
  apply row := { row with
    title := title
    agentId := arguments.agentId
    agentName := arguments.agentName
    providerId := arguments.providerId
    modelId := arguments.modelId
    promptRef := promptRef
    responseLanguage := arguments.responseLanguage
    messageCount := messageCount
    payloadBytes := payloadBytes
    lastTurnId := some arguments.turnId
    updatedAt := now }
  id _ := rfl
  scopeKey _ := rfl

/-- `COALESCE(MAX(sequence), 0) + 1` over the messages of a conversation -/
def nextSequence (database : Database) (conversationId : String) : Nat :=
  ((database.messagesOf conversationId).map (·.sequence)).foldl max 0 + 1

/-- The part of `complete_turn` after its guards: the quota checks and the
writes. -/
def commitTurn (config : StoreConfig) (draws : Draws) (arguments : CompleteTurnArguments)
    (sources metadata promptRef : Value) (row : TurnRow) (database : Database) :
    Except StoreError (CommittedTurn × Database) := do
  let conversation ← orRaise
    (.history (.conversationNotFound "conversation not found"))
    (database.conversationById row.conversationId)
  enforceConversationQuotaOnFirstCommit config conversation database
  enforceMessageQuota config conversation.messageCount
  enforceConversationBytes config conversation.payloadBytes arguments.userContent
    arguments.assistantContent sources metadata
  enforceHistoryBytes config
    (utf8Bytes arguments.userContent + utf8Bytes arguments.assistantContent +
      jsonBytes sources + jsonBytes metadata) database
  let sequence := nextSequence database row.conversationId
  let userBytes := utf8Bytes arguments.userContent
  let assistantBytes := utf8Bytes arguments.assistantContent
  let sourcesJson ← orRaise .typeError (Document.dumps sources)
  let metadataJson ← orRaise .typeError (Document.dumps metadata)
  let sourcesBytes := utf8Bytes sourcesJson.text
  let metadataBytes := utf8Bytes metadataJson.text
  let emptySources ← orRaise .typeError (Document.dumps (.list []))
  let emptyMetadata ← orRaise .typeError (Document.dumps (.dict []))
  let database ← database.insertMessage fun id => {
    id := id
    conversationId := row.conversationId
    turnId := arguments.turnId
    role := .user
    messageType := "text"
    content := arguments.userContent
    sequence := sequence
    sources := .document emptySources
    metadata := .document emptyMetadata
    payloadBytes := userBytes
    createdAt := draws.now }
  let database ← database.insertMessage fun id => {
    id := id
    conversationId := row.conversationId
    turnId := arguments.turnId
    role := .assistant
    messageType := arguments.messageType
    content := arguments.assistantContent
    sequence := sequence + 1
    sources := .document sourcesJson
    metadata := .document metadataJson
    payloadBytes := assistantBytes + sourcesBytes + metadataBytes
    createdAt := draws.now }
  let database ← upsertKnowledgeBases draws.now row.conversationId
    (arguments.selectedKnowledgeBaseIds.getD []) database
  let title := deriveTitle conversation.title arguments.userContent
  let messageCount := conversation.messageCount + 2
  let payloadBytes := conversation.payloadBytes +
    (userBytes + assistantBytes + sourcesBytes + metadataBytes)
  let database ← database.activateTurn (row.conversationId, arguments.turnId)
    (TurnRow.commit draws.now)
  let promptRefJson ← orRaise .typeError (Document.dumps promptRef)
  let database := database.updateConversations (·.id == row.conversationId)
    (.commit arguments title (.document promptRefJson) messageCount payloadBytes draws.now)
  let messages ← messagesForTurn database row.conversationId arguments.turnId
  return ({
      userSequence := sequence
      assistantSequence := sequence + 1
      messageCount := messageCount
      payloadBytes := payloadBytes
      title := title
      messages := messages }, database)

/-- `complete_turn` -/
def completeTurn (config : StoreConfig) (draws : Draws) (arguments : CompleteTurnArguments)
    (database : Database) : Except StoreError (CompleteTurnResult × Database) := do
  validateMessageContent config arguments.userContent arguments.assistantContent
  let sources ← validateJsonField (.list (arguments.sources.getD []))
    config.maxSourcesBytesPerTurn (.list [])
  let metadata ← validateJsonField (.dict (arguments.metadata.getD []))
    config.maxMetadataBytesPerTurn (.dict [])
  let promptRef ← validateJsonField (.dict (arguments.promptRef.getD [])) 65536 (.dict [])
  let row ← orRaise (.history (.conversationNotFound "turn not found"))
    (database.turnForUpdate arguments.scopeKey arguments.turnId)
  if row.status = .complete then
    let messages ← messagesForTurn database row.conversationId arguments.turnId
    return (.replayed messages, database)
  else
    require (row.leaseToken = some arguments.leaseToken)
      (.history (.turnConflict "lease token mismatch"))
    require (row.requestFingerprint = arguments.requestFingerprint)
      (.history (.turnConflict "fingerprint mismatch on complete"))
    let (committed, database) ← commitTurn config draws arguments sources metadata promptRef
      row database
    return (.committed committed, database)

/-! ## Leases -/

/-- `renew_turn_lease` -/
def renewTurnLease (config : StoreConfig) (draws : Draws)
    (scopeKey turnId leaseToken : String) (database : Database) : Bool × Database :=
  match database.turnForUpdate scopeKey turnId with
  | none => (false, database)
  | some row =>
      if row.leaseToken ≠ some leaseToken then (false, database)
      else if row.inFlight = false then (false, database)
      else
        (true, database.updateTurns (·.key == row.key)
          (.renew (draws.now + config.leaseSeconds) draws.now))

/-- `fail_turn` -/
def failTurn (draws : Draws) (scopeKey turnId leaseToken : String) (database : Database) :
    Bool × Database :=
  match database.turnForUpdate scopeKey turnId with
  | none => (false, database)
  | some row =>
      if row.leaseToken ≠ some leaseToken then (false, database)
      else if row.status = .complete then (false, database)
      else (true, database.updateTurns (·.key == row.key) (.fail (some draws.now)))

structure ContinuityResult where
  parentTurnId : Option String
  cleanedUpLeases : Nat
deriving DecidableEq, Repr

/-- `reset_continuity` -/
def resetContinuity (draws : Draws) (historyId : String) (database : Database) :
    Except StoreError (ContinuityResult × Database) := do
  let row ← orRaise (.history .notFound) (database.conversationById historyId)
  let expired (turn : TurnRow) : Bool :=
    turn.conversationId == historyId && leaseExpired draws.now turn
  return (⟨row.lastTurnId, database.turnRequests.countP expired⟩,
    database.updateTurns expired (.fail (some draws.now)))

end RAGuardian.History
