import RAGuardian.Foundation.Execution
import RAGuardian.History.Store.Operations

/-! # What a call can do to the database

Each kind of change a call makes, with the guards it made sure of first. Every
call is a chain of such effects, so an invariant needs one case per effect. -/

namespace RAGuardian.History

open Json Text Execution

/-! ## Changes of a reservation -/

/-- The parent a turn has to name to extend a conversation. -/
def Database.lastTurnId (database : Database) (conversationId : String) : Option String :=
  (database.conversationById conversationId).bind (·.lastTurnId)

/-- The tokens a call can hand out. -/
def Draws.tokens (draws : Draws) : List String :=
  [draws.leaseToken, draws.revivedLeaseToken]

/-- How a live or failed row can become a live one. -/
inductive TurnChange (draws : Draws) (database : Database) : TurnRow → TurnRow → Prop
  | renew (row : TurnRow) (leaseExpiresAt updatedAt : Timestamp)
      (inFlight : row.inFlight = true) :
      TurnChange draws database row
        { row with leaseExpiresAt := some leaseExpiresAt, updatedAt := updatedAt }
  | stage (row : TurnRow) (resultDigest : String) (now : Timestamp)
      (inFlight : row.inFlight = true) :
      TurnChange draws database row (row.stage resultDigest now)
  | takeOver (row : TurnRow) (leaseExpiresAt updatedAt : Timestamp)
      (generating : row.status = .generating) :
      TurnChange draws database row { row with
        leaseToken := some draws.revivedLeaseToken
        leaseExpiresAt := some leaseExpiresAt
        updatedAt := updatedAt }
  | recover (row : TurnRow) (leaseExpiresAt now : Timestamp) (ready : row.status = .ready) :
      TurnChange draws database row (row.recover draws.leaseToken leaseExpiresAt now)
  | revive (row : TurnRow) (leaseExpiresAt now : Timestamp) (failed : row.status = .failed)
      (linear : row.parentTurnId = database.lastTurnId row.conversationId) :
      TurnChange draws database row
        (row.revive draws.revivedLeaseToken leaseExpiresAt now)

namespace TurnChange

variable {draws : Draws} {database : Database} {before after : TurnRow}

theorem key (change : TurnChange draws database before after) : after.key = before.key := by
  cases change <;> rfl

theorem parentTurnId (change : TurnChange draws database before after) :
    after.parentTurnId = before.parentTurnId := by
  cases change <;> rfl

theorem requestFingerprint (change : TurnChange draws database before after) :
    after.requestFingerprint = before.requestFingerprint := by
  cases change <;> rfl

theorem notComplete (change : TurnChange draws database before after) :
    before.status ≠ .complete := by
  cases change with
  | renew _ _ inFlight => intro complete; simp [TurnRow.inFlight, complete] at inFlight
  | stage _ _ inFlight => intro complete; simp [TurnRow.inFlight, complete] at inFlight
  | takeOver _ _ generating => simp [generating]
  | recover _ _ ready => simp [ready]
  | revive _ _ failed => simp [failed]

theorem inFlight (change : TurnChange draws database before after) :
    after.inFlight = true := by
  cases change with
  | renew _ _ inFlight => exact inFlight
  | stage _ _ inFlight => rfl
  | takeOver _ _ generating => simp [TurnRow.inFlight, generating]
  | recover _ _ ready => rfl
  | revive _ _ failed => rfl

/-- A row keeps its token while in flight, or takes one the call has drawn. -/
theorem leaseToken (change : TurnChange draws database before after) :
    (before.inFlight = true ∧ after.leaseToken = before.leaseToken) ∨
      ∃ token ∈ draws.tokens, after.leaseToken = some token := by
  cases change with
  | renew _ _ inFlight => exact .inl ⟨inFlight, rfl⟩
  | stage _ _ inFlight => exact .inl ⟨inFlight, rfl⟩
  | takeOver => exact .inr ⟨draws.revivedLeaseToken, by simp [Draws.tokens], rfl⟩
  | recover => exact .inr ⟨draws.leaseToken, by simp [Draws.tokens], rfl⟩
  | revive => exact .inr ⟨draws.revivedLeaseToken, by simp [Draws.tokens], rfl⟩

/-- A row that was not in flight extends the conversation as it stands. -/
theorem linear (change : TurnChange draws database before after) :
    before.inFlight = true ∨
      after.parentTurnId = database.lastTurnId after.conversationId := by
  cases change with
  | renew _ _ inFlight => exact .inl inFlight
  | stage _ _ inFlight => exact .inl inFlight
  | takeOver _ _ generating => exact .inl (by simp [TurnRow.inFlight, generating])
  | recover _ _ ready => exact .inl (by simp [TurnRow.inFlight, ready])
  | revive _ _ _ linear => exact .inr linear

end TurnChange

/-! ## Effects -/

/-- Association rows are added or retouched, never dropped, and exactly the
knowledge bases in use get one. -/
structure Associates (conversationId : String) (ids : List String)
    (before after : Database) : Prop where
  tables : after.toTables = { before.toTables with knowledgeBases := after.knowledgeBases }
  kept : ∀ row ∈ before.knowledgeBases, ∃ other ∈ after.knowledgeBases, other.key = row.key
  associated :
    ∀ id ∈ ids, id ≠ "" → ∃ row ∈ after.knowledgeBases, row.key = (conversationId, id)
  origin : ∀ row ∈ after.knowledgeBases, (∃ old ∈ before.knowledgeBases, old.key = row.key) ∨
    row.conversationId = conversationId ∧ row.knowledgeBaseId ∈ ids

/-- An empty conversation as `_get_or_create_conversation` stores it. -/
structure Stub (draws : Draws) (row : ConversationRow) : Prop where
  id : row.id = draws.conversationId
  messageCount : row.messageCount = 0
  payloadBytes : row.payloadBytes = 0
  lastTurnId : row.lastTurnId = none
  promptRef : row.promptRef.isDocument = true

/-- A row as `begin_turn` inserts it. -/
structure Reservation (config : StoreConfig) (draws : Draws) (before : Database)
    (row : TurnRow) : Prop where
  status : row.status = .generating
  leaseToken : row.leaseToken = some draws.leaseToken
  linear : row.parentTurnId = before.lastTurnId row.conversationId
  turnId : row.turnId ≠ "" ∧ row.turnId.length ≤ turnIdMaxLen
  requestFingerprint : row.requestFingerprint ≠ "" ∧
    row.requestFingerprint.length ≤ requestFingerprintLen
  quota : 0 < config.maxPendingTurns →
    ((before.turnRequests.countP fun other => other.status != .complete : Nat) : Int) <
      config.maxPendingTurns

/-- The pair of messages a completion stores. -/
structure Exchange (arguments : CompleteTurnArguments) (row : TurnRow) (sequence : Nat)
    (user assistant : MessageRow) : Prop where
  userOwner : user.conversationId = row.conversationId
  userTurn : user.turnId = row.turnId
  userRole : user.role = .user
  userContent : user.content = arguments.userContent
  userSequence : user.sequence = sequence
  userDocuments : user.sources.isDocument = true ∧ user.metadata.isDocument = true
  assistantOwner : assistant.conversationId = row.conversationId
  assistantTurn : assistant.turnId = row.turnId
  assistantRole : assistant.role = .assistant
  assistantContent : assistant.content = arguments.assistantContent
  assistantSequence : assistant.sequence = sequence + 1
  assistantDocuments :
    assistant.sources.isDocument = true ∧ assistant.metadata.isDocument = true

/-- A completion: the guards it passed and the tables it leaves. -/
structure Commit (config : StoreConfig) (draws : Draws) (arguments : CompleteTurnArguments)
    (row : TurnRow) (conversation : ConversationRow) (user assistant : MessageRow)
    (title : String) (promptRef : Column) (before after : Database) : Prop where
  member : row ∈ before.turnRequests
  turnId : row.turnId = arguments.turnId
  leaseToken : row.leaseToken = some arguments.leaseToken
  notComplete : row.status ≠ .complete
  requestFingerprint : row.requestFingerprint = arguments.requestFingerprint
  owner : conversation ∈ before.conversations
  owns : conversation.id = row.conversationId
  exchange :
    Exchange arguments row (nextSequence before row.conversationId) user assistant
  promptRefDocument : promptRef.isDocument = true
  conversationQuota : 0 < config.maxConversations → conversation.messageCount = 0 →
    ((before.conversations.countP fun other =>
      0 < other.messageCount && other.id != conversation.id : Nat) : Int) <
        config.maxConversations
  messageQuota :
    (conversation.messageCount : Int) + 2 ≤ config.maxMessagesPerConversation
  bytesQuota :
    ((conversation.payloadBytes + (user.payloadBytes + assistant.payloadBytes) : Nat) :
      Int) ≤ config.maxConversationBytes
  historyQuota :
    (((before.conversations.map (·.payloadBytes)).sum +
      (user.payloadBytes + assistant.payloadBytes) : Nat) : Int) ≤ config.maxHistoryBytes
  knowledgeBases :
    ∀ other ∈ before.knowledgeBases, ∃ kept ∈ after.knowledgeBases, kept.key = other.key
  associated : ∀ id ∈ arguments.selectedKnowledgeBaseIds.getD [], id ≠ "" →
    ∃ other ∈ after.knowledgeBases, other.key = (row.conversationId, id)
  origin : ∀ other ∈ after.knowledgeBases,
    (∃ old ∈ before.knowledgeBases, old.key = other.key) ∨
      other.conversationId = row.conversationId ∧
        other.knowledgeBaseId ∈ arguments.selectedKnowledgeBaseIds.getD []
  turnRequests : after.turnRequests =
    Table.update (·.key == row.key) (TurnRow.commit draws.now) before.turnRequests
  messages : after.messages = before.messages ++ [user, assistant]
  conversations : after.conversations = Table.update (·.id == row.conversationId)
    (ConversationUpdate.commit arguments title promptRef (conversation.messageCount + 2)
      (conversation.payloadBytes + (user.payloadBytes + assistant.payloadBytes))
      draws.now).apply before.conversations
  cleanupOutbox : after.cleanupOutbox = before.cleanupOutbox

/-- A change of conversation columns that leaves the transcript columns alone. -/
structure ConversationUpdate.Quiet (update : ConversationUpdate) : Prop where
  messageCount : ∀ row, (update.apply row).messageCount = row.messageCount
  payloadBytes : ∀ row, (update.apply row).payloadBytes = row.payloadBytes
  lastTurnId : ∀ row, (update.apply row).lastTurnId = row.lastTurnId
  promptRef : ∀ row, (update.apply row).promptRef = row.promptRef

/-- The changes of a call, one statement or one commit at a time. -/
inductive Effect (config : StoreConfig) (draws : Draws) (before : Database) :
    Database → Prop
  | failTurns (selects : TurnRow → Bool) (updatedAt : Option Timestamp)
      (incomplete : ∀ row ∈ before.turnRequests, selects row = true →
        row.status ≠ .complete) :
      Effect config draws before (before.updateTurns selects (.fail updatedAt))
  | changeTurn {after : Database} (row : TurnRow) (change : TurnRow → TurnRow)
      (member : row ∈ before.turnRequests)
      (changed : TurnChange draws before row (change row))
      (tables : after.toTables = { before.toTables with
        turnRequests := Table.update (·.key == row.key) change before.turnRequests }) :
      Effect config draws before after
  | insertConversation {after : Database} (row : ConversationRow)
      (stub : Stub draws row)
      (tables : after.toTables = { before.toTables with
        conversations := before.conversations ++ [row] }) :
      Effect config draws before after
  | associate {after : Database} (conversationId : String) (ids : List String)
      (associates : Associates conversationId ids before after) :
      Effect config draws before after
  | reserve {after : Database} (row : TurnRow)
      (reservation : Reservation config draws before row)
      (tables : after.toTables = { before.toTables with
        turnRequests := before.turnRequests ++ [row] }) :
      Effect config draws before after
  | commit {after : Database} (arguments : CompleteTurnArguments) (row : TurnRow)
      (conversation : ConversationRow) (user assistant : MessageRow) (title : String)
      (promptRef : Column)
      (committed : Commit config draws arguments row conversation user assistant title
        promptRef before after) :
      Effect config draws before after
  | editConversation (id : String) (update : ConversationUpdate)
      (quiet : update.Quiet) :
      Effect config draws before (before.updateConversations (·.id == id) update)
  | deleteConversation (id : String) :
      Effect config draws before (before.deleteConversation id)
  | deleteTurn (key : String × String)
      (incomplete : ∀ row ∈ before.turnRequests, row.key = key → row.status ≠ .complete) :
      Effect config draws before (before.deleteTurn key)
  | stageCleanup (row : OutboxRow) :
      Effect config draws before (before.stageCleanup row)
  | deleteCleanup (cleanupKey : String) :
      Effect config draws before (before.deleteCleanup cleanupKey)

end RAGuardian.History
