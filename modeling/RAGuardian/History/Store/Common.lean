import Mathlib.Algebra.GroupWithZero.Nat
import Mathlib.Data.List.Sort
import RAGuardian.Artifacts.References
import RAGuardian.History.Statements

/-! # Shared parts of the history store

Configuration, retention and quotas of `ConversationHistoryStore`. -/

namespace RAGuardian.History

open Json Text Artifacts

def titleMaxLen : Nat := 80
def titleRenameMaxLen : Nat := 120
def turnIdMaxLen : Nat := 80
def requestFingerprintLen : Nat := 64

/-- The constructor arguments of the store, and the behaviour of `urlsplit` in
the interpreter that runs it. -/
structure StoreConfig where
  maxConversations : Int := 200
  maxPendingTurns : Int := 100
  maxMessagesPerConversation : Int := 2000
  maxConversationBytes : Int := 33554432
  maxMessageChars : Int := 50000
  maxSourcesBytesPerTurn : Int := 262144
  maxMetadataBytesPerTurn : Int := 65536
  maxHistoryBytes : Int := 268435456
  retentionDays : Int := 90
  leaseSeconds : Int := 900
  incompleteTurnRetentionDays : Int := 7
  urlRules : UrlRules

/-- What one call draws from its surroundings: the readings of `_now`, a value
of `_new_id`, and the two lease tokens a call can generate. -/
structure Draws where
  now : Timestamp
  outboxNow : Timestamp
  conversationId : String
  leaseToken : String
  revivedLeaseToken : String

/-! ## Message columns -/

/-- `_json_bytes` -/
def jsonBytes (value : Value) : Nat :=
  match value.dumps with
  | some text => utf8Bytes text
  | none => 0

/-- `_validate_json_field` -/
def validateJsonField (value : Value) (maxBytes : Int) (default : Value) :
    Except StoreError Value :=
  match value with
  | .null => .ok default
  | value => do
      let encoded ← orRaise (.history (.conversationHistory "invalid JSON field")) value.dumps
      require ((utf8Bytes encoded : Int) ≤ maxBytes)
        (.history (.conversationHistory "JSON field exceeds size limit"))
      return value

/-- `_messages_for_turn` -/
def messagesForTurn (database : Database) (conversationId turnId : String) :
    Except StoreError (List Message) :=
  let rows := database.messages.filter fun row =>
    row.conversationId == conversationId && row.turnId == turnId
  (rows.insertionSort fun left right => left.sequence ≤ right.sequence).mapM messageRow

/-! ## Retention -/

structure CleanupResult where
  conversationsDeleted : Nat
  turnsDeleted : Nat
  expiredLeasesFailed : Nat
  deletedScopeKeys : List String
  /-- Pairs of `scope_key` and `turn_id`. -/
  deletedTurns : List (String × String)
deriving DecidableEq, Repr

/-- A generating row whose lease has run out. -/
def leaseExpired (now : Timestamp) (row : TurnRow) : Bool :=
  row.status == .generating && row.leaseExpiresAt.any fun expires => expires < now

def cutoff (now : Timestamp) (days : Int) : Timestamp :=
  now - days * 86400

/-- Conversations past active-history retention. -/
def retiredConversations (config : StoreConfig) (now : Timestamp) (database : Database) :
    List ConversationRow :=
  if 0 < config.retentionDays then
    database.conversations.filter fun row =>
      row.status == .active && 0 < row.messageCount &&
        row.updatedAt < cutoff now config.retentionDays &&
        !database.turnRequests.any fun turn =>
          turn.conversationId == row.id && turn.inFlight
  else
    []

/-- Incomplete turns past their retention, with the scope of their
conversation. -/
def staleTurns (config : StoreConfig) (now : Timestamp) (database : Database) :
    List (String × TurnRow) :=
  if 0 < config.incompleteTurnRetentionDays then
    let stale := database.turnRequests.filter fun row =>
      (row.status == .ready || row.status == .failed) &&
        row.updatedAt < cutoff now config.incompleteTurnRetentionDays
    stale.filterMap fun row =>
      (database.conversationById row.conversationId).map fun conversation =>
        (conversation.scopeKey, row)
  else
    []

/-- Empty reservation stubs past incomplete-turn retention. -/
def staleStubs (config : StoreConfig) (now : Timestamp) (database : Database) :
    List ConversationRow :=
  if 0 < config.incompleteTurnRetentionDays then
    database.conversations.filter fun row =>
      row.messageCount == 0 &&
        row.updatedAt < cutoff now config.incompleteTurnRetentionDays &&
        !database.turnRequests.any fun turn => turn.conversationId == row.id
  else
    []

def deleteConversations (rows : List ConversationRow) (database : Database) : Database :=
  rows.foldl (fun database row => database.deleteConversation row.id) database

def deleteTurns (rows : List (String × TurnRow)) (database : Database) : Database :=
  rows.foldl (fun database row => database.deleteTurn row.2.key) database

/-- `_cleanup_expired_locked` -/
def cleanupExpiredLocked (config : StoreConfig) (now : Timestamp) (database : Database) :
    CleanupResult × Database :=
  let expired := database.turnRequests.filter (leaseExpired now)
  let database := database.updateTurns (leaseExpired now) (.fail none)
  let retired := retiredConversations config now database
  let database := deleteConversations retired database
  let stale := staleTurns config now database
  let database := deleteTurns stale database
  let stubs := staleStubs config now database
  let database := deleteConversations stubs database
  ({  conversationsDeleted := retired.length + stubs.length
      turnsDeleted := stale.length
      expiredLeasesFailed := expired.length
      deletedScopeKeys := retired.map (·.scopeKey) ++ stubs.map (·.scopeKey)
      deletedTurns := stale.map fun row => (row.1, row.2.turnId) },
    database)

/-! ## Quotas -/

/-- `_enforce_pending_quota` -/
def enforcePendingQuota (config : StoreConfig) (database : Database) :
    Except StoreError Unit :=
  let count := database.turnRequests.countP fun row => row.status != .complete
  require (¬ (0 < config.maxPendingTurns ∧ config.maxPendingTurns ≤ count))
    (.history (.quotaExceeded "pending turn quota exceeded"))

/-- `_enforce_conversation_quota_for_new_scope`: empty stubs do not count. -/
def enforceConversationQuotaForNewScope (config : StoreConfig) (scopeKey : String)
    (database : Database) : Except StoreError Unit :=
  if config.maxConversations ≤ 0 then .ok ()
  else if (database.conversationByScope scopeKey).isSome then .ok ()
  else
    let count := database.conversations.countP fun row => 0 < row.messageCount
    require (count < config.maxConversations)
      (.history (.quotaExceeded "conversation quota exceeded"))

/-- `_enforce_conversation_quota_on_first_commit` -/
def enforceConversationQuotaOnFirstCommit (config : StoreConfig)
    (conversation : ConversationRow) (database : Database) : Except StoreError Unit :=
  if config.maxConversations ≤ 0 ∨ 0 < conversation.messageCount then .ok ()
  else
    let count := database.conversations.countP fun row =>
      0 < row.messageCount && row.id != conversation.id
    require (count < config.maxConversations)
      (.history (.quotaExceeded "conversation quota exceeded"))

/-- `_enforce_message_quota` -/
def enforceMessageQuota (config : StoreConfig) (currentCount : Nat) :
    Except StoreError Unit :=
  require ((currentCount : Int) + 2 ≤ config.maxMessagesPerConversation)
    (.history (.quotaExceeded "conversation message quota exceeded"))

/-- `_enforce_conversation_bytes` -/
def enforceConversationBytes (config : StoreConfig) (currentBytes : Nat)
    (userContent assistantContent : String) (sources metadata : Value) :
    Except StoreError Unit :=
  let turnBytes := utf8Bytes userContent + utf8Bytes assistantContent +
    jsonBytes sources + jsonBytes metadata
  require ((currentBytes : Int) + turnBytes ≤ config.maxConversationBytes)
    (.history (.quotaExceeded "conversation byte quota exceeded"))

/-- `_enforce_history_bytes` -/
def enforceHistoryBytes (config : StoreConfig) (turnBytes : Nat) (database : Database) :
    Except StoreError Unit :=
  let total : Nat := (database.conversations.map (·.payloadBytes)).sum
  require ((total : Int) + turnBytes ≤ config.maxHistoryBytes)
    (.history (.quotaExceeded "workspace history byte quota exceeded"))

end RAGuardian.History
