import Mathlib.Algebra.Order.Ring.Rat
import RAGuardian.Foundation.Json
import RAGuardian.Foundation.Table
import RAGuardian.History.Errors

/-! # The workspace database

Rows of the five tables, the constraints of the schema, and the statements the
store executes. A `Database` carries the proof of its constraints: a statement
that would break one raises, as SQLite does. -/

namespace RAGuardian.History

open Json

/-- Wall-clock readings in seconds. -/
abbrev Timestamp := ℚ

/-! ## Rows -/

inductive ScopeKind
  | default
  | kb
  | multi
deriving DecidableEq, Repr

def ScopeKind.parse : String → Option ScopeKind
  | "default" => some .default
  | "kb" => some .kb
  | "multi" => some .multi
  | _ => none

inductive ConversationStatus
  | active
  | archived
deriving DecidableEq, Repr

inductive TurnStatus
  | generating
  | ready
  | complete
  | failed
deriving DecidableEq, Repr

inductive Role
  | user
  | assistant
deriving DecidableEq, Repr

/-- A `conversations` row, with the representation of its JSON column left
open: `Column` in the table, `Value` in what `_conversation_row` returns. -/
structure ConversationOf (Json : Type) where
  id : String
  clientConversationId : String
  scopeKey : String
  scopeKind : ScopeKind
  title : String
  status : ConversationStatus
  agentId : String
  agentName : String
  providerId : String
  modelId : String
  promptRef : Json
  responseLanguage : String
  summary : String
  summaryVersion : Int
  summaryThroughSequence : Int
  messageCount : Nat
  payloadBytes : Nat
  lastTurnId : Option String
  createdAt : Timestamp
  updatedAt : Timestamp
  archivedAt : Option Timestamp

abbrev ConversationRow := ConversationOf Column

abbrev Conversation := ConversationOf Value

structure KnowledgeBaseRow where
  conversationId : String
  knowledgeBaseId : String
  isSelected : Bool
  firstUsedAt : Timestamp
  lastUsedAt : Timestamp
deriving DecidableEq, Repr

def KnowledgeBaseRow.key (row : KnowledgeBaseRow) : String × String :=
  (row.conversationId, row.knowledgeBaseId)

structure TurnRow where
  conversationId : String
  turnId : String
  parentTurnId : Option String
  requestFingerprint : String
  status : TurnStatus
  resultDigest : Option String
  leaseToken : Option String
  leaseExpiresAt : Option Timestamp
  createdAt : Timestamp
  updatedAt : Timestamp
deriving DecidableEq, Repr

namespace TurnRow

def key (row : TurnRow) : String × String :=
  (row.conversationId, row.turnId)

/-- The rows `idx_turn_requests_linear_parent` covers. -/
def indexed (row : TurnRow) : Bool :=
  row.status != .failed

/-- The value that index holds: the conversation and
`COALESCE(parent_turn_id, '')`. -/
def parentSlot (row : TurnRow) : String × String :=
  (row.conversationId, row.parentTurnId.getD "")

/-- `status IN ('generating', 'ready')` -/
def inFlight (row : TurnRow) : Bool :=
  row.status == .generating || row.status == .ready

end TurnRow

/-- A `messages` row, with the representation of its JSON columns left open. -/
structure MessageOf (Json : Type) where
  id : Nat
  conversationId : String
  turnId : String
  role : Role
  messageType : String
  content : String
  sequence : Nat
  sources : Json
  metadata : Json
  payloadBytes : Nat
  createdAt : Timestamp

abbrev MessageRow := MessageOf Column

abbrev Message := MessageOf Value

structure OutboxRow where
  cleanupKey : String
  referencesJson : Column
  createdAt : Timestamp

/-- `_conversation_row` -/
def conversationRow (row : ConversationRow) : Except StoreError Conversation := do
  let promptRef ← orRaise .jsonDecode (row.promptRef.loads (.dict []))
  return { row with promptRef := promptRef }

/-- `_message_row` -/
def messageRow (row : MessageRow) : Except StoreError Message := do
  let sources ← orRaise .jsonDecode (row.sources.loads (.list []))
  let metadata ← orRaise .jsonDecode (row.metadata.loads (.dict []))
  return { row with sources := sources, metadata := metadata }

/-! ## Tables and constraints -/

structure Tables where
  conversations : List ConversationRow
  knowledgeBases : List KnowledgeBaseRow
  turnRequests : List TurnRow
  messages : List MessageRow
  cleanupOutbox : List OutboxRow
  /-- The `AUTOINCREMENT` counter of `messages`. -/
  messageIdSequence : Nat

/-- The identifiers a `conversation_id` column may refer to. -/
def Tables.conversationIds (tables : Tables) : List String :=
  tables.conversations.map (·.id)

/-- Primary keys, unique columns and indexes, and foreign keys of the schema. -/
structure Tables.Constraints (tables : Tables) : Prop where
  conversationKeys : tables.conversationIds.Nodup
  scopeKeys : (tables.conversations.map (·.scopeKey)).Nodup
  knowledgeBaseKeys : (tables.knowledgeBases.map KnowledgeBaseRow.key).Nodup
  knowledgeBaseOwners :
    ∀ row ∈ tables.knowledgeBases, row.conversationId ∈ tables.conversationIds
  turnKeys : (tables.turnRequests.map TurnRow.key).Nodup
  turnOwners : ∀ row ∈ tables.turnRequests, row.conversationId ∈ tables.conversationIds
  linearParents :
    ((tables.turnRequests.filter TurnRow.indexed).map TurnRow.parentSlot).Nodup
  messageKeys : (tables.messages.map (·.id)).Nodup
  messageOwners : ∀ row ∈ tables.messages, row.conversationId ∈ tables.conversationIds
  messageSequences :
    (tables.messages.map fun row => (row.conversationId, row.sequence)).Nodup
  messageRoles :
    (tables.messages.map fun row => (row.conversationId, row.turnId, row.role)).Nodup
  cleanupKeys : (tables.cleanupOutbox.map (·.cleanupKey)).Nodup

instance (tables : Tables) : Decidable tables.Constraints :=
  decidable_of_iff
    (tables.conversationIds.Nodup ∧
      (tables.conversations.map (·.scopeKey)).Nodup ∧
      (tables.knowledgeBases.map KnowledgeBaseRow.key).Nodup ∧
      (∀ row ∈ tables.knowledgeBases, row.conversationId ∈ tables.conversationIds) ∧
      (tables.turnRequests.map TurnRow.key).Nodup ∧
      (∀ row ∈ tables.turnRequests, row.conversationId ∈ tables.conversationIds) ∧
      ((tables.turnRequests.filter TurnRow.indexed).map TurnRow.parentSlot).Nodup ∧
      (tables.messages.map (·.id)).Nodup ∧
      (∀ row ∈ tables.messages, row.conversationId ∈ tables.conversationIds) ∧
      (tables.messages.map fun row => (row.conversationId, row.sequence)).Nodup ∧
      (tables.messages.map fun row =>
        (row.conversationId, row.turnId, row.role)).Nodup ∧
      (tables.cleanupOutbox.map (·.cleanupKey)).Nodup)
    ⟨fun ⟨a, b, c, d, e, f, g, h, i, j, k, l⟩ => ⟨a, b, c, d, e, f, g, h, i, j, k, l⟩,
      fun holds => ⟨holds.conversationKeys, holds.scopeKeys, holds.knowledgeBaseKeys,
        holds.knowledgeBaseOwners, holds.turnKeys, holds.turnOwners,
        holds.linearParents, holds.messageKeys, holds.messageOwners,
        holds.messageSequences, holds.messageRoles, holds.cleanupKeys⟩⟩

/-- A workspace database: tables that meet the constraints of the schema. -/
structure Database extends Tables where
  constraints : toTables.Constraints

/-- The database `_ensure_schema_with_connection` creates. -/
def Database.empty : Database where
  conversations := []
  knowledgeBases := []
  turnRequests := []
  messages := []
  cleanupOutbox := []
  messageIdSequence := 0
  constraints := by constructor <;> simp [Tables.conversationIds]

namespace Database

/-- Install the tables a statement leaves behind, or raise `IntegrityError`. -/
def execute (tables : Tables) : Except StoreError Database :=
  if constraints : tables.Constraints then .ok ⟨tables, constraints⟩
  else .error .integrity

theorem execute_eq_ok {tables : Tables} {database : Database} :
    execute tables = .ok database ↔ database.toTables = tables := by
  unfold execute
  split
  · rename_i holds
    constructor
    · intro installed
      cases installed
      rfl
    · intro equal
      subst equal
      rfl
  · rename_i violated
    constructor
    · intro installed
      cases installed
    · intro equal
      exact absurd (equal ▸ database.constraints) violated

theorem execute_eq_error {tables : Tables} {raised : StoreError} :
    execute tables = .error raised ↔ ¬ tables.Constraints ∧ raised = .integrity := by
  unfold execute
  split
  · simp_all
  · simp_all [eq_comm]

/-! ## Queries -/

/-- `SELECT * FROM conversations WHERE id = ?` -/
def conversationById (database : Database) (id : String) : Option ConversationRow :=
  database.conversations.find? (·.id == id)

/-- `SELECT * FROM conversations WHERE scope_key = ?` -/
def conversationByScope (database : Database) (scopeKey : String) :
    Option ConversationRow :=
  database.conversations.find? (·.scopeKey == scopeKey)

/-- `SELECT * FROM turn_requests WHERE conversation_id = ? AND turn_id = ?` -/
def turnRequest (database : Database) (conversationId turnId : String) :
    Option TurnRow :=
  database.turnRequests.find? (·.key == (conversationId, turnId))

/-- `_get_turn_for_update` -/
def turnForUpdate (database : Database) (scopeKey turnId : String) : Option TurnRow :=
  (database.conversationByScope scopeKey).bind fun conversation =>
    database.turnRequest conversation.id turnId

/-- The messages of a conversation in insertion order. -/
def messagesOf (database : Database) (conversationId : String) : List MessageRow :=
  database.messages.filter (·.conversationId == conversationId)

theorem conversationById_eq_some {database : Database} {id : String}
    {row : ConversationRow} :
    database.conversationById id = some row ↔
      row ∈ database.conversations ∧ row.id = id :=
  Table.find?_eq_some_iff_of_unique database.constraints.conversationKeys

theorem conversationByScope_eq_some {database : Database} {scopeKey : String}
    {row : ConversationRow} :
    database.conversationByScope scopeKey = some row ↔
      row ∈ database.conversations ∧ row.scopeKey = scopeKey :=
  Table.find?_eq_some_iff_of_unique database.constraints.scopeKeys

theorem turnRequest_eq_some {database : Database} {conversationId turnId : String}
    {row : TurnRow} :
    database.turnRequest conversationId turnId = some row ↔
      row ∈ database.turnRequests ∧ row.key = (conversationId, turnId) :=
  Table.find?_eq_some_iff_of_unique database.constraints.turnKeys

/-- The row an operation works on belongs to the conversation stored under the
scope key. -/
theorem turnForUpdate_eq_some {database : Database} {scopeKey turnId : String}
    {row : TurnRow} :
    database.turnForUpdate scopeKey turnId = some row ↔
      row ∈ database.turnRequests ∧ row.turnId = turnId ∧
        ∃ conversation ∈ database.conversations,
          conversation.scopeKey = scopeKey ∧ conversation.id = row.conversationId := by
  unfold turnForUpdate
  rw [Option.bind_eq_some_iff]
  constructor
  · rintro ⟨conversation, found, selected⟩
    obtain ⟨member, inScope⟩ := conversationByScope_eq_some.mp found
    obtain ⟨rowMember, keyed⟩ := turnRequest_eq_some.mp selected
    obtain ⟨owner, turn⟩ := Prod.mk.inj keyed
    exact ⟨rowMember, turn, conversation, member, inScope, owner.symm⟩
  · rintro ⟨rowMember, turn, conversation, member, inScope, owner⟩
    exact ⟨conversation, conversationByScope_eq_some.mpr ⟨member, inScope⟩,
      turnRequest_eq_some.mpr ⟨rowMember, Prod.ext owner.symm turn⟩⟩

theorem mem_messagesOf {database : Database} {conversationId : String}
    {row : MessageRow} :
    row ∈ database.messagesOf conversationId ↔
      row ∈ database.messages ∧ row.conversationId = conversationId := by
  simp [messagesOf]

end Database

end RAGuardian.History
