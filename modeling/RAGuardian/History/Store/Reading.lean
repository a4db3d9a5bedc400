import RAGuardian.History.Store.Common

/-! # Reads of the history store

What `ConversationService` reads of a conversation: its row with the associated
knowledge bases, and its messages in pages. -/

namespace RAGuardian.History

/-- A conversation as `get` and `get_by_scope_key` return it. -/
structure ConversationView where
  conversation : Conversation
  knowledgeBases : List KnowledgeBaseRow

/-- `_load_knowledge_bases` -/
def loadKnowledgeBases (database : Database) (conversationId : String) :
    List KnowledgeBaseRow :=
  database.knowledgeBases.filter (·.conversationId == conversationId)

/-- The part `get` and `get_by_scope_key` share. -/
def viewConversation (database : Database) :
    Option ConversationRow → Except StoreError (Option ConversationView)
  | none => .ok none
  | some row => do
      let conversation ← conversationRow row
      return some ⟨conversation, loadKnowledgeBases database row.id⟩

/-- `get` -/
def get (historyId : String) (database : Database) :
    Except StoreError (Option ConversationView) :=
  viewConversation database (database.conversationById historyId)

/-- `get_by_scope_key` -/
def getByScopeKey (scopeKey : String) (database : Database) :
    Except StoreError (Option ConversationView) :=
  viewConversation database (database.conversationByScope scopeKey)

/-- The page size the two listings make of their argument. -/
def pageSize (limit : Int) : Nat :=
  (max 1 (min limit 200)).toNat

/-- `SELECT * FROM messages WHERE conversation_id = ? AND sequence < ? ORDER BY
sequence DESC`, without the bound if there is none -/
def messagesBefore (database : Database) (conversationId : String)
    (beforeSequence : Option Int) : List MessageRow :=
  ((database.messagesOf conversationId).filter fun row =>
    beforeSequence.all fun before => decide ((row.sequence : Int) < before)).insertionSort
      fun left right => right.sequence ≤ left.sequence

/-- `list_messages` -/
def listMessages (historyId : String) (beforeSequence : Option Int) (limit : Int)
    (database : Database) : Except StoreError (List Message × Option Nat) := do
  let limit := pageSize limit
  let _ ← orRaise (.history (.conversationNotFound historyId))
    (database.conversationById historyId)
  let rows := (messagesBefore database historyId beforeSequence).take (limit + 1)
  let hasMore := decide (limit < rows.length)
  let messages ← (if hasMore then rows.take limit else rows).mapM messageRow
  let messages := messages.reverse
  return (messages, if hasMore then messages.head?.map (·.sequence) else none)

/-- `SELECT * FROM messages WHERE conversation_id = ? AND sequence > ? ORDER BY
sequence ASC` -/
def messagesAfter (database : Database) (conversationId : String) (afterSequence : Int) :
    List MessageRow :=
  ((database.messagesOf conversationId).filter fun row =>
    decide (max 0 afterSequence < row.sequence)).insertionSort fun left right =>
      left.sequence ≤ right.sequence

/-- `list_messages_after_sequence` -/
def listMessagesAfterSequence (historyId : String) (afterSequence : Int) (limit : Int)
    (database : Database) : Except StoreError (List Message × Option Nat) := do
  let limit := pageSize limit
  let _ ← orRaise (.history (.conversationNotFound historyId))
    (database.conversationById historyId)
  let rows := (messagesAfter database historyId afterSequence).take (limit + 1)
  let hasMore := decide (limit < rows.length)
  let messages ← (if hasMore then rows.take limit else rows).mapM messageRow
  return (messages, if hasMore then messages.getLast?.map (·.sequence) else none)

end RAGuardian.History
