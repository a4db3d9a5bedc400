import RAGuardian.History.Schema

/-! # Statements

The data changes the store executes. Statements that cannot break a constraint
are total and carry the proof; the others go through `Database.execute`. -/

namespace RAGuardian.History

/-! ## Column updates -/

/-- A change of `turn_requests` columns other than the keys, which puts no row
back under the linear-parent index. -/
structure TurnUpdate where
  apply : TurnRow → TurnRow
  key : ∀ row, (apply row).key = row.key
  parent : ∀ row, (apply row).parentTurnId = row.parentTurnId
  indexed : ∀ row, (apply row).indexed = true → row.indexed = true

/-- A change of `conversations` columns other than the keys. -/
structure ConversationUpdate where
  apply : ConversationRow → ConversationRow
  id : ∀ row, (apply row).id = row.id
  scopeKey : ∀ row, (apply row).scopeKey = row.scopeKey

/-- A change of `conversation_knowledge_bases` columns other than the key. -/
structure KnowledgeBaseUpdate where
  apply : KnowledgeBaseRow → KnowledgeBaseRow
  key : ∀ row, (apply row).key = row.key

namespace TurnUpdate

@[simp] theorem conversationId (update : TurnUpdate) (row : TurnRow) :
    (update.apply row).conversationId = row.conversationId :=
  congrArg Prod.fst (update.key row)

/-- `status = 'failed', lease_token = NULL, lease_expires_at = NULL`, with the
`updated_at` the statement sets, if it sets one. -/
def fail (updatedAt : Option Timestamp) : TurnUpdate where
  apply row := { row with
    status := .failed
    leaseToken := none
    leaseExpiresAt := none
    updatedAt := updatedAt.getD row.updatedAt }
  key _ := rfl
  parent _ := rfl
  indexed _ activated := by simp [TurnRow.indexed] at activated

/-- `lease_expires_at = ?, updated_at = ?` -/
def renew (leaseExpiresAt updatedAt : Timestamp) : TurnUpdate where
  apply row := { row with leaseExpiresAt := some leaseExpiresAt, updatedAt := updatedAt }
  key _ := rfl
  parent _ := rfl
  indexed _ activated := activated

/-- `lease_token = ?, lease_expires_at = ?, updated_at = ?` -/
def takeOver (leaseToken : String) (leaseExpiresAt updatedAt : Timestamp) :
    TurnUpdate where
  apply row := { row with
    leaseToken := some leaseToken
    leaseExpiresAt := some leaseExpiresAt
    updatedAt := updatedAt }
  key _ := rfl
  parent _ := rfl
  indexed _ activated := activated

end TurnUpdate

namespace KnowledgeBaseUpdate

@[simp] theorem conversationId (update : KnowledgeBaseUpdate) (row : KnowledgeBaseRow) :
    (update.apply row).conversationId = row.conversationId :=
  congrArg Prod.fst (update.key row)

/-- `is_selected = 1, last_used_at = ?` -/
def select (lastUsedAt : Timestamp) : KnowledgeBaseUpdate where
  apply row := { row with isSelected := true, lastUsedAt := lastUsedAt }
  key _ := rfl

/-- `is_selected = 0` -/
def deselect : KnowledgeBaseUpdate where
  apply row := { row with isSelected := false }
  key _ := rfl

end KnowledgeBaseUpdate

namespace Database

/-- `UPDATE turn_requests` on columns that no index of a live row covers -/
def updateTurns (selects : TurnRow → Bool) (update : TurnUpdate)
    (database : Database) : Database where
  toTables := { database.toTables with
    turnRequests := Table.update selects update.apply database.turnRequests }
  constraints := { database.constraints with
    turnKeys := by
      rw [Table.map_update TurnRow.key update.key]
      exact database.constraints.turnKeys
    turnOwners := by
      intro row member
      obtain ⟨old, oldMember, rfl⟩ := Table.mem_update.mp member
      have owner := database.constraints.turnOwners old oldMember
      split
      · rw [update.conversationId]
        exact owner
      · exact owner
    linearParents := by
      apply (Table.map_filter_update_sublist TurnRow.parentSlot ?_ update.indexed
        database.turnRequests).nodup database.constraints.linearParents
      intro row
      simp [TurnRow.parentSlot, update.parent row] }

/-- `UPDATE conversations` on columns other than the keys -/
def updateConversations (selects : ConversationRow → Bool) (update : ConversationUpdate)
    (database : Database) : Database where
  toTables := { database.toTables with
    conversations := Table.update selects update.apply database.conversations }
  constraints := by
    have keys : (Table.update selects update.apply database.conversations).map (·.id) =
        database.conversations.map (·.id) :=
      Table.map_update ConversationOf.id update.id _
    have scopes :
        (Table.update selects update.apply database.conversations).map (·.scopeKey) =
          database.conversations.map (·.scopeKey) :=
      Table.map_update ConversationOf.scopeKey update.scopeKey _
    have holds := database.constraints
    exact {
      conversationKeys := by
        simpa only [Tables.conversationIds, keys] using holds.conversationKeys
      scopeKeys := by simpa only [scopes] using holds.scopeKeys
      knowledgeBaseKeys := holds.knowledgeBaseKeys
      knowledgeBaseOwners := by
        simpa only [Tables.conversationIds, keys] using holds.knowledgeBaseOwners
      turnKeys := holds.turnKeys
      turnOwners := by simpa only [Tables.conversationIds, keys] using holds.turnOwners
      linearParents := holds.linearParents
      messageKeys := holds.messageKeys
      messageOwners := by
        simpa only [Tables.conversationIds, keys] using holds.messageOwners
      messageSequences := holds.messageSequences
      messageRoles := holds.messageRoles
      cleanupKeys := holds.cleanupKeys }

/-- `UPDATE conversation_knowledge_bases` on columns other than the key -/
def updateKnowledgeBases (selects : KnowledgeBaseRow → Bool)
    (update : KnowledgeBaseUpdate) (database : Database) : Database where
  toTables := { database.toTables with
    knowledgeBases := Table.update selects update.apply database.knowledgeBases }
  constraints := { database.constraints with
    knowledgeBaseKeys := by
      rw [Table.map_update KnowledgeBaseRow.key update.key]
      exact database.constraints.knowledgeBaseKeys
    knowledgeBaseOwners := by
      intro row member
      obtain ⟨old, oldMember, rfl⟩ := Table.mem_update.mp member
      have owner := database.constraints.knowledgeBaseOwners old oldMember
      split
      · rw [update.conversationId]
        exact owner
      · exact owner }

/-! ## Deletions -/

/-- `DELETE FROM conversations WHERE id = ?`, with the cascades of the three
tables that refer to it -/
def deleteConversation (id : String) (database : Database) : Database where
  toTables := { database.toTables with
    conversations := Table.delete (·.id == id) database.conversations
    knowledgeBases := Table.delete (·.conversationId == id) database.knowledgeBases
    turnRequests := Table.delete (·.conversationId == id) database.turnRequests
    messages := Table.delete (·.conversationId == id) database.messages }
  constraints := by
    have holds := database.constraints
    have owned : ∀ owner ∈ database.conversationIds, owner ≠ id →
        owner ∈ (Table.delete (·.id == id) database.conversations).map (·.id) := by
      intro owner member different
      obtain ⟨conversation, conversationMember, rfl⟩ := List.mem_map.mp member
      exact List.mem_map_of_mem
        (Table.mem_delete.mpr ⟨conversationMember, by simpa using different⟩)
    exact {
      conversationKeys :=
        ((Table.delete_sublist _ _).map _).nodup holds.conversationKeys
      scopeKeys := ((Table.delete_sublist _ _).map _).nodup holds.scopeKeys
      knowledgeBaseKeys := ((Table.delete_sublist _ _).map _).nodup holds.knowledgeBaseKeys
      knowledgeBaseOwners := by
        intro row member
        obtain ⟨rowMember, spared⟩ := Table.mem_delete.mp member
        exact owned _ (holds.knowledgeBaseOwners row rowMember) (by simpa using spared)
      turnKeys := ((Table.delete_sublist _ _).map _).nodup holds.turnKeys
      turnOwners := by
        intro row member
        obtain ⟨rowMember, spared⟩ := Table.mem_delete.mp member
        exact owned _ (holds.turnOwners row rowMember) (by simpa using spared)
      linearParents :=
        (((Table.delete_sublist _ _).filter _).map _).nodup holds.linearParents
      messageKeys := ((Table.delete_sublist _ _).map _).nodup holds.messageKeys
      messageOwners := by
        intro row member
        obtain ⟨rowMember, spared⟩ := Table.mem_delete.mp member
        exact owned _ (holds.messageOwners row rowMember) (by simpa using spared)
      messageSequences := ((Table.delete_sublist _ _).map _).nodup holds.messageSequences
      messageRoles := ((Table.delete_sublist _ _).map _).nodup holds.messageRoles
      cleanupKeys := holds.cleanupKeys }

/-- `DELETE FROM turn_requests WHERE conversation_id = ? AND turn_id = ?` -/
def deleteTurn (key : String × String) (database : Database) : Database where
  toTables := { database.toTables with
    turnRequests := Table.delete (·.key == key) database.turnRequests }
  constraints := { database.constraints with
    turnKeys :=
      ((Table.delete_sublist _ _).map _).nodup database.constraints.turnKeys
    turnOwners := fun row member =>
      database.constraints.turnOwners row (Table.mem_delete.mp member).1
    linearParents :=
      (((Table.delete_sublist _ _).filter _).map _).nodup
        database.constraints.linearParents }

/-! ## Cleanup outbox -/

/-- The upsert of `_stage_artifact_cleanup_locked` -/
def stageCleanup (row : OutboxRow) (database : Database) : Database where
  toTables := { database.toTables with
    cleanupOutbox :=
      if database.cleanupOutbox.any (·.cleanupKey == row.cleanupKey) then
        Table.update (·.cleanupKey == row.cleanupKey) (fun _ => row) database.cleanupOutbox
      else
        database.cleanupOutbox ++ [row] }
  constraints := { database.constraints with
    cleanupKeys := by
      have unique := database.constraints.cleanupKeys
      split
      · have keys : (Table.update (·.cleanupKey == row.cleanupKey) (fun _ => row)
            database.cleanupOutbox).map (·.cleanupKey) =
              database.cleanupOutbox.map (·.cleanupKey) := by
          simp only [Table.update, List.map_map]
          apply List.map_congr_left
          intro other _
          by_cases same : other.cleanupKey = row.cleanupKey
          · simp [same]
          · simp [same]
        rw [keys]
        exact unique
      · rename_i absent
        rw [List.map_append, List.map_singleton]
        refine List.nodup_append.mpr ⟨unique, by simp, ?_⟩
        intro left leftMember right rightMember equal
        obtain ⟨other, otherMember, rfl⟩ := List.mem_map.mp leftMember
        apply absent
        rw [List.any_eq_true]
        exact ⟨other, otherMember, by
          simpa using equal.trans (List.mem_singleton.mp rightMember)⟩ }

/-- `DELETE FROM conversation_artifact_cleanup_outbox WHERE cleanup_key = ?` -/
def deleteCleanup (cleanupKey : String) (database : Database) : Database where
  toTables := { database.toTables with
    cleanupOutbox := Table.delete (·.cleanupKey == cleanupKey) database.cleanupOutbox }
  constraints := { database.constraints with
    cleanupKeys :=
      ((Table.delete_sublist _ _).map _).nodup database.constraints.cleanupKeys }

/-! ## Insertions and activations -/

/-- `INSERT INTO conversations` -/
def insertConversation (row : ConversationRow) (database : Database) :
    Except StoreError Database :=
  execute { database.toTables with conversations := database.conversations ++ [row] }

/-- `INSERT INTO conversation_knowledge_bases` -/
def insertKnowledgeBase (row : KnowledgeBaseRow) (database : Database) :
    Except StoreError Database :=
  execute { database.toTables with knowledgeBases := database.knowledgeBases ++ [row] }

/-- `INSERT OR IGNORE INTO conversation_knowledge_bases` -/
def insertKnowledgeBaseOrIgnore (row : KnowledgeBaseRow) (database : Database) :
    Except StoreError Database :=
  if database.knowledgeBases.any (·.key == row.key) then .ok database
  else database.insertKnowledgeBase row

/-- `INSERT INTO turn_requests` -/
def insertTurn (row : TurnRow) (database : Database) : Except StoreError Database :=
  execute { database.toTables with turnRequests := database.turnRequests ++ [row] }

/-- `INSERT INTO messages`; the row takes the next value of the counter. -/
def insertMessage (row : Nat → MessageRow) (database : Database) :
    Except StoreError Database :=
  let id := database.messageIdSequence + 1
  execute { database.toTables with
    messages := database.messages ++ [row id]
    messageIdSequence := id }

/-- `UPDATE turn_requests ... WHERE conversation_id = ? AND turn_id = ?`, for the
statements that may put a row under the linear-parent index -/
def activateTurn (key : String × String) (change : TurnRow → TurnRow)
    (database : Database) : Except StoreError Database :=
  execute { database.toTables with
    turnRequests := Table.update (·.key == key) change database.turnRequests }

end Database

end RAGuardian.History
