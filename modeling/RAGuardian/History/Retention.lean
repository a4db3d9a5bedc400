import RAGuardian.History.Transcript

/-! # Retention passes

What a retention pass leaves is what it found, less the rows it deleted and with
expired leases failed. -/

namespace RAGuardian.History

open Json Execution

variable {config : StoreConfig} {draws : Draws} {before middle after database : Database}

/-- `after` holds rows of `before` only. -/
structure Reduces (before after : Database) : Prop where
  conversations : after.conversations.Sublist before.conversations
  knowledgeBases : after.knowledgeBases.Sublist before.knowledgeBases
  messages : after.messages.Sublist before.messages
  turnRequests : ∀ row ∈ after.turnRequests, ∃ old ∈ before.turnRequests,
    row = old ∨ (old.status = .generating ∧ row = (TurnUpdate.fail none).apply old)

namespace Reduces

theorem refl (database : Database) : Reduces database database where
  conversations := .refl _
  knowledgeBases := .refl _
  messages := .refl _
  turnRequests row member := ⟨row, member, .inl rfl⟩

theorem trans (first : Reduces before middle) (second : Reduces middle after) :
    Reduces before after where
  conversations := second.conversations.trans first.conversations
  knowledgeBases := second.knowledgeBases.trans first.knowledgeBases
  messages := second.messages.trans first.messages
  turnRequests row member := by
    obtain ⟨old, oldMember, same⟩ := second.turnRequests row member
    obtain ⟨oldest, oldestMember, earlier⟩ := first.turnRequests old oldMember
    refine ⟨oldest, oldestMember, ?_⟩
    rcases same with rfl | ⟨generating, rfl⟩
    · exact earlier
    · rcases earlier with rfl | ⟨-, rfl⟩
      · exact .inr ⟨generating, rfl⟩
      · cases generating

theorem deleteConversation (id : String) (database : Database) :
    Reduces database (database.deleteConversation id) where
  conversations := Table.delete_sublist _ _
  knowledgeBases := Table.delete_sublist _ _
  messages := Table.delete_sublist _ _
  turnRequests row member := ⟨row, (Table.mem_delete.mp member).1, .inl rfl⟩

theorem deleteTurn (key : String × String) (database : Database) :
    Reduces database (database.deleteTurn key) where
  conversations := .refl _
  knowledgeBases := .refl _
  messages := .refl _
  turnRequests row member := ⟨row, (Table.mem_delete.mp member).1, .inl rfl⟩

theorem foldl {step : Database → α → Database}
    (single : ∀ item database, Reduces database (step database item)) (items : List α)
    (database : Database) : Reduces database (items.foldl step database) :=
  foldl_invariant (fun item _ reduced => reduced.trans (single item _)) items (refl database)

theorem failExpired (now : Timestamp) (database : Database) :
    Reduces database (database.updateTurns (leaseExpired now) (.fail none)) where
  conversations := .refl _
  knowledgeBases := .refl _
  messages := .refl _
  turnRequests row member := by
    obtain ⟨old, oldMember, rfl⟩ := Table.mem_update.mp member
    refine ⟨old, oldMember, ?_⟩
    split
    · rename_i expired
      simp only [leaseExpired, Bool.and_eq_true, beq_iff_eq] at expired
      exact .inr ⟨expired.1, rfl⟩
    · exact .inl rfl

end Reduces

theorem cleanupExpiredLocked_reduces (config : StoreConfig) (now : Timestamp)
    (database : Database) : Reduces database (cleanupExpiredLocked config now database).2 :=
  (Reduces.failExpired now database).trans
    ((Reduces.foldl (fun _ => .deleteConversation _) _ _).trans
      ((Reduces.foldl (fun _ => .deleteTurn _) _ _).trans
        (Reduces.foldl (fun _ => .deleteConversation _) _ _)))

theorem retained_reduces (config : StoreConfig) (draws : Draws) (database : Database) :
    Reduces database (retained config draws database) :=
  cleanupExpiredLocked_reduces config draws.now database

theorem retained_chain (config : StoreConfig) (draws : Draws) (database : Database) :
    Chain config draws database (retained config draws database) :=
  cleanupExpiredLocked_chain draws.now database

/-- A turn that survives a retention pass keeps its key and its request. -/
theorem Reduces.turnRequest {conversationId turnId : String} {row : TurnRow}
    (reduces : Reduces before after)
    (found : after.turnRequest conversationId turnId = some row) :
    ∃ old, before.turnRequest conversationId turnId = some old ∧
      row.requestFingerprint = old.requestFingerprint := by
  obtain ⟨member, key⟩ := Database.turnRequest_eq_some.mp found
  obtain ⟨old, oldMember, same⟩ := reduces.turnRequests row member
  rcases same with rfl | ⟨-, rfl⟩
  · exact ⟨row, Database.turnRequest_eq_some.mpr ⟨oldMember, key⟩, rfl⟩
  · exact ⟨old, Database.turnRequest_eq_some.mpr ⟨oldMember, key⟩, rfl⟩

/-- A conversation that survives is found under its scope key. -/
theorem Reduces.conversationByScope {conversation : ConversationRow}
    (reduces : Reduces before after) (member : conversation ∈ before.conversations)
    (survives : conversation.id ∈ after.conversationIds) :
    after.conversationByScope conversation.scopeKey = some conversation := by
  obtain ⟨survivor, survivorMember, same⟩ := List.mem_map.mp survives
  have equal := Table.eq_of_key_eq before.constraints.conversationKeys
    (reduces.conversations.subset survivorMember) member same
  exact Database.conversationByScope_eq_some.mpr ⟨equal ▸ survivorMember, rfl⟩

/-! ## JSON columns -/

/-- Every JSON column that is ever decoded holds a document. -/
structure Database.Documented (database : Database) : Prop where
  promptRefs : ∀ row ∈ database.conversations, row.promptRef.isDocument = true
  messages : ∀ row ∈ database.messages,
    row.sources.isDocument = true ∧ row.metadata.isDocument = true

theorem Effect.documented (effect : Effect config draws before after)
    (holds : before.Documented) : after.Documented where
  promptRefs row member := by
    cases effect.conversationOrigin member with
    | created stub fresh messages turns => exact stub.promptRef
    | kept old oldMember same messages completed =>
        rw [same.promptRef]
        exact holds.promptRefs old oldMember
    | committed arguments turn old user assistant title promptRef commit equal =>
        subst equal
        exact commit.promptRefDocument
  messages row member := by
    rcases effect.messageOrigin member with old | documents
    · exact holds.messages row old
    · exact documents

theorem Database.empty_documented : Database.empty.Documented where
  promptRefs row member := by cases member
  messages row member := by cases member

theorem run_documented (config : StoreConfig) (events : List Event) :
    (run (Event.after config) .empty events).Documented :=
  run_preserves (fun _ _ _ effect => effect.documented) events Database.empty_documented

namespace Database.Documented

theorem conversationRow (holds : database.Documented) {row : ConversationRow}
    (member : row ∈ database.conversations) :
    ∃ conversation, History.conversationRow row = .ok conversation := by
  obtain ⟨value, loaded⟩ : ∃ value, row.promptRef.loads (.dict []) = some value :=
    Column.loads_of_isDocument (holds.promptRefs row member)
  exact ⟨{ row with promptRef := value }, by rw [History.conversationRow, loaded]; rfl⟩

theorem messageRow (holds : database.Documented) {row : MessageRow}
    (member : row ∈ database.messages) :
    ∃ message, History.messageRow row = .ok message := by
  obtain ⟨sourcesDocument, metadataDocument⟩ := holds.messages row member
  obtain ⟨sources, sourcesLoaded⟩ : ∃ value, row.sources.loads (.list []) = some value :=
    Column.loads_of_isDocument sourcesDocument
  obtain ⟨metadata, metadataLoaded⟩ : ∃ value, row.metadata.loads (.dict []) = some value :=
    Column.loads_of_isDocument metadataDocument
  exact ⟨{ row with sources := sources, metadata := metadata },
    by rw [History.messageRow, sourcesLoaded, metadataLoaded]; rfl⟩

end Database.Documented

end RAGuardian.History
