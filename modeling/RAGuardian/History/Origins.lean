import RAGuardian.History.Refinement

/-! # Where the rows after an effect come from

Inversion of the effects, one lemma for each table an invariant looks at. -/

namespace RAGuardian.History

open Execution

variable {config : StoreConfig} {draws : Draws} {before after : Database}

/-! ## Turn rows -/

inductive TurnOrigin (config : StoreConfig) (draws : Draws) (before : Database)
    (row : TurnRow) : Prop
  | kept (member : row ∈ before.turnRequests)
  | failed (old : TurnRow) (updatedAt : Option Timestamp)
      (member : old ∈ before.turnRequests) (incomplete : old.status ≠ .complete)
      (equal : row = (TurnUpdate.fail updatedAt).apply old)
  | changed (old : TurnRow) (member : old ∈ before.turnRequests)
      (change : TurnChange draws before old row)
  | reserved (reservation : Reservation config draws before row)
  | committed (old : TurnRow) (member : old ∈ before.turnRequests)
      (leased : old.leaseToken.isSome = true) (incomplete : old.status ≠ .complete)
      (equal : row = old.commit draws.now)

theorem Effect.turnOrigin (effect : Effect config draws before after) {row : TurnRow}
    (member : row ∈ after.turnRequests) : TurnOrigin config draws before row := by
  cases effect with
  | failTurns selects updatedAt incomplete =>
      obtain ⟨old, oldMember, rfl⟩ := Table.mem_update.mp member
      split
      · rename_i selected
        exact .failed old updatedAt oldMember (incomplete old oldMember selected) rfl
      · exact .kept oldMember
  | changeTurn turn change turnMember changed tables =>
      rw [tables] at member
      obtain ⟨old, oldMember, rfl⟩ := Table.mem_update.mp member
      split
      · rename_i selected
        have equal := Table.eq_of_key_eq before.constraints.turnKeys oldMember turnMember
          (by simpa using selected)
        exact .changed turn turnMember (equal ▸ changed)
      · exact .kept oldMember
  | insertConversation _ _ tables =>
      rw [tables] at member
      exact .kept member
  | associate _ _ associates =>
      rw [associates.tables] at member
      exact .kept member
  | reserve turn reservation tables =>
      rw [tables] at member
      rcases List.mem_append.mp member with old | new
      · exact .kept old
      · exact .reserved (List.mem_singleton.mp new ▸ reservation)
  | commit arguments turn conversation user assistant title promptRef committed =>
      rw [committed.turnRequests] at member
      obtain ⟨old, oldMember, rfl⟩ := Table.mem_update.mp member
      split
      · rename_i selected
        have equal := Table.eq_of_key_eq before.constraints.turnKeys oldMember
          committed.member (by simpa using selected)
        subst equal
        exact .committed old oldMember (by simp [committed.leaseToken])
          committed.notComplete rfl
      · exact .kept oldMember
  | editConversation _ _ _ => exact .kept member
  | deleteConversation _ => exact .kept (Table.mem_delete.mp member).1
  | deleteTurn _ _ => exact .kept (Table.mem_delete.mp member).1
  | stageCleanup _ => exact .kept member
  | deleteCleanup _ => exact .kept member

/-! ## Conversation rows -/

/-- Two rows of one conversation with the same transcript columns. -/
structure SameAccount (old new : ConversationRow) : Prop where
  id : new.id = old.id
  scopeKey : new.scopeKey = old.scopeKey
  messageCount : new.messageCount = old.messageCount
  payloadBytes : new.payloadBytes = old.payloadBytes
  lastTurnId : new.lastTurnId = old.lastTurnId
  promptRef : new.promptRef = old.promptRef

theorem SameAccount.refl (row : ConversationRow) : SameAccount row row := by
  constructor <;> rfl

inductive ConversationOrigin (config : StoreConfig) (draws : Draws)
    (before after : Database) (row : ConversationRow) : Prop
  | created (stub : Stub draws row) (fresh : row.id ∉ before.conversationIds)
      (messages : after.messagesOf row.id = [])
      (turns : ∀ turn ∈ after.turnRequests, turn.conversationId ≠ row.id)
  | kept (old : ConversationRow) (member : old ∈ before.conversations)
      (same : SameAccount old row)
      (messages : after.messagesOf row.id = before.messagesOf row.id)
      (completed : ∀ turn : TurnRow, turn.conversationId = row.id →
        turn.status = .complete →
          (turn ∈ after.turnRequests ↔ turn ∈ before.turnRequests))
  | committed (arguments : CompleteTurnArguments) (turn : TurnRow) (old : ConversationRow)
      (user assistant : MessageRow) (title : String) (promptRef : Json.Column)
      (commit : Commit config draws arguments turn old user assistant title promptRef
        before after)
      (equal : row = (ConversationUpdate.commit arguments title promptRef
        (old.messageCount + 2)
        (old.payloadBytes + (user.payloadBytes + assistant.payloadBytes))
        draws.now).apply old)

/-- A row of an effect that leaves the transcript of every conversation alone. -/
theorem ConversationOrigin.untouched {row : ConversationRow}
    (member : row ∈ before.conversations) (messages : after.messages = before.messages)
    (completed : ∀ turn : TurnRow, turn.status = .complete →
      (turn ∈ after.turnRequests ↔ turn ∈ before.turnRequests)) :
    ConversationOrigin config draws before after row :=
  .kept row member (.refl row) (by rw [Database.messagesOf, Database.messagesOf, messages])
    fun turn _ => completed turn

/-- An update that selects incomplete rows and completes none is not seen by a
complete row. -/
theorem mem_update_iff_of_complete {selects : TurnRow → Bool} {change : TurnRow → TurnRow}
    {rows : List TurnRow}
    (before : ∀ row ∈ rows, selects row = true → row.status ≠ .complete)
    (after : ∀ row ∈ rows, selects row = true → (change row).status ≠ .complete)
    {turn : TurnRow} (complete : turn.status = .complete) :
    turn ∈ Table.update selects change rows ↔ turn ∈ rows := by
  rw [Table.mem_update]
  constructor
  · rintro ⟨old, member, equal⟩
    split at equal
    · rename_i selected
      exact absurd (equal ▸ complete) (after old member selected)
    · exact equal ▸ member
  · intro member
    refine ⟨turn, member, ?_⟩
    rw [if_neg]
    exact fun selected => before turn member selected complete

/-- The identifier of an inserted conversation was not in use. -/
theorem fresh_of_insert {row : ConversationRow}
    (tables : after.toTables = { before.toTables with
      conversations := before.conversations ++ [row] }) : row.id ∉ before.conversationIds := by
  have unique := after.constraints.conversationKeys
  rw [tables, Tables.conversationIds, List.map_append] at unique
  exact fun present => List.disjoint_of_nodup_append unique present (by simp)

theorem Effect.conversationOrigin (effect : Effect config draws before after)
    {row : ConversationRow} (member : row ∈ after.conversations) :
    ConversationOrigin config draws before after row := by
  cases effect with
  | failTurns selects updatedAt incomplete =>
      refine .untouched member rfl fun turn => mem_update_iff_of_complete incomplete ?_
      intro row _ _ complete
      cases complete
  | changeTurn turn change turnMember changed tables =>
      rw [tables] at member
      refine .untouched member (by rw [tables]) fun other complete => ?_
      rw [tables]
      have only : ∀ other ∈ before.turnRequests, (other.key == turn.key) = true →
          other = turn := fun other otherMember selected =>
        Table.eq_of_key_eq before.constraints.turnKeys otherMember turnMember
          (by simpa using selected)
      refine mem_update_iff_of_complete ?_ ?_ complete
      · intro other otherMember selected
        exact only other otherMember selected ▸ changed.notComplete
      · intro other otherMember selected completed
        have inFlight := changed.inFlight
        rw [← only other otherMember selected, TurnRow.inFlight, completed] at inFlight
        cases inFlight
  | insertConversation stored stub tables =>
      rw [tables] at member
      rcases List.mem_append.mp member with old | new
      · exact .untouched old (by rw [tables]) fun turn _ => by rw [tables]
      · rw [List.mem_singleton.mp new]
        have fresh := fresh_of_insert tables
        refine .created stub fresh ?_ ?_
        · rw [Database.messagesOf, tables, List.filter_eq_nil_iff]
          intro message messageMember owned
          exact fresh (eq_of_beq owned ▸ before.constraints.messageOwners _ messageMember)
        · intro turn turnMember owned
          rw [tables] at turnMember
          exact fresh (owned ▸ before.constraints.turnOwners turn turnMember)
  | associate _ _ associates =>
      rw [associates.tables] at member
      exact .untouched member (by rw [associates.tables])
        fun turn _ => by rw [associates.tables]
  | reserve turn reservation tables =>
      rw [tables] at member
      refine .untouched member (by rw [tables]) fun other complete => ?_
      rw [tables, List.mem_append, List.mem_singleton]
      constructor
      · rintro (old | rfl)
        · exact old
        · rw [reservation.status] at complete
          cases complete
      · exact .inl
  | commit arguments turn conversation user assistant title promptRef committed =>
      rw [committed.conversations] at member
      obtain ⟨old, oldMember, rfl⟩ := Table.mem_update.mp member
      split
      · rename_i selected
        have equal := Table.eq_of_key_eq before.constraints.conversationKeys oldMember
          committed.owner (by rw [eq_of_beq selected, committed.owns])
        subst equal
        exact .committed arguments turn old user assistant title promptRef committed rfl
      · rename_i different
        have other : old.id ≠ turn.conversationId := by simpa using different
        refine .kept old oldMember (.refl old) ?_ ?_
        · have exchange := committed.exchange
          rw [Database.messagesOf, committed.messages, List.filter_append,
            List.filter_cons_of_neg, List.filter_cons_of_neg, List.filter_nil,
            List.append_nil]
          · rfl
          · simpa [exchange.assistantOwner] using other.symm
          · simpa [exchange.userOwner] using other.symm
        · intro row owned complete
          rw [committed.turnRequests, Table.mem_update]
          constructor
          · rintro ⟨previous, previousMember, equal⟩
            split at equal
            · rename_i closed
              have sameOwner := congrArg Prod.fst (eq_of_beq closed)
              rw [← equal] at owned
              exact absurd (owned.symm.trans sameOwner) other
            · exact equal ▸ previousMember
          · intro rowMember
            refine ⟨row, rowMember, ?_⟩
            rw [if_neg]
            intro closed
            exact other (owned.symm.trans (congrArg Prod.fst (eq_of_beq closed)))
  | editConversation id update quiet =>
      obtain ⟨old, oldMember, rfl⟩ := Table.mem_update.mp member
      split
      · exact .kept old oldMember ⟨update.id old, update.scopeKey old,
          quiet.messageCount old, quiet.payloadBytes old, quiet.lastTurnId old,
          quiet.promptRef old⟩ rfl fun _ _ _ => Iff.rfl
      · exact .kept old oldMember (.refl old) rfl fun _ _ _ => Iff.rfl
  | deleteConversation id =>
      obtain ⟨rowMember, spared⟩ := Table.mem_delete.mp member
      have different : row.id ≠ id := by simpa using spared
      refine .kept row rowMember (.refl row) ?_ ?_
      · refine Table.filter_delete_of_disjoint fun message _ owned => ?_
        simpa [eq_of_beq owned] using different
      · intro turn owned _
        rw [Database.deleteConversation, Table.mem_delete]
        simp [owned, different]
  | deleteTurn key incomplete =>
      refine .untouched member rfl fun turn complete => ?_
      rw [Database.deleteTurn, Table.mem_delete, and_iff_left_iff_imp]
      intro turnMember
      simpa using fun equal => incomplete turn turnMember equal complete
  | stageCleanup _ => exact .untouched member rfl fun _ _ => Iff.rfl
  | deleteCleanup _ => exact .untouched member rfl fun _ _ => Iff.rfl

/-! ## Messages -/

/-- A completion appends its exchange to the messages of the conversation. -/
theorem Commit.messagesOf {arguments : CompleteTurnArguments} {turn : TurnRow}
    {conversation : ConversationRow} {user assistant : MessageRow} {title : String}
    {promptRef : Json.Column}
    (commit : Commit config draws arguments turn conversation user assistant title promptRef
      before after) :
    after.messagesOf turn.conversationId =
      before.messagesOf turn.conversationId ++ [user, assistant] := by
  rw [Database.messagesOf, commit.messages, List.filter_append,
    List.filter_cons_of_pos (by simp [commit.exchange.userOwner]),
    List.filter_cons_of_pos (by simp [commit.exchange.assistantOwner])]
  rfl

/-- A message was there before, or belongs to the exchange of a completion. -/
theorem Effect.messageOrigin (effect : Effect config draws before after)
    {row : MessageRow} (member : row ∈ after.messages) :
    row ∈ before.messages ∨
      (row.sources.isDocument = true ∧ row.metadata.isDocument = true) := by
  cases effect with
  | failTurns _ _ _ => exact .inl member
  | changeTurn _ _ _ _ tables => exact .inl (congrArg Tables.messages tables ▸ member)
  | insertConversation _ _ tables => exact .inl (congrArg Tables.messages tables ▸ member)
  | associate _ _ associates =>
      exact .inl (congrArg Tables.messages associates.tables ▸ member)
  | reserve _ _ tables => exact .inl (congrArg Tables.messages tables ▸ member)
  | commit _ _ _ user assistant _ _ committed =>
      rw [committed.messages, List.mem_append, List.mem_pair] at member
      rcases member with old | rfl | rfl
      · exact .inl old
      · exact .inr committed.exchange.userDocuments
      · exact .inr committed.exchange.assistantDocuments
  | editConversation _ _ _ => exact .inl member
  | deleteConversation _ => exact .inl (Table.mem_delete.mp member).1
  | deleteTurn _ _ => exact .inl member
  | stageCleanup _ => exact .inl member
  | deleteCleanup _ => exact .inl member

end RAGuardian.History
