import RAGuardian.History.Transitions

/-! # What each part of the store guarantees when it returns

One lemma per function, so that no later proof looks inside it. -/

namespace RAGuardian.History

open Json Text Execution

variable {config : StoreConfig} {draws : Draws} {database after : Database}

/-! ## Decoding -/

theorem conversationRow_eq_ok {row : ConversationRow} {conversation : Conversation}
    (decoded : conversationRow row = .ok conversation) :
    ∃ promptRef, conversation = { row with promptRef := promptRef } := by
  simp only [conversationRow, bind_eq_ok, pure_eq_ok] at decoded
  obtain ⟨promptRef, -, rfl⟩ := decoded
  exact ⟨promptRef, rfl⟩

theorem messageRow_eq_ok {row : MessageRow} {message : Message}
    (decoded : messageRow row = .ok message) :
    ∃ sources metadata, message = { row with sources := sources, metadata := metadata } := by
  simp only [messageRow, bind_eq_ok, pure_eq_ok] at decoded
  obtain ⟨sources, -, metadata, -, rfl⟩ := decoded
  exact ⟨sources, metadata, rfl⟩

/-! ## Beginning a turn -/

theorem assertLinearParent_eq_ok {conversationId : String} {parentTurnId : Option String} :
    assertLinearParent conversationId parentTurnId database = .ok () ↔
      parentTurnId = database.lastTurnId conversationId := by
  unfold assertLinearParent Database.lastTurnId
  cases (database.conversationById conversationId).bind (·.lastTurnId) with
  | none => cases parentTurnId <;> simp
  | some last =>
      cases parentTurnId with
      | none => simp
      | some parent =>
          rw [Option.some.injEq, eq_comm (a := parent)]
          exact require_eq_ok

/-- The conversation under the scope key was there, or is stored as a stub. -/
theorem getOrCreateConversation_eq_ok {arguments : BeginTurnArguments}
    {scopeKind : ScopeKind} {conversation : Conversation}
    (returned : getOrCreateConversation draws arguments scopeKind database =
      .ok (conversation, after)) :
    (after = database ∧ ∃ row, database.conversationByScope arguments.scopeKey = some row ∧
        row.status ≠ .archived ∧ conversationRow row = .ok conversation) ∨
      (database.conversationByScope arguments.scopeKey = none ∧
        ∃ row : ConversationRow, Stub draws row ∧ row.scopeKey = arguments.scopeKey ∧
          conversation.id = row.id ∧ row.status = .active ∧
          after.toTables = { database.toTables with
            conversations := database.conversations ++ [row] }) := by
  unfold getOrCreateConversation at returned
  split at returned
  · rename_i row found
    simp only [bind_eq_ok, require_eq_ok, pure_eq_ok, Prod.mk.injEq] at returned
    obtain ⟨-, active, decoded, decodes, rfl, rfl⟩ := returned
    exact .inl ⟨rfl, row, found, active, decodes⟩
  · rename_i absent
    simp only [bind_eq_ok, orRaise_eq_ok, pure_eq_ok, Prod.mk.injEq] at returned
    obtain ⟨encoded, -, stored, inserted, rfl, rfl⟩ := returned
    exact .inr ⟨absent, _, by constructor <;> rfl, by rfl, by rfl, by rfl,
      Database.execute_eq_ok.mp inserted⟩

namespace Associates

theorem refl (conversationId : String) (database : Database) :
    Associates conversationId [] database database where
  tables := rfl
  kept row member := ⟨row, member, rfl⟩
  associated id member := by cases member
  origin row member := .inl ⟨row, member, rfl⟩

theorem trans {conversationId : String} {ids others : List String}
    {before middle after : Database} (first : Associates conversationId ids before middle)
    (second : Associates conversationId others middle after) :
    Associates conversationId (ids ++ others) before after where
  tables := by rw [second.tables, first.tables]
  kept row member := by
    obtain ⟨other, otherMember, equal⟩ := first.kept row member
    obtain ⟨last, lastMember, lastEqual⟩ := second.kept other otherMember
    exact ⟨last, lastMember, lastEqual.trans equal⟩
  associated id member nonempty := by
    rcases List.mem_append.mp member with inFirst | inSecond
    · obtain ⟨row, rowMember, keyed⟩ := first.associated id inFirst nonempty
      obtain ⟨other, otherMember, equal⟩ := second.kept row rowMember
      exact ⟨other, otherMember, equal.trans keyed⟩
    · exact second.associated id inSecond nonempty
  origin row member := by
    rcases second.origin row member with ⟨old, oldMember, equal⟩ | ⟨owner, selected⟩
    · rw [show row.conversationId = old.conversationId from congrArg Prod.fst equal.symm,
        show row.knowledgeBaseId = old.knowledgeBaseId from congrArg Prod.snd equal.symm,
        ← equal]
      exact (first.origin old oldMember).imp_right
        (And.imp_right (List.mem_append_left others))
    · exact .inr ⟨owner, List.mem_append_right ids selected⟩

/-- Only the set of knowledge bases asked for matters. -/
theorem congr {conversationId : String} {ids others : List String}
    {before after : Database} (associates : Associates conversationId ids before after)
    (same : ∀ id, id ∈ others ↔ id ∈ ids) : Associates conversationId others before after where
  tables := associates.tables
  kept := associates.kept
  associated id member := associates.associated id ((same id).mp member)
  origin row member :=
    (associates.origin row member).imp_right (And.imp_right (same row.knowledgeBaseId).mpr)

/-- A fold whose steps associate one knowledge base each, relying on the rows
the fold started from. -/
theorem foldlM {conversationId : String} {start : Database}
    {step : Database → String → Except StoreError Database}
    (single : ∀ before id after,
      (∀ row ∈ start.knowledgeBases, ∃ other ∈ before.knowledgeBases, other.key = row.key) →
        step before id = .ok after → Associates conversationId [id] before after)
    (ids : List String) {before after : Database}
    (started :
      ∀ row ∈ start.knowledgeBases, ∃ other ∈ before.knowledgeBases, other.key = row.key)
    (returned : ids.foldlM step before = .ok after) :
    Associates conversationId ids before after := by
  induction ids generalizing before with
  | nil =>
      simp only [List.foldlM_nil, pure_eq_ok] at returned
      exact returned ▸ refl conversationId before
  | cons id ids induction =>
      rw [List.foldlM_cons, bind_eq_ok] at returned
      obtain ⟨middle, stepped, rest⟩ := returned
      have first := single before id middle started stepped
      refine first.trans (induction (fun row member => ?_) rest)
      obtain ⟨other, otherMember, equal⟩ := started row member
      obtain ⟨last, lastMember, lastEqual⟩ := first.kept other otherMember
      exact ⟨last, lastMember, lastEqual.trans equal⟩

/-- A fold whose steps associate nothing new. -/
theorem foldl {conversationId : String} {step : Database → String → Database}
    (single : ∀ before id, Associates conversationId [] before (step before id))
    (ids : List String) (before : Database) :
    Associates conversationId [] before (ids.foldl step before) := by
  induction ids generalizing before with
  | nil => exact refl conversationId before
  | cons id ids induction => exact (single before id).trans (induction (step before id))

theorem insertKnowledgeBase {row : KnowledgeBaseRow}
    (returned : database.insertKnowledgeBase row = .ok after) :
    Associates row.conversationId [row.knowledgeBaseId] database after where
  tables := by rw [Database.execute_eq_ok.mp returned]
  kept other member := by
    rw [Database.execute_eq_ok.mp returned]
    exact ⟨other, List.mem_append_left _ member, rfl⟩
  associated id member _ := by
    rw [Database.execute_eq_ok.mp returned]
    refine ⟨row, List.mem_append_right _ (List.mem_singleton_self row), ?_⟩
    rw [List.mem_singleton.mp member]
    rfl
  origin other member := by
    rw [Database.execute_eq_ok.mp returned] at member
    rcases List.mem_append.mp member with old | new
    · exact .inl ⟨other, old, rfl⟩
    · rw [List.mem_singleton.mp new]
      exact .inr ⟨rfl, List.mem_singleton_self _⟩

theorem insertKnowledgeBaseOrIgnore {row : KnowledgeBaseRow}
    (returned : database.insertKnowledgeBaseOrIgnore row = .ok after) :
    Associates row.conversationId [row.knowledgeBaseId] database after := by
  unfold Database.insertKnowledgeBaseOrIgnore at returned
  split at returned
  · rename_i present
    cases returned
    obtain ⟨other, member, keyed⟩ := List.any_eq_true.mp present
    refine ⟨rfl, fun row member => ⟨row, member, rfl⟩, ?_,
      fun row member => .inl ⟨row, member, rfl⟩⟩
    intro id idMember _
    rw [List.mem_singleton.mp idMember]
    exact ⟨other, member, by simpa [KnowledgeBaseRow.key] using keyed⟩
  · exact insertKnowledgeBase returned

theorem updateKnowledgeBases (database : Database) (conversationId : String)
    (selects : KnowledgeBaseRow → Bool) (update : KnowledgeBaseUpdate) :
    Associates conversationId [] database (database.updateKnowledgeBases selects update) where
  tables := rfl
  kept row member := by
    refine ⟨_, Table.mem_update.mpr ⟨row, member, rfl⟩, ?_⟩
    split
    · exact update.key row
    · rfl
  associated _ member := by cases member
  origin row member := by
    obtain ⟨old, oldMember, rfl⟩ := Table.mem_update.mp member
    refine .inl ⟨old, oldMember, ?_⟩
    split
    · exact (update.key old).symm
    · rfl

/-- The empty identifier never gets a row. -/
theorem skipEmpty (conversationId : String) (database : Database) :
    Associates conversationId [""] database database where
  tables := rfl
  kept row member := ⟨row, member, rfl⟩
  associated _ member nonempty := absurd (List.mem_singleton.mp member) nonempty
  origin row member := .inl ⟨row, member, rfl⟩

end Associates

theorem associateReservationKnowledgeBases_eq_ok {now : Timestamp} {conversationId : String}
    {ids : List String}
    (returned : associateReservationKnowledgeBases now conversationId ids database =
      .ok after) :
    Associates conversationId ids database after := by
  refine (Associates.foldlM ?_ ids.eraseDups (fun row member => ⟨row, member, rfl⟩)
    returned).congr fun id => List.mem_eraseDups.symm
  intro before id after _ stepped
  split at stepped
  · rename_i empty
    cases stepped
    exact empty ▸ Associates.skipEmpty conversationId before
  · exact Associates.insertKnowledgeBaseOrIgnore stepped

theorem upsertKnowledgeBases_eq_ok {now : Timestamp} {conversationId : String}
    {ids : List String}
    (returned : upsertKnowledgeBases now conversationId ids database = .ok after) :
    Associates conversationId ids database after := by
  simp only [upsertKnowledgeBases, bind_eq_ok, pure_eq_ok] at returned
  obtain ⟨selected, folded, rfl⟩ := returned
  have first : Associates conversationId ids database selected := by
    refine Associates.foldlM ?_ ids (fun row member => ⟨row, member, rfl⟩) folded
    intro before id after started stepped
    split at stepped
    · rename_i empty
      cases stepped
      exact empty ▸ Associates.skipEmpty conversationId before
    · split at stepped
      · rename_i known
        cases stepped
        obtain ⟨row, member, rfl⟩ := List.mem_map.mp known
        obtain ⟨rowMember, owner⟩ := List.mem_filter.mp member
        obtain ⟨kept, keptMember, keyed⟩ := started row rowMember
        have updated := Associates.updateKnowledgeBases before conversationId
          (·.key == (conversationId, row.knowledgeBaseId)) (.select now)
        refine ⟨updated.tables, updated.kept, ?_, fun other otherMember =>
          (updated.origin other otherMember).imp_right fun new => by cases new.2⟩
        intro id idMember _
        obtain ⟨last, lastMember, equal⟩ := updated.kept kept keptMember
        refine ⟨last, lastMember, ?_⟩
        rw [equal, keyed, List.mem_singleton.mp idMember, KnowledgeBaseRow.key,
          eq_of_beq owner]
      · exact Associates.insertKnowledgeBase stepped
  refine (first.trans (Associates.foldl ?_ _ selected)).congr fun id => by simp
  exact fun before _ => Associates.updateKnowledgeBases before conversationId _ _

/-- The statements that rewrite one row of `turn_requests`. -/
theorem activateTurn_eq_ok {key : String × String} {change : TurnRow → TurnRow} :
    database.activateTurn key change = .ok after ↔
      after.toTables = { database.toTables with
        turnRequests := Table.update (·.key == key) change database.turnRequests } :=
  Database.execute_eq_ok

/-- A retried turn replays, or works again under a lease of this call. -/
theorem handleExistingTurn_eq_ok {existing : TurnRow} {requestFingerprint : String}
    {reply : BeginTurnReply}
    (returned : handleExistingTurn config draws existing requestFingerprint database =
      .ok (reply, after)) :
    existing.requestFingerprint = requestFingerprint ∧
      ((existing.status = .complete ∧ after = database ∧ ∃ messages,
          messagesForTurn database existing.conversationId existing.turnId = .ok messages ∧
            reply = .complete messages) ∨
        (existing.status = .ready ∧ after = database ∧
          reply = .ready existing.resultDigest existing.leaseToken
            existing.leaseExpiresAt) ∨
        ((existing.status = .failed ∨ existing.status = .generating) ∧
          ∃ change : TurnRow → TurnRow, ∃ leaseExpires,
            TurnChange draws database existing (change existing) ∧
            after.toTables = { database.toTables with
              turnRequests :=
                Table.update (·.key == existing.key) change database.turnRequests } ∧
            (change existing).leaseToken = some draws.revivedLeaseToken ∧
            reply = .new draws.revivedLeaseToken leaseExpires)) := by
  simp only [handleExistingTurn, bind_eq_ok, require_eq_ok] at returned
  obtain ⟨-, sameRequest, handled⟩ := returned
  refine ⟨sameRequest, ?_⟩
  cases status : existing.status with
  | complete =>
      simp only [status, bind_eq_ok, pure_eq_ok, Prod.mk.injEq] at handled
      obtain ⟨messages, read, rfl, rfl⟩ := handled
      exact .inl ⟨rfl, rfl, messages, read, rfl⟩
  | ready =>
      simp only [status, pure_eq_ok, Prod.mk.injEq] at handled
      obtain ⟨rfl, rfl⟩ := handled
      exact .inr (.inl ⟨rfl, rfl, rfl⟩)
  | failed =>
      simp only [status, bind_eq_ok, pure_eq_ok, Prod.mk.injEq] at handled
      obtain ⟨_, linear, revived, activated, rfl, rfl⟩ := handled
      refine .inr (.inr ⟨.inl rfl, _, _, ?_, activateTurn_eq_ok.mp activated, rfl, rfl⟩)
      exact .revive existing _ _ status (assertLinearParent_eq_ok.mp linear)
  | generating =>
      simp only [status, bind_eq_ok, require_eq_ok, pure_eq_ok, Prod.mk.injEq] at handled
      obtain ⟨-, -, rfl, rfl⟩ := handled
      exact .inr (.inr ⟨.inr rfl, _, _, .takeOver existing _ _ status, rfl, rfl, rfl⟩)

theorem insertReservation_eq_ok {row : TurnRow} :
    insertReservation row database = .ok after ↔
      after.toTables = { database.toTables with
        turnRequests := database.turnRequests ++ [row] } := by
  rw [← Database.execute_eq_ok]
  unfold insertReservation Database.insertTurn
  split
  · rename_i violated
    rw [violated]
    simp
  · rfl

theorem enforcePendingQuota_eq_ok :
    enforcePendingQuota config database = .ok () ↔
      (0 < config.maxPendingTurns →
        ((database.turnRequests.countP fun row => row.status != .complete : Nat) : Int) <
          config.maxPendingTurns) := by
  unfold enforcePendingQuota
  rw [require_eq_ok, not_and, not_le]

/-- The database `begin_turn` works on after its retention pass. -/
def retained (config : StoreConfig) (draws : Draws) (database : Database) : Database :=
  (cleanupExpiredLocked config draws.now database).2

/-- The stages of a `begin_turn` that returns. -/
theorem beginTurn_eq_ok {arguments : BeginTurnArguments} {result : BeginTurnResult}
    (returned : beginTurn config draws arguments database = .ok (result, after)) :
    ∃ scopeKind created associated,
      getOrCreateConversation draws arguments scopeKind (retained config draws database) =
        .ok (result.conversation, created) ∧
      Associates result.conversation.id (arguments.selectedKnowledgeBaseIds.getD [])
        created associated ∧
      ((∃ existing,
          associated.turnRequest result.conversation.id arguments.turnId = some existing ∧
          handleExistingTurn config draws existing arguments.requestFingerprint associated =
            .ok (result.reply, after)) ∨
        (associated.turnRequest result.conversation.id arguments.turnId = none ∧
          ∃ row, Reservation config draws associated row ∧
            row.key = (result.conversation.id, arguments.turnId) ∧
            row.requestFingerprint = arguments.requestFingerprint ∧
            (∃ leaseExpires, result.reply = .new draws.leaseToken leaseExpires) ∧
            after.toTables = { associated.toTables with
              turnRequests := associated.turnRequests ++ [row] })) := by
  simp only [beginTurn, bind_eq_ok, require_eq_ok] at returned
  obtain ⟨scopeKind, -, -, validTurn, -, validRequest, -, -, ⟨conversation, created⟩,
    getOrCreate, associated, associates, handled⟩ := returned
  have associatesRows := associateReservationKnowledgeBases_eq_ok associates
  split at handled
  · rename_i existing found
    simp only [bind_eq_ok, pure_eq_ok, Prod.mk.injEq] at handled
    obtain ⟨⟨reply, final⟩, replied, rfl, rfl⟩ := handled
    exact ⟨scopeKind, created, associated, getOrCreate, associatesRows,
      .inl ⟨existing, found, replied⟩⟩
  · rename_i absent
    simp only [bind_eq_ok, pure_eq_ok, Prod.mk.injEq] at handled
    obtain ⟨_, linear, _, quota, final, inserted, rfl, rfl⟩ := handled
    refine ⟨scopeKind, created, associated, getOrCreate, associatesRows,
      .inr ⟨absent, _, ⟨rfl, rfl, ?_, validTurn, validRequest, ?_⟩, rfl, rfl, ⟨_, rfl⟩,
        insertReservation_eq_ok.mp inserted⟩⟩
    · exact assertLinearParent_eq_ok.mp linear
    · exact enforcePendingQuota_eq_ok.mp quota

/-- What `begin_turn` answers for a turn that already has a row. -/
theorem beginTurn_of_existing {arguments : BeginTurnArguments} {scopeKind : ScopeKind}
    {conversation : Conversation} {created associated : Database} {existing : TurnRow}
    (parsed : ScopeKind.parse arguments.scopeKind = some scopeKind)
    (validTurn : arguments.turnId ≠ "" ∧ arguments.turnId.length ≤ turnIdMaxLen)
    (validRequest : arguments.requestFingerprint ≠ "" ∧
      arguments.requestFingerprint.length ≤ requestFingerprintLen)
    (quota : enforceConversationQuotaForNewScope config arguments.scopeKey
      (retained config draws database) = .ok ())
    (getOrCreate : getOrCreateConversation draws arguments scopeKind
      (retained config draws database) = .ok (conversation, created))
    (associates : associateReservationKnowledgeBases draws.now conversation.id
      (arguments.selectedKnowledgeBaseIds.getD []) created = .ok associated)
    (found : associated.turnRequest conversation.id arguments.turnId = some existing) :
    beginTurn config draws arguments database =
      (handleExistingTurn config draws existing arguments.requestFingerprint associated).map
        fun handled => (⟨handled.1, conversation⟩, handled.2) := by
  rw [retained] at quota getOrCreate
  simp only [beginTurn, parsed, orRaise, require, if_pos validTurn, if_pos validRequest, quota,
    getOrCreate, associates, found, bind, Except.bind, pure, Except.pure]
  cases handleExistingTurn config draws existing arguments.requestFingerprint associated with
  | ok handled => rfl
  | error raised => rfl

/-! ## Recovery, staging and leases -/

theorem recoverReadyTurn_eq_ok {scopeKey turnId requestFingerprint : String}
    {expectedLeaseToken : Option String} {result : RecoverResultOf ConversationRow}
    (returned : recoverReadyTurn config draws scopeKey turnId requestFingerprint
      expectedLeaseToken database = .ok (result, after)) :
    ∃ row, database.turnForUpdate scopeKey turnId = some row ∧
      row.requestFingerprint = requestFingerprint ∧
      ((row.status = .complete ∧ after = database ∧ ∃ messages,
          messagesForTurn database row.conversationId turnId = .ok messages ∧
            result = .complete messages) ∨
        (row.status = .ready ∧ row.leaseToken = expectedLeaseToken ∧
          ∃ leaseExpiresAt, after.toTables = { database.toTables with
              turnRequests := Table.update (·.key == row.key)
                (TurnRow.recover draws.leaseToken leaseExpiresAt draws.now)
                database.turnRequests } ∧
            result = .new draws.leaseToken leaseExpiresAt
              (after.conversationById row.conversationId))) := by
  simp only [recoverReadyTurn, bind_eq_ok, orRaise_eq_ok, require_eq_ok] at returned
  obtain ⟨row, found, -, sameRequest, handled⟩ := returned
  refine ⟨row, found, sameRequest, ?_⟩
  split at handled
  · rename_i complete
    simp only [bind_eq_ok, pure_eq_ok, Prod.mk.injEq] at handled
    obtain ⟨messages, read, rfl, rfl⟩ := handled
    exact .inl ⟨complete, rfl, messages, read, rfl⟩
  · simp only [bind_eq_ok, require_eq_ok, pure_eq_ok, Prod.mk.injEq] at handled
    obtain ⟨-, ready, -, expected, recovered, activated, rfl, rfl⟩ := handled
    exact .inr ⟨ready, expected, _, activateTurn_eq_ok.mp activated, rfl⟩

theorem markTurnReady_eq_ok {scopeKey turnId leaseToken resultDigest : String} {done : Bool}
    (returned : markTurnReady draws scopeKey turnId leaseToken resultDigest database =
      .ok (done, after)) :
    (done = false ∧ after = database) ∨
      (done = true ∧ ∃ row, database.turnForUpdate scopeKey turnId = some row ∧
        row.leaseToken = some leaseToken ∧ row.inFlight = true ∧
        after.toTables = { database.toTables with
          turnRequests := Table.update (·.key == row.key)
            (TurnRow.stage resultDigest draws.now) database.turnRequests }) := by
  unfold markTurnReady at returned
  split at returned
  · cases returned
    exact .inl ⟨rfl, rfl⟩
  · rename_i row found
    split at returned
    · cases returned
      exact .inl ⟨rfl, rfl⟩
    · rename_i current
      split at returned
      · cases returned
        exact .inl ⟨rfl, rfl⟩
      · rename_i inFlight
        simp only [bind_eq_ok, pure_eq_ok, Prod.mk.injEq] at returned
        obtain ⟨staged, activated, rfl, rfl⟩ := returned
        exact .inr ⟨rfl, row, found, not_not.mp current, by simpa using inFlight,
          activateTurn_eq_ok.mp activated⟩

theorem renewTurnLease_cases (config : StoreConfig) (draws : Draws)
    (scopeKey turnId leaseToken : String) (database : Database) :
    renewTurnLease config draws scopeKey turnId leaseToken database = (false, database) ∨
      ∃ row, database.turnForUpdate scopeKey turnId = some row ∧
        row.leaseToken = some leaseToken ∧ row.inFlight = true ∧
        renewTurnLease config draws scopeKey turnId leaseToken database =
          (true, database.updateTurns (·.key == row.key)
            (.renew (draws.now + config.leaseSeconds) draws.now)) := by
  unfold renewTurnLease
  split
  · exact .inl rfl
  · rename_i row found
    split
    · exact .inl rfl
    · rename_i current
      split
      · exact .inl rfl
      · rename_i inFlight
        exact .inr ⟨row, found, not_not.mp current, by simpa using inFlight, rfl⟩

theorem failTurn_cases (draws : Draws) (scopeKey turnId leaseToken : String)
    (database : Database) :
    failTurn draws scopeKey turnId leaseToken database = (false, database) ∨
      ∃ row, database.turnForUpdate scopeKey turnId = some row ∧
        row.leaseToken = some leaseToken ∧ row.status ≠ .complete ∧
        failTurn draws scopeKey turnId leaseToken database =
          (true, database.updateTurns (·.key == row.key) (.fail (some draws.now))) := by
  unfold failTurn
  split
  · exact .inl rfl
  · rename_i row found
    split
    · exact .inl rfl
    · rename_i current
      split
      · exact .inl rfl
      · rename_i incomplete
        exact .inr ⟨row, found, not_not.mp current, incomplete, rfl⟩

/-! ## Completion -/

/-- Once a value has been encoded, `_json_bytes` measures that text. -/
theorem jsonBytes_of_dumps {value : Value} {document : Document}
    (dumped : Document.dumps value = some document) :
    jsonBytes value = utf8Bytes document.text := by
  rw [jsonBytes, (Document.dumps_eq_some dumped).2]

theorem enforceConversationQuotaOnFirstCommit_eq_ok {conversation : ConversationRow}
    (passed : enforceConversationQuotaOnFirstCommit config conversation database = .ok ())
    (limited : 0 < config.maxConversations) (first : conversation.messageCount = 0) :
    ((database.conversations.countP fun other =>
      0 < other.messageCount && other.id != conversation.id : Nat) : Int) <
        config.maxConversations := by
  unfold enforceConversationQuotaOnFirstCommit at passed
  rw [if_neg (by omega)] at passed
  exact require_eq_ok.mp passed

theorem enforceConversationBytes_eq_ok {currentBytes : Nat}
    {userContent assistantContent : String} {sources metadata : Value} :
    enforceConversationBytes config currentBytes userContent assistantContent sources
        metadata = .ok () ↔
      ((currentBytes + (utf8Bytes userContent + utf8Bytes assistantContent +
        jsonBytes sources + jsonBytes metadata) : Nat) : Int) ≤
          config.maxConversationBytes := by
  unfold enforceConversationBytes
  rw [require_eq_ok]
  push_cast
  rfl

theorem enforceHistoryBytes_eq_ok {turnBytes : Nat} :
    enforceHistoryBytes config turnBytes database = .ok () ↔
      (((database.conversations.map (·.payloadBytes)).sum + turnBytes : Nat) : Int) ≤
        config.maxHistoryBytes := by
  unfold enforceHistoryBytes
  rw [require_eq_ok]
  push_cast
  rfl

/-- A completion stores the exchange and closes the reservation. -/
theorem commitTurn_eq_ok {arguments : CompleteTurnArguments}
    {sources metadata promptRef : Value} {row : TurnRow} {committed : CommittedTurn}
    (member : row ∈ database.turnRequests) (turnId : row.turnId = arguments.turnId)
    (notComplete : row.status ≠ .complete)
    (leaseToken : row.leaseToken = some arguments.leaseToken)
    (requestFingerprint : row.requestFingerprint = arguments.requestFingerprint)
    (returned : commitTurn config draws arguments sources metadata promptRef row database =
      .ok (committed, after)) :
    ∃ conversation user assistant title encoded,
      Commit config draws arguments row conversation user assistant title encoded
        database after ∧
      messagesForTurn after row.conversationId arguments.turnId = .ok committed.messages := by
  simp only [commitTurn, bind_eq_ok, orRaise_eq_ok, pure_eq_ok, Prod.mk.injEq] at returned
  obtain ⟨conversation, found, _, conversationQuota, _, messageQuota, _, bytesQuota, _,
    historyQuota, sourcesJson, sourcesDumped, metadataJson, metadataDumped, emptySources, -,
    emptyMetadata, -, first, userInserted, second, assistantInserted, associated, upserted,
    closed, activated, promptRefJson, -, messages, read, rfl, rfl⟩ := returned
  obtain ⟨owner, owns⟩ := Database.conversationById_eq_some.mp found
  have userTables := Database.execute_eq_ok.mp userInserted
  have assistantTables := Database.execute_eq_ok.mp assistantInserted
  have associates := upsertKnowledgeBases_eq_ok upserted
  have closedTables := activateTurn_eq_ok.mp activated
  rw [associates.tables, assistantTables, userTables] at closedTables
  have messagesEqual := congrArg Tables.messages closedTables
  have turnsEqual := congrArg Tables.turnRequests closedTables
  have conversationsEqual := congrArg Tables.conversations closedTables
  have outboxEqual := congrArg Tables.cleanupOutbox closedTables
  have knowledgeBasesEqual := congrArg Tables.knowledgeBases closedTables
  simp only [List.append_assoc, List.cons_append, List.nil_append] at messagesEqual
  have key : row.key = (row.conversationId, arguments.turnId) := by
    rw [TurnRow.key, turnId]
  have sourcesBytes := jsonBytes_of_dumps sourcesDumped
  have metadataBytes := jsonBytes_of_dumps metadataDumped
  have kept := associates.kept
  have origin := associates.origin
  rw [assistantTables, userTables] at kept origin
  refine ⟨conversation, _, _, deriveTitle conversation.title arguments.userContent,
    .document promptRefJson, {
      member := member
      turnId := turnId
      leaseToken := leaseToken
      notComplete := notComplete
      requestFingerprint := requestFingerprint
      owner := owner
      owns := owns
      exchange := ?exchange
      promptRefDocument := rfl
      conversationQuota :=
        enforceConversationQuotaOnFirstCommit_eq_ok conversationQuota
      messageQuota := require_eq_ok.mp messageQuota
      bytesQuota := ?bytesQuota
      historyQuota := ?historyQuota
      knowledgeBases := ?knowledgeBases
      associated := ?associated
      origin := ?origin
      turnRequests := ?turnRequests
      messages := messagesEqual
      conversations := ?conversations
      cleanupOutbox := outboxEqual }, read⟩
  case exchange =>
    constructor <;> first | rfl | exact turnId.symm | exact ⟨rfl, rfl⟩
  case bytesQuota =>
    have passed := enforceConversationBytes_eq_ok.mp bytesQuota
    simpa only [sourcesBytes, metadataBytes, Nat.add_assoc] using passed
  case historyQuota =>
    have passed := enforceHistoryBytes_eq_ok.mp historyQuota
    simpa only [sourcesBytes, metadataBytes, Nat.add_assoc] using passed
  case knowledgeBases => exact knowledgeBasesEqual ▸ kept
  case associated => exact knowledgeBasesEqual ▸ associates.associated
  case origin => exact knowledgeBasesEqual ▸ origin
  case turnRequests => exact key ▸ turnsEqual
  case conversations =>
    simp only [Database.updateConversations, conversationsEqual, Nat.add_assoc]

/-- A completion replays a complete turn, or commits under the current lease. -/
theorem completeTurn_eq_ok {arguments : CompleteTurnArguments} {result : CompleteTurnResult}
    (returned : completeTurn config draws arguments database = .ok (result, after)) :
    ∃ row, database.turnForUpdate arguments.scopeKey arguments.turnId = some row ∧
      ((row.status = .complete ∧ after = database ∧ ∃ messages,
          messagesForTurn database row.conversationId arguments.turnId = .ok messages ∧
            result = .replayed messages) ∨
        (row.status ≠ .complete ∧
          ∃ conversation user assistant title encoded committed,
            Commit config draws arguments row conversation user assistant title encoded
              database after ∧
            messagesForTurn after row.conversationId arguments.turnId =
              .ok committed.messages ∧
            result = .committed committed)) := by
  simp only [completeTurn, bind_eq_ok, orRaise_eq_ok] at returned
  obtain ⟨-, -, sources, -, metadata, -, promptRef, -, row, found, handled⟩ := returned
  refine ⟨row, found, ?_⟩
  split at handled
  · rename_i complete
    simp only [bind_eq_ok, pure_eq_ok, Prod.mk.injEq] at handled
    obtain ⟨messages, read, rfl, rfl⟩ := handled
    exact .inl ⟨complete, rfl, messages, read, rfl⟩
  · rename_i notComplete
    simp only [bind_eq_ok, require_eq_ok, pure_eq_ok, Prod.mk.injEq] at handled
    obtain ⟨-, current, -, sameRequest, ⟨committed, final⟩, commits, rfl, rfl⟩ := handled
    obtain ⟨member, turn, -⟩ := Database.turnForUpdate_eq_some.mp found
    obtain ⟨conversation, user, assistant, title, encoded, commit, read⟩ :=
      commitTurn_eq_ok member turn notComplete current sameRequest commits
    exact .inr ⟨notComplete, conversation, user, assistant, title, encoded, committed,
      commit, read, rfl⟩

/-! ## Conversations -/

theorem ConversationUpdate.edit_quiet (title : String) (status : ConversationStatus)
    (archivedAt : Option Timestamp) (updatedAt : Timestamp) :
    (ConversationUpdate.edit title status archivedAt updatedAt).Quiet := by
  constructor <;> exact fun _ => rfl

theorem ConversationUpdate.summarize_quiet (summary : String)
    (version throughSequence : Int) (updatedAt : Timestamp) :
    (ConversationUpdate.summarize summary version throughSequence updatedAt).Quiet := by
  constructor <;> exact fun _ => rfl

theorem updateConversation_eq_ok {historyId : String} {title : Option String}
    {archived : Option Bool} {row : ConversationRow}
    (returned : updateConversation draws historyId title archived database =
      .ok (row, after)) :
    ∃ update : ConversationUpdate, update.Quiet ∧
      after = database.updateConversations (·.id == historyId) update := by
  simp only [updateConversation, bind_eq_ok, pure_eq_ok, Prod.mk.injEq] at returned
  obtain ⟨title, -, row, -, -, -, -, rfl⟩ := returned
  exact ⟨_, ConversationUpdate.edit_quiet _ _ _ _, rfl⟩

theorem updateSummary_cases (draws : Draws) (scopeKey summary : String)
    (expectedVersion throughSequence : Int) (database : Database) :
    (updateSummary draws scopeKey summary expectedVersion throughSequence database).2 =
        database ∨
      ∃ id, ∃ update : ConversationUpdate, update.Quiet ∧
        (updateSummary draws scopeKey summary expectedVersion throughSequence database).2 =
          database.updateConversations (·.id == id) update := by
  unfold updateSummary
  split
  · exact .inl rfl
  · rename_i row found
    split
    · exact .inl rfl
    · split
      · exact .inl rfl
      · exact .inr ⟨row.id, _, ConversationUpdate.summarize_quiet _ _ _ _, rfl⟩

/-- Checkpointing a plan writes one outbox row at most. -/
theorem stageSafePlan_eq_ok {cleanupKey : String} {plan : Artifacts.DeletionPlan}
    (returned : stageSafePlan draws cleanupKey plan database = .ok after) :
    after = database ∨ ∃ row, after = database.stageCleanup row := by
  unfold stageSafePlan at returned
  split at returned
  · simp only [stageArtifactCleanupLocked, bind_eq_ok, pure_eq_ok] at returned
    obtain ⟨encoded, -, rfl⟩ := returned
    exact .inr ⟨_, rfl⟩
  · cases returned
    exact .inl rfl

theorem deleteWithArtifactCleanup_eq_ok {historyId : String}
    {result : Bool × Artifacts.DeletionPlan}
    (returned : deleteWithArtifactCleanup config draws historyId database =
      .ok (result, after)) :
    after = database ∨
      ∃ staged, (staged = database ∨ ∃ row, staged = database.stageCleanup row) ∧
        after = staged.deleteConversation historyId := by
  unfold deleteWithArtifactCleanup at returned
  simp only at returned
  split at returned
  · simp only [bind_eq_ok, pure_eq_ok, Prod.mk.injEq] at returned
    obtain ⟨plan, -, -, rfl⟩ := returned
    exact .inl rfl
  · simp only [bind_eq_ok, pure_eq_ok, Prod.mk.injEq] at returned
    obtain ⟨plan, -, staged, staging, -, rfl⟩ := returned
    exact .inr ⟨staged, stageSafePlan_eq_ok staging, rfl⟩

theorem deleteByKnowledgeBaseWithArtifactCleanup_eq_ok {knowledgeBaseId : String}
    {result : Nat × Artifacts.DeletionPlan}
    (returned : deleteByKnowledgeBaseWithArtifactCleanup config draws knowledgeBaseId
      database = .ok (result, after)) :
    (distinctConversationIdsOf knowledgeBaseId database = [] ∧ after = database) ∨
      ∃ staged, (staged = database ∨ ∃ row, staged = database.stageCleanup row) ∧
        after =
          deleteConversationIds (distinctConversationIdsOf knowledgeBaseId database) staged := by
  unfold deleteByKnowledgeBaseWithArtifactCleanup at returned
  simp only at returned
  split at returned
  · rename_i none
    simp only [bind_eq_ok, pure_eq_ok, Prod.mk.injEq] at returned
    obtain ⟨plan, -, -, rfl⟩ := returned
    exact .inl ⟨none, rfl⟩
  · simp only [bind_eq_ok, pure_eq_ok, Prod.mk.injEq] at returned
    obtain ⟨plan, -, staged, staging, -, rfl⟩ := returned
    exact .inr ⟨staged, stageSafePlan_eq_ok staging, rfl⟩

end RAGuardian.History
