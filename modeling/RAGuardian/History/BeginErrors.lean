import RAGuardian.History.Replay

/-! # What `begin_turn` raises

Its raw exceptions, and exactly when they escape. -/

namespace RAGuardian.History

open Json Execution

variable {config : StoreConfig} {draws : Draws} {database after : Database}

/-! ## Reviving a row -/

/-- Putting a failed row back under the linear-parent index works exactly when no
indexed row holds its slot. -/
theorem activateTurn_revive_iff {row : TurnRow} (change : TurnRow → TurnRow)
    (member : row ∈ database.turnRequests) (unindexed : row.indexed = false)
    (key : ∀ row, (change row).key = row.key)
    (parent : (change row).parentTurnId = row.parentTurnId)
    (indexed : (change row).indexed = true) :
    (∃ after, database.activateTurn row.key change = .ok after) ↔
      ∀ other ∈ database.turnRequests, other.indexed = true →
        other.parentSlot ≠ row.parentSlot := by
  have holds := database.constraints
  obtain ⟨earlier, later, rows, updated, -, -⟩ :=
    Table.exists_update_eq holds.turnKeys member (·.key == row.key) change
      (fun other _ => by simp)
  have slot : (change row).parentSlot = row.parentSlot := by
    rw [TurnRow.parentSlot, TurnRow.parentSlot, parent,
      show (change row).conversationId = row.conversationId from congrArg Prod.fst (key row)]
  have slots : ((Table.update (·.key == row.key) change database.turnRequests).filter
        TurnRow.indexed).map TurnRow.parentSlot =
      (earlier.filter TurnRow.indexed).map TurnRow.parentSlot ++ row.parentSlot ::
        (later.filter TurnRow.indexed).map TurnRow.parentSlot := by
    rw [updated, List.filter_append, List.filter_cons_of_pos indexed, List.map_append,
      List.map_cons, slot]
  have others : (database.turnRequests.filter TurnRow.indexed).map TurnRow.parentSlot =
      (earlier.filter TurnRow.indexed).map TurnRow.parentSlot ++
        (later.filter TurnRow.indexed).map TurnRow.parentSlot := by
    rw [rows, List.filter_append, List.filter_cons_of_neg (by simp [unindexed]),
      List.map_append]
  have vacant : row.parentSlot ∉
        (database.turnRequests.filter TurnRow.indexed).map TurnRow.parentSlot ↔
      ∀ other ∈ database.turnRequests, other.indexed = true →
        other.parentSlot ≠ row.parentSlot := by
    simp only [List.mem_map, List.mem_filter, not_exists, not_and, and_imp]
  rw [← vacant, others]
  constructor
  · rintro ⟨after, activated⟩
    have linear := after.constraints.linearParents
    rw [activateTurn_eq_ok.mp activated, slots] at linear
    exact (List.nodup_middle.mp linear).notMem
  · intro absent
    suffices constraints : ({ database.toTables with
        turnRequests := Table.update (·.key == row.key) change database.turnRequests } :
          Tables).Constraints from ⟨⟨_, constraints⟩, activateTurn_eq_ok.mpr rfl⟩
    refine { holds with turnKeys := ?_, turnOwners := ?_, linearParents := ?_ }
    · rw [Table.map_update TurnRow.key key]
      exact holds.turnKeys
    · intro other otherMember
      obtain ⟨old, oldMember, rfl⟩ := Table.mem_update.mp otherMember
      have owner := holds.turnOwners old oldMember
      split
      · rw [show (change old).conversationId = old.conversationId from
          congrArg Prod.fst (key old)]
        exact owner
      · exact owner
    · rw [slots]
      exact List.nodup_middle.mpr (List.nodup_cons.mpr ⟨absent, others ▸ holds.linearParents⟩)

/-- In a linear database a failed row that extends its conversation can be revived
unless another turn of that conversation is in flight. -/
theorem LinearHistory.slot_free_iff {conversation : ConversationRow} {turns : List TurnRow}
    (history : LinearHistory database conversation turns) (bounded : database.Bounded)
    {row : TurnRow} (owned : row.conversationId = conversation.id)
    (linear : row.parentTurnId = conversation.lastTurnId) :
    (∀ other ∈ database.turnRequests, other.indexed = true →
        other.parentSlot ≠ row.parentSlot) ↔
      ∀ other ∈ database.turnRequests, other.conversationId = conversation.id →
        other.inFlight = false := by
  constructor
  · intro vacant other member sameOwner
    by_contra live
    have inFlight : other.inFlight = true := by simpa using live
    refine vacant other member (TurnRow.indexed_of_inFlight inFlight) ?_
    rw [TurnRow.parentSlot, TurnRow.parentSlot, sameOwner, owned, linear,
      history.inFlight other member sameOwner inFlight]
  · intro idle other member indexed equal
    obtain ⟨sameOwner, slot⟩ := Prod.mk.inj equal
    have otherOwner := sameOwner.trans owned
    have complete : other.status = .complete := by
      have notInFlight := idle other member otherOwner
      cases status : other.status <;> simp_all [TurnRow.inFlight, TurnRow.indexed]
    obtain ⟨index, bound, named⟩ := List.getElem_of_mem
      ((history.completed other).mpr ⟨member, otherOwner, complete⟩)
    have lastBound : turns.length - 1 < turns.length := by omega
    have last : conversation.lastTurnId = some turns[turns.length - 1].turnId := by
      rw [history.lastTurnId_eq, List.getLast?_eq_getElem?,
        List.getElem?_eq_getElem lastBound, Option.map_some]
    rw [linear, last, Option.getD_some] at slot
    have lastStored := ((history.completed _).mp (List.getElem_mem lastBound)).1
    cases index with
    | zero =>
        -- The first turn has no parent, and no turn id is empty.
        rw [← named, history.parent_of_first bound] at slot
        exact (bounded _ lastStored).1.1 slot.symm
    | succ index =>
        -- A later turn names its predecessor, which is not the last turn.
        rw [← named, history.parent_of_next bound, Option.getD_some] at slot
        have injective := List.nodup_iff_injective_getElem.mp history.turnIds_nodup
        have equal := @injective ⟨index, by simp; omega⟩
          ⟨turns.length - 1, by simpa using lastBound⟩ (by simpa using slot)
        have sameIndex : index = turns.length - 1 := congrArg Fin.val equal
        omega

/-! ## The parts of `begin_turn` -/

theorem require_error_isHistory {condition : Prop} [Decidable condition]
    {error : HistoryError} {raised : StoreError}
    (failed : require condition (.history error) = .error raised) : raised.isHistory = true := by
  rw [← (require_eq_error.mp failed).2]
  rfl

theorem assertLinearParent_error {conversationId : String} {parentTurnId : Option String}
    {raised : StoreError}
    (failed : assertLinearParent conversationId parentTurnId database = .error raised) :
    raised.isHistory = true := by
  simp only [assertLinearParent] at failed
  split at failed
  · cases failed
  · cases failed
    rfl
  · cases failed
    rfl
  · exact require_error_isHistory failed

theorem enforceConversationQuotaForNewScope_error {scopeKey : String} {raised : StoreError}
    (failed : enforceConversationQuotaForNewScope config scopeKey database = .error raised) :
    raised.isHistory = true := by
  unfold enforceConversationQuotaForNewScope at failed
  split at failed
  · cases failed
  · split at failed
    · cases failed
    · exact require_error_isHistory failed

theorem insertReservation_error {row : TurnRow} {raised : StoreError}
    (failed : insertReservation row database = .error raised) : raised.isHistory = true := by
  unfold insertReservation Database.insertTurn at failed
  split at failed
  · cases failed
    rfl
  · rename_i notIntegrity
    have integrity := (Database.execute_eq_error.mp failed).2
    exact absurd (integrity ▸ failed) notIntegrity

/-- Documents decode, so replaying cannot fail. -/
theorem Database.Documented.messagesForTurn (documented : database.Documented)
    (conversationId turnId : String) :
    ∃ messages, History.messagesForTurn database conversationId turnId = .ok messages := by
  rw [messagesForTurn_eq]
  have stored : ∀ row ∈ (database.turnMessages conversationId turnId).insertionSort
      (fun left right => left.sequence ≤ right.sequence), row ∈ database.messages := by
    intro row member
    have inTurn := (List.mem_insertionSort _).mp member
    exact (Database.mem_messagesOf.mp (List.mem_filter.mp inTurn).1).1
  generalize (database.turnMessages conversationId turnId).insertionSort
    (fun left right => left.sequence ≤ right.sequence) = rows at stored
  induction rows with
  | nil => exact ⟨[], rfl⟩
  | cons row rows induction =>
      obtain ⟨message, decoded⟩ := documented.messageRow (stored row List.mem_cons_self)
      obtain ⟨messages, rest⟩ := induction fun other member =>
        stored other (List.mem_cons_of_mem row member)
      exact ⟨message :: messages, by rw [List.mapM_cons, decoded, rest]; rfl⟩

/-- Inserting a conversation under a new scope key fails when its identifier is
taken. -/
theorem insertConversation_iff (row : ConversationRow)
    (newScope : row.scopeKey ∉ database.conversations.map (·.scopeKey)) :
    (∃ after, database.insertConversation row = .ok after) ↔
      row.id ∉ database.conversationIds := by
  constructor
  · rintro ⟨after, inserted⟩
    exact fresh_of_insert (Database.execute_eq_ok.mp inserted)
  · intro fresh
    have holds := database.constraints
    have ids : ({ database.toTables with conversations := database.conversations ++ [row] } :
        Tables).conversationIds = database.conversationIds ++ [row.id] := by
      rw [Tables.conversationIds, List.map_append]
      rfl
    suffices constraints : ({ database.toTables with
        conversations := database.conversations ++ [row] } : Tables).Constraints from
      ⟨⟨_, constraints⟩, Database.execute_eq_ok.mpr rfl⟩
    exact { holds with
      conversationKeys := by
        rw [ids]
        exact List.nodup_append.mpr ⟨holds.conversationKeys, List.nodup_singleton _,
          fun id member other otherMember equal =>
            fresh (List.mem_singleton.mp otherMember ▸ equal ▸ member)⟩
      scopeKeys := by
        rw [List.map_append, List.map_singleton]
        exact List.nodup_append.mpr ⟨holds.scopeKeys, List.nodup_singleton _,
          fun scope member other otherMember equal =>
            newScope (List.mem_singleton.mp otherMember ▸ equal ▸ member)⟩
      knowledgeBaseOwners := fun other member =>
        ids ▸ List.mem_append_left _ (holds.knowledgeBaseOwners other member)
      turnOwners := fun other member =>
        ids ▸ List.mem_append_left _ (holds.turnOwners other member)
      messageOwners := fun other member =>
        ids ▸ List.mem_append_left _ (holds.messageOwners other member) }

/-! ## Raw exceptions -/

/-- Arguments that pass the checks made before the transaction. -/
structure BeginTurnArguments.Valid (arguments : BeginTurnArguments) : Prop where
  scopeKind : (ScopeKind.parse arguments.scopeKind).isSome
  turnId : arguments.turnId ≠ "" ∧ arguments.turnId.length ≤ turnIdMaxLen
  requestFingerprint : arguments.requestFingerprint ≠ "" ∧
    arguments.requestFingerprint.length ≤ requestFingerprintLen

/-- The call retries a failed turn that still extends its conversation, while a
second turn from the same parent is generating or ready. -/
def RevivalBlocked (arguments : BeginTurnArguments) (kept : Database) : Prop :=
  ∃ conversation ∈ kept.conversations,
    conversation.scopeKey = arguments.scopeKey ∧ conversation.status ≠ .archived ∧
    ∃ row ∈ kept.turnRequests,
      row.key = (conversation.id, arguments.turnId) ∧ row.status = .failed ∧
      row.requestFingerprint = arguments.requestFingerprint ∧
      row.parentTurnId = conversation.lastTurnId ∧
      ∃ other ∈ kept.turnRequests, other.conversationId = conversation.id ∧
        other.parentTurnId = row.parentTurnId ∧ other.inFlight = true

/-- The call creates a conversation whose prompt reference has no JSON encoding,
or whose identifier is already taken. -/
def CreationRefused (config : StoreConfig) (draws : Draws) (arguments : BeginTurnArguments)
    (kept : Database) : Prop :=
  kept.conversationByScope arguments.scopeKey = none ∧
    enforceConversationQuotaForNewScope config arguments.scopeKey kept = .ok () ∧
    (Document.dumps (.dict (arguments.promptRef.getD [])) = none ∨
      draws.conversationId ∈ kept.conversationIds)

theorem scopeKey_absent {scopeKey : String}
    (absent : database.conversationByScope scopeKey = none) :
    scopeKey ∉ database.conversations.map (·.scopeKey) := by
  intro present
  obtain ⟨row, member, same⟩ := List.mem_map.mp present
  have found := Database.conversationByScope_eq_some.mpr ⟨member, same⟩
  rw [absent] at found
  cases found

/-- Creating a conversation fails raw exactly when it is refused. -/
theorem getOrCreateConversation_raw_iff {arguments : BeginTurnArguments}
    (scopeKind : ScopeKind) (documented : database.Documented) :
    (∃ raised, getOrCreateConversation draws arguments scopeKind database = .error raised ∧
        raised.isHistory = false) ↔
      database.conversationByScope arguments.scopeKey = none ∧
        (Document.dumps (.dict (arguments.promptRef.getD [])) = none ∨
          draws.conversationId ∈ database.conversationIds) := by
  unfold getOrCreateConversation
  cases found : database.conversationByScope arguments.scopeKey with
  | some row =>
      obtain ⟨shown, decoded⟩ := documented.conversationRow
        (Database.conversationByScope_eq_some.mp found).1
      simp only [reduceCtorEq, false_and, iff_false, not_exists, not_and, Bool.not_eq_false]
      intro raised failed
      rw [decoded] at failed
      rcases bind_eq_error.mp failed with archived | ⟨_, _, impossible⟩
      · exact require_error_isHistory archived
      · cases impossible
  | none =>
      have reference : (stubConversation draws arguments scopeKind).promptRef =
        .dict (arguments.promptRef.getD []) := rfl
      simp only [reference, true_and]
      cases dumped : Document.dumps (.dict (arguments.promptRef.getD [])) with
      | none => exact ⟨fun _ => .inl rfl, fun _ => ⟨.typeError, rfl, rfl⟩⟩
      | some encoded =>
          have inserts := insertConversation_iff
            { stubConversation draws arguments scopeKind with promptRef := .document encoded }
            (scopeKey_absent found)
          constructor
          · rintro ⟨raised, failed, -⟩
            refine .inr (by_contra fun fresh => ?_)
            obtain ⟨after, inserted⟩ := inserts.mpr fresh
            simp only [orRaise, bind, Except.bind, inserted] at failed
            cases failed
          · rintro (impossible | taken)
            · cases impossible
            · refine ⟨.integrity, ?_, rfl⟩
              simp only [orRaise, bind, Except.bind]
              cases inserted : database.insertConversation
                { stubConversation draws arguments scopeKind with
                  promptRef := .document encoded } with
              | ok after => exact absurd taken (inserts.mp ⟨after, inserted⟩)
              | error raised =>
                  rw [(Database.execute_eq_error.mp inserted).2]

/-! ## Retried turns -/

/-- Retrying a turn fails raw exactly when it revives a row while another turn of
the conversation is in flight. -/
theorem handleExistingTurn_raw_iff {conversation : ConversationRow} {existing : TurnRow}
    {requestFingerprint : String} (documented : database.Documented)
    (linear : database.Linear) (bounded : database.Bounded)
    (stored : conversation ∈ database.conversations)
    (member : existing ∈ database.turnRequests)
    (owned : existing.conversationId = conversation.id) :
    (∃ raised, handleExistingTurn config draws existing requestFingerprint database =
        .error raised ∧ raised.isHistory = false) ↔
      existing.status = .failed ∧ existing.requestFingerprint = requestFingerprint ∧
        existing.parentTurnId = conversation.lastTurnId ∧
        ∃ other ∈ database.turnRequests, other.conversationId = conversation.id ∧
          other.inFlight = true := by
  obtain ⟨turns, history⟩ := linear.histories conversation stored
  have last : database.lastTurnId existing.conversationId = conversation.lastTurnId := by
    rw [owned, Database.lastTurnId_eq stored]
  have revives (extending : existing.parentTurnId = conversation.lastTurnId)
      (failed : existing.status = .failed) :
      (∃ after, database.activateTurn existing.key (TurnRow.revive draws.revivedLeaseToken
          (draws.now + config.leaseSeconds) draws.now) = .ok after) ↔
        ∀ other ∈ database.turnRequests, other.conversationId = conversation.id →
          other.inFlight = false :=
    (activateTurn_revive_iff (TurnRow.revive _ _ _) member (by simp [TurnRow.indexed, failed])
      (fun _ => rfl) rfl rfl).trans (history.slot_free_iff bounded owned extending)
  constructor
  · rintro ⟨raised, failed, raw⟩
    unfold handleExistingTurn at failed
    rcases bind_eq_error.mp failed with conflict | ⟨_, same, handled⟩
    · rw [require_error_isHistory conflict] at raw
      cases raw
    · have sameRequest := require_eq_ok.mp same
      cases status : existing.status with
      | complete =>
          simp only [status] at handled
          obtain ⟨messages, read⟩ :=
            documented.messagesForTurn existing.conversationId existing.turnId
          rw [read] at handled
          cases handled
      | ready =>
          simp only [status] at handled
          cases handled
      | failed =>
          simp only [status] at handled
          rcases bind_eq_error.mp handled with continuity | ⟨_, asserted, activates⟩
          · rw [assertLinearParent_error continuity] at raw
            cases raw
          · have parent := (assertLinearParent_eq_ok.mp asserted).trans last
            refine ⟨rfl, sameRequest, parent, by_contra fun alone => ?_⟩
            obtain ⟨after, activated⟩ := (revives parent status).mpr
              fun other otherMember otherOwned => by
                by_contra live
                exact alone ⟨other, otherMember, otherOwned, by simpa using live⟩
            rw [activated] at activates
            cases activates
      | generating =>
          simp only [status] at handled
          rcases bind_eq_error.mp handled with progress | ⟨_, -, impossible⟩
          · rw [require_error_isHistory progress] at raw
            cases raw
          · cases impossible
  · rintro ⟨failed, sameRequest, parent, other, otherMember, otherOwned, live⟩
    refine ⟨.integrity, ?_, rfl⟩
    have asserted : assertLinearParent existing.conversationId existing.parentTurnId database =
        .ok () := assertLinearParent_eq_ok.mpr (parent.trans last.symm)
    have raises : database.activateTurn existing.key (TurnRow.revive draws.revivedLeaseToken
        (draws.now + config.leaseSeconds) draws.now) = .error .integrity := by
      cases outcome : database.activateTurn existing.key (TurnRow.revive
        draws.revivedLeaseToken (draws.now + config.leaseSeconds) draws.now) with
      | ok after =>
          have idle := (revives parent failed).mp ⟨after, outcome⟩ other otherMember otherOwned
          rw [live] at idle
          cases idle
      | error raised => rw [(Database.execute_eq_error.mp outcome).2]
    unfold handleExistingTurn
    rw [require, if_pos sameRequest]
    simp only [failed, asserted, raises, bind, Except.bind]

/-! ## The whole call -/

/-- The conversation a call works on is stored once it has been found or
created. -/
theorem getOrCreateConversation_mem {arguments : BeginTurnArguments} {scopeKind : ScopeKind}
    {conversation : Conversation}
    (returned : getOrCreateConversation draws arguments scopeKind database =
      .ok (conversation, after)) : conversation.id ∈ after.conversationIds := by
  rcases getOrCreateConversation_eq_ok returned with
    ⟨rfl, row, found, -, decoded⟩ | ⟨-, row, -, -, sameId, -, tables⟩
  · obtain ⟨promptRef, rfl⟩ := conversationRow_eq_ok decoded
    exact List.mem_map_of_mem (Database.conversationByScope_eq_some.mp found).1
  · rw [tables, sameId]
    exact List.mem_map_of_mem (List.mem_append_right _ (List.mem_singleton_self row))

/-- A turn found after `begin_turn` has created its conversation was there
before: a new identifier owns no rows. -/
theorem getOrCreateConversation_of_turn {arguments : BeginTurnArguments}
    {scopeKind : ScopeKind} {conversation : Conversation} {existing : TurnRow}
    (returned : getOrCreateConversation draws arguments scopeKind database =
      .ok (conversation, after)) (member : existing ∈ after.turnRequests)
    (owned : existing.conversationId = conversation.id) :
    after = database ∧ ∃ row ∈ database.conversations, row.scopeKey = arguments.scopeKey ∧
      row.status ≠ .archived ∧ existing.conversationId = row.id := by
  rcases getOrCreateConversation_eq_ok returned with
    ⟨rfl, row, found, active, decoded⟩ | ⟨-, row, -, -, sameId, -, tables⟩
  · obtain ⟨promptRef, rfl⟩ := conversationRow_eq_ok decoded
    obtain ⟨rowMember, inScope⟩ := Database.conversationByScope_eq_some.mp found
    exact ⟨rfl, row, rowMember, inScope, active, owned⟩
  · rw [tables] at member
    have owner := database.constraints.turnOwners existing member
    rw [owned, sameId] at owner
    exact absurd owner (fresh_of_insert tables)

/-- The turn a retry works on is the one the retention pass left, and fails raw
exactly when its revival is blocked. -/
theorem handleExistingTurn_blocked_iff {arguments : BeginTurnArguments} {kept : Database}
    {conversation : ConversationRow} {ids : List String} {existing : TurnRow}
    (documented : kept.Documented) (linear : kept.Linear) (bounded : kept.Bounded)
    (stored : conversation ∈ kept.conversations)
    (inScope : conversation.scopeKey = arguments.scopeKey)
    (active : conversation.status ≠ .archived)
    (associates : Associates conversation.id ids kept database)
    (found : database.turnRequest conversation.id arguments.turnId = some existing) :
    (∃ raised, handleExistingTurn config draws existing arguments.requestFingerprint
        database = .error raised ∧ raised.isHistory = false) ↔
      RevivalBlocked arguments kept := by
  have effect : Effect config draws kept database := .associate _ _ associates
  have turns : database.turnRequests = kept.turnRequests := by rw [associates.tables]
  have conversations : database.conversations = kept.conversations := by
    rw [associates.tables]
  obtain ⟨member, key⟩ := Database.turnRequest_eq_some.mp found
  have owned : existing.conversationId = conversation.id := congrArg Prod.fst key
  rw [handleExistingTurn_raw_iff (effect.documented documented) (effect.linear linear)
    (effect.bounded bounded) (conversations ▸ stored) member owned]
  rw [turns] at member ⊢
  obtain ⟨history, linearHistory⟩ := linear.histories conversation stored
  constructor
  · rintro ⟨failed, sameRequest, parent, other, otherMember, otherOwned, live⟩
    exact ⟨conversation, stored, inScope, active, existing, member, key, failed, sameRequest,
      parent, other, otherMember, otherOwned,
      (linearHistory.inFlight other otherMember otherOwned live).trans parent.symm, live⟩
  · rintro ⟨same, sameStored, sameScope, -, row, rowMember, rowKey, failed, sameRequest, parent,
      other, otherMember, otherOwned, -, live⟩
    obtain rfl := Table.eq_of_key_eq kept.constraints.scopeKeys sameStored stored
      (sameScope.trans inScope.symm)
    obtain rfl := Table.eq_of_key_eq kept.constraints.turnKeys rowMember member
      (rowKey.trans key.symm)
    exact ⟨failed, sameRequest, parent, other, otherMember, otherOwned, live⟩

section

variable {arguments : BeginTurnArguments}
  (keptDocumented : (retained config draws database).Documented)
  (keptLinear : (retained config draws database).Linear)
  (keptBounded : (retained config draws database).Bounded)
include keptDocumented keptLinear keptBounded

/-- The causes of an exception outside the history family. -/
theorem beginTurn_raw {raised : StoreError}
    (failed : beginTurn config draws arguments database = .error raised)
    (raw : raised.isHistory = false) :
    arguments.Valid ∧
      (RevivalBlocked arguments (retained config draws database) ∨
        CreationRefused config draws arguments (retained config draws database)) := by
  have outside : ¬ raised.isHistory = true := by simp [raw]
  unfold beginTurn at failed
  rcases bind_eq_error.mp failed with scope | ⟨scopeKind, parsed, failed⟩
  · cases parsed : ScopeKind.parse arguments.scopeKind <;> rw [parsed] at scope <;> cases scope
    exact absurd rfl outside
  rcases bind_eq_error.mp failed with turn | ⟨_, validTurn, failed⟩
  · exact absurd (require_error_isHistory turn) outside
  rcases bind_eq_error.mp failed with request | ⟨_, validRequest, failed⟩
  · exact absurd (require_error_isHistory request) outside
  refine ⟨⟨by rw [orRaise_eq_ok.mp parsed]; rfl, require_eq_ok.mp validTurn,
    require_eq_ok.mp validRequest⟩, ?_⟩
  rcases bind_eq_error.mp failed with quota | ⟨_, quota, failed⟩
  · exact absurd (enforceConversationQuotaForNewScope_error quota) outside
  rcases bind_eq_error.mp failed with creation | ⟨⟨conversation, created⟩, getOrCreate, failed⟩
  · obtain ⟨absent, refused⟩ :=
      (getOrCreateConversation_raw_iff scopeKind keptDocumented).mp ⟨raised, creation, raw⟩
    exact .inr ⟨absent, quota, refused⟩
  rcases bind_eq_error.mp failed with association | ⟨associated, associates, failed⟩
  · obtain ⟨after, returned⟩ := associateReservationKnowledgeBases_total
      (getOrCreateConversation_mem getOrCreate)
    rw [returned] at association
    cases association
  have rows := associateReservationKnowledgeBases_eq_ok associates
  split at failed
  · rename_i existing found
    rcases bind_eq_error.mp failed with handled | ⟨_, -, impossible⟩
    · obtain ⟨member, key⟩ := Database.turnRequest_eq_some.mp found
      rw [rows.tables] at member
      obtain ⟨rfl, row, stored, inScope, active, owned⟩ :=
        getOrCreateConversation_of_turn getOrCreate member (congrArg Prod.fst key)
      have shown : conversation.id = row.id := (congrArg Prod.fst key).symm.trans owned
      rw [shown] at rows found
      exact .inl ((handleExistingTurn_blocked_iff keptDocumented keptLinear keptBounded
        stored inScope active rows found).mp ⟨raised, handled, raw⟩)
    · cases impossible
  · rcases bind_eq_error.mp failed with continuity | ⟨_, -, failed⟩
    · exact absurd (assertLinearParent_error continuity) outside
    rcases bind_eq_error.mp failed with pending | ⟨_, -, failed⟩
    · exact absurd (require_error_isHistory pending) outside
    rcases bind_eq_error.mp failed with insertion | ⟨_, -, impossible⟩
    · exact absurd (insertReservation_error insertion) outside
    · cases impossible

/-- A blocked revival escapes as an integrity error. -/
theorem beginTurn_of_blocked (valid : arguments.Valid)
    (blocked : RevivalBlocked arguments (retained config draws database)) :
    ∃ raised, beginTurn config draws arguments database = .error raised ∧
      raised.isHistory = false := by
  obtain ⟨conversation, stored, inScope, active, row, member, key, -⟩ := id blocked
  obtain ⟨scopeKind, parsed⟩ := Option.isSome_iff_exists.mp valid.scopeKind
  have found := Database.conversationByScope_eq_some.mpr ⟨stored, inScope⟩
  obtain ⟨shown, decoded⟩ := keptDocumented.conversationRow stored
  obtain ⟨promptRef, equal⟩ := conversationRow_eq_ok decoded
  have shownId : shown.id = conversation.id := by rw [equal]
  have getOrCreate : getOrCreateConversation draws arguments scopeKind
      (retained config draws database) = .ok (shown, retained config draws database) := by
    simp [getOrCreateConversation, found, active, decoded, require, bind, Except.bind, pure,
      Except.pure]
  obtain ⟨associated, associates⟩ : ∃ after, associateReservationKnowledgeBases draws.now
      shown.id (arguments.selectedKnowledgeBaseIds.getD []) (retained config draws database) =
        .ok after :=
    associateReservationKnowledgeBases_total (getOrCreateConversation_mem getOrCreate)
  have rows := associateReservationKnowledgeBases_eq_ok associates
  have existing : associated.turnRequest shown.id arguments.turnId = some row := by
    rw [Database.turnRequest_eq_some, rows.tables, shownId]
    exact ⟨member, key⟩
  rw [beginTurn_of_existing parsed valid.turnId valid.requestFingerprint
    (enforceConversationQuotaForNewScope_of_present found) getOrCreate associates existing]
  rw [shownId] at rows existing
  obtain ⟨raised, handled, raw⟩ := (handleExistingTurn_blocked_iff keptDocumented keptLinear
    keptBounded stored inScope active rows existing).mpr blocked
  exact ⟨raised, by rw [handled]; rfl, raw⟩

end

/-- A refused creation escapes as the exception of the failing `INSERT`. -/
theorem beginTurn_of_refused {arguments : BeginTurnArguments}
    (keptDocumented : (retained config draws database).Documented) (valid : arguments.Valid)
    (refused : CreationRefused config draws arguments (retained config draws database)) :
    ∃ raised, beginTurn config draws arguments database = .error raised ∧
      raised.isHistory = false := by
  obtain ⟨absent, quota, cause⟩ := refused
  obtain ⟨scopeKind, parsed⟩ := Option.isSome_iff_exists.mp valid.scopeKind
  obtain ⟨raised, creation, raw⟩ :=
    (getOrCreateConversation_raw_iff scopeKind keptDocumented).mpr ⟨absent, cause⟩
  refine ⟨raised, ?_, raw⟩
  rw [retained] at quota creation
  simp only [beginTurn, parsed, orRaise, require, if_pos valid.turnId,
    if_pos valid.requestFingerprint, quota, creation, bind, Except.bind]

end RAGuardian.History
