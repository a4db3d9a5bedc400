import RAGuardian.History.Quota
import RAGuardian.History.Replay

/-! # The pending turns reported and enforced

`quota_status` counts the turns in flight; `begin_turn` refuses by the number of turns
that are not complete, failed ones included. -/

namespace RAGuardian.History

open Json Execution

variable {config : StoreConfig} {draws : Draws} {database after : Database}

/-! ## A free parent -/

/-- No complete turn of a conversation holds the parent slot of its next turn. -/
theorem LinearHistory.parent_free {conversation : ConversationRow} {turns : List TurnRow}
    (history : LinearHistory database conversation turns) (bounded : database.Bounded)
    {turn : TurnRow} (member : turn ∈ turns) :
    turn.parentTurnId.getD "" ≠ conversation.lastTurnId.getD "" := by
  have linked := congrArg (List.map fun parent : Option String => parent.getD "") history.linked
  have nonempty : "" ∉ turns.map (·.turnId) := by
    intro empty
    obtain ⟨other, listed, same⟩ := List.mem_map.mp empty
    exact (bounded other ((history.completed other).mp listed).1).1.1 same
  have distinct : ("" :: turns.map (·.turnId)).Nodup :=
    List.nodup_cons.mpr ⟨nonempty, history.turnIds_nodup⟩
  have slots : (turns.map fun turn => turn.parentTurnId.getD "") ++
      [conversation.lastTurnId.getD ""] = "" :: turns.map (·.turnId) := by
    simpa [Function.comp_def] using linked
  rw [← slots] at distinct
  intro same
  exact List.disjoint_of_nodup_append distinct
    (List.mem_map.mpr ⟨turn, member, rfl⟩) (by simp [same])

/-- The next turn of a conversation without a turn in flight can be reserved. -/
theorem insertReservation_total {conversation : ConversationRow} {row : TurnRow}
    (linear : database.Linear) (bounded : database.Bounded)
    (member : conversation ∈ database.conversations)
    (owner : row.conversationId = conversation.id)
    (parent : row.parentTurnId = conversation.lastTurnId)
    (idle : ∀ turn ∈ database.turnRequests, turn.conversationId = conversation.id →
      turn.inFlight = false)
    (fresh : database.turnRequest conversation.id row.turnId = none) :
    ∃ after, insertReservation row database = .ok after := by
  obtain ⟨turns, history⟩ := linear.histories conversation member
  have holds := database.constraints
  have unclaimed : row.parentSlot ∉
      (database.turnRequests.filter TurnRow.indexed).map TurnRow.parentSlot := by
    intro claimed
    obtain ⟨turn, listed, same⟩ := List.mem_map.mp claimed
    obtain ⟨stored, indexed⟩ := List.mem_filter.mp listed
    obtain ⟨owned, slot⟩ := Prod.mk.inj same
    have complete : turn.status = .complete := by
      have quiet := idle turn stored (owned.trans owner)
      cases status : turn.status <;> simp_all [TurnRow.inFlight, TurnRow.indexed]
    have transcript := (history.completed turn).mpr ⟨stored, owned.trans owner, complete⟩
    rw [parent] at slot
    exact history.parent_free bounded transcript slot
  have newKey : row.key ∉ database.turnRequests.map TurnRow.key := by
    intro listed
    obtain ⟨turn, stored, same⟩ := List.mem_map.mp listed
    have found := Database.turnRequest_eq_some.mpr ⟨stored, same⟩
    rw [owner, fresh] at found
    cases found
  suffices constraints : ({ database.toTables with
      turnRequests := database.turnRequests ++ [row] } : Tables).Constraints from
    ⟨⟨_, constraints⟩, insertReservation_eq_ok.mpr rfl⟩
  refine { holds with turnKeys := ?_, turnOwners := ?_, linearParents := ?_ }
  · rw [List.map_append, List.map_singleton]
    exact List.nodup_append.mpr ⟨holds.turnKeys, List.nodup_singleton _,
      fun key listed other single equal =>
        newKey (List.mem_singleton.mp single ▸ equal ▸ listed)⟩
  · intro turn listed
    rcases List.mem_append.mp listed with old | new
    · exact holds.turnOwners turn old
    · rw [List.mem_singleton.mp new, owner]
      exact List.mem_map_of_mem member
  · rw [List.filter_append, List.map_append]
    refine List.nodup_append.mpr ⟨holds.linearParents, ?_, ?_⟩
    · exact (List.nodup_singleton row.parentSlot).sublist
        (List.filter_sublist.map TurnRow.parentSlot)
    · intro slot listed other single equal
      obtain ⟨turn, kept, same⟩ := List.mem_map.mp single
      rw [List.mem_singleton.mp (List.mem_filter.mp kept).1] at same
      exact unclaimed (same ▸ equal ▸ listed)

/-! ## A fresh turn -/

/-- A `begin_turn` that passes the checks of its arguments, of a turn and a conversation
that are as they should be once the call has cleaned up. -/
structure FreshTurn (config : StoreConfig) (draws : Draws) (database : Database)
    (arguments : BeginTurnArguments) (conversation : ConversationRow) : Prop where
  scopeKind : (ScopeKind.parse arguments.scopeKind).isSome
  turnId : arguments.turnId ≠ "" ∧ arguments.turnId.length ≤ turnIdMaxLen
  requestFingerprint : arguments.requestFingerprint ≠ "" ∧
    arguments.requestFingerprint.length ≤ requestFingerprintLen
  member : conversation ∈ (retained config draws database).conversations
  scopeKey : conversation.scopeKey = arguments.scopeKey
  active : conversation.status = .active
  parent : arguments.parentTurnId = conversation.lastTurnId
  idle : ∀ turn ∈ (retained config draws database).turnRequests,
    turn.conversationId = conversation.id → turn.inFlight = false
  fresh : (retained config draws database).turnRequest conversation.id arguments.turnId = none

/-- The turns the pending quota counts. -/
def unfinishedTurns (database : Database) : Nat :=
  database.turnRequests.countP fun row => row.status != .complete

theorem unfinishedTurns_eq (database : Database) :
    unfinishedTurns database = database.turnRequests.countP TurnRow.inFlight +
      database.turnRequests.countP fun row => row.status == .failed := by
  unfold unfinishedTurns
  induction database.turnRequests with
  | nil => rfl
  | cons row rows induction =>
      simp only [List.countP_cons, induction]
      cases status : row.status <;> simp [TurnRow.inFlight, status] <;> omega

/-- The error of `_enforce_pending_quota` -/
def pendingQuotaExceeded : StoreError :=
  .history (.quotaExceeded "pending turn quota exceeded")

/-- The row `begin_turn` reserves for a turn. -/
def reservation (config : StoreConfig) (draws : Draws) (arguments : BeginTurnArguments)
    (conversationId : String) : TurnRow where
  conversationId := conversationId
  turnId := arguments.turnId
  parentTurnId := arguments.parentTurnId
  requestFingerprint := arguments.requestFingerprint
  status := .generating
  resultDigest := none
  leaseToken := some draws.leaseToken
  leaseExpiresAt := some (draws.now + config.leaseSeconds)
  createdAt := draws.now
  updatedAt := draws.now

/-- What `begin_turn` does for a turn that has no row yet. -/
theorem beginTurn_of_absent {arguments : BeginTurnArguments} {scopeKind : ScopeKind}
    {conversation : Conversation} {created associated : Database}
    (parsed : ScopeKind.parse arguments.scopeKind = some scopeKind)
    (validTurn : arguments.turnId ≠ "" ∧ arguments.turnId.length ≤ turnIdMaxLen)
    (validRequest : arguments.requestFingerprint ≠ "" ∧
      arguments.requestFingerprint.length ≤ requestFingerprintLen)
    (quota : enforceConversationQuotaForNewScope config arguments.scopeKey
      (retained config draws database) = .ok ())
    (getOrCreate : getOrCreateConversation draws arguments scopeKind
      (retained config draws database) = .ok (conversation, created))
    (associates : associateReservationKnowledgeBases draws.now conversation.id
      (arguments.selectedKnowledgeBaseIds.getD []) created = .ok associated)
    (absent : associated.turnRequest conversation.id arguments.turnId = none)
    (linear : assertLinearParent conversation.id arguments.parentTurnId associated = .ok ()) :
    beginTurn config draws arguments database = (do
      enforcePendingQuota config associated
      let after ← insertReservation (reservation config draws arguments conversation.id) associated
      return (⟨.new draws.leaseToken (draws.now + config.leaseSeconds), conversation⟩, after)) := by
  rw [retained] at quota getOrCreate
  simp only [beginTurn, parsed, orRaise, require, if_pos validTurn, if_pos validRequest, quota,
    getOrCreate, associates, absent, linear, bind, Except.bind, pure, Except.pure]
  rfl

/-- What a `begin_turn` of a fresh turn answers is decided by the pending quota alone. -/
theorem FreshTurn.decided {arguments : BeginTurnArguments} {conversation : ConversationRow}
    (fresh : FreshTurn config draws database arguments conversation) (linear : database.Linear)
    (bounded : database.Bounded) (documented : database.Documented) :
    ((unfinishedTurns (retained config draws database) : Int) < config.maxPendingTurns ∨
        config.maxPendingTurns ≤ 0 →
      ∃ leaseToken leaseExpiresAt shown after, beginTurn config draws arguments database =
        .ok (⟨.new leaseToken leaseExpiresAt, shown⟩, after)) ∧
    (0 < config.maxPendingTurns →
        config.maxPendingTurns ≤ unfinishedTurns (retained config draws database) →
      beginTurn config draws arguments database = .error pendingQuotaExceeded) := by
  have chain := retained_chain config draws database
  have linearRetained := chain_invariant (fun _ _ effect => effect.linear) chain linear
  have boundedRetained := chain_invariant (fun _ _ effect => effect.bounded) chain bounded
  have documents := chain_invariant (fun _ _ effect => effect.documented) chain documented
  have found : (retained config draws database).conversationByScope arguments.scopeKey =
      some conversation :=
    Database.conversationByScope_eq_some.mpr ⟨fresh.member, fresh.scopeKey⟩
  obtain ⟨shown, decoded⟩ := documents.conversationRow fresh.member
  obtain ⟨promptRef, equal⟩ := conversationRow_eq_ok decoded
  have shownId : shown.id = conversation.id := by rw [equal]
  have owner : shown.id ∈ (retained config draws database).conversationIds :=
    List.mem_map.mpr ⟨conversation, fresh.member, shownId.symm⟩
  obtain ⟨associated, associates⟩ : ∃ after, associateReservationKnowledgeBases draws.now
      shown.id (arguments.selectedKnowledgeBaseIds.getD []) (retained config draws database) =
        .ok after :=
    associateReservationKnowledgeBases_total owner
  have rows := associateReservationKnowledgeBases_eq_ok associates
  have sameTurns : associated.turnRequests = (retained config draws database).turnRequests := by
    rw [rows.tables]
  have sameConversations :
      associated.conversations = (retained config draws database).conversations := by
    rw [rows.tables]
  have member : conversation ∈ associated.conversations := sameConversations ▸ fresh.member
  have absent : associated.turnRequest shown.id arguments.turnId = none := by
    rw [Database.turnRequest, sameTurns, shownId]
    exact fresh.fresh
  have parent : assertLinearParent shown.id arguments.parentTurnId associated = .ok () := by
    rw [assertLinearParent_eq_ok, shownId, Database.lastTurnId_eq member]
    exact fresh.parent
  obtain ⟨scopeKind, parsed⟩ := Option.isSome_iff_exists.mp fresh.scopeKind
  have getOrCreate : getOrCreateConversation draws arguments scopeKind
      (retained config draws database) = .ok (shown, retained config draws database) := by
    simp [getOrCreateConversation, found, fresh.active, decoded, require, bind, Except.bind, pure,
      Except.pure]
  rw [beginTurn_of_absent parsed fresh.turnId fresh.requestFingerprint
    (enforceConversationQuotaForNewScope_of_present found) getOrCreate associates absent parent]
  have counted : associated.turnRequests.countP (fun row => row.status != .complete) =
      unfinishedTurns (retained config draws database) := by
    rw [unfinishedTurns, sameTurns]
  constructor
  · intro room
    have passes : enforcePendingQuota config associated = .ok () := by
      rw [enforcePendingQuota_eq_ok, counted]
      intro limited
      exact room.resolve_right (not_le.mpr limited)
    obtain ⟨after, inserted⟩ : ∃ after, insertReservation
        (reservation config draws arguments shown.id) associated = .ok after := by
      have effect : Effect config draws _ associated := Effect.associate _ _ rows
      have linearAssociated := effect.linear linearRetained
      have boundedAssociated := effect.bounded boundedRetained
      refine insertReservation_total linearAssociated boundedAssociated member shownId
        fresh.parent ?_ ?_
      · rw [sameTurns]
        exact fresh.idle
      · rw [← shownId]
        exact absent
    refine ⟨draws.leaseToken, draws.now + config.leaseSeconds, shown, after, ?_⟩
    rw [passes, inserted]
    rfl
  · intro limited full
    have refused : enforcePendingQuota config associated = .error pendingQuotaExceeded := by
      rw [enforcePendingQuota, require, if_neg (by rw [counted]; exact fun open' => open' ⟨limited, full⟩)]
      rfl
    rw [refused]
    rfl

/-- The state in which `quota_status` reports, after a run. -/
def reportedState (config : StoreConfig) (events : List Event) (draws : Draws) : Database :=
  run (Event.after config) .empty (events ++ [⟨.quotaStatus, draws⟩])

/-- The report agrees with what a fresh turn is told. -/
structure ReportAgrees (config : StoreConfig) (draws : Draws) (database : Database)
    (arguments : BeginTurnArguments) : Prop where
  below : ((quotaStatus config database).pendingTurns : Int) < config.maxPendingTurns →
    ∃ leaseToken leaseExpiresAt shown after, beginTurn config draws arguments database =
      .ok (⟨.new leaseToken leaseExpiresAt, shown⟩, after)
  full : config.maxPendingTurns ≤ ((quotaStatus config database).pendingTurns : Int) →
    beginTurn config draws arguments database = .error pendingQuotaExceeded

/-- The turns `begin_turn` finds in flight, and the failed ones it counts with them. -/
def countedTurns (config : StoreConfig) (draws : Draws) (database : Database) : Nat :=
  (retained config draws database).turnRequests.countP TurnRow.inFlight +
    (retained config draws database).turnRequests.countP fun row => row.status == .failed

/-- At most one turn may be pending. -/
def singleTurn : StoreConfig := { Sample.config with maxPendingTurns := 1 }

/-- A turn that is begun and fails. -/
def failedTurn : List Event :=
  [⟨.beginTurn (Sample.begins "t1" none), Sample.draws 0 "a"⟩,
    ⟨.failTurn "w:c" "t1" "a", Sample.draws 5 "b"⟩]

/-- The turn that follows a run in its conversation is fresh. -/
theorem freshTurn_failedTurn : ∃ conversation,
    FreshTurn singleTurn (Sample.draws 20 "d")
      (reportedState singleTurn failedTurn (Sample.draws 10 "c")) (Sample.begins "t2" none)
      conversation := by
  have stored : ∃ conversation ∈ (retained singleTurn (Sample.draws 20 "d")
      (reportedState singleTurn failedTurn (Sample.draws 10 "c"))).conversations,
      conversation.scopeKey = "w:c" ∧ conversation.status = .active ∧
        none = conversation.lastTurnId ∧
        (∀ turn ∈ (retained singleTurn (Sample.draws 20 "d")
          (reportedState singleTurn failedTurn (Sample.draws 10 "c"))).turnRequests,
          turn.conversationId = conversation.id → turn.inFlight = false) ∧
        (retained singleTurn (Sample.draws 20 "d")
          (reportedState singleTurn failedTurn (Sample.draws 10 "c"))).turnRequest
            conversation.id "t2" = none := by
    decide +kernel
  obtain ⟨conversation, member, scopeKey, active, parent, idle, fresh⟩ := stored
  exact ⟨conversation, by decide, by decide, by decide, member, scopeKey, active, parent, idle,
    fresh⟩

end RAGuardian.History
