import RAGuardian.History.Archiving

/-! # What time retention spares

The three deletions of a retention pass, each on what the one before it left. -/

namespace RAGuardian.History

open Execution

variable {config : StoreConfig} {now : Timestamp} {database : Database}

/-! ## Deletions over a list -/

theorem deleteConversations_eq (rows : List ConversationRow) (database : Database) :
    deleteConversations rows database = deleteConversationIds (rows.map (·.id)) database := by
  rw [deleteConversations, deleteConversationIds, List.foldl_map]

theorem mem_deleteConversations {rows : List ConversationRow} {row : ConversationRow} :
    row ∈ (deleteConversations rows database).conversations ↔
      row ∈ database.conversations ∧ row.id ∉ rows.map (·.id) := by
  induction rows generalizing database with
  | nil => simp [deleteConversations]
  | cons other rows induction =>
      rw [deleteConversations, List.foldl_cons, ← deleteConversations, induction,
        Database.deleteConversation, Table.mem_delete]
      simp [and_assoc]

theorem mem_turnRequests_deleteConversations {rows : List ConversationRow} {turn : TurnRow} :
    turn ∈ (deleteConversations rows database).turnRequests ↔
      turn ∈ database.turnRequests ∧ turn.conversationId ∉ rows.map (·.id) := by
  induction rows generalizing database with
  | nil => simp [deleteConversations]
  | cons other rows induction =>
      rw [deleteConversations, List.foldl_cons, ← deleteConversations, induction,
        Database.deleteConversation, Table.mem_delete]
      simp [and_assoc]

theorem messagesOf_deleteConversations {rows : List ConversationRow} {id : String}
    (spared : id ∉ rows.map (·.id)) :
    (deleteConversations rows database).messagesOf id = database.messagesOf id := by
  rw [deleteConversations_eq]
  exact (deleteConversationIds_sameRows spared database).messages

theorem deleteTurns_tables (rows : List (String × TurnRow)) (database : Database) :
    (deleteTurns rows database).toTables = { database.toTables with
      turnRequests := (deleteTurns rows database).turnRequests } := by
  induction rows generalizing database with
  | nil => rfl
  | cons row rows induction =>
      rw [deleteTurns, List.foldl_cons, ← deleteTurns, induction]
      rfl

theorem mem_deleteTurns {rows : List (String × TurnRow)} {turn : TurnRow} :
    turn ∈ (deleteTurns rows database).turnRequests ↔
      turn ∈ database.turnRequests ∧ turn.key ∉ rows.map (·.2.key) := by
  induction rows generalizing database with
  | nil => simp [deleteTurns]
  | cons row rows induction =>
      rw [deleteTurns, List.foldl_cons, ← deleteTurns, induction, Database.deleteTurn,
        Table.mem_delete]
      simp [and_assoc]

/-! ## The stages of a pass -/

/-- Expired leases have failed. -/
def failedLeases (now : Timestamp) (database : Database) : Database :=
  database.updateTurns (leaseExpired now) (.fail none)

/-- Conversations past active-history retention are gone. -/
def afterRetirement (config : StoreConfig) (now : Timestamp) (database : Database) : Database :=
  deleteConversations (retiredConversations config now (failedLeases now database))
    (failedLeases now database)

/-- Incomplete turns past their retention are gone. -/
def afterIncomplete (config : StoreConfig) (now : Timestamp) (database : Database) : Database :=
  deleteTurns (staleTurns config now (afterRetirement config now database))
    (afterRetirement config now database)

/-- The rows `retired`, `stale` and `stubs` of a pass, and what it leaves. -/
theorem cleanupExpiredLocked_eq (config : StoreConfig) (now : Timestamp) (database : Database) :
    (cleanupExpiredLocked config now database).2 =
        deleteConversations (staleStubs config now (afterIncomplete config now database))
          (afterIncomplete config now database) ∧
      (cleanupExpiredLocked config now database).1.deletedScopeKeys =
        (retiredConversations config now (failedLeases now database)).map (·.scopeKey) ++
          (staleStubs config now (afterIncomplete config now database)).map (·.scopeKey) ∧
      (cleanupExpiredLocked config now database).1.deletedTurns =
        (staleTurns config now (afterRetirement config now database)).map fun row =>
          (row.1, row.2.turnId) :=
  ⟨rfl, rfl, rfl⟩

theorem mem_retiredConversations {row : ConversationRow} :
    row ∈ retiredConversations config now database ↔
      0 < config.retentionDays ∧ row ∈ database.conversations ∧ row.status = .active ∧
        0 < row.messageCount ∧ row.updatedAt < cutoff now config.retentionDays ∧
        database.Idle row.id := by
  unfold retiredConversations Database.Idle
  split
  · rename_i limited
    simp [limited, and_assoc]
  · rename_i unlimited
    simp [unlimited]

theorem mem_staleStubs {row : ConversationRow} :
    row ∈ staleStubs config now database ↔
      0 < config.incompleteTurnRetentionDays ∧ row ∈ database.conversations ∧
        row.messageCount = 0 ∧
        row.updatedAt < cutoff now config.incompleteTurnRetentionDays ∧
        ∀ turn ∈ database.turnRequests, turn.conversationId ≠ row.id := by
  unfold staleStubs
  split
  · rename_i limited
    simp [limited, and_assoc]
  · rename_i unlimited
    simp [unlimited]

theorem mem_staleTurns {stale : String × TurnRow} :
    stale ∈ staleTurns config now database ↔
      0 < config.incompleteTurnRetentionDays ∧ stale.2 ∈ database.turnRequests ∧
        (stale.2.status = .ready ∨ stale.2.status = .failed) ∧
        stale.2.updatedAt < cutoff now config.incompleteTurnRetentionDays ∧
        ∃ conversation ∈ database.conversations, conversation.id = stale.2.conversationId ∧
          conversation.scopeKey = stale.1 := by
  unfold staleTurns
  split
  · rename_i limited
    simp only [limited, true_and, List.mem_filterMap, List.mem_filter, Bool.and_eq_true,
      Bool.or_eq_true, beq_iff_eq, decide_eq_true_eq, Option.map_eq_some_iff]
    constructor
    · rintro ⟨row, ⟨member, status, old⟩, conversation, found, rfl⟩
      exact ⟨member, status, old, conversation,
        (Database.conversationById_eq_some.mp found).1,
        (Database.conversationById_eq_some.mp found).2, rfl⟩
    · rintro ⟨member, status, old, conversation, conversationMember, owns, inScope⟩
      exact ⟨stale.2, ⟨member, status, old⟩, conversation,
        Database.conversationById_eq_some.mpr ⟨conversationMember, owns⟩,
        Prod.ext inScope rfl⟩
  · rename_i unlimited
    simp [unlimited]

/-! ## What each stage leaves -/

section Stages

variable (config now database)

/-- The identifiers a pass retires, and those of the stubs it removes. -/
def retiredIds : List String :=
  (retiredConversations config now (failedLeases now database)).map (·.id)

def stubIds : List String :=
  (staleStubs config now (afterIncomplete config now database)).map (·.id)

variable {config now database}

theorem mem_afterRetirement {row : ConversationRow} :
    row ∈ (afterRetirement config now database).conversations ↔
      row ∈ database.conversations ∧ row.id ∉ retiredIds config now database :=
  mem_deleteConversations

theorem mem_turnRequests_afterRetirement {turn : TurnRow} :
    turn ∈ (afterRetirement config now database).turnRequests ↔
      turn ∈ (failedLeases now database).turnRequests ∧
        turn.conversationId ∉ retiredIds config now database :=
  mem_turnRequests_deleteConversations

theorem afterIncomplete_conversations :
    (afterIncomplete config now database).conversations =
      (afterRetirement config now database).conversations := by
  rw [afterIncomplete, deleteTurns_tables]

/-- A conversation survives a pass unless it is retired or a stale stub. -/
theorem mem_cleanupExpiredLocked {row : ConversationRow} :
    row ∈ (cleanupExpiredLocked config now database).2.conversations ↔
      row ∈ database.conversations ∧ row.id ∉ retiredIds config now database ∧
        row.id ∉ stubIds config now database := by
  rw [(cleanupExpiredLocked_eq config now database).1, mem_deleteConversations,
    afterIncomplete_conversations, mem_afterRetirement, and_assoc, stubIds]

theorem survives_iff {row : ConversationRow} (member : row ∈ database.conversations) :
    row.id ∈ (cleanupExpiredLocked config now database).2.conversationIds ↔
      row.id ∉ retiredIds config now database ∧ row.id ∉ stubIds config now database := by
  constructor
  · intro survives
    obtain ⟨survivor, survivorMember, same⟩ := List.mem_map.mp survives
    have spared := mem_cleanupExpiredLocked.mp survivorMember
    exact same ▸ spared.2
  · intro spared
    exact List.mem_map_of_mem (mem_cleanupExpiredLocked.mpr ⟨member, spared⟩)

theorem stub_member {row : ConversationRow}
    (stub : row ∈ staleStubs config now (afterIncomplete config now database)) :
    row ∈ database.conversations := by
  have inTable := (mem_staleStubs.mp stub).2.1
  rw [afterIncomplete_conversations] at inTable
  exact (mem_afterRetirement.mp inTable).1

theorem mem_retiredIds {row : ConversationRow} (member : row ∈ database.conversations) :
    row.id ∈ retiredIds config now database ↔
      row ∈ retiredConversations config now (failedLeases now database) := by
  constructor
  · intro retired
    obtain ⟨other, otherMember, same⟩ := List.mem_map.mp retired
    have inTable : other ∈ database.conversations :=
      (mem_retiredConversations.mp otherMember).2.1
    have equal := Table.eq_of_key_eq database.constraints.conversationKeys inTable member same
    exact equal ▸ otherMember
  · exact List.mem_map_of_mem

theorem mem_stubIds {row : ConversationRow} (member : row ∈ database.conversations) :
    row.id ∈ stubIds config now database ↔
      row ∈ staleStubs config now (afterIncomplete config now database) := by
  constructor
  · intro stub
    obtain ⟨other, otherMember, same⟩ := List.mem_map.mp stub
    have equal := Table.eq_of_key_eq database.constraints.conversationKeys
      (stub_member otherMember) member same
    exact equal ▸ otherMember
  · exact List.mem_map_of_mem

/-- A row that has not been given up keeps its place through the first stage. -/
theorem mem_failedLeases {turn : TurnRow} (kept : leaseExpired now turn = false)
    (member : turn ∈ database.turnRequests) :
    turn ∈ (failedLeases now database).turnRequests :=
  Table.mem_update.mpr ⟨turn, member, by simp [kept]⟩

theorem mem_failedLeases_iff_of_complete {turn : TurnRow} (complete : turn.status = .complete) :
    turn ∈ (failedLeases now database).turnRequests ↔ turn ∈ database.turnRequests := by
  refine mem_update_iff_of_complete ?_ ?_ complete
  · intro row _ expired completed
    simp [leaseExpired, completed] at expired
  · intro row _ _ completed
    cases completed

/-- The turns of a conversation with none in flight are not touched. -/
theorem mem_failedLeases_iff_of_idle {turn : TurnRow} (idle : database.Idle turn.conversationId) :
    turn ∈ (failedLeases now database).turnRequests ↔ turn ∈ database.turnRequests := by
  have unexpired : ∀ row ∈ database.turnRequests, row.conversationId = turn.conversationId →
      leaseExpired now row = false := by
    intro row member owned
    have still := idle row member owned
    cases status : row.status <;> simp_all [TurnRow.inFlight, leaseExpired]
  constructor
  · intro member
    obtain ⟨old, oldMember, rfl⟩ := Table.mem_update.mp member
    have owned : old.conversationId =
        (if leaseExpired now old = true then (TurnUpdate.fail none).apply old
          else old).conversationId := by
      split
      · exact ((TurnUpdate.fail none).conversationId old).symm
      · rfl
    have kept := unexpired old oldMember owned
    simpa [kept] using oldMember
  · intro member
    exact mem_failedLeases (unexpired turn member rfl) member

/-- The conversation a pass leaves keeps its messages and its complete turns. -/
theorem cleanupExpiredLocked_keeps {id : String} (active : id ∉ retiredIds config now database)
    (kept : id ∉ stubIds config now database) :
    (cleanupExpiredLocked config now database).2.messagesOf id = database.messagesOf id ∧
      ∀ turn : TurnRow, turn.conversationId = id → turn.status = .complete →
        (turn ∈ (cleanupExpiredLocked config now database).2.turnRequests ↔
          turn ∈ database.turnRequests) := by
  rw [(cleanupExpiredLocked_eq config now database).1]
  constructor
  · calc
      _ = (afterIncomplete config now database).messagesOf id :=
        messagesOf_deleteConversations kept
      _ = (afterRetirement config now database).messagesOf id := by
        rw [afterIncomplete, Database.messagesOf, deleteTurns_tables, Database.messagesOf]
      _ = (failedLeases now database).messagesOf id := messagesOf_deleteConversations active
      _ = database.messagesOf id := rfl
  · rintro turn rfl complete
    rw [mem_turnRequests_deleteConversations]
    refine (and_iff_left kept).trans ?_
    rw [afterIncomplete, mem_deleteTurns, mem_turnRequests_afterRetirement,
      and_iff_left active, mem_failedLeases_iff_of_complete complete, and_iff_left_iff_imp]
    intro member stale
    obtain ⟨row, rowMember, key⟩ := List.mem_map.mp stale
    obtain ⟨-, inTable, status, -⟩ := mem_staleTurns.mp rowMember
    have same := Table.eq_of_key_eq (afterRetirement config now database).constraints.turnKeys
      inTable (mem_turnRequests_afterRetirement.mpr
        ⟨(mem_failedLeases_iff_of_complete complete).mpr member, active⟩) key
    rw [same, complete] at status
    rcases status with ready | failed
    · cases ready
    · cases failed

/-- A turn row that disappears while its conversation stays was a stale one. -/
theorem stale_of_gone {turn : TurnRow} {conversation : ConversationRow}
    (member : turn ∈ database.turnRequests) (owner : conversation ∈ database.conversations)
    (owns : conversation.id = turn.conversationId)
    (active : conversation.id ∉ retiredIds config now database)
    (kept : conversation.id ∉ stubIds config now database)
    (gone : ∀ row ∈ (cleanupExpiredLocked config now database).2.turnRequests,
      row.key ≠ turn.key) :
    ∃ row, (conversation.scopeKey, row) ∈
        staleTurns config now (afterRetirement config now database) ∧ row.key = turn.key := by
  obtain ⟨image, imageMember, sameKey⟩ :
      ∃ image ∈ (failedLeases now database).turnRequests, image.key = turn.key := by
    refine ⟨_, Table.mem_update.mpr ⟨turn, member, rfl⟩, ?_⟩
    split
    · exact (TurnUpdate.fail none).key turn
    · rfl
  have sameOwner : image.conversationId = conversation.id :=
    (congrArg Prod.fst sameKey).trans owns.symm
  have retained : image ∈ (afterRetirement config now database).turnRequests :=
    mem_turnRequests_afterRetirement.mpr ⟨imageMember, sameOwner ▸ active⟩
  by_cases stale : image.key ∈
      (staleTurns config now (afterRetirement config now database)).map (·.2.key)
  · obtain ⟨row, rowMember, key⟩ := List.mem_map.mp stale
    obtain ⟨-, -, -, -, other, otherMember, otherOwns, inScope⟩ := mem_staleTurns.mp rowMember
    have sameConversation : other = conversation :=
      Table.eq_of_key_eq database.constraints.conversationKeys
        (mem_afterRetirement.mp otherMember).1 owner
        ((otherOwns.trans (congrArg Prod.fst key)).trans sameOwner)
    rw [← sameConversation, inScope]
    exact ⟨row.2, rowMember, key.trans sameKey⟩
  · refine absurd sameKey (gone image ?_)
    rw [(cleanupExpiredLocked_eq config now database).1, mem_turnRequests_deleteConversations]
    refine ⟨mem_deleteTurns.mpr ⟨retained, stale⟩, ?_⟩
    rw [sameOwner]
    exact kept

end Stages

/-! ## Safety -/

/-- The turn is ready, or generates under a lease that has not run out. -/
def TurnRow.Live (now : Timestamp) (turn : TurnRow) : Prop :=
  turn.status = .ready ∨ turn.status = .generating ∧ leaseExpired now turn = false

/-- What a retention pass promises of the state it finds, the result it reports
and the state it leaves. -/
structure RetentionSafe (now : Timestamp) (before : Database) (result : CleanupResult)
    (after : Database) : Prop where
  archived : ∀ row ∈ before.conversations, row.status = .archived →
    row.id ∈ after.conversationIds
  live : ∀ row ∈ before.conversations, before.messagesOf row.id ≠ [] →
    ∀ turn ∈ before.turnRequests, turn.conversationId = row.id → turn.Live now →
      row.id ∈ after.conversationIds
  kept : ∀ row ∈ before.conversations, row.id ∈ after.conversationIds →
    row ∈ after.conversations ∧ after.messagesOf row.id = before.messagesOf row.id ∧
      ∀ turn : TurnRow, turn.conversationId = row.id → turn.status = .complete →
        (turn ∈ after.turnRequests ↔ turn ∈ before.turnRequests)
  deletedScopeKeys : ∀ scopeKey, scopeKey ∈ result.deletedScopeKeys ↔
    ∃ row ∈ before.conversations, row.scopeKey = scopeKey ∧ row.id ∉ after.conversationIds
  listedOnce : result.deletedScopeKeys.Nodup
  deletedTurns : ∀ row ∈ before.conversations, row.id ∈ after.conversationIds →
    ∀ turn ∈ before.turnRequests, turn.conversationId = row.id →
      (∀ other ∈ after.turnRequests, other.key ≠ turn.key) →
        (row.scopeKey, turn.turnId) ∈ result.deletedTurns

/-- An archived conversation that has no messages and whose row and turns are all
past incomplete-turn retention. The stub query of the pass does not ask for the
status. -/
def ForgottenStub (config : StoreConfig) (now : Timestamp) (database : Database)
    (row : ConversationRow) : Prop :=
  0 < config.incompleteTurnRetentionDays ∧ row.status = .archived ∧ row.messageCount = 0 ∧
    row.updatedAt < cutoff now config.incompleteTurnRetentionDays ∧
    ∀ turn ∈ database.turnRequests, turn.conversationId = row.id →
      turn.updatedAt < cutoff now config.incompleteTurnRetentionDays

/-! ## Archived conversations -/

section Archived

variable {row : ConversationRow}

theorem not_retired_of_archived (member : row ∈ database.conversations)
    (archived : row.status = .archived) : row.id ∉ retiredIds config now database := by
  intro retired
  obtain ⟨-, -, active, -⟩ := mem_retiredConversations.mp ((mem_retiredIds member).mp retired)
  rw [archived] at active
  cases active

/-- Without messages and without a turn in flight, all turns have failed. -/
theorem failed_of_empty (linear : database.Linear) (member : row ∈ database.conversations)
    (idle : database.Idle row.id) (empty : row.messageCount = 0) {turn : TurnRow}
    (turnMember : turn ∈ database.turnRequests) (owned : turn.conversationId = row.id) :
    turn.status = .failed := by
  obtain ⟨turns, history⟩ := linear.histories row member
  have still := idle turn turnMember owned
  have incomplete : turn.status ≠ .complete := by
    intro complete
    have listed := (history.completed turn).mpr ⟨turnMember, owned, complete⟩
    have none : turns = [] := by
      have count := history.messageCount
      rw [empty] at count
      exact List.length_eq_zero_iff.mp (by omega)
    rw [none] at listed
    cases listed
  cases status : turn.status <;> simp_all [TurnRow.inFlight]

/-- The turns of an archived conversation at the time the stub query runs. -/
theorem mem_afterIncomplete_of_archived (linear : database.Linear)
    (member : row ∈ database.conversations) (archived : row.status = .archived)
    (idle : database.Idle row.id) (empty : row.messageCount = 0)
    (limited : 0 < config.incompleteTurnRetentionDays) {turn : TurnRow}
    (owned : turn.conversationId = row.id) :
    turn ∈ (afterIncomplete config now database).turnRequests ↔
      turn ∈ database.turnRequests ∧
        ¬ turn.updatedAt < cutoff now config.incompleteTurnRetentionDays := by
  have active : row.id ∉ retiredIds config now database :=
    not_retired_of_archived member archived
  have retained : turn ∈ (afterRetirement config now database).turnRequests ↔
      turn ∈ database.turnRequests := by
    rw [mem_turnRequests_afterRetirement, owned, and_iff_left active]
    exact mem_failedLeases_iff_of_idle (owned ▸ idle)
  rw [afterIncomplete, mem_deleteTurns, retained]
  refine and_congr_right fun turnMember => not_congr ?_
  constructor
  · intro stale
    obtain ⟨entry, entryMember, key⟩ := List.mem_map.mp stale
    obtain ⟨-, inTable, -, old, -⟩ := mem_staleTurns.mp entryMember
    rwa [Table.eq_of_key_eq (afterRetirement config now database).constraints.turnKeys inTable
      (retained.mpr turnMember) key] at old
  · intro old
    refine List.mem_map.mpr ⟨(row.scopeKey, turn), mem_staleTurns.mpr
      ⟨limited, retained.mpr turnMember,
        .inr (failed_of_empty linear member idle empty turnMember owned), old, row,
        mem_afterRetirement.mpr ⟨member, active⟩, owned.symm, rfl⟩, rfl⟩

/-- A pass removes an archived conversation exactly when it is a forgotten stub. -/
theorem archived_survives_iff (linear : database.Linear)
    (member : row ∈ database.conversations) (archived : row.status = .archived)
    (idle : database.Idle row.id) :
    row.id ∈ (cleanupExpiredLocked config now database).2.conversationIds ↔
      ¬ ForgottenStub config now database row := by
  have active : row.id ∉ retiredIds config now database :=
    not_retired_of_archived member archived
  rw [survives_iff member, and_iff_right active, mem_stubIds member, mem_staleStubs]
  refine not_congr ?_
  constructor
  · rintro ⟨limited, -, empty, old, alone⟩
    refine ⟨limited, archived, empty, old, fun turn turnMember owned => ?_⟩
    by_contra recent
    exact alone turn ((mem_afterIncomplete_of_archived linear member archived idle empty limited
      owned).mpr ⟨turnMember, recent⟩) owned
  · rintro ⟨limited, -, empty, old, turns⟩
    refine ⟨limited, ?_, empty, old, ?_⟩
    · rw [afterIncomplete_conversations]
      exact mem_afterRetirement.mpr ⟨member, active⟩
    · intro turn turnMember owned
      obtain ⟨inTable, recent⟩ := (mem_afterIncomplete_of_archived linear member archived idle
        empty limited owned).mp turnMember
      exact recent (turns turn inTable owned)

end Archived

/-! ## The whole pass -/

/-- A conversation with messages is not removed while one of its turns is live. -/
theorem live_survives (linear : database.Linear) {row : ConversationRow}
    (member : row ∈ database.conversations) (messages : database.messagesOf row.id ≠ [])
    {turn : TurnRow} (turnMember : turn ∈ database.turnRequests)
    (owned : turn.conversationId = row.id) (live : turn.Live now) :
    row.id ∈ (cleanupExpiredLocked config now database).2.conversationIds := by
  have inFlight : turn.inFlight = true := by
    rcases live with ready | ⟨generating, -⟩
    · simp [TurnRow.inFlight, ready]
    · simp [TurnRow.inFlight, generating]
  have unexpired : leaseExpired now turn = false := by
    rcases live with ready | ⟨-, unexpired⟩
    · simp [leaseExpired, ready]
    · exact unexpired
  have nonempty : row.messageCount ≠ 0 := by
    intro empty
    obtain ⟨turns, history⟩ := linear.histories row member
    have count := history.messageCount
    rw [empty] at count
    have none : turns = [] := List.length_eq_zero_iff.mp (by omega)
    have places := history.messages
    rw [none] at places
    exact messages (List.map_eq_nil_iff.mp places)
  rw [survives_iff member, mem_retiredIds member, mem_stubIds member]
  constructor
  · intro retired
    obtain ⟨-, -, -, -, -, idle⟩ := mem_retiredConversations.mp retired
    have still := idle turn (mem_failedLeases unexpired turnMember) owned
    rw [inFlight] at still
    cases still
  · intro stub
    exact nonempty (mem_staleStubs.mp stub).2.2.1

theorem mem_deletedScopeKeys {scopeKey : String} :
    scopeKey ∈ (cleanupExpiredLocked config now database).1.deletedScopeKeys ↔
      ∃ row ∈ database.conversations, row.scopeKey = scopeKey ∧
        row.id ∉ (cleanupExpiredLocked config now database).2.conversationIds := by
  have listed : ∀ row ∈ database.conversations,
      row.id ∉ (cleanupExpiredLocked config now database).2.conversationIds ↔
        row ∈ retiredConversations config now (failedLeases now database) ∨
          row ∈ staleStubs config now (afterIncomplete config now database) := by
    intro row member
    rw [survives_iff member, not_and_or, not_not, not_not, mem_retiredIds member,
      mem_stubIds member]
  rw [(cleanupExpiredLocked_eq config now database).2.1, List.mem_append, List.mem_map,
    List.mem_map]
  constructor
  · rintro (⟨row, retired, inScope⟩ | ⟨row, stub, inScope⟩)
    · have member : row ∈ database.conversations := (mem_retiredConversations.mp retired).2.1
      exact ⟨row, member, inScope, (listed row member).mpr (.inl retired)⟩
    · have member := stub_member stub
      exact ⟨row, member, inScope, (listed row member).mpr (.inr stub)⟩
  · rintro ⟨row, member, inScope, gone⟩
    rcases (listed row member).mp gone with retired | stub
    · exact .inl ⟨row, retired, inScope⟩
    · exact .inr ⟨row, stub, inScope⟩

theorem deletedScopeKeys_nodup :
    (cleanupExpiredLocked config now database).1.deletedScopeKeys.Nodup := by
  have unique := database.constraints.scopeKeys
  have retired : (retiredConversations config now (failedLeases now database)).Sublist
      database.conversations := by
    unfold retiredConversations
    split
    · exact List.filter_sublist
    · exact List.nil_sublist _
  have stubs : (staleStubs config now (afterIncomplete config now database)).Sublist
      (afterRetirement config now database).conversations := by
    unfold staleStubs
    split
    · rw [afterIncomplete_conversations]
      exact List.filter_sublist
    · exact List.nil_sublist _
  have reduced := (Reduces.foldl (fun row => .deleteConversation row.id)
    (retiredConversations config now (failedLeases now database))
    (failedLeases now database)).conversations
  rw [(cleanupExpiredLocked_eq config now database).2.1, List.nodup_append]
  refine ⟨(retired.map _).nodup unique, ((stubs.trans reduced).map _).nodup unique, ?_⟩
  intro left leftMember right rightMember equal
  obtain ⟨row, rowMember, rfl⟩ := List.mem_map.mp leftMember
  obtain ⟨other, otherMember, rfl⟩ := List.mem_map.mp rightMember
  obtain ⟨inTable, active⟩ := mem_afterRetirement.mp (stubs.subset otherMember)
  have same := Table.eq_of_key_eq unique (retired.subset rowMember) inTable equal
  exact active (List.mem_map.mpr ⟨row, rowMember, congrArg ConversationOf.id same⟩)

theorem run_idle_of_member (config : StoreConfig) (events : List Event) {row : ConversationRow}
    (member : row ∈ (run (Event.after config) .empty events).conversations)
    (archived : row.status = .archived) :
    (run (Event.after config) .empty events).Idle row.id :=
  run_idle config events row.id ⟨row, member, rfl, archived⟩

/-- In every state the store can reach, a pass under any limits and at any time
keeps its promises exactly when no archived conversation is a forgotten stub. -/
theorem run_retention_safe_iff (config : StoreConfig) (events : List Event)
    (limits : StoreConfig) (now : Timestamp) :
    RetentionSafe now (run (Event.after config) .empty events)
        (cleanupExpiredLocked limits now (run (Event.after config) .empty events)).1
        (cleanupExpiredLocked limits now (run (Event.after config) .empty events)).2 ↔
      ∀ row ∈ (run (Event.after config) .empty events).conversations,
        ¬ ForgottenStub limits now (run (Event.after config) .empty events) row := by
  have linear := run_linear config events
  constructor
  · intro safe row member forgotten
    have archived := forgotten.2.1
    exact (archived_survives_iff linear member archived
      (run_idle_of_member config events member archived)).mp
        (safe.archived row member archived) forgotten
  · intro remembered
    refine ⟨?_, ?_, ?_, fun _ => mem_deletedScopeKeys, deletedScopeKeys_nodup, ?_⟩
    · intro row member archived
      exact (archived_survives_iff linear member archived
        (run_idle_of_member config events member archived)).mpr (remembered row member)
    · intro row member messages turn turnMember owned live
      exact live_survives linear member messages turnMember owned live
    · intro row member survives
      obtain ⟨active, kept⟩ := (survives_iff member).mp survives
      obtain ⟨messages, completeTurns⟩ := cleanupExpiredLocked_keeps active kept
      exact ⟨mem_cleanupExpiredLocked.mpr ⟨member, active, kept⟩, messages, completeTurns⟩
    · intro row member survives turn turnMember owned gone
      obtain ⟨active, kept⟩ := (survives_iff member).mp survives
      obtain ⟨stale, staleMember, key⟩ :=
        stale_of_gone turnMember member owned.symm active kept gone
      rw [(cleanupExpiredLocked_eq limits now _).2.2]
      have sameTurn : stale.turnId = turn.turnId := congrArg Prod.snd key
      exact List.mem_map.mpr ⟨_, staleMember, Prod.ext rfl sameTurn⟩

/-- A conversation archived after its only turn has failed. -/
def Sample.archivedStub : List Event :=
  [⟨.beginTurn (Sample.begins "t1" none), Sample.draws 0 "a"⟩,
    ⟨.failTurn "w:c" "t1" "a", Sample.draws 10 "b"⟩,
    ⟨.updateConversation "conversation-a" none (some true), Sample.draws 20 "c"⟩]

/-- A pass after eight days removes an archived conversation without messages. -/
theorem archived_stub_removed :
    ¬ RetentionSafe 691200 (run (Event.after Sample.config) .empty Sample.archivedStub)
      (cleanupExpiredLocked Sample.config 691200
        (run (Event.after Sample.config) .empty Sample.archivedStub)).1
      (cleanupExpiredLocked Sample.config 691200
        (run (Event.after Sample.config) .empty Sample.archivedStub)).2 := by
  intro safe
  have removed : ∃ row ∈ (run (Event.after Sample.config) .empty
      Sample.archivedStub).conversations, row.status = .archived ∧
        row.id ∉ (cleanupExpiredLocked Sample.config 691200
          (run (Event.after Sample.config) .empty Sample.archivedStub)).2.conversationIds := by
    decide +kernel
  obtain ⟨row, member, archived, gone⟩ := removed
  exact gone (safe.archived row member archived)

end RAGuardian.History
