import RAGuardian.History.Erasure
import RAGuardian.History.Store.Reading

/-! # Archived conversations

Only `begin_turn` looks at the archived flag. The other calls leave an archived
conversation alone because none of its turns is in flight, and a turn that is
not in flight holds no lease. -/

namespace RAGuardian.History

open Execution

variable {config : StoreConfig} {draws : Draws} {before middle after database : Database}
  {id : String}

/-! ## What archiving freezes -/

/-- The conversation is stored, and archived. -/
def Database.IsArchived (database : Database) (id : String) : Prop :=
  ∃ row ∈ database.conversations, row.id = id ∧ row.status = .archived

instance : Decidable (database.IsArchived id) :=
  inferInstanceAs (Decidable (∃ row ∈ database.conversations, _))

/-- No turn of the conversation is generating or ready. -/
def Database.Idle (database : Database) (id : String) : Prop :=
  ∀ turn ∈ database.turnRequests, turn.conversationId = id → turn.inFlight = false

/-- `message_count`, `payload_bytes` and `last_turn_id` of a conversation -/
def Database.account (database : Database) (id : String) :
    Option (Nat × Nat × Option String) :=
  (database.conversationById id).map fun row =>
    (row.messageCount, row.payloadBytes, row.lastTurnId)

/-- The rows of a conversation that archiving freezes are the same in both
states. -/
structure SameContents (id : String) (before after : Database) : Prop where
  account : after.account id = before.account id
  messages : after.messagesOf id = before.messagesOf id
  completeTurns : ∀ turn : TurnRow, turn.conversationId = id → turn.status = .complete →
    (turn ∈ after.turnRequests ↔ turn ∈ before.turnRequests)
  knowledgeBases : loadKnowledgeBases after id = loadKnowledgeBases before id

namespace SameContents

theorem refl (id : String) (database : Database) : SameContents id database database :=
  ⟨rfl, rfl, fun _ _ _ => Iff.rfl, rfl⟩

theorem trans (first : SameContents id before middle) (second : SameContents id middle after) :
    SameContents id before after where
  account := second.account.trans first.account
  messages := second.messages.trans first.messages
  completeTurns turn owned complete :=
    (second.completeTurns turn owned complete).trans (first.completeTurns turn owned complete)
  knowledgeBases := second.knowledgeBases.trans first.knowledgeBases

end SameContents

theorem Database.account_congr {old new : ConversationRow} (oldMember : old ∈ before.conversations)
    (newMember : new ∈ after.conversations) (owned : new.id = id) (same : SameAccount old new) :
    after.account id = before.account id := by
  rw [Database.account, Database.account,
    Database.conversationById_eq_some.mpr ⟨newMember, owned⟩,
    Database.conversationById_eq_some.mpr ⟨oldMember, same.id.symm.trans owned⟩,
    Option.map_some, Option.map_some, same.messageCount, same.payloadBytes, same.lastTurnId]

/-- Where the change leaves the conversation archived, it found it so, put none
of its turns to work and kept its contents. -/
def Freezes (id : String) (before after : Database) : Prop :=
  (before.IsArchived id → before.Idle id) → after.IsArchived id →
    before.IsArchived id ∧ after.Idle id ∧ SameContents id before after

namespace Freezes

theorem refl (id : String) (database : Database) : Freezes id database database :=
  fun settled archived => ⟨archived, settled archived, .refl id database⟩

theorem trans (first : Freezes id before middle) (second : Freezes id middle after) :
    Freezes id before after := by
  intro settled archived
  have stays : middle.IsArchived id → middle.Idle id :=
    fun archived => (first settled archived).2.1
  obtain ⟨middleArchived, idle, same⟩ := second stays archived
  obtain ⟨beforeArchived, -, earlier⟩ := first settled middleArchived
  exact ⟨beforeArchived, idle, earlier.trans same⟩

/-- A change of turn rows that leaves the complete ones and starts none. -/
theorem turns
    (tables : after.toTables = { before.toTables with turnRequests := after.turnRequests })
    (completed : ∀ turn : TurnRow, turn.conversationId = id → turn.status = .complete →
      (turn ∈ after.turnRequests ↔ turn ∈ before.turnRequests))
    (idle : before.IsArchived id → before.Idle id → after.Idle id) : Freezes id before after := by
  intro settled archived
  have conversations : after.conversations = before.conversations := by rw [tables]
  have earlier : before.IsArchived id := by
    rwa [Database.IsArchived, conversations] at archived
  exact ⟨earlier, idle earlier (settled earlier), {
    account := by rw [Database.account, Database.account, Database.conversationById,
      Database.conversationById, conversations]
    messages := by rw [Database.messagesOf, Database.messagesOf, tables]
    completeTurns := completed
    knowledgeBases := by rw [loadKnowledgeBases, loadKnowledgeBases, tables] }⟩

theorem failTurns {selects : TurnRow → Bool} {updatedAt : Option Timestamp}
    (incomplete : ∀ row ∈ before.turnRequests, selects row = true → row.status ≠ .complete) :
    Freezes id before (before.updateTurns selects (.fail updatedAt)) := by
  refine turns rfl ?_ ?_
  · intro turn _
    refine mem_update_iff_of_complete incomplete ?_
    intro row _ _ complete
    cases complete
  · intro _ idle turn member owned
    obtain ⟨old, oldMember, rfl⟩ := Table.mem_update.mp member
    by_cases selected : selects old = true
    · rw [if_pos selected]
      rfl
    · rw [if_neg selected] at owned ⊢
      exact idle old oldMember owned

theorem deleteTurn {key : String × String} (incomplete : IncompleteKey before key) :
    Freezes id before (before.deleteTurn key) := by
  refine turns rfl ?_ ?_
  · intro turn _ complete
    rw [Database.deleteTurn, Table.mem_delete, and_iff_left_iff_imp]
    intro member
    simpa using fun equal => incomplete turn member equal complete
  · intro _ idle turn member
    exact idle turn (Table.mem_delete.mp member).1

/-- A live row is changed, or a row of a conversation that is not archived. -/
theorem changeTurn {row : TurnRow} {change : TurnRow → TurnRow}
    (member : row ∈ before.turnRequests) (changed : TurnChange draws before row (change row))
    (live : row.inFlight = true ∨ ¬ before.IsArchived row.conversationId)
    (tables : after.toTables = { before.toTables with
      turnRequests := Table.update (·.key == row.key) change before.turnRequests }) :
    Freezes id before after := by
  have turnRequests : after.turnRequests =
      Table.update (·.key == row.key) change before.turnRequests := by rw [tables]
  have only : ∀ other ∈ before.turnRequests, (other.key == row.key) = true → other = row :=
    fun other otherMember selected =>
      Table.eq_of_key_eq before.constraints.turnKeys otherMember member (by simpa using selected)
  refine turns (by rw [tables]) ?_ ?_
  · intro turn _ complete
    rw [turnRequests]
    refine mem_update_iff_of_complete ?_ ?_ complete
    · intro other otherMember selected
      exact only other otherMember selected ▸ changed.notComplete
    · intro other otherMember selected completed
      have inFlight := changed.inFlight
      rw [← only other otherMember selected, TurnRow.inFlight, completed] at inFlight
      cases inFlight
  · intro archived idle turn turnMember owned
    rw [turnRequests] at turnMember
    obtain ⟨old, oldMember, rfl⟩ := Table.mem_update.mp turnMember
    by_cases selected : (old.key == row.key) = true
    · rw [if_pos selected, only old oldMember selected] at owned
      have sameOwner : row.conversationId = id :=
        (congrArg Prod.fst changed.key).symm.trans owned
      rcases live with inFlight | active
      · exact absurd inFlight (by simp [idle row member sameOwner])
      · exact absurd (sameOwner ▸ archived) active
    · rw [if_neg selected] at owned ⊢
      exact idle old oldMember owned

theorem reserve {row : TurnRow} (generating : row.status = .generating)
    (active : ¬ before.IsArchived row.conversationId)
    (tables : after.toTables = { before.toTables with
      turnRequests := before.turnRequests ++ [row] }) : Freezes id before after := by
  have turnRequests : after.turnRequests = before.turnRequests ++ [row] := by rw [tables]
  refine turns (by rw [tables]) ?_ ?_
  · intro turn _ complete
    rw [turnRequests, List.mem_append, List.mem_singleton, or_iff_left_iff_imp]
    rintro rfl
    rw [generating] at complete
    cases complete
  · intro archived idle turn member owned
    rw [turnRequests] at member
    rcases List.mem_append.mp member with old | new
    · exact idle turn old owned
    · rw [List.mem_singleton.mp new] at owned
      exact absurd (owned ▸ archived) active

/-- A change that keeps the row of the conversation, and everything else it owns. -/
theorem conversation
    (row : ∀ new ∈ after.conversations, new.id = id → new.status = .archived →
      ∃ old ∈ before.conversations, old.status = .archived ∧ SameAccount old new)
    (messages : after.messagesOf id = before.messagesOf id)
    (turnRequests : ∀ turn : TurnRow, turn.conversationId = id →
      (turn ∈ after.turnRequests ↔ turn ∈ before.turnRequests))
    (knowledgeBases : loadKnowledgeBases after id = loadKnowledgeBases before id) :
    Freezes id before after := by
  rintro settled ⟨new, newMember, newId, newArchived⟩
  obtain ⟨old, oldMember, oldArchived, same⟩ := row new newMember newId newArchived
  have archived : before.IsArchived id :=
    ⟨old, oldMember, same.id.symm.trans newId, oldArchived⟩
  refine ⟨archived, ?_, Database.account_congr oldMember newMember newId same, messages,
    fun turn owned _ => turnRequests turn owned, knowledgeBases⟩
  intro turn member owned
  exact settled archived turn ((turnRequests turn owned).mp member) owned

/-- Columns that archiving does not freeze, with the flag left as it is. -/
theorem editConversation {historyId : String} {update : ConversationUpdate}
    (quiet : update.Quiet) (status : ∀ row, (update.apply row).status = row.status) :
    Freezes id before (before.updateConversations (·.id == historyId) update) := by
  refine conversation ?_ rfl (fun _ _ => Iff.rfl) rfl
  intro new member _ archived
  obtain ⟨old, oldMember, rfl⟩ := Table.mem_update.mp member
  split at archived
  · rename_i selected
    rw [if_pos selected]
    exact ⟨old, oldMember, (status old).symm.trans archived, update.id old,
      update.scopeKey old, quiet.messageCount old, quiet.payloadBytes old,
      quiet.lastTurnId old, quiet.promptRef old⟩
  · rename_i other
    rw [if_neg other]
    exact ⟨old, oldMember, archived, .refl old⟩

theorem deleteConversation (other : String) (database : Database) :
    Freezes id database (database.deleteConversation other) := by
  by_cases same : other = id
  · rintro - ⟨row, member, owned, -⟩
    exact absurd (owned.trans same.symm) (by simpa using (Table.mem_delete.mp member).2)
  · have rows := SameRows.deleteConversation same database
    refine conversation ?_ rows.messages ?_ rows.knowledgeBases
    · intro row member _ archived
      exact ⟨row, (Table.mem_delete.mp member).1, archived, .refl row⟩
    · intro turn owned
      rw [Database.deleteConversation, Table.mem_delete, and_iff_left_iff_imp]
      intro _
      rw [owned]
      exact beq_eq_false_iff_ne.mpr (Ne.symm same)

theorem insertConversation {row : ConversationRow} (active : row.status = .active)
    (tables : after.toTables = { before.toTables with
      conversations := before.conversations ++ [row] }) : Freezes id before after := by
  refine conversation ?_ ?_ ?_ ?_
  · intro new member _ archived
    rw [tables] at member
    rcases List.mem_append.mp member with old | inserted
    · exact ⟨new, old, archived, .refl new⟩
    · rw [List.mem_singleton.mp inserted, active] at archived
      cases archived
  · rw [Database.messagesOf, Database.messagesOf, tables]
  · intro turn _
    rw [tables]
  · rw [loadKnowledgeBases, loadKnowledgeBases, tables]

/-- A change of the cleanup outbox alone. -/
theorem outbox (tables : after.toTables = { before.toTables with
    cleanupOutbox := after.cleanupOutbox }) : Freezes id before after := by
  refine conversation (fun row member _ archived => ?_) ?_ (fun turn _ => ?_) ?_
  · rw [tables] at member
    exact ⟨row, member, archived, .refl row⟩
  · rw [Database.messagesOf, Database.messagesOf, tables]
  · rw [tables]
  · rw [loadKnowledgeBases, loadKnowledgeBases, tables]

/-- Associations of another conversation. -/
theorem associations (tables : after.toTables = { before.toTables with
      knowledgeBases := after.knowledgeBases })
    (kept : before.IsArchived id →
      loadKnowledgeBases after id = loadKnowledgeBases before id) : Freezes id before after := by
  intro settled archived
  have earlier : before.IsArchived id := by rwa [Database.IsArchived, tables] at archived
  refine conversation (fun row member _ archived => ?_) ?_ (fun turn _ => ?_) (kept earlier)
    settled archived
  · rw [tables] at member
    exact ⟨row, member, archived, .refl row⟩
  · rw [Database.messagesOf, Database.messagesOf, tables]
  · rw [tables]

end Freezes

/-! ## Associations of other conversations -/

theorem insertKnowledgeBase_others {row : KnowledgeBaseRow} (other : row.conversationId ≠ id)
    (returned : database.insertKnowledgeBase row = .ok after) :
    loadKnowledgeBases after id = loadKnowledgeBases database id := by
  rw [loadKnowledgeBases, Database.execute_eq_ok.mp returned, List.filter_append,
    List.filter_cons_of_neg (by simpa using other), List.filter_nil, List.append_nil]
  rfl

theorem updateKnowledgeBases_others {conversationId knowledgeBaseId : String}
    (other : conversationId ≠ id) (update : KnowledgeBaseUpdate) (database : Database) :
    loadKnowledgeBases (database.updateKnowledgeBases
        (·.key == (conversationId, knowledgeBaseId)) update) id =
      loadKnowledgeBases database id := by
  have unseen : ∀ row : KnowledgeBaseRow,
      (row.key == (conversationId, knowledgeBaseId)) = true →
        (row.conversationId == id) = false := by
    intro row selected
    rw [show row.conversationId = conversationId from congrArg Prod.fst (eq_of_beq selected)]
    exact beq_eq_false_iff_ne.mpr other
  refine Table.filter_update_of_disjoint (fun row _ => unseen row) fun row _ selected => ?_
  rw [update.conversationId]
  exact unseen row selected

/-- What every step of a fold keeps, the fold keeps. -/
theorem foldlM_keeps (observe : Database → β) {step : Database → α → Except StoreError Database}
    (single : ∀ item before after, step before item = .ok after → observe after = observe before)
    {items : List α} (returned : items.foldlM step database = .ok after) :
    observe after = observe database := by
  induction items generalizing database with
  | nil =>
      rw [List.foldlM_nil, pure_eq_ok] at returned
      rw [returned]
  | cons item items induction =>
      rw [List.foldlM_cons, bind_eq_ok] at returned
      obtain ⟨middle, stepped, rest⟩ := returned
      exact (induction rest).trans (single item _ _ stepped)

theorem associateReservationKnowledgeBases_others {now : Timestamp} {conversationId : String}
    {ids : List String} (other : conversationId ≠ id)
    (returned : associateReservationKnowledgeBases now conversationId ids database =
      .ok after) :
    loadKnowledgeBases after id = loadKnowledgeBases database id := by
  refine foldlM_keeps (loadKnowledgeBases · id) ?_ returned
  intro knowledgeBaseId before after stepped
  split at stepped
  · cases stepped
    rfl
  · unfold Database.insertKnowledgeBaseOrIgnore at stepped
    split at stepped
    · cases stepped
      rfl
    · exact insertKnowledgeBase_others other stepped

theorem upsertKnowledgeBases_others {now : Timestamp} {conversationId : String}
    {ids : List String} (other : conversationId ≠ id)
    (returned : upsertKnowledgeBases now conversationId ids database = .ok after) :
    loadKnowledgeBases after id = loadKnowledgeBases database id := by
  simp only [upsertKnowledgeBases, bind_eq_ok, pure_eq_ok] at returned
  obtain ⟨selected, folded, rfl⟩ := returned
  have first : loadKnowledgeBases selected id = loadKnowledgeBases database id := by
    refine foldlM_keeps (loadKnowledgeBases · id) ?_ folded
    intro knowledgeBaseId before after stepped
    split at stepped
    · cases stepped
      rfl
    · split at stepped
      · cases stepped
        exact updateKnowledgeBases_others other _ before
      · exact insertKnowledgeBase_others other stepped
  refine Eq.trans ?_ first
  exact @foldl_invariant _ _ _ (loadKnowledgeBases · id = loadKnowledgeBases selected id)
    (fun _ before same => (updateKnowledgeBases_others other _ before).trans same) _ _ rfl

/-! ## The operations -/

namespace Freezes

/-- Steps that each freeze, over a list, as long as their guard survives. -/
theorem foldl {step : Database → α → Database} {items : List α} (guard : α → Database → Prop)
    (single : ∀ item database, guard item database → Freezes id database (step database item))
    (stable : ∀ item other database, guard other database → guard other (step database item))
    (guarded : ∀ item ∈ items, guard item database) :
    Freezes id database (items.foldl step database) := by
  have chain := chain_foldl guard single stable guarded
  generalize items.foldl step database = final at chain ⊢
  induction chain with
  | refl => exact refl id database
  | tail _ step induction => exact induction.trans step

theorem deleteConversationIds (ids : List String) (database : Database) :
    Freezes id database (History.deleteConversationIds ids database) :=
  foldl (fun _ _ => True) (fun other database _ => deleteConversation other database)
    (fun _ _ _ _ => trivial) fun _ _ => trivial

theorem deleteConversations (rows : List ConversationRow) (database : Database) :
    Freezes id database (History.deleteConversations rows database) :=
  foldl (fun _ _ => True) (fun row database _ => deleteConversation row.id database)
    (fun _ _ _ _ => trivial) fun _ _ => trivial

theorem deleteTurns {rows : List (String × TurnRow)}
    (incomplete : ∀ row ∈ rows, IncompleteKey database row.2.key) :
    Freezes id database (History.deleteTurns rows database) := by
  refine foldl (fun row database => IncompleteKey database row.2.key)
    (fun _ _ guarded => deleteTurn guarded) ?_ incomplete
  intro row other database guarded survivor member
  exact guarded survivor (Table.mem_delete.mp member).1

theorem cleanupExpiredLocked (now : Timestamp) (database : Database) :
    Freezes id database (History.cleanupExpiredLocked config now database).2 := by
  refine (failTurns ?_).trans ((deleteConversations _ _).trans
    ((deleteTurns fun row member => staleTurns_incomplete member).trans
      (deleteConversations _ _)))
  intro row _ expired complete
  simp [leaseExpired, complete] at expired

theorem stageCleanup {staged : Database}
    (staging : staged = database ∨ ∃ row, staged = database.stageCleanup row) :
    Freezes id database staged := by
  rcases staging with rfl | ⟨row, rfl⟩
  · exact refl id _
  · exact outbox rfl

end Freezes

/-- The conversation `begin_turn` works on is not archived. -/
theorem getOrCreateConversation_active {arguments : BeginTurnArguments}
    {scopeKind : ScopeKind} {conversation : Conversation}
    (returned : getOrCreateConversation draws arguments scopeKind database =
      .ok (conversation, after)) :
    Freezes id database after ∧ ¬ after.IsArchived conversation.id := by
  rcases getOrCreateConversation_eq_ok returned with
    ⟨rfl, row, found, active, decoded⟩ | ⟨-, row, -, -, sameId, active, tables⟩
  · refine ⟨.refl id after, ?_⟩
    rintro ⟨other, member, owned, archived⟩
    obtain ⟨promptRef, rfl⟩ := conversationRow_eq_ok decoded
    rw [Table.eq_of_key_eq after.constraints.conversationKeys member
      (Database.conversationByScope_eq_some.mp found).1 owned] at archived
    exact active archived
  · refine ⟨.insertConversation active tables, ?_⟩
    rintro ⟨other, member, owned, archived⟩
    have inserted : row ∈ after.conversations := by rw [tables]; simp
    rw [Table.eq_of_key_eq after.constraints.conversationKeys member inserted
      (owned.trans sameId), active] at archived
    cases archived

theorem beginTurn_freezes {arguments : BeginTurnArguments} {result : BeginTurnResult}
    (returned : beginTurn config draws arguments database = .ok (result, after)) :
    Freezes id database after := by
  simp only [beginTurn, bind_eq_ok, require_eq_ok] at returned
  obtain ⟨scopeKind, -, -, -, -, -, -, -, ⟨conversation, created⟩, getOrCreate, associated,
    associates, handled⟩ := returned
  have swept : Freezes id (cleanupExpiredLocked config draws.now database).2 created ∧
      ¬ created.IsArchived conversation.id := getOrCreateConversation_active getOrCreate
  obtain ⟨creation, active⟩ := swept
  have tables := (associateReservationKnowledgeBases_eq_ok associates).tables
  have association : Freezes id created associated := by
    refine .associations tables fun archived =>
      associateReservationKnowledgeBases_others ?_ associates
    rintro rfl
    exact active archived
  have stillActive : ¬ associated.IsArchived conversation.id := by
    rwa [Database.IsArchived, tables]
  refine (Freezes.cleanupExpiredLocked draws.now database).trans
    (creation.trans (association.trans ?_))
  split at handled
  · rename_i existing found
    simp only [bind_eq_ok, pure_eq_ok, Prod.mk.injEq] at handled
    obtain ⟨⟨reply, final⟩, replied, rfl, rfl⟩ := handled
    obtain ⟨member, key⟩ := Database.turnRequest_eq_some.mp found
    have owner : existing.conversationId = conversation.id := congrArg Prod.fst key
    rcases (handleExistingTurn_eq_ok replied).2 with
      ⟨-, rfl, -⟩ | ⟨-, rfl, -⟩ | ⟨-, change, -, changed, changedTables, -⟩
    · exact .refl id _
    · exact .refl id _
    · exact .changeTurn member changed (.inr (owner ▸ stillActive)) changedTables
  · simp only [bind_eq_ok, pure_eq_ok, Prod.mk.injEq] at handled
    obtain ⟨_, -, _, -, final, inserted, -, rfl⟩ := handled
    exact .reserve rfl stillActive (insertReservation_eq_ok.mp inserted)

/-- A completion leaves the associations of other conversations. -/
theorem commitTurn_others {arguments : CompleteTurnArguments}
    {sources metadata promptRef : Json.Value} {row : TurnRow} {committed : CommittedTurn}
    (other : row.conversationId ≠ id)
    (returned : commitTurn config draws arguments sources metadata promptRef row database =
      .ok (committed, after)) :
    loadKnowledgeBases after id = loadKnowledgeBases database id := by
  simp only [commitTurn, bind_eq_ok, orRaise_eq_ok, pure_eq_ok, Prod.mk.injEq] at returned
  obtain ⟨conversation, -, _, -, _, -, _, -, _, -, _, -, _, -, _, -, _, -, first,
    userInserted, second, assistantInserted, associated, upserted, closed, activated, _, -,
    messages, -, -, rfl⟩ := returned
  have closedRows := congrArg Tables.knowledgeBases (activateTurn_eq_ok.mp activated)
  have inserted := congrArg Tables.knowledgeBases (Database.execute_eq_ok.mp assistantInserted)
  rw [Database.execute_eq_ok.mp userInserted] at inserted
  have upsert := upsertKnowledgeBases_others other upserted
  rw [loadKnowledgeBases, loadKnowledgeBases, inserted] at upsert
  rw [loadKnowledgeBases, loadKnowledgeBases, ← upsert]
  exact congrArg (List.filter _) closedRows

theorem completeTurn_others {arguments : CompleteTurnArguments} {result : CompleteTurnResult}
    {row : TurnRow}
    (found : database.turnForUpdate arguments.scopeKey arguments.turnId = some row)
    (other : row.conversationId ≠ id)
    (returned : completeTurn config draws arguments database = .ok (result, after)) :
    loadKnowledgeBases after id = loadKnowledgeBases database id := by
  simp only [completeTurn, bind_eq_ok, orRaise_eq_ok] at returned
  obtain ⟨-, -, sources, -, metadata, -, promptRef, -, named, foundNamed, handled⟩ := returned
  cases found.symm.trans foundNamed
  split at handled
  · simp only [bind_eq_ok, pure_eq_ok, Prod.mk.injEq] at handled
    obtain ⟨messages, -, -, rfl⟩ := handled
    rfl
  · simp only [bind_eq_ok, require_eq_ok, pure_eq_ok, Prod.mk.injEq] at handled
    obtain ⟨-, -, -, -, ⟨committed, final⟩, commits, -, rfl⟩ := handled
    exact commitTurn_others other commits

/-- A completion works under a lease, which no turn of an archived conversation
holds. -/
theorem completeTurn_freezes {arguments : CompleteTurnArguments} {result : CompleteTurnResult}
    (leased : database.Leased)
    (returned : completeTurn config draws arguments database = .ok (result, after)) :
    Freezes id database after := by
  obtain ⟨turn, found, ⟨-, rfl, -⟩ | ⟨notComplete, conversation, user, assistant, title,
    encoded, committed, commit, -⟩⟩ := completeTurn_eq_ok returned
  · exact .refl id _
  have exchange := commit.exchange
  have archived_before : after.IsArchived id → database.IsArchived id := by
    rintro ⟨row, member, owned, archived⟩
    rw [commit.conversations] at member
    obtain ⟨old, oldMember, rfl⟩ := Table.mem_update.mp member
    refine ⟨old, oldMember, ?_, ?_⟩
    · split at owned
      · exact owned
      · exact owned
    · split at archived
      · exact archived
      · exact archived
  intro settled archived
  have earlier := archived_before archived
  have other : turn.conversationId ≠ id := by
    intro same
    have inFlight := leased turn commit.member
    rw [commit.leaseToken, settled earlier turn commit.member same] at inFlight
    cases inFlight
  refine Freezes.conversation ?_ ?_ ?_ ?_ settled archived
  · intro row member owned archived
    rw [commit.conversations] at member
    obtain ⟨old, oldMember, rfl⟩ := Table.mem_update.mp member
    split at owned
    · rename_i selected
      exact absurd ((eq_of_beq selected).symm.trans owned) other
    · rename_i spared
      rw [if_neg spared] at archived ⊢
      exact ⟨old, oldMember, archived, .refl old⟩
  · rw [Database.messagesOf, commit.messages, List.filter_append,
      List.filter_cons_of_neg (by simpa [exchange.userOwner] using other),
      List.filter_cons_of_neg (by simpa [exchange.assistantOwner] using other),
      List.filter_nil, List.append_nil]
    rfl
  · intro row owned
    rw [commit.turnRequests]
    have unseen : ∀ row ∈ database.turnRequests, (row.key == turn.key) = true →
        (row.conversationId == id) = false := by
      intro row _ selected
      rw [show row.conversationId = turn.conversationId from
        congrArg Prod.fst (eq_of_beq selected)]
      exact beq_eq_false_iff_ne.mpr other
    have same := @Table.filter_update_of_disjoint _ _ (TurnRow.commit draws.now) _ _ unseen
      unseen
    have visible := congrArg (row ∈ ·) same
    simpa [List.mem_filter, owned] using visible
  · exact completeTurn_others found other returned

theorem updateSummary_freezes (scopeKey summary : String)
    (expectedVersion throughSequence : Int) (database : Database) :
    Freezes id database (updateSummary draws scopeKey summary expectedVersion throughSequence
      database).2 := by
  unfold updateSummary
  split
  · exact .refl id database
  · split
    · exact .refl id database
    · split
      · exact .refl id database
      · exact .editConversation (ConversationUpdate.summarize_quiet _ _ _ _) fun _ => rfl

theorem transaction_freezes {reply : α → Except StoreError β}
    {body : Database → Except StoreError (α × Database)}
    (freezes : ∀ result after, body database = .ok (result, after) →
      Freezes id database after) :
    Freezes id database (transaction reply body database).2 := by
  unfold transaction
  split
  · rename_i result committed returned
    exact freezes result committed returned
  · exact .refl id database

/-- Every call freezes, but for the one that archives. -/
theorem Operation.freezes {operation : Operation} (leased : database.Leased)
    (other : ∀ historyId title archived,
      operation ≠ .updateConversation historyId title archived) :
    Freezes id database (operation.run config draws database).2 := by
  cases operation with
  | beginTurn arguments => exact transaction_freezes fun _ _ => beginTurn_freezes
  | markTurnReady scopeKey turnId leaseToken resultDigest =>
      refine transaction_freezes fun _ _ returned => ?_
      rcases markTurnReady_eq_ok returned with ⟨-, rfl⟩ | ⟨-, row, found, -, inFlight, tables⟩
      · exact .refl id _
      · have changed : TurnChange draws database row _ :=
          .stage row resultDigest draws.now inFlight
        exact .changeTurn (Database.turnForUpdate_eq_some.mp found).1 changed (.inl inFlight)
          tables
  | completeTurn arguments =>
      exact transaction_freezes fun _ _ => completeTurn_freezes leased
  | recoverReadyTurn scopeKey turnId requestFingerprint expectedLeaseToken =>
      refine transaction_freezes fun _ _ returned => ?_
      obtain ⟨row, found, -, ⟨-, rfl, -⟩ | ⟨ready, -, leaseExpiresAt, tables, -⟩⟩ :=
        recoverReadyTurn_eq_ok returned
      · exact .refl id _
      · have changed : TurnChange draws database row _ :=
          .recover row leaseExpiresAt draws.now ready
        exact .changeTurn (Database.turnForUpdate_eq_some.mp found).1 changed
          (.inl (by simp [TurnRow.inFlight, ready])) tables
  | renewTurnLease scopeKey turnId leaseToken =>
      show Freezes id database
        (History.renewTurnLease config draws scopeKey turnId leaseToken database).2
      rcases renewTurnLease_cases config draws scopeKey turnId leaseToken database with
        same | ⟨row, found, -, inFlight, same⟩
      · rw [same]
        exact .refl id database
      · rw [same]
        have changed : TurnChange draws database row _ :=
          .renew row (draws.now + config.leaseSeconds) draws.now inFlight
        exact .changeTurn (Database.turnForUpdate_eq_some.mp found).1 changed (.inl inFlight)
          rfl
  | failTurn scopeKey turnId leaseToken =>
      show Freezes id database (History.failTurn draws scopeKey turnId leaseToken database).2
      rcases failTurn_cases draws scopeKey turnId leaseToken database with
        same | ⟨row, found, -, incomplete, same⟩
      · rw [same]
        exact .refl id database
      · rw [same]
        refine .failTurns fun turn member selected => ?_
        rw [Table.eq_of_key_eq database.constraints.turnKeys member
          (Database.turnForUpdate_eq_some.mp found).1 (by simpa using selected)]
        exact incomplete
  | resetContinuity historyId =>
      refine transaction_freezes fun _ _ returned => ?_
      simp only [History.resetContinuity, bind_eq_ok, pure_eq_ok, Prod.mk.injEq] at returned
      obtain ⟨row, -, -, rfl⟩ := returned
      refine .failTurns fun turn _ expired complete => ?_
      simp [leaseExpired, complete] at expired
  | cleanupExpired now => exact .cleanupExpiredLocked _ database
  | updateConversation historyId title archived => exact absurd rfl (other _ _ _)
  | updateSummary scopeKey summary expectedVersion throughSequence =>
      exact updateSummary_freezes scopeKey summary expectedVersion throughSequence database
  | delete historyId =>
      show Freezes id database (History.delete historyId database).2
      unfold History.delete
      split
      · exact .deleteConversation historyId database
      · exact .refl id database
  | deleteWithArtifactCleanup historyId =>
      refine transaction_freezes fun _ _ returned => ?_
      rcases deleteWithArtifactCleanup_eq_ok returned with rfl | ⟨staged, staging, rfl⟩
      · exact .refl id _
      · exact (Freezes.stageCleanup staging).trans (.deleteConversation historyId staged)
  | completeArtifactCleanup cleanupKey =>
      show Freezes id database (History.completeArtifactCleanup cleanupKey database).2
      unfold History.completeArtifactCleanup
      split
      · exact .refl id database
      · exact .outbox rfl
  | deleteByKnowledgeBase knowledgeBaseId => exact .deleteConversationIds _ database
  | deleteByKnowledgeBaseWithArtifactCleanup knowledgeBaseId =>
      refine transaction_freezes fun _ _ returned => ?_
      rcases deleteByKnowledgeBaseWithArtifactCleanup_eq_ok returned with
        ⟨-, rfl⟩ | ⟨staged, staging, rfl⟩
      · exact .refl id _
      · exact (Freezes.stageCleanup staging).trans (.deleteConversationIds _ staged)
  | quotaStatus => exact .cleanupExpiredLocked draws.now database

/-! ## Archiving itself -/

/-- `update_conversation` changes none of the frozen columns, and refuses to
archive a conversation with a turn in flight. -/
theorem updateConversation_archives {historyId : String} {title : Option String}
    {archived : Option Bool} {row : ConversationRow}
    (returned : updateConversation draws historyId title archived database = .ok (row, after))
    (settled : database.IsArchived id → database.Idle id) (frozen : after.IsArchived id) :
    after.Idle id ∧ SameContents id database after := by
  simp only [updateConversation, bind_eq_ok, orRaise_eq_ok, require_eq_ok, pure_eq_ok,
    Prod.mk.injEq] at returned
  obtain ⟨title, -, stored, found, -, refused, -, rfl⟩ := returned
  obtain ⟨storedMember, storedId⟩ := Database.conversationById_eq_some.mp found
  obtain ⟨row, member, owned, isArchived⟩ := frozen
  obtain ⟨old, oldMember, rfl⟩ := Table.mem_update.mp member
  by_cases selected : (old.id == historyId) = true
  · rw [if_pos selected] at owned isArchived member
    refine ⟨?_, Database.account_congr oldMember member owned ⟨rfl, rfl, rfl, rfl, rfl, rfl⟩, rfl,
      fun _ _ _ => Iff.rfl, rfl⟩
    have named : historyId = id := (eq_of_beq selected).symm.trans owned
    have same : old = stored :=
      Table.eq_of_key_eq database.constraints.conversationKeys oldMember storedMember
        ((eq_of_beq selected).trans storedId.symm)
    rcases archived with _ | _ | _
    · exact settled ⟨old, oldMember, owned, same ▸ isArchived⟩
    · cases isArchived
    · intro turn turnMember turnOwner
      have idle := (not_and.mp refused) rfl
      rw [Bool.not_eq_true, List.any_eq_false] at idle
      simpa [turnOwner, named] using idle turn turnMember
  · rw [if_neg selected] at owned isArchived member
    exact ⟨settled ⟨old, oldMember, owned, isArchived⟩,
      Database.account_congr oldMember member owned (.refl old), rfl, fun _ _ _ => Iff.rfl, rfl⟩

/-! ## Runs -/

/-- What one call leaves of a conversation that is archived after it. -/
theorem Event.archived (event : Event) (leased : database.Leased)
    (settled : database.IsArchived id → database.Idle id)
    (archived : (event.after config database).IsArchived id) :
    (event.after config database).Idle id ∧
      (database.IsArchived id → SameContents id database (event.after config database)) := by
  obtain ⟨operation, draws⟩ := event
  by_cases edits : ∃ historyId title archived,
      operation = .updateConversation historyId title archived
  · obtain ⟨historyId, title, flag, rfl⟩ := edits
    simp only [Event.after, Operation.run, transaction] at archived ⊢
    split at archived
    · rename_i result committed returned
      have kept := updateConversation_archives returned settled archived
      exact ⟨kept.1, fun _ => kept.2⟩
    · exact ⟨settled archived, fun _ => .refl id database⟩
  · have freezes : Freezes id database (operation.run config draws database).2 :=
      Operation.freezes leased fun historyId title flag same =>
        edits ⟨historyId, title, flag, same⟩
    have frozen := freezes settled archived
    exact ⟨frozen.2.1, fun _ => frozen.2.2⟩

/-- In every state of a run, no turn of an archived conversation is in flight. -/
theorem run_idle (config : StoreConfig) (events : List Event) (id : String)
    (archived : (run (Event.after config) .empty events).IsArchived id) :
    (run (Event.after config) .empty events).Idle id := by
  induction events using List.reverseRecOn with
  | nil =>
      obtain ⟨row, member, -⟩ := archived
      cases member
  | append_singleton past event induction =>
      rw [run_concat] at archived ⊢
      exact (event.archived (run_linear config past).leased induction archived).1

/-- An archived conversation is frozen: none of its turns is generating or ready,
and for as long as it stays archived no call changes its counters, its messages,
its complete turns or its associations. -/
theorem run_archived_frozen (config : StoreConfig) (events later : List Event) (id : String)
    (archived : ∀ past, past <+: later →
      (run (Event.after config) .empty (events ++ past)).IsArchived id) :
    (run (Event.after config) .empty events).Idle id ∧
      SameContents id (run (Event.after config) .empty events)
        (run (Event.after config) .empty (events ++ later)) := by
  refine ⟨run_idle config events id (by simpa using archived [] (List.nil_prefix)), ?_⟩
  induction later using List.reverseRecOn with
  | nil =>
      rw [List.append_nil]
      exact .refl id _
  | append_singleton past event induction =>
      have shorter := induction fun other within =>
        archived other (within.trans (List.prefix_append past [event]))
      have before := archived past (List.prefix_append past [event])
      have after := archived (past ++ [event]) List.prefix_rfl
      rw [← List.append_assoc, run_concat] at after ⊢
      exact shorter.trans ((event.archived (run_linear config _).leased
        (run_idle config _ id) after).2 before)

/-- A conversation that is archived after its first turn. -/
def Sample.archivedTurn : List Event :=
  Sample.oneTurn ++
    [⟨.updateConversation "conversation-a" none (some true), Sample.draws 20 "c"⟩]

/-- A new turn on an archived scope, and calls under the lease of the old one. -/
def Sample.belatedCalls : List Event :=
  [⟨.beginTurn { Sample.begins "t2" (some "t1") with selectedKnowledgeBaseIds := some ["k"] },
      Sample.draws 30 "d"⟩,
    ⟨.completeTurn (Sample.completes "t1" "a"), Sample.draws 40 "e"⟩,
    ⟨.renewTurnLease "w:c" "t1" "a", Sample.draws 50 "f"⟩]

/-- Belated calls on a conversation of one turn. -/
theorem run_archived_frozen_belated :
    SameContents "conversation-a" (run (Event.after Sample.config) .empty Sample.archivedTurn)
      (run (Event.after Sample.config) .empty (Sample.archivedTurn ++ Sample.belatedCalls)) := by
  have archived : ∀ past ∈ Sample.belatedCalls.inits,
      (run (Event.after Sample.config) .empty (Sample.archivedTurn ++ past)).IsArchived
        "conversation-a" := by
    decide +kernel
  exact (run_archived_frozen Sample.config Sample.archivedTurn Sample.belatedCalls
    "conversation-a" fun past within => archived past ((List.mem_inits _ _).mpr within)).2

end RAGuardian.History
