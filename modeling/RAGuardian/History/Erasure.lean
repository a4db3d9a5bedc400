import RAGuardian.History.Leases
import RAGuardian.History.Replay

/-! # Erasure by knowledge base

Every knowledge base a turn has used is associated with its conversation, so
deleting by knowledge base finds all of its conversations. -/

namespace RAGuardian.History

open Execution

variable {config : StoreConfig} {draws : Draws} {before after database : Database}

/-! ## Uses -/

/-- The event is a committed `begin_turn` or `complete_turn` of a turn of the
conversation, and selects the knowledge base. -/
inductive Uses (config : StoreConfig) (database : Database) (event : Event)
    (conversationId knowledgeBaseId : String) : Prop
  | begun (arguments : BeginTurnArguments) (result : BeginTurnResult)
      (operation : event.operation = .beginTurn arguments)
      (returned :
        (event.operation.run config event.draws database).1 = .ok (.begun result))
      (conversation : result.conversation.id = conversationId)
      (selected : knowledgeBaseId ∈ arguments.selectedKnowledgeBaseIds.getD [])
  | completed (arguments : CompleteTurnArguments) (result : CommittedTurn) (turn : TurnRow)
      (operation : event.operation = .completeTurn arguments)
      (returned : (event.operation.run config event.draws database).1 =
        .ok (.completed (.committed result)))
      (named : database.turnForUpdate arguments.scopeKey arguments.turnId = some turn)
      (conversation : turn.conversationId = conversationId)
      (selected : knowledgeBaseId ∈ arguments.selectedKnowledgeBaseIds.getD [])

/-- The knowledge base was used in the conversation at some point of a run. -/
def UsedIn (config : StoreConfig) (events : List Event)
    (conversationId knowledgeBaseId : String) : Prop :=
  ∃ earlier event, earlier ++ [event] <+: events ∧
    Uses config (run (Event.after config) .empty earlier) event conversationId
      knowledgeBaseId

theorem usedIn_concat {past : List Event} {event : Event}
    {conversationId knowledgeBaseId : String} :
    UsedIn config (past ++ [event]) conversationId knowledgeBaseId ↔
      UsedIn config past conversationId knowledgeBaseId ∨
        Uses config (run (Event.after config) .empty past) event conversationId
          knowledgeBaseId := by
  constructor
  · rintro ⟨earlier, used, within, uses⟩
    rcases List.prefix_concat_iff.mp within with equal | within
    · obtain ⟨rfl, same⟩ := List.append_inj' equal rfl
      cases same
      exact .inr uses
    · exact .inl ⟨earlier, used, within, uses⟩
  · rintro (⟨earlier, used, within, uses⟩ | uses)
    · exact ⟨earlier, used, within.trans (List.prefix_append past [event]), uses⟩
    · exact ⟨past, event, List.prefix_rfl, uses⟩

/-! ## Associations -/

/-- The association row of a conversation and a knowledge base. -/
def Database.Associated (database : Database) (conversationId knowledgeBaseId : String) :
    Prop :=
  ∃ row ∈ database.knowledgeBases, row.key = (conversationId, knowledgeBaseId)

theorem Database.Associated.owner {conversationId knowledgeBaseId : String}
    (associated : database.Associated conversationId knowledgeBaseId) :
    conversationId ∈ database.conversationIds := by
  obtain ⟨row, member, key⟩ := associated
  have owner : row.conversationId = conversationId := congrArg Prod.fst key
  exact owner ▸ database.constraints.knowledgeBaseOwners row member

/-- A begin associates what it selects, and nothing else. -/
theorem beginTurn_associated {arguments : BeginTurnArguments} {result : BeginTurnResult}
    (returned : beginTurn config draws arguments database = .ok (result, after)) :
    (∀ id ∈ arguments.selectedKnowledgeBaseIds.getD [], id ≠ "" →
      after.Associated result.conversation.id id) ∧
    ∀ conversationId id, after.Associated conversationId id →
      database.Associated conversationId id ∨
        (conversationId = result.conversation.id ∧
          id ∈ arguments.selectedKnowledgeBaseIds.getD []) := by
  obtain ⟨scopeKind, created, associated, getOrCreate, associates, handled⟩ :=
    beginTurn_eq_ok returned
  have found : created.knowledgeBases.Sublist database.knowledgeBases := by
    have reduced := (retained_reduces config draws database).knowledgeBases
    rcases getOrCreateConversation_eq_ok getOrCreate with
      ⟨rfl, -⟩ | ⟨-, row, -, -, -, -, tables⟩
    · exact reduced
    · rw [tables]
      exact reduced
  have same : after.knowledgeBases = associated.knowledgeBases := by
    rcases handled with ⟨existing, -, replied⟩ | ⟨-, row, -, -, -, -, tables⟩
    · rcases (handleExistingTurn_eq_ok replied).2 with
        ⟨-, rfl, -⟩ | ⟨-, rfl, -⟩ | ⟨-, change, -, -, tables, -⟩
      · rfl
      · rfl
      · rw [tables]
    · rw [tables]
  constructor
  · intro id member nonempty
    rw [Database.Associated, same]
    exact associates.associated id member nonempty
  · rintro conversationId id ⟨row, member, key⟩
    rw [same] at member
    rcases associates.origin row member with ⟨old, oldMember, equal⟩ | ⟨owner, selected⟩
    · exact .inl ⟨old, found.subset oldMember, equal.trans key⟩
    · obtain ⟨rfl, rfl⟩ := Prod.mk.inj key
      exact .inr ⟨owner, selected⟩

/-- A committed use leaves its association row. -/
theorem Uses.associated {event : Event} {conversationId knowledgeBaseId : String}
    (uses : Uses config database event conversationId knowledgeBaseId)
    (nonempty : knowledgeBaseId ≠ "") :
    (event.after config database).Associated conversationId knowledgeBaseId := by
  obtain ⟨operation, draws⟩ := event
  cases uses with
  | begun arguments result operation returned conversation selected =>
      subst operation conversation
      obtain ⟨outcome, same, body⟩ := transaction_eq_ok returned
      cases same
      exact (beginTurn_associated body).1 knowledgeBaseId selected nonempty
  | completed arguments result turn operation returned named conversation selected =>
      subst operation conversation
      obtain ⟨row, _, _, _, _, _, committed, reached, found, commit, -⟩ :=
        Operation.run_completed returned
      rw [named] at found
      cases found
      show ((Operation.completeTurn arguments).run config draws database).2.Associated _ _
      rw [reached]
      exact commit.associated knowledgeBaseId selected nonempty

/-- A completion adds no association row but those it selects. -/
theorem completeTurn_associated {arguments : CompleteTurnArguments}
    {result : CompleteTurnResult}
    (returned : completeTurn config draws arguments database = .ok (result, after))
    {conversationId id : String} (associated : after.Associated conversationId id) :
    database.Associated conversationId id ∨
      ∃ turn committed, result = .committed committed ∧
        database.turnForUpdate arguments.scopeKey arguments.turnId = some turn ∧
        turn.conversationId = conversationId ∧
        id ∈ arguments.selectedKnowledgeBaseIds.getD [] := by
  obtain ⟨turn, found, ⟨-, rfl, -⟩ | ⟨-, _, _, _, _, _, committed, commit, -, rfl⟩⟩ :=
    completeTurn_eq_ok returned
  · exact .inl associated
  · obtain ⟨row, member, key⟩ := associated
    rcases commit.origin row member with ⟨old, oldMember, equal⟩ | ⟨owner, selected⟩
    · exact .inl ⟨old, oldMember, equal.trans key⟩
    · obtain ⟨rfl, rfl⟩ := Prod.mk.inj key
      exact .inr ⟨turn, committed, rfl, found, owner.symm, selected⟩

theorem deleteConversationIds_reduces (ids : List String) (database : Database) :
    Reduces database (deleteConversationIds ids database) :=
  Reduces.foldl (fun id => .deleteConversation id) ids database

theorem transaction_knowledgeBases {reply : α → Except StoreError β}
    {body : Database → Except StoreError (α × Database)}
    (commits : ∀ result after, body database = .ok (result, after) →
      after.knowledgeBases ⊆ database.knowledgeBases) :
    (transaction reply body database).2.knowledgeBases ⊆ database.knowledgeBases := by
  unfold transaction
  split
  · rename_i result committed returned
    exact commits result committed returned
  · exact List.Subset.refl _

/-- No other call adds an association row. -/
theorem Operation.knowledgeBases_subset {operation : Operation}
    (begins : ∀ arguments, operation ≠ .beginTurn arguments)
    (completes : ∀ arguments, operation ≠ .completeTurn arguments) :
    (operation.run config draws database).2.knowledgeBases ⊆ database.knowledgeBases := by
  have staged : ∀ {staged : Database},
      (staged = database ∨ ∃ row, staged = database.stageCleanup row) →
        staged.knowledgeBases = database.knowledgeBases := by
    rintro staged (rfl | ⟨row, rfl⟩) <;> rfl
  cases operation with
  | beginTurn arguments => exact absurd rfl (begins arguments)
  | markTurnReady scopeKey turnId leaseToken resultDigest =>
      refine transaction_knowledgeBases fun _ _ returned => ?_
      rcases markTurnReady_eq_ok returned with ⟨-, rfl⟩ | ⟨-, row, -, -, -, tables⟩
      · exact List.Subset.refl _
      · rw [tables]
        exact List.Subset.refl _
  | completeTurn arguments => exact absurd rfl (completes arguments)
  | recoverReadyTurn scopeKey turnId requestFingerprint expectedLeaseToken =>
      refine transaction_knowledgeBases fun _ _ returned => ?_
      obtain ⟨row, -, -, ⟨-, rfl, -⟩ | ⟨-, -, leaseExpiresAt, tables, -⟩⟩ :=
        recoverReadyTurn_eq_ok returned
      · exact List.Subset.refl _
      · rw [tables]
        exact List.Subset.refl _
  | renewTurnLease scopeKey turnId leaseToken =>
      show (History.renewTurnLease config draws scopeKey turnId leaseToken
        database).2.knowledgeBases ⊆ _
      rcases renewTurnLease_cases config draws scopeKey turnId leaseToken database with
        same | ⟨row, -, -, -, same⟩ <;> rw [same] <;> exact List.Subset.refl _
  | failTurn scopeKey turnId leaseToken =>
      show (History.failTurn draws scopeKey turnId leaseToken database).2.knowledgeBases ⊆ _
      rcases failTurn_cases draws scopeKey turnId leaseToken database with
        same | ⟨row, -, -, -, same⟩ <;> rw [same] <;> exact List.Subset.refl _
  | resetContinuity historyId =>
      refine transaction_knowledgeBases fun _ _ returned => ?_
      simp only [History.resetContinuity, bind_eq_ok, pure_eq_ok, Prod.mk.injEq] at returned
      obtain ⟨row, -, -, rfl⟩ := returned
      exact List.Subset.refl _
  | cleanupExpired now =>
      exact (cleanupExpiredLocked_reduces config _ database).knowledgeBases.subset
  | updateConversation historyId title archived =>
      refine transaction_knowledgeBases fun _ _ returned => ?_
      obtain ⟨update, -, rfl⟩ := updateConversation_eq_ok returned
      exact List.Subset.refl _
  | updateSummary scopeKey summary expectedVersion throughSequence =>
      show (History.updateSummary draws scopeKey summary expectedVersion throughSequence
        database).2.knowledgeBases ⊆ _
      rcases updateSummary_cases draws scopeKey summary expectedVersion throughSequence
        database with same | ⟨id, update, -, same⟩ <;> rw [same] <;> exact List.Subset.refl _
  | delete historyId =>
      show (History.delete historyId database).2.knowledgeBases ⊆ _
      unfold History.delete
      split
      · exact (Reduces.deleteConversation historyId database).knowledgeBases.subset
      · exact List.Subset.refl _
  | deleteWithArtifactCleanup historyId =>
      refine transaction_knowledgeBases fun _ _ returned => ?_
      rcases deleteWithArtifactCleanup_eq_ok returned with rfl | ⟨checkpoint, staging, rfl⟩
      · exact List.Subset.refl _
      · rw [← staged staging]
        exact (Reduces.deleteConversation historyId checkpoint).knowledgeBases.subset
  | completeArtifactCleanup cleanupKey =>
      show (History.completeArtifactCleanup cleanupKey database).2.knowledgeBases ⊆ _
      unfold History.completeArtifactCleanup
      split <;> exact List.Subset.refl _
  | deleteByKnowledgeBase knowledgeBaseId =>
      exact (deleteConversationIds_reduces _ database).knowledgeBases.subset
  | deleteByKnowledgeBaseWithArtifactCleanup knowledgeBaseId =>
      refine transaction_knowledgeBases fun _ _ returned => ?_
      rcases deleteByKnowledgeBaseWithArtifactCleanup_eq_ok returned with
        ⟨-, rfl⟩ | ⟨checkpoint, staging, rfl⟩
      · exact List.Subset.refl _
      · rw [← staged staging]
        exact (deleteConversationIds_reduces _ checkpoint).knowledgeBases.subset
  | quotaStatus =>
      exact (cleanupExpiredLocked_reduces config draws.now database).knowledgeBases.subset

/-- Association rows appear only through committed uses. -/
theorem Event.associated (event : Event) {conversationId id : String}
    (associated : (event.after config database).Associated conversationId id) :
    database.Associated conversationId id ∨ Uses config database event conversationId id := by
  by_cases begins : ∃ arguments, event.operation = .beginTurn arguments
  · obtain ⟨arguments, operation⟩ := begins
    rw [Event.after, operation, Operation.run, transaction] at associated
    split at associated
    · rename_i result committed returned
      rcases (beginTurn_associated returned).2 conversationId id associated with
        old | ⟨owner, selected⟩
      · exact .inl old
      · refine .inr (.begun arguments result operation ?_ owner.symm selected)
        rw [operation, Operation.run, transaction, returned]
    · exact .inl associated
  · by_cases completes : ∃ arguments, event.operation = .completeTurn arguments
    · obtain ⟨arguments, operation⟩ := completes
      rw [Event.after, operation, Operation.run, transaction] at associated
      split at associated
      · rename_i result committed returned
        rcases completeTurn_associated returned associated with
          old | ⟨turn, committed, rfl, found, owner, selected⟩
        · exact .inl old
        · refine .inr (.completed arguments committed turn operation ?_ found owner selected)
          rw [operation, Operation.run, transaction, returned]
      · exact .inl associated
    · obtain ⟨row, member, key⟩ := associated
      exact .inl ⟨row, Operation.knowledgeBases_subset
        (fun arguments same => begins ⟨arguments, same⟩)
        (fun arguments same => completes ⟨arguments, same⟩) member, key⟩

/-- An association stays as long as its conversation lives. -/
theorem Effect.associated_stays (effect : Effect config draws before after)
    {conversationId id : String} (survives : conversationId ∈ after.conversationIds)
    (associated : before.Associated conversationId id) :
    after.Associated conversationId id := by
  obtain ⟨row, member, key⟩ := associated
  cases effect with
  | failTurns => exact ⟨row, member, key⟩
  | changeTurn _ _ _ _ tables =>
      rw [Database.Associated, tables]
      exact ⟨row, member, key⟩
  | insertConversation _ _ tables =>
      rw [Database.Associated, tables]
      exact ⟨row, member, key⟩
  | associate _ _ associates =>
      obtain ⟨other, otherMember, equal⟩ := associates.kept row member
      exact ⟨other, otherMember, equal.trans key⟩
  | reserve _ _ tables =>
      rw [Database.Associated, tables]
      exact ⟨row, member, key⟩
  | commit _ _ _ _ _ _ _ committed =>
      obtain ⟨other, otherMember, equal⟩ := committed.knowledgeBases row member
      exact ⟨other, otherMember, equal.trans key⟩
  | editConversation => exact ⟨row, member, key⟩
  | deleteConversation deleted =>
      refine ⟨row, Table.mem_delete.mpr ⟨member, ?_⟩, key⟩
      obtain ⟨conversation, conversationMember, rfl⟩ := List.mem_map.mp survives
      have spared := (Table.mem_delete.mp conversationMember).2
      rw [show row.conversationId = conversation.id from congrArg Prod.fst key]
      exact spared
  | deleteTurn => exact ⟨row, member, key⟩
  | stageCleanup => exact ⟨row, member, key⟩
  | deleteCleanup => exact ⟨row, member, key⟩

/-! ## Over whole runs -/

/-- The association rows of a state are the uses of its conversations. -/
def UsesAssociated (config : StoreConfig) (events : List Event) (database : Database) : Prop :=
  ∀ conversationId id, id ≠ "" →
    (database.Associated conversationId id ↔
      conversationId ∈ database.conversationIds ∧ UsedIn config events conversationId id)

theorem UsedIn.drawn {events : List Event} {conversationId id : String}
    (used : UsedIn config events conversationId id) (nonempty : id ≠ "") :
    conversationId ∈ drawnIds events := by
  obtain ⟨earlier, event, within, uses⟩ := used
  have drawn : conversationId ∈ drawnIds (earlier ++ [event]) := by
    apply run_conversationIds (earlier ++ [event])
    rw [run_concat]
    exact (uses.associated nonempty).owner
  exact (within.map (fun event => event.draws.conversationId)).subset drawn

theorem run_usesAssociated (config : StoreConfig) (events : List Event)
    (fresh : (drawnIds events).Nodup) :
    UsesAssociated config events (run (Event.after config) .empty events) := by
  revert fresh
  refine run_history (fun past (database : Database) => (drawnIds past).Nodup →
    UsesAssociated config past database) ?_ ?_ events
  · intro _ conversationId id _
    constructor
    · rintro ⟨row, member, -⟩
      cases member
    · rintro ⟨member, -⟩
      cases member
  · intro past event induction fresh conversationId id nonempty
    rw [drawnIds, List.map_append] at fresh
    have holds := induction (List.Nodup.of_append_left fresh) conversationId id nonempty
    constructor
    · intro associated
      refine ⟨associated.owner, usedIn_concat.mpr ?_⟩
      exact (event.associated associated).imp_left fun old => (holds.mp old).2
    · rintro ⟨survives, used⟩
      rcases usedIn_concat.mp used with earlier | now
      · have drawn := earlier.drawn nonempty
        have undrawn : event.draws.conversationId ≠ conversationId := by
          intro same
          exact List.disjoint_of_nodup_append fresh drawn (by simp [same])
        have alive := event.conversationIds_of_ne undrawn survives
        exact chain_while_alive (·.Associated conversationId id) undrawn
          (fun _ _ effect survives held => effect.associated_stays survives held)
          (event.operation.run_chain _) (holds.mpr ⟨alive, earlier⟩) survives
      · exact now.associated nonempty

/-! ## Deletion -/

/-- Nothing is left of a conversation. -/
structure Erased (conversationId : String) (database : Database) : Prop where
  conversations : ∀ row ∈ database.conversations, row.id ≠ conversationId
  knowledgeBases : ∀ row ∈ database.knowledgeBases, row.conversationId ≠ conversationId
  turnRequests : ∀ row ∈ database.turnRequests, row.conversationId ≠ conversationId
  messages : ∀ row ∈ database.messages, row.conversationId ≠ conversationId

/-- The rows of a conversation are the same in both states. -/
structure SameRows (conversationId : String) (before after : Database) : Prop where
  conversations : after.conversations.filter (·.id == conversationId) =
    before.conversations.filter (·.id == conversationId)
  knowledgeBases : after.knowledgeBases.filter (·.conversationId == conversationId) =
    before.knowledgeBases.filter (·.conversationId == conversationId)
  turnRequests : after.turnRequests.filter (·.conversationId == conversationId) =
    before.turnRequests.filter (·.conversationId == conversationId)
  messages : after.messages.filter (·.conversationId == conversationId) =
    before.messages.filter (·.conversationId == conversationId)

/-- The foreign keys make the conversation row the anchor of all others. -/
theorem Erased.of_notMem {conversationId : String}
    (absent : conversationId ∉ database.conversationIds) : Erased conversationId database where
  conversations _ member same := absent (same ▸ List.mem_map_of_mem member)
  knowledgeBases row member same :=
    absent (same ▸ database.constraints.knowledgeBaseOwners row member)
  turnRequests row member same := absent (same ▸ database.constraints.turnOwners row member)
  messages row member same := absent (same ▸ database.constraints.messageOwners row member)

theorem SameRows.refl (conversationId : String) (database : Database) :
    SameRows conversationId database database :=
  ⟨rfl, rfl, rfl, rfl⟩

theorem SameRows.trans {conversationId : String} {middle : Database}
    (first : SameRows conversationId before middle)
    (second : SameRows conversationId middle after) : SameRows conversationId before after where
  conversations := second.conversations.trans first.conversations
  knowledgeBases := second.knowledgeBases.trans first.knowledgeBases
  turnRequests := second.turnRequests.trans first.turnRequests
  messages := second.messages.trans first.messages

theorem SameRows.mem_conversations {row : ConversationRow}
    (same : SameRows row.id before after) (member : row ∈ after.conversations) :
    row ∈ before.conversations := by
  have visible : row ∈ after.conversations.filter (·.id == row.id) :=
    List.mem_filter.mpr ⟨member, beq_self_eq_true row.id⟩
  rw [same.conversations] at visible
  exact (List.mem_filter.mp visible).1

theorem SameRows.deleteConversation {conversationId id : String} (other : id ≠ conversationId)
    (database : Database) :
    SameRows conversationId database (database.deleteConversation id) := by
  constructor <;>
    exact Table.filter_delete_of_disjoint fun row _ kept =>
      beq_eq_false_iff_ne.mpr fun deleted => other (deleted.symm.trans (beq_iff_eq.mp kept))

theorem deleteConversationIds_sameRows {conversationId : String} {ids : List String}
    (spared : conversationId ∉ ids) (database : Database) :
    SameRows conversationId database (deleteConversationIds ids database) := by
  induction ids generalizing database with
  | nil => exact .refl conversationId database
  | cons id ids induction =>
      have others := not_or.mp (mt List.mem_cons.mpr spared)
      exact (SameRows.deleteConversation (Ne.symm others.1) database).trans
        (induction others.2 (database.deleteConversation id))

theorem deleteConversationIds_absent {conversationId : String} {ids : List String}
    (selected : conversationId ∈ ids) (database : Database) :
    conversationId ∉ (deleteConversationIds ids database).conversationIds := by
  induction ids generalizing database with
  | nil => cases selected
  | cons id ids induction =>
      rcases List.mem_cons.mp selected with rfl | later
      · intro present
        have reduced := deleteConversationIds_reduces ids
          (database.deleteConversation conversationId)
        obtain ⟨row, member, same⟩ :=
          List.mem_map.mp ((reduced.conversations.map (·.id)).subset present)
        exact absurd same (by simpa using (Table.mem_delete.mp member).2)
      · exact induction later (database.deleteConversation id)

/-- The two cascades that delete by knowledge base. -/
inductive DeletesKnowledgeBase (knowledgeBaseId : String) : Operation → Prop
  | deleteByKnowledgeBase :
      DeletesKnowledgeBase knowledgeBaseId (.deleteByKnowledgeBase knowledgeBaseId)
  | deleteByKnowledgeBaseWithArtifactCleanup :
      DeletesKnowledgeBase knowledgeBaseId
        (.deleteByKnowledgeBaseWithArtifactCleanup knowledgeBaseId)

theorem mem_conversationIdsOf {knowledgeBaseId conversationId : String} :
    conversationId ∈ conversationIdsOf knowledgeBaseId database ↔
      database.Associated conversationId knowledgeBaseId := by
  simp [conversationIdsOf, Database.Associated, KnowledgeBaseRow.key, and_comm, and_assoc]

theorem mem_distinctConversationIdsOf {knowledgeBaseId conversationId : String} :
    conversationId ∈ distinctConversationIdsOf knowledgeBaseId database ↔
      database.Associated conversationId knowledgeBaseId := by
  rw [distinctConversationIdsOf, List.mem_insertionSort, List.mem_eraseDups,
    mem_conversationIdsOf]

/-- A committed cascade erases the associated conversations and no others. -/
theorem DeletesKnowledgeBase.erases {knowledgeBaseId : String} {operation : Operation}
    {reply : Reply} (deletes : DeletesKnowledgeBase knowledgeBaseId operation)
    (committed : (operation.run config draws database).1 = .ok reply) (conversationId : String) :
    (database.Associated conversationId knowledgeBaseId →
      conversationId ∉ (operation.run config draws database).2.conversationIds) ∧
    (¬ database.Associated conversationId knowledgeBaseId →
      SameRows conversationId database (operation.run config draws database).2) := by
  cases deletes with
  | deleteByKnowledgeBase =>
      rw [← mem_conversationIdsOf]
      exact ⟨fun selected => deleteConversationIds_absent selected database,
        fun spared => deleteConversationIds_sameRows spared database⟩
  | deleteByKnowledgeBaseWithArtifactCleanup =>
      rw [← mem_distinctConversationIdsOf]
      obtain ⟨result, -, returned⟩ := transaction_eq_ok committed
      rcases deleteByKnowledgeBaseWithArtifactCleanup_eq_ok returned with
        ⟨none, same⟩ | ⟨staged, staging, same⟩
      · rw [none, Operation.run, same]
        exact ⟨fun selected => absurd selected List.not_mem_nil,
          fun _ => .refl conversationId database⟩
      · rw [Operation.run, same]
        refine ⟨fun selected => deleteConversationIds_absent selected staged, fun spared => ?_⟩
        have unstaged : SameRows conversationId database staged := by
          rcases staging with rfl | ⟨row, rfl⟩
          · exact .refl conversationId staged
          · exact ⟨rfl, rfl, rfl, rfl⟩
        exact unstaged.trans (deleteConversationIds_sameRows spared staged)

/-! ## Calls for turns begun before a deletion -/

/-- A call for a turn of a scope under a token handed out earlier, or a recovery
that expects such a token or none. -/
inductive Belated (tokens : List String) (scopeKey : String) : Operation → Prop
  | presents {operation : Operation} (turnId token : String) (drawn : token ∈ tokens)
      (presents : Presents scopeKey turnId token operation) :
      Belated tokens scopeKey operation
  | recoverReadyTurn (turnId requestFingerprint : String) (expectedLeaseToken : Option String)
      (drawn : ∀ token, expectedLeaseToken = some token → token ∈ tokens) :
      Belated tokens scopeKey
        (.recoverReadyTurn scopeKey turnId requestFingerprint expectedLeaseToken)

theorem Belated.unchanged {tokens : List String} {scopeKey : String} {operation : Operation}
    (belated : Belated tokens scopeKey operation) (leased : database.Leased)
    (renewed : ∀ turnId token, database.lease scopeKey turnId = some token → token ∉ tokens) :
    (operation.run config draws database).2 = database := by
  cases belated with
  | presents turnId token drawn presents =>
      exact presents.unchanged fun current => renewed turnId token current drawn
  | recoverReadyTurn turnId requestFingerprint expectedLeaseToken drawn =>
      rw [Operation.run, transaction]
      split
      · rename_i result committed returned
        obtain ⟨row, found, -, ⟨-, same, -⟩ | ⟨ready, expected, -⟩⟩ :=
          recoverReadyTurn_eq_ok returned
        · exact same
        · have held := leased row (Database.turnForUpdate_eq_some.mp found).1
          obtain ⟨token, current⟩ := Option.isSome_iff_exists.mp
            (held.trans (by simp [TurnRow.inFlight, ready]))
          exact absurd (drawn token (expected.symm.trans current))
            (renewed turnId token (Database.lease_eq_some.mpr ⟨row, found, current⟩))
      · rfl

/-- Once the conversation of a scope is gone, leases under that scope are drawn
anew. -/
theorem run_lease_of_absent {scopeKey turnId token : String} (events : List Event)
    (absent : database.conversationByScope scopeKey = none)
    (leased : (run (Event.after config) database events).lease scopeKey turnId =
      some token) : token ∈ events.flatMap Event.tokens := by
  rcases run_lease events leased with earlier | drawn
  · rw [Database.lease, Database.turnForUpdate, absent] at earlier
    cases earlier
  · exact drawn

/-- With fresh identifiers and tokens, every knowledge base used in a
conversation is associated with it; deleting by knowledge base erases exactly the
conversations that ever used it; and nothing of them comes back, whatever late
calls arrive for their turns. -/
theorem run_erased (config : StoreConfig) (events : List Event)
    (fresh : (drawnIds events).Nodup) :
    (∀ conversation ∈ (run (Event.after config) .empty events).conversations,
      ∀ id, id ≠ "" → UsedIn config events conversation.id id →
        (run (Event.after config) .empty events).Associated conversation.id id) ∧
    ∀ (knowledgeBaseId : String) (deletion : Event) (reply : Reply), knowledgeBaseId ≠ "" →
      DeletesKnowledgeBase knowledgeBaseId deletion.operation →
      (deletion.operation.run config deletion.draws
        (run (Event.after config) .empty events)).1 = .ok reply →
      (∀ conversationId, UsedIn config events conversationId knowledgeBaseId →
        Erased conversationId (run (Event.after config) .empty (events ++ [deletion]))) ∧
      (∀ conversationId, ¬ UsedIn config events conversationId knowledgeBaseId →
        SameRows conversationId (run (Event.after config) .empty events)
          (run (Event.after config) .empty (events ++ [deletion]))) ∧
      ∀ later, (drawnIds (events ++ deletion :: later)).Nodup →
        ((events ++ deletion :: later).flatMap Event.tokens).Nodup →
        (∀ conversationId, UsedIn config events conversationId knowledgeBaseId →
          Erased conversationId
            (run (Event.after config) .empty (events ++ deletion :: later))) ∧
        ∀ conversation ∈ (run (Event.after config) .empty events).conversations,
          UsedIn config events conversation.id knowledgeBaseId →
          ∀ late : Event,
            Belated (events.flatMap Event.tokens) conversation.scopeKey late.operation →
            late.after config (run (Event.after config) .empty (events ++ deletion :: later)) =
              run (Event.after config) .empty (events ++ deletion :: later) := by
  have associations := run_usesAssociated config events fresh
  refine ⟨fun conversation member id nonempty used => (associations conversation.id id
    nonempty).mpr ⟨List.mem_map_of_mem member, used⟩, ?_⟩
  intro knowledgeBaseId deletion reply nonempty deletes committed
  have reached : run (Event.after config) .empty (events ++ [deletion]) =
      (deletion.operation.run config deletion.draws
        (run (Event.after config) .empty events)).2 := run_concat _ _ _ _
  have erases := deletes.erases committed
  have remains : ∀ row ∈ (run (Event.after config) .empty (events ++ [deletion])).conversations,
      row ∈ (run (Event.after config) .empty events).conversations ∧
        ¬ UsedIn config events row.id knowledgeBaseId := by
    intro row member
    rw [reached] at member
    have spared : ¬ (run (Event.after config) .empty events).Associated row.id
        knowledgeBaseId := fun associated =>
      (erases row.id).1 associated (List.mem_map_of_mem member)
    have stored := ((erases row.id).2 spared).mem_conversations member
    exact ⟨stored, fun used => spared ((associations row.id knowledgeBaseId nonempty).mpr
      ⟨List.mem_map_of_mem stored, used⟩)⟩
  have absent : ∀ conversationId, UsedIn config events conversationId knowledgeBaseId →
      conversationId ∉
        (run (Event.after config) .empty (events ++ [deletion])).conversationIds := by
    intro conversationId used present
    obtain ⟨row, member, rfl⟩ := List.mem_map.mp present
    exact (remains row member).2 used
  refine ⟨fun conversationId used => .of_notMem (absent conversationId used), ?_, ?_⟩
  · intro conversationId unused
    rw [reached]
    exact (erases conversationId).2 fun associated =>
      unused ((associations conversationId knowledgeBaseId nonempty).mp associated).2
  intro later freshIds freshTokens
  have final : run (Event.after config) .empty (events ++ deletion :: later) =
      run (Event.after config)
        (run (Event.after config) .empty (events ++ [deletion])) later := by
    rw [← run_append, List.append_assoc, List.singleton_append]
  constructor
  · intro conversationId used
    have undrawn : conversationId ∉ drawnIds later := by
      rw [drawnIds, List.map_append, List.map_cons] at freshIds
      exact fun member => List.disjoint_of_nodup_append freshIds (used.drawn nonempty)
        (List.mem_cons_of_mem _ member)
    refine .of_notMem fun present => absent conversationId used ?_
    rw [final] at present
    exact run_earlier (fun event : Event => event.draws.conversationId ≠ conversationId)
      (fun database : Database => conversationId ∈ database.conversationIds)
      (fun event _ other => event.conversationIds_of_ne other) later
      (fun event member same => undrawn (same ▸ List.mem_map_of_mem member)) present
  · intro conversation member used late belated
    refine belated.unchanged (run_linear config _).leased fun turnId token current drawn => ?_
    have vacant : (run (Event.after config) .empty
        (events ++ [deletion])).conversationByScope conversation.scopeKey = none := by
      by_contra occupied
      obtain ⟨row, found⟩ := Option.ne_none_iff_exists'.mp occupied
      obtain ⟨rowMember, sameScope⟩ := Database.conversationByScope_eq_some.mp found
      obtain ⟨stored, unused⟩ := remains row rowMember
      exact unused (Table.eq_of_key_eq
        (run (Event.after config) .empty events).constraints.scopeKeys stored member
        sameScope ▸ used)
    rw [final] at current
    have drawnLater := run_lease_of_absent later vacant current
    rw [List.flatMap_append, List.flatMap_cons] at freshTokens
    exact List.disjoint_of_nodup_append freshTokens drawn
      (List.mem_append_right _ drawnLater)

/-- A turn that used a knowledge base is erased with it, its scope is begun anew,
and the lease of the erased turn is presented again. -/
theorem run_erased_scope_reused :
    Erased "conversation-a" (run (Event.after Sample.config) .empty
      (Sample.knowledgeTurn ++ ⟨.deleteByKnowledgeBase "k", Sample.draws 10 "b"⟩ ::
        [⟨.beginTurn (Sample.begins "t1" none), Sample.draws 20 "c"⟩])) ∧
    Event.after Sample.config ⟨.failTurn "w:c" "t1" "a", Sample.draws 30 "d"⟩
        (run (Event.after Sample.config) .empty
          (Sample.knowledgeTurn ++ ⟨.deleteByKnowledgeBase "k", Sample.draws 10 "b"⟩ ::
            [⟨.beginTurn (Sample.begins "t1" none), Sample.draws 20 "c"⟩])) =
      run (Event.after Sample.config) .empty
        (Sample.knowledgeTurn ++ ⟨.deleteByKnowledgeBase "k", Sample.draws 10 "b"⟩ ::
          [⟨.beginTurn (Sample.begins "t1" none), Sample.draws 20 "c"⟩]) := by
  have begun : (match ((Operation.beginTurn { Sample.begins "t1" none with
        selectedKnowledgeBaseIds := some ["k"] }).run Sample.config (Sample.draws 0 "a")
        .empty).1 with
      | .ok (.begun result) => result.conversation.id == "conversation-a"
      | _ => false) = true := by
    decide +kernel
  split at begun
  · rename_i result returned
    have used : UsedIn Sample.config Sample.knowledgeTurn "conversation-a" "k" :=
      ⟨[], _, List.prefix_rfl, .begun _ result rfl returned (beq_iff_eq.mp begun)
        List.mem_cons_self⟩
    obtain ⟨conversation, member, id, inScope⟩ : ∃ conversation ∈
        (run (Event.after Sample.config) .empty Sample.knowledgeTurn).conversations,
        conversation.id = "conversation-a" ∧ conversation.scopeKey = "w:c" := by
      decide +kernel
    obtain ⟨-, -, erased⟩ := (run_erased Sample.config Sample.knowledgeTurn (by decide)).2 "k"
      ⟨.deleteByKnowledgeBase "k", Sample.draws 10 "b"⟩ _ (by decide) .deleteByKnowledgeBase rfl
    obtain ⟨gone, late⟩ := erased
      [⟨.beginTurn (Sample.begins "t1" none), Sample.draws 20 "c"⟩] (by decide) (by decide)
    refine ⟨gone "conversation-a" used, late conversation member (id.symm ▸ used) _ ?_⟩
    rw [inScope]
    exact .presents "t1" "a" (by decide) .failTurn
  · cases begun

end RAGuardian.History
