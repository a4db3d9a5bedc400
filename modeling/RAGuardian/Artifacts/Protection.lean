import RAGuardian.Artifacts.Cleanup
import RAGuardian.History.Erasure

/-! # Cleanups and the conversations that exist

A plan spares what other conversations denote when it is taken. A checkpointed plan
is executed again as it was stored. -/

namespace RAGuardian.Artifacts

open Json History Execution

variable {config : StoreConfig} {draws : Draws} {rules : UrlRules}
variable {before middle after database : Database}

/-! ## References -/

/-- Everything `left` denotes is denoted by `right`. -/
structure References.Within (left right : References) : Prop where
  attachmentIds : left.attachmentIds ⊆ right.attachmentIds
  imageNames : left.imageNames ⊆ right.imageNames
  runIds : left.runIds ⊆ right.runIds

namespace References.Within

theorem refl (references : References) : references.Within references :=
  ⟨subset_rfl, subset_rfl, subset_rfl⟩

theorem trans {left middle right : References} (first : left.Within middle)
    (second : middle.Within right) : left.Within right :=
  ⟨first.attachmentIds.trans second.attachmentIds, first.imageNames.trans second.imageNames,
    first.runIds.trans second.runIds⟩

theorem union_left (left right : References) : left.Within (left.union right) :=
  ⟨Finset.subset_union_left, Finset.subset_union_left, Finset.subset_union_left⟩

theorem union_right (left right : References) : right.Within (left.union right) :=
  ⟨Finset.subset_union_right, Finset.subset_union_right, Finset.subset_union_right⟩

end References.Within

/-- The runs of the images a set of references denotes are denoted with them. -/
def References.Closed (references : References) : Prop :=
  ∀ imageName ∈ references.imageNames, ∀ runId, runIdForImage imageName = some runId →
    runId ∈ references.runIds

theorem References.empty_closed : References.empty.Closed := by
  intro imageName member
  cases member

theorem References.Spares.empty (cleaned : References) : cleaned.Spares .empty := by
  constructor <;> simp [References.empty]

theorem referencesFromResponsePayload_closed {payload : List (String × Value)}
    {references : References}
    (extracted : referencesFromResponsePayload rules payload = .ok references) :
    references.Closed := by
  simp only [referencesFromResponsePayload, bind_eq_ok] at extracted
  obtain ⟨attachments, -, extracted⟩ := extracted
  split at extracted
  · simp only [bind_eq_ok, pure_eq_ok] at extracted
    obtain ⟨images, -, names, -, rfl⟩ := extracted
    intro imageName member runId parsed
    rw [List.mem_toFinset] at member ⊢
    exact List.mem_append_right _ (List.mem_filterMap.mpr ⟨imageName, member, parsed⟩)
  · cases extracted
    intro imageName member
    cases member

/-- A message that denotes an image denotes its run. -/
theorem denotedBy_closed (rules : UrlRules) (metadata : Value) :
    (denotedBy rules metadata).Closed := by
  unfold denotedBy
  cases extracted : referencesFromHistoryMetadata rules metadata with
  | error raised => exact References.empty_closed
  | ok references =>
      simp only [Except.toOption, Option.getD_some]
      unfold referencesFromHistoryMetadata at extracted
      split at extracted
      · split at extracted
        · exact referencesFromResponsePayload_closed extracted
        · cases extracted
          exact References.empty_closed
      · cases extracted
        exact References.empty_closed

theorem messageReferences_closed (rules : UrlRules) (message : MessageRow) :
    (messageReferences rules message).Closed := by
  unfold messageReferences
  cases message.metadata.loads (.dict []) with
  | none => exact References.empty_closed
  | some metadata => exact denotedBy_closed rules metadata

/-- What is exclusive spares everything retained. -/
theorem exclusiveReferences_spares {target retained live : References}
    (within : live.Within retained) (closed : live.Closed) :
    (exclusiveReferences target retained).Spares live where
  attachmentIds _ exclusive denoted :=
    (Finset.mem_sdiff.mp exclusive).2 (within.attachmentIds denoted)
  imageNames _ exclusive denoted :=
    (Finset.mem_sdiff.mp (Finset.mem_filter.mp exclusive).1).2 (within.imageNames denoted)
  runIds _ exclusive denoted := (Finset.mem_sdiff.mp exclusive).2 (within.runIds denoted)
  imageRuns imageName denoted runId exclusive parsed :=
    (Finset.mem_sdiff.mp exclusive).2 (within.runIds (closed imageName denoted runId parsed))

/-! ## Plans -/

/-- A cleanup spares every message in the table. -/
def SparesMessages (rules : UrlRules) (cleaned : References) (database : Database) : Prop :=
  ∀ message ∈ database.messages, cleaned.Spares (messageReferences rules message)

theorem SparesMessages.conversations {cleaned : References}
    (spares : SparesMessages rules cleaned database) :
    SparesConversations rules cleaned database :=
  fun _ _ message member => spares message (Database.mem_messagesOf.mp member).1

theorem visit_eq_ok {targetIds : List String} {gathered visited : GatheredReferences}
    {message : MessageRow}
    (returned : gathered.visit rules targetIds message = .ok visited)
    (safe : visited.safe = true) :
    gathered.safe = true ∧ gathered.retained.Within visited.retained ∧
      (message.conversationId ∉ targetIds →
        (messageReferences rules message).Within visited.retained) := by
  unfold GatheredReferences.visit at returned
  split at returned
  · cases returned
    cases safe
  · rename_i metadata loaded
    simp only [bind_eq_ok] at returned
    obtain ⟨references, extracted, returned⟩ := returned
    have denoted : messageReferences rules message = references := by
      simp [messageReferences, loaded, denotedBy, extracted, Except.toOption]
    split at returned
    · rename_i targeted
      cases returned
      exact ⟨safe, .refl _, fun spared => absurd targeted spared⟩
    · cases returned
      exact ⟨safe, .union_left _ _, fun _ => denoted ▸ .union_right _ _⟩

/-- A safe pass retains what every message of another conversation denotes. -/
theorem foldlM_visit_eq_ok {targetIds : List String} {messages : List MessageRow}
    {gathered final : GatheredReferences}
    (returned : messages.foldlM (GatheredReferences.visit rules targetIds) gathered =
      .ok final)
    (safe : final.safe = true) :
    gathered.safe = true ∧ gathered.retained.Within final.retained ∧
      ∀ message ∈ messages, message.conversationId ∉ targetIds →
        (messageReferences rules message).Within final.retained := by
  induction messages generalizing gathered with
  | nil =>
      cases returned
      exact ⟨safe, .refl _, fun message member => absurd member List.not_mem_nil⟩
  | cons message messages induction =>
      rw [List.foldlM_cons, bind_eq_ok] at returned
      obtain ⟨visited, visits, rest⟩ := returned
      obtain ⟨visitedSafe, grows, others⟩ := induction rest
      obtain ⟨started, kept, here⟩ := visit_eq_ok visits visitedSafe
      refine ⟨started, kept.trans grows, ?_⟩
      intro other member spared
      rcases List.mem_cons.mp member with rfl | later
      · exact (here spared).trans grows
      · exact others other later spared

/-- A safe plan spares the conversations it does not delete. -/
theorem artifactCleanupPlanLocked_eq_ok {conversationIds : List String} {plan : DeletionPlan}
    (planned : artifactCleanupPlanLocked config conversationIds database = .ok plan)
    (nonempty : conversationIds ≠ []) (safe : plan.safe = true) :
    ∀ message ∈ database.messages, message.conversationId ∉ conversationIds →
      plan.exclusive.Spares (messageReferences config.urlRules message) := by
  simp only [artifactCleanupPlanLocked, if_neg nonempty, bind_eq_ok, pure_eq_ok] at planned
  obtain ⟨gathered, visits, rfl⟩ := planned
  have gatheredSafe : gathered.safe = true := safe
  obtain ⟨-, -, retains⟩ := foldlM_visit_eq_ok visits gatheredSafe
  intro message member spared
  rw [if_pos gatheredSafe]
  exact exclusiveReferences_spares (retains message member spared)
    (messageReferences_closed _ message)

/-! ## The outbox -/

theorem mapM_texts {read : Value → Except StoreError String}
    (reads : ∀ text, read (.str text) = .ok text) (texts : List String) :
    (texts.map .str).mapM read = .ok texts := by
  induction texts with
  | nil => rfl
  | cons text texts induction =>
      rw [List.map_cons, List.mapM_cons, reads, induction]
      rfl

theorem stringSet_texts (texts : List String) :
    stringSet (.list (texts.map .str)) = .ok texts.toFinset := by
  have same : (Value.list (texts.map .str)).orElse (.list []) = .list (texts.map .str) := by
    cases texts <;> rfl
  simp only [stringSet, same, iterate, bind_eq_ok, pure_eq_ok]
  exact ⟨_, rfl, texts, mapM_texts (fun _ => rfl) texts, rfl⟩

/-- An outbox row gives back the references it was staged with. -/
theorem stageArtifactCleanupLocked_eq_ok {cleanupKey : String} {references : References}
    (staged : stageArtifactCleanupLocked draws cleanupKey references database = .ok after) :
    ∃ row, after = database.stageCleanup row ∧ row.cleanupKey = cleanupKey ∧
      outboxReferences row = .ok references := by
  simp only [stageArtifactCleanupLocked, bind_eq_ok, orRaise_eq_ok, pure_eq_ok] at staged
  rcases staged with ⟨encoded, dumped, rfl⟩
  refine ⟨_, rfl, rfl, ?_⟩
  have value : encoded.value = outboxPayload references := by
    unfold Document.dumpsWith at dumped
    split at dumped
    · cases dumped
      rfl
    · cases dumped
  have sorted (values : Finset String) :
      stringSet (.list ((values.sort (· ≤ ·)).map .str)) = .ok values := by
    rw [stringSet_texts, Finset.sort_toFinset]
  simp only [outboxReferences, Column.loads, value, outboxPayload, orRaise, bind, Except.bind,
    Value.lookup, List.find?]
  simp [sorted, pure, Except.pure]

theorem mem_stageCleanup {row other : OutboxRow}
    (member : other ∈ (database.stageCleanup row).cleanupOutbox) :
    other = row ∨ other ∈ database.cleanupOutbox := by
  change other ∈ (if _ then _ else _) at member
  split at member
  · rcases Table.mem_update.mp member with ⟨old, oldMember, rfl⟩
    split
    · exact .inl rfl
    · exact .inr oldMember
  · rcases List.mem_append.mp member with old | fresh
    · exact .inr old
    · exact .inl (List.mem_singleton.mp fresh)

theorem mem_stageCleanup_self (row : OutboxRow) (database : Database) :
    row ∈ (database.stageCleanup row).cleanupOutbox := by
  change row ∈ (if _ then _ else _)
  split
  · rename_i present
    rcases List.any_eq_true.mp present with ⟨other, member, same⟩
    exact Table.mem_update.mpr ⟨other, member, by rw [if_pos same]⟩
  · exact List.mem_append_right _ (List.mem_singleton_self row)

/-- Whatever the outbox holds spares every message. -/
def PendingSpared (rules : UrlRules) (database : Database) : Prop :=
  ∀ row ∈ database.cleanupOutbox, ∀ references, outboxReferences row = .ok references →
    SparesMessages rules references database

/-- A change that brings neither messages nor outbox rows. -/
structure Keeps (before after : Database) : Prop where
  messages : after.messages ⊆ before.messages
  cleanupOutbox : after.cleanupOutbox ⊆ before.cleanupOutbox

namespace Keeps

theorem refl (database : Database) : Keeps database database :=
  ⟨List.Subset.refl _, List.Subset.refl _⟩

theorem trans (first : Keeps before middle) (second : Keeps middle after) :
    Keeps before after :=
  ⟨List.Subset.trans second.messages first.messages,
    List.Subset.trans second.cleanupOutbox first.cleanupOutbox⟩

theorem of_tables {tables : Tables} (same : after.toTables = tables)
    (messages : tables.messages = before.messages)
    (cleanupOutbox : tables.cleanupOutbox = before.cleanupOutbox) : Keeps before after := by
  rw [← same] at messages cleanupOutbox
  exact ⟨fun _ member => messages ▸ member, fun _ member => cleanupOutbox ▸ member⟩

theorem deleteConversation (id : String) (database : Database) :
    Keeps database (database.deleteConversation id) :=
  ⟨(Table.delete_sublist _ _).subset, List.Subset.refl _⟩

theorem deleteTurn (key : String × String) (database : Database) :
    Keeps database (database.deleteTurn key) :=
  ⟨List.Subset.refl _, List.Subset.refl _⟩

theorem foldl {step : Database → α → Database}
    (single : ∀ item database, Keeps database (step database item)) (items : List α)
    (database : Database) : Keeps database (items.foldl step database) :=
  foldl_invariant (fun item _ kept => kept.trans (single item _)) items (refl database)

theorem pendingSpared (keeps : Keeps before after) (spared : PendingSpared rules before) :
    PendingSpared rules after :=
  fun row member references stored message found =>
    spared row (keeps.cleanupOutbox member) references stored message (keeps.messages found)

end Keeps

theorem deleteConversationIds_keeps (ids : List String) (database : Database) :
    Keeps database (deleteConversationIds ids database) :=
  Keeps.foldl (fun id => .deleteConversation id) ids database

theorem deleteConversationIds_cleanupOutbox (ids : List String) (database : Database) :
    (deleteConversationIds ids database).cleanupOutbox = database.cleanupOutbox := by
  unfold deleteConversationIds
  induction ids generalizing database with
  | nil => rfl
  | cons id ids induction => exact induction (database.deleteConversation id)

theorem cleanupExpiredLocked_keeps (config : StoreConfig) (now : Timestamp)
    (database : Database) : Keeps database (cleanupExpiredLocked config now database).2 :=
  have failed : Keeps database (database.updateTurns (leaseExpired now) (.fail none)) :=
    ⟨List.Subset.refl _, List.Subset.refl _⟩
  failed.trans
    ((Keeps.foldl (fun _ => .deleteConversation _) _ _).trans
      ((Keeps.foldl (fun _ => .deleteTurn _) _ _).trans
        (Keeps.foldl (fun _ => .deleteConversation _) _ _)))

theorem completeArtifactCleanup_keeps (cleanupKey : String) (database : Database) :
    Keeps database (completeArtifactCleanup cleanupKey database).2 := by
  unfold completeArtifactCleanup
  split
  · exact .refl _
  · exact ⟨List.Subset.refl _, (Table.delete_sublist _ _).subset⟩

/-! ## Calls of the store -/

theorem beginTurn_keeps {arguments : BeginTurnArguments} {result : BeginTurnResult}
    (returned : beginTurn config draws arguments database = .ok (result, after)) :
    Keeps database after := by
  rcases beginTurn_eq_ok returned with
    ⟨scopeKind, created, associated, getOrCreate, associates, handled⟩
  have creation : Keeps database created := by
    apply (cleanupExpiredLocked_keeps config draws.now database).trans
    rcases getOrCreateConversation_eq_ok getOrCreate with
      ⟨rfl, -⟩ | ⟨-, row, -, -, -, -, tables⟩
    · exact .refl _
    · exact .of_tables tables rfl rfl
  have association : Keeps created associated :=
    .of_tables associates.tables rfl rfl
  have reservation : Keeps associated after := by
    rcases handled with ⟨existing, -, replied⟩ | ⟨-, row, -, -, -, -, tables⟩
    · rcases (handleExistingTurn_eq_ok replied).2 with
        ⟨-, rfl, -⟩ | ⟨-, rfl, -⟩ | ⟨-, change, -, -, tables, -⟩
      · exact .refl _
      · exact .refl _
      · exact .of_tables tables rfl rfl
    · exact .of_tables tables rfl rfl
  exact creation.trans (association.trans reservation)

theorem transaction_keeps {reply : α → Except StoreError β}
    {body : Database → Except StoreError (α × Database)}
    (commits : ∀ result after, body database = .ok (result, after) → Keeps database after) :
    Keeps database (transaction reply body database).2 := by
  unfold transaction
  split
  · rename_i result committed returned
    exact commits result committed returned
  · exact .refl _

/-- Only completions bring messages, and only planned deletions bring outbox rows. -/
theorem run_keeps {operation : Operation}
    (completes : ∀ arguments, operation ≠ .completeTurn arguments)
    (deletes : ∀ historyId, operation ≠ .deleteWithArtifactCleanup historyId)
    (cascades : ∀ id, operation ≠ .deleteByKnowledgeBaseWithArtifactCleanup id) :
    Keeps database (operation.run config draws database).2 := by
  cases operation with
  | beginTurn arguments => exact transaction_keeps fun _ _ => beginTurn_keeps
  | markTurnReady scopeKey turnId leaseToken resultDigest =>
      refine transaction_keeps fun _ _ returned => ?_
      rcases markTurnReady_eq_ok returned with ⟨-, rfl⟩ | ⟨-, row, -, -, -, tables⟩
      · exact .refl _
      · exact .of_tables tables rfl rfl
  | completeTurn arguments => exact absurd rfl (completes arguments)
  | recoverReadyTurn scopeKey turnId requestFingerprint expectedLeaseToken =>
      refine transaction_keeps fun _ _ returned => ?_
      rcases recoverReadyTurn_eq_ok returned with
        ⟨row, -, -, ⟨-, rfl, -⟩ | ⟨-, -, leaseExpiresAt, tables, -⟩⟩
      · exact .refl _
      · exact .of_tables tables rfl rfl
  | renewTurnLease scopeKey turnId leaseToken =>
      change Keeps database (renewTurnLease config draws scopeKey turnId leaseToken database).2
      rcases renewTurnLease_cases config draws scopeKey turnId leaseToken database with
        same | ⟨row, -, -, -, same⟩
      · rw [same]
        exact .refl _
      · rw [same]
        exact .of_tables rfl rfl rfl
  | failTurn scopeKey turnId leaseToken =>
      change Keeps database (failTurn draws scopeKey turnId leaseToken database).2
      rcases failTurn_cases draws scopeKey turnId leaseToken database with
        same | ⟨row, -, -, -, same⟩
      · rw [same]
        exact .refl _
      · rw [same]
        exact .of_tables rfl rfl rfl
  | resetContinuity historyId =>
      refine transaction_keeps fun _ _ returned => ?_
      simp only [resetContinuity, bind_eq_ok, pure_eq_ok, Prod.mk.injEq] at returned
      rcases returned with ⟨row, -, -, rfl⟩
      exact .of_tables rfl rfl rfl
  | cleanupExpired now => exact cleanupExpiredLocked_keeps config _ database
  | updateConversation historyId title archived =>
      refine transaction_keeps fun _ _ returned => ?_
      rcases updateConversation_eq_ok returned with ⟨update, -, rfl⟩
      exact .of_tables rfl rfl rfl
  | updateSummary scopeKey summary expectedVersion throughSequence =>
      change Keeps database (updateSummary draws scopeKey summary expectedVersion
        throughSequence database).2
      rcases updateSummary_cases draws scopeKey summary expectedVersion throughSequence
        database with same | ⟨id, update, -, same⟩
      · rw [same]
        exact .refl _
      · rw [same]
        exact .of_tables rfl rfl rfl
  | delete historyId =>
      change Keeps database (delete historyId database).2
      unfold delete
      split
      · exact .deleteConversation historyId database
      · exact .refl _
  | deleteWithArtifactCleanup historyId => exact absurd rfl (deletes historyId)
  | completeArtifactCleanup cleanupKey =>
      change Keeps database (completeArtifactCleanup cleanupKey database).2
      exact completeArtifactCleanup_keeps cleanupKey database
  | deleteByKnowledgeBase knowledgeBaseId => exact deleteConversationIds_keeps _ database
  | deleteByKnowledgeBaseWithArtifactCleanup knowledgeBaseId =>
      exact absurd rfl (cascades knowledgeBaseId)
  | quotaStatus => exact cleanupExpiredLocked_keeps config draws.now database

/-- What a completion adds: a user message without metadata, and an assistant message
with the metadata given. -/
theorem completeTurn_messages {arguments : CompleteTurnArguments} {result : CompleteTurnResult}
    (returned : completeTurn config draws arguments database = .ok (result, after)) :
    after.cleanupOutbox = database.cleanupOutbox ∧
      ∀ message ∈ after.messages, message ∈ database.messages ∨
        message.metadata.loads (.dict []) = some (.dict []) ∨
        message.metadata.loads (.dict []) = some (.dict (arguments.metadata.getD [])) := by
  simp only [completeTurn, bind_eq_ok, orRaise_eq_ok] at returned
  rcases returned with ⟨-, -, sources, -, metadata, validated, promptRef, -, row, -, handled⟩
  have given : metadata = .dict (arguments.metadata.getD []) := by
    simp only [validateJsonField, bind_eq_ok, pure_eq_ok] at validated
    rcases validated with ⟨-, -, -, -, same⟩
    exact same.symm
  split at handled
  · simp only [bind_eq_ok, pure_eq_ok, Prod.mk.injEq] at handled
    rcases handled with ⟨messages, -, -, rfl⟩
    exact ⟨rfl, fun message member => .inl member⟩
  · simp only [bind_eq_ok, require_eq_ok, pure_eq_ok, Prod.mk.injEq] at handled
    rcases handled with ⟨-, -, -, -, ⟨committed, final⟩, commits, -, rfl⟩
    simp only [commitTurn, bind_eq_ok, orRaise_eq_ok, pure_eq_ok, Prod.mk.injEq] at commits
    rcases commits with ⟨conversation, -, -, -, -, -, -, -, -, -, sourcesJson, -,
      metadataJson, metadataDumped, emptySources, -, emptyMetadata, emptyDumped, first,
      userInserted, second, assistantInserted, associated, upserted, closed, activated,
      promptRefJson, -, messages, -, -, rfl⟩
    have userTables := Database.execute_eq_ok.mp userInserted
    have assistantTables := Database.execute_eq_ok.mp assistantInserted
    have closedTables := activateTurn_eq_ok.mp activated
    rw [(upsertKnowledgeBases_eq_ok upserted).tables, assistantTables, userTables]
      at closedTables
    have outboxEqual := congrArg Tables.cleanupOutbox closedTables
    have messagesEqual := congrArg Tables.messages closedTables
    refine ⟨outboxEqual, ?_⟩
    intro message member
    change message ∈ closed.messages at member
    rw [messagesEqual] at member
    simp only [List.append_assoc, List.cons_append, List.nil_append, List.mem_append,
      List.mem_pair] at member
    rcases member with old | rfl | rfl
    · exact .inl old
    · refine .inr (.inl ?_)
      rw [Column.loads, (Document.dumps_eq_some emptyDumped).1]
    · refine .inr (.inr ?_)
      rw [Column.loads, (Document.dumps_eq_some metadataDumped).1, given]

/-- A cleanup that spares the metadata of a completion spares its messages. -/
theorem completeTurn_pendingSpared {arguments : CompleteTurnArguments}
    {result : CompleteTurnResult}
    (returned : completeTurn config draws arguments database = .ok (result, after))
    (unclaimed : ∀ row ∈ database.cleanupOutbox, ∀ references,
      outboxReferences row = .ok references →
        references.Spares (denotedBy rules (.dict (arguments.metadata.getD []))))
    (spared : PendingSpared rules database) : PendingSpared rules after := by
  rcases completeTurn_messages returned with ⟨sameOutbox, origin⟩
  intro row member references stored message found
  rw [sameOutbox] at member
  rcases origin message found with old | empty | given
  · exact spared row member references stored message old
  · rw [messageReferences, empty]
    exact .empty references
  · rw [messageReferences, given]
    exact unclaimed row member references stored

/-! ## Deletions -/

/-- What the caller of a deletion can rely on when it executes the plan. -/
structure Planned (rules : UrlRules) (plan : DeletionPlan) (after : Database) : Prop where
  pending : PendingSpared rules after
  exclusive : plan.safe = true → SparesMessages rules plan.exclusive after

/-- A plan from the outbox spares what the row it comes from spares. -/
theorem artifactCleanupOutboxLocked_planned {cleanupKey : String}
    {conversationIds : List String} {plan : DeletionPlan}
    (spared : PendingSpared rules database)
    (planned : artifactCleanupOutboxLocked cleanupKey conversationIds database = .ok plan) :
    Planned rules plan database := by
  refine ⟨spared, ?_⟩
  intro safe
  unfold artifactCleanupOutboxLocked at planned
  split at planned
  · cases planned
    cases safe
  · rename_i row found
    split at planned
    · rename_i references stored
      cases planned
      exact spared row (List.mem_of_find?_eq_some found) references stored
    · cases planned
    · cases planned
      cases safe

/-- A fresh plan spares the messages its deletion leaves. -/
theorem stageSafePlan_planned {cleanupKey : String} {conversationIds : List String}
    {plan : DeletionPlan} {staged : Database}
    (spared : PendingSpared config.urlRules database) (nonempty : conversationIds ≠ [])
    (planned : artifactCleanupPlanLocked config conversationIds database = .ok plan)
    (stages : stageSafePlan draws cleanupKey plan database = .ok staged)
    (kept : Keeps staged after)
    (deleted : ∀ message ∈ after.messages, message.conversationId ∉ conversationIds) :
    Planned config.urlRules plan after := by
  have others := artifactCleanupPlanLocked_eq_ok planned nonempty
  unfold stageSafePlan at stages
  split at stages
  · rename_i safe
    rcases stageArtifactCleanupLocked_eq_ok stages with ⟨row, rfl, -, stored⟩
    have exclusive : SparesMessages config.urlRules plan.exclusive after :=
      fun message member => others safe message (kept.messages member) (deleted message member)
    refine ⟨?_, fun _ => exclusive⟩
    intro other member references found
    rcases mem_stageCleanup (kept.cleanupOutbox member) with rfl | old
    · rw [stored] at found
      cases found
      exact exclusive
    · exact fun message remains =>
        spared other old references found message (kept.messages remains)
  · rename_i unsafePlan
    cases stages
    exact ⟨kept.pendingSpared spared, fun safe => absurd safe unsafePlan⟩

theorem deleteWithArtifactCleanup_planned {historyId : String} {deleted : Bool}
    {plan : DeletionPlan} (spared : PendingSpared config.urlRules database)
    (returned : deleteWithArtifactCleanup config draws historyId database =
      .ok ((deleted, plan), after)) : Planned config.urlRules plan after := by
  unfold deleteWithArtifactCleanup at returned
  simp only at returned
  split at returned
  · simp only [bind_eq_ok, pure_eq_ok, Prod.mk.injEq] at returned
    rcases returned with ⟨plan, planned, ⟨-, rfl⟩, rfl⟩
    exact artifactCleanupOutboxLocked_planned spared planned
  · simp only [bind_eq_ok, pure_eq_ok, Prod.mk.injEq] at returned
    rcases returned with ⟨plan, planned, staged, stages, ⟨-, rfl⟩, rfl⟩
    apply stageSafePlan_planned spared (by simp) planned stages (.deleteConversation _ _)
    intro message member
    simpa using (Table.mem_delete.mp member).2

theorem deleteConversationIds_messages {ids : List String} {message : MessageRow}
    (member : message ∈ (deleteConversationIds ids database).messages) :
    message.conversationId ∉ ids := by
  intro targeted
  exact deleteConversationIds_absent targeted database
    ((deleteConversationIds ids database).constraints.messageOwners message member)

theorem deleteByKnowledgeBaseWithArtifactCleanup_planned {knowledgeBaseId : String}
    {count : Nat} {plan : DeletionPlan} (spared : PendingSpared config.urlRules database)
    (returned : deleteByKnowledgeBaseWithArtifactCleanup config draws knowledgeBaseId database =
      .ok ((count, plan), after)) : Planned config.urlRules plan after := by
  unfold deleteByKnowledgeBaseWithArtifactCleanup at returned
  simp only at returned
  split at returned
  · simp only [bind_eq_ok, pure_eq_ok, Prod.mk.injEq] at returned
    rcases returned with ⟨plan, planned, ⟨-, rfl⟩, rfl⟩
    exact artifactCleanupOutboxLocked_planned spared planned
  · rename_i nonempty
    simp only [bind_eq_ok, pure_eq_ok, Prod.mk.injEq] at returned
    rcases returned with ⟨plan, planned, staged, stages, ⟨-, rfl⟩, rfl⟩
    exact stageSafePlan_planned spared nonempty planned stages
      (deleteConversationIds_keeps _ _) fun message => deleteConversationIds_messages

/-! ## Runs -/

/-- A turn that completes denotes nothing a checkpointed cleanup still has to
remove. -/
def Act.Unclaimed (config : StoreConfig) (act : Act) (database : Database) : Prop :=
  ∀ arguments draws, act = .call ⟨.completeTurn arguments, draws⟩ →
    ∀ row ∈ database.cleanupOutbox, ∀ references, outboxReferences row = .ok references →
      references.Spares (denotedBy config.urlRules (.dict (arguments.metadata.getD [])))

/-- The cleanups executed spared the conversations there were, and those to come will. -/
structure Protected (config : StoreConfig) (state : State) : Prop where
  pending : PendingSpared config.urlRules state.database
  executed : ∀ execution ∈ state.executions,
    SparesConversations config.urlRules execution.references execution.database

theorem Protected.initial : Protected config .initial where
  pending row member := by cases member
  executed execution member := by cases member

theorem executePlan_protected {cleanupKey : String} {plan : DeletionPlan}
    {outcome : CleanupOutcome} {state : State} (held : Protected config state)
    (exclusive : SparesMessages config.urlRules plan.exclusive state.database) :
    Protected config (executePlan cleanupKey plan outcome state).2 := by
  have executed : ∀ execution ∈ state.executions ++ [⟨plan.exclusive, state.database⟩],
      SparesConversations config.urlRules execution.references execution.database := by
    intro execution member
    rcases List.mem_append.mp member with old | fresh
    · exact held.executed execution old
    · rw [List.mem_singleton.mp fresh]
      exact exclusive.conversations
  cases outcome with
  | succeeded =>
      exact ⟨(completeArtifactCleanup_keeps cleanupKey _).pendingSpared held.pending, executed⟩
  | failed => exact ⟨held.pending, executed⟩
  | interrupted => exact held

theorem transaction_pendingSpared {reply : α → Except StoreError β}
    {body : Database → Except StoreError (α × Database)}
    (commits : ∀ result after, body database = .ok (result, after) →
      PendingSpared rules after)
    (spared : PendingSpared rules database) :
    PendingSpared rules (transaction reply body database).2 := by
  unfold transaction
  split
  · rename_i result committed returned
    exact commits result committed returned
  · exact spared

theorem call_pendingSpared {event : Event}
    (unclaimed : (Act.call event).Unclaimed config database)
    (spared : PendingSpared config.urlRules database) :
    PendingSpared config.urlRules (event.after config database) := by
  rcases event with ⟨operation, draws⟩
  by_cases completes : ∃ arguments, operation = .completeTurn arguments
  · rcases completes with ⟨arguments, rfl⟩
    exact transaction_pendingSpared (fun _ _ returned =>
      completeTurn_pendingSpared returned (unclaimed arguments draws rfl) spared) spared
  by_cases deletes : ∃ historyId, operation = .deleteWithArtifactCleanup historyId
  · rcases deletes with ⟨historyId, rfl⟩
    exact transaction_pendingSpared (fun _ _ returned =>
      (deleteWithArtifactCleanup_planned spared returned).pending) spared
  by_cases cascades : ∃ id, operation = .deleteByKnowledgeBaseWithArtifactCleanup id
  · rcases cascades with ⟨id, rfl⟩
    exact transaction_pendingSpared (fun _ _ returned =>
      (deleteByKnowledgeBaseWithArtifactCleanup_planned spared returned).pending) spared
  · exact (run_keeps (fun arguments same => completes ⟨arguments, same⟩)
      (fun historyId same => deletes ⟨historyId, same⟩)
      (fun id same => cascades ⟨id, same⟩)).pendingSpared spared

theorem Act.after_protected {act : Act} {state : State}
    (unclaimed : act.Unclaimed config state.database) (held : Protected config state) :
    Protected config (act.after config state) := by
  cases act with
  | call event => exact ⟨call_pendingSpared unclaimed held.pending, held.executed⟩
  | deleteConversation draws historyId outcome =>
      change Protected config (Artifacts.deleteConversation config draws historyId outcome state).2
      unfold Artifacts.deleteConversation
      split
      · exact held
      · rename_i deleted plan database returned
        have planned := deleteWithArtifactCleanup_planned held.pending returned
        split
        · rename_i safe
          exact executePlan_protected ⟨planned.pending, held.executed⟩ (planned.exclusive safe)
        · exact ⟨planned.pending, held.executed⟩
  | deleteConversationsOf draws knowledgeBaseId outcome =>
      change Protected config
        (Artifacts.deleteConversationsOf config draws knowledgeBaseId outcome state).2
      unfold Artifacts.deleteConversationsOf
      split
      · exact held
      · rename_i count plan database returned
        have planned := deleteByKnowledgeBaseWithArtifactCleanup_planned held.pending returned
        split
        · rename_i safe
          exact executePlan_protected ⟨planned.pending, held.executed⟩ (planned.exclusive safe)
        · exact ⟨planned.pending, held.executed⟩

/-- In a run whose completions denote nothing a checkpointed cleanup still has to
remove, no cleanup is executed on something a conversation denotes. -/
theorem run_cleanups_spare (config : StoreConfig) (acts : List Act)
    (unclaimed : ∀ past act, past ++ [act] <+: acts →
      act.Unclaimed config (run (Act.after config) .initial past).database) :
    ∀ execution ∈ (run (Act.after config) .initial acts).executions,
      SparesConversations config.urlRules execution.references execution.database := by
  suffices held : Protected config (run (Act.after config) .initial acts) from held.executed
  induction acts using List.reverseRecOn with
  | nil => exact .initial
  | append_singleton past act induction =>
      rw [run_concat]
      apply Act.after_protected (unclaimed past act List.prefix_rfl)
      exact induction fun earlier other within =>
        unclaimed earlier other (within.trans (List.prefix_append past [act]))

/-! ## Sample runs -/

/-- The metadata of an answer with one chat upload. -/
def sampleMetadata : List (String × Value) :=
  [("response_payload", .dict [("attachments", .list [
    .dict [("id", .str "0123456789abcdef0123456789abcdef")]])])]

/-- A conversation of one turn, whose answer has the sample upload. -/
def sampleConversation (clientId scopeKey name : String) (now : Timestamp) : List Act :=
  [.call ⟨.beginTurn { Sample.begins "t1" none with
      clientConversationId := clientId, scopeKey := scopeKey }, Sample.draws now name⟩,
    .call ⟨.completeTurn { Sample.completes "t1" name with
      scopeKey := scopeKey, metadata := some sampleMetadata }, Sample.draws now name⟩]

/-- Two conversations share an upload and are deleted one after the other. -/
def sharedRun : List Act :=
  sampleConversation "c" "w:c" "a" 0 ++ sampleConversation "d" "w:d" "b" 10 ++
    [.deleteConversation (Sample.draws 20 "c") "conversation-a" .succeeded,
      .deleteConversation (Sample.draws 30 "d") "conversation-b" .succeeded]

/-- The cleanup of a deletion fails, another conversation uses the upload, and the
deletion is retried. -/
def retriedRun : List Act :=
  sampleConversation "c" "w:c" "a" 0 ++
    [.deleteConversation (Sample.draws 20 "c") "conversation-a" .failed] ++
    sampleConversation "d" "w:d" "b" 30 ++
    [.deleteConversation (Sample.draws 40 "d") "conversation-a" .succeeded]

theorem run_cleanups_spare_shared :
    ∃ execution ∈ (run (Act.after Sample.config) .initial sharedRun).executions,
      SparesConversations Sample.config.urlRules execution.references execution.database := by
  have spares := run_cleanups_spare Sample.config sharedRun ?_
  · cases executed : (run (Act.after Sample.config) .initial sharedRun).executions with
    | nil =>
        have some : (run (Act.after Sample.config) .initial sharedRun).executions.isEmpty = false := by
          decide +kernel
        rw [executed] at some
        cases some
    | cons execution others =>
        have first : execution ∈ (run (Act.after Sample.config) .initial sharedRun).executions := by
          rw [executed]
          exact List.mem_cons_self
        exact ⟨execution, List.mem_cons_self, spares execution first⟩
  · intro past act within
    have checked : checkEach (fun past act =>
        match act with
        | .call ⟨.completeTurn _, _⟩ =>
            (run (Act.after Sample.config) .initial past).database.cleanupOutbox.isEmpty
        | _ => true) sharedRun = true := by
      decide +kernel
    have here := checkEach_sound checked within
    rintro arguments draws rfl row member
    rw [List.isEmpty_iff.mp here] at member
    cases member

/-- The retry removes the upload that the other conversation denotes. -/
theorem retried_cleanup_hits :
    ¬ ∀ execution ∈ (run (Act.after Sample.config) .initial retriedRun).executions,
      SparesConversations Sample.config.urlRules execution.references execution.database := by
  intro spares
  have hit : ((run (Act.after Sample.config) .initial retriedRun).executions.any fun execution =>
      execution.database.conversations.any fun conversation =>
        (execution.database.messagesOf conversation.id).any fun message =>
          decide ("0123456789abcdef0123456789abcdef" ∈ execution.references.attachmentIds) &&
            decide ("0123456789abcdef0123456789abcdef" ∈
              (messageReferences Sample.config.urlRules message).attachmentIds)) = true := by
    decide +kernel
  simp only [List.any_eq_true, Bool.and_eq_true, decide_eq_true_eq] at hit
  rcases hit with ⟨execution, executed, conversation, stored, message, owned, cleaned, denoted⟩
  exact (spares execution executed conversation stored message owned).attachmentIds _ cleaned
    denoted

end RAGuardian.Artifacts
