import RAGuardian.Artifacts.Ownership
import RAGuardian.Artifacts.Readability

/-! # The cleanup outbox over a run

A safe plan is checkpointed under a key until its cleanup is complete. A ledger keeps
what is owed under every key, and the outbox is compared with it. -/

namespace RAGuardian.Artifacts

open Json History Execution

variable {config : StoreConfig} {draws : Draws} {rules : UrlRules} {database : Database}

/-! ## The ledger -/

def References.without (left right : References) : References where
  attachmentIds := left.attachmentIds \ right.attachmentIds
  imageNames := left.imageNames \ right.imageNames
  runIds := left.runIds \ right.runIds

/-- What was staged under each key and is not completed, and what cleanups for the key
have included since it was staged. -/
structure Ledger where
  owed : String → References
  cleaned : String → References

namespace Ledger

def empty : Ledger := ⟨fun _ => .empty, fun _ => .empty⟩

def stage (cleanupKey : String) (references : References) (ledger : Ledger) : Ledger where
  owed := Function.update ledger.owed cleanupKey ((ledger.owed cleanupKey).union references)
  cleaned :=
    Function.update ledger.cleaned cleanupKey ((ledger.cleaned cleanupKey).without references)

def cleanup (cleanupKey : String) (references : References) (ledger : Ledger) : Ledger where
  owed := ledger.owed
  cleaned :=
    Function.update ledger.cleaned cleanupKey ((ledger.cleaned cleanupKey).union references)

def complete (cleanupKey : String) (ledger : Ledger) : Ledger where
  owed := Function.update ledger.owed cleanupKey
    ((ledger.owed cleanupKey).without (ledger.cleaned cleanupKey))
  cleaned := ledger.cleaned

end Ledger

/-- The references a deletion stages: those of a safe plan it has just made. -/
def Deletion.staged (config : StoreConfig) (draws : Draws) (database : Database)
    (deletion : Deletion) : Option References :=
  if deletion.targets database = [] then none
  else
    match deletion.perform config draws database with
    | .ok (plan, _) => if plan.safe then some plan.exclusive else none
    | .error _ => none

/-- The deletion a call of the store is. -/
def Deletion.of? : Operation → Option Deletion
  | .deleteWithArtifactCleanup historyId => some (.conversation historyId)
  | .deleteByKnowledgeBaseWithArtifactCleanup knowledgeBaseId =>
      some (.knowledgeBase knowledgeBaseId)
  | _ => none

/-- What a call of the store means for the ledger. -/
def Ledger.after (config : StoreConfig) (event : Event) (database : Database)
    (ledger : Ledger) : Ledger :=
  match Deletion.of? event.operation with
  | some deletion =>
      match deletion.staged config event.draws database with
      | some references => ledger.stage deletion.cleanupKey references
      | none => ledger
  | none =>
      match event.operation with
      | .completeArtifactCleanup cleanupKey => ledger.complete cleanupKey
      | _ => ledger

/-! ## Runs -/

/-- A call of the store, or a cleanup executed for a key. -/
inductive Step
  | call (event : Event)
  | cleanup (cleanupKey : String) (references : References)

/-- The database of a workspace, with the ledger of its cleanups. -/
structure Books where
  database : Database
  ledger : Ledger

def Books.initial : Books := ⟨.empty, .empty⟩

def Step.after (config : StoreConfig) : Step → Books → Books
  | .call event, books =>
      ⟨event.after config books.database, books.ledger.after config event books.database⟩
  | .cleanup cleanupKey references, books =>
      { books with ledger := books.ledger.cleanup cleanupKey references }

/-- The conversations chosen denote all of these references, and no other conversation
denotes any. -/
structure OwnedAgain (rules : UrlRules) (conversationIds : List String) (database : Database)
    (references : References) : Prop where
  decoded : ∀ message ∈ database.messages,
    ∃ metadata, message.metadata.loads (.dict []) = some metadata
  attachmentIds : ∀ attachmentId ∈ references.attachmentIds,
    (∃ message ∈ targetMessages conversationIds database,
      attachmentId ∈ (messageReferences rules message).attachmentIds) ∧
    ∀ message ∈ otherMessages conversationIds database,
      attachmentId ∉ (messageReferences rules message).attachmentIds
  imageNames : ∀ imageName ∈ references.imageNames,
    (∃ message ∈ targetMessages conversationIds database,
      imageName ∈ (messageReferences rules message).imageNames) ∧
    ∀ message ∈ otherMessages conversationIds database,
      imageName ∉ (messageReferences rules message).imageNames ∧
      ∀ runId, runIdForImage imageName = some runId →
        runId ∉ (messageReferences rules message).runIds
  runIds : ∀ runId ∈ references.runIds,
    (∃ message ∈ targetMessages conversationIds database,
      runId ∈ (messageReferences rules message).runIds) ∧
    ∀ message ∈ otherMessages conversationIds database,
      runId ∉ (messageReferences rules message).runIds

/-- A deletion that finds conversations under the key of a stored row finds that they
own everything in the row again, and a completion follows cleanups of everything in its
row. -/
def Step.Undisturbed (config : StoreConfig) (books : Books) : Step → Prop
  | .call event =>
      (∀ deletion, Deletion.of? event.operation = some deletion →
        deletion.targets books.database ≠ [] →
        ∀ row ∈ books.database.cleanupOutbox, row.cleanupKey = deletion.cleanupKey →
        ∀ references, outboxReferences row = .ok references → references ≠ .empty →
          OwnedAgain config.urlRules (deletion.targets books.database) books.database
            references) ∧
      ∀ cleanupKey, event.operation = .completeArtifactCleanup cleanupKey →
        ∀ row ∈ books.database.cleanupOutbox, row.cleanupKey = cleanupKey →
        ∀ references, outboxReferences row = .ok references →
          references.Within (books.ledger.cleaned cleanupKey)
  | .cleanup _ _ => True

/-! ## Calls that leave the outbox alone -/

section

variable {after : Database}

theorem transaction_cleanupOutbox {reply : α → Except StoreError β}
    {body : Database → Except StoreError (α × Database)}
    (commits : ∀ result after, body database = .ok (result, after) →
      after.cleanupOutbox = database.cleanupOutbox) :
    (transaction reply body database).2.cleanupOutbox = database.cleanupOutbox := by
  unfold transaction
  split
  · rename_i result committed returned
    exact commits result committed returned
  · rfl

theorem outbox_of_tables {tables : Tables} (same : after.toTables = tables)
    (unchanged : tables.cleanupOutbox = database.cleanupOutbox) :
    after.cleanupOutbox = database.cleanupOutbox := by
  rw [← unchanged, ← same]

theorem foldl_cleanupOutbox {step : Database → α → Database}
    (single : ∀ item database, (step database item).cleanupOutbox = database.cleanupOutbox)
    (items : List α) (database : Database) :
    (items.foldl step database).cleanupOutbox = database.cleanupOutbox :=
  @foldl_invariant _ _ step (fun state => state.cleanupOutbox = database.cleanupOutbox)
    (fun item state same => (single item state).trans same) items database rfl

theorem cleanupExpiredLocked_cleanupOutbox (config : StoreConfig) (now : Timestamp)
    (database : Database) :
    (cleanupExpiredLocked config now database).2.cleanupOutbox = database.cleanupOutbox := by
  have conversations (rows : List ConversationRow) (database : Database) :
      (deleteConversations rows database).cleanupOutbox = database.cleanupOutbox := by
    apply foldl_cleanupOutbox
    intro row database
    rfl
  have turns (rows : List (String × TurnRow)) (database : Database) :
      (deleteTurns rows database).cleanupOutbox = database.cleanupOutbox := by
    apply foldl_cleanupOutbox
    intro row database
    rfl
  simp only [cleanupExpiredLocked, conversations, turns]
  rfl

theorem beginTurn_cleanupOutbox {arguments : BeginTurnArguments} {result : BeginTurnResult}
    (returned : beginTurn config draws arguments database = .ok (result, after)) :
    after.cleanupOutbox = database.cleanupOutbox := by
  rcases beginTurn_eq_ok returned with
    ⟨scopeKind, created, associated, getOrCreate, associates, handled⟩
  have creation : created.cleanupOutbox = database.cleanupOutbox := by
    refine Eq.trans ?_ (cleanupExpiredLocked_cleanupOutbox config draws.now database)
    rcases getOrCreateConversation_eq_ok getOrCreate with
      ⟨rfl, -⟩ | ⟨-, row, -, -, -, -, tables⟩
    · rfl
    · exact outbox_of_tables tables rfl
  have association : associated.cleanupOutbox = created.cleanupOutbox :=
    outbox_of_tables associates.tables rfl
  have reservation : after.cleanupOutbox = associated.cleanupOutbox := by
    rcases handled with ⟨existing, -, replied⟩ | ⟨-, row, -, -, -, -, tables⟩
    · rcases (handleExistingTurn_eq_ok replied).2 with
        ⟨-, rfl, -⟩ | ⟨-, rfl, -⟩ | ⟨-, change, -, -, tables, -⟩
      · rfl
      · rfl
      · exact outbox_of_tables tables rfl
    · exact outbox_of_tables tables rfl
  exact reservation.trans (association.trans creation)

/-- The outbox is written by planned deletions and completed cleanups only. -/
theorem run_cleanupOutbox {operation : Operation} (deletes : Deletion.of? operation = none)
    (completes : ∀ cleanupKey, operation ≠ .completeArtifactCleanup cleanupKey) :
    (operation.run config draws database).2.cleanupOutbox = database.cleanupOutbox := by
  cases operation with
  | beginTurn arguments => exact transaction_cleanupOutbox fun _ _ => beginTurn_cleanupOutbox
  | markTurnReady scopeKey turnId leaseToken resultDigest =>
      refine transaction_cleanupOutbox fun _ _ returned => ?_
      rcases markTurnReady_eq_ok returned with ⟨-, rfl⟩ | ⟨-, row, -, -, -, tables⟩
      · rfl
      · exact outbox_of_tables tables rfl
  | completeTurn arguments =>
      exact transaction_cleanupOutbox fun _ _ returned => (completeTurn_messages returned).1
  | recoverReadyTurn scopeKey turnId requestFingerprint expectedLeaseToken =>
      refine transaction_cleanupOutbox fun _ _ returned => ?_
      rcases recoverReadyTurn_eq_ok returned with
        ⟨row, -, -, ⟨-, rfl, -⟩ | ⟨-, -, leaseExpiresAt, tables, -⟩⟩
      · rfl
      · exact outbox_of_tables tables rfl
  | renewTurnLease scopeKey turnId leaseToken =>
      change (renewTurnLease config draws scopeKey turnId leaseToken database).2.cleanupOutbox = _
      rcases renewTurnLease_cases config draws scopeKey turnId leaseToken database with
        same | ⟨row, -, -, -, same⟩
      · rw [same]
      · rw [same]
        rfl
  | failTurn scopeKey turnId leaseToken =>
      change (failTurn draws scopeKey turnId leaseToken database).2.cleanupOutbox = _
      rcases failTurn_cases draws scopeKey turnId leaseToken database with
        same | ⟨row, -, -, -, same⟩
      · rw [same]
      · rw [same]
        rfl
  | resetContinuity historyId =>
      refine transaction_cleanupOutbox fun _ _ returned => ?_
      simp only [resetContinuity, bind_eq_ok, pure_eq_ok, Prod.mk.injEq] at returned
      rcases returned with ⟨row, -, -, rfl⟩
      rfl
  | cleanupExpired now => exact cleanupExpiredLocked_cleanupOutbox config _ database
  | updateConversation historyId title archived =>
      refine transaction_cleanupOutbox fun _ _ returned => ?_
      rcases updateConversation_eq_ok returned with ⟨update, -, rfl⟩
      rfl
  | updateSummary scopeKey summary expectedVersion throughSequence =>
      change (updateSummary draws scopeKey summary expectedVersion throughSequence
        database).2.cleanupOutbox = _
      rcases updateSummary_cases draws scopeKey summary expectedVersion throughSequence
        database with same | ⟨id, update, -, same⟩
      · rw [same]
      · rw [same]
        rfl
  | delete historyId =>
      change (delete historyId database).2.cleanupOutbox = _
      unfold delete
      split
      · rfl
      · rfl
  | deleteWithArtifactCleanup historyId => cases deletes
  | completeArtifactCleanup cleanupKey => exact absurd rfl (completes cleanupKey)
  | deleteByKnowledgeBase knowledgeBaseId => exact deleteConversationIds_cleanupOutbox _ database
  | deleteByKnowledgeBaseWithArtifactCleanup knowledgeBaseId => cases deletes
  | quotaStatus => exact cleanupExpiredLocked_cleanupOutbox config draws.now database

end

/-! ## What a key is owed -/

/-- The references stored under a key. -/
def Stored (cleanupKey : String) (references : References) (database : Database) : Prop :=
  ∃ row ∈ database.cleanupOutbox, row.cleanupKey = cleanupKey ∧
    outboxReferences row = .ok references

/-- The outbox holds everything that is owed. -/
def Covers (books : Books) : Prop :=
  ∀ cleanupKey, books.ledger.owed cleanupKey = .empty ∨
    ∃ references, Stored cleanupKey references books.database ∧
      (books.ledger.owed cleanupKey).Within references

theorem References.empty_within (references : References) : References.empty.Within references := by
  constructor <;> simp [References.empty]

/-- What conversations own again is exclusive to a plan over them. -/
theorem OwnedAgain.within {conversationIds : List String} {references : References}
    (owned : OwnedAgain rules conversationIds database references) :
    references.Within (exclusiveReferences
      (denotedIn rules (targetMessages conversationIds database))
      (denotedIn rules (otherMessages conversationIds database))) where
  attachmentIds attachmentId member := by
    have owners := owned.attachmentIds attachmentId member
    rw [exclusiveReferences, Finset.mem_sdiff, mem_denotedIn_attachmentIds,
      mem_denotedIn_attachmentIds]
    refine ⟨owners.1, ?_⟩
    rintro ⟨message, other, denoted⟩
    exact owners.2 message other denoted
  imageNames imageName member := by
    have owners := owned.imageNames imageName member
    rw [exclusiveReferences, Finset.mem_filter, Finset.mem_sdiff, mem_denotedIn_imageNames,
      mem_denotedIn_imageNames]
    refine ⟨⟨owners.1, ?_⟩, ?_⟩
    · rintro ⟨message, other, denoted⟩
      exact (owners.2 message other).1 denoted
    · rw [Option.all_eq_true]
      intro runId parsed
      rw [decide_eq_true_iff, mem_denotedIn_runIds]
      rintro ⟨message, other, denoted⟩
      exact (owners.2 message other).2 runId parsed denoted
  runIds runId member := by
    have owners := owned.runIds runId member
    rw [exclusiveReferences, Finset.mem_sdiff, mem_denotedIn_runIds, mem_denotedIn_runIds]
    refine ⟨owners.1, ?_⟩
    rintro ⟨message, other, denoted⟩
    exact owners.2 message other denoted

theorem References.within_exclusive_of_owned {conversationIds : List String} {plan : DeletionPlan}
    {references : References} (nonempty : conversationIds ≠ [])
    (planned : artifactCleanupPlanLocked config conversationIds database = .ok plan)
    (owned : references ≠ .empty →
      OwnedAgain config.urlRules conversationIds database references) :
    references.Within plan.exclusive := by
  by_cases nothing : references = .empty
  · rw [nothing]
    exact References.empty_within _
  · have safe : plan.safe = true := by
      rw [artifactCleanupPlanLocked_safe nonempty planned, List.all_eq_true]
      intro message member
      exact Option.isSome_iff_exists.mpr ((owned nothing).decoded message member)
    rw [artifactCleanupPlanLocked_exclusive planned safe]
    exact (owned nothing).within

/-- A deletion that finds nothing reads the outbox and changes nothing. -/
theorem perform_none {deletion : Deletion} {plan : DeletionPlan} {after : Database}
    (none : deletion.targets database = [])
    (performed : deletion.perform config draws database = .ok (plan, after)) :
    after = database ∧
      ∃ ids, artifactCleanupOutboxLocked deletion.cleanupKey ids database = .ok plan := by
  cases deletion with
  | conversation historyId =>
      have absent : (database.conversationById historyId).isNone := by
        by_contra present
        simp [Deletion.targets, present] at none
      simp only [Deletion.perform, deleteWithArtifactCleanup, if_pos absent] at performed
      cases planned : artifactCleanupOutboxLocked ("conversation:" ++ historyId) [historyId]
          database with
      | error raised =>
          rw [planned] at performed
          cases performed
      | ok found =>
          rw [planned] at performed
          cases performed
          exact ⟨rfl, _, planned⟩
  | knowledgeBase knowledgeBaseId =>
      simp only [Deletion.targets] at none
      simp only [Deletion.perform, deleteByKnowledgeBaseWithArtifactCleanup, if_pos none]
        at performed
      cases planned : artifactCleanupOutboxLocked ("knowledge-base:" ++ knowledgeBaseId) []
          database with
      | error raised =>
          rw [planned] at performed
          cases performed
      | ok found =>
          rw [planned] at performed
          cases performed
          exact ⟨rfl, _, planned⟩

/-- A deletion that finds nothing gives back what is stored under its key. -/
theorem perform_stored {deletion : Deletion} {plan : DeletionPlan} {after : Database}
    {references : References} (none : deletion.targets database = [])
    (stored : Stored deletion.cleanupKey references database)
    (performed : deletion.perform config draws database = .ok (plan, after)) :
    plan.exclusive = references := by
  obtain ⟨-, ids, planned⟩ := perform_none none performed
  obtain ⟨row, member, key, reads⟩ := stored
  have found := (Table.find?_eq_some_iff_of_unique
    database.constraints.cleanupKeys).mpr ⟨member, key⟩
  simp only [artifactCleanupOutboxLocked, found, reads] at planned
  cases planned
  rfl

/-- In a state that covers what is owed, a deletion returns all of it. -/
theorem Covers.returned {books : Books} {event : Event} {deletion : Deletion}
    {plan : DeletionPlan} {after : Database} (covers : Covers books)
    (undisturbed : (Step.call event).Undisturbed config books)
    (deletes : Deletion.of? event.operation = some deletion)
    (performed : deletion.perform config event.draws books.database = .ok (plan, after)) :
    (books.ledger.owed deletion.cleanupKey).Within plan.exclusive := by
  rcases covers deletion.cleanupKey with nothing | ⟨references, stored, within⟩
  · rw [nothing]
    exact References.empty_within _
  by_cases none : deletion.targets books.database = []
  · rw [perform_stored none stored performed]
    exact within
  · rw [Deletion.perform_eq none] at performed
    simp only [bind_eq_ok, pure_eq_ok, Prod.mk.injEq] at performed
    obtain ⟨planned, plans, -, -, rfl, -⟩ := performed
    obtain ⟨row, member, key, reads⟩ := stored
    refine within.trans (References.within_exclusive_of_owned none plans ?_)
    exact undisturbed.1 deletion deletes none row member key references reads

/-! ## Steps -/

theorem Event.after_of_deletion {event : Event} {deletion : Deletion}
    (deletes : Deletion.of? event.operation = some deletion) :
    event.after config database =
      match deletion.perform config event.draws database with
      | .ok (_, after) => after
      | .error _ => database := by
  rcases event with ⟨operation, draws⟩
  cases operation with
  | deleteWithArtifactCleanup historyId =>
      cases deletes
      simp only [Event.after, Operation.run, transaction, Deletion.perform]
      cases deleteWithArtifactCleanup config draws historyId database <;> rfl
  | deleteByKnowledgeBaseWithArtifactCleanup knowledgeBaseId =>
      cases deletes
      simp only [Event.after, Operation.run, transaction, Deletion.perform]
      cases deleteByKnowledgeBaseWithArtifactCleanup config draws knowledgeBaseId database <;> rfl
  | _ => cases deletes

theorem Stored.stageCleanup {cleanupKey : String} {references : References} {row : OutboxRow}
    (stored : Stored cleanupKey references database) (other : cleanupKey ≠ row.cleanupKey) :
    Stored cleanupKey references (database.stageCleanup row) := by
  obtain ⟨kept, member, key, reads⟩ := stored
  refine ⟨kept, ?_, key, reads⟩
  change kept ∈ (if _ then _ else _)
  split
  · refine Table.mem_update.mpr ⟨kept, member, ?_⟩
    rw [if_neg]
    rw [beq_iff_eq, key]
    exact other
  · exact List.mem_append_left _ member

theorem Stored.congr {cleanupKey : String} {references : References} {after : Database}
    (stored : Stored cleanupKey references database)
    (same : after.cleanupOutbox = database.cleanupOutbox) :
    Stored cleanupKey references after := by
  unfold Stored
  rw [same]
  exact stored

theorem Covers.of_same {books after : Books} (covers : Covers books)
    (outbox : after.database.cleanupOutbox = books.database.cleanupOutbox)
    (owed : after.ledger.owed = books.ledger.owed) : Covers after := by
  intro cleanupKey
  rw [owed]
  refine (covers cleanupKey).imp_right fun ⟨references, stored, within⟩ => ?_
  exact ⟨references, stored.congr outbox, within⟩

/-- A checkpoint stores what it adds to the ledger, and keeps the rows of all other
keys. -/
theorem Covers.stage {books after : Books} {row : OutboxRow} {references : References}
    (covers : Covers books)
    (outbox : after.database.cleanupOutbox =
      (books.database.stageCleanup row).cleanupOutbox)
    (reads : outboxReferences row = .ok references)
    (owed : (books.ledger.owed row.cleanupKey).Within references)
    (ledger : after.ledger = books.ledger.stage row.cleanupKey references) : Covers after := by
  intro cleanupKey
  rw [ledger, Ledger.stage]
  by_cases same : cleanupKey = row.cleanupKey
  · subst same
    right
    refine ⟨references, ?_, ?_⟩
    · exact Stored.congr ⟨row, mem_stageCleanup_self row books.database, rfl, reads⟩ outbox
    · simp only [Function.update_self]
      exact ⟨Finset.union_subset owed.attachmentIds subset_rfl,
        Finset.union_subset owed.imageNames subset_rfl,
        Finset.union_subset owed.runIds subset_rfl⟩
  · simp only [Function.update_of_ne same]
    refine (covers cleanupKey).imp_right fun ⟨stored, found, within⟩ => ?_
    exact ⟨stored, (found.stageCleanup same).congr outbox, within⟩

/-- A completion takes nothing that is still owed, and keeps the rows of all other
keys. -/
theorem Covers.complete {books : Books} {cleanupKey : String} (covers : Covers books)
    (cleaned : ∀ row ∈ books.database.cleanupOutbox, row.cleanupKey = cleanupKey →
      ∀ references, outboxReferences row = .ok references →
        references.Within (books.ledger.cleaned cleanupKey)) :
    Covers ⟨(completeArtifactCleanup cleanupKey books.database).2,
      books.ledger.complete cleanupKey⟩ := by
  intro other
  simp only [Ledger.complete]
  by_cases same : other = cleanupKey
  · subst same
    left
    rw [Function.update_self]
    have covered : (books.ledger.owed other).Within (books.ledger.cleaned other) := by
      rcases covers other with nothing | ⟨references, ⟨row, member, key, reads⟩, within⟩
      · rw [nothing]
        exact References.empty_within _
      · exact within.trans (cleaned row member key references reads)
    simp only [References.without, References.empty, References.mk.injEq,
      Finset.sdiff_eq_empty_iff_subset]
    exact ⟨covered.attachmentIds, covered.imageNames, covered.runIds⟩
  · rw [Function.update_of_ne same]
    refine (covers other).imp_right ?_
    rintro ⟨references, ⟨row, member, key, reads⟩, within⟩
    refine ⟨references, ⟨row, ?_, key, reads⟩, within⟩
    unfold completeArtifactCleanup
    split
    · exact member
    · refine Table.mem_delete.mpr ⟨member, ?_⟩
      rw [beq_eq_false_iff_ne, key]
      exact same

/-- A deletion stages what it returns, and keeps the rows of all other keys. -/
theorem Covers.deletion {books : Books} {event : Event} {deletion : Deletion}
    (covers : Covers books) (undisturbed : (Step.call event).Undisturbed config books)
    (deletes : Deletion.of? event.operation = some deletion) :
    Covers ((Step.call event).after config books) := by
  have changes : event.after config books.database =
      match deletion.perform config event.draws books.database with
      | .ok (_, after) => after
      | .error _ => books.database := Event.after_of_deletion deletes
  cases performed : deletion.perform config event.draws books.database with
  | error raised =>
      rw [performed] at changes
      refine covers.of_same (congrArg (fun database => database.cleanupOutbox) changes) ?_
      simp [Step.after, Ledger.after, deletes, Deletion.staged, performed]
  | ok result =>
      obtain ⟨plan, after⟩ := result
      rw [performed] at changes
      by_cases none : deletion.targets books.database = []
      · have same := (perform_none none performed).1
        refine covers.of_same
          (congrArg (fun database => database.cleanupOutbox) (changes.trans same)) ?_
        simp [Step.after, Ledger.after, deletes, Deletion.staged, none]
      · have returned := covers.returned undisturbed deletes performed
        have parts := performed
        rw [Deletion.perform_eq none] at parts
        simp only [bind_eq_ok, pure_eq_ok, Prod.mk.injEq] at parts
        obtain ⟨_, -, staged, stages, rfl, rfl⟩ := parts
        have outbox : ((Step.call event).after config books).database.cleanupOutbox =
            staged.cleanupOutbox := by
          change (event.after config books.database).cleanupOutbox = _
          rw [changes]
          exact deleteConversationIds_cleanupOutbox _ staged
        unfold stageSafePlan at stages
        split at stages
        · rename_i safe
          obtain ⟨row, rfl, key, reads⟩ := stageArtifactCleanupLocked_eq_ok stages
          rw [← key] at returned
          refine covers.stage outbox reads returned ?_
          simp [Step.after, Ledger.after, deletes, Deletion.staged, none, performed, safe, key]
        · rename_i notSafe
          cases stages
          refine covers.of_same outbox ?_
          simp [Step.after, Ledger.after, deletes, Deletion.staged, performed, notSafe]

theorem Step.after_covers {step : Step} {books : Books}
    (undisturbed : step.Undisturbed config books) (covers : Covers books) :
    Covers (step.after config books) := by
  cases step with
  | cleanup cleanupKey references => exact covers.of_same rfl rfl
  | call event =>
      cases deletes : Deletion.of? event.operation with
      | some deletion => exact covers.deletion undisturbed deletes
      | none =>
          by_cases completes : ∃ cleanupKey, event.operation = .completeArtifactCleanup cleanupKey
          · obtain ⟨cleanupKey, same⟩ := completes
            have step : (Step.call event).after config books =
                ⟨(completeArtifactCleanup cleanupKey books.database).2,
                  books.ledger.complete cleanupKey⟩ := by
              simp only [Step.after, Event.after, Ledger.after, same, Deletion.of?]
              rfl
            rw [step]
            exact covers.complete (undisturbed.2 cleanupKey same)
          · refine covers.of_same ?_ ?_
            · exact run_cleanupOutbox deletes fun cleanupKey same => completes ⟨cleanupKey, same⟩
            · simp only [Step.after, Ledger.after, deletes]
              split
              · rename_i cleanupKey same
                exact absurd ⟨cleanupKey, same⟩ completes
              · rfl

/-- In an undisturbed run, everything that is owed under the key of a deletion is among
the exclusive references it returns. -/
theorem run_returns_owed (config : StoreConfig) (steps : List Step)
    (undisturbed : ∀ past step, past ++ [step] <+: steps →
      step.Undisturbed config (run (Step.after config) .initial past)) :
    ∀ past event deletion plan after, past ++ [.call event] <+: steps →
      Deletion.of? event.operation = some deletion →
      deletion.perform config event.draws (run (Step.after config) .initial past).database =
        .ok (plan, after) →
      ((run (Step.after config) .initial past).ledger.owed deletion.cleanupKey).Within
        plan.exclusive := by
  have covered : ∀ past, past <+: steps → Covers (run (Step.after config) .initial past) := by
    intro past
    induction past using List.reverseRecOn with
    | nil =>
        intro _ cleanupKey
        exact .inl rfl
    | append_singleton past step induction =>
        intro within
        rw [run_concat]
        exact Step.after_covers (undisturbed past step within)
          (induction ((List.prefix_append past [step]).trans within))
  intro past event deletion plan after within deletes performed
  exact (covered past ((List.prefix_append past _).trans within)).returned
    (undisturbed past _ within) deletes performed

/-! ## Sample runs -/

/-- A conversation over a knowledge base, whose answer has an upload. -/
def knowledgeConversation (clientId name attachmentId : String) (now : Timestamp) : List Step :=
  [.call ⟨.beginTurn { Sample.begins "t1" none with
      clientConversationId := clientId, scopeKey := "w:" ++ clientId,
      selectedKnowledgeBaseIds := some ["k"] }, Sample.draws now name⟩,
    .call ⟨.completeTurn { Sample.completes "t1" name with
      scopeKey := "w:" ++ clientId, metadata := some [("response_payload", .dict
        [("attachments", .list [.dict [("id", .str attachmentId)]])])] }, Sample.draws now name⟩]

def deletesKnowledge (now : Timestamp) (name : String) : Event :=
  ⟨.deleteByKnowledgeBaseWithArtifactCleanup "k", Sample.draws now name⟩

/-- The cleanup after a deletion fails, and the deletion is repeated. -/
def repeatedDeletion : List Step :=
  knowledgeConversation "c" "a" "0123456789abcdef0123456789abcdef" 0 ++
    [.call (deletesKnowledge 20 "b"), .call (deletesKnowledge 30 "c")]

/-- Before the deletion is repeated, another conversation uses the knowledge base. -/
def reusedKnowledge : List Step :=
  knowledgeConversation "c" "a" "0123456789abcdef0123456789abcdef" 0 ++
    [.call (deletesKnowledge 20 "b")] ++
    knowledgeConversation "d" "d" "fedcba9876543210fedcba9876543210" 30

theorem run_returns_owed_repeatedDeletion :
    ∃ plan after, (Deletion.knowledgeBase "k").perform Sample.config (Sample.draws 30 "c")
        (run (Step.after Sample.config) .initial (repeatedDeletion.take 3)).database =
          .ok (plan, after) ∧
      "0123456789abcdef0123456789abcdef" ∈ plan.exclusive.attachmentIds := by
  have returned := run_returns_owed Sample.config repeatedDeletion ?_ (repeatedDeletion.take 3)
    (deletesKnowledge 30 "c") (.knowledgeBase "k")
  · cases performed : (Deletion.knowledgeBase "k").perform Sample.config (Sample.draws 30 "c")
        (run (Step.after Sample.config) .initial (repeatedDeletion.take 3)).database with
    | error raised =>
        have succeeds : ((Deletion.knowledgeBase "k").perform Sample.config (Sample.draws 30 "c")
            (run (Step.after Sample.config) .initial
              (repeatedDeletion.take 3)).database).toBool = true := by
          decide +kernel
        rw [performed] at succeeds
        cases succeeds
    | ok result =>
        have owed : "0123456789abcdef0123456789abcdef" ∈
            ((run (Step.after Sample.config) .initial (repeatedDeletion.take 3)).ledger.owed
              "knowledge-base:k").attachmentIds := by
          decide +kernel
        exact ⟨result.1, result.2, rfl,
          (returned result.1 result.2 List.prefix_rfl rfl performed).attachmentIds owed⟩
  · intro past step within
    have checked : checkEach (fun past step =>
        match step with
        | .call event =>
            (run (Step.after Sample.config) .initial past).database.cleanupOutbox.isEmpty ||
              (Deletion.of? event.operation).all fun deletion =>
                (deletion.targets
                  (run (Step.after Sample.config) .initial past).database).isEmpty
        | .cleanup _ _ => true) repeatedDeletion = true := by
      decide +kernel
    have plain : checkEach (fun _ step =>
        match step with
        | .call ⟨.completeArtifactCleanup _, _⟩ => false
        | _ => true) repeatedDeletion = true := by
      decide +kernel
    have here := checkEach_sound checked within
    have calls := checkEach_sound plain within
    cases step with
    | cleanup cleanupKey references => trivial
    | call event =>
        refine ⟨?_, ?_⟩
        · intro deletion deletes found row member
          simp only [Bool.or_eq_true, List.isEmpty_iff, deletes, Option.all_some] at here
          rcases here with empty | none
          · rw [empty] at member
            cases member
          · exact absurd none found
        · rintro cleanupKey completes
          rcases event with ⟨operation, draws⟩
          cases completes
          cases calls

/-- The second deletion returns the upload of the new conversation only, and overwrites
what was stored. -/
theorem reusedKnowledge_loses_upload :
    ¬ ∀ (steps past : List Step) (event : Event) (deletion : Deletion) (plan : DeletionPlan)
      (after : Database), past ++ [.call event] <+: steps →
      Deletion.of? event.operation = some deletion →
      deletion.perform Sample.config event.draws
        (run (Step.after Sample.config) .initial past).database = .ok (plan, after) →
      ((run (Step.after Sample.config) .initial past).ledger.owed deletion.cleanupKey).Within
        plan.exclusive := by
  intro returned
  have owed : "0123456789abcdef0123456789abcdef" ∈
      ((run (Step.after Sample.config) .initial reusedKnowledge).ledger.owed
        "knowledge-base:k").attachmentIds := by
    decide +kernel
  have lost : (match (Deletion.knowledgeBase "k").perform Sample.config (Sample.draws 50 "e")
      (run (Step.after Sample.config) .initial reusedKnowledge).database with
      | .ok (plan, _) =>
          decide ("0123456789abcdef0123456789abcdef" ∉ plan.exclusive.attachmentIds)
      | .error _ => false) = true := by
    decide +kernel
  cases performed : (Deletion.knowledgeBase "k").perform Sample.config (Sample.draws 50 "e")
      (run (Step.after Sample.config) .initial reusedKnowledge).database with
  | error raised =>
      rw [performed] at lost
      cases lost
  | ok result =>
      rw [performed] at lost
      have within := returned (reusedKnowledge ++ [.call (deletesKnowledge 50 "e")])
        reusedKnowledge (deletesKnowledge 50 "e") (.knowledgeBase "k") result.1 result.2
        List.prefix_rfl rfl performed
      exact of_decide_eq_true lost (within.attachmentIds owed)

end RAGuardian.Artifacts
