import RAGuardian.History.Specifications

/-! # Every call is a chain of effects -/

namespace RAGuardian.History

open Execution Relation

variable {config : StoreConfig} {draws : Draws}

/-- The changes of one call, in order. -/
abbrev Chain (config : StoreConfig) (draws : Draws) : Database → Database → Prop :=
  ReflTransGen (Effect config draws)

/-! ## Retention -/

theorem deleteConversations_chain (rows : List ConversationRow) (database : Database) :
    Chain config draws database (deleteConversations rows database) :=
  chain_foldl (fun _ _ => True) (fun row _ _ => .deleteConversation row.id)
    (fun _ _ _ _ => trivial) (fun _ _ => trivial)

theorem deleteConversationIds_chain (ids : List String) (database : Database) :
    Chain config draws database (deleteConversationIds ids database) :=
  chain_foldl (fun _ _ => True) (fun id _ _ => .deleteConversation id)
    (fun _ _ _ _ => trivial) (fun _ _ => trivial)

/-- No complete row has this key. -/
def IncompleteKey (database : Database) (key : String × String) : Prop :=
  ∀ row ∈ database.turnRequests, row.key = key → row.status ≠ .complete

theorem staleTurns_incomplete {now : Timestamp} {database : Database}
    {stale : String × TurnRow} (member : stale ∈ staleTurns config now database) :
    IncompleteKey database stale.2.key := by
  unfold staleTurns at member
  split at member
  · obtain ⟨row, rowMember, found⟩ := List.mem_filterMap.mp member
    obtain ⟨conversation, -, rfl⟩ := Option.map_eq_some_iff.mp found
    obtain ⟨inTable, old⟩ := List.mem_filter.mp rowMember
    intro other otherMember equal complete
    rw [Table.eq_of_key_eq database.constraints.turnKeys otherMember inTable equal] at complete
    simp [complete] at old
  · cases member

theorem deleteTurns_chain {rows : List (String × TurnRow)} {database : Database}
    (incomplete : ∀ row ∈ rows, IncompleteKey database row.2.key) :
    Chain config draws database (deleteTurns rows database) := by
  refine chain_foldl (fun row database => IncompleteKey database row.2.key)
    (fun row _ guarded => .deleteTurn row.2.key guarded) ?_ incomplete
  intro row other database guarded survivor member
  exact guarded survivor (Table.mem_delete.mp member).1

/-- A retention pass fails expired leases and deletes what is past its time. -/
theorem cleanupExpiredLocked_chain (now : Timestamp) (database : Database) :
    Chain config draws database (cleanupExpiredLocked config now database).2 := by
  refine ReflTransGen.trans (.single (.failTurns _ none ?_))
    ((deleteConversations_chain _ _).trans
      ((deleteTurns_chain fun row member => staleTurns_incomplete member).trans
        (deleteConversations_chain _ _)))
  intro row _ expired complete
  simp [leaseExpired, complete] at expired

/-! ## The operations -/

theorem beginTurn_chain {arguments : BeginTurnArguments} {result : BeginTurnResult}
    {database after : Database}
    (returned : beginTurn config draws arguments database = .ok (result, after)) :
    Chain config draws database after := by
  obtain ⟨scopeKind, created, associated, getOrCreate, associates, handled⟩ :=
    beginTurn_eq_ok returned
  have creation : Chain config draws (retained config draws database) created := by
    rcases getOrCreateConversation_eq_ok getOrCreate with
      ⟨rfl, -⟩ | ⟨-, row, stub, -, -, -, tables⟩
    · exact .refl
    · exact .single (.insertConversation row stub tables)
  have reservation : Chain config draws associated after := by
    rcases handled with ⟨existing, found, replied⟩ | ⟨-, row, reserved, -, -, -, tables⟩
    · have member := (Database.turnRequest_eq_some.mp found).1
      rcases (handleExistingTurn_eq_ok replied).2 with
        ⟨-, rfl, -⟩ | ⟨-, rfl, -⟩ | ⟨-, change, -, changed, tables, -⟩
      · exact .refl
      · exact .refl
      · exact .single (.changeTurn existing change member changed tables)
    · exact .single (.reserve row reserved tables)
  exact (cleanupExpiredLocked_chain draws.now database).trans
    (creation.trans (.head (.associate _ _ associates) reservation))

theorem recoverReadyTurn_chain {scopeKey turnId requestFingerprint : String}
    {expectedLeaseToken : Option String} {result : RecoverResultOf ConversationRow}
    {database after : Database}
    (returned : recoverReadyTurn config draws scopeKey turnId requestFingerprint
      expectedLeaseToken database = .ok (result, after)) :
    Chain config draws database after := by
  obtain ⟨row, found, -, handled⟩ := recoverReadyTurn_eq_ok returned
  have member := (Database.turnForUpdate_eq_some.mp found).1
  rcases handled with ⟨-, rfl, -⟩ | ⟨ready, -, leaseExpiresAt, tables, -⟩
  · exact .refl
  · exact .single (.changeTurn row _ member (.recover row _ _ ready) tables)

theorem markTurnReady_chain {scopeKey turnId leaseToken resultDigest : String}
    {done : Bool} {database after : Database}
    (returned : markTurnReady draws scopeKey turnId leaseToken resultDigest database =
      .ok (done, after)) :
    Chain config draws database after := by
  rcases markTurnReady_eq_ok returned with ⟨-, rfl⟩ | ⟨-, row, found, -, inFlight, tables⟩
  · exact .refl
  · have member := (Database.turnForUpdate_eq_some.mp found).1
    exact .single (.changeTurn row _ member (.stage row _ _ inFlight) tables)

theorem completeTurn_chain {arguments : CompleteTurnArguments} {result : CompleteTurnResult}
    {database after : Database}
    (returned : completeTurn config draws arguments database = .ok (result, after)) :
    Chain config draws database after := by
  obtain ⟨row, -, ⟨-, rfl, -⟩ | ⟨-, conversation, user, assistant, title, encoded, -,
    commit, -⟩⟩ := completeTurn_eq_ok returned
  · exact .refl
  · exact .single (.commit arguments row conversation user assistant title encoded commit)

theorem renewTurnLease_chain (scopeKey turnId leaseToken : String) (database : Database) :
    Chain config draws database
      (renewTurnLease config draws scopeKey turnId leaseToken database).2 := by
  rcases renewTurnLease_cases config draws scopeKey turnId leaseToken database with
    unchanged | ⟨row, found, -, inFlight, renewed⟩
  · rw [unchanged]
  · rw [renewed]
    have member := (Database.turnForUpdate_eq_some.mp found).1
    exact .single (.changeTurn row _ member (.renew row _ _ inFlight) rfl)

theorem failTurn_chain (scopeKey turnId leaseToken : String) (database : Database) :
    Chain config draws database (failTurn draws scopeKey turnId leaseToken database).2 := by
  rcases failTurn_cases draws scopeKey turnId leaseToken database with
    unchanged | ⟨row, found, -, incomplete, failed⟩
  · rw [unchanged]
  · rw [failed]
    have member := (Database.turnForUpdate_eq_some.mp found).1
    refine .single (.failTurns _ _ ?_)
    intro other otherMember selected
    rw [Table.eq_of_key_eq database.constraints.turnKeys otherMember member
      (by simpa using selected)]
    exact incomplete

theorem resetContinuity_chain {historyId : String} {result : ContinuityResult}
    {database after : Database}
    (returned : resetContinuity draws historyId database = .ok (result, after)) :
    Chain config draws database after := by
  simp only [resetContinuity, bind_eq_ok, pure_eq_ok, Prod.mk.injEq] at returned
  obtain ⟨row, -, -, rfl⟩ := returned
  refine .single (.failTurns _ _ ?_)
  intro row _ expired complete
  simp [leaseExpired, complete] at expired

theorem stagedDeletion_chain {database staged : Database}
    (staging : staged = database ∨ ∃ row, staged = database.stageCleanup row) :
    Chain config draws database staged := by
  rcases staging with rfl | ⟨row, rfl⟩
  · exact .refl
  · exact .single (.stageCleanup row)

/-- A transaction leaves what its body committed, or the database it found. -/
theorem transaction_chain {reply : α → Except StoreError β}
    {body : Database → Except StoreError (α × Database)} {database : Database}
    (chained : ∀ result after, body database = .ok (result, after) →
      Chain config draws database after) :
    Chain config draws database (transaction reply body database).2 := by
  unfold transaction
  split
  · rename_i result committed returned
    exact chained result committed returned
  · exact .refl

/-- A reply means that the body committed. -/
theorem transaction_eq_ok {reply : α → Except StoreError β}
    {body : Database → Except StoreError (α × Database)} {database : Database} {value : β}
    (replied : (transaction reply body database).1 = .ok value) :
    ∃ result, reply result = .ok value ∧
      body database = .ok (result, (transaction reply body database).2) := by
  unfold transaction at replied ⊢
  split at replied
  · rename_i result committed returned
    exact ⟨result, replied, returned⟩
  · cases replied

/-- The store refines the effects: whatever a call does is a chain of them. -/
theorem Operation.run_chain (operation : Operation) (database : Database) :
    Chain config draws database (operation.run config draws database).2 := by
  cases operation with
  | beginTurn arguments => exact transaction_chain fun _ _ => beginTurn_chain
  | markTurnReady scopeKey turnId leaseToken resultDigest =>
      exact transaction_chain fun _ _ => markTurnReady_chain
  | completeTurn arguments => exact transaction_chain fun _ _ => completeTurn_chain
  | recoverReadyTurn scopeKey turnId requestFingerprint expectedLeaseToken =>
      exact transaction_chain fun _ _ => recoverReadyTurn_chain
  | renewTurnLease scopeKey turnId leaseToken =>
      exact renewTurnLease_chain scopeKey turnId leaseToken database
  | failTurn scopeKey turnId leaseToken =>
      exact failTurn_chain scopeKey turnId leaseToken database
  | resetContinuity historyId => exact transaction_chain fun _ _ => resetContinuity_chain
  | cleanupExpired now => exact cleanupExpiredLocked_chain (now.getD draws.now) database
  | updateConversation historyId title archived =>
      refine transaction_chain fun _ _ returned => ?_
      obtain ⟨update, quiet, rfl⟩ := updateConversation_eq_ok returned
      exact .single (.editConversation historyId update quiet)
  | updateSummary scopeKey summary expectedVersion throughSequence =>
      rcases updateSummary_cases draws scopeKey summary expectedVersion throughSequence
        database with unchanged | ⟨id, update, quiet, updated⟩
      · exact (congrArg (Chain config draws database) unchanged).mpr .refl
      · exact (congrArg (Chain config draws database) updated).mpr
          (.single (.editConversation id update quiet))
  | delete historyId =>
      show Chain config draws database (History.delete historyId database).2
      unfold History.delete
      split
      · exact .single (.deleteConversation historyId)
      · exact .refl
  | deleteWithArtifactCleanup historyId =>
      refine transaction_chain fun _ _ returned => ?_
      rcases deleteWithArtifactCleanup_eq_ok returned with rfl | ⟨staged, staging, rfl⟩
      · exact .refl
      · exact (stagedDeletion_chain staging).tail (.deleteConversation historyId)
  | completeArtifactCleanup cleanupKey =>
      show Chain config draws database (History.completeArtifactCleanup cleanupKey database).2
      unfold History.completeArtifactCleanup
      split
      · exact .refl
      · exact .single (.deleteCleanup cleanupKey)
  | deleteByKnowledgeBase knowledgeBaseId => exact deleteConversationIds_chain _ database
  | deleteByKnowledgeBaseWithArtifactCleanup knowledgeBaseId =>
      refine transaction_chain fun _ _ returned => ?_
      rcases deleteByKnowledgeBaseWithArtifactCleanup_eq_ok returned with
        ⟨-, rfl⟩ | ⟨staged, staging, rfl⟩
      · exact .refl
      · exact (stagedDeletion_chain staging).trans (deleteConversationIds_chain _ staged)
  | quotaStatus => exact cleanupExpiredLocked_chain draws.now database

/-- A property every effect preserves holds after every run of the store. -/
theorem run_preserves {invariant : Database → Prop}
    (preserved : ∀ draws before after, Effect config draws before after →
      invariant before → invariant after)
    (events : List Event) {database : Database} (holds : invariant database) :
    invariant (run (Event.after config) database events) :=
  run_invariant (fun _ => True)
    (fun event database _ held => chain_invariant (preserved event.draws)
      (event.operation.run_chain database) held)
    events (fun _ _ => trivial) holds

end RAGuardian.History
