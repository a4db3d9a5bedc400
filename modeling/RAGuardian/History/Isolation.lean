import RAGuardian.History.Retention

/-! # Fingerprint isolation

A turn row answers only the request whose fingerprint it carries. -/

namespace RAGuardian.History

open Execution

variable {config : StoreConfig} {draws : Draws} {database after : Database}

/-- A body that never returns rolls back. -/
theorem transaction_error {reply : α → Except StoreError β}
    {body : Database → Except StoreError (α × Database)}
    (fails : ∀ result after, body database ≠ .ok (result, after)) :
    ∃ raised, transaction reply body database = (.error raised, database) := by
  unfold transaction
  split
  · rename_i result committed returned
    exact absurd returned (fails result committed)
  · rename_i raised _
    exact ⟨raised, rfl⟩

/-- The conversation `begin_turn` works on, when the retention pass spares it. -/
theorem getOrCreateConversation_of_spared {arguments : BeginTurnArguments}
    {scopeKind : ScopeKind} {shown : Conversation} {conversation : ConversationRow}
    (member : conversation ∈ database.conversations)
    (scope : arguments.scopeKey = conversation.scopeKey)
    (spared : conversation.id ∈ (retained config draws database).conversationIds)
    (returned : getOrCreateConversation draws arguments scopeKind
      (retained config draws database) = .ok (shown, after)) :
    after = retained config draws database ∧ shown.id = conversation.id := by
  have found := (retained_reduces config draws database).conversationByScope member spared
  rw [← scope] at found
  rcases getOrCreateConversation_eq_ok returned with
    ⟨rfl, row, sameRow, -, decoded⟩ | ⟨absent, -⟩
  · rw [found] at sameRow
    cases sameRow
    obtain ⟨promptRef, rfl⟩ := conversationRow_eq_ok decoded
    exact ⟨rfl, rfl⟩
  · rw [found] at absent
    cases absent

/-- The row `begin_turn` looks at, when the retention pass spares the
conversation. -/
theorem Associates.turnRequest {conversationId : String} {ids : List String}
    {before : Database} (associates : Associates conversationId ids before after)
    (owner turnId : String) : after.turnRequest owner turnId = before.turnRequest owner turnId := by
  rw [Database.turnRequest, associates.tables, Database.turnRequest]

/-- A begin under another fingerprint fails if the row outlives its retention
pass. -/
theorem beginTurn_rejects {conversation : ConversationRow} {row : TurnRow}
    (member : conversation ∈ database.conversations)
    (stored : database.turnRequest conversation.id row.turnId = some row)
    (outlives : ((retained config draws database).turnRequest conversation.id row.turnId).isSome)
    {arguments : BeginTurnArguments} (scope : arguments.scopeKey = conversation.scopeKey)
    (turn : arguments.turnId = row.turnId)
    (other : arguments.requestFingerprint ≠ row.requestFingerprint) (result : BeginTurnResult) :
    beginTurn config draws arguments database ≠ .ok (result, after) := by
  intro returned
  obtain ⟨survivor, found⟩ := Option.isSome_iff_exists.mp outlives
  obtain ⟨survivorMember, survivorKey⟩ := Database.turnRequest_eq_some.mp found
  have spared : conversation.id ∈ (retained config draws database).conversationIds := by
    have owner : survivor.conversationId = conversation.id := congrArg Prod.fst survivorKey
    exact owner ▸ (retained config draws database).constraints.turnOwners survivor survivorMember
  have sameRequest : survivor.requestFingerprint = row.requestFingerprint := by
    obtain ⟨old, oldFound, same⟩ := (retained_reduces config draws database).turnRequest found
    rw [stored] at oldFound
    cases oldFound
    exact same
  obtain ⟨scopeKind, created, associated, getOrCreate, associates, handled⟩ :=
    beginTurn_eq_ok returned
  obtain ⟨rfl, shownId⟩ := getOrCreateConversation_of_spared member scope spared getOrCreate
  rw [associates.turnRequest, shownId, turn, found] at handled
  rcases handled with ⟨existing, same, replied⟩ | ⟨absent, -⟩
  · cases same
    exact other ((handleExistingTurn_eq_ok replied).1.symm.trans sameRequest)
  · cases absent

/-- Once its retention pass has removed the row, a begin starts a new
reservation under a lease of its own. -/
theorem beginTurn_renews {conversation : ConversationRow} {turnId : String}
    (member : conversation ∈ database.conversations)
    (removed : (retained config draws database).turnRequest conversation.id turnId = none)
    {arguments : BeginTurnArguments} (scope : arguments.scopeKey = conversation.scopeKey)
    (turn : arguments.turnId = turnId) {result : BeginTurnResult}
    (returned : beginTurn config draws arguments database = .ok (result, after)) :
    ∃ leaseExpiresAt, result.reply = .new draws.leaseToken leaseExpiresAt := by
  obtain ⟨scopeKind, created, associated, getOrCreate, associates, handled⟩ :=
    beginTurn_eq_ok returned
  have none : associated.turnRequest result.conversation.id arguments.turnId = none := by
    rw [associates.turnRequest, turn]
    by_cases spared : conversation.id ∈ (retained config draws database).conversationIds
    · obtain ⟨rfl, shownId⟩ := getOrCreateConversation_of_spared member scope spared getOrCreate
      rw [shownId, removed]
    · rcases getOrCreateConversation_eq_ok getOrCreate with
        ⟨rfl, row, found, -, decoded⟩ | ⟨-, row, stub, -, sameId, -, tables⟩
      · obtain ⟨rowMember, inScope⟩ := Database.conversationByScope_eq_some.mp found
        have same := Table.eq_of_key_eq database.constraints.scopeKeys
          ((retained_reduces config draws database).conversations.subset rowMember) member
          (inScope.trans scope)
        exact absurd (same ▸ List.mem_map_of_mem rowMember) spared
      · -- The identifier of the stub is fresh, so no turn can carry it.
        cases found : created.turnRequest result.conversation.id turnId with
        | none => rfl
        | some existing =>
            obtain ⟨existingMember, key⟩ := Database.turnRequest_eq_some.mp found
            rw [tables] at existingMember
            have owner : existing.conversationId = row.id :=
              (congrArg Prod.fst key).trans sameId
            exact absurd (owner ▸ (retained config draws database).constraints.turnOwners
              existing existingMember) (fresh_of_insert tables)
  rcases handled with ⟨existing, found, -⟩ | ⟨-, row, -, -, -, fresh, -⟩
  · rw [none] at found
    cases found
  · exact fresh

theorem recoverReadyTurn_rejects {scopeKey : String} {row : TurnRow}
    (found : database.turnForUpdate scopeKey row.turnId = some row)
    {requestFingerprint : String} (other : requestFingerprint ≠ row.requestFingerprint)
    (expectedLeaseToken : Option String) (result : RecoverResultOf ConversationRow) :
    recoverReadyTurn config draws scopeKey row.turnId requestFingerprint expectedLeaseToken
      database ≠ .ok (result, after) := by
  intro returned
  obtain ⟨same, sameFound, sameRequest, -⟩ := recoverReadyTurn_eq_ok returned
  rw [found] at sameFound
  cases sameFound
  exact other sameRequest.symm

theorem completeTurn_rejects {row : TurnRow} {arguments : CompleteTurnArguments}
    (found : database.turnForUpdate arguments.scopeKey arguments.turnId = some row)
    (incomplete : row.status ≠ .complete)
    (other : arguments.requestFingerprint ≠ row.requestFingerprint)
    (result : CompleteTurnResult) :
    completeTurn config draws arguments database ≠ .ok (result, after) := by
  intro returned
  obtain ⟨same, sameFound, ⟨complete, -⟩ | ⟨-, conversation, user, assistant, title, promptRef,
    -, commit, -⟩⟩ := completeTurn_eq_ok returned
  · rw [found] at sameFound
    cases sameFound
    exact incomplete complete
  · rw [found] at sameFound
    cases sameFound
    exact other commit.requestFingerprint.symm

/-- In any state that holds a turn row, calls that name the turn under another
fingerprint are rejected and change nothing: a begin whose retention pass leaves
the row, a recovery, and a completion of a turn not yet complete. A begin whose
retention pass removes the row answers with a lease of its own. -/
theorem fingerprint_isolated (config : StoreConfig) (draws : Draws) (database : Database)
    (conversation : ConversationRow) (row : TurnRow)
    (member : conversation ∈ database.conversations)
    (rowMember : row ∈ database.turnRequests) (owned : row.conversationId = conversation.id) :
    (∀ arguments : BeginTurnArguments, arguments.scopeKey = conversation.scopeKey →
      arguments.turnId = row.turnId → arguments.requestFingerprint ≠ row.requestFingerprint →
        ((retained config draws database).turnRequest conversation.id row.turnId).isSome →
          ∃ raised, (Operation.beginTurn arguments).run config draws database =
            (.error raised, database)) ∧
    (∀ arguments : BeginTurnArguments, arguments.scopeKey = conversation.scopeKey →
      arguments.turnId = row.turnId →
        (retained config draws database).turnRequest conversation.id row.turnId = none →
          ∀ result, ((Operation.beginTurn arguments).run config draws database).1 =
            .ok (.begun result) →
              ∃ leaseExpiresAt, result.reply = .new draws.leaseToken leaseExpiresAt) ∧
    (∀ requestFingerprint expectedLeaseToken, requestFingerprint ≠ row.requestFingerprint →
      ∃ raised, (Operation.recoverReadyTurn conversation.scopeKey row.turnId
        requestFingerprint expectedLeaseToken).run config draws database =
          (.error raised, database)) ∧
    ∀ arguments : CompleteTurnArguments, arguments.scopeKey = conversation.scopeKey →
      arguments.turnId = row.turnId → row.status ≠ .complete →
        arguments.requestFingerprint ≠ row.requestFingerprint →
          ∃ raised, (Operation.completeTurn arguments).run config draws database =
            (.error raised, database) := by
  have stored : database.turnRequest conversation.id row.turnId = some row :=
    Database.turnRequest_eq_some.mpr ⟨rowMember, Prod.ext owned rfl⟩
  have found : database.turnForUpdate conversation.scopeKey row.turnId = some row :=
    Database.turnForUpdate_eq_some.mpr ⟨rowMember, rfl, conversation, member, rfl, owned.symm⟩
  refine ⟨?_, ?_, ?_, ?_⟩
  · intro arguments scope turn other outlives
    exact transaction_error fun result _ =>
      beginTurn_rejects member stored outlives scope turn other result
  · intro arguments scope turn removed result begun
    rw [Operation.run, transaction] at begun
    split at begun
    · rename_i outcome committed returned
      cases begun
      exact beginTurn_renews member removed scope turn returned
    · cases begun
  · intro requestFingerprint expectedLeaseToken other
    exact transaction_error fun result _ =>
      recoverReadyTurn_rejects found other expectedLeaseToken result
  · intro arguments scope turn incomplete other
    exact transaction_error fun result _ =>
      completeTurn_rejects (by rw [scope, turn, found]) incomplete other result

/-- A recovery of the sample turn under another fingerprint. -/
theorem fingerprint_isolated_recovery :
    ∃ conversation row,
      conversation ∈ (run (Event.after Sample.config) .empty Sample.oneTurn).conversations ∧
      row ∈ (run (Event.after Sample.config) .empty Sample.oneTurn).turnRequests ∧
      row.requestFingerprint = "f" ∧
      ∃ raised, (Operation.recoverReadyTurn conversation.scopeKey row.turnId "g" none).run
        Sample.config (Sample.draws 20 "c")
        (run (Event.after Sample.config) .empty Sample.oneTurn) =
          (.error raised, run (Event.after Sample.config) .empty Sample.oneTurn) := by
  have stored : ∃ conversation ∈
      (run (Event.after Sample.config) .empty Sample.oneTurn).conversations,
      ∃ row ∈ (run (Event.after Sample.config) .empty Sample.oneTurn).turnRequests,
        row.conversationId = conversation.id ∧ row.requestFingerprint = "f" := by
    decide +kernel
  obtain ⟨conversation, member, row, rowMember, owned, request⟩ := stored
  have isolated := fingerprint_isolated Sample.config (Sample.draws 20 "c") _ conversation row
    member rowMember owned
  exact ⟨conversation, row, member, rowMember, request,
    isolated.2.2.1 "g" none (by rw [request]; decide)⟩

/-- Two calls under another fingerprint that are answered. A begin whose own
retention pass has removed the failed row starts a new reservation, and a
completion of a complete turn replays the other request's messages. -/
theorem other_fingerprint_answered :
    (beginTurn Sample.config (Sample.draws 700000 "c")
        { Sample.begins "t1" none with requestFingerprint := "g" }
        (run (Event.after Sample.config) .empty
          [⟨.beginTurn (Sample.begins "t1" none), Sample.draws 0 "a"⟩,
            ⟨.failTurn "w:c" "t1" "a", Sample.draws 10 "b"⟩])).map
          (fun outcome => outcome.1.reply.status) = .ok "new" ∧
    (completeTurn Sample.config (Sample.draws 20 "c")
        { Sample.completes "t1" "a" with requestFingerprint := "g" }
        (run (Event.after Sample.config) .empty Sample.oneTurn)).map
          (fun outcome => match outcome.1 with
            | .replayed messages => messages.map (·.content)
            | .committed _ => []) = .ok ["question", "answer"] := by
  decide +kernel

end RAGuardian.History
