import RAGuardian.Access.UserCalls

/-! # Keys that need a knowledge base

A key that is enabled and has a scope that requires a knowledge base lists one. Which
writes keep the rule, and that it holds in every run whose steps are of these. -/

namespace RAGuardian.Access

open Concurrency Execution Text Service

/-! ## The rule -/

/-- The key may be enabled with the scopes and knowledge bases it has. -/
def ApiKeyRow.Restricted (row : ApiKeyRow) : Prop :=
  row.enabled = true → requiresKb row.scopes = true → row.knowledgeBaseIds ≠ []

instance (row : ApiKeyRow) : Decidable row.Restricted :=
  inferInstanceAs (Decidable (row.enabled = true → requiresKb row.scopes = true →
    row.knowledgeBaseIds ≠ []))

def UserDatabase.Restricted (database : UserDatabase) : Prop :=
  ∀ row ∈ database.apiKeys, row.Restricted

instance (database : UserDatabase) : Decidable database.Restricted :=
  inferInstanceAs (Decidable (∀ row ∈ database.apiKeys, row.Restricted))

theorem checkKnowledgeBases_ok {scopes knowledgeBaseIds : List String}
    (checked : checkKnowledgeBases scopes knowledgeBaseIds = .ok ()) :
    requiresKb scopes = true → knowledgeBaseIds ≠ [] := by
  unfold checkKnowledgeBases at checked
  split at checked
  · cases checked
  · rename_i passed
    exact fun requires empty => passed ⟨requires, empty⟩

/-! ## What the calls have checked -/

/-- Requests with arguments as the calls have checked them. -/
def UserRequest.Checked : UserRequest → Prop
  | .insertApiKey row _ => row.Restricted ∧ Normalizes row.knowledgeBaseIds
  | .writeApiKey _ (.knowledgeBases values) _ _ => Normalizes values
  | .setAccess _ _ scopes knowledgeBaseIds _ =>
      (requiresKb scopes = true → knowledgeBaseIds ≠ []) ∧ Normalizes knowledgeBaseIds
  | .addKnowledgeBase arguments _ => Normalizes [arguments.knowledgeBaseId]
  | .restoreApiKeys originals _ _ =>
      ∀ row ∈ originals, row.knowledgeBaseIds ≠ [] ∧ Normalizes row.knowledgeBaseIds
  | _ => True

section

variable {α β : Type} {allowed : UserRequest → Prop}

theorem makes_asking {request : UserRequest} {next : request.Payload → UserProgram α}
    (now : allowed request) (later : ∀ payload, (next payload).Makes allowed) :
    (asking request next).Makes allowed := by
  refine ⟨now, ?_⟩
  intro response
  cases response with
  | error raised => trivial
  | ok payload => exact later payload

theorem makes_checking {outcome : Except UserStoreError β} {next : β → UserProgram α}
    (later : ∀ value, outcome = .ok value → (next value).Makes allowed) :
    (checking outcome next).Makes allowed := by
  cases outcome with
  | error raised => trivial
  | ok value => exact later value rfl

theorem makes_withApiKey {userId keyName : String}
    {next : ApiKeyRow → UserProgram (Option α)} (now : allowed (.selectApiKey userId keyName))
    (later : ∀ row, (next row).Makes allowed) :
    (withApiKey userId keyName next).Makes allowed := by
  apply makes_asking now
  intro payload
  cases payload with
  | none => trivial
  | some row => exact later row

end

/-- Every call makes checked requests only. -/
theorem program_checked (hash : String → String) (call : UserCall) :
    (call.program hash).Makes UserRequest.Checked := by
  cases call with
  | createApiKey arguments =>
      change (createApiKey hash arguments).Makes _
      unfold createApiKey
      split
      · trivial
      · apply makes_checking
        intro ids normalized
        apply makes_checking
        intro _ checked
        apply makes_asking
        · exact ⟨fun _ => checkKnowledgeBases_ok checked, normalized_normalizes normalized⟩
        · exact fun _ => trivial
  | toggleApiKeyEnabled target enabled =>
      apply makes_withApiKey trivial
      exact fun row => makes_asking trivial fun _ => trivial
  | deleteApiKey target =>
      apply makes_asking trivial
      intro payload
      cases payload with
      | none => trivial
      | some row => exact makes_asking trivial fun _ => trivial
  | rotateApiKey target generated =>
      apply makes_withApiKey trivial
      exact fun row => makes_asking trivial fun _ => trivial
  | updateApiKeyName target newName =>
      change (updateApiKeyName target newName).Makes _
      unfold updateApiKeyName
      dsimp only
      split
      · trivial
      · apply makes_withApiKey trivial
        intro row
        apply makes_asking trivial
        intro duplicate
        split
        · trivial
        · exact makes_asking trivial fun _ => trivial
  | updateApiKeyScopes target scopes =>
      apply makes_withApiKey trivial
      intro row
      apply makes_checking
      intro ids _
      apply makes_checking
      intro _ _
      exact makes_asking trivial fun _ => trivial
  | updateApiKeyKnowledgeBases target knowledgeBaseIds =>
      apply makes_checking
      intro ids normalized
      apply makes_withApiKey trivial
      intro row
      apply makes_checking
      intro _ _
      exact makes_asking (normalized_normalizes normalized) fun _ => trivial
  | updateApiKeyAccess target scopes knowledgeBaseIds =>
      apply makes_checking
      intro ids normalized
      apply makes_checking
      intro _ checked
      apply makes_asking
      · exact ⟨checkKnowledgeBases_ok checked, normalized_normalizes normalized⟩
      · exact fun _ => trivial
  | addKnowledgeBaseToApiKey target knowledgeBaseId keyId requiredScope =>
      change (addKnowledgeBaseToApiKey target knowledgeBaseId keyId requiredScope).Makes _
      unfold addKnowledgeBaseToApiKey
      split
      · trivial
      · rename_i id valid
        apply makes_asking
        · intro value member
          rw [List.mem_singleton.mp member, validateKnowledgeBaseId_idempotent valid]
          rfl
        · exact fun _ => trivial
  | removeKnowledgeBaseFromApiKeys userId knowledgeBaseId now =>
      apply makes_asking trivial
      intro removal
      refine ⟨trivial, ?_⟩
      intro response
      cases response with
      | ok _ => trivial
      | error raised =>
          change (rollBack removal userId now raised).Makes UserRequest.Checked
          unfold rollBack
          split
          · trivial
          · apply makes_asking
            · exact fun row member => ⟨removal.listed row member, removal.normalizes row member⟩
            · exact fun _ => trivial
  | updateUser patch =>
      apply makes_asking trivial
      intro payload
      cases payload with
      | none => trivial
      | some row =>
          dsimp only
          split
          · trivial
          · exact makes_asking trivial fun _ => trivial
  | deleteUser userId => exact makes_asking trivial fun _ => trivial
  | deleteUserAfter deletion =>
      apply makes_asking trivial
      intro payload
      cases payload with
      | none => trivial
      | some original =>
          apply makes_asking trivial
          intro _
          refine ⟨trivial, ?_⟩
          intro response
          cases response with
          | ok _ => exact makes_asking trivial fun _ => trivial
          | error raised =>
              cases raised with
              | preflight message => exact makes_asking trivial fun _ => trivial
              | valueError | invalidKnowledgeBase | locked | integrity | leaseLost | raised =>
                  exact makes_asking trivial fun _ => trivial

/-! ## One request -/

/-- The check that goes with a write holds of the stored key it is made on: a key is not
enabled without the knowledge base its scopes require, and the scopes or the list of an
enabled key are changed to what goes with the rest of the stored row. -/
def UserRequest.StillAllowed (database : UserDatabase) : UserRequest → Prop
  | .writeApiKey id (.enabled value) _ _ => ∀ row ∈ database.apiKeys, row.id = id →
      value = true → requiresKb row.scopes = true → row.knowledgeBaseIds ≠ []
  | .writeApiKey id (.scopes values) _ _ => ∀ row ∈ database.apiKeys, row.id = id →
      row.enabled = true → requiresKb values = true → row.knowledgeBaseIds ≠ []
  | .writeApiKey id (.knowledgeBases values) _ _ => ∀ row ∈ database.apiKeys, row.id = id →
      row.enabled = true → requiresKb row.scopes = true → values ≠ []
  | _ => True

namespace UserDatabase

@[simp] theorem apiKeys_touch (userId now : String) (database : UserDatabase) :
    (database.touch userId now).apiKeys = database.apiKeys :=
  rfl

@[simp] theorem apiKeys_updateApiKeys (selects : ApiKeyRow → Bool) (update : ApiKeyUpdate)
    (database : UserDatabase) : (database.updateApiKeys selects update).apiKeys =
      Table.update selects update.apply database.apiKeys :=
  rfl

theorem restricted_of_same {before after : UserDatabase} (same : after.apiKeys = before.apiKeys)
    (restricted : before.Restricted) : after.Restricted := by
  rw [Restricted, same]
  exact restricted

/-- An update keeps the rule if it does on the rows it selects. -/
theorem restricted_updateApiKeys {database : UserDatabase} {selects : ApiKeyRow → Bool}
    {update : ApiKeyUpdate} (restricted : database.Restricted) :
    (database.updateApiKeys selects update).Restricted ↔
      ∀ row ∈ database.apiKeys, selects row = true → (update.apply row).Restricted := by
  constructor
  · intro holds row member selected
    have updated := holds (update.apply row)
      (Table.mem_update.mpr ⟨row, member, by rw [if_pos selected]⟩)
    exact updated
  · intro holds row member
    rcases Table.mem_update.mp member with ⟨old, oldMember, rfl⟩
    split
    · rename_i selected
      exact holds old oldMember selected
    · exact restricted old oldMember

/-- An insertion keeps the rule if the new row does. -/
theorem restricted_insertKey {database inserted : UserDatabase}
    {validate : Except UserStoreError Unit} {row : ApiKeyRow} {now : String}
    (committed : database.insertKey validate row now = .ok inserted) (new : row.Restricted)
    (restricted : database.Restricted) : inserted.Restricted := by
  unfold insertKey at committed
  cases missing : (database.userById row.userId).isNone with
  | true =>
      rw [missing] at committed
      cases committed
  | false =>
      rw [missing] at committed
      cases validate with
      | error raised => cases committed
      | ok _ =>
          cases result : database.insertApiKey row with
          | none =>
              simp only [result] at committed
              cases committed
          | some stored =>
              simp only [result] at committed
              cases committed
              have tables := execute_eq_some.mp result
              intro other member
              rw [apiKeys_touch] at member
              have rows : stored.apiKeys = database.apiKeys ++ [row] :=
                congrArg UserTables.apiKeys tables
              rw [rows] at member
              rcases List.mem_append.mp member with old | last
              · exact restricted other old
              · rw [List.mem_singleton.mp last]
                exact new

theorem restricted_renameApiKey {database renamed : UserDatabase} {id newName : String}
    (committed : database.renameApiKey id newName = some renamed)
    (restricted : database.Restricted) : renamed.Restricted := by
  have rows : renamed.apiKeys = Table.update (·.id == id)
      (fun row => { row with name := newName }) database.apiKeys :=
    congrArg UserTables.apiKeys (execute_eq_some.mp committed)
  intro row member
  rw [rows] at member
  rcases Table.mem_update.mp member with ⟨old, oldMember, rfl⟩
  split
  · exact restricted old oldMember
  · exact restricted old oldMember

/-- The removal of a knowledge base disables the keys that would break the rule. -/
theorem restricted_removal {keys : List (ApiKeyRow × List String)} {knowledgeBaseId : String}
    {database : UserDatabase} (restricted : database.Restricted)
    (same : ∀ row ∈ database.apiKeys, ∀ key ∈ keys, row.id = key.1.id →
      row.scopes = key.1.scopes) :
    (keys.foldl (fun database key => database.updateApiKeys (·.id == key.1.id)
      (key.1.withoutKnowledgeBase key.2 knowledgeBaseId)) database).Restricted := by
  induction keys generalizing database with
  | nil => exact restricted
  | cons key keys induction =>
      apply induction
      · apply (restricted_updateApiKeys restricted).mpr
        intro row member selected enabled requires empty
        have scopes := same row member key List.mem_cons_self (by simpa using selected)
        change requiresKb row.scopes = true at requires
        change (key.1.enabled && !key.1.disabledWith _) = true at enabled
        change key.2.filter (· ≠ knowledgeBaseId) = [] at empty
        rw [scopes] at requires
        rw [empty, key.1.disabledWith_nil requires] at enabled
        simp at enabled
      · intro row member other otherMember
        rcases Table.mem_update.mp member with ⟨old, oldMember, rfl⟩
        have kept := same old oldMember other (List.mem_cons_of_mem _ otherMember)
        split
        · exact kept
        · exact kept

/-- Saved values that list a knowledge base keep the rule. -/
theorem restricted_restore {originals : List ApiKeyRow} {database : UserDatabase}
    (restricted : database.Restricted) (listed : ∀ row ∈ originals, row.knowledgeBaseIds ≠ []) :
    (originals.foldl (fun database original => database.updateApiKeys (·.id == original.id)
      (.restore original.knowledgeBaseIds original.enabled)) database).Restricted := by
  induction originals generalizing database with
  | nil => exact restricted
  | cons original originals induction =>
      rcases List.forall_mem_cons.mp listed with ⟨here, later⟩
      apply induction _ later
      apply (restricted_updateApiKeys restricted).mpr
      exact fun row member selected enabled requires => here

end UserDatabase

/-- A single-column write keeps the rule exactly if it is still allowed. -/
theorem restricted_write {database : UserDatabase} (restricted : database.Restricted)
    (id userId now : String) (write : ApiKeyWrite) :
    (database.updateApiKeys (·.id == id) write.update).Restricted ↔
      (UserRequest.writeApiKey id write userId now).StillAllowed database := by
  rw [UserDatabase.restricted_updateApiKeys restricted]
  simp only [beq_iff_eq]
  cases write with
  | enabled value => exact Iff.rfl
  | key keyHash keyPrefix keySuffix =>
      exact ⟨fun _ => trivial, fun _ row member _ => restricted row member⟩
  | scopes values => exact Iff.rfl
  | knowledgeBases values => exact Iff.rfl

/-- Any request with checked arguments keeps the rule exactly if it stays locked out, or
is still allowed. -/
theorem restricted_execute {database : UserDatabase} (restricted : database.Restricted)
    {request : UserRequest} (checked : request.Checked) (draw : UserDraw) :
    (request.execute draw database).2.Restricted ↔
      (draw.locked = false → request.StillAllowed database) := by
  cases locked : draw.locked with
  | true =>
      simp only [reduceCtorEq, false_imp_iff, iff_true]
      cases request with
      | callback =>
          rw [UserRequest.execute, if_neg (by simp [UserRequest.isCallback])]
          exact restricted
      | _ => simpa [UserRequest.execute, UserRequest.isCallback, locked] using restricted
  | false =>
      have performed : request.execute draw database = request.perform draw database := by
        simp [UserRequest.execute, locked]
      rw [performed]
      simp only [forall_const]
      cases request with
      | writeApiKey id write userId now => exact restricted_write restricted id userId now write
      | selectApiKey userId keyName => exact iff_of_true restricted trivial
      | selectDuplicate userId newName id => exact iff_of_true restricted trivial
      | selectUser userId => exact iff_of_true restricted trivial
      | callback => exact iff_of_true restricted trivial
      | writeUser userId columns now => exact iff_of_true restricted trivial
      | setDeletion userId enabled status error now => exact iff_of_true restricted trivial
      | renameApiKey id newName userId now =>
          refine iff_of_true ?_ trivial
          cases outcome : database.renameApiKey id newName with
          | none => simpa only [UserRequest.perform, outcome] using restricted
          | some renamed =>
              simp only [UserRequest.perform, outcome]
              exact UserDatabase.restricted_of_same (UserDatabase.apiKeys_touch _ _ _)
                (UserDatabase.restricted_renameApiKey outcome restricted)
      | deleteApiKey id userId now =>
          exact iff_of_true (fun row member => restricted row (Table.mem_delete.mp member).1)
            trivial
      | deleteUser userId =>
          exact iff_of_true (fun row member => restricted row (Table.mem_delete.mp member).1)
            trivial
      | insertApiKey row now =>
          refine iff_of_true (committing_keeps restricted ?_) trivial
          intro _ after committed
          cases outcome : database.insertKey draw.callback row now with
          | error raised =>
              rw [outcome] at committed
              cases committed
          | ok inserted =>
              rw [outcome] at committed
              cases committed
              exact UserDatabase.restricted_insertKey outcome checked.1 restricted
      | setAccess userId keyName scopes knowledgeBaseIds now =>
          refine iff_of_true (committing_keeps restricted ?_) trivial
          intro _ after committed
          rcases UserDatabase.setAccess_cases committed with rfl | ⟨row, _, rfl⟩
          · exact restricted
          · exact (UserDatabase.restricted_updateApiKeys restricted).mpr
              fun row member selected enabled => checked.1
      | addKnowledgeBase arguments now =>
          refine iff_of_true (committing_keeps restricted ?_) trivial
          intro _ after committed
          rcases UserDatabase.addKnowledgeBase_cases committed with
            rfl | ⟨row, allowed, _, _, rfl⟩
          · exact restricted
          · apply (UserDatabase.restricted_updateApiKeys restricted).mpr
            intro row member selected enabled requires
            exact List.append_ne_nil_of_right_ne_nil _ (List.cons_ne_nil _ _)
      | removeKnowledgeBase userId knowledgeBaseId now =>
          refine iff_of_true (committing_keeps restricted ?_) trivial
          intro _ after committed
          rcases UserDatabase.removeKnowledgeBase_cases committed with
            ⟨keys, _, listing, _, ⟨_, rfl⟩ | ⟨_, rfl⟩⟩
          · exact restricted
          · refine UserDatabase.restricted_removal restricted ?_
            intro row member key inKeys equal
            rw [UserDatabase.keysListing_mem listing inKeys member equal]
      | restoreApiKeys originals userId now =>
          exact iff_of_true (UserDatabase.restricted_restore restricted
            fun row member => (checked row member).1) trivial

/-! ## Runs -/

section

variable {hash : String → String}

/-- The request a call is about to make, if it reaches the database, is still allowed. -/
def StepAllowed (machine : Machine (userSystem hash)) (index : Nat) (draw : UserDraw) : Prop :=
  ∀ (task : Task (userSystem hash)) (request : UserRequest)
    (next : request.Response → UserProgram task.call.Result),
    machine.tasks[index]? = some task → task.remaining = .call request next →
    draw.locked = false → request.StillAllowed machine.state

/-- A step keeps the rule exactly if it is still allowed. -/
theorem step_restricted {machine : Machine (userSystem hash)} (consistent : machine.Consistent)
    (restricted : machine.state.Restricted) (index : Nat) (draw : UserDraw) :
    (machine.next (.step index draw)).state.Restricted ↔ StepAllowed machine index draw := by
  cases found : machine.tasks[index]? with
  | none =>
      refine iff_of_true ?_ ?_
      · simpa only [Machine.next, found] using restricted
      · intro task request next here
        rw [found] at here
        cases here
  | some task =>
      cases asks : task.remaining with
      | done result =>
          refine iff_of_true ?_ ?_
          · simpa only [Machine.next, found, asks] using restricted
          · intro other request next here going
            rw [found] at here
            cases here
            rw [asks] at going
            cases going
      | call request next =>
          have checked : request.Checked :=
            consistent.allows (List.mem_of_getElem? found) asks (program_checked hash task.call)
          rw [Machine.next_step_state found asks draw]
          change (request.execute draw machine.state).2.Restricted ↔ _
          rw [restricted_execute restricted checked]
          constructor
          · intro allowed other request' next' here going
            rw [found] at here
            cases here
            rw [asks] at going
            cases going
            exact allowed
          · exact fun allowed => allowed task request next found asks

end

/-! ## A key that is enabled again -/

/-- A user without keys. -/
def oneUser : UserDatabase where
  users := [{
    id := "u"
    email := "u@example.org"
    displayName := "u"
    passwordHash := ""
    role := .user
    enabled := true
    createdAt := ""
    updatedAt := ""
    deletionStatus := ""
    deletionError := "" }]
  apiKeys := []
  constraints := by decide

/-- A key loses its last knowledge base, which disables it, and is enabled again. -/
def enabledAgain : List (Event UserDraw UserCall) :=
  [.start (.createApiKey {
      userId := "u"
      name := "k"
      scopes := ["query"]
      knowledgeBaseIds := some ["default"]
      apiKeyValue := ""
      enabled := true
      description := ""
      expiresAt := none
      now := ""
      id := "1"
      generated := "rag_0123456789" }),
    .step 0 {},
    .start (.removeKnowledgeBaseFromApiKeys "u" "default" ""),
    .step 1 {}, .step 1 {},
    .start (.toggleApiKeyEnabled ⟨"u", "k", ""⟩ (some true)),
    .step 2 {}, .step 2 {}]

end RAGuardian.Access
