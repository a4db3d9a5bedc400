import RAGuardian.Access.KeyAgreement
import RAGuardian.Foundation.Noninterference

/-! # The rollback of a knowledge base removal

Runs with a removal whose `finalize` raises beside the same runs without it: the other
calls go on alike in both, and the rollback writes the touched keys as they were before
the removal. -/

namespace RAGuardian.Access

open Concurrency Execution

/-! ## Calls -/

section

variable {hash : String → String} {touched : List String} {α β : Type}

/-- A request that changes nothing but touched keys. -/
abbrev Confined (hash : String → String) (touched : List String) : UserRequest → Prop :=
  ConfinedLeft (userSystem hash) (DatabasesAgree touched)

/-- The remaining programs of a call in a run with the removal and in one without. -/
abbrev CallsAlike (hash : String → String) (touched : List String) :
    UserProgram α → UserProgram α → Prop :=
  Alike (userSystem hash) (DatabasesAgree touched)

theorem confined_right {request : UserRequest} (confined : Confined hash touched request) :
    ConfinedRight (userSystem hash) (DatabasesAgree touched) request :=
  fun draw left right agree => (confined draw right left agree.symm).symm

theorem callsAlike_confined {left right : UserProgram α}
    (leftMakes : left.Makes (Confined hash touched))
    (rightMakes : right.Makes (Confined hash touched)) : CallsAlike hash touched left right :=
  .confined leftMakes (rightMakes.mono fun _ _ => confined_right)

theorem confined_callback : Confined hash touched .callback := by
  intro draw left right agree
  change DatabasesAgree touched (UserRequest.callback.execute draw left).2 right
  rw [UserRequest.execute, if_neg (by simp [UserRequest.isCallback])]
  exact agree

theorem confined_write {id : String} (inside : id ∈ touched) {write : ApiKeyWrite}
    {userId now : String} (checked : (UserRequest.writeApiKey id write userId now).Checked) :
    Confined hash touched (.writeApiKey id write userId now) := by
  intro draw left right agree
  change DatabasesAgree touched (UserRequest.execute draw _ left).2 right
  unfold UserRequest.execute
  split
  · exact agree
  · exact (agree.updateLeft inside (normal_write checked)).touchLeft userId now

theorem confined_restore {originals : List ApiKeyRow}
    (inside : ∀ row ∈ originals, row.id ∈ touched)
    (normal : ∀ row ∈ originals, Normalizes row.knowledgeBaseIds) (userId now : String) :
    Confined hash touched (.restoreApiKeys originals userId now) := by
  intro draw left right agree
  change DatabasesAgree touched (UserRequest.execute draw _ left).2 right
  unfold UserRequest.execute
  split
  · exact agree
  · exact agree.restoreLeft inside normal userId now

/-- A program that is done whatever it is answered. -/
theorem makes_last {request : UserRequest} {next : request.Payload → UserProgram α}
    (ends : ∀ payload, ∃ result, next payload = .done result) (response : request.Response)
    {allowed : UserRequest → Prop} : (propagating next response).Makes allowed := by
  cases response with
  | error raised => trivial
  | ok payload =>
      rcases ends payload with ⟨result, same⟩
      rw [propagating, same]
      trivial

/-- The same request in both runs. -/
theorem callsAlike_asking {request : UserRequest} (onApiKeys : request.OnApiKeys)
    (checked : request.Checked) {leftNext rightNext : request.Payload → UserProgram α}
    (later : ∀ draw left right, left = right ∨ DatabasesAgree touched left right →
      CallsAlike hash touched (propagating leftNext (request.execute draw left).1)
        (propagating rightNext (request.execute draw right).1)) :
    CallsAlike hash touched (asking request leftNext) (asking request rightNext) :=
  .call (fun draw _ _ agree => agree.execute_request onApiKeys checked draw) later

/-- The last request of a call. -/
theorem callsAlike_last {request : UserRequest} (onApiKeys : request.OnApiKeys)
    (checked : request.Checked) {leftNext rightNext : request.Payload → UserProgram α}
    (leftEnds : ∀ payload, ∃ result, leftNext payload = .done result)
    (rightEnds : ∀ payload, ∃ result, rightNext payload = .done result) :
    CallsAlike hash touched (asking request leftNext) (asking request rightNext) :=
  callsAlike_asking onApiKeys checked fun _ _ _ _ =>
    callsAlike_confined (makes_last leftEnds _) (makes_last rightEnds _)

/-- A write of a key that has been read, as the last request. -/
theorem callsAlike_write {left right : ApiKeyRow} (rows : RowsAgree touched left right)
    {leftWrite rightWrite : ApiKeyWrite} {userId now : String}
    (same : left = right → leftWrite = rightWrite)
    (leftChecked : (UserRequest.writeApiKey left.id leftWrite userId now).Checked)
    (rightChecked : (UserRequest.writeApiKey right.id rightWrite userId now).Checked)
    {leftNext rightNext : Unit → UserProgram α}
    (leftEnds : ∀ payload, ∃ result, leftNext payload = .done result)
    (rightEnds : ∀ payload, ∃ result, rightNext payload = .done result) :
    CallsAlike hash touched (asking (.writeApiKey left.id leftWrite userId now) leftNext)
      (asking (.writeApiKey right.id rightWrite userId now) rightNext) := by
  by_cases inside : left.id ∈ touched
  · apply callsAlike_confined
    · refine makes_asking (confined_write inside leftChecked) fun payload => ?_
      rcases leftEnds payload with ⟨result, done⟩
      rw [done]
      trivial
    · refine makes_asking (confined_write (rows.id ▸ inside) rightChecked) fun payload => ?_
      rcases rightEnds payload with ⟨result, done⟩
      rw [done]
      trivial
  · have equal := rows.same inside
    cases equal
    cases same rfl
    exact @callsAlike_last hash touched α (.writeApiKey left.id leftWrite userId now) trivial
      leftChecked _ _ leftEnds rightEnds

/-- The answers to a `SELECT` of a key. -/
theorem select_answers {left right : UserDatabase}
    (linked : left = right ∨ DatabasesAgree touched left right) (draw : UserDraw)
    (userId keyName : String) :
    (∃ raised, ((UserRequest.selectApiKey userId keyName).execute draw left).1 = .error raised ∧
      ((UserRequest.selectApiKey userId keyName).execute draw right).1 = .error raised) ∨
    ∃ leftFound rightFound,
      ((UserRequest.selectApiKey userId keyName).execute draw left).1 = .ok leftFound ∧
      ((UserRequest.selectApiKey userId keyName).execute draw right).1 = .ok rightFound ∧
      Option.Rel (RowsAgree touched) leftFound rightFound := by
  unfold UserRequest.execute
  split
  · exact .inl ⟨.locked, rfl, rfl⟩
  · refine .inr ⟨_, _, rfl, rfl, ?_⟩
    rcases linked with rfl | agree
    · cases left.apiKeyByName userId keyName with
      | none => exact .none
      | some row => exact .some (.refl touched row)
    · exact agree.apiKeyByName userId keyName

/-- A call that reads a key first. -/
theorem callsAlike_select {userId keyName : String}
    {leftNext rightNext : Option ApiKeyRow → UserProgram α}
    (absent : CallsAlike hash touched (leftNext none) (rightNext none))
    (found : ∀ left right, RowsAgree touched left right →
      CallsAlike hash touched (leftNext (some left)) (rightNext (some right))) :
    CallsAlike hash touched (asking (.selectApiKey userId keyName) leftNext)
      (asking (.selectApiKey userId keyName) rightNext) := by
  apply @callsAlike_asking hash touched α (.selectApiKey userId keyName) trivial trivial
  intro draw left right linked
  rcases select_answers linked draw userId keyName with ⟨raised, leftAnswer, rightAnswer⟩ |
    ⟨leftFound, rightFound, leftAnswer, rightAnswer, rows⟩
  · rw [leftAnswer, rightAnswer]
    exact .done _ _
  · rw [leftAnswer, rightAnswer]
    cases rows with
    | none => exact absent
    | some rows => exact found _ _ rows

theorem callsAlike_withApiKey {userId keyName : String}
    {next : ApiKeyRow → UserProgram (Option α)}
    (found : ∀ left right, RowsAgree touched left right →
      CallsAlike hash touched (next left) (next right)) :
    CallsAlike hash touched (withApiKey userId keyName next) (withApiKey userId keyName next) :=
  callsAlike_select (.done _ _) found

/-- A check that comes to the same in both runs. -/
theorem callsAlike_checking {outcome : Except UserStoreError β}
    {next : β → UserProgram α}
    (passed : ∀ value, outcome = .ok value → CallsAlike hash touched (next value) (next value)) :
    CallsAlike hash touched (checking outcome next) (checking outcome next) := by
  cases outcome with
  | error raised => exact .done _ _
  | ok value => exact passed value rfl

/-- The answers to a `SELECT` of another key with the new name. -/
theorem duplicate_answers {left right : UserDatabase}
    (linked : left = right ∨ DatabasesAgree touched left right) (draw : UserDraw)
    (userId newName id : String) :
    ((UserRequest.selectDuplicate userId newName id).execute draw left).1 =
      ((UserRequest.selectDuplicate userId newName id).execute draw right).1 := by
  rcases linked with rfl | agree
  · rfl
  · unfold UserRequest.execute
    split
    · rfl
    · simp only [UserRequest.perform]
      rw [DatabasesAgree.any (fun _ _ rows => by rw [rows.userId, rows.name, rows.id])
        agree.apiKeys]

/-- The rollback of a removal in both runs. -/
theorem callsAlike_rollBack {left right : KeyRemoval}
    (aligned : Aligned (·.id ∈ touched) left.originals right.originals) (userId now : String)
    (raised : UserStoreError) :
    CallsAlike hash touched (rollBack left userId now raised)
      (rollBack right userId now raised) := by
  have ends : ∀ removal : KeyRemoval, (∀ row ∈ removal.originals, row.id ∈ touched) →
      (rollBack removal userId now raised).Makes (Confined hash touched) := by
    intro removal inside
    unfold rollBack
    split
    · trivial
    · exact makes_asking (confined_restore inside removal.normalizes userId now) fun _ => trivial
  by_cases leftEmpty : left.originals = []
  · apply callsAlike_confined
    · exact ends left (leftEmpty ▸ nofun)
    · exact ends right (Aligned.touched_of_nil (leftEmpty ▸ aligned.symm))
  · by_cases rightEmpty : right.originals = []
    · apply callsAlike_confined
      · exact ends left (Aligned.touched_of_nil (rightEmpty ▸ aligned))
      · exact ends right (rightEmpty ▸ nofun)
    · cases lost : raised.isLeaseLost with
      | true =>
          rw [rollBack, rollBack, if_pos (.inl lost), if_pos (.inl lost)]
          exact .done _ _
      | false =>
          have goesOn : ∀ {originals : List ApiKeyRow}, originals ≠ [] →
              ¬ (raised.isLeaseLost = true ∨ originals = []) := by
            intro originals nonempty
            simp [lost, nonempty]
          rw [rollBack, rollBack, if_neg (goesOn leftEmpty), if_neg (goesOn rightEmpty)]
          apply Alike.call
          · intro draw leftState rightState agree
            change DatabasesAgree touched (UserRequest.execute draw _ leftState).2
              (UserRequest.execute draw _ rightState).2
            unfold UserRequest.execute
            split
            · rename_i locked
              rw [if_pos ⟨locked.1, rfl⟩]
              exact agree
            · rename_i free
              rw [if_neg fun locked => free ⟨locked.1, rfl⟩]
              exact agree.restoreApiKeys aligned (fun row member =>
                member.elim (left.normalizes row) (right.normalizes row)) userId now
          · intro draw leftState rightState _
            exact callsAlike_confined (makes_last (fun _ => ⟨_, rfl⟩) _)
              (makes_last (fun _ => ⟨_, rfl⟩) _)

/-- What follows the first phase of a removal in both runs. -/
theorem callsAlike_finalize {left right : KeyRemoval}
    (aligned : Aligned (·.id ∈ touched) left.originals right.originals) (userId now : String) :
    CallsAlike hash touched (finalizing left userId now) (finalizing right userId now) := by
  apply Alike.call
  · exact fun draw leftState rightState agree =>
      @DatabasesAgree.execute_request touched leftState rightState agree .callback trivial trivial
        draw
  · intro draw leftState rightState _
    have answers : ∀ state : UserDatabase,
        ((userSystem hash).execute draw .callback state).1 = draw.callback := by
      intro state
      change (UserRequest.callback.execute draw state).1 = draw.callback
      rw [UserRequest.execute, if_neg (by simp [UserRequest.isCallback])]
      rfl
    rw [answers, answers]
    cases draw.callback with
    | error raised => exact callsAlike_rollBack aligned userId now raised
    | ok _ => exact .done _ _

/-- The answers to the first phase of a removal. -/
theorem removal_answers {left right : UserDatabase}
    (linked : left = right ∨ DatabasesAgree touched left right) (draw : UserDraw)
    (userId knowledgeBaseId now : String) :
    CallsAlike hash touched
      (propagating (fun removal => finalizing removal userId now)
        ((UserRequest.removeKnowledgeBase userId knowledgeBaseId now).execute draw left).1)
      (propagating (fun removal => finalizing removal userId now)
        ((UserRequest.removeKnowledgeBase userId knowledgeBaseId now).execute draw right).1) := by
  have quiet : ∀ removal : KeyRemoval, removal.originals = [] →
      (finalizing removal userId now).Makes (Confined hash touched) := by
    intro removal empty
    refine ⟨confined_callback, ?_⟩
    intro response
    cases response with
    | error raised =>
        change (rollBack removal userId now raised).Makes _
        rw [rollBack, if_pos (.inr empty)]
        trivial
    | ok _ => trivial
  unfold UserRequest.execute
  split
  · exact .done _ _
  · simp only [UserRequest.perform]
    cases leftOutcome : left.removeKnowledgeBase draw.callback userId knowledgeBaseId now with
    | error leftRaised =>
        cases rightOutcome : right.removeKnowledgeBase draw.callback userId knowledgeBaseId
          now with
        | error rightRaised => exact .done _ _
        | ok rightCommit =>
            rcases linked with rfl | agree
            · rw [leftOutcome] at rightOutcome
              cases rightOutcome
            · exact callsAlike_confined trivial
                (quiet _ (agree.removeKnowledgeBase_error leftOutcome rightOutcome).2)
    | ok leftCommit =>
        cases rightOutcome : right.removeKnowledgeBase draw.callback userId knowledgeBaseId
          now with
        | error rightRaised =>
            rcases linked with rfl | agree
            · rw [leftOutcome] at rightOutcome
              cases rightOutcome
            · exact callsAlike_confined
                (quiet _ (agree.symm.removeKnowledgeBase_error rightOutcome leftOutcome).2)
                trivial
        | ok rightCommit =>
            apply callsAlike_finalize
            rcases linked with rfl | agree
            · rw [leftOutcome] at rightOutcome
              cases rightOutcome
              exact .refl _ _
            · exact (agree.removeKnowledgeBase_ok leftOutcome rightOutcome).2

/-- The calls on API keys. -/
def UserCall.onApiKeys : UserCall → Bool
  | .updateUser _ | .deleteUser _ | .deleteUserAfter _ => false
  | _ => true

/-- Every call on API keys goes on alike in both runs. -/
theorem program_alike (hash : String → String) (touched : List String) {call : UserCall}
    (onApiKeys : call.onApiKeys = true) :
    CallsAlike hash touched (call.program hash) (call.program hash) := by
  cases call with
  | updateUser | deleteUser | deleteUserAfter => cases onApiKeys
  | createApiKey arguments =>
      change CallsAlike hash touched (createApiKey hash arguments) (createApiKey hash arguments)
      unfold createApiKey
      split
      · exact .done _ _
      · apply callsAlike_checking
        intro ids normalized
        apply callsAlike_checking
        intro _ valid
        exact @callsAlike_last hash touched _ (.insertApiKey _ _) trivial
          ⟨fun _ => checkKnowledgeBases_ok valid, normalized_normalizes normalized⟩ _ _
          (fun _ => ⟨_, rfl⟩) fun _ => ⟨_, rfl⟩
  | toggleApiKeyEnabled target enabled =>
      apply callsAlike_withApiKey
      intro left right rows
      refine callsAlike_write rows ?_ ?_ ?_ (fun _ => ⟨_, rfl⟩) fun _ => ⟨_, rfl⟩
      · intro same
        rw [same]
      · trivial
      · trivial
  | deleteApiKey target =>
      apply callsAlike_select (.done _ _)
      intro left right rows
      dsimp only
      rw [rows.id]
      exact @callsAlike_last hash touched _ (.deleteApiKey _ _ _) trivial trivial _ _
        (fun _ => ⟨_, rfl⟩) fun _ => ⟨_, rfl⟩
  | rotateApiKey target generated =>
      apply callsAlike_withApiKey
      intro left right rows
      refine callsAlike_write rows (fun _ => rfl) ?_ ?_ (fun _ => ⟨_, rfl⟩) fun _ => ⟨_, rfl⟩
      · trivial
      · trivial
  | updateApiKeyName target newName =>
      change CallsAlike hash touched (updateApiKeyName target newName)
        (updateApiKeyName target newName)
      unfold updateApiKeyName
      dsimp only
      split
      · exact .done _ _
      · apply callsAlike_withApiKey
        intro left right rows
        rw [rows.id]
        apply @callsAlike_asking hash touched _ (.selectDuplicate _ _ _) trivial trivial
        intro draw leftState rightState linked
        rw [duplicate_answers linked draw]
        cases (UserRequest.execute draw (.selectDuplicate _ _ _) rightState).1 with
        | error raised => exact .done _ _
        | ok duplicate =>
            cases duplicate with
            | true => exact .done _ _
            | false =>
                exact @callsAlike_last hash touched _ (.renameApiKey _ _ _ _) trivial trivial _ _
                  (fun _ => ⟨_, rfl⟩) fun _ => ⟨_, rfl⟩
  | updateApiKeyScopes target scopes =>
      apply callsAlike_withApiKey
      intro left right rows
      by_cases inside : left.id ∈ touched
      · have writes : ∀ row : ApiKeyRow, row.id ∈ touched →
            (checking (normalizeKnowledgeBaseIds row.knowledgeBaseIds) fun knowledgeBaseIds =>
              checking (checkKnowledgeBases (normalizeApiScopes scopes) knowledgeBaseIds)
                fun () => target.write row (.scopes (normalizeApiScopes scopes))).Makes
              (Confined hash touched) := by
          intro row isTouched
          exact makes_checking fun _ _ => makes_checking fun _ _ =>
            makes_asking (confined_write isTouched trivial) fun _ => trivial
        exact callsAlike_confined (writes left inside) (writes right (rows.id ▸ inside))
      · rw [rows.same inside]
        apply callsAlike_checking
        intro ids _
        apply callsAlike_checking
        intro _ _
        refine callsAlike_write (.refl touched right) (fun _ => rfl) ?_ ?_
          (fun _ => ⟨_, rfl⟩) fun _ => ⟨_, rfl⟩
        · trivial
        · trivial
  | updateApiKeyKnowledgeBases target knowledgeBaseIds =>
      apply callsAlike_checking
      intro ids normalized
      have normal := normalized_normalizes normalized
      apply callsAlike_withApiKey
      intro left right rows
      by_cases inside : left.id ∈ touched
      · have writes : ∀ row : ApiKeyRow, row.id ∈ touched →
            (checking (checkKnowledgeBases row.effectiveScopes ids) fun () =>
              target.write row (.knowledgeBases ids)).Makes (Confined hash touched) := by
          intro row isTouched
          exact makes_checking fun _ _ =>
            makes_asking (confined_write isTouched normal) fun _ => trivial
        exact callsAlike_confined (writes left inside) (writes right (rows.id ▸ inside))
      · rw [rows.same inside]
        apply callsAlike_checking
        intro _ _
        refine callsAlike_write (.refl touched right) (fun _ => rfl) ?_ ?_
          (fun _ => ⟨_, rfl⟩) fun _ => ⟨_, rfl⟩
        · exact normal
        · exact normal
  | updateApiKeyAccess target scopes knowledgeBaseIds =>
      apply callsAlike_checking
      intro ids normalized
      apply callsAlike_checking
      intro _ valid
      exact @callsAlike_last hash touched _ (.setAccess _ _ _ _ _) trivial
        ⟨checkKnowledgeBases_ok valid, normalized_normalizes normalized⟩ _ _
        (fun _ => ⟨_, rfl⟩) fun _ => ⟨_, rfl⟩
  | addKnowledgeBaseToApiKey target knowledgeBaseId keyId requiredScope =>
      have checked := program_checked hash
        (.addKnowledgeBaseToApiKey target knowledgeBaseId keyId requiredScope)
      change (addKnowledgeBaseToApiKey target knowledgeBaseId keyId requiredScope).Makes _
        at checked
      change CallsAlike hash touched
        (addKnowledgeBaseToApiKey target knowledgeBaseId keyId requiredScope) _
      change CallsAlike hash touched _
        (addKnowledgeBaseToApiKey target knowledgeBaseId keyId requiredScope)
      unfold addKnowledgeBaseToApiKey at checked ⊢
      split
      · exact .done _ _
      · rename_i id valid
        rw [valid] at checked
        exact @callsAlike_last hash touched _ (.addKnowledgeBase _ _) trivial checked.1 _ _
          (fun _ => ⟨_, rfl⟩) fun _ => ⟨_, rfl⟩
  | removeKnowledgeBaseFromApiKeys userId knowledgeBaseId now =>
      apply @callsAlike_asking hash touched _ (.removeKnowledgeBase _ _ _) trivial trivial
      intro draw left right linked
      exact removal_answers linked draw userId knowledgeBaseId now

end

/-! ## What the removal saves and restores -/

namespace UserDatabase

/-- The keys a removal takes the knowledge base from. -/
def listed (userId knowledgeBaseId : String) (database : UserDatabase) : List ApiKeyRow :=
  match database.keysListing userId knowledgeBaseId with
  | .error _ => []
  | .ok keys => keys.map Prod.fst

/-- The enabled flag and the knowledge bases of a key. -/
def access (database : UserDatabase) (id : String) : Option (Bool × List String) :=
  (database.apiKeys.find? (·.id == id)).map fun row => (row.enabled, row.knowledgeBaseIds)

theorem listed_stored {userId knowledgeBaseId : String} {database : UserDatabase} :
    ∀ original ∈ database.listed userId knowledgeBaseId,
      original ∈ database.apiKeys ∧ Normalizes original.knowledgeBaseIds := by
  unfold listed
  split
  · nofun
  · rename_i keys listing
    intro original member
    refine ⟨?_, (keysListing_listed listing original member).2⟩
    rcases List.mem_map.mp member with ⟨key, inKeys, rfl⟩
    rw [(keysListing_eq_ok listing).2, List.mem_filterMap] at inKeys
    rcases inKeys with ⟨stored, filtered, found⟩
    rw [(ApiKeyRow.listing_eq_some.mp found).1]
    exact (List.mem_filter.mp filtered).1

/-- The user of a key exists, so a removal that raises saves nothing. -/
theorem listed_of_error {userId knowledgeBaseId now : String} {database : UserDatabase}
    {raised : UserStoreError}
    (outcome : database.removeKnowledgeBase (.ok ()) userId knowledgeBaseId now =
      .error raised) : database.listed userId knowledgeBaseId = [] := by
  rcases removeKnowledgeBase_error outcome with missing | ⟨other, failed⟩ | lost
  · rw [List.eq_nil_iff_forall_not_mem]
    intro original member
    have stored := (listed_stored original member).1
    have owner := database.constraints.apiKeyOwners original stored
    have user : original.userId = userId := by
      unfold listed at member
      split at member
      · cases member
      · rename_i keys listing
        rcases List.mem_map.mp member with ⟨key, inKeys, rfl⟩
        rw [(keysListing_eq_ok listing).2, List.mem_filterMap] at inKeys
        rcases inKeys with ⟨row, filtered, found⟩
        rw [(ApiKeyRow.listing_eq_some.mp found).1]
        simpa using (List.mem_filter.mp filtered).2
    rw [userById, Option.isNone_iff_eq_none, List.find?_eq_none] at missing
    rcases List.mem_map.mp owner with ⟨row, rowMember, same⟩
    exact missing row rowMember (by simp [same, user])
  · rw [listed, failed]
  · cases lost

/-- The rollback leaves every saved key that is still stored as it was saved. -/
theorem restored_values {originals : List ApiKeyRow}
    (unique : ∀ left ∈ originals, ∀ right ∈ originals, left.id = right.id → left = right)
    (database : UserDatabase) :
    ∀ row ∈ (originals.foldl (fun database original =>
        database.updateApiKeys (·.id == original.id)
          (.restore original.knowledgeBaseIds original.enabled)) database).apiKeys,
      ∀ original ∈ originals, row.id = original.id →
        row.enabled = original.enabled ∧
          row.knowledgeBaseIds = original.knowledgeBaseIds := by
  induction originals using List.reverseRecOn with
  | nil => nofun
  | append_singleton originals last induction =>
      rw [List.foldl_append]
      intro row member original inOriginals same
      rcases Table.mem_update.mp member with ⟨old, oldMember, rfl⟩
      by_cases selected : (old.id == last.id) = true
      · have keyed : old.id = last.id := by simpa using selected
        rw [if_pos selected] at same ⊢
        have equal : original = last := unique original inOriginals last
          (List.mem_append_right _ List.mem_cons_self) (same.symm.trans keyed)
        rw [equal]
        exact ⟨rfl, rfl⟩
      · rw [if_neg selected] at same ⊢
        rcases List.mem_append.mp inOriginals with earlier | here
        · exact induction (fun left leftMember right rightMember =>
            unique left (List.mem_append_left _ leftMember) right
              (List.mem_append_left _ rightMember)) old oldMember original earlier same
        · rw [List.mem_singleton.mp here] at same
          exact absurd (by simpa using same) selected

end UserDatabase

namespace DatabasesAgree

variable {touched : List String} {left right : UserDatabase}

/-- The first phase of a removal changes the saved keys only. -/
theorem of_removal {leaseCheck : Except UserStoreError Unit} {userId knowledgeBaseId now : String}
    {database after : UserDatabase} {removal : KeyRemoval}
    (outcome : database.removeKnowledgeBase leaseCheck userId knowledgeBaseId now =
      .ok (removal, after)) :
    removal.originals = database.listed userId knowledgeBaseId ∧
      DatabasesAgree (removal.originals.map (·.id)) after database := by
  rcases UserDatabase.removeKnowledgeBase_cases outcome with
    ⟨keys, _, listing, originals, effect⟩
  refine ⟨by rw [originals, UserDatabase.listed, listing], ?_⟩
  rw [originals]
  have start : DatabasesAgree ((keys.map Prod.fst).map (·.id)) database database := by
    apply of_same
    intro row member isTouched
    rw [List.map_map] at isTouched
    rcases List.mem_map.mp isTouched with ⟨key, inKeys, same⟩
    rw [UserDatabase.keysListing_mem listing inKeys member same.symm]
    exact normalizes_of_ok (UserDatabase.keysListing_normalized listing inKeys)
  rcases effect with ⟨_, rfl⟩ | ⟨_, rfl⟩
  · exact start
  · have inside : ∀ key ∈ keys, key.1.id ∈ (keys.map Prod.fst).map (·.id) := by
      intro key inKeys
      exact List.mem_map_of_mem (List.mem_map_of_mem inKeys)
    exact (@DatabasesAgree.foldl (ApiKeyRow × List String) _ (fun key => key.1.id)
      (fun key => key.1.withoutKnowledgeBase key.2 knowledgeBaseId) _ _ (.of_touched inside)
      (fun key member => normal_withoutKnowledgeBase
        (UserDatabase.keysListing_normalized listing (member.elim id nofun)) knowledgeBaseId)
      _ _ start).touchLeft userId now

/-- After a rollback the keys are as in the run without the removal exactly if that run
leaves the saved keys as they were saved. -/
theorem access_iff (agree : DatabasesAgree touched left right) {originals : List ApiKeyRow}
    (ids : touched = originals.map (·.id))
    (values : ∀ row ∈ left.apiKeys, ∀ original ∈ originals, row.id = original.id →
      row.enabled = original.enabled ∧ row.knowledgeBaseIds = original.knowledgeBaseIds) :
    (∀ id, left.access id = right.access id) ↔
      ∀ original ∈ originals, ∀ row ∈ right.apiKeys, row.id = original.id →
        row.enabled = original.enabled ∧ row.knowledgeBaseIds = original.knowledgeBaseIds := by
  constructor
  · intro same original inOriginals row member keyed
    have rightFound : right.apiKeys.find? (·.id == original.id) = some row :=
      (Table.find?_eq_some_iff_of_unique right.constraints.apiKeyKeys).mpr ⟨member, keyed⟩
    have rows := @find? touched (·.id == original.id) (fun _ _ rows => by rw [rows.id])
      _ _ agree.apiKeys
    have here := same original.id
    rw [UserDatabase.access, UserDatabase.access, rightFound] at here
    rw [rightFound] at rows
    generalize leftFound : left.apiKeys.find? (·.id == original.id) = found at rows here
    cases rows with
    | some rows =>
        rename_i leftRow
        have stored := (Table.find?_eq_some_iff_of_unique left.constraints.apiKeyKeys).mp leftFound
        rcases values leftRow stored.1 original inOriginals stored.2 with ⟨enabled, list⟩
        simp only [Option.map_some, Option.some.injEq, Prod.mk.injEq] at here
        exact ⟨here.1.symm.trans enabled, here.2.symm.trans list⟩
  · intro kept id
    have rows := @find? touched (·.id == id) (fun _ _ rows => by rw [rows.id]) _ _ agree.apiKeys
    rw [UserDatabase.access, UserDatabase.access]
    generalize leftFound : left.apiKeys.find? (·.id == id) = foundLeft at rows
    generalize rightFound : right.apiKeys.find? (·.id == id) = foundRight at rows
    cases rows with
    | none => rfl
    | some rows =>
        rename_i leftRow rightRow
        have leftStored := List.mem_of_find?_eq_some leftFound
        have rightStored := List.mem_of_find?_eq_some rightFound
        by_cases inside : leftRow.id ∈ touched
        · rw [ids] at inside
          rcases List.mem_map.mp inside with ⟨original, inOriginals, same⟩
          have leftValues := values leftRow leftStored original inOriginals same.symm
          have rightValues := kept original inOriginals rightRow rightStored
            (rows.id.symm.trans same.symm)
          rw [Option.map_some, Option.map_some, leftValues.1, leftValues.2, rightValues.1,
            rightValues.2]
        · rw [rows.same inside]

end DatabasesAgree

/-! ## Runs -/

/-- Other calls on API keys, up to the first commit of a removal and from there up to its
rollback, and what its `finalize` raises. -/
structure FailedRemoval where
  userId : String
  knowledgeBaseId : String
  now : String
  before : List (Event UserDraw UserCall)
  window : List (Event UserDraw UserCall)
  raised : UserStoreError
  leaseKept : raised.isLeaseLost = false
  others : ∀ call, .start call ∈ before ++ window → call.onApiKeys = true

namespace FailedRemoval

/-- The run with the removal, which is the first call. -/
def events (removal : FailedRemoval) : List (Event UserDraw UserCall) :=
  .start (.removeKnowledgeBaseFromApiKeys removal.userId removal.knowledgeBaseId removal.now) ::
    (removal.before.map .shifted ++ .step 0 {} ::
      (removal.window.map .shifted ++
        [.step 0 { callback := .error removal.raised }, .step 0 {}]))

/-- The state after some events of the other calls alone. -/
def alone (hash : String → String) (database : UserDatabase)
    (events : List (Event UserDraw UserCall)) : Machine (userSystem hash) :=
  run Machine.next (.initial (userSystem hash) database) events

/-- The call of the removal when it has come so far. -/
def task (hash : String → String) (removal : FailedRemoval)
    (trail : List (Step UserRequest UserDraw UserDatabase))
    (remaining : UserProgram KnowledgeBaseRemoval) : Task (userSystem hash) :=
  ⟨.removeKnowledgeBaseFromApiKeys removal.userId removal.knowledgeBaseId removal.now, trail,
    remaining⟩

section

variable {hash : String → String} (removal : FailedRemoval)
  {machine : Machine (userSystem hash)} (trail : List (Step UserRequest UserDraw UserDatabase))

/-- A request of the removal. -/
theorem next_call (request : UserRequest)
    (next : request.Response → UserProgram KnowledgeBaseRemoval) (draw : UserDraw) :
    (machine.preceded (removal.task hash trail (.call request next))).next (.step 0 draw) =
      ({ machine with state := (request.execute draw machine.state).2 } :
        Machine (userSystem hash)).preceded
        (removal.task hash (trail ++ [⟨request, draw, machine.state⟩])
          (next (request.execute draw machine.state).1)) :=
  Machine.next_first _ machine draw

/-- A call of the removal that is done takes no step. -/
theorem next_done (result : Except UserStoreError KnowledgeBaseRemoval) (draw : UserDraw) :
    (machine.preceded (removal.task hash trail (.done result))).next (.step 0 draw) =
      machine.preceded (removal.task hash trail (.done result)) :=
  Machine.next_first _ machine draw

/-- The rest of a run in which the first phase has raised. -/
theorem run_raised (raised : UserStoreError) :
    (run Machine.next (machine.preceded (removal.task hash trail (.done (.error raised))))
      (removal.window.map .shifted ++
        [.step 0 { callback := .error removal.raised }, .step 0 {}])).state =
      (run Machine.next machine removal.window).state := by
  rw [run_append, Machine.run_shifted fun _ _ => rfl, run_cons, run_cons, run_nil,
    next_done, next_done]
  rfl

variable (machine) in
/-- The rest of a run in which the first phase has saved values: they are restored. -/
theorem run_saved (saved : KeyRemoval) :
    let window := run Machine.next machine removal.window
    (run Machine.next
      (machine.preceded (removal.task hash trail (finalizing saved removal.userId removal.now)))
      (removal.window.map .shifted ++
        [.step 0 { callback := .error removal.raised }, .step 0 {}])).state =
      if saved.originals = [] then window.state
      else window.state.restoreApiKeys saved.originals removal.userId removal.now := by
  intro window
  rw [run_append, Machine.run_shifted fun _ _ => rfl, run_cons, run_cons, run_nil, finalizing,
    next_call]
  have answer : ∀ state : UserDatabase,
      UserRequest.callback.execute { callback := .error removal.raised } state =
        (.error removal.raised, state) := fun _ => rfl
  rw [answer]
  dsimp only
  rw [rollBack]
  split
  · rename_i idle
    have empty : saved.originals = [] := by
      simpa [removal.leaseKept] using idle
    rw [next_done, if_pos empty]
    rfl
  · rename_i restores
    have nonempty : ¬ saved.originals = [] := fun empty => restores (.inr empty)
    rw [asking, next_call, if_neg nonempty]
    rfl

end

/-- A rollback leaves every key as the other calls alone would have left it exactly if
these leave the keys that list the knowledge base with the flag and the list they had. -/
theorem access_restored_iff (hash : String → String) (database : UserDatabase)
    (removal : FailedRemoval) :
    (∀ id, (run Machine.next (.initial (userSystem hash) database) removal.events).state.access
        id = (alone hash database (removal.before ++ removal.window)).state.access id) ↔
      ∀ original ∈ (alone hash database removal.before).state.listed removal.userId
          removal.knowledgeBaseId,
        ∀ row ∈ (alone hash database (removal.before ++ removal.window)).state.apiKeys,
          row.id = original.id → row.enabled = original.enabled ∧
            row.knowledgeBaseIds = original.knowledgeBaseIds := by
  have started : (Machine.initial (userSystem hash) database).next
      (.start (.removeKnowledgeBaseFromApiKeys removal.userId removal.knowledgeBaseId
        removal.now)) = (Machine.initial (userSystem hash) database).preceded
      (removal.task hash [] (removeKnowledgeBaseFromApiKeys removal.userId
        removal.knowledgeBaseId removal.now)) :=
    Machine.next_start (fun _ _ => rfl) _ _
  have window : alone hash database (removal.before ++ removal.window) =
      run Machine.next (alone hash database removal.before) removal.window :=
    run_append _ _ _ _
  have calls : ∀ call, .start call ∈ removal.before ++ removal.window → ∀ touched,
      CallsAlike hash touched (call.program hash) (call.program hash) :=
    fun call member touched => program_alike hash touched (removal.others call member)
  rw [events, run_cons, started, run_append, Machine.run_shifted fun _ _ => rfl, run_cons,
    removeKnowledgeBaseFromApiKeys, asking, next_call, window]
  have executed : ∀ state : UserDatabase, (UserRequest.removeKnowledgeBase removal.userId
      removal.knowledgeBaseId removal.now).execute {} state =
      committing (state.removeKnowledgeBase (.ok ()) removal.userId removal.knowledgeBaseId
        removal.now) state := fun _ => rfl
  rw [executed]
  change (_ ↔ ∀ original ∈ (run Machine.next (.initial (userSystem hash) database)
    removal.before).state.listed _ _, _)
  generalize reached : run Machine.next (.initial (userSystem hash) database) removal.before =
    machine
  have aloneReached : alone hash database removal.before = machine := reached
  rw [aloneReached]
  cases outcome : machine.state.removeKnowledgeBase (.ok ()) removal.userId
      removal.knowledgeBaseId removal.now with
  | error raised =>
      refine iff_of_true ?_ ?_
      · intro id
        exact congrArg (UserDatabase.access · id) (removal.run_raised _ raised)
      · rw [UserDatabase.listed_of_error outcome]
        nofun
  | ok commit =>
      rcases DatabasesAgree.of_removal outcome with ⟨saved, states⟩
      have alike : MachinesAlike (userSystem hash)
          (DatabasesAgree (commit.1.originals.map (·.id)))
          ({ machine with state := commit.2 } : Machine (userSystem hash)) machine := by
        refine @machinesAlike_of_agree _ _ _ _ _ _ _ _ _ machine states rfl ?_
        rw [← reached]
        exact run_alike removal.before fun call member =>
          calls call (List.mem_append_left _ member) _
      have agree := (alike.run (fun _ _ => rfl) removal.window fun call member =>
        calls call (List.mem_append_right _ member) _).states
      have final := removal.run_saved { machine with state := commit.2 }
        ([] ++ [⟨.removeKnowledgeBase removal.userId removal.knowledgeBaseId removal.now, {},
          machine.state⟩]) commit.1
      dsimp only at final
      have stored : ∀ row ∈ commit.1.originals,
          row ∈ machine.state.apiKeys ∧ Normalizes row.knowledgeBaseIds := by
        rw [saved]
        exact UserDatabase.listed_stored
      change (∀ id, UserDatabase.access (Machine.state _) id = _) ↔ _
      rw [← saved]
      by_cases empty : commit.1.originals = []
      · rw [if_pos empty] at final
        refine Iff.trans ?_ (agree.access_iff rfl (by rw [empty]; nofun))
        exact forall_congr' fun id =>
          Eq.congr (congrArg (UserDatabase.access · id) final) rfl
      · rw [if_neg empty] at final
        refine Iff.trans ?_ ((agree.restoreLeft (fun row member => List.mem_map_of_mem member)
          commit.1.normalizes removal.userId removal.now).access_iff rfl ?_)
        · exact forall_congr' fun id =>
            Eq.congr (congrArg (UserDatabase.access · id) final) rfl
        · apply UserDatabase.restored_values
          intro left leftMember right rightMember same
          exact Table.eq_of_key_eq machine.state.constraints.apiKeyKeys (stored left leftMember).1
            (stored right rightMember).1 same

end FailedRemoval

/-! ## A key that is disabled meanwhile -/

/-- A user with one key. -/
def oneKey : UserDatabase where
  users := oneUser.users
  apiKeys := [{
    id := "1"
    userId := "u"
    name := "k"
    keyHash := ""
    keyPrefix := ""
    keySuffix := ""
    scopes := ["query"]
    knowledgeBaseIds := ["default"]
    enabled := true
    createdAt := ""
    lastUsed := ""
    usageCount := 0
    description := ""
    expiresAt := none }]
  constraints := by decide

/-- The key is disabled while `finalize` runs. -/
def disabledMeanwhile : FailedRemoval where
  userId := "u"
  knowledgeBaseId := "default"
  now := ""
  before := []
  window := [.start (.toggleApiKeyEnabled ⟨"u", "k", ""⟩ (some false)), .step 0 {}, .step 0 {}]
  raised := .raised ""
  leaseKept := rfl
  others := by
    intro call member
    simp only [List.nil_append, List.mem_cons, Event.start.injEq, reduceCtorEq,
      List.not_mem_nil, or_false] at member
    rw [member]
    rfl

theorem disabledMeanwhile_enabled :
    ¬ ∀ id, (run Machine.next (.initial (userSystem fun value => value) oneKey)
        disabledMeanwhile.events).state.access id =
      (FailedRemoval.alone (fun value => value) oneKey
        (disabledMeanwhile.before ++ disabledMeanwhile.window)).state.access id := by
  intro same
  have key := same "1"
  revert key
  decide +kernel

end RAGuardian.Access
