import RAGuardian.Access.UserStore

/-! # The calls of the user store

Each call as a program over its transactions. What reads and writes under one
`BEGIN IMMEDIATE` is a single request. A `SELECT` outside a transaction is a request of
its own, and so is the transaction that the first `UPDATE` after it opens. -/

namespace RAGuardian.Access

open Concurrency Text Service

/-! ## Requests -/

/-- The single-column updates of a key that has been read before. -/
inductive ApiKeyWrite
  | enabled (value : Bool)
  | key (keyHash keyPrefix keySuffix : String)
  | scopes (values : List String)
  | knowledgeBases (values : List String)

def ApiKeyWrite.update : ApiKeyWrite → ApiKeyUpdate
  | .enabled value => .setEnabled value
  | .key keyHash keyPrefix keySuffix => .setKey keyHash keyPrefix keySuffix
  | .scopes values => .setScopes values
  | .knowledgeBases values => .setKnowledgeBases values

/-- The columns `update_user` sets besides `updated_at`. -/
structure UserColumns where
  displayName : Option String
  role : Option UserRole
  enabled : Option Bool
  passwordHash : Option String

def UserUpdate.columns (columns : UserColumns) (now : String) : UserUpdate where
  apply row := { row with
    displayName := columns.displayName.getD row.displayName
    role := columns.role.getD row.role
    enabled := columns.enabled.getD row.enabled
    passwordHash := columns.passwordHash.getD row.passwordHash
    updatedAt := now }
  id _ := rfl
  email _ := rfl

/-- The arguments of `add_knowledge_base_to_api_key`, with the identifier normalized. -/
structure AddKnowledgeBase where
  userId : String
  keyName : String
  knowledgeBaseId : String
  keyId : Option String
  requiredScope : Option String

/-- What the first phase of `remove_knowledge_base_from_api_keys` has saved. -/
structure KeyRemoval where
  originals : List ApiKeyRow
  disabled : Nat
  listed : ∀ row ∈ originals, row.knowledgeBaseIds ≠ []
  normalizes : ∀ row ∈ originals, Normalizes row.knowledgeBaseIds

inductive UserRequest
  | selectApiKey (userId keyName : String)
  | selectDuplicate (userId newName id : String)
  | writeApiKey (id : String) (write : ApiKeyWrite) (userId now : String)
  | renameApiKey (id newName userId now : String)
  | deleteApiKey (id userId now : String)
  | insertApiKey (row : ApiKeyRow) (now : String)
  | setAccess (userId keyName : String) (scopes knowledgeBaseIds : List String)
      (now : String)
  | addKnowledgeBase (arguments : AddKnowledgeBase) (now : String)
  | removeKnowledgeBase (userId knowledgeBaseId now : String)
  | restoreApiKeys (originals : List ApiKeyRow) (userId now : String)
  | selectUser (userId : String)
  | writeUser (userId : String) (columns : UserColumns) (now : String)
  | setDeletion (userId : String) (enabled : Bool) (status error now : String)
  | deleteUser (userId : String)
  /-- Code of the caller, with no connection open -/
  | callback

abbrev UserRequest.Payload : UserRequest → Type
  | .selectApiKey _ _ => Option ApiKeyRow
  | .selectDuplicate _ _ _ => Bool
  | .setAccess _ _ _ _ _ => Option ApiKeyRow
  | .addKnowledgeBase _ _ => Option ApiKeyRow
  | .removeKnowledgeBase _ _ _ => KeyRemoval
  | .selectUser _ => Option UserRow
  | .deleteUser _ => Bool
  | _ => Unit

abbrev UserRequest.Response (request : UserRequest) : Type :=
  Except UserStoreError request.Payload

/-- What a request meets: a database that stays locked, and what the callback it runs
comes to. -/
structure UserDraw where
  locked : Bool := false
  callback : Except UserStoreError Unit := .ok ()

/-! ## Transactions -/

namespace UserDatabase

/-- The second statement of every change to the keys of a user. -/
def touch (userId now : String) (database : UserDatabase) : UserDatabase :=
  database.updateUsers (·.id == userId) (.touch now)

/-- The immediate transaction of `create_api_key` -/
def insertKey (validate : Except UserStoreError Unit) (row : ApiKeyRow) (now : String)
    (database : UserDatabase) : Except UserStoreError UserDatabase := do
  if (database.userById row.userId).isNone then throw (.valueError "User not found")
  validate
  match database.insertApiKey row with
  | none =>
      .error (.valueError ("API key name '" ++ row.name ++ "' already exists for this user"))
  | some inserted => .ok (inserted.touch row.userId now)

/-- The immediate transaction of `update_api_key_access` -/
def setAccess (validate : Except UserStoreError Unit) (userId keyName : String)
    (scopes knowledgeBaseIds : List String) (now : String) (database : UserDatabase) :
    Except UserStoreError (Option ApiKeyRow × UserDatabase) :=
  match database.apiKeyByName userId keyName with
  | none => .ok (none, database)
  | some row => do
      validate
      let update := ApiKeyUpdate.setAccess scopes knowledgeBaseIds
      return (some (update.apply row),
        (database.updateApiKeys (·.id == row.id) update).touch userId now)

/-- The key an addition is made to. -/
def addressed (arguments : AddKnowledgeBase) (database : UserDatabase) : Option ApiKeyRow :=
  match arguments.keyId.filter (· ≠ "") with
  | some keyId => database.apiKeyById arguments.userId keyId
  | none => database.apiKeyByName arguments.userId arguments.keyName

/-- The immediate transaction of `add_knowledge_base_to_api_key` -/
def addKnowledgeBase (validate : Except UserStoreError Unit) (arguments : AddKnowledgeBase)
    (now : String) (database : UserDatabase) :
    Except UserStoreError (Option ApiKeyRow × UserDatabase) :=
  match database.addressed arguments with
  | none => .ok (none, database)
  | some row =>
      if row.enabled = false then .ok (none, database)
      else if (arguments.requiredScope.filter (· ≠ "")).any (!row.scopes.contains ·) then
        .ok (none, database)
      else do
        validate
        let allowed ← normalizeKnowledgeBaseIds row.knowledgeBaseIds
        if arguments.knowledgeBaseId ∈ allowed then
          return (some { row with knowledgeBaseIds := allowed }, database)
        else
          let update :=
            ApiKeyUpdate.setKnowledgeBases (allowed ++ [arguments.knowledgeBaseId])
          return (some (update.apply row),
            (database.updateApiKeys (·.id == row.id) update).touch arguments.userId now)

end UserDatabase

/-- Whether a key is disabled when this is all that is left of its list. -/
def ApiKeyRow.disabledWith (row : ApiKeyRow) (allowed : List String) : Bool :=
  allowed.isEmpty &&
    (requiresKb row.effectiveScopes || !row.effectiveScopes.contains "kb_manage")

/-- The `UPDATE` of one key in the first phase of the removal -/
def ApiKeyRow.withoutKnowledgeBase (row : ApiKeyRow) (allowed : List String)
    (knowledgeBaseId : String) : ApiKeyUpdate :=
  let remaining := allowed.filter (· ≠ knowledgeBaseId)
  .restore remaining (row.enabled && !row.disabledWith remaining)

/-! ### The keys that list a knowledge base -/

/-- A key with its normalized list, if the list has the knowledge base. -/
def ApiKeyRow.listing (row : ApiKeyRow) (knowledgeBaseId : String) :
    Option (ApiKeyRow × List String) :=
  match normalizeKnowledgeBaseIds row.knowledgeBaseIds with
  | .error _ => none
  | .ok allowed => if knowledgeBaseId ∈ allowed then some (row, allowed) else none

theorem ApiKeyRow.listing_eq_some {row : ApiKeyRow} {knowledgeBaseId : String}
    {key : ApiKeyRow × List String} :
    row.listing knowledgeBaseId = some key ↔ key.1 = row ∧
      normalizeKnowledgeBaseIds row.knowledgeBaseIds = .ok key.2 ∧ knowledgeBaseId ∈ key.2 := by
  unfold ApiKeyRow.listing
  rcases key with ⟨other, list⟩
  split
  · rename_i raised failed
    simp [failed]
  · rename_i allowed normalized
    split
    · rename_i listed
      simp only [Option.some.injEq, Prod.mk.injEq, normalized, Except.ok.injEq]
      constructor
      · rintro ⟨rfl, rfl⟩
        exact ⟨rfl, rfl, listed⟩
      · rintro ⟨rfl, rfl, _⟩
        exact ⟨rfl, rfl⟩
    · rename_i unlisted
      simp only [normalized, Except.ok.injEq, reduceCtorEq, false_iff]
      rintro ⟨_, rfl, listed⟩
      exact unlisted listed

/-- The lists of some keys, if all of them normalize. -/
def normalizedKeys (rows : List ApiKeyRow) :
    Except UserStoreError (List (ApiKeyRow × List String)) :=
  rows.mapM fun row => do
    let allowed ← normalizeKnowledgeBaseIds row.knowledgeBaseIds
    return (row, allowed)

theorem normalizedKeys_listing {rows : List ApiKeyRow} {keys : List (ApiKeyRow × List String)}
    (normalized : normalizedKeys rows = .ok keys) (knowledgeBaseId : String) :
    (∀ row ∈ rows, Normalizes row.knowledgeBaseIds) ∧
      keys.filter (fun key => key.2.contains knowledgeBaseId) =
        rows.filterMap (·.listing knowledgeBaseId) := by
  induction rows generalizing keys with
  | nil =>
      cases normalized
      exact ⟨nofun, rfl⟩
  | cons row rows induction =>
      unfold normalizedKeys at normalized induction
      rw [List.mapM_cons] at normalized
      cases own : normalizeKnowledgeBaseIds row.knowledgeBaseIds with
      | error raised =>
          rw [own] at normalized
          cases normalized
      | ok allowed =>
          rw [own] at normalized
          cases others : rows.mapM fun row => (do
              let allowed ← normalizeKnowledgeBaseIds row.knowledgeBaseIds
              return (row, allowed) : Except UserStoreError (ApiKeyRow × List String)) with
          | error raised =>
              simp only [others] at normalized
              cases normalized
          | ok later =>
              simp only [others] at normalized
              cases normalized
              rcases induction others with ⟨normalizes, same⟩
              refine ⟨List.forall_mem_cons.mpr ⟨normalizes_of_ok own, normalizes⟩, ?_⟩
              rw [List.filter_cons, List.filterMap_cons, same, ApiKeyRow.listing, own]
              by_cases listed : knowledgeBaseId ∈ allowed
              · simp [listed]
              · simp [listed]

theorem normalizedKeys_of_normalizes {rows : List ApiKeyRow}
    (normalizes : ∀ row ∈ rows, Normalizes row.knowledgeBaseIds) :
    ∃ keys, normalizedKeys rows = .ok keys := by
  induction rows with
  | nil => exact ⟨[], rfl⟩
  | cons row rows induction =>
      rcases normalizeKnowledgeBaseIds_of_normalizes (normalizes row List.mem_cons_self) with
        ⟨allowed, own⟩
      rcases induction fun other member => normalizes other (List.mem_cons_of_mem _ member) with
        ⟨keys, others⟩
      unfold normalizedKeys at others ⊢
      rw [List.mapM_cons, own]
      simp only [others]
      exact ⟨(row, allowed) :: keys, rfl⟩

namespace UserDatabase

/-- The keys of a user that list the knowledge base, with their normalized lists -/
def keysListing (userId knowledgeBaseId : String) (database : UserDatabase) :
    Except UserStoreError (List (ApiKeyRow × List String)) := do
  let keys ← normalizedKeys (database.apiKeys.filter (·.userId == userId))
  return keys.filter fun key => key.2.contains knowledgeBaseId

theorem keysListing_eq_ok {userId knowledgeBaseId : String} {database : UserDatabase}
    {keys : List (ApiKeyRow × List String)}
    (listing : database.keysListing userId knowledgeBaseId = .ok keys) :
    (∀ row ∈ database.apiKeys.filter (·.userId == userId), Normalizes row.knowledgeBaseIds) ∧
      keys = (database.apiKeys.filter (·.userId == userId)).filterMap
        (·.listing knowledgeBaseId) := by
  unfold keysListing at listing
  cases normalized : normalizedKeys (database.apiKeys.filter (·.userId == userId)) with
  | error raised =>
      rw [normalized] at listing
      cases listing
  | ok all =>
      rw [normalized] at listing
      cases listing
      exact normalizedKeys_listing normalized knowledgeBaseId

theorem keysListing_of_normalizes {userId knowledgeBaseId : String} {database : UserDatabase}
    (normalizes : ∀ row ∈ database.apiKeys.filter (·.userId == userId),
      Normalizes row.knowledgeBaseIds) :
    database.keysListing userId knowledgeBaseId = .ok
      ((database.apiKeys.filter (·.userId == userId)).filterMap (·.listing knowledgeBaseId)) := by
  rcases normalizedKeys_of_normalizes normalizes with ⟨keys, normalized⟩
  rw [keysListing, normalized, ← (normalizedKeys_listing normalized knowledgeBaseId).2]
  rfl

/-- A key that lists a knowledge base has a list that normalizes and is not empty. -/
theorem keysListing_listed {userId knowledgeBaseId : String} {database : UserDatabase}
    {keys : List (ApiKeyRow × List String)}
    (listing : database.keysListing userId knowledgeBaseId = .ok keys) :
    ∀ row ∈ keys.map Prod.fst, row.knowledgeBaseIds ≠ [] ∧ Normalizes row.knowledgeBaseIds := by
  intro row member
  rcases List.mem_map.mp member with ⟨key, inKeys, rfl⟩
  rw [(keysListing_eq_ok listing).2, List.mem_filterMap] at inKeys
  rcases inKeys with ⟨row, _, listed⟩
  rcases ApiKeyRow.listing_eq_some.mp listed with ⟨same, normalized, inList⟩
  rw [same]
  refine ⟨?_, normalizes_of_ok normalized⟩
  intro empty
  rw [empty, normalizeKnowledgeBaseIds_nil, Except.ok.injEq] at normalized
  rw [← normalized] at inList
  cases inList

/-- The immediate transaction of the removal; a lease check comes before the commit. -/
def removeKnowledgeBase (leaseCheck : Except UserStoreError Unit)
    (userId knowledgeBaseId now : String) (database : UserDatabase) :
    Except UserStoreError (KeyRemoval × UserDatabase) :=
  if (database.userById userId).isNone then .error (.valueError "User not found")
  else
    match listing : database.keysListing userId knowledgeBaseId with
    | .error raised => .error raised
    | .ok keys =>
        let removal : KeyRemoval := {
          originals := keys.map Prod.fst
          disabled := keys.countP fun key =>
            key.1.disabledWith (key.2.filter (· ≠ knowledgeBaseId))
          listed := fun row member => (keysListing_listed listing row member).1
          normalizes := fun row member => (keysListing_listed listing row member).2 }
        if keys = [] then .ok (removal, database)
        else do
          leaseCheck
          let updated := keys.foldl (fun database key =>
            database.updateApiKeys (·.id == key.1.id)
              (key.1.withoutKnowledgeBase key.2 knowledgeBaseId)) database
          return (removal, updated.touch userId now)

/-- The transaction that writes the saved values back -/
def restoreApiKeys (originals : List ApiKeyRow) (userId now : String)
    (database : UserDatabase) : UserDatabase :=
  (originals.foldl (fun database original =>
    database.updateApiKeys (·.id == original.id)
      (.restore original.knowledgeBaseIds original.enabled)) database).touch userId now

end UserDatabase

/-! ### What the transactions do -/

/-- A key with a scope that requires a knowledge base is disabled with the last one. -/
theorem ApiKeyRow.disabledWith_nil {row : ApiKeyRow} (requires : requiresKb row.scopes = true) :
    row.disabledWith [] = true := by
  have nonempty : row.scopes ≠ [] := by
    intro empty
    rw [empty] at requires
    cases requires
  rw [ApiKeyRow.disabledWith, ApiKeyRow.effectiveScopes, if_neg nonempty, requires]
  rfl

namespace UserDatabase

/-- The keys that list a knowledge base are stored, and known by their identifiers. -/
theorem keysListing_mem {userId knowledgeBaseId : String} {database : UserDatabase}
    {keys : List (ApiKeyRow × List String)}
    (listing : database.keysListing userId knowledgeBaseId = .ok keys)
    {key : ApiKeyRow × List String} (inKeys : key ∈ keys) {row : ApiKeyRow}
    (member : row ∈ database.apiKeys) (same : row.id = key.1.id) : row = key.1 := by
  rw [(keysListing_eq_ok listing).2, List.mem_filterMap] at inKeys
  rcases inKeys with ⟨stored, filtered, listed⟩
  rw [(ApiKeyRow.listing_eq_some.mp listed).1] at same ⊢
  exact Table.eq_of_key_eq database.constraints.apiKeyKeys member
    (List.mem_filter.mp filtered).1 same

theorem keysListing_normalized {userId knowledgeBaseId : String} {database : UserDatabase}
    {keys : List (ApiKeyRow × List String)}
    (listing : database.keysListing userId knowledgeBaseId = .ok keys)
    {key : ApiKeyRow × List String} (inKeys : key ∈ keys) :
    normalizeKnowledgeBaseIds key.1.knowledgeBaseIds = .ok key.2 := by
  rw [(keysListing_eq_ok listing).2, List.mem_filterMap] at inKeys
  rcases inKeys with ⟨stored, _, listed⟩
  rcases ApiKeyRow.listing_eq_some.mp listed with ⟨same, normalized, _⟩
  rw [same]
  exact normalized

/-- What the caller's code and the checks let an immediate change of the access write. -/
theorem setAccess_cases {database committed : UserDatabase} {validate : Except UserStoreError Unit}
    {userId keyName now : String} {scopes knowledgeBaseIds : List String}
    {result : Option ApiKeyRow}
    (outcome : database.setAccess validate userId keyName scopes knowledgeBaseIds now =
      .ok (result, committed)) :
    committed = database ∨ ∃ row, database.apiKeyByName userId keyName = some row ∧
      committed = (database.updateApiKeys (·.id == row.id)
        (.setAccess scopes knowledgeBaseIds)).touch userId now := by
  unfold setAccess at outcome
  split at outcome
  · cases outcome
    exact .inl rfl
  · rename_i row found
    cases validate with
    | error raised => cases outcome
    | ok _ =>
        cases outcome
        exact .inr ⟨row, found, rfl⟩

theorem addKnowledgeBase_cases {database committed : UserDatabase}
    {validate : Except UserStoreError Unit} {arguments : AddKnowledgeBase} {now : String}
    {result : Option ApiKeyRow}
    (outcome : database.addKnowledgeBase validate arguments now = .ok (result, committed)) :
    committed = database ∨ ∃ row allowed, database.addressed arguments = some row ∧
      normalizeKnowledgeBaseIds row.knowledgeBaseIds = .ok allowed ∧
      committed = (database.updateApiKeys (·.id == row.id) (.setKnowledgeBases
        (allowed ++ [arguments.knowledgeBaseId]))).touch arguments.userId now := by
  unfold addKnowledgeBase at outcome
  split at outcome
  · cases outcome
    exact .inl rfl
  · rename_i row found
    split at outcome
    · cases outcome
      exact .inl rfl
    · split at outcome
      · cases outcome
        exact .inl rfl
      · cases validate with
        | error raised => cases outcome
        | ok _ =>
            cases normalized : normalizeKnowledgeBaseIds row.knowledgeBaseIds with
            | error raised =>
                simp only [normalized] at outcome
                cases outcome
            | ok allowed =>
                by_cases known : arguments.knowledgeBaseId ∈ allowed
                · simp only [normalized, bind, Except.bind, if_pos known] at outcome
                  cases outcome
                  exact .inl rfl
                · simp only [normalized, bind, Except.bind, if_neg known] at outcome
                  cases outcome
                  exact .inr ⟨row, allowed, found, normalized, rfl⟩

theorem removeKnowledgeBase_cases {database committed : UserDatabase}
    {leaseCheck : Except UserStoreError Unit} {userId knowledgeBaseId now : String}
    {removal : KeyRemoval}
    (outcome : database.removeKnowledgeBase leaseCheck userId knowledgeBaseId now =
      .ok (removal, committed)) :
    ∃ keys, (database.userById userId).isNone = false ∧
      database.keysListing userId knowledgeBaseId = .ok keys ∧
      removal.originals = keys.map Prod.fst ∧
      (keys = [] ∧ committed = database ∨ leaseCheck = .ok () ∧
        committed = (keys.foldl (fun database key =>
          database.updateApiKeys (·.id == key.1.id)
            (key.1.withoutKnowledgeBase key.2 knowledgeBaseId)) database).touch userId now) := by
  unfold removeKnowledgeBase at outcome
  split at outcome
  · cases outcome
  · rename_i known
    split at outcome
    · cases outcome
    · rename_i keys listing
      refine ⟨keys, Bool.eq_false_iff.mpr known, listing, ?_⟩
      dsimp only at outcome
      split at outcome
      · rename_i none
        cases outcome
        exact ⟨rfl, .inl ⟨none, rfl⟩⟩
      · cases leaseCheck with
        | error raised => cases outcome
        | ok _ =>
            cases outcome
            exact ⟨rfl, .inr ⟨rfl, rfl⟩⟩

/-- Why a removal raises: the user is missing, a list does not normalize, or the lease
check raises before the commit of a change. -/
theorem removeKnowledgeBase_error {database : UserDatabase}
    {leaseCheck : Except UserStoreError Unit} {userId knowledgeBaseId now : String}
    {raised : UserStoreError}
    (outcome : database.removeKnowledgeBase leaseCheck userId knowledgeBaseId now =
      .error raised) :
    (database.userById userId).isNone = true ∨
      (∃ other, database.keysListing userId knowledgeBaseId = .error other) ∨
      leaseCheck = .error raised := by
  unfold removeKnowledgeBase at outcome
  split at outcome
  · rename_i missing
    exact .inl missing
  · split at outcome
    · rename_i other listing
      exact .inr (.inl ⟨other, listing⟩)
    · dsimp only at outcome
      split at outcome
      · cases outcome
      · cases leaseCheck with
        | error other =>
            cases outcome
            exact .inr (.inr rfl)
        | ok _ => cases outcome

end UserDatabase

/-- A result with the database that comes with it, or an exception after which the
connection is closed without a commit. -/
def committing (outcome : Except UserStoreError (α × UserDatabase)) (database : UserDatabase) :
    Except UserStoreError α × UserDatabase :=
  match outcome with
  | .ok (result, committed) => (.ok result, committed)
  | .error raised => (.error raised, database)

/-- What holds of the database, and of all that an outcome may commit, holds after. -/
theorem committing_keeps {holds : UserDatabase → Prop}
    {outcome : Except UserStoreError (α × UserDatabase)} {database : UserDatabase}
    (unchanged : holds database)
    (committed : ∀ result after, outcome = .ok (result, after) → holds after) :
    holds (committing outcome database).2 := by
  cases outcome with
  | error raised => exact unchanged
  | ok commit => exact committed commit.1 commit.2 rfl

/-- A request that reaches the database. -/
def UserRequest.perform (draw : UserDraw) :
    (request : UserRequest) → UserDatabase → request.Response × UserDatabase
  | .selectApiKey userId keyName, database =>
      (.ok (database.apiKeyByName userId keyName), database)
  | .selectDuplicate userId newName id, database =>
      (.ok (database.apiKeys.any fun row =>
        row.userId == userId && row.name == newName && row.id != id), database)
  | .writeApiKey id write userId now, database =>
      (.ok (), (database.updateApiKeys (·.id == id) write.update).touch userId now)
  | .renameApiKey id newName userId now, database =>
      match database.renameApiKey id newName with
      | none => (.error .integrity, database)
      | some renamed => (.ok (), renamed.touch userId now)
  | .deleteApiKey id userId now, database =>
      (.ok (), (database.deleteApiKey id).touch userId now)
  | .insertApiKey row now, database =>
      committing ((database.insertKey draw.callback row now).map fun inserted =>
        ((), inserted)) database
  | .setAccess userId keyName scopes knowledgeBaseIds now, database =>
      committing (database.setAccess draw.callback userId keyName scopes knowledgeBaseIds now)
        database
  | .addKnowledgeBase arguments now, database =>
      committing (database.addKnowledgeBase draw.callback arguments now) database
  | .removeKnowledgeBase userId knowledgeBaseId now, database =>
      committing (database.removeKnowledgeBase draw.callback userId knowledgeBaseId now)
        database
  | .restoreApiKeys originals userId now, database =>
      (.ok (), database.restoreApiKeys originals userId now)
  | .selectUser userId, database => (.ok (database.userById userId), database)
  | .writeUser userId columns now, database =>
      (.ok (), database.updateUsers (·.id == userId) (.columns columns now))
  | .setDeletion userId enabled status error now, database =>
      (.ok (), database.updateUsers (·.id == userId)
        (.setDeletion enabled status error now))
  | .deleteUser userId, database =>
      (.ok (database.userById userId).isSome, database.deleteUser userId)
  | .callback, database => (draw.callback, database)

def UserRequest.isCallback : UserRequest → Bool
  | .callback => true
  | _ => false

/-- One request. A database that stays locked raises, and changes nothing. -/
def UserRequest.execute (draw : UserDraw) (request : UserRequest) (database : UserDatabase) :
    request.Response × UserDatabase :=
  if draw.locked = true ∧ request.isCallback = false then
    (.error .locked, database)
  else
    request.perform draw database

/-! ## Programs -/

abbrev UserProgram (α : Type) : Type :=
  Program UserRequest UserRequest.Response (Except UserStoreError α)

/-- What a request raises ends the call. -/
def propagating {request : UserRequest} (next : request.Payload → UserProgram α) :
    request.Response → UserProgram α
  | .error raised => .done (.error raised)
  | .ok payload => next payload

/-- Make a request, and go on with what it returns. -/
def asking (request : UserRequest) (next : request.Payload → UserProgram α) : UserProgram α :=
  .call request (propagating next)

/-- Go on with what a check of the arguments comes to. -/
def checking (outcome : Except UserStoreError β) (next : β → UserProgram α) : UserProgram α :=
  match outcome with
  | .error raised => .done (.error raised)
  | .ok value => next value

/-- Read a key by name, and go on with it if there is one. -/
def withApiKey (userId keyName : String) (next : ApiKeyRow → UserProgram (Option α)) :
    UserProgram (Option α) :=
  asking (.selectApiKey userId keyName) fun
    | none => .done (.ok none)
    | some row => next row

/-- Which key a call is about, and the time it reads first. -/
structure ApiKeyTarget where
  userId : String
  keyName : String
  now : String

/-- Write a key that has been read, and show it as written. -/
def ApiKeyTarget.write (target : ApiKeyTarget) (row : ApiKeyRow) (write : ApiKeyWrite) :
    UserProgram (Option PublicApiKey) :=
  asking (.writeApiKey row.id write target.userId target.now) fun () =>
    .done (.ok (some (publicApiKey (write.update.apply row) target.userId)))

/-- The arguments of `create_api_key`, an identifier and a key drawn for it. -/
structure NewApiKey where
  userId : String
  name : String
  scopes : List String
  knowledgeBaseIds : Option (List String)
  apiKeyValue : String
  enabled : Bool
  description : String
  expiresAt : Option String
  now : String
  id : String
  generated : String

/-- What `create_api_key` returns. -/
structure CreatedApiKey where
  row : ApiKeyRow
  key : String
  maskedKey : String

/-- `_mask_api_key` -/
def maskApiKey (key : String) : String :=
  if key.length ≤ 8 then String.ofList (List.replicate key.length '*')
  else truncate 8 key ++ "..." ++ last 4 key

/-- The row `create_api_key` inserts -/
def NewApiKey.row (hash : String → String) (arguments : NewApiKey) (value : String)
    (scopes knowledgeBaseIds : List String) : ApiKeyRow where
  id := arguments.id
  userId := arguments.userId
  name := strip arguments.name
  keyHash := hash value
  keyPrefix := truncate 8 value
  keySuffix := last 4 value
  scopes := scopes
  knowledgeBaseIds := knowledgeBaseIds
  enabled := arguments.enabled
  createdAt := arguments.now
  lastUsed := ""
  usageCount := 0
  description := strip arguments.description
  expiresAt := arguments.expiresAt

/-- `create_api_key` -/
def createApiKey (hash : String → String) (arguments : NewApiKey) :
    UserProgram CreatedApiKey :=
  if strip arguments.name = "" then .done (.error (.valueError "name is required"))
  else
    let value := strip
      (if arguments.apiKeyValue = "" then arguments.generated else arguments.apiKeyValue)
    let scopes := normalizeApiScopes arguments.scopes
    checking (normalizeKnowledgeBaseIds (arguments.knowledgeBaseIds.getD ["default"]))
      fun knowledgeBaseIds =>
        checking (checkKnowledgeBases scopes knowledgeBaseIds) fun () =>
          let row := arguments.row hash value scopes knowledgeBaseIds
          asking (.insertApiKey row arguments.now) fun () =>
            .done (.ok ⟨row, value, maskApiKey value⟩)

/-- `toggle_api_key_enabled` -/
def toggleApiKeyEnabled (target : ApiKeyTarget) (enabled : Option Bool) :
    UserProgram (Option PublicApiKey) :=
  withApiKey target.userId target.keyName fun row =>
    target.write row (.enabled (enabled.getD !row.enabled))

/-- `delete_api_key` -/
def deleteApiKey (target : ApiKeyTarget) : UserProgram Bool :=
  asking (.selectApiKey target.userId target.keyName) fun
    | none => .done (.ok false)
    | some row =>
        asking (.deleteApiKey row.id target.userId target.now) fun () => .done (.ok true)

/-- `rotate_api_key` with the key it generates -/
def rotateApiKey (hash : String → String) (target : ApiKeyTarget) (generated : String) :
    UserProgram (Option (PublicApiKey × String)) :=
  withApiKey target.userId target.keyName fun row =>
    let write := ApiKeyWrite.key (hash generated) (truncate 8 generated) (last 4 generated)
    asking (.writeApiKey row.id write target.userId target.now) fun () =>
      .done (.ok (some (publicApiKey (write.update.apply row) target.userId, generated)))

/-- `update_api_key_name` -/
def updateApiKeyName (target : ApiKeyTarget) (newName : String) :
    UserProgram (Option PublicApiKey) :=
  let newName := strip newName
  if newName = "" then .done (.error (.valueError "new_name is required"))
  else
    withApiKey target.userId target.keyName fun row =>
      asking (.selectDuplicate target.userId newName row.id) fun duplicate =>
        if duplicate then
          .done (.error (.valueError
            ("API key name '" ++ newName ++ "' already exists for this user")))
        else
          asking (.renameApiKey row.id newName target.userId target.now) fun () =>
            .done (.ok (some (publicApiKey { row with name := newName } target.userId)))

/-- `update_api_key_scopes` -/
def updateApiKeyScopes (target : ApiKeyTarget) (scopes : List String) :
    UserProgram (Option PublicApiKey) :=
  let normalized := normalizeApiScopes scopes
  withApiKey target.userId target.keyName fun row =>
    checking (normalizeKnowledgeBaseIds row.knowledgeBaseIds) fun knowledgeBaseIds =>
      checking (checkKnowledgeBases normalized knowledgeBaseIds) fun () =>
        target.write row (.scopes normalized)

/-- `update_api_key_knowledge_bases` -/
def updateApiKeyKnowledgeBases (target : ApiKeyTarget) (knowledgeBaseIds : List String) :
    UserProgram (Option PublicApiKey) :=
  checking (normalizeKnowledgeBaseIds knowledgeBaseIds) fun normalized =>
    withApiKey target.userId target.keyName fun row =>
      checking (checkKnowledgeBases row.effectiveScopes normalized) fun () =>
        target.write row (.knowledgeBases normalized)

/-- `update_api_key_access` -/
def updateApiKeyAccess (target : ApiKeyTarget) (scopes knowledgeBaseIds : List String) :
    UserProgram (Option PublicApiKey) :=
  let normalizedScopes := normalizeApiScopes scopes
  checking (normalizeKnowledgeBaseIds knowledgeBaseIds) fun normalized =>
    checking (checkKnowledgeBases normalizedScopes normalized) fun () =>
      asking (.setAccess target.userId target.keyName normalizedScopes normalized target.now)
        fun written => .done (.ok (written.map (publicApiKey · target.userId)))

/-- `add_knowledge_base_to_api_key` -/
def addKnowledgeBaseToApiKey (target : ApiKeyTarget) (knowledgeBaseId : String)
    (keyId requiredScope : Option String) : UserProgram (Option PublicApiKey) :=
  match validateKnowledgeBaseId knowledgeBaseId with
  | none => .done (.error .invalidKnowledgeBase)
  | some normalizedId =>
      asking (.addKnowledgeBase
        ⟨target.userId, target.keyName, normalizedId, keyId, requiredScope⟩ target.now)
        fun written => .done (.ok (written.map (publicApiKey · target.userId)))

/-- What `remove_knowledge_base_from_api_keys` returns. -/
structure KnowledgeBaseRemoval where
  updated : Nat
  disabled : Nat
deriving DecidableEq

/-- `except DistributedLockLeaseLostError` -/
def UserStoreError.isLeaseLost : UserStoreError → Bool
  | .leaseLost _ => true
  | _ => false

/-- What follows a callback that raised: the saved values are written back, unless the
lease was lost or there are none. -/
def rollBack (removal : KeyRemoval) (userId now : String) (raised : UserStoreError) :
    UserProgram KnowledgeBaseRemoval :=
  if raised.isLeaseLost = true ∨ removal.originals = [] then .done (.error raised)
  else
    asking (.restoreApiKeys removal.originals userId now) fun () => .done (.error raised)

/-- The second phase: a lease check, then `finalize`. -/
def finalizing (removal : KeyRemoval) (userId now : String) :
    UserProgram KnowledgeBaseRemoval :=
  .call .callback fun
    | .error raised => rollBack removal userId now raised
    | .ok () => .done (.ok ⟨removal.originals.length, removal.disabled⟩)

/-- `remove_knowledge_base_from_api_keys` -/
def removeKnowledgeBaseFromApiKeys (userId knowledgeBaseId now : String) :
    UserProgram KnowledgeBaseRemoval :=
  asking (.removeKnowledgeBase userId knowledgeBaseId now) fun removal =>
    finalizing removal userId now

/-- The arguments of `update_user`, a password hash drawn for it. -/
structure UserPatch where
  userId : String
  displayName : Option String
  role : Option String
  enabled : Option Bool
  password : Option String
  now : String
  passwordHash : String

/-- `USER_DELETION_STATUSES` -/
def userDeletionStatuses : List String :=
  ["deleting", "delete_failed"]

/-- The columns a patch sets, given the row that was read -/
def UserPatch.columns (patch : UserPatch) (row : UserRow) : UserColumns where
  displayName := patch.displayName.map fun name => strip (if name = "" then row.email else name)
  role := patch.role.bind UserRole.parse
  enabled := patch.enabled
  passwordHash := (patch.password.filter (· ≠ "")).map fun _ => patch.passwordHash

/-- Write a patch for a user that has been read, and return the user as written. -/
def writePatch (patch : UserPatch) (row : UserRow) : UserProgram (Option UserRow) :=
  asking (.writeUser patch.userId (patch.columns row) patch.now) fun () =>
    .done (.ok (some ((UserUpdate.columns (patch.columns row) patch.now).apply row)))

/-- `update_user` -/
def updateUser (patch : UserPatch) : UserProgram (Option UserRow) :=
  asking (.selectUser patch.userId) fun
    | none => .done (.ok none)
    | some row =>
        if patch.enabled = some true ∧ row.deletionStatus ∈ userDeletionStatuses then
          .done (.error (.valueError
            "A user with an incomplete deletion cannot be re-enabled; retry the deletion"))
        else
          writePatch patch row

/-- `str` of an exception -/
def UserStoreError.message : UserStoreError → String
  | .valueError message => message
  | .preflight message => message
  | .raised message => message
  | .invalidKnowledgeBase => "ID knowledge base non valido"
  | .locked => "database is locked"
  | .integrity => "UNIQUE constraint failed: api_keys.user_id, api_keys.name"
  | .leaseLost message => message

/-- The arguments of `delete_user` with a callback, and the times it reads. -/
structure UserDeletion where
  userId : String
  marked : String
  returned : String

/-- Write the saved values back, and raise. -/
def UserDeletion.restore (deletion : UserDeletion) (original : UserRow) (message : String) :
    UserProgram Bool :=
  asking (.setDeletion deletion.userId original.enabled original.deletionStatus
    original.deletionError deletion.returned) fun () => .done (.error (.preflight message))

/-- The second phase, and the third after it -/
def UserDeletion.runCallback (deletion : UserDeletion) (original : UserRow) : UserProgram Bool :=
  .call .callback fun
    | .error (.preflight message) => deletion.restore original message
    | .error raised =>
        asking (.setDeletion deletion.userId false "delete_failed" raised.message
          deletion.returned) fun () => .done (.error raised)
    | .ok () => asking (.deleteUser deletion.userId) fun deleted => .done (.ok deleted)

/-- The first phase, for the row that has been read -/
def UserDeletion.mark (deletion : UserDeletion) (original : UserRow) : UserProgram Bool :=
  asking (.setDeletion deletion.userId false "deleting" "" deletion.marked) fun () =>
    deletion.runCallback original

/-- `delete_user` with a callback -/
def deleteUserAfter (deletion : UserDeletion) : UserProgram Bool :=
  asking (.selectUser deletion.userId) fun
    | none => .done (.ok false)
    | some original => deletion.mark original

/-! ## The system -/

inductive UserCall
  | createApiKey (arguments : NewApiKey)
  | toggleApiKeyEnabled (target : ApiKeyTarget) (enabled : Option Bool)
  | deleteApiKey (target : ApiKeyTarget)
  | rotateApiKey (target : ApiKeyTarget) (generated : String)
  | updateApiKeyName (target : ApiKeyTarget) (newName : String)
  | updateApiKeyScopes (target : ApiKeyTarget) (scopes : List String)
  | updateApiKeyKnowledgeBases (target : ApiKeyTarget) (knowledgeBaseIds : List String)
  | updateApiKeyAccess (target : ApiKeyTarget) (scopes knowledgeBaseIds : List String)
  | addKnowledgeBaseToApiKey (target : ApiKeyTarget) (knowledgeBaseId : String)
      (keyId requiredScope : Option String)
  | removeKnowledgeBaseFromApiKeys (userId knowledgeBaseId now : String)
  | updateUser (patch : UserPatch)
  | deleteUser (userId : String)
  | deleteUserAfter (deletion : UserDeletion)

abbrev UserCall.Result : UserCall → Type
  | .createApiKey _ => CreatedApiKey
  | .deleteApiKey _ | .deleteUser _ | .deleteUserAfter _ => Bool
  | .rotateApiKey _ _ => Option (PublicApiKey × String)
  | .removeKnowledgeBaseFromApiKeys _ _ _ => KnowledgeBaseRemoval
  | .updateUser _ => Option UserRow
  | _ => Option PublicApiKey

def UserCall.program (hash : String → String) : (call : UserCall) → UserProgram call.Result
  | .createApiKey arguments => Access.createApiKey hash arguments
  | .toggleApiKeyEnabled target enabled => Access.toggleApiKeyEnabled target enabled
  | .deleteApiKey target => Access.deleteApiKey target
  | .rotateApiKey target generated => Access.rotateApiKey hash target generated
  | .updateApiKeyName target newName => Access.updateApiKeyName target newName
  | .updateApiKeyScopes target scopes => Access.updateApiKeyScopes target scopes
  | .updateApiKeyKnowledgeBases target knowledgeBaseIds =>
      Access.updateApiKeyKnowledgeBases target knowledgeBaseIds
  | .updateApiKeyAccess target scopes knowledgeBaseIds =>
      Access.updateApiKeyAccess target scopes knowledgeBaseIds
  | .addKnowledgeBaseToApiKey target knowledgeBaseId keyId requiredScope =>
      Access.addKnowledgeBaseToApiKey target knowledgeBaseId keyId requiredScope
  | .removeKnowledgeBaseFromApiKeys userId knowledgeBaseId now =>
      Access.removeKnowledgeBaseFromApiKeys userId knowledgeBaseId now
  | .updateUser patch => Access.updateUser patch
  | .deleteUser userId => asking (.deleteUser userId) fun deleted => .done (.ok deleted)
  | .deleteUserAfter deletion => Access.deleteUserAfter deletion

/-- Calls of any number of threads; only the transactions keep them apart. -/
def userSystem (hash : String → String) :
    System UserRequest UserRequest.Response UserDraw UserDatabase UserCall
      fun call => Except UserStoreError call.Result where
  execute := UserRequest.execute
  program call := call.program hash
  excludes _ _ := false

end RAGuardian.Access
