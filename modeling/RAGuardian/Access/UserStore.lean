import RAGuardian.Foundation.Concurrency
import RAGuardian.Foundation.Table
import RAGuardian.Service.ScopeKeys

/-! # The users database

Accounts and API keys, and the statements `UserStore` executes on them. A database
carries the proof of the constraints of its schema. -/

namespace RAGuardian.Access

open Text Service

/-! ## Rows -/

/-- `USER_ROLES` -/
inductive UserRole
  | admin
  | user
deriving DecidableEq

def UserRole.parse : String → Option UserRole
  | "admin" => some .admin
  | "user" => some .user
  | _ => none

structure UserRow where
  id : String
  email : String
  displayName : String
  passwordHash : String
  role : UserRole
  enabled : Bool
  createdAt : String
  updatedAt : String
  deletionStatus : String
  deletionError : String
deriving DecidableEq

/-- An `api_keys` row, its two JSON columns as the lists they hold. -/
structure ApiKeyRow where
  id : String
  userId : String
  name : String
  keyHash : String
  keyPrefix : String
  keySuffix : String
  scopes : List String
  knowledgeBaseIds : List String
  enabled : Bool
  createdAt : String
  lastUsed : String
  usageCount : Nat
  description : String
  expiresAt : Option String
deriving DecidableEq

structure UserTables where
  users : List UserRow
  apiKeys : List ApiKeyRow
deriving DecidableEq

/-- Primary keys, unique columns and the foreign key of the schema. -/
structure UserTables.Constraints (tables : UserTables) : Prop where
  userKeys : (tables.users.map (·.id)).Nodup
  emails : (tables.users.map (·.email)).Nodup
  apiKeyKeys : (tables.apiKeys.map (·.id)).Nodup
  apiKeyNames : (tables.apiKeys.map fun row => (row.userId, row.name)).Nodup
  apiKeyOwners : ∀ row ∈ tables.apiKeys, row.userId ∈ tables.users.map (·.id)

instance (tables : UserTables) : Decidable tables.Constraints :=
  decidable_of_iff
    ((tables.users.map (·.id)).Nodup ∧ (tables.users.map (·.email)).Nodup ∧
      (tables.apiKeys.map (·.id)).Nodup ∧
      (tables.apiKeys.map fun row => (row.userId, row.name)).Nodup ∧
      ∀ row ∈ tables.apiKeys, row.userId ∈ tables.users.map (·.id))
    ⟨fun ⟨a, b, c, d, e⟩ => ⟨a, b, c, d, e⟩,
      fun holds => ⟨holds.userKeys, holds.emails, holds.apiKeyKeys, holds.apiKeyNames,
        holds.apiKeyOwners⟩⟩

structure UserDatabase extends UserTables where
  constraints : toUserTables.Constraints

/-! ## Statements -/

/-- A change of `users` columns other than the keys. -/
structure UserUpdate where
  apply : UserRow → UserRow
  id : ∀ row, (apply row).id = row.id
  email : ∀ row, (apply row).email = row.email

/-- A change of `api_keys` columns other than the keys. -/
structure ApiKeyUpdate where
  apply : ApiKeyRow → ApiKeyRow
  id : ∀ row, (apply row).id = row.id
  userId : ∀ row, (apply row).userId = row.userId
  name : ∀ row, (apply row).name = row.name

namespace UserDatabase

/-- `UPDATE users` -/
def updateUsers (selects : UserRow → Bool) (update : UserUpdate) (database : UserDatabase) :
    UserDatabase where
  toUserTables := { database.toUserTables with
    users := Table.update selects update.apply database.users }
  constraints := by
    have holds := database.constraints
    have keys : (Table.update selects update.apply database.users).map (·.id) =
        database.users.map (·.id) := Table.map_update UserRow.id update.id _
    exact {
      userKeys := by simpa only [keys] using holds.userKeys
      emails := by
        rw [Table.map_update UserRow.email update.email]
        exact holds.emails
      apiKeyKeys := holds.apiKeyKeys
      apiKeyNames := holds.apiKeyNames
      apiKeyOwners := by simpa only [keys] using holds.apiKeyOwners }

/-- `UPDATE api_keys` on columns other than the keys -/
def updateApiKeys (selects : ApiKeyRow → Bool) (update : ApiKeyUpdate)
    (database : UserDatabase) : UserDatabase where
  toUserTables := { database.toUserTables with
    apiKeys := Table.update selects update.apply database.apiKeys }
  constraints := { database.constraints with
    apiKeyKeys := by
      rw [Table.map_update ApiKeyRow.id update.id]
      exact database.constraints.apiKeyKeys
    apiKeyNames := by
      rw [Table.map_update (fun row : ApiKeyRow => (row.userId, row.name)) fun row => by
        rw [update.userId, update.name]]
      exact database.constraints.apiKeyNames
    apiKeyOwners := by
      intro row member
      obtain ⟨old, oldMember, rfl⟩ := Table.mem_update.mp member
      have owner := database.constraints.apiKeyOwners old oldMember
      split
      · rw [update.userId]
        exact owner
      · exact owner }

/-- `DELETE FROM api_keys WHERE id = ?` -/
def deleteApiKey (id : String) (database : UserDatabase) : UserDatabase where
  toUserTables := { database.toUserTables with
    apiKeys := Table.delete (·.id == id) database.apiKeys }
  constraints := { database.constraints with
    apiKeyKeys :=
      ((Table.delete_sublist _ _).map _).nodup database.constraints.apiKeyKeys
    apiKeyNames :=
      ((Table.delete_sublist _ _).map _).nodup database.constraints.apiKeyNames
    apiKeyOwners := fun row member =>
      database.constraints.apiKeyOwners row (Table.mem_delete.mp member).1 }

/-- `DELETE FROM users WHERE id = ?`, with the cascade to the API keys -/
def deleteUser (id : String) (database : UserDatabase) : UserDatabase where
  users := Table.delete (·.id == id) database.users
  apiKeys := Table.delete (·.userId == id) database.apiKeys
  constraints := by
    have holds := database.constraints
    exact {
      userKeys := ((Table.delete_sublist _ _).map _).nodup holds.userKeys
      emails := ((Table.delete_sublist _ _).map _).nodup holds.emails
      apiKeyKeys := ((Table.delete_sublist _ _).map _).nodup holds.apiKeyKeys
      apiKeyNames := ((Table.delete_sublist _ _).map _).nodup holds.apiKeyNames
      apiKeyOwners := by
        intro row member
        obtain ⟨rowMember, spared⟩ := Table.mem_delete.mp member
        obtain ⟨owner, ownerMember, same⟩ :=
          List.mem_map.mp (holds.apiKeyOwners row rowMember)
        refine List.mem_map.mpr ⟨owner, Table.mem_delete.mpr ⟨ownerMember, ?_⟩, same⟩
        simpa [same] using spared }

/-- Install the tables a statement leaves behind; `none` stands for `IntegrityError`. -/
def execute (tables : UserTables) : Option UserDatabase :=
  if constraints : tables.Constraints then some ⟨tables, constraints⟩ else none

theorem execute_eq_some {tables : UserTables} {database : UserDatabase} :
    execute tables = some database ↔ database.toUserTables = tables := by
  unfold execute
  split
  · rename_i holds
    constructor
    · intro installed
      cases installed
      rfl
    · intro equal
      subst equal
      rfl
  · rename_i violated
    constructor
    · intro installed
      cases installed
    · intro equal
      exact absurd (equal ▸ database.constraints) violated

/-- `INSERT INTO api_keys` -/
def insertApiKey (row : ApiKeyRow) (database : UserDatabase) : Option UserDatabase :=
  execute { database.toUserTables with apiKeys := database.apiKeys ++ [row] }

/-- `UPDATE api_keys SET name = ? WHERE id = ?` -/
def renameApiKey (id name : String) (database : UserDatabase) : Option UserDatabase :=
  execute { database.toUserTables with
    apiKeys := Table.update (·.id == id) (fun row => { row with name := name })
      database.apiKeys }

/-- `SELECT * FROM users WHERE id = ?` -/
def userById (database : UserDatabase) (id : String) : Option UserRow :=
  database.users.find? (·.id == id)

/-- `SELECT * FROM api_keys WHERE user_id = ? AND name = ?` -/
def apiKeyByName (database : UserDatabase) (userId name : String) : Option ApiKeyRow :=
  database.apiKeys.find? fun row => row.userId == userId && row.name == name

/-- `SELECT * FROM api_keys WHERE user_id = ? AND id = ?` -/
def apiKeyById (database : UserDatabase) (userId id : String) : Option ApiKeyRow :=
  database.apiKeys.find? fun row => row.userId == userId && row.id == id

end UserDatabase

/-! ## Column updates -/

namespace UserUpdate

/-- `updated_at = ?` -/
def touch (now : String) : UserUpdate where
  apply row := { row with updatedAt := now }
  id _ := rfl
  email _ := rfl

/-- `enabled = ?, deletion_status = ?, deletion_error = ?, updated_at = ?` -/
def setDeletion (enabled : Bool) (status error now : String) : UserUpdate where
  apply row := { row with
    enabled := enabled
    deletionStatus := status
    deletionError := error
    updatedAt := now }
  id _ := rfl
  email _ := rfl

end UserUpdate

namespace ApiKeyUpdate

/-- `enabled = ?` -/
def setEnabled (enabled : Bool) : ApiKeyUpdate where
  apply row := { row with enabled := enabled }
  id _ := rfl
  userId _ := rfl
  name _ := rfl

/-- `key_hash = ?, key_prefix = ?, key_suffix = ?` -/
def setKey (keyHash keyPrefix keySuffix : String) : ApiKeyUpdate where
  apply row := { row with keyHash := keyHash, keyPrefix := keyPrefix, keySuffix := keySuffix }
  id _ := rfl
  userId _ := rfl
  name _ := rfl

/-- `scopes = ?` -/
def setScopes (scopes : List String) : ApiKeyUpdate where
  apply row := { row with scopes := scopes }
  id _ := rfl
  userId _ := rfl
  name _ := rfl

/-- `knowledge_base_ids = ?` -/
def setKnowledgeBases (knowledgeBaseIds : List String) : ApiKeyUpdate where
  apply row := { row with knowledgeBaseIds := knowledgeBaseIds }
  id _ := rfl
  userId _ := rfl
  name _ := rfl

/-- `scopes = ?, knowledge_base_ids = ?` -/
def setAccess (scopes knowledgeBaseIds : List String) : ApiKeyUpdate where
  apply row := { row with scopes := scopes, knowledgeBaseIds := knowledgeBaseIds }
  id _ := rfl
  userId _ := rfl
  name _ := rfl

/-- `knowledge_base_ids = ?, enabled = ?` -/
def restore (knowledgeBaseIds : List String) (enabled : Bool) : ApiKeyUpdate where
  apply row := { row with knowledgeBaseIds := knowledgeBaseIds, enabled := enabled }
  id _ := rfl
  userId _ := rfl
  name _ := rfl

end ApiKeyUpdate

/-! ## Scopes and knowledge bases -/

/-- `API_SCOPES` -/
def apiScopes : List String :=
  ["query", "ingest", "speech", "kb_manage", "agent_manage", "history_read",
    "history_manage"]

/-- `API_SCOPES_REQUIRING_KB` -/
def apiScopesRequiringKb : List String :=
  ["query", "ingest", "agent_manage", "history_read", "history_manage"]

/-- `API_SCOPES_REQUIRING_KB & set(scopes)` -/
def requiresKb (scopes : List String) : Bool :=
  scopes.any (apiScopesRequiringKb.contains ·)

/-- `value.lower()`, as far as it can lead to a scope: next to the ASCII letters, the
Kelvin sign lowers to a `k`. -/
def lowerScope (value : String) : String :=
  String.ofList (value.toList.map fun character =>
    if character.toNat = 0x212A then 'k' else character.toLower)

/-- `_normalize_api_scopes` -/
def normalizeApiScopes (scopes : List String) : List String :=
  let result := scopes.foldl (fun result scope =>
    let cleaned := lowerScope (strip scope)
    if cleaned ∈ apiScopes ∧ cleaned ∉ result then result ++ [cleaned] else result) []
  if result = [] then ["query"] else result

/-- What the calls raise. -/
inductive UserStoreError
  | valueError (message : String)
  /-- `KnowledgeBaseValidationError` -/
  | invalidKnowledgeBase
  /-- `sqlite3.OperationalError`: the database stayed locked. -/
  | locked
  /-- `sqlite3.IntegrityError` -/
  | integrity
  /-- `UserDeletionPreflightError` -/
  | preflight (message : String)
  /-- `DistributedLockLeaseLostError` -/
  | leaseLost (message : String)
  | raised (message : String)
deriving DecidableEq

/-- One round of `_normalize_knowledge_base_ids` -/
def appendKnowledgeBaseId (result : List String) (value : String) :
    Except UserStoreError (List String) :=
  match validateKnowledgeBaseId value with
  | none => .error .invalidKnowledgeBase
  | some id => .ok (if id ∈ result then result else result ++ [id])

/-- `_normalize_knowledge_base_ids` of a list -/
def normalizeKnowledgeBaseIds (values : List String) :
    Except UserStoreError (List String) :=
  values.foldlM appendKnowledgeBaseId []

/-- A list that normalizes. -/
def Normalizes (values : List String) : Prop :=
  ∀ value ∈ values, (validateKnowledgeBaseId value).isSome = true

theorem normalizeKnowledgeBaseIds_nil : normalizeKnowledgeBaseIds [] = .ok [] := rfl

theorem validateKnowledgeBaseId_idempotent {value id : String}
    (valid : validateKnowledgeBaseId value = some id) : validateKnowledgeBaseId id = some id := by
  unfold validateKnowledgeBaseId at valid ⊢
  dsimp only at valid ⊢
  have same : id = strip value := by
    split at valid
    · exact (Option.some.inj valid).symm
    · split at valid
      · exact (Option.some.inj valid).symm
      · cases valid
  rw [same, strip_strip]
  rw [← same] at valid
  exact same ▸ valid

theorem appendKnowledgeBaseId_eq_ok {result ids : List String} {value : String} :
    appendKnowledgeBaseId result value = .ok ids ↔ ∃ id, validateKnowledgeBaseId value = some id ∧
      (if id ∈ result then result else result ++ [id]) = ids := by
  unfold appendKnowledgeBaseId
  split
  · rename_i invalid
    simp [invalid]
  · rename_i id valid
    simp [valid]

/-- The normalization succeeds on a list that normalizes, whatever it has found before. -/
theorem foldlM_append_of_normalizes {values : List String} (normalizes : Normalizes values)
    (seen : List String) : ∃ ids, values.foldlM appendKnowledgeBaseId seen = .ok ids := by
  induction values generalizing seen with
  | nil => exact ⟨seen, rfl⟩
  | cons value values induction =>
      rcases Option.isSome_iff_exists.mp (normalizes value List.mem_cons_self) with ⟨id, valid⟩
      rw [List.foldlM_cons, appendKnowledgeBaseId_eq_ok.mpr ⟨id, valid, rfl⟩]
      exact induction (fun other member => normalizes other (List.mem_cons_of_mem _ member)) _

/-- What a normalization that succeeds has found. -/
theorem foldlM_append_eq_ok {values seen ids : List String}
    (normalized : values.foldlM appendKnowledgeBaseId seen = .ok ids) :
    Normalizes values ∧ ∀ id, id ∈ ids ↔
      id ∈ seen ∨ ∃ value ∈ values, validateKnowledgeBaseId value = some id := by
  induction values generalizing seen with
  | nil =>
      cases normalized
      exact ⟨nofun, by simp⟩
  | cons value values induction =>
      rw [List.foldlM_cons] at normalized
      cases appended : appendKnowledgeBaseId seen value with
      | error raised =>
          rw [appended] at normalized
          cases normalized
      | ok next =>
          rw [appended] at normalized
          rcases appendKnowledgeBaseId_eq_ok.mp appended with ⟨found, valid, rfl⟩
          rcases induction normalized with ⟨rest, contained⟩
          constructor
          · intro other member
            rcases List.mem_cons.mp member with rfl | later
            · simp [valid]
            · exact rest other later
          · intro id
            have step : id ∈ (if found ∈ seen then seen else seen ++ [found]) ↔
                id ∈ seen ∨ found = id := by
              split
              · rename_i known
                constructor
                · exact .inl
                · rintro (old | rfl)
                  · exact old
                  · exact known
              · simp [eq_comm]
            rw [contained id, step, or_assoc]
            simp [valid]

theorem normalizeKnowledgeBaseIds_of_normalizes {values : List String}
    (normalizes : Normalizes values) : ∃ ids, normalizeKnowledgeBaseIds values = .ok ids :=
  foldlM_append_of_normalizes normalizes []

theorem normalizes_of_ok {values ids : List String}
    (normalized : normalizeKnowledgeBaseIds values = .ok ids) : Normalizes values :=
  (foldlM_append_eq_ok normalized).1

theorem mem_normalized {values ids : List String} {id : String}
    (normalized : normalizeKnowledgeBaseIds values = .ok ids) :
    id ∈ ids ↔ ∃ value ∈ values, validateKnowledgeBaseId value = some id := by
  rw [(foldlM_append_eq_ok normalized).2 id]
  simp

/-- Identifiers that came out of a normalization normalize. -/
theorem normalized_normalizes {values ids : List String}
    (normalized : normalizeKnowledgeBaseIds values = .ok ids) : Normalizes ids := by
  intro id member
  rcases (mem_normalized normalized).mp member with ⟨value, _, valid⟩
  rw [validateKnowledgeBaseId_idempotent valid]
  rfl

def knowledgeBaseRequired : UserStoreError :=
  .valueError ("At least one knowledge base is required for query, ingest, agent_manage, " ++
    "history_read, or history_manage")

/-- The check `create_api_key` and `update_api_key_access` make of their arguments, and
`update_api_key_scopes` of the row it has read. -/
def checkKnowledgeBases (scopes knowledgeBaseIds : List String) : Except UserStoreError Unit :=
  if requiresKb scopes ∧ knowledgeBaseIds = [] then .error knowledgeBaseRequired else .ok ()

/-- `set(json.loads(row["scopes"] or "[]")) or {"query"}` -/
def ApiKeyRow.effectiveScopes (row : ApiKeyRow) : List String :=
  if row.scopes = [] then ["query"] else row.scopes

/-- An API key as `_public_api_key` shows it. -/
structure PublicApiKey where
  id : String
  userId : String
  name : String
  scopes : List String
  knowledgeBaseIds : List String
  enabled : Bool
  createdAt : String
  lastUsed : String
  usageCount : Nat
  description : String
  expiresAt : Option String
  maskedKey : String
deriving DecidableEq

/-- `_public_api_key` -/
def publicApiKey (row : ApiKeyRow) (userId : String) : PublicApiKey where
  id := row.id
  userId := userId
  name := row.name
  scopes := row.scopes
  knowledgeBaseIds := row.knowledgeBaseIds
  enabled := row.enabled
  createdAt := row.createdAt
  lastUsed := row.lastUsed
  usageCount := row.usageCount
  description := row.description
  expiresAt := row.expiresAt
  maskedKey :=
    if row.keyPrefix ≠ "" ∨ row.keySuffix ≠ "" then row.keyPrefix ++ "..." ++ row.keySuffix
    else ""

end RAGuardian.Access
