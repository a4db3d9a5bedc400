import RAGuardian.KnowledgeBases.Catalog

/-! # The storage of tenants

The names of what is kept for a user and a knowledge base: folders, collections and keys are all
derived from the id of the user. -/

namespace RAGuardian.Tenants

open Text
open Catalog (PublicRecord Failure defaultId)
open Service (isKnowledgeBaseId validateKnowledgeBaseId safeWorkspaceId isWorkspaceCharacter
  isHexDigit Scope)

/-! ## Ids of users -/

/-- `re.sub(r"[^…]+", replacement, value)`, for a class of allowed characters -/
def replaceRuns (allowed : Char → Bool) (replacement : Char) (inRun : Bool) : List Char → List Char
  | [] => []
  | character :: rest =>
      if allowed character then character :: replaceRuns allowed replacement false rest
      else if inRun then replaceRuns allowed replacement true rest
      else replacement :: replaceRuns allowed replacement true rest

/-- `[a-z0-9_.-]` -/
def isSlugCharacter (character : Char) : Bool :=
  ('a' ≤ character && character ≤ 'z') || character.isDigit || character == '_' ||
    character == '.' || character == '-'

/-- `-._` -/
def isEdge (character : Char) : Bool :=
  character == '-' || character == '.' || character == '_'

/-- `uuid.uuid4().hex[:8]` -/
structure IdSuffix where
  hex : List Char
  length_hex : hex.length = 8
  digits : ∀ character ∈ hex, isHexDigit character = true

/-- The slug of `_user_id`, for an email in lower case -/
def userSlug (email : String) : List Char :=
  let slug := (stripList isEdge (replaceRuns isSlugCharacter '-' false email.toList)).take 48
  if slug = [] then "user".toList else slug

/-- `_user_id`, where `lower` is `str.lower` -/
def userId (lower : String → String) (email : String) (suffix : IdSuffix) : String :=
  String.ofList (userSlug (lower email) ++ '-' :: suffix.hex)

/-! ## Contexts -/

/-- A path, by its parts -/
abbrev Path := List String

/-- The folders of the configuration -/
structure Roots where
  workspaceDataDir : Path
  workspaceUploadDir : Path

structure WorkspaceContext where
  userId : String
  workspaceId : String
  settingsFile : Path
  dataFolder : Path
  workspaceUploadFolder : Path
  knowledgeBasesFile : Path
  chatAgentsFile : Path
deriving DecidableEq, Repr

/-- `workspace_for_user`; `none` is the `RuntimeError` for a user without an id. -/
def workspaceForUser (roots : Roots) (userId : String) : Option WorkspaceContext :=
  if userId = "" then none
  else
    let workspaceId := safeWorkspaceId userId
    let workspaceData := roots.workspaceDataDir ++ [workspaceId]
    some {
      userId := userId
      workspaceId := workspaceId
      settingsFile := workspaceData ++ ["settings.json"]
      dataFolder := workspaceData
      workspaceUploadFolder := roots.workspaceUploadDir ++ [workspaceId]
      knowledgeBasesFile := workspaceData ++ ["knowledge_bases.json"]
      chatAgentsFile := workspaceData ++ ["chat_agents.json"] }

/-- `[A-Za-z0-9_-]` -/
def isCollectionCharacter (character : Char) : Bool :=
  character.isAlphanum || character == '_' || character == '-'

/-- What `collection_for_workspace` makes of a workspace id -/
def collectionSuffix (workspaceId : String) : String :=
  String.ofList (replaceRuns isCollectionCharacter '_' false (safeWorkspaceId workspaceId).toList)

/-- `collection_for_workspace` -/
def collectionForWorkspace (workspaceId : String) : String :=
  "documents_" ++ collectionSuffix workspaceId

/-- The first digits of the digest of a text -/
def shortDigest (hexdigest : String → String) (value : String) : String :=
  truncate 40 (hexdigest value)

/-- `validate_knowledge_base_id` -/
def validateId (value : Option String) : Except Failure String :=
  match value with
  | none => .ok defaultId
  | some value => Catalog.validateId value

/-- `collection_for_knowledge_base`, where `hexdigest` is that of SHA-256 -/
def collectionForKnowledgeBase (hexdigest : String → String) (workspaceId : String)
    (knowledgeBaseId : String) : Except Failure String := do
  let id ← validateId (some knowledgeBaseId)
  if id = defaultId then .ok (collectionForWorkspace workspaceId)
  else .ok ("kb_" ++ shortDigest hexdigest (workspaceId ++ ":" ++ id))

structure KnowledgeBaseContext where
  userId : String
  workspaceId : String
  knowledgeBaseId : String
  knowledgeBaseName : String
  settingsFile : Path
  fileIndex : Path
  uploadFolder : Path
  workspaceUploadFolder : Path
  chromaCollection : String
deriving DecidableEq, Repr

def notAvailable (code : String) : Failure :=
  .validation "Knowledge base non disponibile" code 409

/-- The knowledge bases an API key may use, by its list if it has one -/
def allowedIds (knowledgeBaseIds : Option (List String)) : List String :=
  knowledgeBaseIds.getD [defaultId]

/-- `knowledge_base_context`, with the records of the store; `apiKey` is the list of the key that
is used, if one is. -/
def knowledgeBaseContext (hexdigest : String → String) (workspace : WorkspaceContext)
    (value : Option String) (apiKey : Option (Option (List String)))
    (records : List PublicRecord) (allowInactive : Bool) : Except Failure KnowledgeBaseContext := do
  let knowledgeBaseId ← validateId value
  if apiKey.any fun ids => knowledgeBaseId ∉ allowedIds ids then throw Catalog.notFound
  else match records.find? fun record => record.id == knowledgeBaseId with
    | none => throw Catalog.notFound
    | some record =>
        if !allowInactive && record.status != .active then
          throw (notAvailable (if record.status = .deleting then "knowledge_base_deleting"
            else "knowledge_base_delete_failed"))
        else do
          let chromaCollection ←
            collectionForKnowledgeBase hexdigest workspace.workspaceId knowledgeBaseId
          let isDefault := knowledgeBaseId = defaultId
          .ok {
            userId := workspace.userId
            workspaceId := workspace.workspaceId
            knowledgeBaseId := knowledgeBaseId
            knowledgeBaseName := record.name
            settingsFile := workspace.settingsFile
            fileIndex :=
              if isDefault then workspace.dataFolder ++ ["files.json"]
              else workspace.dataFolder ++ ["knowledge_bases", knowledgeBaseId, "files.json"]
            uploadFolder :=
              if isDefault then workspace.workspaceUploadFolder
              else workspace.workspaceUploadFolder ++ ["__knowledge_bases__", knowledgeBaseId]
            workspaceUploadFolder := workspace.workspaceUploadFolder
            chromaCollection := chromaCollection }

/-! ## Ids that are safe -/

section

variable {allowed : Char → Bool} {replacement : Char}

/-- Characters that are allowed stay as they are. -/
theorem replaceRuns_self {characters : List Char} {inRun : Bool}
    (plain : ∀ character ∈ characters, allowed character = true) :
    replaceRuns allowed replacement inRun characters = characters := by
  induction characters generalizing inRun with
  | nil => rfl
  | cons character rest induction =>
      rw [replaceRuns, if_pos (plain character List.mem_cons_self),
        induction fun other member => plain other (List.mem_cons_of_mem _ member)]

theorem replaceRuns_allowed (replaced : allowed replacement = true) (inRun : Bool)
    (characters : List Char) :
    ∀ character ∈ replaceRuns allowed replacement inRun characters, allowed character = true := by
  induction characters generalizing inRun with
  | nil => simp [replaceRuns]
  | cons head rest induction =>
      rw [replaceRuns]
      split
      · rename_i fits
        intro character member
        rcases List.mem_cons.mp member with rfl | later
        · exact fits
        · exact induction false character later
      · split
        · exact induction true
        · intro character member
          rcases List.mem_cons.mp member with rfl | later
          · exact replaced
          · exact induction true character later

end

/-- The runs of a workspace id are those of its own alphabet. -/
theorem service_replaceRuns (inRun : Bool) (characters : List Char) :
    Service.replaceRuns inRun characters =
      replaceRuns isWorkspaceCharacter '-' inRun characters := by
  induction characters generalizing inRun with
  | nil => rfl
  | cons character rest induction => simp only [Service.replaceRuns, replaceRuns, induction]

/-- The ids that `safe_workspace_id` leaves as they are -/
structure SafeId (id : List Char) : Prop where
  nonempty : id ≠ []
  characters : ∀ character ∈ id, isWorkspaceCharacter character = true
  first : isEdge (id.head nonempty) = false
  last : isEdge (id.getLast nonempty) = false
  short : id.length ≤ 80

theorem SafeId.safeWorkspaceId {id : List Char} (safe : SafeId id) :
    safeWorkspaceId (String.ofList id) = String.ofList id := by
  have stripped : stripList isEdge id = id := stripList_of_ends safe.nonempty safe.first safe.last
  have whole : (stripList isEdge id).take 80 = id := by
    rw [stripped, List.take_of_length_le safe.short]
  unfold Service.safeWorkspaceId
  rw [String.toList_ofList, service_replaceRuns, replaceRuns_self safe.characters]
  change (if (stripList isEdge id).take 80 = [] then _ else
    String.ofList ((stripList isEdge id).take 80)) = _
  rw [whole, if_neg safe.nonempty]

theorem isWorkspaceCharacter_of_slug {character : Char} (slug : isSlugCharacter character = true) :
    isWorkspaceCharacter character = true := by
  simp only [isSlugCharacter, Bool.or_eq_true, Bool.and_eq_true, decide_eq_true_eq] at slug
  simp only [isWorkspaceCharacter, Bool.or_eq_true]
  rcases slug with (((⟨low, high⟩ | digit) | underscore) | dot) | dash
  · refine .inl (.inl (.inl ?_))
    rw [isAlphanum_iff]
    have first : 97 ≤ character.toNat := UInt32.le_iff_toNat_le.mp low
    have last : character.toNat ≤ 122 := UInt32.le_iff_toNat_le.mp high
    omega
  · refine .inl (.inl (.inl ?_))
    change (character.isAlpha || character.isDigit) = true
    rw [digit, Bool.or_true]
  · exact .inl (.inl (.inr underscore))
  · exact .inl (.inr dot)
  · exact .inr dash

theorem isEdge_of_isHexDigit {character : Char} (hex : isHexDigit character = true) :
    isEdge character = false := by
  by_contra edge
  simp only [isEdge, Bool.not_eq_false, Bool.or_eq_true, beq_iff_eq] at edge
  rcases edge with (rfl | rfl) | rfl <;> exact absurd hex (by decide)

/-- The slug of a user: it begins with no edge. -/
theorem userSlug_safe (email : String) : ∃ nonempty : userSlug email ≠ [],
    isEdge ((userSlug email).head nonempty) = false ∧ (userSlug email).length ≤ 48 ∧
      ∀ character ∈ userSlug email, isSlugCharacter character = true := by
  unfold userSlug
  dsimp only
  split
  · exact ⟨List.cons_ne_nil _ _, rfl, by decide, List.all_eq_true.mp (by decide)⟩
  · rename_i nonempty
    refine ⟨nonempty, ?_, List.length_take_le _ _, ?_⟩
    · generalize stripped : stripList isEdge _ = slug at nonempty
      cases slug with
      | nil => exact absurd rfl nonempty
      | cons first rest => exact stripList_head stripped
    · intro character member
      exact replaceRuns_allowed (by decide) false _ character
        (mem_of_mem_stripList (List.mem_of_mem_take member))

theorem userId_safe (lower : String → String) (email : String) (suffix : IdSuffix) :
    SafeId (userId lower email suffix).toList := by
  obtain ⟨nonempty, first, short, characters⟩ := userSlug_safe (lower email)
  have hex : suffix.hex ≠ [] := by
    intro empty
    have count := suffix.length_hex
    rw [empty] at count
    cases count
  rw [userId, String.toList_ofList]
  exact {
    nonempty := by simp
    characters := by
      intro character member
      rcases List.mem_append.mp member with slug | rest
      · exact isWorkspaceCharacter_of_slug (characters character slug)
      · rcases List.mem_cons.mp rest with rfl | digit
        · rfl
        · exact Service.isPlain_of_isHexDigit (suffix.digits character digit)
    first := by
      rw [List.head_append_of_ne_nil nonempty]
      exact first
    last := by
      rw [List.getLast_append_of_ne_nil _ (List.cons_ne_nil _ _), List.getLast_cons hex]
      exact isEdge_of_isHexDigit (suffix.digits _ (List.getLast_mem hex))
    short := by
      rw [List.length_append, List.length_cons, suffix.length_hex]
      omega }

/-! ## Contexts of users -/

/-- A context that is made for a user -/
structure Made (lower hexdigest : String → String) (roots : Roots) (email : String)
    (suffix : IdSuffix) (context : KnowledgeBaseContext) : Prop where
  made : ∃ workspace value apiKey records allowInactive,
    workspaceForUser roots (userId lower email suffix) = some workspace ∧
      knowledgeBaseContext hexdigest workspace value apiKey records allowInactive = .ok context

/-- What the storage of a user and a knowledge base is called -/
structure Named (hexdigest : String → String) (roots : Roots) (context : KnowledgeBaseContext) :
    Prop where
  user : SafeId context.userId.toList
  workspace : context.workspaceId = context.userId
  knowledgeBase : context.knowledgeBaseId = defaultId ∨
    isKnowledgeBaseId context.knowledgeBaseId = true
  fileIndex : context.fileIndex = roots.workspaceDataDir ++ [context.userId] ++
    if context.knowledgeBaseId = defaultId then ["files.json"]
    else ["knowledge_bases", context.knowledgeBaseId, "files.json"]
  uploadFolder : context.uploadFolder = roots.workspaceUploadDir ++ [context.userId] ++
    if context.knowledgeBaseId = defaultId then []
    else ["__knowledge_bases__", context.knowledgeBaseId]
  collection : context.chromaCollection =
    if context.knowledgeBaseId = defaultId then "documents_" ++ collectionSuffix context.userId
    else "kb_" ++ shortDigest hexdigest (context.userId ++ ":" ++ context.knowledgeBaseId)

theorem validateId_ok {value : Option String} {id : String} (valid : validateId value = .ok id) :
    id = defaultId ∨ isKnowledgeBaseId id = true := by
  cases value with
  | none =>
      cases valid
      exact .inl rfl
  | some value =>
      change Catalog.validateId value = .ok id at valid
      unfold Catalog.validateId validateKnowledgeBaseId at valid
      dsimp only at valid
      split at valid
      · rename_i accepted
        cases valid
        split at accepted
        · rename_i default
          cases accepted
          exact .inl default
        · split at accepted
          · rename_i identifier
            cases accepted
            exact .inr identifier
          · cases accepted
      · cases valid

/-- An id that is accepted is accepted again. -/
theorem validateId_again {id : String} (valid : id = defaultId ∨ isKnowledgeBaseId id = true) :
    validateId (some id) = .ok id := by
  rcases valid with rfl | identifier
  · decide
  · change Catalog.validateId id = .ok id
    rw [Catalog.validateId, Service.validateKnowledgeBaseId_self identifier]

theorem collectionForKnowledgeBase_ok {hexdigest : String → String} {workspaceId id : String}
    {collection : String} (valid : id = defaultId ∨ isKnowledgeBaseId id = true)
    (named : collectionForKnowledgeBase hexdigest workspaceId id = .ok collection) :
    collection = if id = defaultId then collectionForWorkspace workspaceId
      else "kb_" ++ shortDigest hexdigest (workspaceId ++ ":" ++ id) := by
  unfold collectionForKnowledgeBase at named
  rw [validateId_again valid] at named
  change (if id = defaultId then _ else _) = _ at named
  split at named
  · rename_i default
    cases named
    rw [if_pos default]
  · rename_i additional
    cases named
    rw [if_neg additional]

/-- What a context is made of -/
theorem knowledgeBaseContext_ok {hexdigest : String → String} {workspace : WorkspaceContext}
    {value : Option String} {apiKey : Option (Option (List String))}
    {records : List PublicRecord} {allowInactive : Bool} {context : KnowledgeBaseContext}
    (made : knowledgeBaseContext hexdigest workspace value apiKey records allowInactive =
      .ok context) :
    (context.userId = workspace.userId ∧ context.workspaceId = workspace.workspaceId) ∧
    (context.knowledgeBaseId = defaultId ∨ isKnowledgeBaseId context.knowledgeBaseId = true) ∧
    context.fileIndex = (if context.knowledgeBaseId = defaultId
      then workspace.dataFolder ++ ["files.json"]
      else workspace.dataFolder ++ ["knowledge_bases", context.knowledgeBaseId, "files.json"]) ∧
    context.uploadFolder = (if context.knowledgeBaseId = defaultId
      then workspace.workspaceUploadFolder
      else workspace.workspaceUploadFolder ++ ["__knowledge_bases__", context.knowledgeBaseId]) ∧
    context.chromaCollection = if context.knowledgeBaseId = defaultId
      then collectionForWorkspace workspace.workspaceId
      else "kb_" ++ shortDigest hexdigest
        (workspace.workspaceId ++ ":" ++ context.knowledgeBaseId) := by
  unfold knowledgeBaseContext at made
  obtain ⟨id, valid, made⟩ := Fallible.bind_ok made
  split at made
  · cases made
  · split at made
    · cases made
    · split at made
      · cases made
      · obtain ⟨collection, collected, made⟩ := Fallible.bind_ok made
        cases made
        have accepted := validateId_ok valid
        exact ⟨⟨rfl, rfl⟩, accepted, rfl, rfl, collectionForKnowledgeBase_ok accepted collected⟩

theorem Made.named {lower hexdigest : String → String} {roots : Roots} {email : String}
    {suffix : IdSuffix} {context : KnowledgeBaseContext}
    (made : Made lower hexdigest roots email suffix context) :
    context.userId = userId lower email suffix ∧ Named hexdigest roots context := by
  obtain ⟨workspace, value, apiKey, records, allowInactive, built, made⟩ := made.made
  have safe := userId_safe lower email suffix
  generalize userId lower email suffix = id at built safe
  have workspaceId : safeWorkspaceId id = id := by
    have same := safe.safeWorkspaceId
    rwa [String.ofList_toList] at same
  unfold workspaceForUser at built
  split at built
  · cases built
  · rw [Option.some.injEq] at built
    obtain ⟨⟨user, work⟩, accepted, fileIndex, uploadFolder, collection⟩ :=
      knowledgeBaseContext_ok made
    rw [← built] at user work fileIndex uploadFolder collection
    dsimp only at user work fileIndex uploadFolder collection
    rw [workspaceId, ← user] at work fileIndex uploadFolder collection
    refine ⟨user, ?_⟩
    exact {
      user := user ▸ safe
      workspace := work
      knowledgeBase := accepted
      fileIndex := by
        rw [fileIndex]
        split <;> rfl
      uploadFolder := by
        rw [uploadFolder]
        split <;> simp
      collection := by
        rw [collection, collectionForWorkspace] }

/-! ## Tenants apart -/

/-- The storage of two users and knowledge bases has nothing in common. -/
structure Apart (first second : KnowledgeBaseContext) : Prop where
  workspaces : first.userId ≠ second.userId → first.workspaceId ≠ second.workspaceId
  fileIndexes : first.fileIndex ≠ second.fileIndex
  dataFolders : first.fileIndex.dropLast ≠ second.fileIndex.dropLast
  uploadFolders : first.uploadFolder ≠ second.uploadFolder
  collections : first.chromaCollection ≠ second.chromaCollection
  scopes : first.userId ≠ second.userId → ∀ scope : Scope,
    scope.workspaceId = second.workspaceId →
      ¬(first.workspaceId ++ ":").toList <+: scope.key.toList

section

variable {hexdigest : String → String} {roots : Roots} {first second : KnowledgeBaseContext}

/-- A scope key begins with the workspace it is of. -/
theorem workspace_of_prefix {workspaceId : String} (colonless : ':' ∉ workspaceId.toList)
    (scope : Scope) (within : (workspaceId ++ ":").toList <+: scope.key.toList) :
    workspaceId = scope.workspaceId := by
  have one : Service.Colonless [workspaceId] := by
    intro part member
    rw [List.mem_singleton.mp member]
    exact colonless
  have terminated : Service.terminated [workspaceId] <+: scope.key.toList := by
    rw [Service.terminated_singleton]
    rwa [String.toList_append] at within
  have parts := ((Service.terminated_prefix_iff one scope.parts_colonless scope.key_parts).mp
    terminated).1
  unfold Scope.parts at parts
  split at parts
  · exact (List.cons_prefix_cons.mp parts).1
  · split at parts
    · exact (List.cons_prefix_cons.mp parts).1
    · exact (List.cons_prefix_cons.mp parts).1

/-- An id in the name of a collection: an underscore takes the place of the dots. -/
def withoutDots (id : String) : String :=
  String.ofList (replaceRuns isCollectionCharacter '_' false id.toList)

theorem Named.collectionSuffix (named : Named hexdigest roots first) :
    collectionSuffix first.userId = withoutDots first.userId := by
  have same := named.user.safeWorkspaceId
  rw [String.ofList_toList] at same
  rw [Tenants.collectionSuffix, same, withoutDots]

theorem Named.colonless (named : Named hexdigest roots first) : ':' ∉ first.userId.toList :=
  fun member => absurd (named.user.characters ':' member) (by decide)

/-- The parts of a path below the folder of a user tell the user and the knowledge base. -/
theorem folder_inj {root : Path} {user other : String} {rest others : List String}
    (same : root ++ [user] ++ rest = root ++ [other] ++ others) : user = other ∧ rest = others := by
  rw [List.append_assoc, List.append_assoc] at same
  exact List.cons.inj (List.append_cancel_left same)

theorem digestText_inj {user other id otherId : String} (colonless : ':' ∉ user.toList)
    (otherColonless : ':' ∉ other.toList) (same : user ++ ":" ++ id = other ++ ":" ++ otherId) :
    user = other ∧ id = otherId := by
  have lists := congrArg String.toList same
  simp only [String.toList_append] at lists
  have colon : ":".toList = [':'] := rfl
  rw [colon, List.append_assoc, List.append_assoc, List.singleton_append,
    List.singleton_append] at lists
  have split := congrArg (partition ':') lists
  rw [partition_append colonless, partition_append otherColonless, Prod.mk.injEq,
    Option.some.injEq] at split
  exact ⟨String.toList_injective split.1, String.toList_injective split.2⟩

/-- No default collection has the name of another one. -/
theorem kinds_apart {suffix digest : String} : "documents_" ++ suffix ≠ "kb_" ++ digest := by
  intro same
  have lists := congrArg String.toList same
  rw [String.toList_append, String.toList_append] at lists
  have letter := (List.cons.inj lists).1
  exact absurd letter (by decide)

/-- Two users and knowledge bases have nothing in common, unless both are default knowledge bases
and the ids of the users are equal without their dots. -/
theorem apart_iff {lower : String → String} {email otherEmail : String}
    {suffix otherSuffix : IdSuffix}
    (firstMade : Made lower hexdigest roots email suffix first)
    (secondMade : Made lower hexdigest roots otherEmail otherSuffix second)
    (different : first.userId ≠ second.userId ∨ first.knowledgeBaseId ≠ second.knowledgeBaseId)
    (collisionFree : shortDigest hexdigest (first.userId ++ ":" ++ first.knowledgeBaseId) =
        shortDigest hexdigest (second.userId ++ ":" ++ second.knowledgeBaseId) →
      first.userId ++ ":" ++ first.knowledgeBaseId =
        second.userId ++ ":" ++ second.knowledgeBaseId) :
    Apart first second ↔ ¬(first.knowledgeBaseId = defaultId ∧
      second.knowledgeBaseId = defaultId ∧
        withoutDots first.userId = withoutDots second.userId) := by
  have named := firstMade.named.2
  have otherNamed := secondMade.named.2
  constructor
  · rintro apart ⟨default, otherDefault, same⟩
    apply apart.collections
    rw [named.collection, otherNamed.collection, if_pos default, if_pos otherDefault,
      named.collectionSuffix, otherNamed.collectionSuffix, same]
  · intro distinct
    have distinctPair : ¬(first.userId = second.userId ∧
        first.knowledgeBaseId = second.knowledgeBaseId) := by
      rintro ⟨sameUser, sameId⟩
      rcases different with user | id
      · exact user sameUser
      · exact id sameId
    exact {
      workspaces := by
        rw [named.workspace, otherNamed.workspace]
        exact id
      fileIndexes := by
        intro same
        rw [named.fileIndex, otherNamed.fileIndex] at same
        obtain ⟨sameUser, rest⟩ := folder_inj same
        refine distinctPair ⟨sameUser, ?_⟩
        split_ifs at rest with default otherDefault otherDefault
        · rw [default, otherDefault]
        · simp at rest
        · simp at rest
        · exact (List.cons.inj (List.cons.inj rest).2).1
      dataFolders := by
        intro same
        rw [named.fileIndex, otherNamed.fileIndex] at same
        split_ifs at same with default otherDefault otherDefault
        · rw [List.dropLast_append_of_ne_nil (List.cons_ne_nil _ _),
            List.dropLast_append_of_ne_nil (List.cons_ne_nil _ _)] at same
          exact distinctPair ⟨(folder_inj same).1, by rw [default, otherDefault]⟩
        · rw [List.dropLast_append_of_ne_nil (List.cons_ne_nil _ _),
            List.dropLast_append_of_ne_nil (List.cons_ne_nil _ _)] at same
          have rest := (folder_inj same).2
          simp at rest
        · rw [List.dropLast_append_of_ne_nil (List.cons_ne_nil _ _),
            List.dropLast_append_of_ne_nil (List.cons_ne_nil _ _)] at same
          have rest := (folder_inj same).2
          simp at rest
        · rw [List.dropLast_append_of_ne_nil (List.cons_ne_nil _ _),
            List.dropLast_append_of_ne_nil (List.cons_ne_nil _ _)] at same
          obtain ⟨sameUser, rest⟩ := folder_inj same
          exact distinctPair ⟨sameUser, (List.cons.inj (List.cons.inj rest).2).1⟩
      uploadFolders := by
        intro same
        rw [named.uploadFolder, otherNamed.uploadFolder] at same
        obtain ⟨sameUser, rest⟩ := folder_inj same
        refine distinctPair ⟨sameUser, ?_⟩
        split_ifs at rest with default otherDefault otherDefault
        · rw [default, otherDefault]
        · exact (List.cons.inj (List.cons.inj rest).2).1
      collections := by
        intro same
        rw [named.collection, otherNamed.collection] at same
        split_ifs at same with default otherDefault otherDefault
        · rw [named.collectionSuffix, otherNamed.collectionSuffix,
            String.append_right_inj] at same
          exact distinct ⟨default, otherDefault, same⟩
        · exact kinds_apart same
        · exact kinds_apart same.symm
        · rw [String.append_right_inj] at same
          exact distinctPair (digestText_inj named.colonless otherNamed.colonless
            (collisionFree same))
      scopes := by
        intro users scope workspace within
        rw [named.workspace] at within
        have here := workspace_of_prefix named.colonless scope within
        rw [workspace, otherNamed.workspace] at here
        exact users here }

end

/-! ## Two users of one collection -/

theorem zeros_digits : ∀ character ∈ List.replicate 8 '0', isHexDigit character = true :=
  List.all_eq_true.mp (by decide)

def suffixZeros : IdSuffix where
  hex := List.replicate 8 '0'
  length_hex := rfl
  digits := zeros_digits

def generalRecord : PublicRecord where
  id := defaultId
  name := "General"
  description := ""
  status := .active
  createdAt := ""
  updatedAt := ""
  deleteError := ""
  isDefault := true

/-- The default knowledge base of a user -/
def defaultContext (userId collection : String) : KnowledgeBaseContext where
  userId := userId
  workspaceId := userId
  knowledgeBaseId := defaultId
  knowledgeBaseName := "General"
  settingsFile := ["data", userId, "settings.json"]
  fileIndex := ["data", userId, "files.json"]
  uploadFolder := ["uploads", userId]
  workspaceUploadFolder := ["uploads", userId]
  chromaCollection := collection

def roots : Roots := ⟨["data"], ["uploads"]⟩

/-- The digests of two texts -/
def sampleDigest (text : String) : String :=
  if text = "ann-x-00000000:default" then
    "35b06411bfdf96092d0c896c0b28fc399bd6f80fa497bda99b2871173597664c"
  else if text = "bob-x-00000000:default" then
    "a6ed97e4de7622c2b4f97f9958948e90c61e85963e521c2241a90d5b990641e2"
  else ""

theorem ann_made : Made lower sampleDigest roots "ann@x" suffixZeros
    (defaultContext "ann-x-00000000" "documents_ann-x-00000000") :=
  ⟨_, none, none, [generalRecord], false, rfl, by decide +kernel⟩

theorem bob_made : Made lower sampleDigest roots "bob@x" suffixZeros
    (defaultContext "bob-x-00000000" "documents_bob-x-00000000") :=
  ⟨_, none, none, [generalRecord], false, rfl, by decide +kernel⟩

theorem ann_bob_apart : Apart (defaultContext "ann-x-00000000" "documents_ann-x-00000000")
    (defaultContext "bob-x-00000000" "documents_bob-x-00000000") := by
  have digests : shortDigest sampleDigest "ann-x-00000000:default" ≠
      shortDigest sampleDigest "bob-x-00000000:default" := by
    decide +kernel
  have names : withoutDots "ann-x-00000000" ≠ withoutDots "bob-x-00000000" := by decide +kernel
  exact (apart_iff ann_made bob_made (.inl (by decide +kernel)) fun same =>
    absurd same digests).mpr fun both => names both.2.2

theorem dotted_made : Made lower sampleDigest roots "a.b@x" suffixZeros
    (defaultContext "a.b-x-00000000" "documents_a_b-x-00000000") :=
  ⟨_, none, none, [generalRecord], false, rfl, by decide +kernel⟩

theorem underscored_made : Made lower sampleDigest roots "a_b@x" suffixZeros
    (defaultContext "a_b-x-00000000" "documents_a_b-x-00000000") :=
  ⟨_, none, none, [generalRecord], false, rfl, by decide +kernel⟩

/-- Users whose names differ in a dot and an underscore share their default collection. -/
theorem dotted_shares_collection :
    Made lower sampleDigest roots "a.b@x" suffixZeros
      (defaultContext "a.b-x-00000000" "documents_a_b-x-00000000") ∧
    Made lower sampleDigest roots "a_b@x" suffixZeros
      (defaultContext "a_b-x-00000000" "documents_a_b-x-00000000") ∧
    ("a.b-x-00000000" : String) ≠ "a_b-x-00000000" ∧
    ¬Apart (defaultContext "a.b-x-00000000" "documents_a_b-x-00000000")
      (defaultContext "a_b-x-00000000" "documents_a_b-x-00000000") :=
  ⟨dotted_made, underscored_made, by decide +kernel, fun apart => apart.collections rfl⟩

end RAGuardian.Tenants
