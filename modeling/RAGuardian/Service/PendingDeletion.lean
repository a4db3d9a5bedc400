import RAGuardian.Service.PendingAccounts
import RAGuardian.Service.RedisPendingResults

/-! # What the two stores of staged results delete

The key of a place separates its parts by a control character in one store and by colons,
which scope keys have too, in the other. -/

namespace RAGuardian.Service

open Text
open History (Timestamp)

/-! ## Places -/

/-- `_generate_lease_token`: a text of hexadecimal digits -/
def isLeaseToken (value : String) : Bool :=
  value ≠ "" && value.toList.all isHexDigit

/-- A place the application stages a result at. -/
structure Place.Valid (place : Place) : Prop where
  scope : ∃ scope : Scope, place.scopeKey = scope.key
  turn : ∃ value, validateTurnId value = some place.turnId
  lease : isLeaseToken place.leaseToken = true

/-- The parts of the key of a place whose scope has some parts. -/
def Place.partsAfter (place : Place) (scope : Scope) : List String :=
  scope.parts ++ [place.turnId, place.leaseToken]

/-- Deleting a scope reaches the place, although it is one of another scope. The default
scope of a conversation named `multi-chat` and the scopes of the chats over several
knowledge bases reach each other. -/
def Overreaches (scope : Scope) (place : Place) : Prop :=
  (scope.pluralRequest = false ∧ scope.knowledgeBaseId = "default" ∧
      scope.conversationId = "multi-chat" ∧ ∃ other : Scope, place.scopeKey = other.key ∧
        other.pluralRequest = true ∧ other.workspaceId = scope.workspaceId) ∨
    (scope.pluralRequest = true ∧ place.scopeKey = scope.workspaceId ++ ":multi-chat" ∧
      scope.conversationId = place.turnId)

theorem isLeaseToken_plain {value : String} (token : isLeaseToken value = true) : Plain value := by
  rw [isLeaseToken, Bool.and_eq_true, List.all_eq_true] at token
  exact fun character member => isPlain_of_isHexDigit (token.2 character member)

namespace Place

variable {place : Place}

theorem Valid.colonless (valid : place.Valid) (scope : Scope) :
    Colonless (place.partsAfter scope) := by
  rcases valid.turn with ⟨value, turn⟩
  intro part member
  rcases List.mem_append.mp member with inScope | inPlace
  · exact scope.parts_colonless part inScope
  · simp only [List.mem_cons, List.not_mem_nil, or_false] at inPlace
    rcases inPlace with rfl | rfl
    · exact (validateTurnId_plain turn).colonless
    · exact (isLeaseToken_plain valid.lease).colonless

/-- The chats over several knowledge bases of a workspace. -/
theorem multiChat_iff {scope other : Scope} :
    (∃ multi : Scope, other.key = multi.key ∧ multi.pluralRequest = true ∧
      multi.workspaceId = scope.workspaceId) ↔
      other.pluralRequest = true ∧ scope.workspaceId = other.workspaceId := by
  constructor
  · rintro ⟨multi, same, plural, workspace⟩
    rw [Scope.key_eq_iff, Scope.parts, Scope.parts, if_pos plural] at same
    split at same
    · rename_i otherPlural
      exact ⟨otherPlural, ((List.cons.inj same).1.trans workspace).symm⟩
    · split at same
      · have lengths := congrArg List.length same
        cases lengths
      · have lengths := congrArg List.length same
        cases lengths
  · exact fun found => ⟨other, rfl, found.1, found.2.symm⟩

/-- The default scope of the conversation `multi-chat`. -/
theorem default_iff {scope other : Scope} :
    other.key = scope.workspaceId ++ ":multi-chat" ↔ other.pluralRequest = false ∧
      other.knowledgeBaseId = "default" ∧ scope.workspaceId = other.workspaceId ∧
      "multi-chat" = other.conversationId := by
  constructor
  · intro same
    have parts : other.parts = [scope.workspaceId, "multi-chat"] := by
      apply terminated_injective other.parts_colonless
      · intro part member
        simp only [List.mem_cons, List.not_mem_nil, or_false] at member
        rcases member with rfl | rfl
        · exact scope.workspace_plain.colonless
        · decide
      · rw [← Scope.key_parts, same]
        simp [terminated]
    unfold Scope.parts at parts
    split at parts
    · have lengths := congrArg List.length parts
      cases lengths
    · rename_i single
      split at parts
      · rename_i default
        simp only [List.cons.injEq, and_true] at parts
        exact ⟨by simpa using single, default, parts.1.symm, parts.2.symm⟩
      · have lengths := congrArg List.length parts
        cases lengths
  · rintro ⟨single, default, workspace, conversation⟩
    rw [Scope.key, queryScopedConversationId, single, if_neg Bool.false_ne_true,
      scopedConversationId, if_pos default, workspace, ← conversation, String.append_assoc]
    rfl

/-- When the first parts of the key of a place are those of a scope. -/
theorem parts_prefix {scope other : Scope} (here : place.scopeKey = other.key) :
    (scope.parts <+: place.partsAfter other ∧ scope.parts ≠ place.partsAfter other) ↔
      scope.key = place.scopeKey ∨ Overreaches scope place := by
  rw [Overreaches, here, multiChat_iff, default_iff, Scope.key_eq_iff, partsAfter]
  have short : ("kb" : String).length < 8 := by decide
  have named := scope.conversation_ne short
  have otherNamed := other.conversation_ne short
  have apart : ("kb" : String) ≠ "multi-chat" := by decide
  unfold Scope.parts
  cases plural : scope.pluralRequest with
  | true =>
      cases otherPlural : other.pluralRequest with
      | true => simp
      | false =>
          by_cases default : other.knowledgeBaseId = "default"
          · simp [default, and_assoc]
          · simp [default]
  | false =>
      by_cases single : scope.knowledgeBaseId = "default"
      · cases otherPlural : other.pluralRequest with
        | true =>
            simp [single]
            tauto
        | false =>
            by_cases default : other.knowledgeBaseId = "default"
            · simp [single, default]
            · simp [single, default, named]
      · cases otherPlural : other.pluralRequest with
        | true => simp [single]
        | false =>
            by_cases default : other.knowledgeBaseId = "default"
            · simp [single, default, otherNamed.symm]
            · simp [single, default]

end Place

/-! ## Stores that hold the same results -/

/-- Both stores hold the results staged at some places, none of which has expired. -/
structure Hold (config : RedisPendingConfig) (now : Timestamp) (places : List Place)
    (store : PendingStore) (keys : RedisKeys) : Prop where
  stored : ∀ key, (∃ entry, store.entries.get? key = some entry) ↔
    ∃ place ∈ places, key = place.key
  unexpired : ∀ key entry, store.entries.get? key = some entry → now < entry.expiresAt
  payload : ∀ place ∈ places, ∃ document,
    keys.get? (config.redisKey place.scopeKey place.turnId place.leaseToken) =
      some (.payload document)
  indexed : ∀ (scope : Scope) (turnId : String), (∃ value, validateTurnId value = some turnId) →
    ∀ key, key ∈ keys.smembers (config.turnIndexKey scope.key turnId) ↔
      ∃ place ∈ places, place.scopeKey = scope.key ∧ place.turnId = turnId ∧
        key = config.redisKey place.scopeKey place.turnId place.leaseToken

/-- `key_prefix` has no characters that mean something in a pattern. -/
def RedisPendingConfig.PlainPrefix (config : RedisPendingConfig) : Prop :=
  ∀ character ∈ config.keyPrefix.toList, character ∉ Glob.specialCharacters

/-- The result staged at a place is not in the stores any more. -/
def Forgotten (store : PendingStore) (place : Place) : Prop :=
  store.entries.get? place.key = none

def RedisForgotten (config : RedisPendingConfig) (keys : RedisKeys) (place : Place) : Prop :=
  keys.get? (config.redisKey place.scopeKey place.turnId place.leaseToken) = none

section

variable {config : RedisPendingConfig} {now : Instant} {places : List Place}
  {store : PendingStore} {keys : RedisKeys} {place : Place}

theorem Place.Valid.plain (valid : place.Valid) : place.Plain := by
  rcases valid.scope with ⟨scope, here⟩
  rcases valid.turn with ⟨value, turn⟩
  refine ⟨fun member => ?_, fun member => ?_, fun member => ?_⟩
  · rw [here] at member
    rcases scope.key_characters member with plain | colon
    · cases plain
    · exact absurd colon (by decide)
  · cases validateTurnId_plain turn _ member
  · cases isLeaseToken_plain valid.lease _ member

/-! ### In memory -/

theorem Scope.key_separated (scope : Scope) : Char.ofNat 0x1f ∉ scope.key.toList := by
  intro member
  rcases scope.key_characters member with plain | colon
  · cases plain
  · exact absurd colon (by decide)

/-- A part and the separator start a text whose first part is the same. -/
theorem separated_prefix_iff {separator : Char} {part other rest after : List Char}
    (absent : separator ∉ part) (otherAbsent : separator ∉ other) :
    part ++ separator :: rest <+: other ++ separator :: after ↔ part = other ∧ rest <+: after := by
  constructor
  · rintro ⟨others, same⟩
    rw [List.append_assoc, List.cons_append] at same
    have split := congrArg (partition separator) same
    rw [partition_append absent, partition_append otherAbsent, Prod.mk.injEq,
      Option.some.injEq] at split
    exact ⟨split.1, others, split.2⟩
  · rintro ⟨rfl, within⟩
    exact (List.prefix_append_right_inj part).mpr (List.cons_prefix_cons.mpr ⟨rfl, within⟩)

theorem startsWith_scope (valid : place.Valid) (scope : Scope) :
    startsWith (scope.key ++ unitSeparator) place.key = true ↔ place.scopeKey = scope.key := by
  have separator : unitSeparator.toList = Char.ofNat 0x1f :: [] := rfl
  rw [startsWith, List.isPrefixOf_iff_prefix, String.toList_append, separator, Place.key,
    pendingKey, turnPrefix]
  simp only [String.toList_append, separator, List.append_assoc, List.cons_append,
    List.nil_append]
  rw [separated_prefix_iff scope.key_separated valid.plain.1]
  simp [String.toList_inj, eq_comm]

theorem startsWith_turn (valid : place.Valid) (scope : Scope) {turnId : String}
    (turn : ∃ value, validateTurnId value = some turnId) :
    startsWith (turnPrefix scope.key turnId) place.key = true ↔
      place.scopeKey = scope.key ∧ place.turnId = turnId := by
  rcases turn with ⟨value, turn⟩
  have absent : Char.ofNat 0x1f ∉ turnId.toList := fun member => by
    cases validateTurnId_plain turn _ member
  have separator : unitSeparator.toList = Char.ofNat 0x1f :: [] := rfl
  rw [startsWith, List.isPrefixOf_iff_prefix, Place.key, pendingKey, turnPrefix, turnPrefix]
  simp only [String.toList_append, separator, List.append_assoc, List.cons_append,
    List.nil_append]
  rw [separated_prefix_iff scope.key_separated valid.plain.1,
    separated_prefix_iff absent valid.plain.2.1]
  simp [String.toList_inj, eq_comm]

theorem mem_keysFrom {start key : String} : key ∈ store.keysFrom start ↔
    (∃ entry, store.entries.get? key = some entry) ∧ startsWith start key = true := by
  rw [PendingStore.keysFrom, List.mem_filter, Dictionary.mem_keys]

/-- The in-memory store forgets the results of exactly the scope. -/
theorem clearScope_forgotten (hold : Hold config now.time places store keys)
    (valid : ∀ place ∈ places, place.Valid) (scope : Scope) (member : place ∈ places) :
    Forgotten (store.clearScope now scope.key).2 place ↔ place.scopeKey = scope.key := by
  rcases (hold.stored place.key).mpr ⟨place, member, rfl⟩ with ⟨entry, found⟩
  have purged : (store.purgeExpired now.time).entries.get? place.key = some entry :=
    get?_purgeExpired.mpr ⟨found, hold.unexpired _ _ found⟩
  rw [Forgotten, PendingStore.clearScope, if_neg scope.key_ne_empty, get?_removeLocked, purged,
    ← startsWith_scope (valid place member) scope]
  simp [mem_keysFrom, purged]

theorem Place.Valid.turn_ne_empty {turnId : String}
    (turn : ∃ value, validateTurnId value = some turnId) : turnId ≠ "" := by
  rintro rfl
  rcases turn with ⟨value, turn⟩
  unfold validateTurnId at turn
  dsimp only at turn
  split at turn
  · cases turn
  · split at turn
    · rename_i identifier
      have empty := Option.some.inj turn
      rw [empty] at identifier
      cases identifier
    · cases turn

/-- The in-memory store forgets the results of exactly the turn. -/
theorem delete_forgotten (hold : Hold config now.time places store keys)
    (valid : ∀ place ∈ places, place.Valid) (scope : Scope) {turnId : String}
    (turn : ∃ value, validateTurnId value = some turnId) (member : place ∈ places) :
    Forgotten (store.delete scope.key turnId).2 place ↔
      place.scopeKey = scope.key ∧ place.turnId = turnId := by
  rcases (hold.stored place.key).mpr ⟨place, member, rfl⟩ with ⟨entry, found⟩
  have named : ¬ (scope.key = "" ∨ turnId = "") :=
    not_or.mpr ⟨scope.key_ne_empty, Place.Valid.turn_ne_empty turn⟩
  rw [Forgotten, PendingStore.delete, if_neg named, get?_removeLocked, found,
    ← startsWith_turn (valid place member) scope turn]
  simp [mem_keysFrom, found]

/-! ### In Redis -/

theorem not_special {character : Char} (plain : isPlain character = true ∨ character = ':') :
    character ∉ Glob.specialCharacters := by
  intro special
  simp only [Glob.specialCharacters, List.mem_cons, List.not_mem_nil, or_false] at special
  rcases special with rfl | rfl | rfl | rfl <;> revert plain <;> decide

/-- The text of a place behind the prefix of its key. -/
def Place.text (place : Place) : List Char :=
  place.scopeKey.toList ++ ':' :: (place.turnId.toList ++ ':' :: place.leaseToken.toList)

theorem redisKey_toList (config : RedisPendingConfig) (place : Place) :
    (config.redisKey place.scopeKey place.turnId place.leaseToken).toList =
      config.keyPrefix.toList ++ ':' :: place.text := by
  simp [RedisPendingConfig.redisKey, Place.text]

theorem Place.text_parts {scope : Scope} (here : place.scopeKey = scope.key) :
    place.text ++ [':'] = terminated (place.partsAfter scope) := by
  rw [Place.partsAfter, terminated_append, ← scope.key_parts, Place.text, here]
  simp [terminated]

/-- A pattern of a scope matches the keys that start with the scope. -/
theorem selects_scope (plain : config.PlainPrefix) (valid : place.Valid) (scope : Scope) :
    Glob.selects (config.keyPrefix ++ ":" ++ scope.key ++ ":*")
      (config.redisKey place.scopeKey place.turnId place.leaseToken) = true ↔
        scope.key = place.scopeKey ∨ Overreaches scope place := by
  rcases valid.scope with ⟨other, here⟩
  have pattern : config.keyPrefix ++ ":" ++ scope.key ++ ":*" =
      (config.keyPrefix ++ ":" ++ scope.key ++ ":") ++ "*" :=
    String.toList_injective (by simp)
  rw [pattern, Glob.selects_start, redisKey_toList, ← Place.parts_prefix here,
    ← terminated_prefix_iff scope.parts_colonless (valid.colonless other) (Place.text_parts here),
    ← scope.key_parts]
  · simp
  · intro character member
    simp only [String.toList_append, List.mem_append] at member
    rcases member with ((inPrefix | colon) | inKey) | colon
    · exact plain character inPrefix
    · exact not_special (.inr (by simpa using colon))
    · exact not_special (scope.key_characters inKey)
    · exact not_special (.inr (by simpa using colon))

/-- The pattern of the turn indexes of a scope matches no key of a result. -/
theorem selects_turns (plain : config.PlainPrefix) (valid : place.Valid) (scope : Scope) :
    Glob.selects (config.keyPrefix ++ ":__turn:" ++ scope.key ++ ":*")
      (config.redisKey place.scopeKey place.turnId place.leaseToken) = false := by
  rcases valid.scope with ⟨other, here⟩
  rcases other.key_start with ⟨first, rest, characters, start⟩
  have pattern : config.keyPrefix ++ ":__turn:" ++ scope.key ++ ":*" =
      (config.keyPrefix ++ ":__turn:" ++ scope.key ++ ":") ++ "*" :=
    String.toList_injective (by simp)
  rw [pattern, Bool.eq_false_iff, ne_eq, Glob.selects_start, redisKey_toList, Place.text, here,
    characters]
  · simp [Ne.symm start]
  · intro character member
    simp only [String.toList_append, List.mem_append] at member
    rcases member with ((inPrefix | turns) | inKey) | colon
    · exact plain character inPrefix
    · have allowed : ∀ character ∈ (":__turn:" : String).toList,
          isPlain character = true ∨ character = ':' := by
        have all : (":__turn:" : String).toList.all
            (fun character => isPlain character || character == ':') = true := by
          decide
        simpa using List.all_eq_true.mp all
      exact not_special (allowed character turns)
    · exact not_special (scope.key_characters inKey)
    · exact not_special (.inr (by simpa using colon))

/-- The Redis store forgets the results whose keys start with the scope. -/
theorem redisClearScope_forgotten (hold : Hold config now.time places store keys)
    (plain : config.PlainPrefix) (valid : ∀ place ∈ places, place.Valid) (scope : Scope)
    (member : place ∈ places) :
    RedisForgotten config (RedisPending.clearScope config scope.key keys).2 place ↔
      scope.key = place.scopeKey ∨ Overreaches scope place := by
  rcases hold.payload place member with ⟨document, found⟩
  rw [← selects_scope plain (valid place member) scope, RedisForgotten, RedisPending.clearScope,
    if_neg scope.key_ne_empty, Option.eq_none_iff_forall_ne_some]
  simp only [RedisKeys.scanDelete, ne_eq, Dictionary.get?_removeWhere, found,
    selects_turns plain (valid place member) scope, Option.some.injEq]
  cases Glob.selects _ _ <;> simp

/-- The keys of two valid places are different. -/
theorem redisKey_injective {other : Place} (valid : place.Valid) (otherValid : other.Valid)
    (same : config.redisKey place.scopeKey place.turnId place.leaseToken =
      config.redisKey other.scopeKey other.turnId other.leaseToken) :
    place.scopeKey = other.scopeKey ∧ place.turnId = other.turnId := by
  rcases valid.scope with ⟨scope, here⟩
  rcases otherValid.scope with ⟨otherScope, there⟩
  have texts := congrArg String.toList same
  rw [redisKey_toList, redisKey_toList, List.append_cancel_left_eq, List.cons.injEq] at texts
  have parts : place.partsAfter scope = other.partsAfter otherScope := by
    apply terminated_injective (valid.colonless scope) (otherValid.colonless otherScope)
    rw [← Place.text_parts here, ← Place.text_parts there, texts.2]
  have split := List.append_inj' parts rfl
  simp only [List.cons.injEq, and_true] at split
  rw [here, there, Scope.key_eq_iff]
  exact ⟨split.1, split.2.1⟩

theorem get?_srem {key member other : String} (different : other ≠ key) :
    (RedisKeys.srem key member keys).get? other = keys.get? other := by
  unfold RedisKeys.srem
  split
  · split
    · exact Dictionary.get?_erase_of_ne different
    · exact Dictionary.get?_set_of_ne different
  · rfl

/-- The loop of `delete` over the members of a turn. -/
theorem get?_deleteMembers {key indexKey : String} (different : key ≠ indexKey)
    (members : List String) (removed : Bool) :
    (members.foldl (fun (state : Bool × RedisKeys) member =>
      (state.1 || (state.2.get? member).isSome,
        RedisKeys.srem indexKey member (state.2.erase member))) (removed, keys)).2.get? key =
      if key ∈ members then none else keys.get? key := by
  induction members generalizing removed keys with
  | nil => rfl
  | cons member members induction =>
      rw [List.foldl_cons, induction, get?_srem different]
      by_cases later : key ∈ members
      · simp [later]
      · rw [if_neg later]
        by_cases same : key = member
        · subst same
          rw [if_pos List.mem_cons_self, Dictionary.get?_erase_self]
        · rw [if_neg (by simp [same, later]), Dictionary.get?_erase_of_ne same]

/-- No key of a result is one of an index. -/
theorem redisKey_ne_index (config : RedisPendingConfig) (valid : place.Valid) (rest : String) :
    config.redisKey place.scopeKey place.turnId place.leaseToken ≠
      config.keyPrefix ++ ":_" ++ rest := by
  rcases valid.scope with ⟨scope, here⟩
  rcases scope.key_start with ⟨first, others, characters, start⟩
  intro same
  have texts := congrArg String.toList same
  rw [redisKey_toList, Place.text, here, characters] at texts
  simp only [String.toList_append, List.append_assoc, List.append_cancel_left_eq] at texts
  exact start (List.cons.inj (List.cons.inj texts).2).1

theorem redisKey_ne_indexKey (config : RedisPendingConfig) (valid : place.Valid) :
    config.redisKey place.scopeKey place.turnId place.leaseToken ≠ config.indexKey := by
  have apart := redisKey_ne_index config valid "_index"
  rwa [String.append_assoc] at apart

theorem redisKey_ne_turnIndexKey (config : RedisPendingConfig) (valid : place.Valid)
    (scopeKey turnId : String) :
    config.redisKey place.scopeKey place.turnId place.leaseToken ≠
      config.turnIndexKey scopeKey turnId := by
  intro same
  apply redisKey_ne_index config valid ("_turn:" ++ scopeKey ++ ":" ++ turnId)
  rw [same]
  exact String.toList_injective (by simp [RedisPendingConfig.turnIndexKey])

/-- The Redis store forgets the results of exactly the turn. -/
theorem redisDelete_forgotten (hold : Hold config now.time places store keys)
    (valid : ∀ place ∈ places, place.Valid) (scope : Scope)
    {turnId : String} (turn : ∃ value, validateTurnId value = some turnId)
    (member : place ∈ places) :
    RedisForgotten config (RedisPending.delete config scope.key turnId keys).2 place ↔
      place.scopeKey = scope.key ∧ place.turnId = turnId := by
  have named : ¬ (scope.key = "" ∨ turnId = "") :=
    not_or.mpr ⟨scope.key_ne_empty, Place.Valid.turn_ne_empty turn⟩
  rcases hold.payload place member with ⟨document, found⟩
  rw [RedisForgotten, RedisPending.delete, if_neg named]
  dsimp only
  rw [Dictionary.get?_erase_of_ne (redisKey_ne_turnIndexKey config (valid place member) _ _),
    get?_deleteMembers (redisKey_ne_indexKey config (valid place member)), found]
  have indexed := hold.indexed scope turnId turn
    (config.redisKey place.scopeKey place.turnId place.leaseToken)
  constructor
  · intro forgotten
    split at forgotten
    · rename_i listed
      rcases indexed.mp listed with ⟨other, otherMember, here, same, keyed⟩
      have equal := redisKey_injective (valid place member) (valid other otherMember) keyed
      exact ⟨equal.1.trans here, equal.2.trans same⟩
    · cases forgotten
  · rintro ⟨here, same⟩
    rw [if_pos (indexed.mpr ⟨place, member, here, same, rfl⟩)]

/-! ### Staging -/

/-- The loop of `put` touches the index only. -/
theorem get?_countMembers {indexKey key : String} (different : key ≠ indexKey)
    (valueKey : String) (members : List String) (total previous : Nat) :
    (members.foldl (fun (state : Nat × Nat × RedisKeys) member =>
      if state.2.2.strlen member = 0 then
        (state.1, state.2.1, RedisKeys.srem indexKey member state.2.2)
      else (state.1 + state.2.2.strlen member,
        if member = valueKey then state.2.2.strlen member else state.2.1, state.2.2))
      (total, previous, keys)).2.2.get? key = keys.get? key := by
  induction members generalizing total previous keys with
  | nil => rfl
  | cons member members induction =>
      rw [List.foldl_cons]
      split
      · rw [induction, get?_srem different]
      · rw [induction]

theorem get?_sadd {key member other : String} (different : other ≠ key) :
    (RedisKeys.sadd key member keys).get? other = keys.get? other :=
  Dictionary.get?_set_of_ne different

theorem mem_smembers_sadd {key member other : String} :
    other ∈ (RedisKeys.sadd key member keys).smembers key ↔
      other ∈ keys.smembers key ∨ other = member := by
  rw [RedisKeys.sadd, RedisKeys.smembers, Dictionary.get?_set_self]
  dsimp only
  split
  · rename_i listed
    exact ⟨.inl, fun found => found.elim id fun same => same ▸ listed⟩
  · simp

theorem smembers_congr {others : RedisKeys} {key : String}
    (same : others.get? key = keys.get? key) : others.smembers key = keys.smembers key := by
  rw [RedisKeys.smembers, RedisKeys.smembers, same]

/-- What a staged result leaves in Redis. -/
theorem redisPut_accepted {now : Instant} {scopeKey turnId leaseToken resultDigest : String}
    {result : Json.Value}
    (accepted : (RedisPending.put config now scopeKey turnId leaseToken resultDigest result
      keys).1 = true) :
    ∃ payload, ∃ counted : RedisKeys,
      (∀ key, key ≠ config.indexKey → counted.get? key = keys.get? key) ∧
      (RedisPending.put config now scopeKey turnId leaseToken resultDigest result keys).2 =
        RedisKeys.sadd (config.turnIndexKey scopeKey turnId)
          (config.redisKey scopeKey turnId leaseToken)
          (RedisKeys.sadd config.indexKey (config.redisKey scopeKey turnId leaseToken)
            (counted.set (config.redisKey scopeKey turnId leaseToken) (.payload payload))) := by
  unfold RedisPending.put at accepted ⊢
  split at accepted
  · cases accepted
  · rename_i named
    rw [if_neg named]
    split at accepted
    · cases accepted
    · rename_i payload encoded
      dsimp only at accepted ⊢
      split at accepted
      · cases accepted
      · rename_i small
        rw [if_neg small]
        split at accepted
        · cases accepted
        · rename_i fits
          rw [if_neg fits]
          exact ⟨payload, _, fun key different => get?_countMembers different _ _ 0 0, rfl⟩

/-- What a staged result leaves in memory. -/
theorem put_accepted {config : PendingConfig} {now : Instant}
    {scopeKey turnId leaseToken resultDigest : String} {result : Json.Value}
    {ttlSeconds : Option Int}
    (accepted : (store.put config now scopeKey turnId leaseToken resultDigest result
      ttlSeconds).1 = true) :
    ∃ entry : PendingEntry, now.time < entry.expiresAt ∧
      (store.put config now scopeKey turnId leaseToken resultDigest result ttlSeconds).2.entries =
        (store.purgeExpired now.time).entries.set (pendingKey scopeKey turnId leaseToken)
          entry := by
  unfold PendingStore.put at accepted ⊢
  split at accepted
  · cases accepted
  · rename_i named
    rw [if_neg named]
    dsimp only at accepted ⊢
    split at accepted
    · cases accepted
    · rename_i payload encoded
      split at accepted
      · cases accepted
      · rename_i small
        rw [if_neg small]
        split at accepted
        · cases accepted
        · rename_i fits
          rw [if_neg fits]
          refine ⟨_, ?_, rfl⟩
          have lasts := le_max_left 1 ((ttlSeconds.filter (· ≠ 0)).getD config.ttlSeconds)
          have positive : (0 : ℚ) <
              (max 1 ((ttlSeconds.filter (· ≠ 0)).getD config.ttlSeconds) : ℤ) := by
            exact_mod_cast (by omega)
          exact lt_add_of_pos_right now.time positive

theorem turnIndexKey_ne_indexKey (config : RedisPendingConfig) (scopeKey turnId : String) :
    config.turnIndexKey scopeKey turnId ≠ config.indexKey := by
  intro same
  have texts := congrArg String.toList same
  simp only [RedisPendingConfig.turnIndexKey, RedisPendingConfig.indexKey, String.toList_append,
    List.append_assoc, List.append_cancel_left_eq] at texts
  have third := congrArg (·[3]?) texts
  cases third

/-- The indexes of two turns are under different keys. -/
theorem turnIndexKey_injective (config : RedisPendingConfig) {scope other : Scope}
    {turnId otherTurn : String} (turn : ∃ value, validateTurnId value = some turnId)
    (otherValid : ∃ value, validateTurnId value = some otherTurn)
    (same : config.turnIndexKey scope.key turnId = config.turnIndexKey other.key otherTurn) :
    scope.key = other.key ∧ turnId = otherTurn := by
  have colonless : ∀ (scope : Scope) (turnId : String),
      (∃ value, validateTurnId value = some turnId) → Colonless (scope.parts ++ [turnId]) := by
    rintro scope turnId ⟨value, turn⟩ part member
    rcases List.mem_append.mp member with inScope | inTurn
    · exact scope.parts_colonless part inScope
    · rw [List.mem_singleton.mp inTurn]
      exact (validateTurnId_plain turn).colonless
  have joined : ∀ (scope : Scope) (turnId : String),
      scope.key.toList ++ ':' :: turnId.toList ++ [':'] = terminated (scope.parts ++ [turnId]) := by
    intro scope turnId
    rw [terminated_append, ← scope.key_parts, terminated_singleton]
    simp
  have texts := congrArg String.toList same
  simp only [RedisPendingConfig.turnIndexKey, String.toList_append, List.append_assoc,
    List.append_cancel_left_eq] at texts
  have parts : scope.parts ++ [turnId] = other.parts ++ [otherTurn] := by
    apply terminated_injective (colonless scope turnId turn) (colonless other otherTurn otherValid)
    rw [← joined, ← joined]
    exact congrArg (· ++ [':']) texts
  have split := List.append_inj' parts rfl
  exact ⟨scope.key_eq_iff.mpr split.1, (List.cons.inj split.2).1⟩

/-- New stores hold no results. -/
theorem hold_empty (config : RedisPendingConfig) (now : Timestamp) :
    Hold config now [] .empty .empty where
  stored key := by simp [PendingStore.empty, Dictionary.empty, Dictionary.get?]
  unexpired key entry found := by
    cases found
  payload := nofun
  indexed scope turnId turn key := by
    simp [RedisKeys.smembers, Dictionary.empty, Dictionary.get?]

/-- Stores that both stage a result hold it, and those they held before. -/
theorem hold_put {resultDigest : String} {result : Json.Value} {ttlSeconds : Option Int}
    (hold : Hold config now.time places store keys) (valid : ∀ place ∈ places, place.Valid)
    (staged : place.Valid)
    (accepted : (store.put config.toPendingConfig now place.scopeKey place.turnId
      place.leaseToken resultDigest result ttlSeconds).1 = true)
    (redisAccepted : (RedisPending.put config now place.scopeKey place.turnId place.leaseToken
      resultDigest result keys).1 = true) :
    Hold config now.time (place :: places)
      (store.put config.toPendingConfig now place.scopeKey place.turnId place.leaseToken
        resultDigest result ttlSeconds).2
      (RedisPending.put config now place.scopeKey place.turnId place.leaseToken resultDigest
        result keys).2 := by
  rcases put_accepted accepted with ⟨entry, lasting, entries⟩
  rcases redisPut_accepted redisAccepted with ⟨payload, counted, kept, values⟩
  generalize store.put _ _ _ _ _ _ _ _ = after at entries ⊢
  generalize RedisPending.put _ _ _ _ _ _ _ _ = redisAfter at values ⊢
  have read : ∀ key, after.2.entries.get? key =
      if key = place.key then some entry else store.entries.get? key := by
    intro key
    rw [entries, Dictionary.get?_set]
    congr 1
    apply Option.ext
    intro found
    rw [get?_purgeExpired]
    exact ⟨fun found => found.1, fun found => ⟨found, hold.unexpired _ _ found⟩⟩
  constructor
  · intro key
    rw [read]
    by_cases same : key = place.key
    · simp [same]
    · simp [same, hold.stored key]
  · intro key found stored
    rw [read] at stored
    split at stored
    · cases stored
      exact lasting
    · exact hold.unexpired key found stored
  · intro other member
    have otherValid : other.Valid := by
      rcases List.mem_cons.mp member with rfl | old
      · exact staged
      · exact valid other old
    rw [values, get?_sadd (redisKey_ne_turnIndexKey config otherValid _ _),
      get?_sadd (redisKey_ne_indexKey config otherValid), Dictionary.get?_set]
    split
    · exact ⟨payload, rfl⟩
    · rename_i different
      rcases List.mem_cons.mp member with rfl | old
      · exact absurd rfl different
      · rw [kept _ (redisKey_ne_indexKey config otherValid)]
        exact hold.payload other old
  · intro scope turnId turn key
    rcases staged.scope with ⟨placeScope, here⟩
    have outside : (RedisKeys.sadd config.indexKey
        (config.redisKey place.scopeKey place.turnId place.leaseToken)
        (counted.set (config.redisKey place.scopeKey place.turnId place.leaseToken)
          (.payload payload))).smembers (config.turnIndexKey scope.key turnId) =
          keys.smembers (config.turnIndexKey scope.key turnId) := by
      apply smembers_congr
      rw [get?_sadd (turnIndexKey_ne_indexKey config _ _), Dictionary.get?_set_of_ne
        (redisKey_ne_turnIndexKey config staged _ _).symm,
        kept _ (turnIndexKey_ne_indexKey config _ _)]
    by_cases same : config.turnIndexKey scope.key turnId =
        config.turnIndexKey place.scopeKey place.turnId
    · rw [values, ← same, mem_smembers_sadd, outside, hold.indexed scope turnId turn]
      rw [here] at same
      have equal := turnIndexKey_injective config turn staged.turn same
      simp only [List.mem_cons, exists_eq_or_imp, here, equal, true_and]
      exact or_comm
    · rw [values, smembers_congr (get?_sadd same), outside, hold.indexed scope turnId turn]
      have apart : ¬ (place.scopeKey = scope.key ∧ place.turnId = turnId) := by
        rintro ⟨sameScope, sameTurn⟩
        exact same (by rw [sameScope, sameTurn])
      simp only [List.mem_cons, exists_eq_or_imp]
      exact (or_iff_right fun found => apart ⟨found.1, found.2.1⟩).symm

/-- What is reached is of another scope. -/
theorem Overreaches.elsewhere {scope : Scope} (reached : Overreaches scope place) :
    scope.key ≠ place.scopeKey := by
  rcases reached with ⟨single, default, -, other, here, plural, -⟩ | ⟨plural, here, -⟩
  · rw [here, ne_eq, Scope.key_eq_iff, Scope.parts, Scope.parts, if_pos plural, single,
      if_neg Bool.false_ne_true, if_pos default]
    intro same
    have lengths := congrArg List.length same
    cases lengths
  · rw [here, Scope.key, queryScopedConversationId, if_pos plural]
    intro same
    have lengths := congrArg (fun key => key.toList.length) same
    simp only [String.toList_append, List.length_append] at lengths
    have long : (":multi-chat:" : String).toList.length = 12 := by decide
    have short : (":multi-chat" : String).toList.length = 11 := by decide
    omega

/-- Clearing a scope leaves the same results in both stores, those of the other scopes,
unless it reaches a result of another scope. Deleting a turn always does. -/
theorem pending_deletions_agree (hold : Hold config now.time places store keys)
    (plain : config.PlainPrefix) (valid : ∀ place ∈ places, place.Valid) (scope : Scope) :
    ((∀ place ∈ places,
      (RedisForgotten config (RedisPending.clearScope config scope.key keys).2 place ↔
        Forgotten (store.clearScope now scope.key).2 place) ∧
      (Forgotten (store.clearScope now scope.key).2 place ↔ place.scopeKey = scope.key)) ↔
      ∀ place ∈ places, ¬ Overreaches scope place) ∧
    ∀ turnId, (∃ value, validateTurnId value = some turnId) → ∀ place ∈ places,
      (RedisForgotten config (RedisPending.delete config scope.key turnId keys).2 place ↔
        Forgotten (store.delete scope.key turnId).2 place) ∧
      (Forgotten (store.delete scope.key turnId).2 place ↔
        place.scopeKey = scope.key ∧ place.turnId = turnId) := by
  constructor
  · constructor
    · intro agree place member reached
      have redis := (redisClearScope_forgotten hold plain valid scope member).mpr (.inr reached)
      have memory := (agree place member).2.mp ((agree place member).1.mp redis)
      exact reached.elsewhere memory.symm
    · intro apart place member
      have memory := clearScope_forgotten hold valid scope member
      rw [memory, redisClearScope_forgotten hold plain valid scope member,
        or_iff_left (apart place member)]
      exact ⟨eq_comm, Iff.rfl⟩
  · intro turnId turn place member
    have memory := delete_forgotten hold valid scope turn member
    rw [memory, redisDelete_forgotten hold valid scope turn member]
    exact ⟨Iff.rfl, Iff.rfl⟩

end

/-! ## Examples of deletions -/

def sampleConfig : RedisPendingConfig := { keyPrefix := "rag:pending_turn" }

theorem safeWorkspaceId_w1 : ∃ value, safeWorkspaceId value = "w1" :=
  ⟨"w1", by decide +kernel⟩

theorem validateKnowledgeBaseId_default :
    ∃ value, validateKnowledgeBaseId value = some "default" :=
  ⟨"default", by decide +kernel⟩

theorem validateConversationId_one :
    ∃ value, validateConversationId value = some "conversation-1" :=
  ⟨"conversation-1", by decide +kernel⟩

theorem validateConversationId_multiChat :
    ∃ value, validateConversationId value = some "multi-chat" :=
  ⟨"multi-chat", by decide +kernel⟩

/-- A chat over several knowledge bases. -/
def sampleMulti : Scope := {
  workspaceId := "w1"
  knowledgeBaseId := "default"
  conversationId := "conversation-1"
  pluralRequest := true
  workspace_safe := safeWorkspaceId_w1
  knowledgeBase_valid := validateKnowledgeBaseId_default
  conversation_valid := validateConversationId_one }

/-- The default scope of a conversation with an unlucky name. -/
def sampleDefault : Scope := {
  workspaceId := "w1"
  knowledgeBaseId := "default"
  conversationId := "multi-chat"
  pluralRequest := false
  workspace_safe := safeWorkspaceId_w1
  knowledgeBase_valid := validateKnowledgeBaseId_default
  conversation_valid := validateConversationId_multiChat }

def sampleMultiPlace : Place := ⟨sampleMulti.key, "turn-1", "0a1b"⟩

theorem sampleMultiPlace_valid : sampleMultiPlace.Valid where
  scope := ⟨sampleMulti, rfl⟩
  turn := ⟨"turn-1", by decide +kernel⟩
  lease := by decide +kernel

def sampleNow : Instant := ⟨10, "10.0"⟩

/-- The in-memory store after one result has been staged. -/
def sampleStore : PendingStore :=
  (PendingStore.put sampleConfig.toPendingConfig sampleNow sampleMultiPlace.scopeKey
    sampleMultiPlace.turnId sampleMultiPlace.leaseToken "digest" (.str "answer") none .empty).2

/-- The Redis store after the same. -/
def sampleKeys : RedisKeys :=
  (RedisPending.put sampleConfig sampleNow sampleMultiPlace.scopeKey sampleMultiPlace.turnId
    sampleMultiPlace.leaseToken "digest" (.str "answer") .empty).2

theorem sample_hold : Hold sampleConfig sampleNow.time [sampleMultiPlace] sampleStore sampleKeys :=
  hold_put (hold_empty sampleConfig sampleNow.time) nofun sampleMultiPlace_valid
    (by decide +kernel) (by decide +kernel)

theorem sampleConfig_plain : sampleConfig.PlainPrefix := by
  have all : sampleConfig.keyPrefix.toList.all
      (fun character => decide (character ∉ Glob.specialCharacters)) = true := by
    decide
  intro character member
  exact of_decide_eq_true (List.all_eq_true.mp all character member)

theorem pending_deletions_agree_multi_chat :
    RedisForgotten sampleConfig
        (RedisPending.clearScope sampleConfig sampleMulti.key sampleKeys).2 sampleMultiPlace ∧
      Forgotten (sampleStore.clearScope sampleNow sampleMulti.key).2 sampleMultiPlace := by
  have valid : ∀ place ∈ [sampleMultiPlace], place.Valid := by
    intro place member
    rw [List.mem_singleton.mp member]
    exact sampleMultiPlace_valid
  have apart : ∀ place ∈ [sampleMultiPlace], ¬ Overreaches sampleMulti place := by
    rintro place member (⟨plural, -⟩ | ⟨-, here, -⟩)
    · cases plural
    · rw [List.mem_singleton.mp member] at here
      revert here
      decide +kernel
  have agree := (pending_deletions_agree sample_hold sampleConfig_plain valid sampleMulti).1.mpr
    apart sampleMultiPlace List.mem_cons_self
  exact ⟨agree.1.mpr (agree.2.mpr rfl), agree.2.mpr rfl⟩

/-- Clearing the default scope of a conversation named `multi-chat` takes the staged result of
a chat over several knowledge bases with it in Redis, and leaves it in memory. -/
theorem pending_deletions_differ :
    Hold sampleConfig sampleNow.time [sampleMultiPlace] sampleStore sampleKeys ∧
      sampleMultiPlace.Valid ∧ sampleMultiPlace.scopeKey ≠ sampleDefault.key ∧
      RedisForgotten sampleConfig
        (RedisPending.clearScope sampleConfig sampleDefault.key sampleKeys).2 sampleMultiPlace ∧
      ¬ Forgotten (sampleStore.clearScope sampleNow sampleDefault.key).2 sampleMultiPlace := by
  refine ⟨sample_hold, sampleMultiPlace_valid, by decide +kernel, ?_, ?_⟩
  · rw [RedisForgotten]
    decide +kernel
  · rw [Forgotten]
    decide +kernel

end RAGuardian.Service
