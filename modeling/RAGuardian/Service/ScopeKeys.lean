import RAGuardian.Foundation.Text

/-! # Scope keys

The identifiers the validators accept, and the keys of the scopes the application builds
from them. -/

namespace RAGuardian.Service

open Text

/-! ## Identifiers -/

/-- `[A-Za-z0-9]` -/
def isWordStart (character : Char) : Bool :=
  character.isAlphanum

/-- `[A-Za-z0-9_-]` -/
def isWord (character : Char) : Bool :=
  character.isAlphanum || character == '_' || character == '-'

/-- `^[A-Za-z0-9][A-Za-z0-9_-]*$` -/
def isIdentifier (value : String) : Bool :=
  match value.toList with
  | [] => false
  | first :: rest => isWordStart first && rest.all isWord

/-- `validate_conversation_id` of a text, with `none` for a text it refuses. -/
def validateConversationId (value : String) : Option String :=
  let value := strip value
  if value.length < 8 ∨ 80 < value.length then none
  else if isIdentifier value then some value
  else none

/-- `validate_string` of a turn identifier, as the query routes call it. -/
def validateTurnId (value : String) : Option String :=
  let value := strip value
  if 80 < value.length then none
  else if isIdentifier value then some value
  else none

/-- `[0-9a-f]` -/
def isHexDigit (character : Char) : Bool :=
  character.isDigit || ('a' ≤ character && character ≤ 'f')

/-- `KNOWLEDGE_BASE_ID_PATTERN` -/
def isKnowledgeBaseId (value : String) : Bool :=
  match value.toList with
  | 'k' :: 'b' :: '_' :: digits => digits.length == 32 && digits.all isHexDigit
  | _ => false

/-- `validate_knowledge_base_id` of a text -/
def validateKnowledgeBaseId (value : String) : Option String :=
  let value := strip value
  if value = "default" then some value
  else if isKnowledgeBaseId value then some value
  else none

/-- `[A-Za-z0-9_.-]` -/
def isWorkspaceCharacter (character : Char) : Bool :=
  character.isAlphanum || character == '_' || character == '.' || character == '-'

/-- `re.sub(r"[^A-Za-z0-9_.-]+", "-", value)` -/
def replaceRuns (inRun : Bool) : List Char → List Char
  | [] => []
  | character :: rest =>
      if isWorkspaceCharacter character then character :: replaceRuns false rest
      else if inRun then replaceRuns true rest
      else '-' :: replaceRuns true rest

/-- `safe_workspace_id` -/
def safeWorkspaceId (value : String) : String :=
  let safe := stripList (fun character => character == '-' || character == '.' || character == '_')
    (replaceRuns false value.toList)
  if safe.take 80 = [] then "workspace" else String.ofList (safe.take 80)

/-! ## Scopes -/

/-- `_scoped_conversation_id` of a conversation that is named. -/
def scopedConversationId (workspaceId knowledgeBaseId conversationId : String) : String :=
  if knowledgeBaseId = "default" then workspaceId ++ ":" ++ conversationId
  else workspaceId ++ ":kb:" ++ knowledgeBaseId ++ ":" ++ conversationId

/-- `_query_scoped_conversation_id` of a conversation that is named. -/
def queryScopedConversationId (workspaceId knowledgeBaseId conversationId : String)
    (pluralRequest : Bool) : String :=
  if pluralRequest then workspaceId ++ ":multi-chat:" ++ conversationId
  else scopedConversationId workspaceId knowledgeBaseId conversationId

/-- A scope of a conversation: what the application has accepted and builds the key from. -/
structure Scope where
  workspaceId : String
  knowledgeBaseId : String
  conversationId : String
  pluralRequest : Bool
  workspace_safe : ∃ value, safeWorkspaceId value = workspaceId
  knowledgeBase_valid : ∃ value, validateKnowledgeBaseId value = some knowledgeBaseId
  conversation_valid : ∃ value, validateConversationId value = some conversationId

def Scope.key (scope : Scope) : String :=
  queryScopedConversationId scope.workspaceId scope.knowledgeBaseId scope.conversationId
    scope.pluralRequest

/-! ## Segments -/

/-- The characters that neither separate parts of a key nor mean something in a pattern. -/
def isPlain (character : Char) : Bool :=
  isWorkspaceCharacter character

/-- Every character of a text is plain. -/
def Plain (value : String) : Prop :=
  ∀ character ∈ value.toList, isPlain character = true

/-- The test of the characters, as a computation. -/
theorem plain_of_all {value : String} (all : value.toList.all isPlain = true) : Plain value :=
  List.all_eq_true.mp all

theorem isPlain_of_isWord {character : Char} (word : isWord character = true) :
    isPlain character = true := by
  simp only [isWord, isPlain, isWorkspaceCharacter, Bool.or_eq_true] at word ⊢
  tauto

theorem isPlain_of_isHexDigit {character : Char} (hex : isHexDigit character = true) :
    isPlain character = true := by
  simp only [isHexDigit, Bool.or_eq_true, Bool.and_eq_true, decide_eq_true_eq] at hex
  have alphanumeric : character.isAlphanum = true := by
    rcases hex with decimal | ⟨low, high⟩
    · change (character.isAlpha || character.isDigit) = true
      rw [decimal, Bool.or_true]
    · rw [Text.isAlphanum_iff]
      have first : 97 ≤ character.toNat := UInt32.le_iff_toNat_le.mp low
      have last : character.toNat ≤ 102 := UInt32.le_iff_toNat_le.mp high
      omega
  rw [isPlain, isWorkspaceCharacter, alphanumeric]
  rfl

theorem isIdentifier_plain {value : String} (identifier : isIdentifier value = true) :
    Plain value := by
  intro character member
  unfold isIdentifier at identifier
  split at identifier
  · cases identifier
  · rename_i first rest characters
    rw [characters] at member
    rw [Bool.and_eq_true, List.all_eq_true] at identifier
    rcases List.mem_cons.mp member with rfl | later
    · apply isPlain_of_isWord
      simp only [isWord, Bool.or_eq_true]
      exact .inl (.inl identifier.1)
    · exact isPlain_of_isWord (identifier.2 character later)

theorem validateConversationId_plain {value conversationId : String}
    (valid : validateConversationId value = some conversationId) :
    Plain conversationId ∧ 8 ≤ conversationId.length := by
  unfold validateConversationId at valid
  dsimp only at valid
  split at valid
  · cases valid
  · rename_i lengths
    split at valid
    · rename_i identifier
      cases valid
      exact ⟨isIdentifier_plain identifier, by omega⟩
    · cases valid

theorem validateTurnId_plain {value turnId : String} (valid : validateTurnId value = some turnId) :
    Plain turnId := by
  unfold validateTurnId at valid
  dsimp only at valid
  split at valid
  · cases valid
  · split at valid
    · rename_i identifier
      cases valid
      exact isIdentifier_plain identifier
    · cases valid

theorem isKnowledgeBaseId_plain {value : String} (identifier : isKnowledgeBaseId value = true) :
    Plain value := by
  unfold isKnowledgeBaseId at identifier
  split at identifier
  · rename_i digits characters
    rw [Bool.and_eq_true, List.all_eq_true] at identifier
    rw [Plain, characters]
    intro character member
    simp only [List.mem_cons] at member
    rcases member with rfl | rfl | rfl | digit
    · rfl
    · rfl
    · rfl
    · exact isPlain_of_isHexDigit (identifier.2 character digit)
  · cases identifier

theorem validateKnowledgeBaseId_plain {value knowledgeBaseId : String}
    (valid : validateKnowledgeBaseId value = some knowledgeBaseId) : Plain knowledgeBaseId := by
  unfold validateKnowledgeBaseId at valid
  dsimp only at valid
  split at valid
  · rename_i default
    cases valid
    rw [default]
    exact plain_of_all (by decide)
  · split at valid
    · rename_i identifier
      cases valid
      exact isKnowledgeBaseId_plain identifier
    · cases valid

theorem isSpace_of_isPlain {character : Char} (plain : isPlain character = true) :
    isSpace character = false := by
  have codes : 65 ≤ character.toNat ∧ character.toNat ≤ 90 ∨
      97 ≤ character.toNat ∧ character.toNat ≤ 122 ∨ 48 ≤ character.toNat ∧ character.toNat ≤ 57 ∨
      character.toNat = 95 ∨ character.toNat = 46 ∨ character.toNat = 45 := by
    simp only [isPlain, isWorkspaceCharacter, Bool.or_eq_true, isAlphanum_iff, beq_iff_eq] at plain
    rcases plain with ((letter | rfl) | rfl) | rfl
    · omega
    · exact .inr (.inr (.inr (.inl rfl)))
    · exact .inr (.inr (.inr (.inr (.inl rfl))))
    · exact .inr (.inr (.inr (.inr (.inr rfl))))
  simp only [isSpace, Bool.or_eq_false_iff, Bool.and_eq_false_iff, beq_eq_false_iff_ne,
    decide_eq_false_iff_not]
  omega

theorem strip_plain {value : String} (plain : Plain value) : strip value = value :=
  strip_eq_self fun character member => isSpace_of_isPlain (plain character member)

/-- An identifier of a knowledge base is accepted as it is. -/
theorem validateKnowledgeBaseId_self {value : String}
    (identifier : isKnowledgeBaseId value = true) : validateKnowledgeBaseId value = some value := by
  unfold validateKnowledgeBaseId
  simp only [strip_plain (isKnowledgeBaseId_plain identifier), identifier, if_true, ite_self]

theorem replaceRuns_plain (inRun : Bool) (characters : List Char) :
    ∀ character ∈ replaceRuns inRun characters, isPlain character = true := by
  induction characters generalizing inRun with
  | nil => nofun
  | cons head rest induction =>
      rw [replaceRuns]
      split
      · rename_i allowed
        intro character member
        rcases List.mem_cons.mp member with rfl | later
        · exact allowed
        · exact induction false character later
      · split
        · exact induction true
        · intro character member
          rcases List.mem_cons.mp member with rfl | later
          · rfl
          · exact induction true character later

/-- A workspace identifier begins with a letter or a digit. -/
theorem safeWorkspaceId_start (value : String) : ∃ first rest,
    (safeWorkspaceId value).toList = first :: rest ∧ first ≠ '_' := by
  unfold safeWorkspaceId
  dsimp only
  split
  · exact ⟨'w', "orkspace".toList, by decide, by decide⟩
  · rename_i nonempty
    rw [String.toList_ofList]
    generalize stripped : stripList _ (replaceRuns false value.toList) = safe at nonempty
    cases safe with
    | nil => exact absurd rfl nonempty
    | cons first rest =>
        refine ⟨first, rest.take 79, rfl, ?_⟩
        rintro rfl
        cases stripList_head stripped

theorem safeWorkspaceId_plain (value : String) : Plain (safeWorkspaceId value) := by
  unfold safeWorkspaceId
  dsimp only
  split
  · exact plain_of_all (by decide)
  · rw [Plain, String.toList_ofList]
    intro character member
    have stripped := List.mem_of_mem_take member
    apply replaceRuns_plain false value.toList
    unfold stripList at stripped
    have dropped := (List.dropWhile_sublist _).subset (List.mem_reverse.mp stripped)
    exact (List.dropWhile_sublist _).subset (List.mem_reverse.mp dropped)

/-! ## Parts of keys -/

/-- The parts of a key, each with a colon after it. -/
def terminated (parts : List String) : List Char :=
  parts.flatMap fun part => part.toList ++ [':']

/-- No part has a colon. -/
def Colonless (parts : List String) : Prop :=
  ∀ part ∈ parts, ':' ∉ part.toList

theorem Plain.colonless {value : String} (plain : Plain value) : ':' ∉ value.toList := by
  intro member
  cases plain ':' member

theorem terminated_append (left right : List String) :
    terminated (left ++ right) = terminated left ++ terminated right :=
  List.flatMap_append

theorem terminated_singleton (part : String) : terminated [part] = part.toList ++ [':'] := by
  simp [terminated]

/-- Parts that start a key are the first parts of the key. -/
theorem prefix_of_terminated {start parts : List String} (startColonless : Colonless start)
    (colonless : Colonless parts) (within : terminated start <+: terminated parts) :
    start <+: parts := by
  induction start generalizing parts with
  | nil => exact List.nil_prefix
  | cons part start induction =>
      rcases within with ⟨after, equal⟩
      cases parts with
      | nil =>
          have lengths := congrArg List.length equal
          simp [terminated] at lengths
      | cons other parts =>
          simp only [terminated, List.flatMap_cons, List.append_assoc, List.cons_append,
            List.nil_append] at equal
          have split := congrArg (partition ':') equal
          rw [partition_append (startColonless part List.mem_cons_self),
            partition_append (colonless other List.mem_cons_self), Prod.mk.injEq,
            Option.some.injEq] at split
          have rest : terminated start <+: terminated parts := ⟨after, split.2⟩
          rw [String.toList_injective split.1, List.cons_prefix_cons]
          exact ⟨rfl, induction
            (fun part member => startColonless part (List.mem_cons_of_mem _ member))
            (fun part member => colonless part (List.mem_cons_of_mem _ member)) rest⟩

theorem terminated_injective {parts others : List String} (colonless : Colonless parts)
    (otherColonless : Colonless others) (same : terminated parts = terminated others) :
    parts = others :=
  (prefix_of_terminated colonless otherColonless (same ▸ List.prefix_rfl)).eq_of_length_le
    (prefix_of_terminated otherColonless colonless (same ▸ List.prefix_rfl)).length_le

/-- A key starts with some parts and a colon, if it has these parts first and more. -/
theorem terminated_prefix_iff {start parts : List String} {key : List Char}
    (startColonless : Colonless start) (colonless : Colonless parts)
    (joined : key ++ [':'] = terminated parts) :
    terminated start <+: key ↔ start <+: parts ∧ start ≠ parts := by
  constructor
  · intro within
    have longer : terminated start <+: terminated parts :=
      joined ▸ within.trans (List.prefix_append key [':'])
    refine ⟨prefix_of_terminated startColonless colonless longer, ?_⟩
    rintro rfl
    have lengths := within.length_le
    rw [← joined, List.length_append, List.length_singleton] at lengths
    omega
  · rintro ⟨⟨rest, rfl⟩, different⟩
    rw [terminated_append] at joined
    cases rest using List.reverseRecOn with
    | nil => exact absurd (List.append_nil start).symm different
    | append_singleton others last =>
        rw [terminated_append others, terminated_singleton, ← List.append_assoc,
          ← List.append_assoc] at joined
        have key_eq := List.append_cancel_right joined
        rw [key_eq, List.append_assoc]
        exact List.prefix_append _ _

/-! ## Scopes -/

namespace Scope

variable (scope : Scope)

/-- The parts of the key of a scope. -/
def parts : List String :=
  if scope.pluralRequest then [scope.workspaceId, "multi-chat", scope.conversationId]
  else if scope.knowledgeBaseId = "default" then [scope.workspaceId, scope.conversationId]
  else [scope.workspaceId, "kb", scope.knowledgeBaseId, scope.conversationId]

theorem workspace_plain : Plain scope.workspaceId := by
  rcases scope.workspace_safe with ⟨value, safe⟩
  exact safe ▸ safeWorkspaceId_plain value

theorem knowledgeBase_plain : Plain scope.knowledgeBaseId := by
  rcases scope.knowledgeBase_valid with ⟨value, valid⟩
  exact validateKnowledgeBaseId_plain valid

theorem conversation_plain : Plain scope.conversationId := by
  rcases scope.conversation_valid with ⟨value, valid⟩
  exact (validateConversationId_plain valid).1

theorem conversation_ne {name : String} (short : name.length < 8) :
    scope.conversationId ≠ name := by
  rintro rfl
  rcases scope.conversation_valid with ⟨value, valid⟩
  exact absurd (validateConversationId_plain valid).2 (by omega)

theorem parts_plain : ∀ part ∈ scope.parts, Plain part := by
  have multi : Plain "multi-chat" := plain_of_all (by decide)
  have kb : Plain "kb" := plain_of_all (by decide)
  unfold parts
  split
  · simp [scope.workspace_plain, multi, scope.conversation_plain]
  · split
    · simp [scope.workspace_plain, scope.conversation_plain]
    · simp [scope.workspace_plain, kb, scope.knowledgeBase_plain, scope.conversation_plain]

theorem parts_colonless : Colonless scope.parts :=
  fun part member => (scope.parts_plain part member).colonless

theorem key_parts : scope.key.toList ++ [':'] = terminated scope.parts := by
  unfold key queryScopedConversationId scopedConversationId parts
  split
  · simp [terminated]
  · split
    · simp [terminated]
    · simp [terminated]

theorem key_eq_iff {other : Scope} : scope.key = other.key ↔ scope.parts = other.parts := by
  constructor
  · intro same
    apply terminated_injective scope.parts_colonless other.parts_colonless
    rw [← key_parts, ← key_parts, same]
  · intro same
    have joined : scope.key.toList ++ [':'] = other.key.toList ++ [':'] := by
      rw [key_parts, key_parts, same]
    exact String.toList_injective (List.append_cancel_right joined)

theorem key_characters {character : Char}
    (member : character ∈ scope.key.toList) : isPlain character = true ∨ character = ':' := by
  have joined : character ∈ terminated scope.parts := by
    rw [← scope.key_parts]
    exact List.mem_append_left _ member
  rcases List.mem_flatMap.mp joined with ⟨part, inScope, inPart⟩
  rcases List.mem_append.mp inPart with plain | colon
  · exact .inl (scope.parts_plain part inScope character plain)
  · exact .inr (List.mem_singleton.mp colon)

/-- A key begins with a letter or a digit. -/
theorem key_start : ∃ first rest,
    scope.key.toList = first :: rest ∧ first ≠ '_' := by
  rcases scope.workspace_safe with ⟨value, safe⟩
  rcases safeWorkspaceId_start value with ⟨first, others, characters, start⟩
  rw [safe] at characters
  have head : scope.key.toList.head? = some first := by
    unfold Scope.key queryScopedConversationId scopedConversationId
    split
    · simp [characters]
    · split
      · simp [characters]
      · simp [characters]
  rcases List.head?_eq_some_iff.mp head with ⟨rest, equal⟩
  exact ⟨first, rest, equal, start⟩

theorem key_ne_empty : scope.key ≠ "" := by
  rcases scope.key_start with ⟨first, rest, characters, -⟩
  intro empty
  rw [empty] at characters
  cases characters

end Scope

end RAGuardian.Service
