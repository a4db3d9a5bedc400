import Mathlib.Tactic.Linarith
import RAGuardian.Memory.Backends
import RAGuardian.Memory.Markers
import RAGuardian.Service.ScopeKeys

/-! # What both stores forget with a knowledge base

The store in the process chooses conversations by their names first, the one in Redis by the
markers they have. -/

namespace RAGuardian.Memory

open Concurrency Execution Keyspace Text
open History (Timestamp)
open Service (Scope)

/-! ## Calls -/

/-- The calls that make the state of a conversation, or clear it. -/
inductive ScopeAction
  | appendTurn (arguments : AppendArguments)
  | hydrateIfAbsent (snapshot : DurableSnapshot)
  | replaceFromDurable (snapshot : DurableSnapshot)
  | clear

/-- A call on the conversation of a scope, at a time. -/
structure ScopeCall where
  time : Timestamp
  scope : Scope
  action : ScopeAction

def ScopeCall.method (call : ScopeCall) : Method :=
  match call.action with
  | .appendTurn arguments => .appendTurn call.scope.key arguments
  | .hydrateIfAbsent snapshot => .hydrateIfAbsent call.scope.key snapshot
  | .replaceFromDurable snapshot => .replaceFromDurable call.scope.key snapshot
  | .clear => .clear call.scope.key

/-- One call on both stores. -/
def ScopeCall.apply (store : RedisStore) (call : ScopeCall)
    (stores : Conversations × Space Stored) : Conversations × Space Stored :=
  ((InProcess.execute store.config ⟨call.time, call.time, call.time⟩ call.method stores.1).2,
    (store.alone call.time (store.method call.method) stores.2).2)

/-- Both stores after calls one after another. -/
def storesAfter (store : RedisStore) (calls : List ScopeCall) :
    Conversations × Space Stored :=
  run (ScopeCall.apply store) (.empty, .empty) calls

/-! ## Calls nobody interrupts -/

section

variable {store : RedisStore} {space : Space Stored} {conversationId : String}
  {state : ConversationState} {now : Timestamp} {α : Type}

theorem execute_alone (command : Command Stored) :
    execute store.server ⟨now, []⟩ command space = serve store.server now command space := by
  rw [execute, without_nil]

theorem alone_publish (ids : List String) (space : Space Stored) (key : String) :
    (store.alone now (Program.each ids fun id =>
      .call (.setex (store.membershipKey conversationId id) .mark) fun _ => .done ())
        space).2.get? key =
      if key ∈ ids.map (store.membershipKey conversationId) then some .mark
      else space.get? key := by
  induction ids generalizing space with
  | nil => simp [Program.each]
  | cons id rest induction =>
      rw [Program.each, alone_bind, induction]
      change (if _ then _ else ((space.without []).set _ _).get? key) = _
      rw [without_nil, Dictionary.get?_set, List.map_cons]
      by_cases later : key ∈ rest.map (store.membershipKey conversationId)
      · simp [later]
      · by_cases here : key = store.membershipKey conversationId id
        · simp [here]
        · simp [later, here]

/-- The keys of the markers of a state. -/
def RedisStore.markersOf (store : RedisStore) (conversationId : String)
    (ids : Finset String) : List String :=
  (store.listing ids).map (store.membershipKey conversationId)

theorem mem_markersOf {ids : Finset String} {key : String} :
    key ∈ store.markersOf conversationId ids ↔
      ∃ id ∈ ids, key = store.membershipKey conversationId id := by
  simp [RedisStore.markersOf, store.mem_listing, eq_comm]

/-- A saved state is stored with its markers. -/
theorem alone_saveState (key : String) :
    (store.alone now (store.saveState conversationId state) space).2.get? key =
      if key = store.stateKey conversationId then some (.state state)
      else if key ∈ store.markersOf conversationId state.knowledgeBaseIds then some .mark
      else space.get? key := by
  rw [RedisStore.saveState, alone_bind]
  change (((store.alone now _ space).2.without []).set _ _).get? key = _
  rw [without_nil, Dictionary.get?_set, alone_publish]
  rfl

theorem alone_removeMemberships (ids : Finset String) (key : String) :
    (store.alone now (store.removeMemberships conversationId ids) space).2.get? key =
      if key ∈ store.markersOf conversationId ids then none else space.get? key := by
  rw [RedisStore.removeMemberships, ← RedisStore.markersOf]
  split
  · rename_i none
    rw [none, if_neg List.not_mem_nil]
    rfl
  · change ((space.without []).without _).get? key = _
    rw [without_nil, get?_without]

theorem alone_loading_none {continuation : Option ConversationState → Commands α}
    (absent : space.get? (store.stateKey conversationId) = none) :
    (store.alone now (store.loading conversationId continuation) space).2 =
      (store.alone now (continuation none) space).2 := by
  have loaded : store.alone now (store.loadState conversationId) space = (.absent, space) := by
    rw [RedisStore.loadState, RedisStore.alone, Program.perform_call, execute_alone]
    dsimp only [serve]
    rw [absent]
    rfl
  rw [RedisStore.loading, alone_bind, loaded]
  dsimp only
  rw [alone_bind]
  rfl

/-- A state that has not expired is loaded. -/
theorem alone_loading_some {continuation : Option ConversationState → Commands α}
    (stored : space.get? (store.stateKey conversationId) = some (.state state))
    (lives : now - (Redis.stateOfPayload now state).updatedAt ≤ store.config.ttlSeconds) :
    (store.alone now (store.loading conversationId continuation) space).2 =
      (store.alone now (continuation (some (Redis.stateOfPayload now state))) space).2 := by
  have loaded : store.alone now (store.loadState conversationId) space =
      (.found (Redis.stateOfPayload now state), space) := by
    rw [RedisStore.loadState, RedisStore.alone, Program.perform_call, execute_alone]
    dsimp only [serve]
    rw [stored]
    dsimp only
    rw [Program.perform_call, execute_alone]
    change Program.perform _ (if (store.config.ttlSeconds : ℚ) <
      now - (Redis.stateOfPayload now state).updatedAt then _ else _) space = _
    rw [if_neg (not_lt.mpr lives)]
    rfl
  rw [RedisStore.loading, alone_bind, loaded]
  dsimp only
  rw [alone_bind]
  rfl

/-- Loading a conversation comes to a state, or to none, and changes nothing. -/
def RedisStore.Loads (store : RedisStore) (now : Timestamp) (conversationId : String)
    (space : Space Stored) (loaded : Option ConversationState) : Prop :=
  ∀ {α : Type} (continuation : Option ConversationState → Commands α),
    (store.alone now (store.loading conversationId continuation) space).2 =
      (store.alone now (continuation loaded) space).2

/-- What a call makes of the state it has loaded. -/
def AppendArguments.appended (arguments : AppendArguments) (now : Timestamp)
    (loaded : Option ConversationState) : Appended :=
  (loaded.getD (.fresh ⟨now, now, now⟩)).append ⟨now, now, now⟩ arguments.turn
    arguments.knowledgeBaseIds

theorem alone_appendTurn (named : conversationId ≠ "") {loaded : Option ConversationState}
    (loads : store.Loads now conversationId space loaded) (arguments : AppendArguments) :
    (store.alone now (store.appendTurn conversationId arguments) space).2 =
      if (arguments.appended now loaded).changed then
        (store.alone now (store.saveState conversationId
          (arguments.appended now loaded).state) space).2
      else space := by
  rw [RedisStore.appendTurn, if_neg named, loads, RedisStore.alone, Program.perform_call,
    execute_alone]
  dsimp only [serve]
  rw [Program.perform_call, execute_alone]
  change (Program.perform _ (if (arguments.appended now loaded).changed then _ else _) space).2 = _
  split
  · rw [Program.perform_bind]
    rfl
  · rfl

theorem alone_hydrateIfAbsent (named : conversationId ≠ "") {loaded : Option ConversationState}
    (loads : store.Loads now conversationId space loaded) (snapshot : DurableSnapshot) :
    (store.alone now (store.hydrateIfAbsent conversationId snapshot) space).2 =
      if loaded.isSome then space
      else (store.alone now (store.saveState conversationId
        (snapshot.state store.config now now)) space).2 := by
  rw [RedisStore.hydrateIfAbsent, if_neg named, loads]
  cases loaded with
  | some state => rfl
  | none =>
      dsimp only
      rw [RedisStore.alone, Program.perform_call, execute_alone]
      dsimp only [serve]
      rw [Program.perform_call, execute_alone, Program.perform_bind]
      rfl

theorem alone_replaceFromDurable (named : conversationId ≠ "")
    {loaded : Option ConversationState}
    (loads : store.Loads now conversationId space loaded) (snapshot : DurableSnapshot) :
    (store.alone now (store.replaceFromDurable conversationId snapshot) space).2 =
      if (loaded.any fun state => durableStateSequence snapshot.turns snapshot.throughSequence <
        conversationStateSequence state) = true then space
      else (store.alone now (store.saveState conversationId (snapshot.state store.config
        ((loaded.map (·.createdAt)).getD now) now)) space).2 := by
  rw [RedisStore.replaceFromDurable, if_neg named, loads]
  split
  · rfl
  · rw [RedisStore.alone, Program.perform_call, execute_alone]
    dsimp only [serve]
    rw [Program.perform_call, execute_alone, Program.perform_bind]
    rfl

theorem alone_clear_get? (named : conversationId ≠ "") {loaded : Option ConversationState}
    (loads : store.Loads now conversationId space loaded) (key : String) :
    (store.alone now (store.clear conversationId) space).2.get? key =
      if key = store.stateKey conversationId ∨ key ∈ store.markersOf conversationId
        ((loaded.map (·.knowledgeBaseIds)).getD ∅) then none
      else space.get? key := by
  rw [RedisStore.clear, if_neg named, loads, RedisStore.alone, Program.perform_call,
    execute_alone]
  dsimp only [serve]
  cases loaded with
  | none =>
      change (space.without _).get? key = _
      rw [get?_without]
      simp [mem_markersOf]
  | some state =>
      dsimp only
      rw [Program.perform_bind]
      change (store.alone now (store.removeMemberships conversationId _) _).2.get? key = _
      rw [alone_removeMemberships, get?_without]
      by_cases marker : key ∈ store.markersOf conversationId state.knowledgeBaseIds
      · simp [marker]
      · simp [marker]

end

/-! ## Matching states -/

/-- What both stores have of a conversation: the same but for its times, none of which is
before the start. -/
inductive Matches (start : Timestamp) : Option ConversationState → Option Stored → Prop
  | absent : Matches start none none
  | present {state other : ConversationState} (alike : state.Alike other)
      (warm : start ≤ state.updatedAt) (kept : start ≤ other.updatedAt) :
      Matches start (some state) (some (.state other))

namespace ConversationState

variable {state other : ConversationState} {clock : Clock} {turn : ConversationTurn}
  {ids : List String}

theorem Alike.append (alike : state.Alike other) :
    (state.append clock turn ids).changed = (other.append clock turn ids).changed ∧
      (state.append clock turn ids).state.Alike (other.append clock turn ids).state := by
  have turns : insertTurnBySequence state turn = insertTurnBySequence other turn := by
    rw [insertTurnBySequence, insertTurnBySequence, alike.turns, alike.summaryThroughSequence]
  simp only [ConversationState.append, turns, alike.knowledgeBaseIds]
  refine ⟨trivial, ⟨alike.summary, ?_, rfl⟩, alike.summaryThroughSequence, ?_⟩
  · rw [alike.turns]
  · rw [alike.version]

theorem append_unchanged (unchanged : (state.append clock turn ids).changed = false) :
    state.Alike (state.append clock turn ids).state := by
  simp only [ConversationState.append, Bool.or_eq_false_iff, Option.isSome_eq_false_iff,
    Option.isNone_iff_eq_none, decide_eq_false_iff_not, not_not] at unchanged
  refine ⟨⟨rfl, ?_, ?_⟩, rfl, ?_⟩
  · simp [ConversationState.append, unchanged.1]
  · simp [ConversationState.append, unchanged.2]
  · simp [ConversationState.append, unchanged.1, unchanged.2]

theorem Alike.sequence (alike : state.Alike other) :
    conversationStateSequence state = conversationStateSequence other := by
  rw [conversationStateSequence, conversationStateSequence, alike.turns,
    alike.summaryThroughSequence]

theorem alike_stateOfPayload (now : Timestamp) (state : ConversationState) :
    state.Alike (Redis.stateOfPayload now state) :=
  ⟨⟨rfl, rfl, rfl⟩, rfl, rfl⟩

end ConversationState

/-! ## The store in the process -/

section

variable {config : MemoryConfig} {memory : Conversations} {conversationId : String}
  {state : ConversationState}

theorem purgeExpired_eq_self {now : Timestamp} (lives : ∀ other state,
    memory.get? other = some state → now - state.updatedAt ≤ config.ttlSeconds) :
    purgeExpired config now memory = memory :=
  Dictionary.removeWhere_eq_self fun other state found =>
    decide_eq_false (not_lt.mpr (lives other state found))

/-- A store with room for a state keeps all its states. -/
theorem kept_with_room (bounded : memory.entries.length ≤ config.maxItems)
    (room : (memory.get? conversationId).isSome ∨ memory.entries.length < config.maxItems)
    (state : ConversationState) :
    (evictIfNeeded config (Conversations.touch conversationId state memory)).entries.length ≤
        config.maxItems ∧
      ∀ other,
        (evictIfNeeded config (Conversations.touch conversationId state memory)).get? other =
          if other = conversationId then some state else memory.get? other := by
  have fits : (Conversations.touch conversationId state memory).entries.length ≤
      config.maxItems := by
    rw [Conversations.touch, Dictionary.length_moveToEnd, Dictionary.length_set]
    split
    · exact bounded
    · rename_i absent
      exact room.resolve_left absent
  have none : (Conversations.touch conversationId state memory).entries.length -
      config.maxItems = 0 := by
    omega
  rw [evictIfNeeded, none, Function.iterate_zero_apply]
  refine ⟨fits, fun other => ?_⟩
  rw [Conversations.touch, Dictionary.get?_moveToEnd, Dictionary.get?_set]

end

/-! ## One call on both stores -/

/-- A call that comes before any state could expire or be dropped, on states that name the
knowledge base only where the store in the process looks for it, and drop it only when they
are cleared. -/
structure Regular (config : MemoryConfig) (workspaceId knowledgeBaseId : String)
    (memory : Conversations) (call : ScopeCall) : Prop where
  apart : call.scope.workspaceId ≠ "kb-membership"
  plain : ∀ id ∈ call.method.givenIds, Service.Plain id
  adds : ∀ arguments, call.action = .appendTurn arguments →
    ∀ sequence ∈ arguments.assistantSequence, 0 < sequence
  room : (memory.get? call.scope.key).isSome ∨ memory.entries.length < config.maxItems
  carries : call.scope.workspaceId = workspaceId → knowledgeBaseId ∈ call.method.givenIds →
    call.scope.pluralRequest = true ∨
      call.scope.knowledgeBaseId = knowledgeBaseId ∧ knowledgeBaseId ≠ "default"
  keeps : ∀ snapshot, call.action = .replaceFromDurable snapshot →
    call.scope.workspaceId = workspaceId → ∀ state,
      memory.get? call.scope.key = some state → knowledgeBaseId ∈ state.knowledgeBaseIds →
        knowledgeBaseId ∈ identifierSet snapshot.knowledgeBaseIds

/-- What a call does to both stores. -/
inductive Effect (store : RedisStore) (start : Timestamp) (call : ScopeCall)
    (before after : Conversations × Space Stored) : Prop
  | same (memory : ∀ other, after.1.get? other = before.1.get? other)
      (space : after.2 = before.2)
  | touched {old state : ConversationState}
      (found : before.1.get? call.scope.key = some old) (alike : old.Alike state)
      (late : start ≤ state.updatedAt)
      (memory : ∀ other, after.1.get? other =
        if other = call.scope.key then some state else before.1.get? other)
      (space : after.2 = before.2)
  | saved {state other : ConversationState} (alike : state.Alike other)
      (late : start ≤ state.updatedAt ∧ start ≤ other.updatedAt)
      (source : ∀ id ∈ state.knowledgeBaseIds, id ∈ call.method.givenIds ∨
        ∃ old, before.1.get? call.scope.key = some old ∧ id ∈ old.knowledgeBaseIds)
      (kept : (∃ snapshot, call.action = .replaceFromDurable snapshot ∧
          state.knowledgeBaseIds = identifierSet snapshot.knowledgeBaseIds) ∨
        ∀ old, before.1.get? call.scope.key = some old →
          old.knowledgeBaseIds ⊆ state.knowledgeBaseIds)
      (memory : ∀ other, after.1.get? other =
        if other = call.scope.key then some state else before.1.get? other)
      (space : ∀ key, after.2.get? key =
        if key = store.stateKey call.scope.key then some (.state other)
        else if key ∈ store.markersOf call.scope.key other.knowledgeBaseIds then some .mark
        else before.2.get? key)
  | cleared {ids : Finset String}
      (marked : ids = ((before.1.get? call.scope.key).map (·.knowledgeBaseIds)).getD ∅)
      (memory : ∀ other, after.1.get? other =
        if other = call.scope.key then none else before.1.get? other)
      (space : ∀ key, after.2.get? key =
        if key = store.stateKey call.scope.key ∨ key ∈ store.markersOf call.scope.key ids then none
        else before.2.get? key)

section

variable {store : RedisStore} {start : Timestamp} {call : ScopeCall}
  {stores : Conversations × Space Stored}

theorem identifierSet_subset (values : List String) :
    ∀ id ∈ identifierSet values, id ∈ values := by
  intro id member
  rw [identifierSet, List.mem_toFinset, List.mem_filter] at member
  exact member.1

theorem lives_of_within {time updatedAt : Timestamp} {ttl : Int} (late : start ≤ updatedAt)
    (within : time ≤ start + ttl) : time - updatedAt ≤ ttl := by
  linarith

theorem loads_of_within {time : Timestamp} {state : ConversationState} {ttl : Int}
    (late : start ≤ state.updatedAt) (begun : start ≤ time) (within : time ≤ start + ttl) :
    time - (Redis.stateOfPayload time state).updatedAt ≤ ttl := by
  dsimp only [Redis.stateOfPayload]
  split
  · linarith
  · linarith

/-- What loading finds of a state both stores have. -/
inductive Finds (start : Timestamp) (now : Timestamp) :
    Option ConversationState → Option Stored → Option ConversationState → Prop
  | absent : Finds start now none none none
  | present {state other : ConversationState} (alike : state.Alike other)
      (late : start ≤ other.updatedAt) :
      Finds start now (some state) (some (.state other))
        (some (Redis.stateOfPayload now other))

theorem Matches.loads {now : Timestamp} {conversationId : String}
    {memory : Option ConversationState} {space : Space Stored}
    (found : Matches start memory (space.get? (store.stateKey conversationId)))
    (begun : start ≤ now) (within : now ≤ start + store.config.ttlSeconds) :
    ∃ loaded, Finds start now memory (space.get? (store.stateKey conversationId)) loaded ∧
      store.Loads now conversationId space loaded := by
  generalize stored : space.get? (store.stateKey conversationId) = value at found
  cases found with
  | absent => exact ⟨none, .absent, fun continuation => alone_loading_none stored⟩
  | present alike warm kept =>
      exact ⟨_, .present alike kept, fun continuation =>
        alone_loading_some stored (loads_of_within kept begun within)⟩

/-- The stores before a call that comes in time. -/
structure Ready (store : RedisStore) (start : Timestamp) (call : ScopeCall)
    (stores : Conversations × Space Stored) : Prop where
  begun : start ≤ call.time
  within : call.time ≤ start + store.config.ttlSeconds
  lives : ∀ other state, stores.1.get? other = some state → start ≤ state.updatedAt
  bounded : stores.1.entries.length ≤ store.config.maxItems
  room : (stores.1.get? call.scope.key).isSome ∨
    stores.1.entries.length < store.config.maxItems
  found : Matches start (stores.1.get? call.scope.key)
    (stores.2.get? (store.stateKey call.scope.key))

theorem Ready.purged (ready : Ready store start call stores) :
    purgeExpired store.config call.time stores.1 = stores.1 :=
  purgeExpired_eq_self fun other state stored =>
    lives_of_within (ready.lives other state stored) ready.within

/-- A call and what it does, within the bound of the store in the process. -/
def Effective (store : RedisStore) (start : Timestamp) (call : ScopeCall)
    (stores : Conversations × Space Stored) : Prop :=
  (call.apply store stores).1.entries.length ≤ store.config.maxItems ∧
    Effect store start call stores (call.apply store stores)

/-- The turn of an append to a fresh conversation is added. -/
theorem fresh_changed {arguments : AppendArguments} {now : Timestamp}
    (adds : ∀ sequence ∈ arguments.assistantSequence, 0 < sequence) :
    (arguments.appended now none).changed = true := by
  have added : (insertTurnBySequence (.fresh ⟨now, now, now⟩) arguments.turn).isSome := by
    rw [insertTurnBySequence]
    split
    · rfl
    · rename_i sequence sequenced
      have positive : ¬ sequence ≤ (ConversationState.fresh ⟨now, now, now⟩).summaryThroughSequence :=
        not_le.mpr (adds sequence sequenced)
      rw [if_neg positive]
      rfl
  simp only [AppendArguments.appended, Option.getD_none, ConversationState.append, added,
    Bool.true_or]

theorem appendTurn_effect {time : Timestamp} {scope : Scope} {arguments : AppendArguments}
    (ready : Ready store start ⟨time, scope, .appendTurn arguments⟩ stores)
    (adds : ∀ sequence ∈ arguments.assistantSequence, 0 < sequence) :
    Effective store start ⟨time, scope, .appendTurn arguments⟩ stores := by
  have named : scope.key ≠ "" := scope.key_ne_empty
  rcases ready.found.loads ready.begun ready.within with ⟨loaded, finds, loads⟩
  have memory : (ScopeCall.apply store ⟨time, scope, .appendTurn arguments⟩ stores).1 =
      evictIfNeeded store.config (Conversations.touch scope.key
        (arguments.appended time (stores.1.get? scope.key)).state stores.1) := by
    change (InProcess.appendTurn store.config ⟨time, time, time⟩ scope.key arguments
      stores.1).2 = _
    rw [InProcess.appendTurn, if_neg named]
    dsimp only
    rw [ready.purged]
    rfl
  have space : (ScopeCall.apply store ⟨time, scope, .appendTurn arguments⟩ stores).2 =
      if (arguments.appended time loaded).changed then
        (store.alone time (store.saveState scope.key
          (arguments.appended time loaded).state) stores.2).2
      else stores.2 :=
    alone_appendTurn named loads arguments
  have kept := kept_with_room ready.bounded ready.room
    (arguments.appended time (stores.1.get? scope.key)).state
  rw [← memory] at kept
  refine ⟨kept.1, ?_⟩
  generalize stored : stores.1.get? scope.key = old at finds kept
  generalize stores.2.get? (store.stateKey scope.key) = value at finds
  cases finds with
  | absent =>
      rw [if_pos (fresh_changed adds)] at space
      refine .saved (.refl _) ⟨ready.begun, ready.begun⟩ ?_ (.inr ?_) kept.2 ?_
      · intro id member
        rcases Finset.mem_union.mp member with before | given
        · exact absurd before (Finset.notMem_empty id)
        · exact .inl (identifierSet_subset _ id given)
      · intro old found
        cases stored.symm.trans found
      · intro key
        rw [space]
        exact alone_saveState key
  | present alike late =>
      rename_i state other
      have same : (arguments.appended time (some state)).changed =
          (arguments.appended time (some (Redis.stateOfPayload time other))).changed ∧
          (arguments.appended time (some state)).state.Alike
            (arguments.appended time (some (Redis.stateOfPayload time other))).state :=
        (alike.trans (ConversationState.alike_stateOfPayload time other)).append
      cases changed : (arguments.appended time (some state)).changed with
      | true =>
          rw [if_pos (same.1.symm.trans changed)] at space
          refine .saved same.2 ⟨ready.begun, ready.begun⟩ ?_ (.inr ?_) kept.2 ?_
          · intro id member
            rcases Finset.mem_union.mp member with before | given
            · exact .inr ⟨state, stored, before⟩
            · exact .inl (identifierSet_subset _ id given)
          · intro old found
            cases stored.symm.trans found
            exact Finset.subset_union_left
          · intro key
            rw [space]
            exact alone_saveState key
      | false =>
          rw [← same.1, changed, if_neg Bool.false_ne_true] at space
          exact .touched stored (ConversationState.append_unchanged changed) ready.begun kept.2 space

theorem hydrateIfAbsent_effect {time : Timestamp} {scope : Scope} {snapshot : DurableSnapshot}
    (ready : Ready store start ⟨time, scope, .hydrateIfAbsent snapshot⟩ stores) :
    Effective store start ⟨time, scope, .hydrateIfAbsent snapshot⟩ stores := by
  have named : scope.key ≠ "" := scope.key_ne_empty
  rcases ready.found.loads ready.begun ready.within with ⟨loaded, finds, loads⟩
  have memory : (ScopeCall.apply store ⟨time, scope, .hydrateIfAbsent snapshot⟩ stores).1 =
      (stores.1.get? scope.key).elim (evictIfNeeded store.config (Conversations.touch scope.key
        (snapshot.state store.config time time) stores.1)) (fun _ => stores.1) := by
    change (InProcess.hydrateIfAbsent store.config ⟨time, time, time⟩ scope.key snapshot
      stores.1).2 = _
    rw [InProcess.hydrateIfAbsent, if_neg named]
    dsimp only
    rw [ready.purged]
    cases stores.1.get? scope.key with
    | none => rfl
    | some state => rfl
  have space : (ScopeCall.apply store ⟨time, scope, .hydrateIfAbsent snapshot⟩ stores).2 =
      if loaded.isSome then stores.2
      else (store.alone time (store.saveState scope.key
        (snapshot.state store.config time time)) stores.2).2 :=
    alone_hydrateIfAbsent named loads snapshot
  have kept := kept_with_room ready.bounded ready.room (snapshot.state store.config time time)
  generalize stored : stores.1.get? scope.key = old at finds memory
  generalize stores.2.get? (store.stateKey scope.key) = value at finds
  cases finds with
  | absent =>
      rw [Option.elim_none] at memory
      rw [← memory] at kept
      refine ⟨kept.1, .saved (.refl _) ⟨ready.begun, ready.begun⟩ ?_ (.inr ?_) kept.2 ?_⟩
      · exact fun id member => .inl (identifierSet_subset _ id member)
      · intro old found
        cases stored.symm.trans found
      · intro key
        rw [space]
        exact alone_saveState key
  | present alike late =>
      rw [Option.elim_some] at memory
      exact ⟨memory ▸ ready.bounded, .same (fun other => by rw [memory]) space⟩

theorem replaceFromDurable_effect {time : Timestamp} {scope : Scope} {snapshot : DurableSnapshot}
    (ready : Ready store start ⟨time, scope, .replaceFromDurable snapshot⟩ stores) :
    Effective store start ⟨time, scope, .replaceFromDurable snapshot⟩ stores := by
  have named : scope.key ≠ "" := scope.key_ne_empty
  rcases ready.found.loads ready.begun ready.within with ⟨loaded, finds, loads⟩
  have memory : (ScopeCall.apply store ⟨time, scope, .replaceFromDurable snapshot⟩ stores).1 =
      if ((stores.1.get? scope.key).any fun state =>
          durableStateSequence snapshot.turns snapshot.throughSequence <
            conversationStateSequence state) = true then stores.1
      else evictIfNeeded store.config (Conversations.touch scope.key (snapshot.state store.config
        (((stores.1.get? scope.key).map (·.createdAt)).getD time) time) stores.1) := by
    change (InProcess.replaceFromDurable store.config ⟨time, time, time⟩ scope.key snapshot
      stores.1).2 = _
    rw [InProcess.replaceFromDurable, if_neg named]
    dsimp only
    rw [ready.purged]
    split
    · rfl
    · rfl
  have space : (ScopeCall.apply store ⟨time, scope, .replaceFromDurable snapshot⟩ stores).2 = _ :=
    alone_replaceFromDurable named loads snapshot
  have newer : ((stores.1.get? scope.key).any fun state =>
      durableStateSequence snapshot.turns snapshot.throughSequence <
        conversationStateSequence state) =
      loaded.any fun state => durableStateSequence snapshot.turns snapshot.throughSequence <
        conversationStateSequence state := by
    generalize stores.1.get? scope.key = old at finds
    generalize stores.2.get? (store.stateKey scope.key) = value at finds
    cases finds with
    | absent => rfl
    | present alike late =>
        have same := (alike.trans (ConversationState.alike_stateOfPayload time _)).sequence
        simp only [Option.any_some, same]
  rw [newer] at memory
  split at memory
  · rename_i older
    rw [if_pos older] at space
    exact ⟨memory ▸ ready.bounded, .same (fun other => by rw [memory]) space⟩
  · rename_i current
    rw [if_neg current] at space
    have kept := kept_with_room ready.bounded ready.room (snapshot.state store.config
      (((stores.1.get? scope.key).map (·.createdAt)).getD time) time)
    rw [← memory] at kept
    have alike : (snapshot.state store.config
        (((stores.1.get? scope.key).map (·.createdAt)).getD time) time).Alike
          (snapshot.state store.config ((loaded.map (·.createdAt)).getD time) time) :=
      ⟨⟨rfl, rfl, rfl⟩, rfl, rfl⟩
    refine ⟨kept.1, .saved alike ⟨ready.begun, ready.begun⟩ ?_
      (.inl ⟨snapshot, rfl, rfl⟩) kept.2 ?_⟩
    · exact fun id member => .inl (identifierSet_subset _ id member)
    · intro key
      rw [space]
      exact alone_saveState key

theorem clear_effect {time : Timestamp} {scope : Scope}
    (ready : Ready store start ⟨time, scope, .clear⟩ stores) :
    Effective store start ⟨time, scope, .clear⟩ stores := by
  have named : scope.key ≠ "" := scope.key_ne_empty
  rcases ready.found.loads ready.begun ready.within with ⟨loaded, finds, loads⟩
  have memory : (ScopeCall.apply store ⟨time, scope, .clear⟩ stores).1 =
      stores.1.erase scope.key := by
    change (InProcess.clear scope.key stores.1).2 = _
    rw [InProcess.clear, if_neg named]
  have marked : (loaded.map (·.knowledgeBaseIds)).getD ∅ =
      ((stores.1.get? scope.key).map (·.knowledgeBaseIds)).getD ∅ := by
    change Finds _ _ (stores.1.get? scope.key) _ _ at finds
    generalize stores.1.get? scope.key = old at finds
    generalize stores.2.get? _ = value at finds
    cases finds with
    | absent => rfl
    | present alike late => exact alike.knowledgeBaseIds.symm
  refine ⟨?_, .cleared marked ?_ fun key => alone_clear_get? named loads key⟩
  · rw [memory]
    exact (List.length_filter_le _ _).trans ready.bounded
  · intro other
    rw [memory]
    change (stores.1.erase scope.key).get? other = if other = scope.key then none else _
    by_cases same : other = scope.key
    · rw [same, Dictionary.get?_erase_self, if_pos rfl]
    · rw [Dictionary.get?_erase_of_ne same, if_neg same]

/-- A regular call does to both stores what it should. -/
theorem call_effect (ready : Ready store start call stores)
    (adds : ∀ arguments, call.action = .appendTurn arguments →
      ∀ sequence ∈ arguments.assistantSequence, 0 < sequence) :
    Effective store start call stores := by
  rcases call with ⟨time, scope, action⟩
  cases action with
  | appendTurn arguments => exact appendTurn_effect ready (adds arguments rfl)
  | hydrateIfAbsent snapshot => exact hydrateIfAbsent_effect ready
  | replaceFromDurable snapshot => exact replaceFromDurable_effect ready
  | clear => exact clear_effect ready

end

/-! ## What calls keep -/

theorem PlainId.of_plain {id : String} (plain : Service.Plain id) : PlainId id where
  colon := plain.colonless
  literal character member special := by
    have allowed := plain character member
    simp only [patternCharacters, List.mem_cons, List.not_mem_nil, or_false] at special
    rcases special with rfl | rfl | rfl | rfl
    · cases allowed
    · cases allowed
    · cases allowed
    · cases allowed

theorem workspaceOf_append (workspaceId rest : String) (colonless : ':' ∉ workspaceId.toList) :
    workspaceOf (workspaceId ++ ":" ++ rest) = workspaceId := by
  have text : (workspaceId ++ ":" ++ rest).toList = workspaceId.toList ++ ':' :: rest.toList := by
    simp
  rw [workspaceOf, text, partition_append colonless, String.ofList_toList]

/-- The key of a scope starts with its workspace. -/
theorem workspaceOf_key (scope : Scope) : workspaceOf scope.key = scope.workspaceId := by
  have colonless := scope.workspace_plain.colonless
  unfold Scope.key Service.queryScopedConversationId Service.scopedConversationId
  split
  · have split : scope.workspaceId ++ ":multi-chat:" ++ scope.conversationId =
        scope.workspaceId ++ ":" ++ ("multi-chat:" ++ scope.conversationId) :=
      String.toList_injective (by simp)
    rw [split, workspaceOf_append _ _ colonless]
  · split
    · exact workspaceOf_append _ _ colonless
    · have split : scope.workspaceId ++ ":kb:" ++ scope.knowledgeBaseId ++ ":" ++
          scope.conversationId = scope.workspaceId ++ ":" ++
            ("kb:" ++ scope.knowledgeBaseId ++ ":" ++ scope.conversationId) :=
        String.toList_injective (by simp)
      rw [split, workspaceOf_append _ _ colonless]

theorem plainConversation_key {scope : Scope} (apart : scope.workspaceId ≠ "kb-membership") :
    PlainConversation scope.key where
  named := scope.key_ne_empty
  workspace := by
    rw [workspaceOf_key]
    exact .of_plain scope.workspace_plain
  unmarked := by
    rwa [workspaceOf_key]

/-- The names the store in the process looks for. -/
def Named (workspaceId knowledgeBaseId conversationId : String) : Prop :=
  startsWith (workspaceId ++ ":kb:" ++ knowledgeBaseId ++ ":") conversationId = true ∨
    startsWith (workspaceId ++ ":multi-chat:") conversationId = true

/-- Both stores have the same states, the markers of the knowledge base in the workspace are
those of states that name it, and these are where the store in the process looks for them. -/
structure Agree (store : RedisStore) (start : Timestamp) (workspaceId knowledgeBaseId : String)
    (stores : Conversations × Space Stored) : Prop where
  marked : store.Marked stores.2
  bounded : stores.1.entries.length ≤ store.config.maxItems
  plain : ∀ conversationId state, stores.1.get? conversationId = some state →
    PlainConversation conversationId
  matching : ∀ conversationId, PlainConversation conversationId →
    Matches start (stores.1.get? conversationId)
      (stores.2.get? (store.stateKey conversationId))
  unstale : ∀ conversationId, workspaceOf conversationId = workspaceId →
    (stores.2.get? (store.membershipKey conversationId knowledgeBaseId)).isSome →
      ∃ state, stores.1.get? conversationId = some state ∧
        knowledgeBaseId ∈ state.knowledgeBaseIds
  carried : ∀ conversationId state, stores.1.get? conversationId = some state →
    workspaceOf conversationId = workspaceId → knowledgeBaseId ∈ state.knowledgeBaseIds →
      Named workspaceId knowledgeBaseId conversationId

theorem ConversationState.Alike.symm {state other : ConversationState}
    (alike : state.Alike other) : other.Alike state :=
  ⟨alike.toSame.symm, alike.summaryThroughSequence.symm, alike.version.symm⟩

section

variable {store : RedisStore} {start : Timestamp} {workspaceId knowledgeBaseId : String}
  {stores after : Conversations × Space Stored} {call : ScopeCall}

theorem agree_empty (store : RedisStore) (start : Timestamp)
    (workspaceId knowledgeBaseId : String) :
    Agree store start workspaceId knowledgeBaseId (.empty, .empty) where
  marked := marked_empty store
  bounded := Nat.zero_le _
  plain _ _ found := by cases found
  matching _ _ := .absent
  unstale _ _ present := by cases present
  carried _ _ found := by cases found

theorem Agree.touched (agree : Agree store start workspaceId knowledgeBaseId stores)
    {old state : ConversationState} (found : stores.1.get? call.scope.key = some old)
    (alike : old.Alike state) (late : start ≤ state.updatedAt)
    (bounded : after.1.entries.length ≤ store.config.maxItems)
    (memory : ∀ other, after.1.get? other =
      if other = call.scope.key then some state else stores.1.get? other)
    (space : after.2 = stores.2) :
    Agree store start workspaceId knowledgeBaseId after where
  marked := space ▸ agree.marked
  bounded := bounded
  plain conversationId stored present := by
    rw [memory] at present
    split at present
    · rename_i same
      exact same ▸ agree.plain _ old found
    · exact agree.plain conversationId stored present
  matching conversationId conversation := by
    have matching := agree.matching conversationId conversation
    rw [memory, space]
    split
    · rename_i same
      subst same
      rw [found] at matching
      generalize stores.2.get? _ = value at matching
      cases matching with
      | present same warm kept => exact .present (alike.symm.trans same) late kept
    · exact matching
  unstale conversationId inWorkspace present := by
    rw [space] at present
    rcases agree.unstale conversationId inWorkspace present with ⟨stored, held, member⟩
    rw [memory]
    split
    · rename_i same
      subst same
      cases found.symm.trans held
      exact ⟨state, rfl, alike.knowledgeBaseIds ▸ member⟩
    · exact ⟨stored, held, member⟩
  carried conversationId stored present inWorkspace member := by
    rw [memory] at present
    split at present
    · rename_i same
      cases present
      subst same
      exact agree.carried _ old found inWorkspace (alike.knowledgeBaseIds ▸ member)
    · exact agree.carried conversationId stored present inWorkspace member

theorem Agree.stored (agree : Agree store start workspaceId knowledgeBaseId stores)
    {conversationId : String} {state : ConversationState}
    (found : stores.1.get? conversationId = some state) :
    ∃ other, stores.2.get? (store.stateKey conversationId) = some (.state other) ∧
      state.Alike other := by
  have matching := agree.matching conversationId (agree.plain conversationId state found)
  rw [found] at matching
  generalize held : stores.2.get? _ = value at matching
  cases matching with
  | present alike warm kept => exact ⟨_, rfl, alike⟩

/-- The store in the process looks at the conversations that may carry the knowledge base. -/
theorem named_of_carries {scope : Scope} (carries : scope.pluralRequest = true ∨
    scope.knowledgeBaseId = knowledgeBaseId ∧ knowledgeBaseId ≠ "default") :
    Named scope.workspaceId knowledgeBaseId scope.key := by
  cases plural : scope.pluralRequest with
  | true =>
      right
      rw [Scope.key, Service.queryScopedConversationId, if_pos plural]
      exact startsWith_append _ _
  | false =>
      rcases carries with multi | ⟨rfl, single⟩
      · cases plural.symm.trans multi
      · left
        rw [Scope.key, Service.queryScopedConversationId, plural, if_neg Bool.false_ne_true,
          Service.scopedConversationId, if_neg single]
        exact startsWith_append _ _

theorem Agree.saved (agree : Agree store start workspaceId knowledgeBaseId stores)
    (base : PlainId knowledgeBaseId)
    (regular : Regular store.config workspaceId knowledgeBaseId stores.1 call)
    {state other : ConversationState} (alike : state.Alike other)
    (late : start ≤ state.updatedAt ∧ start ≤ other.updatedAt)
    (source : ∀ id ∈ state.knowledgeBaseIds, id ∈ call.method.givenIds ∨
      ∃ old, stores.1.get? call.scope.key = some old ∧ id ∈ old.knowledgeBaseIds)
    (kept : call.scope.workspaceId = workspaceId → ∀ old,
      stores.1.get? call.scope.key = some old → knowledgeBaseId ∈ old.knowledgeBaseIds →
        knowledgeBaseId ∈ state.knowledgeBaseIds)
    (bounded : after.1.entries.length ≤ store.config.maxItems)
    (memory : ∀ other, after.1.get? other =
      if other = call.scope.key then some state else stores.1.get? other)
    (space : ∀ key, after.2.get? key =
      if key = store.stateKey call.scope.key then some (.state other)
      else if key ∈ store.markersOf call.scope.key other.knowledgeBaseIds then some .mark
      else stores.2.get? key) :
    Agree store start workspaceId knowledgeBaseId after := by
  have conversation := plainConversation_key regular.apart
  have plainIds : ∀ id ∈ other.knowledgeBaseIds, PlainId id := by
    intro id member
    rw [← alike.knowledgeBaseIds] at member
    rcases source id member with given | ⟨old, found, inOld⟩
    · exact .of_plain (regular.plain id given)
    · rcases agree.stored found with ⟨held, stored, same⟩
      exact RedisStore.Needs.plain agree.marked stored id (same.knowledgeBaseIds ▸ inOld)
  have unmarked : ∀ {conversationId : String}, PlainConversation conversationId →
      store.stateKey conversationId ∉ store.markersOf call.scope.key other.knowledgeBaseIds := by
    intro conversationId plain member
    rcases mem_markersOf.mp member with ⟨id, -, same⟩
    exact membershipKey_ne_stateKey plain same.symm
  constructor
  · constructor
    · intro key value found
      rw [space] at found
      split at found
      · rename_i same
        cases found
        exact same ▸ .state _ other conversation plainIds
      · split at found
        · rename_i marker
          cases found
          rcases mem_markersOf.mp marker with ⟨id, member, rfl⟩
          exact .mark _ id conversation (plainIds id member)
        · exact agree.marked.proper key value found
    · rintro key ⟨conversationId, stored, found, id, member, rfl⟩
      rw [space] at found ⊢
      split
      · rfl
      · split
        · rfl
        · rename_i unlisted
          split at found
          · rename_i same
            cases found
            exact absurd (mem_markersOf.mpr ⟨id, member, by rw [stateKey_injective same]⟩) unlisted
          · split at found
            · cases found
            · exact agree.marked.complete _ ⟨conversationId, stored, found, id, member, rfl⟩
  · exact bounded
  · intro conversationId stored present
    rw [memory] at present
    split at present
    · rename_i same
      exact same ▸ conversation
    · exact agree.plain conversationId stored present
  · intro conversationId plain
    rw [memory, space, if_neg (unmarked plain)]
    by_cases same : conversationId = call.scope.key
    · rw [if_pos same, if_pos (by rw [same])]
      exact .present alike late.1 late.2
    · rw [if_neg same, if_neg fun equal => same (stateKey_injective equal)]
      exact agree.matching conversationId plain
  · intro conversationId inWorkspace present
    rw [memory]
    rw [space, if_neg (membershipKey_ne_stateKey conversation)] at present
    by_cases same : conversationId = call.scope.key
    · rw [if_pos same]
      refine ⟨state, rfl, ?_⟩
      subst same
      split at present
      · rename_i marker
        rcases mem_markersOf.mp marker with ⟨id, member, equal⟩
        rw [(membershipKey_injective base (plainIds id member) equal).2, alike.knowledgeBaseIds]
        exact member
      · rcases agree.unstale _ inWorkspace present with ⟨old, found, member⟩
        rw [workspaceOf_key] at inWorkspace
        exact kept inWorkspace old found member
    · rw [if_neg same]
      rw [if_neg] at present
      · exact agree.unstale conversationId inWorkspace present
      · intro marker
        rcases mem_markersOf.mp marker with ⟨id, member, equal⟩
        exact same (membershipKey_injective base (plainIds id member) equal).1
  · intro conversationId stored present inWorkspace member
    rw [memory] at present
    split at present
    · rename_i same
      cases present
      subst same
      rcases source _ member with given | ⟨old, found, inOld⟩
      · rw [workspaceOf_key] at inWorkspace
        exact inWorkspace ▸ named_of_carries (regular.carries inWorkspace given)
      · exact agree.carried _ old found inWorkspace inOld
    · exact agree.carried conversationId stored present inWorkspace member

theorem Agree.cleared (agree : Agree store start workspaceId knowledgeBaseId stores)
    (apart : call.scope.workspaceId ≠ "kb-membership")
    {ids : Finset String}
    (markers : ids = ((stores.1.get? call.scope.key).map (·.knowledgeBaseIds)).getD ∅)
    (bounded : after.1.entries.length ≤ store.config.maxItems)
    (memory : ∀ other, after.1.get? other =
      if other = call.scope.key then none else stores.1.get? other)
    (space : ∀ key, after.2.get? key =
      if key = store.stateKey call.scope.key ∨ key ∈ store.markersOf call.scope.key ids then none
      else stores.2.get? key) :
    Agree store start workspaceId knowledgeBaseId after := by
  have conversation := plainConversation_key apart
  have plainIds : ∀ id ∈ ids, PlainId id := by
    intro id member
    rw [markers] at member
    cases found : stores.1.get? call.scope.key with
    | none =>
        rw [found] at member
        exact absurd member (Finset.notMem_empty id)
    | some old =>
        rw [found] at member
        rcases agree.stored found with ⟨held, stored, same⟩
        exact RedisStore.Needs.plain agree.marked stored id (same.knowledgeBaseIds ▸ member)
  have earlier : ∀ {key : String} {value : Stored}, after.2.get? key = some value →
      key ≠ store.stateKey call.scope.key ∧ stores.2.get? key = some value := by
    intro key value found
    rw [space] at found
    split at found
    · cases found
    · rename_i kept
      exact ⟨fun same => kept (.inl same), found⟩
  have mine : ∀ {conversationId id : String}, PlainId id →
      store.membershipKey conversationId id ∈ store.markersOf call.scope.key ids →
        conversationId = call.scope.key ∧ id ∈ ids := by
    intro conversationId id plain listed
    rcases mem_markersOf.mp listed with ⟨other, member, same⟩
    rcases membershipKey_injective plain (plainIds other member) same with ⟨equal, rfl⟩
    exact ⟨equal, member⟩
  constructor
  · constructor
    · exact fun key value found => agree.marked.proper key value (earlier found).2
    · rintro key ⟨conversationId, stored, found, id, member, rfl⟩
      rcases earlier found with ⟨different, before⟩
      have plainId := RedisStore.Needs.plain agree.marked before id member
      have present := agree.marked.complete _ ⟨conversationId, stored, before, id, member, rfl⟩
      rw [space, if_neg]
      · exact present
      · rintro (same | listed)
        · exact membershipKey_ne_stateKey conversation same
        · exact different (by rw [(mine plainId listed).1])
  · exact bounded
  · intro conversationId stored present
    rw [memory] at present
    split at present
    · cases present
    · exact agree.plain conversationId stored present
  · intro conversationId plain
    rw [memory, space]
    by_cases same : conversationId = call.scope.key
    · rw [if_pos same, if_pos (.inl (by rw [same]))]
      exact .absent
    · rw [if_neg same, if_neg]
      · exact agree.matching conversationId plain
      · rintro (equal | listed)
        · exact same (stateKey_injective equal)
        · rcases mem_markersOf.mp listed with ⟨id, -, equal⟩
          exact membershipKey_ne_stateKey plain equal.symm
  · intro conversationId inWorkspace present
    rw [space] at present
    split at present
    · cases present
    · rename_i kept
      rcases agree.unstale conversationId inWorkspace present with ⟨old, found, member⟩
      refine ⟨old, ?_, member⟩
      rw [memory, if_neg]
      · exact found
      · rintro rfl
        apply kept
        right
        rw [mem_markersOf, markers, found]
        exact ⟨knowledgeBaseId, member, rfl⟩
  · intro conversationId stored present inWorkspace member
    rw [memory] at present
    split at present
    · cases present
    · exact agree.carried conversationId stored present inWorkspace member

/-- A regular call that comes in time keeps the stores in agreement. -/
theorem Agree.step (agree : Agree store start workspaceId knowledgeBaseId stores)
    (base : PlainId knowledgeBaseId)
    (regular : Regular store.config workspaceId knowledgeBaseId stores.1 call)
    (begun : start ≤ call.time) (within : call.time ≤ start + store.config.ttlSeconds) :
    Agree store start workspaceId knowledgeBaseId (call.apply store stores) := by
  have lives : ∀ other state, stores.1.get? other = some state → start ≤ state.updatedAt := by
    intro other state found
    have matching := agree.matching other (agree.plain other state found)
    rw [found] at matching
    generalize stores.2.get? _ = value at matching
    cases matching with
    | present alike warm kept => exact warm
  have ready : Ready store start call stores :=
    ⟨begun, within, lives, agree.bounded, regular.room,
      agree.matching _ (plainConversation_key regular.apart)⟩
  rcases call_effect ready regular.adds with ⟨bounded, effect⟩
  generalize call.apply store stores = after at bounded effect
  cases effect with
  | same memory space =>
      rcases after with ⟨memoryAfter, spaceAfter⟩
      cases space
      exact ⟨agree.marked, bounded, fun conversationId state found =>
        agree.plain _ _ (memory _ ▸ found), fun conversationId plain =>
        memory conversationId ▸ agree.matching _ plain, fun conversationId inWorkspace present =>
        memory conversationId ▸ agree.unstale _ inWorkspace present,
        fun conversationId state found => agree.carried _ _ (memory _ ▸ found)⟩
  | touched found alike late memory space =>
      exact agree.touched found alike late bounded memory space
  | saved alike late source kept memory space =>
      refine agree.saved base regular alike late source ?_ bounded memory space
      intro inWorkspace old found member
      rcases kept with ⟨snapshot, replaces, ids⟩ | grows
      · rw [ids]
        exact regular.keeps snapshot replaces inWorkspace old found member
      · exact grows old found member
  | cleared marked memory space =>
      exact agree.cleared regular.apart marked bounded memory space

/-! ## Clearing by knowledge base -/

/-- The conversation had a state and has none any more. -/
def Forgets (before after : Conversations) (conversationId : String) : Prop :=
  (before.get? conversationId).isSome ∧ after.get? conversationId = none

/-- The state Redis has of a conversation. -/
def RedisStore.stateOf (store : RedisStore) (space : Space Stored) (conversationId : String) :
    Option ConversationState :=
  match space.get? (store.stateKey conversationId) with
  | some (.state state) => some state
  | _ => none

def RedisStore.Forgets (store : RedisStore) (before after : Space Stored)
    (conversationId : String) : Prop :=
  (store.stateOf before conversationId).isSome ∧ store.stateOf after conversationId = none

/-- Both stores forget the same conversations, and none of the workspace is left that names
the knowledge base. -/
structure ClearsAgree (store : RedisStore) (workspaceId knowledgeBaseId : String)
    (now : Timestamp) (stores : Conversations × Space Stored) : Prop where
  same : ∀ conversationId,
    Forgets stores.1 (InProcess.clearByKnowledgeBase workspaceId knowledgeBaseId stores.1).2
      conversationId ↔
    store.Forgets stores.2
      (store.alone now (store.clearByKnowledgeBase workspaceId knowledgeBaseId) stores.2).2
      conversationId
  rest : ∀ conversationId state,
    (InProcess.clearByKnowledgeBase workspaceId knowledgeBaseId stores.1).2.get?
      conversationId = some state → workspaceOf conversationId = workspaceId →
        knowledgeBaseId ∉ state.knowledgeBaseIds
  redisRest : ∀ conversationId state,
    store.stateOf (store.alone now (store.clearByKnowledgeBase workspaceId knowledgeBaseId)
      stores.2).2 conversationId = some state → workspaceOf conversationId = workspaceId →
        knowledgeBaseId ∉ state.knowledgeBaseIds

/-- The conversations `clear_by_knowledge_base` selects in the process. -/
def Selected (workspaceId knowledgeBaseId conversationId : String)
    (state : ConversationState) : Prop :=
  startsWith (workspaceId ++ ":kb:" ++ knowledgeBaseId ++ ":") conversationId = true ∨
    startsWith (workspaceId ++ ":multi-chat:") conversationId = true ∧
      knowledgeBaseId ∈ state.knowledgeBaseIds

instance (workspaceId knowledgeBaseId conversationId : String) (state : ConversationState) :
    Decidable (Selected workspaceId knowledgeBaseId conversationId state) :=
  inferInstanceAs (Decidable (_ ∨ _ ∧ _))

theorem get?_clearByKnowledgeBase {memory : Conversations} {conversationId : String}
    {state : ConversationState} :
    (InProcess.clearByKnowledgeBase workspaceId knowledgeBaseId memory).2.get? conversationId =
        some state ↔
      memory.get? conversationId = some state ∧
        ¬ Selected workspaceId knowledgeBaseId conversationId state := by
  rw [InProcess.clearByKnowledgeBase, Dictionary.get?_removeWhere, Selected]
  simp only [Bool.or_eq_false_iff, Bool.and_eq_false_iff, decide_eq_false_iff_not, not_or,
    not_and, Bool.not_eq_true]
  constructor
  · rintro ⟨found, single, multi⟩
    exact ⟨found, single, fun named => multi.resolve_left (by simp [named])⟩
  · rintro ⟨found, single, multi⟩
    refine ⟨found, single, ?_⟩
    cases named : startsWith (workspaceId ++ ":multi-chat:") conversationId with
    | false => exact .inl rfl
    | true => exact .inr (multi named)

theorem workspaceOf_startsWith {rest conversationId : String}
    (colonless : ':' ∉ workspaceId.toList)
    (starts : startsWith (workspaceId ++ ":" ++ rest) conversationId = true) :
    workspaceOf conversationId = workspaceId := by
  rw [startsWith, List.isPrefixOf_iff_prefix] at starts
  rcases starts with ⟨after, split⟩
  have named : conversationId = workspaceId ++ ":" ++ (rest ++ String.ofList after) := by
    apply String.toList_injective
    rw [← split]
    simp
  rw [named, workspaceOf_append _ _ colonless]

/-- In agreeing stores a conversation is selected in the process exactly if Redis finds it. -/
theorem Agree.selected_iff (agree : Agree store start workspaceId knowledgeBaseId stores)
    (workspace : PlainId workspaceId) {conversationId : String} {state : ConversationState}
    (found : stores.1.get? conversationId = some state) :
    Selected workspaceId knowledgeBaseId conversationId state ↔
      startsWith (workspaceId ++ ":kb:" ++ knowledgeBaseId ++ ":") conversationId = true ∨
        workspaceOf conversationId = workspaceId ∧
          (stores.2.get? (store.membershipKey conversationId knowledgeBaseId)).isSome := by
  constructor
  · rintro (single | ⟨multi, member⟩)
    · exact .inl single
    · rcases agree.stored found with ⟨other, stored, alike⟩
      refine .inr ⟨?_, agree.marked.complete _ ⟨conversationId, other, stored, knowledgeBaseId,
        alike.knowledgeBaseIds ▸ member, rfl⟩⟩
      have text : workspaceId ++ ":multi-chat:" = workspaceId ++ ":" ++ "multi-chat:" :=
        String.toList_injective (by simp)
      rw [text] at multi
      exact workspaceOf_startsWith workspace.colon multi
  · rintro (single | ⟨inWorkspace, present⟩)
    · exact .inl single
    · rcases agree.unstale conversationId inWorkspace present with ⟨held, same, member⟩
      cases found.symm.trans same
      rcases agree.carried conversationId state found inWorkspace member with single | multi
      · exact .inl single
      · exact .inr ⟨multi, member⟩

theorem stateOf_eq_some {space : Space Stored} {conversationId : String}
    {state : ConversationState} : store.stateOf space conversationId = some state ↔
      space.get? (store.stateKey conversationId) = some (.state state) := by
  rw [RedisStore.stateOf]
  split
  · rename_i stored found
    rw [found, Option.some.injEq, Option.some.injEq, Stored.state.injEq]
  · rename_i other
    exact ⟨by rintro ⟨⟩, fun found => absurd found (other state)⟩

/-- Redis has a state of a conversation exactly if the store in the process has one. -/
theorem Agree.isSome_stateOf (agree : Agree store start workspaceId knowledgeBaseId stores)
    (conversationId : String) :
    (store.stateOf stores.2 conversationId).isSome ↔
      (stores.1.get? conversationId).isSome := by
  constructor
  · intro present
    rcases Option.isSome_iff_exists.mp present with ⟨other, held⟩
    have stored := stateOf_eq_some.mp held
    have matching := agree.matching conversationId (plain_of_stored agree.marked stored)
    rw [stored] at matching
    generalize stores.1.get? conversationId = value at matching ⊢
    cases matching with
    | present alike warm kept => rfl
  · intro present
    rcases Option.isSome_iff_exists.mp present with ⟨state, found⟩
    rcases agree.stored found with ⟨other, stored, -⟩
    rw [stateOf_eq_some.mpr stored]
    rfl

/-- What Redis has left is what it had and the store in the process does not select. -/
theorem Agree.stateOf_cleared (agree : Agree store start workspaceId knowledgeBaseId stores)
    (selects : store.server.SelectsStart) (literal : Literal store.keyPrefix)
    (workspace : PlainId workspaceId) (apart : workspaceId ≠ "kb-membership")
    (base : PlainId knowledgeBaseId) (now : Timestamp) {conversationId : String}
    {state other : ConversationState} (found : stores.1.get? conversationId = some state) :
    store.stateOf (store.alone now (store.clearByKnowledgeBase workspaceId knowledgeBaseId)
        stores.2).2 conversationId = some other ↔
      store.stateOf stores.2 conversationId = some other ∧
        ¬ Selected workspaceId knowledgeBaseId conversationId state := by
  rw [stateOf_eq_some, stateOf_eq_some, alone_clearByKnowledgeBase_get? selects literal
    agree.marked now workspace apart base (agree.plain conversationId state found),
    agree.selected_iff workspace found]
  split
  · rename_i selected
    exact ⟨by rintro ⟨⟩, fun kept => absurd selected kept.2⟩
  · rename_i kept
    exact ⟨fun held => ⟨held, kept⟩, fun held => held.1⟩

/-- Agreeing stores forget the same conversations. -/
theorem Agree.clears (agree : Agree store start workspaceId knowledgeBaseId stores)
    (selects : store.server.SelectsStart) (literal : Literal store.keyPrefix)
    (workspace : PlainId workspaceId) (apart : workspaceId ≠ "kb-membership")
    (base : PlainId knowledgeBaseId) (now : Timestamp) :
    ClearsAgree store workspaceId knowledgeBaseId now stores := by
  have unnamed : ∀ conversationId state, stores.1.get? conversationId = some state →
      workspaceOf conversationId = workspaceId →
        ¬ Selected workspaceId knowledgeBaseId conversationId state →
          knowledgeBaseId ∉ state.knowledgeBaseIds := by
    intro conversationId state found inWorkspace kept member
    apply kept
    rcases agree.carried conversationId state found inWorkspace member with single | multi
    · exact .inl single
    · exact .inr ⟨multi, member⟩
  constructor
  · intro conversationId
    rw [Forgets, RedisStore.Forgets, agree.isSome_stateOf, and_congr_right_iff]
    intro present
    rcases Option.isSome_iff_exists.mp present with ⟨state, found⟩
    rcases Option.isSome_iff_exists.mp ((agree.isSome_stateOf conversationId).mpr present)
      with ⟨other, held⟩
    rw [Option.eq_none_iff_forall_ne_some, Option.eq_none_iff_forall_ne_some]
    constructor
    · intro gone stored left
      apply gone state
      have kept := ((agree.stateOf_cleared selects literal workspace apart base now found).mp
        left).2
      exact get?_clearByKnowledgeBase.mpr ⟨found, kept⟩
    · intro gone stored left
      rcases get?_clearByKnowledgeBase.mp left with ⟨same, kept⟩
      cases found.symm.trans same
      exact gone other
        ((agree.stateOf_cleared selects literal workspace apart base now found).mpr ⟨held, kept⟩)
  · intro conversationId state left inWorkspace
    rcases get?_clearByKnowledgeBase.mp left with ⟨found, kept⟩
    exact unnamed conversationId state found inWorkspace kept
  · intro conversationId other left inWorkspace
    have stored := alone_shrinks now (clearing_clearByKnowledgeBase workspaceId knowledgeBaseId)
      stores.2 _ _ (stateOf_eq_some.mp left)
    have present := (agree.isSome_stateOf conversationId).mp
      (by rw [stateOf_eq_some.mpr stored]; rfl)
    rcases Option.isSome_iff_exists.mp present with ⟨state, found⟩
    rcases agree.stored found with ⟨held, same, alike⟩
    cases stored.symm.trans same
    have kept := ((agree.stateOf_cleared selects literal workspace apart base now found).mp left).2
    exact alike.knowledgeBaseIds ▸ unnamed conversationId state found inWorkspace kept

end

/-- After regular calls that come in time, both stores forget the same conversations with a
knowledge base. -/
theorem run_clears_agree (store : RedisStore) (selects : store.server.SelectsStart)
    (literal : Literal store.keyPrefix) (workspaceId knowledgeBaseId : String)
    (workspace : ∃ value, Service.safeWorkspaceId value = workspaceId)
    (apart : workspaceId ≠ "kb-membership")
    (base : ∃ value, Service.validateKnowledgeBaseId value = some knowledgeBaseId)
    (start : Timestamp) (calls : List ScopeCall)
    (inTime : ∀ call ∈ calls, start ≤ call.time ∧ call.time ≤ start + store.config.ttlSeconds)
    (regular : ∀ past call, past ++ [call] <+: calls →
      Regular store.config workspaceId knowledgeBaseId (storesAfter store past).1 call)
    (now : Timestamp) :
    ClearsAgree store workspaceId knowledgeBaseId now (storesAfter store calls) := by
  have workspacePlain : PlainId workspaceId := by
    rcases workspace with ⟨value, rfl⟩
    exact .of_plain (Service.safeWorkspaceId_plain value)
  have basePlain : PlainId knowledgeBaseId := by
    rcases base with ⟨value, valid⟩
    exact .of_plain (Service.validateKnowledgeBaseId_plain valid)
  have agree : calls <+: calls →
      Agree store start workspaceId knowledgeBaseId (storesAfter store calls) := by
    refine run_history (fun past stores => past <+: calls →
      Agree store start workspaceId knowledgeBaseId stores) ?_ ?_ calls
    · exact fun _ => agree_empty store start workspaceId knowledgeBaseId
    · intro past call earlier within
      have listed : call ∈ calls := within.subset (by simp)
      exact (earlier ((List.prefix_append past [call]).trans within)).step basePlain
        (regular past call within) (inTime call listed).1 (inTime call listed).2
  exact (agree List.prefix_rfl).clears selects literal workspacePlain apart basePlain now

/-! ## Sample conversations -/

def sampleBase : String := "kb_0123456789abcdef0123456789abcdef"

/-- A conversation over several knowledge bases, or with the default one. -/
def sampleScope (pluralRequest : Bool) : Scope := {
  workspaceId := "w1"
  knowledgeBaseId := "default"
  conversationId := "conversation-1"
  pluralRequest := pluralRequest
  workspace_safe := ⟨"w1", by decide +kernel⟩
  knowledgeBase_valid := ⟨"default", by decide +kernel⟩
  conversation_valid := ⟨"conversation-1", by decide +kernel⟩ }

/-- A turn that used the knowledge base. -/
def sampleTurn (pluralRequest : Bool) : ScopeCall where
  time := 1
  scope := sampleScope pluralRequest
  action := .appendTurn
    { user := "a", assistant := "b", knowledgeBaseIds := [sampleBase], assistantSequence := some 2 }

theorem run_clears_agree_federated :
    ClearsAgree sampleStore "w1" sampleBase 2 (storesAfter sampleStore [sampleTurn true]) := by
  apply run_clears_agree sampleStore sampleStore_selectsStart (by decide) "w1" sampleBase
    ⟨"w1", by decide +kernel⟩ (by decide) ⟨sampleBase, by decide +kernel⟩ 1 [sampleTurn true]
  · intro call member
    rw [List.mem_singleton.mp member]
    exact ⟨le_refl _, by decide +kernel⟩
  · rintro past call ⟨rest, equal⟩
    have short := congrArg List.length equal
    simp only [List.length_append, List.length_singleton] at short
    have first : past = [] := List.eq_nil_of_length_eq_zero (by omega)
    subst first
    cases (List.cons.inj equal).1
    constructor
    · decide
    · intro id given
      rw [List.mem_singleton.mp given]
      exact Service.plain_of_all (by decide +kernel)
    · intro arguments appends sequence sequenced
      cases appends
      cases sequenced
      decide
    · right
      decide
    · exact fun _ _ => .inl rfl
    · intro snapshot replaces
      cases replaces

/-- A default conversation that names the knowledge base is kept in the process. -/
theorem clears_differ :
    ¬ ClearsAgree sampleStore "w1" sampleBase 2 (storesAfter sampleStore [sampleTurn false]) := by
  intro agree
  have left : ((InProcess.clearByKnowledgeBase "w1" sampleBase
      (storesAfter sampleStore [sampleTurn false]).1).2.get? (sampleScope false).key).any
        (fun state => decide (sampleBase ∈ state.knowledgeBaseIds)) = true := by
    decide +kernel
  obtain ⟨state, found, named⟩ := (Option.any_eq_true _ _).mp left
  exact agree.rest _ state found (by decide +kernel) (of_decide_eq_true named)

end RAGuardian.Memory
