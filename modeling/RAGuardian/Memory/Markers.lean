import Mathlib.Data.Finset.Sort
import Mathlib.Data.String.Basic
import RAGuardian.Memory.Commands

/-! # Membership markers in Redis

Every stored state has a marker for each of its knowledge bases, as long as a marker
is deleted without the lock, or expires, only when nobody needs it. -/

namespace RAGuardian.Memory

open Concurrency Execution Keyspace Text
open History (Timestamp)

/-! ## Identifiers -/

/-- An identifier without colons that stands for itself in a pattern. -/
structure PlainId (id : String) : Prop where
  colon : ':' ∉ id.toList
  literal : Literal id

/-- A conversation of a plain workspace whose key is no marker. -/
structure PlainConversation (conversationId : String) : Prop where
  named : conversationId ≠ ""
  workspace : PlainId (workspaceOf conversationId)
  unmarked : workspaceOf conversationId ≠ "kb-membership"

/-- The knowledge bases a method is given. -/
def Method.givenIds : Method → List String
  | .appendTurn _ arguments => arguments.knowledgeBaseIds
  | .hydrateIfAbsent _ durable => durable.knowledgeBaseIds
  | .replaceFromDurable _ durable => durable.knowledgeBaseIds
  | _ => []

/-- A method that saves states saves plain ones. -/
def RedisCall.Plain : RedisCall → Prop
  | .on method => ∀ conversationId, method.locks = some conversationId →
      PlainConversation conversationId ∧ ∀ id ∈ method.givenIds, PlainId id
  | _ => True

section

variable {store : RedisStore}

theorem markerText : ":kb-membership:".toList = ':' :: ("kb-membership".toList ++ [':']) := by
  decide

theorem toList_membershipPrefix (workspaceId knowledgeBaseId : String) :
    (store.membershipPrefix workspaceId knowledgeBaseId).toList =
      store.keyPrefix.toList ++ ':' :: ("kb-membership".toList ++
        ':' :: (workspaceId.toList ++ ':' :: (knowledgeBaseId.toList ++ [':']))) := by
  rw [RedisStore.membershipPrefix, RedisStore.membershipWorkspacePrefix]
  simp only [String.toList_append, markerText, List.append_assoc, List.cons_append]
  rfl

theorem toList_membershipKey (conversationId knowledgeBaseId : String) :
    (store.membershipKey conversationId knowledgeBaseId).toList =
      store.keyPrefix.toList ++ ':' :: ("kb-membership".toList ++
        ':' :: ((workspaceOf conversationId).toList ++
          ':' :: (knowledgeBaseId.toList ++ ':' :: conversationId.toList))) := by
  rw [RedisStore.membershipKey, String.toList_append, toList_membershipPrefix]
  simp only [List.append_assoc, List.cons_append]
  rfl

theorem toList_stateKey (conversationId : String) :
    (store.stateKey conversationId).toList =
      store.keyPrefix.toList ++ ':' :: conversationId.toList := by
  simp [RedisStore.stateKey]

theorem stateKey_injective {left right : String}
    (same : store.stateKey left = store.stateKey right) : left = right := by
  have lists := congrArg String.toList same
  rw [toList_stateKey, toList_stateKey] at lists
  have tails := List.append_cancel_left lists
  exact String.toList_inj.mp (List.cons.inj tails).2

/-- No conversation of a plain workspace has a marker for its key. -/
theorem membershipKey_ne_stateKey {marked conversationId knowledgeBaseId : String}
    (plain : PlainConversation conversationId) :
    store.membershipKey marked knowledgeBaseId ≠ store.stateKey conversationId := by
  intro same
  have lists := congrArg String.toList same
  rw [toList_membershipKey, toList_stateKey] at lists
  have tails := List.append_cancel_left lists
  apply plain.unmarked
  rw [workspaceOf, ← (List.cons.inj tails).2, partition_append (by decide)]
  rfl

/-- Split at the first colon. -/
theorem eq_of_append_colon {first second rest other : List Char} (left : ':' ∉ first)
    (right : ':' ∉ second) (same : first ++ ':' :: rest = second ++ ':' :: other) :
    first = second ∧ rest = other := by
  have parts := congrArg (partition ':') same
  rw [partition_append left, partition_append right] at parts
  cases parts
  exact ⟨rfl, rfl⟩

theorem workspaceOf_colon (conversationId : String) :
    ':' ∉ (workspaceOf conversationId).toList := by
  rw [workspaceOf, String.toList_ofList]
  induction conversationId.toList with
  | nil => simp [partition]
  | cons character rest induction =>
      rw [partition]
      split
      · simp
      · rename_i different
        simp only [List.mem_cons, not_or]
        exact ⟨fun same => different (by simp [← same]), induction⟩

/-- A marker names its conversation and its knowledge base. -/
theorem membershipKey_injective {left right leftBase rightBase : String}
    (leftPlain : PlainId leftBase) (rightPlain : PlainId rightBase)
    (same : store.membershipKey left leftBase = store.membershipKey right rightBase) :
    left = right ∧ leftBase = rightBase := by
  have lists := congrArg String.toList same
  rw [toList_membershipKey, toList_membershipKey] at lists
  have tails := List.append_cancel_left (List.cons.inj (List.append_cancel_left lists)).2
  have rest := (eq_of_append_colon (workspaceOf_colon left) (workspaceOf_colon right)
    (List.cons.inj tails).2).2
  rcases eq_of_append_colon leftPlain.colon rightPlain.colon rest with ⟨bases, conversations⟩
  exact ⟨String.toList_inj.mp conversations, String.toList_inj.mp bases⟩

end

/-! ## What is stored -/

/-- The knowledge bases of a state are plain. -/
def ConversationState.Plain (state : ConversationState) : Prop :=
  ∀ id ∈ state.knowledgeBaseIds, PlainId id

/-- A key with its value, as the store writes them. -/
inductive RedisStore.Proper (store : RedisStore) : String → Stored → Prop
  | state (conversationId : String) (state : ConversationState)
      (conversation : PlainConversation conversationId) (plain : state.Plain) :
      Proper store (store.stateKey conversationId) (.state state)
  | mark (conversationId knowledgeBaseId : String)
      (conversation : PlainConversation conversationId) (plain : PlainId knowledgeBaseId) :
      Proper store (store.membershipKey conversationId knowledgeBaseId) .mark

/-- A state of a conversation is stored that needs the marker. -/
def RedisStore.Needs (store : RedisStore) (space : Space Stored) (key : String) : Prop :=
  ∃ conversationId state, space.get? (store.stateKey conversationId) = some (.state state) ∧
    ∃ id ∈ state.knowledgeBaseIds, key = store.membershipKey conversationId id

/-- Every key is proper, and every marker that is needed is there. -/
structure RedisStore.Marked (store : RedisStore) (space : Space Stored) : Prop where
  proper : ∀ key value, space.get? key = some value → store.Proper key value
  complete : ∀ key, store.Needs space key → (space.get? key).isSome

/-! ## Calls that hold a lock -/

/-- What a program that holds the lock of a conversation may do, once it has
published some markers, or has removed the state. A state is saved last, with all its
markers published; markers are deleted only once the state is gone. -/
def RedisStore.Guarded (store : RedisStore) (conversationId : String) {α : Type} :
    List String → Bool → Commands α → Prop
  | _, _, .done _ => True
  | published, gone, .call (.get _) next =>
      ∀ response : Option Stored,
        (∀ state, response = some (.state state) → state.Plain) →
          Guarded store conversationId published gone (next response)
  | published, gone, .call (.setex key .mark) next =>
      (∃ id, PlainId id ∧ key = store.membershipKey conversationId id) ∧
        Guarded store conversationId (key :: published) gone (next ())
  | published, _, .call (.setex key (.state state)) next =>
      key = store.stateKey conversationId ∧ state.Plain ∧
        (∀ id ∈ state.knowledgeBaseIds, store.membershipKey conversationId id ∈ published) ∧
          ∃ result, next () = .done result
  | published, gone, .call (.delete keys) next =>
      published = [] ∧
        ((keys = [store.stateKey conversationId] ∧
            ∀ count, Guarded store conversationId published true (next count)) ∨
          (gone = true ∧ (∀ key ∈ keys, ∃ id, PlainId id ∧
              key = store.membershipKey conversationId id) ∧
            ∀ count, Guarded store conversationId published gone (next count)))
  | published, gone, .call (.scan _ _) next =>
      ∀ page, Guarded store conversationId published gone (next page)
  | published, gone, .call .clock next =>
      ∀ now, Guarded store conversationId published gone (next now)

section

variable {store : RedisStore} {conversationId : String} {α β : Type}

/-- Knowing that the state is gone allows more. -/
theorem RedisStore.Guarded.gone {published : List String} {program : Commands α}
    (guarded : store.Guarded conversationId published false program) :
    store.Guarded conversationId published true program := by
  induction program generalizing published with
  | done result => trivial
  | call request next induction =>
      cases request with
      | get key => exact fun response plain => induction response (guarded response plain)
      | setex key value =>
          cases value with
          | mark => exact ⟨guarded.1, induction () guarded.2⟩
          | state state => exact guarded
      | delete keys =>
          rcases guarded with ⟨unpublished, removes | impossible⟩
          · exact ⟨unpublished, .inl removes⟩
          · cases impossible.1
      | scan cursor pattern => exact fun page => induction page (guarded page)
      | clock => exact fun now => induction now (guarded now)

theorem guarded_removeMemberships {ids : Finset String} (plain : ∀ id ∈ ids, PlainId id)
    {continuation : Unit → Commands α}
    (rest : store.Guarded conversationId [] true (continuation ())) :
    store.Guarded conversationId [] true
      ((store.removeMemberships conversationId ids).bind continuation) := by
  rw [RedisStore.removeMemberships]
  split
  · exact rest
  · rename_i keys listed
    refine ⟨rfl, .inr ⟨rfl, ?_, fun _ => rest⟩⟩
    intro key member
    rcases List.mem_map.mp member with ⟨id, idListed, rfl⟩
    exact ⟨id, plain id ((store.mem_listing ids id).mp idListed), rfl⟩

theorem guarded_loadState {continuation : RedisStore.Loaded → Commands α}
    (rest : ∀ loaded, (∀ state, loaded = .found state → state.Plain) →
      store.Guarded conversationId [] false (continuation loaded)) :
    store.Guarded conversationId [] false
      ((store.loadState conversationId).bind continuation) := by
  intro response plain
  dsimp only
  split
  · exact rest .absent fun _ impossible => nomatch impossible
  · exact rest .broken fun _ impossible => nomatch impossible
  · rename_i stored
    have storedPlain : stored.Plain := plain stored rfl
    intro now
    dsimp only
    split
    · refine ⟨rfl, .inl ⟨rfl, fun count => ?_⟩⟩
      dsimp only
      rw [Program.bind_assoc]
      exact guarded_removeMemberships storedPlain
        (RedisStore.Guarded.gone (rest .absent fun _ impossible => nomatch impossible))
    · apply rest
      intro state same
      cases same
      exact storedPlain

theorem guarded_publish {state : ConversationState} (plain : state.Plain)
    {continuation : Unit → Commands α} {gone : Bool} (ids : List String)
    (listed : ∀ id ∈ ids, id ∈ state.knowledgeBaseIds) {published : List String}
    (rest : ∀ later, (∀ id ∈ ids, store.membershipKey conversationId id ∈ later) →
      published ⊆ later →
      store.Guarded conversationId later gone (continuation ())) :
    store.Guarded conversationId published gone
      ((Program.each ids fun id =>
        .call (.setex (store.membershipKey conversationId id) .mark) fun _ => .done ()).bind
          continuation) := by
  induction ids generalizing published with
  | nil => exact rest published (by simp) (List.Subset.refl _)
  | cons id ids induction =>
      refine ⟨⟨id, plain id (listed id List.mem_cons_self), rfl⟩, ?_⟩
      apply induction fun other member => listed other (List.mem_cons_of_mem id member)
      intro later all kept
      apply rest later
      · intro other member
        rcases List.mem_cons.mp member with rfl | member
        · exact kept List.mem_cons_self
        · exact all other member
      · exact fun key member => kept (List.mem_cons_of_mem _ member)

theorem guarded_saveState {state : ConversationState} (plain : state.Plain) {gone : Bool}
    {published : List String} (result : α) :
    store.Guarded conversationId published gone
      ((store.saveState conversationId state).bind fun _ => .done result) := by
  rw [RedisStore.saveState, Program.bind_assoc]
  apply guarded_publish plain _ fun id member => (store.mem_listing _ _).mp member
  intro later all _
  exact ⟨rfl, plain, fun id member => all id ((store.mem_listing _ _).mpr member), _, rfl⟩

theorem guarded_loading {continuation : Option ConversationState → Commands α}
    (rest : ∀ loaded, (∀ state, loaded = some state → state.Plain) →
      store.Guarded conversationId [] false
        ((continuation loaded).bind fun result => .done (some result))) :
    store.Guarded conversationId [] false (store.loading conversationId continuation) := by
  apply guarded_loadState
  intro loaded plain
  cases loaded with
  | broken => trivial
  | absent => exact rest none fun _ impossible => nomatch impossible
  | found state =>
      apply rest (some state)
      intro other same
      cases same
      exact plain state rfl

/-! ### The methods -/

theorem guarded_read {view : ConversationState → α} {missing : α} :
    store.Guarded conversationId [] false (store.read conversationId view missing) := by
  rw [RedisStore.read]
  split
  · trivial
  · apply guarded_loading
    intro loaded plain
    cases loaded with
    | none => trivial
    | some state =>
        intro now
        dsimp only
        rw [Program.bind_assoc]
        refine guarded_saveState ?_ _
        exact plain state rfl

theorem plain_identifierSet {ids : List String} (plain : ∀ id ∈ ids, PlainId id) :
    ∀ id ∈ identifierSet ids, PlainId id := by
  intro id member
  exact plain id (List.mem_filter.mp (List.mem_toFinset.mp member)).1

theorem guarded_appendTurn {arguments : AppendArguments}
    (given : ∀ id ∈ arguments.knowledgeBaseIds, PlainId id) :
    store.Guarded conversationId [] false (store.appendTurn conversationId arguments) := by
  rw [RedisStore.appendTurn]
  split
  · trivial
  · apply guarded_loading
    intro loaded plain created updated
    have loadedPlain : (loaded.getD (.fresh ⟨created, created, updated⟩)).Plain := by
      cases loaded with
      | none =>
          intro id member
          cases member
      | some state => exact plain state rfl
    dsimp only
    split
    · rw [Program.bind_assoc]
      apply guarded_saveState
      intro id member
      rcases Finset.mem_union.mp member with old | new
      · exact loadedPlain id old
      · exact plain_identifierSet given id new
    · trivial

theorem guarded_hydrateIfAbsent {snapshot : DurableSnapshot}
    (given : ∀ id ∈ snapshot.knowledgeBaseIds, PlainId id) :
    store.Guarded conversationId [] false (store.hydrateIfAbsent conversationId snapshot) := by
  rw [RedisStore.hydrateIfAbsent]
  split
  · trivial
  · apply guarded_loading
    intro loaded _
    cases loaded with
    | some state => trivial
    | none =>
        intro created updated
        dsimp only
        rw [Program.bind_assoc]
        refine guarded_saveState ?_ _
        exact plain_identifierSet given

theorem guarded_replaceFromDurable {snapshot : DurableSnapshot}
    (given : ∀ id ∈ snapshot.knowledgeBaseIds, PlainId id) :
    store.Guarded conversationId [] false
      (store.replaceFromDurable conversationId snapshot) := by
  rw [RedisStore.replaceFromDurable]
  split
  · trivial
  · apply guarded_loading
    intro existing _
    split
    · trivial
    · intro created updated
      dsimp only
      rw [Program.bind_assoc]
      refine guarded_saveState ?_ _
      exact plain_identifierSet given

theorem guarded_durableStateIsCurrent {assistantSequence : Int} :
    store.Guarded conversationId [] false
      (store.durableStateIsCurrent conversationId assistantSequence) := by
  rw [RedisStore.durableStateIsCurrent]
  split
  · trivial
  · exact guarded_loading fun _ _ => trivial

theorem guarded_applySummary {job : ConversationSummaryJob} {summary : String} :
    store.Guarded job.conversationId [] false (store.applySummary job summary) := by
  apply guarded_loading
  intro loaded plain
  cases loaded with
  | none => trivial
  | some state =>
      dsimp only
      split
      · trivial
      · intro now
        dsimp only
        rw [Program.bind_assoc]
        refine guarded_saveState ?_ _
        intro id member
        exact plain state rfl id member

theorem guarded_clearIfVersion {version : Option Int} :
    store.Guarded conversationId [] false (store.clearIfVersion conversationId version) := by
  rw [RedisStore.clearIfVersion.eq_def]
  cases version with
  | none => trivial
  | some version =>
    dsimp only
    split
    · trivial
    · apply guarded_loading
      intro loaded plain
      cases loaded with
      | none => trivial
      | some state =>
          dsimp only
          split
          · trivial
          · refine ⟨rfl, .inl ⟨rfl, fun count => ?_⟩⟩
            dsimp only
            split
            · trivial
            · rw [Program.bind_assoc]
              exact guarded_removeMemberships (plain state rfl) trivial

end

/-- A method that takes a lock is guarded by it. -/
theorem guarded_method {store : RedisStore} {method : Method} {conversationId : String}
    (locks : method.locks = some conversationId)
    (given : ∀ id ∈ method.givenIds, PlainId id) :
    store.Guarded conversationId [] false (store.method method) := by
  cases method with
  | clear other => cases locks
  | knowledgeBaseIds other => cases locks
  | snapshot other =>
      cases locks
      rw [RedisStore.method]
      exact guarded_read
  | renderForPrompt other maxChars =>
      cases locks
      rw [RedisStore.method]
      exact guarded_read
  | appendTurn other arguments =>
      cases locks
      rw [RedisStore.method]
      exact guarded_appendTurn given
  | hydrateIfAbsent other snapshot =>
      cases locks
      rw [RedisStore.method]
      exact guarded_hydrateIfAbsent given
  | replaceFromDurable other snapshot =>
      cases locks
      rw [RedisStore.method]
      exact guarded_replaceFromDurable given
  | durableStateIsCurrent other assistantSequence =>
      cases locks
      rw [RedisStore.method]
      exact guarded_durableStateIsCurrent
  | applySummary job summary =>
      cases locks
      rw [RedisStore.method]
      exact guarded_applySummary
  | clearIfVersion other version =>
      cases locks
      rw [RedisStore.method]
      exact guarded_clearIfVersion

/-! ## Calls without a lock -/

section

variable {store : RedisStore} {conversationId : String} {α : Type}

/-- A command that reads, or deletes keys of one conversation. -/
def RedisStore.Removing (store : RedisStore) (conversationId : String) : Command Stored → Prop
  | .setex _ _ => False
  | .delete keys => ∀ key ∈ keys, key = store.stateKey conversationId ∨
      ∃ id, key = store.membershipKey conversationId id
  | _ => True

theorem clearing_of_removing {command : Command Stored}
    (removing : store.Removing conversationId command) : Clearing command := by
  cases command with
  | setex key value => cases removing
  | _ => trivial

theorem spares_of_removing {key : String} (other : key ≠ store.stateKey conversationId)
    (unmarked : ∀ id, key ≠ store.membershipKey conversationId id) {command : Command Stored}
    (removing : store.Removing conversationId command) : Spares key command := by
  cases command with
  | setex key value => cases removing
  | delete keys =>
      intro listed
      rcases removing key listed with same | ⟨id, same⟩
      · exact other same
      · exact unmarked id same
  | _ => trivial

theorem removing_state {continuation : Nat → Commands α}
    (rest : ∀ count, (continuation count).Makes (store.Removing conversationId)) :
    (.call (.delete [store.stateKey conversationId]) continuation : Commands α).Makes
      (store.Removing conversationId) :=
  ⟨fun _ listed => .inl (List.mem_singleton.mp listed), rest⟩

theorem removing_removeMemberships (ids : Finset String) :
    (store.removeMemberships conversationId ids).Makes (store.Removing conversationId) := by
  rw [RedisStore.removeMemberships]
  split
  · trivial
  · refine ⟨fun key listed => .inr ?_, fun _ => trivial⟩
    rcases List.mem_map.mp listed with ⟨id, -, same⟩
    exact ⟨id, same.symm⟩

theorem removing_loadState :
    (store.loadState conversationId).Makes (store.Removing conversationId) := by
  refine ⟨trivial, fun response => ?_⟩
  dsimp only
  split
  · trivial
  · trivial
  · refine ⟨trivial, fun now => ?_⟩
    dsimp only
    split
    · exact removing_state fun count => Program.Always.bind (removing_removeMemberships _)
        fun _ => trivial
    · trivial

theorem removing_loading {continuation : Option ConversationState → Commands α}
    (rest : ∀ loaded, (continuation loaded).Makes (store.Removing conversationId)) :
    (store.loading conversationId continuation).Makes (store.Removing conversationId) := by
  apply Program.Always.bind removing_loadState
  intro loaded
  cases loaded with
  | broken => trivial
  | absent => exact Program.Always.bind (rest none) fun _ => trivial
  | found state => exact Program.Always.bind (rest (some state)) fun _ => trivial

theorem removing_clear : (store.clear conversationId).Makes (store.Removing conversationId) := by
  rw [RedisStore.clear]
  split
  · trivial
  · apply removing_loading
    intro loaded
    apply removing_state
    intro count
    cases loaded with
    | none => trivial
    | some state => exact Program.Always.bind (removing_removeMemberships _) fun _ => trivial

theorem clearing_clear : (store.clear conversationId).Makes Clearing :=
  removing_clear.mono fun _ _ removing => clearing_of_removing removing

theorem clearing_clearEach (conversationIds : List String) (count : Nat) :
    (store.clearEach conversationIds count).Makes Clearing := by
  induction conversationIds generalizing count with
  | nil => trivial
  | cons conversationId rest induction =>
      apply Program.Always.bind clearing_clear
      intro deleted
      cases deleted with
      | none => trivial
      | some deleted => exact induction _

theorem clearing_clearByPrefix (start : String) :
    (store.clearByPrefix start).Makes Clearing := by
  rw [RedisStore.clearByPrefix]
  split
  · trivial
  · apply Program.Always.bind (clearing_scanIter _ _)
    intro keys
    apply Program.Always.bind (clearing_clearEach _ _)
    intro count
    cases count with
    | none => trivial
    | some count =>
        apply Program.Always.bind (clearing_scanDelete _ _ _)
        intro _
        apply Program.Always.bind (clearing_scanIter _ _)
        intro keys
        split
        · trivial
        · exact ⟨trivial, fun _ => trivial⟩

theorem clearing_clearByKnowledgeBase (workspaceId knowledgeBaseId : String) :
    (store.clearByKnowledgeBase workspaceId knowledgeBaseId).Makes Clearing := by
  apply Program.Always.bind (clearing_scanIter _ _)
  intro markers
  apply Program.Always.bind (clearing_scanIter _ _)
  intro keys
  apply Program.Always.bind (clearing_clearEach _ _)
  intro deleted
  cases deleted with
  | none => trivial
  | some deleted =>
      exact Program.Always.bind (clearing_scanDelete _ _ _) fun _ => trivial

/-- A call that takes no lock stores nothing. -/
theorem clearing_program {call : RedisCall} (unlocked : call.locks = none) :
    (store.program call).Makes Clearing := by
  cases call with
  | clearByPrefix start => exact clearing_clearByPrefix start
  | clearByKnowledgeBase workspaceId knowledgeBaseId =>
      exact clearing_clearByKnowledgeBase workspaceId knowledgeBaseId
  | on method =>
      cases method with
      | clear conversationId => exact clearing_clear
      | knowledgeBaseIds conversationId =>
          change (store.knowledgeBaseIds conversationId).Makes Clearing
          rw [RedisStore.knowledgeBaseIds]
          split
          · trivial
          · apply Program.Always.mono fun _ _ removing => clearing_of_removing removing
            exact removing_loading fun _ => trivial
      | _ => cases unlocked

end

/-! ## Fenced runs -/

/-- The workers after some events, started on what is stored. -/
abbrev RedisStore.after (store : RedisStore) (space : Space Stored)
    (events : List (Event Draw RedisCall)) : Machine store.workers :=
  run Machine.next (.initial store.workers space) events

/-- A running call has set the marker for a state it has not stored yet. -/
def Publishing {store : RedisStore} (machine : Machine store.workers) (key : String) : Prop :=
  ∃ task ∈ machine.tasks, task.running = true ∧
    ∃ step ∈ task.trail, step.request = .setex key .mark

/-- Nobody needs the key as a marker. -/
def Spare {store : RedisStore} (machine : Machine store.workers) (key : String) : Prop :=
  ¬ store.Needs machine.state key ∧ ¬ Publishing machine key

/-- The identifiers are plain, and whenever a key expires, or a call without a lock
deletes it, nobody needs it as a marker. -/
structure Fenced (store : RedisStore) (space : Space Stored)
    (events : List (Event Draw RedisCall)) : Prop where
  plain : ∀ call, Event.start call ∈ events → call.Plain
  expiries : ∀ past index draw, past ++ [.step index draw] <+: events →
    ∀ key ∈ draw.expired, Spare (store.after space past) key
  deletions : ∀ past index draw, past ++ [.step index draw] <+: events →
    ∀ task, (store.after space past).tasks[index]? = some task → task.call.locks = none →
      ∀ keys next, task.remaining = .call (.delete keys) next →
        ∀ key ∈ keys, Spare (store.after space past) key

/-- A marker the call has set on the way to saving its state. -/
structure RedisStore.Published (store : RedisStore) (space : Space Stored)
    (task : Task store.workers) (conversationId key : String) : Prop where
  present : (space.get? key).isSome
  own : ∃ id, PlainId id ∧ key = store.membershipKey conversationId id
  taken : ∃ step ∈ task.trail, step.request = .setex key .mark

/-- A running call that holds a lock is guarded from where it has come to. -/
def RedisStore.Holds (store : RedisStore) (space : Space Stored) (task : Task store.workers) :
    Prop :=
  ∀ conversationId, task.call.locks = some conversationId → task.running = true →
    ∃ published gone, store.Guarded conversationId published gone task.remaining ∧
      (∀ key ∈ published, store.Published space task conversationId key) ∧
      (gone = true → space.get? (store.stateKey conversationId) = none)

section

variable {store : RedisStore} {before after : Space Stored}

theorem RedisStore.Needs.shrinks {key : String} (shrinks : Shrinks before after)
    (needs : store.Needs after key) : store.Needs before key := by
  rcases needs with ⟨conversationId, state, stored, id, member, rfl⟩
  exact ⟨conversationId, state, shrinks _ _ stored, id, member, rfl⟩

theorem RedisStore.Needs.plain (marked : store.Marked before) {conversationId : String}
    {state : ConversationState}
    (stored : before.get? (store.stateKey conversationId) = some (.state state)) :
    state.Plain := by
  have proper := marked.proper _ _ stored
  generalize store.stateKey conversationId = key at proper
  cases proper with
  | state _ _ conversation plain => exact plain

/-- Removing keys nobody needs leaves what is stored marked. -/
theorem RedisStore.Marked.without (marked : store.Marked before) {keys : List String}
    (spare : ∀ key ∈ keys, ¬ store.Needs before key) : store.Marked (before.without keys) where
  proper key value found := marked.proper key value (get?_of_without found).1
  complete key needs := by
    have needed := RedisStore.Needs.shrinks (.without before keys) needs
    rw [get?_without, if_neg fun listed => spare key listed needed]
    exact marked.complete key needed

theorem RedisStore.Marked.publish (marked : store.Marked before) {conversationId id : String}
    (conversation : PlainConversation conversationId) (plain : PlainId id) :
    store.Marked (before.set (store.membershipKey conversationId id) .mark) where
  proper key value found := by
    rw [Dictionary.get?_set] at found
    split at found
    · rename_i same
      cases found
      rw [same]
      exact .mark conversationId id conversation plain
    · exact marked.proper key value found
  complete key needs := by
    rcases needs with ⟨other, state, stored, base, member, rfl⟩
    rw [Dictionary.get?_set] at stored ⊢
    split at stored
    · cases stored
    · split
      · rfl
      · exact marked.complete _ ⟨other, state, stored, base, member, rfl⟩

theorem RedisStore.Marked.save (marked : store.Marked before) {conversationId : String}
    {state : ConversationState} (conversation : PlainConversation conversationId)
    (plain : state.Plain)
    (published : ∀ id ∈ state.knowledgeBaseIds,
      (before.get? (store.membershipKey conversationId id)).isSome) :
    store.Marked (before.set (store.stateKey conversationId) (.state state)) where
  proper key value found := by
    rw [Dictionary.get?_set] at found
    split at found
    · rename_i same
      cases found
      rw [same]
      exact .state conversationId state conversation plain
    · exact marked.proper key value found
  complete key needs := by
    rcases needs with ⟨other, stored, found, id, member, rfl⟩
    have present : (before.get? (store.membershipKey other id)).isSome := by
      rw [Dictionary.get?_set] at found
      split at found
      · rename_i same
        cases found
        rw [stateKey_injective same]
        exact published id member
      · exact marked.complete _ ⟨other, stored, found, id, member, rfl⟩
    rw [Dictionary.get?_set]
    split
    · rfl
    · exact present

theorem RedisStore.Holds.without {task : Task store.workers} (holds : store.Holds before task)
    {keys : List String}
    (spare : ∀ conversationId key, task.call.locks = some conversationId →
      task.running = true → store.Published before task conversationId key → key ∉ keys) :
    store.Holds (before.without keys) task := by
  intro conversationId locks runs
  rcases holds conversationId locks runs with ⟨published, gone, guarded, all, absent⟩
  refine ⟨published, gone, guarded, ?_, fun isGone => ?_⟩
  · intro key member
    have old := all key member
    refine ⟨?_, old.own, old.taken⟩
    rw [get?_without, if_neg (spare conversationId key locks runs old)]
    exact old.present
  · exact (Shrinks.without before keys).absent (absent isGone)

theorem RedisStore.Holds.set {task : Task store.workers} (holds : store.Holds before task) {key : String}
    {value : Stored}
    (other : ∀ conversationId, task.call.locks = some conversationId →
      task.running = true → key ≠ store.stateKey conversationId) :
    store.Holds (before.set key value) task := by
  intro conversationId locks runs
  rcases holds conversationId locks runs with ⟨published, gone, guarded, all, absent⟩
  refine ⟨published, gone, guarded, ?_, fun isGone => ?_⟩
  · intro marker member
    have old := all marker member
    refine ⟨?_, old.own, old.taken⟩
    rw [Dictionary.get?_set]
    split
    · rfl
    · exact old.present
  · rw [Dictionary.get?_set_of_ne (Ne.symm (other conversationId locks runs))]
    exact absent isGone

/-! ### What a locked call does -/

/-- The call after it has been answered, whatever the space was before. -/
theorem RedisStore.Holds.of_guarded {task : Task store.workers} {conversationId : String}
    (locks : task.call.locks = some conversationId) {published : List String} {gone : Bool}
    (guarded : store.Guarded conversationId published gone task.remaining)
    (all : ∀ key ∈ published, store.Published before task conversationId key)
    (absent : gone = true → before.get? (store.stateKey conversationId) = none) :
    store.Holds before task := by
  intro other otherLocks _
  rw [locks] at otherLocks
  cases otherLocks
  exact ⟨published, gone, guarded, all, absent⟩

/-- A command of a call that holds a lock keeps what is stored marked, what the call
has achieved, and what calls under other locks have. -/
structure Kept (store : RedisStore) (conversationId : String) (space after : Space Stored)
    (answered : Task store.workers) : Prop where
  marked : store.Marked after
  own : store.Holds after answered
  others : ∀ task : Task store.workers, store.Holds space task →
    (∀ other, task.call.locks = some other → task.running = true →
      PlainConversation other ∧ other ≠ conversationId) →
    store.Holds after task

theorem kept_of_guarded {now : ℚ} {draw : Draw} {space : Space Stored}
    (marked : store.Marked space) {task : Task store.workers} {conversationId : String}
    (locks : task.call.locks = some conversationId)
    (conversation : PlainConversation conversationId) {request : Command Stored}
    {next : request.Response → Commands task.call.Outcome} {published : List String} {gone : Bool}
    (guarded : store.Guarded conversationId published gone (.call request next))
    (all : ∀ key ∈ published, store.Published space task conversationId key)
    (absent : gone = true → space.get? (store.stateKey conversationId) = none) :
    Kept store conversationId space (serve store.server now request space).2
      ⟨task.call, task.trail ++ [⟨request, draw, before⟩],
        next (serve store.server now request space).1⟩ := by
  have carried : ∀ {later : Space Stored} {key : String} {step : Step (Command Stored) Draw (Space Stored)}
      {remaining : Commands task.call.Outcome},
      (later.get? key).isSome → store.Published space task conversationId key →
      store.Published later ⟨task.call, task.trail ++ [step], remaining⟩ conversationId key := by
    intro later key step remaining present old
    rcases old.taken with ⟨taken, member, set⟩
    exact ⟨present, old.own, taken, List.mem_append_left _ member, set⟩
  cases request with
  | get key =>
      refine ⟨marked, RedisStore.Holds.of_guarded locks (guarded _ ?_) ?_ absent, fun _ holds _ => holds⟩
      · intro state found
        have proper := marked.proper key _ found
        cases proper with
        | state _ _ conversation plain => exact plain
      · exact fun key member => carried (all key member).present (all key member)
  | scan cursor pattern =>
      refine ⟨marked, RedisStore.Holds.of_guarded locks (guarded _) ?_ absent, fun _ holds _ => holds⟩
      exact fun key member => carried (all key member).present (all key member)
  | clock =>
      refine ⟨marked, RedisStore.Holds.of_guarded locks (guarded _) ?_ absent, fun _ holds _ => holds⟩
      exact fun key member => carried (all key member).present (all key member)
  | setex key value =>
      cases value with
      | mark =>
          rcases guarded with ⟨⟨id, plain, rfl⟩, rest⟩
          refine ⟨marked.publish conversation plain, RedisStore.Holds.of_guarded locks rest ?_ ?_, ?_⟩
          · intro key member
            rcases List.mem_cons.mp member with rfl | old
            · refine ⟨?_, ⟨id, plain, rfl⟩, _, List.mem_append_right _ List.mem_cons_self, rfl⟩
              change (Dictionary.get? (Dictionary.set _ _ _) _).isSome = true
              rw [Dictionary.get?_set_self]
              rfl
            · apply carried ?_ (all key old)
              change (Dictionary.get? (Dictionary.set _ _ _) _).isSome = true
              rw [Dictionary.get?_set]
              split
              · rfl
              · exact (all key old).present
          · intro isGone
            change Dictionary.get? (Dictionary.set _ _ _) _ = none
            rw [Dictionary.get?_set_of_ne (Ne.symm (membershipKey_ne_stateKey conversation))]
            exact absent isGone
          · intro other holds apart
            exact holds.set fun otherId otherLocks runs =>
              membershipKey_ne_stateKey (apart otherId otherLocks runs).1
      | state state =>
          rcases guarded with ⟨rfl, plain, listed, result, finished⟩
          refine ⟨marked.save conversation plain fun id member => (all _ (listed id member)).present,
            ?_, ?_⟩
          · intro other _ runs
            change Task.running ⟨task.call, _, next ()⟩ = true at runs
            rw [Task.running, finished] at runs
            cases runs
          · intro other holds apart
            exact holds.set fun otherId otherLocks runs same =>
              (apart otherId otherLocks runs).2 (stateKey_injective same).symm
  | delete keys =>
      rcases guarded with ⟨rfl, ⟨rfl, rest⟩ | ⟨isGone, own, rest⟩⟩
      · refine ⟨marked.without ?_, RedisStore.Holds.of_guarded locks (rest _) (by simp) ?_, ?_⟩
        · rintro key listed ⟨other, state, stored, id, member, same⟩
          rw [List.mem_singleton.mp listed] at same
          exact membershipKey_ne_stateKey conversation same.symm
        · intro _
          change (Space.without _ _).get? _ = none
          rw [get?_without, if_pos List.mem_cons_self]
        · intro other holds apart
          apply holds.without
          intro otherId key otherLocks runs marker listed
          rcases marker.own with ⟨id, plain, same⟩
          rw [List.mem_singleton.mp listed] at same
          exact membershipKey_ne_stateKey conversation same.symm
      · refine ⟨marked.without ?_, RedisStore.Holds.of_guarded locks (rest _) (by simp) ?_, ?_⟩
        · rintro key listed ⟨other, state, stored, id, member, same⟩
          rcases own key listed with ⟨ownId, plain, rfl⟩
          rcases membershipKey_injective plain (RedisStore.Needs.plain marked stored id member) same with
            ⟨rfl, _⟩
          rw [absent isGone] at stored
          cases stored
        · intro _
          exact (Shrinks.without space keys).absent (absent isGone)
        · intro other holds apart
          apply holds.without
          intro otherId key otherLocks runs marker listed
          rcases own key listed with ⟨ownId, plain, rfl⟩
          rcases marker.own with ⟨id, otherPlain, same⟩
          exact (apart otherId otherLocks runs).2
            (membershipKey_injective plain otherPlain same).1.symm

end

/-! ### Runs -/

/-- What holds in every state of a fenced run. -/
structure RedisStore.Held (store : RedisStore) (machine : Machine store.workers) : Prop where
  marked : store.Marked machine.state
  plain : ∀ task ∈ machine.tasks, task.call.Plain
  holds : ∀ task ∈ machine.tasks, store.Holds machine.state task

section

variable {store : RedisStore} {space : Space Stored} {events : List (Event Draw RedisCall)}

theorem plain_of_locks {call : RedisCall} (plain : call.Plain) {conversationId : String}
    (locks : call.locks = some conversationId) : PlainConversation conversationId := by
  cases call with
  | on method => exact (plain conversationId locks).1
  | clearByPrefix start => cases locks
  | clearByKnowledgeBase workspaceId knowledgeBaseId => cases locks

theorem holds_begun {call : RedisCall} (plain : call.Plain) (space : Space Stored) :
    store.Holds space (.begun store.workers call) := by
  intro conversationId locks _
  cases call with
  | on method =>
      refine ⟨[], false, guarded_method locks (plain conversationId locks).2, by simp, ?_⟩
      intro impossible
      cases impossible
  | clearByPrefix start => cases locks
  | clearByKnowledgeBase workspaceId knowledgeBaseId => cases locks

theorem publishing_of_published {machine : Machine store.workers} {task : Task store.workers}
    (member : task ∈ machine.tasks) (runs : task.running = true) {conversationId key : String}
    (published : store.Published space task conversationId key) : Publishing machine key :=
  ⟨task, member, runs, published.taken⟩

theorem excludes_symmetric (left right : RedisCall) :
    store.workers.excludes left right = store.workers.excludes right left := by
  change (left.locks.isSome && left.locks == right.locks) =
    (right.locks.isSome && right.locks == left.locks)
  cases left.locks <;> cases right.locks <;> simp [Bool.beq_comm]

/-- Two running calls do not hold the lock of one conversation. -/
theorem locks_apart {machine : Machine store.workers} (compatible : machine.Compatible)
    {left right : Nat} {first second : Task store.workers} (different : left ≠ right)
    (leftFound : machine.tasks[left]? = some first) (rightFound : machine.tasks[right]? = some second)
    (leftRuns : first.running = true) (rightRuns : second.running = true)
    {leftId rightId : String} (leftLocks : first.call.locks = some leftId)
    (rightLocks : second.call.locks = some rightId) : leftId ≠ rightId := by
  rintro rfl
  have apart := compatible left right first second different leftFound rightFound leftRuns rightRuns
  change (first.call.locks.isSome && first.call.locks == second.call.locks) = false at apart
  rw [leftLocks, rightLocks] at apart
  simp at apart

/-- After the expiry of spare keys everything is as before. -/
theorem held_without {machine : Machine store.workers} (held : store.Held machine)
    {keys : List String} (spare : ∀ key ∈ keys, Spare machine key) :
    store.Marked (machine.state.without keys) ∧
      ∀ task ∈ machine.tasks, store.Holds (machine.state.without keys) task := by
  refine ⟨held.marked.without fun key listed => (spare key listed).1, ?_⟩
  intro task member
  apply (held.holds task member).without
  intro conversationId key _ runs published listed
  exact (spare key listed).2 (publishing_of_published member runs published)

/-- A command of a call without a lock leaves what is stored marked. -/
theorem marked_of_clearing {machine : Machine store.workers} (held : store.Held machine)
    {draw : Draw} (expired : ∀ key ∈ draw.expired, Spare machine key) {request : Command Stored}
    (clearing : Clearing request)
    (deleted : ∀ keys, request = .delete keys → ∀ key ∈ keys, Spare machine key) :
    store.Marked (store.workers.execute draw request machine.state).2 ∧
      ∀ task ∈ machine.tasks,
        store.Holds (store.workers.execute draw request machine.state).2 task := by
  have expiry := held_without held expired
  cases request with
  | setex key value => cases clearing
  | get key => exact expiry
  | scan cursor pattern => exact expiry
  | clock => exact expiry
  | delete keys =>
      have spare := deleted keys rfl
      refine ⟨expiry.1.without fun key listed needs => ?_, ?_⟩
      · exact (spare key listed).1 (needs.shrinks (.without _ _))
      · intro task member
        apply (expiry.2 task member).without
        intro conversationId key _ runs published listed
        exact (spare key listed).2 (publishing_of_published member runs published)

/-- Every step of a fenced run keeps the markers. -/
theorem held_next (fenced : Fenced store space events) {past : List (Event Draw RedisCall)}
    {event : Event Draw RedisCall} (within : past ++ [event] <+: events)
    (held : store.Held (store.after space past)) :
    store.Held (Machine.next event (store.after space past)) := by
  have consistent : (store.after space past).Consistent := run_trails space past
  have compatible : (store.after space past).Compatible :=
    run_compatible excludes_symmetric space past
  generalize reached : Machine.next event (store.after space past) = after
  have moves := (store.after space past).moves event
  rw [reached] at moves
  cases moves with
  | idle => exact held
  | start call free =>
      have plain := fenced.plain call (within.subset (by simp))
      refine ⟨held.marked, ?_, ?_⟩
      · intro task member
        rcases List.mem_append.mp member with old | new
        · exact held.plain task old
        · rw [List.mem_singleton.mp new]
          exact plain
      · intro task member
        rcases List.mem_append.mp member with old | new
        · exact held.holds task old
        · rw [List.mem_singleton.mp new]
          exact holds_begun plain _
  | step index draw task request next found asks =>
      have member := List.mem_of_getElem? found
      have runs := Task.running_of_call asks
      have expired := fenced.expiries past index draw within
      have plain : ∀ other ∈ (store.after space past).tasks.set index
          (task.answered draw (store.after space past).state request next),
          other.call.Plain := by
        intro other otherMember
        rcases Machine.mem_set otherMember with old | rfl
        · exact held.plain other old
        · exact held.plain task member
      cases locks : task.call.locks with
      | none =>
          have clearing : Clearing request := consistent.allows member asks (clearing_program locks)
          have kept := marked_of_clearing held expired clearing fun keys same =>
            fenced.deletions past index draw within task found locks keys (same ▸ next) (by
              subst same
              exact asks)
          refine ⟨kept.1, plain, ?_⟩
          intro other otherMember
          rcases Machine.mem_set otherMember with old | rfl
          · exact kept.2 other old
          · intro conversationId otherLocks
            change task.call.locks = _ at otherLocks
            rw [locks] at otherLocks
            cases otherLocks
      | some conversationId =>
          have expiry := held_without held expired
          have conversation := plain_of_locks (held.plain task member) locks
          rcases expiry.2 task member conversationId locks runs with
            ⟨published, gone, guarded, all, absent⟩
          rw [asks] at guarded
          have kept := @kept_of_guarded store (store.after space past).state draw.now draw _
            expiry.1 task conversationId locks conversation request next published gone guarded
            all absent
          refine ⟨kept.marked, plain, ?_⟩
          intro other otherMember
          rcases List.mem_iff_getElem?.mp otherMember with ⟨position, otherFound⟩
          rcases Machine.getElem?_step otherFound with ⟨_, rfl⟩ | ⟨different, old⟩
          · exact kept.own
          · have oldMember := List.mem_of_getElem? old
            apply kept.others other (expiry.2 other oldMember)
            intro otherId otherLocks otherRuns
            refine ⟨plain_of_locks (held.plain other oldMember) otherLocks, ?_⟩
            exact locks_apart compatible different old found otherRuns runs otherLocks locks

theorem held_after (fenced : Fenced store space events) (marked : store.Marked space)
    {past : List (Event Draw RedisCall)} (within : past <+: events) :
    store.Held (store.after space past) := by
  induction past using List.reverseRecOn with
  | nil =>
      refine ⟨marked, ?_, ?_⟩
      · intro task member
        cases member
      · intro task member
        cases member
  | append_singleton past event induction =>
      rw [RedisStore.after, run_concat]
      exact held_next fenced within (induction ((List.prefix_append past [event]).trans within))

end

/-! ## Clearing by knowledge base -/

section

variable {store : RedisStore} {space : Space Stored}

/-- The server answers one client, and no key expires. -/
abbrev RedisStore.alone (store : RedisStore) (now : Timestamp) {α : Type}
    (program : Commands α) (space : Space Stored) : α × Space Stored :=
  program.perform (execute store.server ⟨now, []⟩) space

theorem alone_bind {α β : Type} (now : Timestamp) (program : Commands α)
    (continuation : α → Commands β) (space : Space Stored) :
    store.alone now (program.bind continuation) space =
      store.alone now (continuation (store.alone now program space).1)
        (store.alone now program space).2 :=
  Program.perform_bind program continuation space

theorem alone_shrinks {α : Type} (now : Timestamp) {program : Commands α}
    (clears : program.Makes Clearing) (space : Space Stored) :
    Shrinks space (store.alone now program space).2 :=
  shrinks_perform store.server now space clears

theorem alone_scanIter (now : Timestamp) (pattern : String) (space : Space Stored) :
    (store.alone now (scanIter store.server pattern) space).2 = space ∧
      ∀ key, key ∈ (store.alone now (scanIter store.server pattern) space).1 ↔
        key ∈ space.keys ∧ store.server.selects pattern key :=
  perform_scanIter store.server now space pattern

theorem alone_loadState (now : Timestamp) {conversationId : String}
    (unmarked : space.get? (store.stateKey conversationId) ≠ some .mark) :
    (store.alone now (store.loadState conversationId) space).1 ≠ .broken := by
  rw [RedisStore.loadState, RedisStore.alone, Program.perform_call]
  have answer : (execute store.server ⟨now, []⟩ (.get (store.stateKey conversationId)) space).1 =
      space.get? (store.stateKey conversationId) := by
    change (space.without []).get? _ = _
    rw [without_nil]
  rw [answer]
  cases found : space.get? (store.stateKey conversationId) with
  | none => exact fun impossible => nomatch impossible
  | some value =>
      cases value with
      | mark => exact absurd found unmarked
      | state stored =>
          rw [Program.perform_call]
          dsimp only
          split
          · rw [Program.perform_call, Program.perform_bind]
            exact fun impossible => nomatch impossible
          · exact fun impossible => nomatch impossible

/-- A clear nobody interrupts removes the state. -/
theorem alone_clear (now : Timestamp) {conversationId : String} (named : conversationId ≠ "")
    (unmarked : space.get? (store.stateKey conversationId) ≠ some .mark) :
    (∃ deleted, (store.alone now (store.clear conversationId) space).1 = some deleted) ∧
      (store.alone now (store.clear conversationId) space).2.get?
        (store.stateKey conversationId) = none := by
  have removed : ∀ (later : Space Stored) {α : Type} {rest : Nat → Commands α},
      (∀ count, (rest count).Makes Clearing) →
      (store.alone now (.call (.delete [store.stateKey conversationId]) rest) later).2.get?
        (store.stateKey conversationId) = none := by
    intro later α rest clears
    rw [RedisStore.alone, Program.perform_call]
    apply (alone_shrinks now (clears _) _).absent
    change ((later.without []).without _).get? _ = none
    rw [get?_without, if_pos List.mem_cons_self]
  rw [RedisStore.clear, if_neg named, RedisStore.loading, alone_bind]
  have loaded := alone_loadState now unmarked
  generalize (store.alone now (store.loadState conversationId) space).2 = later
  cases outcome : (store.alone now (store.loadState conversationId) space).1 with
  | broken => exact absurd outcome loaded
  | absent =>
      exact ⟨⟨_, rfl⟩, removed later fun count => trivial⟩
  | found state =>
      refine ⟨?_, removed later fun count => ?_⟩
      · rw [alone_bind]
        exact ⟨_, rfl⟩
      · apply Program.Always.mono fun _ _ removing => clearing_of_removing removing
        exact Program.Always.bind
          (Program.Always.bind (removing_removeMemberships _) fun _ => trivial) fun _ => trivial

theorem alone_clearEach (now : Timestamp) {conversationIds : List String}
    (named : ∀ id ∈ conversationIds, id ≠ "")
    (unmarked : ∀ id ∈ conversationIds, space.get? (store.stateKey id) ≠ some .mark)
    (count : Nat) :
    (∃ deleted, (store.alone now (store.clearEach conversationIds count) space).1 =
        some deleted) ∧
      ∀ id ∈ conversationIds,
        (store.alone now (store.clearEach conversationIds count) space).2.get?
          (store.stateKey id) = none := by
  induction conversationIds generalizing space count with
  | nil => exact ⟨⟨count, rfl⟩, by simp⟩
  | cons conversationId rest induction =>
      have first := alone_clear now (named conversationId List.mem_cons_self)
        (unmarked conversationId List.mem_cons_self)
      have shrinks : Shrinks space (store.alone now (store.clear conversationId) space).2 :=
        alone_shrinks now clearing_clear space
      rcases first with ⟨⟨deleted, cleared⟩, gone⟩
      rw [RedisStore.clearEach, alone_bind, cleared]
      dsimp only
      generalize (store.alone now (store.clear conversationId) space).2 = later at gone shrinks
      generalize (if deleted = true then count + 1 else count) = count
      have others := @induction later (fun id member => named id (by simp [member]))
        (fun id member marked => unmarked id (by simp [member]) (shrinks _ _ marked)) count
      refine ⟨others.1, ?_⟩
      intro id member
      rcases List.mem_cons.mp member with rfl | member
      · exact (alone_shrinks now (clearing_clearEach rest count) later).absent gone
      · exact others.2 id member

theorem literal_append {left right : String} (leftLiteral : Literal left)
    (rightLiteral : Literal right) : Literal (left ++ right) := by
  intro character member
  rw [String.toList_append, List.mem_append] at member
  rcases member with inLeft | inRight
  · exact leftLiteral character inLeft
  · exact rightLiteral character inRight

theorem literal_membershipPrefix (literal : Literal store.keyPrefix)
    {workspaceId knowledgeBaseId : String} (workspace : PlainId workspaceId)
    (base : PlainId knowledgeBaseId) :
    Literal (store.membershipPrefix workspaceId knowledgeBaseId) := by
  rw [RedisStore.membershipPrefix, RedisStore.membershipWorkspacePrefix]
  exact literal_append (literal_append (literal_append (literal_append
    (literal_append literal (by decide)) workspace.literal) (by decide)) base.literal) (by decide)

theorem literal_stateKey (literal : Literal store.keyPrefix) {start : String}
    (startLiteral : Literal start) : Literal (store.stateKey start) := by
  rw [RedisStore.stateKey]
  exact literal_append (literal_append literal (by decide)) startLiteral

theorem dropStart_of_append {start rest key : String}
    (split : key.toList = start.toList ++ rest.toList) : RedisStore.dropStart start key = rest := by
  rw [RedisStore.dropStart, split, List.drop_left, String.ofList_toList]

/-- What follows the marker prefix of a workspace and a knowledge base in a stored key is
a plain conversation. -/
theorem plain_of_membershipPrefix {key workspaceId knowledgeBaseId : String} {value : Stored}
    (proper : store.Proper key value) (workspace : PlainId workspaceId)
    (base : PlainId knowledgeBaseId)
    (starts : (store.membershipPrefix workspaceId knowledgeBaseId).toList <+: key.toList) :
    PlainConversation (RedisStore.dropStart
      (store.membershipPrefix workspaceId knowledgeBaseId) key) := by
  rcases starts with ⟨rest, split⟩
  rw [toList_membershipPrefix] at split
  cases proper with
  | state conversationId state conversation plain =>
      rw [toList_stateKey, List.append_assoc, List.cons_append, List.append_assoc] at split
      have tails := List.append_cancel_left split
      exfalso
      apply conversation.unmarked
      rw [workspaceOf, ← (List.cons.inj tails).2, List.cons_append, partition_append (by decide)]
      rfl
  | mark conversationId id conversation plain =>
      rw [toList_membershipKey, List.append_assoc, List.cons_append, List.append_assoc,
        List.cons_append, List.append_assoc, List.cons_append, List.append_assoc] at split
      have tails := List.append_cancel_left
        (List.cons.inj (List.append_cancel_left split)).2
      rcases eq_of_append_colon workspace.colon (workspaceOf_colon conversationId)
        (List.cons.inj tails).2 with ⟨sameWorkspace, later⟩
      rcases eq_of_append_colon base.colon plain.colon later with ⟨sameBase, same⟩
      have dropped : RedisStore.dropStart (store.membershipPrefix workspaceId knowledgeBaseId)
          (store.membershipKey conversationId id) = conversationId := by
        apply dropStart_of_append
        rw [toList_membershipKey, toList_membershipPrefix, ← sameWorkspace, ← sameBase]
        simp
      rw [dropped]
      exact conversation

/-- What follows the key prefix in a stored key that starts like a state of a workspace
is a plain conversation. -/
theorem plain_of_stateKey {key workspaceId rest : String} {value : Stored}
    (proper : store.Proper key value) (workspace : PlainId workspaceId)
    (unmarked : workspaceId ≠ "kb-membership")
    (starts : (store.stateKey (workspaceId ++ ":" ++ rest)).toList <+: key.toList) :
    PlainConversation (RedisStore.dropStart (store.stateKey "") key) := by
  cases proper with
  | state conversationId state conversation plain =>
      have dropped : RedisStore.dropStart (store.stateKey "") (store.stateKey conversationId) =
          conversationId := by
        apply dropStart_of_append
        simp [toList_stateKey]
      rw [dropped]
      exact conversation
  | mark conversationId id conversation plain =>
      rcases starts with ⟨later, split⟩
      rw [toList_stateKey, toList_membershipKey, List.append_assoc, List.cons_append] at split
      have tails := (List.cons.inj (List.append_cancel_left split)).2
      have text : (workspaceId ++ ":" ++ rest).toList ++ later =
          workspaceId.toList ++ ':' :: (rest.toList ++ later) := by
        simp
      rw [text] at tails
      exfalso
      apply unmarked
      exact String.toList_inj.mp (eq_of_append_colon workspace.colon (by decide) tails).1

theorem plain_of_stored (marked : store.Marked space) {conversationId : String}
    {state : ConversationState}
    (stored : space.get? (store.stateKey conversationId) = some (.state state)) :
    PlainConversation conversationId := by
  have proper := marked.proper _ _ stored
  generalize named : store.stateKey conversationId = key at proper
  cases proper with
  | state other _ conversation plain =>
      rw [stateKey_injective named]
      exact conversation

theorem unmarked_of_plain (marked : store.Marked space) {conversationId : String}
    (plain : PlainConversation conversationId) :
    space.get? (store.stateKey conversationId) ≠ some .mark := by
  intro found
  have proper := marked.proper _ _ found
  generalize named : store.stateKey conversationId = key at proper
  cases proper with
  | mark other id conversation base => exact membershipKey_ne_stateKey plain named.symm

/-- The conversations a clear by knowledge base finds are plain. -/
theorem plain_of_found (marked : store.Marked space) {workspaceId knowledgeBaseId : String}
    (workspace : PlainId workspaceId) (unmarked : workspaceId ≠ "kb-membership")
    (base : PlainId knowledgeBaseId) (literal : Literal store.keyPrefix)
    (selects : store.server.SelectsStart) {markers keys : List String}
    (markersFound : ∀ key, key ∈ markers ↔ key ∈ space.keys ∧
      store.server.selects (store.membershipPrefix workspaceId knowledgeBaseId ++ "*") key)
    (keysFound : ∀ key, key ∈ keys ↔ key ∈ space.keys ∧
      store.server.selects
        (store.stateKey (workspaceId ++ ":kb:" ++ knowledgeBaseId ++ ":") ++ "*") key) :
    ∀ id ∈ markers.map (RedisStore.dropStart
        (store.membershipPrefix workspaceId knowledgeBaseId)) ++
      keys.map (RedisStore.dropStart (store.stateKey "")), PlainConversation id := by
  intro id member
  rcases List.mem_append.mp member with fromMarker | fromState
  · rcases List.mem_map.mp fromMarker with ⟨key, listed, rfl⟩
    rcases (markersFound key).mp listed with ⟨present, selected⟩
    rcases Dictionary.mem_keys.mp present with ⟨value, stored⟩
    exact plain_of_membershipPrefix (marked.proper key value stored) workspace base
      ((selects _ _ (literal_membershipPrefix literal workspace base)).mp selected)
  · rcases List.mem_map.mp fromState with ⟨key, listed, rfl⟩
    rcases (keysFound key).mp listed with ⟨present, selected⟩
    rcases Dictionary.mem_keys.mp present with ⟨value, stored⟩
    have start : workspaceId ++ ":kb:" ++ knowledgeBaseId ++ ":" =
        workspaceId ++ ":" ++ ("kb:" ++ knowledgeBaseId ++ ":") := by
      apply String.toList_inj.mp
      simp
    have startLiteral : Literal (workspaceId ++ ":kb:" ++ knowledgeBaseId ++ ":") :=
      literal_append (literal_append (literal_append workspace.literal (by decide)) base.literal)
        (by decide)
    have selectedStart := (selects _ _ (literal_stateKey literal startLiteral)).mp selected
    rw [start] at selectedStart
    exact plain_of_stateKey (marked.proper key value stored) workspace unmarked selectedStart

/-- Clearing other conversations keeps a state. -/
theorem alone_clearEach_keeps (now : Timestamp) {conversationId : String}
    (conversation : PlainConversation conversationId) {conversationIds : List String}
    (unlisted : conversationId ∉ conversationIds) (count : Nat) (space : Space Stored) :
    (store.alone now (store.clearEach conversationIds count) space).2.get?
      (store.stateKey conversationId) = space.get? (store.stateKey conversationId) := by
  apply spares_perform
  induction conversationIds generalizing count with
  | nil => trivial
  | cons other rest induction =>
      rcases not_or.mp (mt List.mem_cons.mpr unlisted) with ⟨different, later⟩
      apply Program.Always.bind
      · apply Program.Always.mono fun _ _ removing => spares_of_removing
          (fun same => different (stateKey_injective same))
          (fun id => (membershipKey_ne_stateKey conversation).symm) removing
        exact removing_clear
      · intro deleted
        cases deleted with
        | none => trivial
        | some deleted => exact induction later _

/-- The conversations a clear by knowledge base finds by their markers. -/
theorem mem_markers (marked : store.Marked space) {workspaceId knowledgeBaseId : String}
    (workspace : PlainId workspaceId) (base : PlainId knowledgeBaseId)
    (literal : Literal store.keyPrefix) (selects : store.server.SelectsStart)
    {markers : List String}
    (markersFound : ∀ key, key ∈ markers ↔ key ∈ space.keys ∧
      store.server.selects (store.membershipPrefix workspaceId knowledgeBaseId ++ "*") key)
    (conversationId : String) :
    conversationId ∈ markers.map (RedisStore.dropStart
        (store.membershipPrefix workspaceId knowledgeBaseId)) ↔
      workspaceOf conversationId = workspaceId ∧
        (space.get? (store.membershipKey conversationId knowledgeBaseId)).isSome := by
  have prefixLiteral := literal_membershipPrefix literal workspace base
  constructor
  · intro member
    rcases List.mem_map.mp member with ⟨key, listed, dropped⟩
    rcases (markersFound key).mp listed with ⟨present, selected⟩
    rcases Dictionary.mem_keys.mp present with ⟨value, stored⟩
    have starts := (selects _ _ prefixLiteral).mp selected
    have proper := marked.proper key value stored
    rcases starts with ⟨rest, split⟩
    have joined : key.toList = (store.membershipPrefix workspaceId knowledgeBaseId).toList ++
        conversationId.toList := by
      rw [← dropped, RedisStore.dropStart, ← split, List.drop_left, String.toList_ofList]
    have text := joined
    rw [toList_membershipPrefix] at text
    simp only [List.append_assoc, List.cons_append, List.nil_append] at text
    cases proper with
    | state other state conversation plain =>
        rw [toList_stateKey] at text
        have tails := (List.cons.inj (List.append_cancel_left text)).2
        exfalso
        apply conversation.unmarked
        rw [workspaceOf, tails, partition_append (by decide)]
        rfl
    | mark other id conversation plain =>
        rw [toList_membershipKey] at text
        have tails := List.append_cancel_left (List.cons.inj (List.append_cancel_left text)).2
        rcases eq_of_append_colon (workspaceOf_colon other) workspace.colon
          (List.cons.inj tails).2 with ⟨sameWorkspace, later⟩
        rcases eq_of_append_colon plain.colon base.colon later with ⟨sameBase, same⟩
        rw [String.toList_inj] at sameWorkspace sameBase same
        subst sameBase same
        exact ⟨sameWorkspace, by rw [stored]; rfl⟩
  · rintro ⟨rfl, present⟩
    rcases Option.isSome_iff_exists.mp present with ⟨value, stored⟩
    refine List.mem_map.mpr ⟨store.membershipKey conversationId knowledgeBaseId,
      (markersFound _).mpr ⟨Dictionary.mem_keys.mpr ⟨value, stored⟩, ?_⟩, ?_⟩
    · apply (selects _ _ prefixLiteral).mpr
      rw [RedisStore.membershipKey, String.toList_append]
      exact List.prefix_append _ _
    · apply dropStart_of_append
      rw [RedisStore.membershipKey, String.toList_append]

/-- The stored conversations a clear by knowledge base finds by their names. -/
theorem mem_stateKeys {workspaceId knowledgeBaseId : String}
    (workspace : PlainId workspaceId) (base : PlainId knowledgeBaseId)
    (literal : Literal store.keyPrefix) (selects : store.server.SelectsStart)
    {keys : List String}
    (keysFound : ∀ key, key ∈ keys ↔ key ∈ space.keys ∧
      store.server.selects
        (store.stateKey (workspaceId ++ ":kb:" ++ knowledgeBaseId ++ ":") ++ "*") key)
    (conversationId : String) :
    conversationId ∈ keys.map (RedisStore.dropStart (store.stateKey "")) ↔
      startsWith (workspaceId ++ ":kb:" ++ knowledgeBaseId ++ ":") conversationId = true ∧
        (space.get? (store.stateKey conversationId)).isSome := by
  have startLiteral : Literal (workspaceId ++ ":kb:" ++ knowledgeBaseId ++ ":") :=
    literal_append (literal_append (literal_append workspace.literal (by decide)) base.literal)
      (by decide)
  have found : ∀ other, store.stateKey other ∈ keys ↔
      startsWith (workspaceId ++ ":kb:" ++ knowledgeBaseId ++ ":") other = true ∧
        (space.get? (store.stateKey other)).isSome := by
    intro other
    rw [keysFound, selects _ _ (literal_stateKey literal startLiteral), toList_stateKey,
      toList_stateKey, List.prefix_append_right_inj, List.cons_prefix_cons, startsWith,
      List.isPrefixOf_iff_prefix, Dictionary.mem_keys, Option.isSome_iff_exists, and_comm]
    simp
  have keyOf : ∀ other, RedisStore.dropStart (store.stateKey "") (store.stateKey other) =
      other := by
    intro other
    apply dropStart_of_append
    simp [toList_stateKey]
  rw [← found, List.mem_map]
  constructor
  · rintro ⟨key, listed, dropped⟩
    have starts := (selects _ _ (literal_stateKey literal startLiteral)).mp
      ((keysFound key).mp listed).2
    rcases starts with ⟨rest, split⟩
    have named : key = store.stateKey
        (workspaceId ++ ":kb:" ++ knowledgeBaseId ++ ":" ++ String.ofList rest) := by
      apply String.toList_injective
      rw [← split, toList_stateKey, toList_stateKey]
      simp
    rw [named, keyOf] at dropped
    rwa [← dropped, ← named]
  · intro listed
    exact ⟨store.stateKey conversationId, listed, keyOf conversationId⟩

/-- Clearing by a knowledge base removes the states named after it and those with a marker for
it, and no others. -/
theorem alone_clearByKnowledgeBase_get? (selects : store.server.SelectsStart)
    (literal : Literal store.keyPrefix) (marked : store.Marked space) (now : Timestamp)
    {workspaceId knowledgeBaseId : String} (workspace : PlainId workspaceId)
    (unmarked : workspaceId ≠ "kb-membership") (base : PlainId knowledgeBaseId)
    {conversationId : String} (conversation : PlainConversation conversationId) :
    (store.alone now (store.clearByKnowledgeBase workspaceId knowledgeBaseId) space).2.get?
      (store.stateKey conversationId) =
        if startsWith (workspaceId ++ ":kb:" ++ knowledgeBaseId ++ ":") conversationId = true ∨
            workspaceOf conversationId = workspaceId ∧
              (space.get? (store.membershipKey conversationId knowledgeBaseId)).isSome then none
        else space.get? (store.stateKey conversationId) := by
  rw [RedisStore.clearByKnowledgeBase, alone_bind]
  rcases @alone_scanIter store now (store.membershipPrefix workspaceId knowledgeBaseId ++ "*")
    space with ⟨same, markersFound⟩
  rw [same]
  revert markersFound
  generalize (store.alone now (scanIter store.server
    (store.membershipPrefix workspaceId knowledgeBaseId ++ "*")) space).1 = markers
  intro markersFound
  dsimp only
  rw [alone_bind]
  rcases @alone_scanIter store now
    (store.stateKey (workspaceId ++ ":kb:" ++ knowledgeBaseId ++ ":") ++ "*") space with
      ⟨same, keysFound⟩
  rw [same]
  revert keysFound
  generalize (store.alone now (scanIter store.server
    (store.stateKey (workspaceId ++ ":kb:" ++ knowledgeBaseId ++ ":") ++ "*")) space).1 = keys
  intro keysFound
  have plain := plain_of_found marked workspace unmarked base literal selects
    markersFound keysFound
  have byMarker := mem_markers marked workspace base literal selects markersFound conversationId
  have byName := mem_stateKeys workspace base literal selects keysFound conversationId
  have found := @List.mem_append _ conversationId
    (markers.map (RedisStore.dropStart (store.membershipPrefix workspaceId knowledgeBaseId)))
    (keys.map (RedisStore.dropStart (store.stateKey "")))
  rw [byMarker, byName] at found
  revert plain found
  generalize markers.map (RedisStore.dropStart
      (store.membershipPrefix workspaceId knowledgeBaseId)) ++
    keys.map (RedisStore.dropStart (store.stateKey "")) = conversationIds
  intro plain found
  have listed : ∀ other, other ∈ store.listing conversationIds.toFinset ↔
      other ∈ conversationIds := by
    intro other
    rw [store.mem_listing, List.mem_toFinset]
  have cleared := @alone_clearEach store space now _
    (fun other member => (plain other ((listed other).mp member)).named)
    (fun other member => unmarked_of_plain marked (plain other ((listed other).mp member))) 0
  have kept := fun unlisted => @alone_clearEach_keeps store now _ conversation
    (store.listing conversationIds.toFinset) unlisted 0 space
  rw [alone_bind]
  rcases cleared with ⟨⟨deleted, outcome⟩, gone⟩
  rw [outcome]
  dsimp only
  -- The last scan deletes markers, and no key of a state is one.
  have unselected : store.server.selects
      (store.membershipPrefix workspaceId knowledgeBaseId ++ "*")
      (store.stateKey conversationId) = false := by
    rw [Bool.eq_false_iff]
    intro selected
    rcases (selects _ _ (literal_membershipPrefix literal workspace base)).mp selected with
      ⟨rest, split⟩
    rw [toList_membershipPrefix, toList_stateKey, List.append_assoc, List.cons_append,
      List.append_assoc, List.cons_append] at split
    apply conversation.unmarked
    rw [workspaceOf, ← (List.cons.inj (List.append_cancel_left split)).2,
      partition_append (by decide)]
    rfl
  rw [alone_bind]
  dsimp only [Program.perform_done]
  rw [perform_scanDelete_keeps _ _ _ _ unselected]
  by_cases member : conversationId ∈ conversationIds
  · rw [gone conversationId ((listed conversationId).mpr member)]
    rcases found.mp member with ⟨inWorkspace, present⟩ | ⟨named, -⟩
    · rw [if_pos (.inr ⟨inWorkspace, present⟩)]
    · rw [if_pos (.inl named)]
  · rw [kept fun inListing => member ((listed conversationId).mp inListing)]
    split
    · rename_i selected
      rcases selected with named | byMark
      · cases stored : space.get? (store.stateKey conversationId) with
        | none => rfl
        | some value => exact absurd (found.mpr (.inr ⟨named, by rw [stored]; rfl⟩)) member
      · exact absurd (found.mpr (.inl byMark)) member
    · rfl

/-- From marked states, clearing by a knowledge base removes every state that names it. -/
theorem alone_clearByKnowledgeBase (selects : store.server.SelectsStart)
    (literal : Literal store.keyPrefix) (marked : store.Marked space) (now : Timestamp)
    {conversationId : String} {state : ConversationState}
    (stored : space.get? (store.stateKey conversationId) = some (.state state))
    {id : String} (member : id ∈ state.knowledgeBaseIds) :
    (store.alone now (store.clearByKnowledgeBase (workspaceOf conversationId) id) space).2.get?
      (store.stateKey conversationId) = none := by
  have conversation : PlainConversation conversationId := plain_of_stored marked stored
  have present := marked.complete _ ⟨conversationId, state, stored, id, member, rfl⟩
  rw [alone_clearByKnowledgeBase_get? selects literal marked now conversation.workspace
    conversation.unmarked (RedisStore.Needs.plain marked stored id member) conversation,
    if_pos (.inr ⟨rfl, present⟩)]

end

/-! ## Markers in every state -/

/-- Every stored state has its markers, and a clear by one of its knowledge bases that
starts now finds and removes it. -/
structure MarkersComplete (store : RedisStore) (space : Space Stored) : Prop where
  present : ∀ conversationId state,
    space.get? (store.stateKey conversationId) = some (.state state) →
      ∀ id ∈ state.knowledgeBaseIds, (space.get? (store.membershipKey conversationId id)).isSome
  removed : ∀ conversationId state,
    space.get? (store.stateKey conversationId) = some (.state state) →
      ∀ id ∈ state.knowledgeBaseIds, ∀ now,
        (store.alone now (store.clearByKnowledgeBase (workspaceOf conversationId) id)
          space).2.get? (store.stateKey conversationId) = none

/-- In every state of a fenced run the markers are complete. -/
theorem run_markers_complete (store : RedisStore) (space : Space Stored)
    (events : List (Event Draw RedisCall)) (selects : store.server.SelectsStart)
    (literal : Literal store.keyPrefix) (marked : store.Marked space)
    (fenced : Fenced store space events) :
    MarkersComplete store (store.after space events).state := by
  have held := held_after fenced marked List.prefix_rfl
  constructor
  · intro conversationId state stored id member
    exact held.marked.complete _ ⟨conversationId, state, stored, id, member, rfl⟩
  · intro conversationId state stored id member now
    exact alone_clearByKnowledgeBase selects literal held.marked now stored member

/-! ## Sample runs -/

/-- A store on a server with one slot. -/
def sampleStore : RedisStore where
  config := .standard
  keyPrefix := "rag"
  server := {
    slots := 1
    slot := fun _ => 0
    slot_lt := fun _ => Nat.one_pos
    selects := fun pattern key => pattern.toList.dropLast.isPrefixOf key.toList }
  listing := Text.sorted
  mem_listing := fun _ _ => Finset.mem_sort _

theorem sampleStore_selectsStart : sampleStore.server.SelectsStart := by
  intro start key _
  change (start ++ "*").toList.dropLast.isPrefixOf key.toList = true ↔ _
  rw [String.toList_append]
  change (start.toList ++ ['*']).dropLast.isPrefixOf key.toList = true ↔ _
  rw [List.dropLast_concat, List.isPrefixOf_iff_prefix]

/-- A turn is appended to a conversation of one knowledge base. -/
def sampleAppend : RedisCall :=
  .on (.appendTurn "w:multi-chat:1" { user := "a", assistant := "b", knowledgeBaseIds := ["k"] })

def sampleStep (index : Nat) : Event Draw RedisCall :=
  .step index { now := 1 }

/-- The turn is appended and nothing else happens. -/
def quietEvents : List (Event Draw RedisCall) :=
  [.start sampleAppend, sampleStep 0, sampleStep 0, sampleStep 0, sampleStep 0, sampleStep 0]

/-- A conversation is cleared while a turn is appended: the clear has loaded the state
before the append sets the marker, and deletes the marker before the append saves the
state. -/
def overlappingEvents : List (Event Draw RedisCall) :=
  quietEvents ++
    [.start (.on (.clear "w:multi-chat:1")), sampleStep 1, sampleStep 1, .start sampleAppend,
      sampleStep 2, sampleStep 2, sampleStep 2, sampleStep 2, sampleStep 2,
      sampleStep 1, sampleStep 1, sampleStep 2]

theorem marked_empty (store : RedisStore) : store.Marked .empty where
  proper key value found := by cases found
  complete key needs := by
    rcases needs with ⟨conversationId, state, stored, _⟩
    cases stored

theorem run_markers_complete_quiet :
    MarkersComplete sampleStore (sampleStore.after .empty quietEvents).state := by
  apply run_markers_complete sampleStore .empty quietEvents sampleStore_selectsStart (by decide)
    (marked_empty sampleStore)
  have unexpired : ∀ index draw, Event.step index draw ∈ quietEvents → draw.expired = [] := by
    intro index draw member
    simp only [quietEvents, sampleStep, List.mem_cons, reduceCtorEq, Event.step.injEq,
      List.not_mem_nil, or_false, false_or, or_self] at member
    rw [member.2]
  constructor
  · intro call member
    simp only [quietEvents, sampleStep, List.mem_cons, Event.start.injEq, reduceCtorEq,
      List.not_mem_nil, or_false] at member
    rw [member]
    intro conversationId locks
    cases locks
    refine ⟨⟨by decide, ⟨by decide, by decide⟩, by decide⟩, ?_⟩
    intro id given
    rw [List.mem_singleton.mp given]
    exact ⟨by decide, by decide⟩
  · intro past index draw within key expired
    rw [unexpired index draw (within.subset (by simp))] at expired
    cases expired
  · intro past index draw within task found unlocked
    have started := (List.prefix_append _ _).trans within |>.subset
      (run_started (List.mem_of_getElem? found))
    simp only [quietEvents, sampleStep, List.mem_cons, Event.start.injEq, reduceCtorEq,
      List.not_mem_nil, or_false] at started
    rw [started] at unlocked
    cases unlocked

/-- A state that names the knowledge base. -/
def Stored.names (knowledgeBaseId : String) : Stored → Bool
  | .state held => decide (knowledgeBaseId ∈ held.knowledgeBaseIds)
  | .mark => false

/-- The state the append saves last has no marker. -/
theorem marker_lost :
    ¬ MarkersComplete sampleStore (sampleStore.after .empty overlappingEvents).state := by
  intro complete
  have stored : ((sampleStore.after .empty overlappingEvents).state.get?
      (sampleStore.stateKey "w:multi-chat:1")).any (Stored.names "k") = true := by
    decide +kernel
  have lost : ((sampleStore.after .empty overlappingEvents).state.get?
      (sampleStore.membershipKey "w:multi-chat:1" "k")).isSome = false := by
    decide +kernel
  obtain ⟨value, found, named⟩ := (Option.any_eq_true _ _).mp stored
  cases value with
  | mark => cases named
  | state state =>
      have present := complete.present _ state found "k" (of_decide_eq_true named)
      rw [lost] at present
      cases present

end RAGuardian.Memory
