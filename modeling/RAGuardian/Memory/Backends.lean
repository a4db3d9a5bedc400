import RAGuardian.Foundation.Execution
import RAGuardian.Memory.Store

/-! # Backends of the warm memory

The two stores behind one interface. A call leaves every conversation a later
version of the state it had, unless the state is removed or built anew. -/

namespace RAGuardian.Memory

open Execution

/-! ## Progress of a state -/

/-- Two states with the same summary, turns and knowledge bases. -/
structure ConversationState.Same (left right : ConversationState) : Prop where
  summary : left.summary = right.summary
  turns : left.turns = right.turns
  knowledgeBaseIds : left.knowledgeBaseIds = right.knowledgeBaseIds

/-- Two states that differ in their times at most. -/
structure ConversationState.Alike (left right : ConversationState) : Prop
    extends ConversationState.Same left right where
  summaryThroughSequence : left.summaryThroughSequence = right.summaryThroughSequence
  version : left.version = right.version

/-- A state went on to another: under the same version nothing has changed. -/
structure ConversationState.Progress (before after : ConversationState) : Prop where
  version : before.version ≤ after.version
  same : before.version = after.version → before.Same after

namespace ConversationState

variable {first second third : ConversationState}

theorem Same.symm (same : first.Same second) : second.Same first :=
  ⟨same.summary.symm, same.turns.symm, same.knowledgeBaseIds.symm⟩

theorem Same.trans (left : first.Same second) (right : second.Same third) :
    first.Same third :=
  ⟨left.summary.trans right.summary, left.turns.trans right.turns,
    left.knowledgeBaseIds.trans right.knowledgeBaseIds⟩

@[simp] theorem Alike.refl (state : ConversationState) : state.Alike state :=
  ⟨⟨rfl, rfl, rfl⟩, rfl, rfl⟩

theorem Alike.trans (left : first.Alike second) (right : second.Alike third) :
    first.Alike third :=
  ⟨left.toSame.trans right.toSame,
    left.summaryThroughSequence.trans right.summaryThroughSequence,
    left.version.trans right.version⟩

theorem Progress.of_alike (alike : first.Alike second) : first.Progress second :=
  ⟨alike.version.le, fun _ => alike.toSame⟩

theorem Progress.trans (left : first.Progress second) (right : second.Progress third) :
    first.Progress third where
  version := left.version.trans right.version
  same equal := by
    have lower := left.version
    have upper := right.version
    exact (left.same (by omega)).trans (right.same (by omega))

theorem Progress.of_lt (newer : first.version < second.version) : first.Progress second :=
  ⟨newer.le, fun equal => by omega⟩

theorem append_progress (state : ConversationState) (clock : Clock)
    (turn : ConversationTurn) (ids : List String) :
    state.Progress (state.append clock turn ids).state := by
  by_cases changed : (state.append clock turn ids).changed = true
  · apply Progress.of_lt
    simp only [append] at changed ⊢
    rw [if_pos changed]
    omega
  · simp only [append, Bool.or_eq_true, not_or, Bool.not_eq_true, Option.isSome_eq_false_iff,
      Option.isNone_iff_eq_none, decide_eq_false_iff_not, not_not] at changed
    apply Progress.of_alike
    constructor
    · constructor
      · rfl
      · simp [append, changed.1]
      · simp [append, changed.2]
    · rfl
    · simp [append, changed.1, changed.2]

theorem summarize_progress (config : MemoryConfig) (state : ConversationState)
    (updatedAt : History.Timestamp) (job : ConversationSummaryJob) (summary : String) :
    state.Progress (state.summarize config updatedAt job summary) := by
  apply Progress.of_lt
  simp only [summarize]
  omega

end ConversationState

/-! ## Backends -/

/-- A warm memory store: what it holds under a conversation, and what a call on the
conversation finds there once it has looked for expired states. -/
structure Backend where
  config : MemoryConfig
  Store : Type
  Draw : Type
  empty : Store
  execute : Draw → (method : Method) → Store → method.Response × Store
  stored : Store → String → Option ConversationState
  found : Draw → Store → String → Option ConversationState

def inProcess (config : MemoryConfig) : Backend where
  config := config
  Store := Conversations
  Draw := Clock
  empty := .empty
  execute := InProcess.execute config
  stored memory conversationId := memory.get? conversationId
  found clock memory conversationId :=
    (purgeExpired config clock.purgedAt memory).get? conversationId

def inRedis (config : MemoryConfig) : Backend where
  config := config
  Store := RedisMemory
  Draw := RedisDraw
  empty := .empty
  execute := Redis.execute config
  stored memory conversationId := memory.get? conversationId
  found draw memory conversationId := (Redis.loadState config draw conversationId memory).1

namespace Backend

variable (backend : Backend)

structure Event where
  draw : backend.Draw
  method : Method

def after (event : backend.Event) (store : backend.Store) : backend.Store :=
  (backend.execute event.draw event.method store).2

/-- The state a run of method calls leaves. -/
def runFrom (store : backend.Store) (events : List backend.Event) : backend.Store :=
  run backend.after store events

/-- The states of a conversation a call can make. -/
inductive Makes (store : backend.Store) : String → backend.Event → ConversationState → Prop
  | created (draw : backend.Draw) (conversationId : String) (arguments : AppendArguments)
      (clock : Clock) (absent : backend.found draw store conversationId = none) :
      Makes store conversationId ⟨draw, .appendTurn conversationId arguments⟩
        ((ConversationState.fresh clock).append clock arguments.turn
          arguments.knowledgeBaseIds).state
  | appended (draw : backend.Draw) (conversationId : String) (arguments : AppendArguments)
      (clock : Clock) (old : ConversationState)
      (found : backend.found draw store conversationId = some old) :
      Makes store conversationId ⟨draw, .appendTurn conversationId arguments⟩
        (old.append clock arguments.turn arguments.knowledgeBaseIds).state
  | hydrated (draw : backend.Draw) (conversationId : String) (snapshot : DurableSnapshot)
      (createdAt updatedAt : History.Timestamp)
      (installed : (backend.execute draw (.hydrateIfAbsent conversationId snapshot)
        store).1 = true) :
      Makes store conversationId ⟨draw, .hydrateIfAbsent conversationId snapshot⟩
        (snapshot.state backend.config createdAt updatedAt)
  | replaced (draw : backend.Draw) (conversationId : String) (snapshot : DurableSnapshot)
      (createdAt updatedAt : History.Timestamp)
      (installed : (backend.execute draw (.replaceFromDurable conversationId snapshot)
        store).1 = true) :
      Makes store conversationId ⟨draw, .replaceFromDurable conversationId snapshot⟩
        (snapshot.state backend.config createdAt updatedAt)
  | summarized (draw : backend.Draw) (job : ConversationSummaryJob) (summary : String)
      (updatedAt : History.Timestamp) (old : ConversationState)
      (found : backend.found draw store job.conversationId = some old)
      (version : old.version = job.version)
      (applied : (backend.execute draw (.applySummary job summary) store).1 = true) :
      Makes store job.conversationId ⟨draw, .applySummary job summary⟩
        (old.summarize backend.config updatedAt job summary)

end Backend

/-! ## What a call leaves of the states before it -/

/-- Every state stored afterwards was made by the call, or was stored before up to
its times. -/
def Stems (made : String → ConversationState → Prop)
    (before after : Dictionary String ConversationState) : Prop :=
  ∀ conversationId state, after.get? conversationId = some state →
    made conversationId state ∨
      ∃ earlier, before.get? conversationId = some earlier ∧ earlier.Alike state

namespace Stems

variable {made : String → ConversationState → Prop}
  {first second third : Dictionary String ConversationState} {conversationId : String}

theorem of_get? (subset : ∀ other state, second.get? other = some state →
    first.get? other = some state) : Stems made first second := by
  intro other state found
  exact .inr ⟨state, subset other state found, .refl state⟩

theorem refl (memory : Dictionary String ConversationState) : Stems made memory memory :=
  of_get? fun _ _ found => found

/-- Something is forgotten before the call makes its state. -/
theorem after_subset (subset : ∀ other state, second.get? other = some state →
    first.get? other = some state) (rest : Stems made second third) :
    Stems made first third := by
  intro other state found
  rcases rest other state found with isMade | ⟨earlier, earlierFound, alike⟩
  · exact .inl isMade
  · exact .inr ⟨earlier, subset other earlier earlierFound, alike⟩

/-- Something is forgotten after the call has made its state. -/
theorem then_subset (rest : Stems made first second)
    (subset : ∀ other state, third.get? other = some state →
      second.get? other = some state) : Stems made first third :=
  fun other state found => rest other state (subset other state found)

theorem removeWhere (test : String → ConversationState → Bool)
    (memory : Dictionary String ConversationState) :
    Stems made memory (memory.removeWhere test) :=
  of_get? fun _ _ found => (Dictionary.get?_removeWhere.mp found).1

theorem erase (key : String) (memory : Dictionary String ConversationState) :
    Stems made memory (memory.erase key) :=
  removeWhere _ memory

/-- Storing a state the call makes, or one stored before with new times. -/
theorem set {memory : Dictionary String ConversationState} {state : ConversationState}
    (source : made conversationId state ∨
      ∃ earlier, memory.get? conversationId = some earlier ∧ earlier.Alike state) :
    Stems made memory (memory.set conversationId state) := by
  intro other stored found
  by_cases same : other = conversationId
  · subst same
    rw [Dictionary.get?_set_self] at found
    cases found
    exact source
  · rw [Dictionary.get?_set_of_ne same] at found
    exact .inr ⟨stored, found, .refl stored⟩

theorem touch {memory : Conversations} {state : ConversationState}
    (source : made conversationId state ∨
      ∃ earlier, memory.get? conversationId = some earlier ∧ earlier.Alike state) :
    Stems made memory (Conversations.touch conversationId state memory) := by
  apply then_subset (set source)
  intro other stored found
  rwa [Conversations.touch, Dictionary.get?_moveToEnd] at found

end Stems

/-! ## The store in the process -/

namespace InProcess

variable (config : MemoryConfig) (clock : Clock) (memory : Conversations)

theorem get?_evicted {memory : Conversations} {conversationId : String}
    {found : ConversationState}
    (present : (evictIfNeeded config memory).get? conversationId = some found) :
    memory.get? conversationId = some found := by
  rw [evictIfNeeded] at present
  generalize memory.entries.length - config.maxItems = count at present
  induction count generalizing memory with
  | zero => exact present
  | succ count induction =>
      rw [Function.iterate_succ_apply] at present
      exact Dictionary.get?_of_dropOldest (induction present)

/-- A method first drops the expired states. -/
theorem stems_of_purged {made : String → ConversationState → Prop} {after : Conversations}
    (rest : Stems made (purgeExpired config clock.purgedAt memory) after) :
    Stems made memory after :=
  rest.after_subset fun _ _ found => (Dictionary.get?_removeWhere.mp found).1

/-- A method that adds a state drops the oldest ones last. -/
theorem stems_to_evicted {made : String → ConversationState → Prop} {before : Conversations}
    (rest : Stems made before memory) : Stems made before (evictIfNeeded config memory) :=
  rest.then_subset fun _ _ found => get?_evicted config found

theorem read_stems {made : String → ConversationState → Prop} (conversationId : String) :
    Stems made memory (Conversations.read config clock conversationId memory).2 := by
  apply stems_of_purged config clock
  rw [Conversations.read]
  split
  · exact .refl _
  · rename_i state found
    exact .touch (.inr ⟨state, found, ⟨⟨rfl, rfl, rfl⟩, rfl, rfl⟩⟩)

theorem appendTurn_stems (conversationId : String) (arguments : AppendArguments) :
    Stems (fun other => (inProcess config).Makes memory other
        ⟨clock, .appendTurn conversationId arguments⟩)
      memory (appendTurn config clock conversationId arguments memory).2 := by
  rw [appendTurn]
  split
  · exact .refl memory
  · apply stems_of_purged config clock
    apply stems_to_evicted config
    apply Stems.touch
    left
    cases found : (purgeExpired config clock.purgedAt memory).get? conversationId with
    | none => exact @Backend.Makes.created (inProcess config) _ _ _ arguments clock found
    | some state =>
        exact @Backend.Makes.appended (inProcess config) _ _ _ arguments clock state found

theorem hydrateIfAbsent_stems (conversationId : String) (snapshot : DurableSnapshot) :
    Stems (fun other => (inProcess config).Makes memory other
        ⟨clock, .hydrateIfAbsent conversationId snapshot⟩)
      memory (hydrateIfAbsent config clock conversationId snapshot memory).2 := by
  have makes := @Backend.Makes.hydrated (inProcess config) memory clock conversationId snapshot
    clock.createdAt clock.updatedAt
  change (hydrateIfAbsent config clock conversationId snapshot memory).1 = true → _ at makes
  rw [hydrateIfAbsent] at makes ⊢
  by_cases unnamed : conversationId = ""
  · rw [if_pos unnamed]
    exact .refl memory
  · rw [if_neg unnamed] at makes ⊢
    apply stems_of_purged config clock
    cases found : (purgeExpired config clock.purgedAt memory).get? conversationId with
    | some _ =>
        simp only [found]
        exact .refl _
    | none =>
        simp only [found] at makes ⊢
        exact stems_to_evicted config _ (.touch (.inl (makes trivial)))

theorem replaceFromDurable_stems (conversationId : String) (snapshot : DurableSnapshot) :
    Stems (fun other => (inProcess config).Makes memory other
        ⟨clock, .replaceFromDurable conversationId snapshot⟩)
      memory (replaceFromDurable config clock conversationId snapshot memory).2 := by
  have makes := fun createdAt => @Backend.Makes.replaced (inProcess config) memory clock
    conversationId snapshot createdAt clock.updatedAt
  change ∀ createdAt, (replaceFromDurable config clock conversationId snapshot memory).1 =
    true → _ at makes
  rw [replaceFromDurable] at makes ⊢
  by_cases unnamed : conversationId = ""
  · rw [if_pos unnamed]
    exact .refl memory
  · simp only [if_neg unnamed] at makes ⊢
    apply stems_of_purged config clock
    split
    · exact .refl _
    · rename_i current
      rw [if_neg current] at makes
      exact stems_to_evicted config _ (.touch (.inl (makes _ rfl)))

theorem applySummary_stems (job : ConversationSummaryJob) (summary : String) :
    Stems (fun other => (inProcess config).Makes memory other
        ⟨clock, .applySummary job summary⟩)
      memory (applySummary config clock job summary memory).2 := by
  have makes := @Backend.Makes.summarized (inProcess config) memory clock job summary
    clock.updatedAt
  change ∀ old, _ → _ → (applySummary config clock job summary memory).1 = true → _ at makes
  rw [applySummary] at makes ⊢
  apply stems_of_purged config clock
  cases found : (purgeExpired config clock.purgedAt memory).get? job.conversationId with
  | none => exact .refl _
  | some state =>
      simp only [found] at makes
      dsimp only
      split
      · exact .refl _
      · rename_i version
        rw [if_neg version] at makes
        exact .touch (.inl (makes state found (not_not.mp version) rfl))

theorem clear_stems {made : String → ConversationState → Prop} (conversationId : String) :
    Stems made memory (clear conversationId memory).2 := by
  rw [clear]
  split
  · exact .refl memory
  · exact .erase conversationId memory

theorem clearIfVersion_stems {made : String → ConversationState → Prop}
    (conversationId : String) (version : Option Int) :
    Stems made memory (clearIfVersion config clock conversationId version memory).2 := by
  cases version with
  | none => exact .refl memory
  | some version =>
      simp only [clearIfVersion]
      split
      · exact .refl memory
      · apply stems_of_purged config clock
        split
        · exact .refl _
        · split
          · exact .refl _
          · exact .erase conversationId _

theorem execute_stems (method : Method) :
    Stems (fun other => (inProcess config).Makes memory other ⟨clock, method⟩)
      memory (execute config clock method memory).2 := by
  cases method with
  | snapshot conversationId =>
      rw [execute]
      split
      · exact .refl memory
      · exact read_stems config clock memory conversationId
  | renderForPrompt conversationId maxChars =>
      rw [execute]
      split
      · exact .refl memory
      · exact read_stems config clock memory conversationId
  | appendTurn conversationId arguments =>
      exact appendTurn_stems config clock memory conversationId arguments
  | hydrateIfAbsent conversationId snapshot =>
      exact hydrateIfAbsent_stems config clock memory conversationId snapshot
  | replaceFromDurable conversationId snapshot =>
      exact replaceFromDurable_stems config clock memory conversationId snapshot
  | durableStateIsCurrent conversationId assistantSequence =>
      rw [execute]
      split
      · exact .refl memory
      · exact stems_of_purged config clock memory (.refl _)
  | applySummary job summary => exact applySummary_stems config clock memory job summary
  | clear conversationId => exact clear_stems memory conversationId
  | clearIfVersion conversationId version =>
      exact clearIfVersion_stems config clock memory conversationId version
  | knowledgeBaseIds conversationId =>
      rw [execute]
      split
      · exact .refl memory
      · exact stems_of_purged config clock memory (.refl _)

end InProcess

/-! ## The store in Redis -/

namespace Redis

variable (config : MemoryConfig) (draw : RedisDraw) (memory : RedisMemory)

/-- What `_load_state` finds is what is stored, up to missing times. -/
theorem loadState_found {conversationId : String} {state : ConversationState}
    (found : (loadState config draw conversationId memory).1 = some state) :
    (loadState config draw conversationId memory).2 = memory ∧
      ∃ stored, memory.get? conversationId = some stored ∧ stored.Alike state := by
  rw [loadState] at found ⊢
  split at found
  · cases found
  · rename_i kept
    rw [if_neg kept]
    cases stored : memory.get? conversationId with
    | none => simp [stored] at found
    | some old =>
        simp only [stored] at found ⊢
        split at found
        · cases found
        · rename_i current
          rw [if_neg current]
          cases found
          exact ⟨rfl, old, rfl, ⟨rfl, rfl, rfl⟩, rfl, rfl⟩

theorem get?_loaded (conversationId : String) {other : String} {state : ConversationState}
    (present : (loadState config draw conversationId memory).2.get? other = some state) :
    memory.get? other = some state := by
  rw [loadState] at present
  split at present
  · exact Dictionary.get?_of_erase present
  · split at present
    · exact present
    · dsimp only at present
      split at present
      · exact Dictionary.get?_of_erase present
      · exact present

/-- A method first loads the state of its conversation. -/
theorem stems_of_loaded {made : String → ConversationState → Prop} {conversationId : String}
    {loaded : Option ConversationState} {rest after : RedisMemory}
    (load : loadState config draw conversationId memory = (loaded, rest))
    (stems : Stems made rest after) : Stems made memory after := by
  apply stems.after_subset
  intro other state found
  apply get?_loaded config draw memory conversationId
  rw [load]
  exact found

theorem read_stems {made : String → ConversationState → Prop} (conversationId : String) :
    Stems made memory (read config draw conversationId memory).2 := by
  rw [read]
  split
  · rename_i rest load
    exact stems_of_loaded config draw memory load (.refl rest)
  · rename_i state rest load
    have found := loadState_found config draw memory (congrArg Prod.fst load)
    rw [load] at found
    rcases found with ⟨rfl, stored, present, alike⟩
    exact .set (.inr ⟨stored, present, alike.trans ⟨⟨rfl, rfl, rfl⟩, rfl, rfl⟩⟩)

theorem appendTurn_stems (conversationId : String) (arguments : AppendArguments) :
    Stems (fun other => (inRedis config).Makes memory other
        ⟨draw, .appendTurn conversationId arguments⟩)
      memory (appendTurn config draw conversationId arguments memory).2 := by
  rw [appendTurn]
  split
  · exact .refl memory
  · cases load : loadState config draw conversationId memory with
    | mk loaded rest =>
        apply stems_of_loaded config draw memory load
        dsimp only
        split
        · apply Stems.set
          left
          have found : (loadState config draw conversationId memory).1 = loaded := by rw [load]
          cases loaded with
          | none =>
              exact @Backend.Makes.created (inRedis config) _ _ _ arguments draw.clock found
          | some state =>
              exact @Backend.Makes.appended (inRedis config) _ _ _ arguments draw.clock state
                found
        · exact .refl rest

theorem hydrateIfAbsent_stems (conversationId : String) (snapshot : DurableSnapshot) :
    Stems (fun other => (inRedis config).Makes memory other
        ⟨draw, .hydrateIfAbsent conversationId snapshot⟩)
      memory (hydrateIfAbsent config draw conversationId snapshot memory).2 := by
  have makes := @Backend.Makes.hydrated (inRedis config) memory draw conversationId snapshot
    draw.clock.createdAt draw.clock.updatedAt
  change (hydrateIfAbsent config draw conversationId snapshot memory).1 = true → _ at makes
  rw [hydrateIfAbsent] at makes ⊢
  by_cases unnamed : conversationId = ""
  · rw [if_pos unnamed]
    exact .refl memory
  · rw [if_neg unnamed] at makes ⊢
    split
    · rename_i rest load
      exact stems_of_loaded config draw memory load (.refl rest)
    · rename_i rest load
      rw [load] at makes
      exact stems_of_loaded config draw memory load (.set (.inl (makes rfl)))

theorem replaceFromDurable_stems (conversationId : String) (snapshot : DurableSnapshot) :
    Stems (fun other => (inRedis config).Makes memory other
        ⟨draw, .replaceFromDurable conversationId snapshot⟩)
      memory (replaceFromDurable config draw conversationId snapshot memory).2 := by
  have makes := fun createdAt => @Backend.Makes.replaced (inRedis config) memory draw
    conversationId snapshot createdAt draw.clock.updatedAt
  change ∀ createdAt, (replaceFromDurable config draw conversationId snapshot memory).1 =
    true → _ at makes
  rw [replaceFromDurable] at makes ⊢
  by_cases unnamed : conversationId = ""
  · rw [if_pos unnamed]
    exact .refl memory
  · simp only [if_neg unnamed] at makes ⊢
    cases load : loadState config draw conversationId memory with
    | mk existing rest =>
        simp only [load] at makes
        apply stems_of_loaded config draw memory load
        split
        · exact .refl rest
        · rename_i current
          rw [if_neg current] at makes
          exact .set (.inl (makes _ rfl))

theorem applySummary_stems (job : ConversationSummaryJob) (summary : String) :
    Stems (fun other => (inRedis config).Makes memory other ⟨draw, .applySummary job summary⟩)
      memory (applySummary config draw job summary memory).2 := by
  have makes := @Backend.Makes.summarized (inRedis config) memory draw job summary
    draw.clock.updatedAt
  change ∀ old, _ → _ → (applySummary config draw job summary memory).1 = true → _ at makes
  rw [applySummary] at makes ⊢
  split
  · rename_i rest load
    exact stems_of_loaded config draw memory load (.refl rest)
  · rename_i state rest load
    apply stems_of_loaded config draw memory load
    simp only [load] at makes
    split
    · exact .refl rest
    · rename_i version
      rw [if_neg version] at makes
      exact .set (.inl (makes state (congrArg Prod.fst load) (not_not.mp version) rfl))

theorem clear_stems {made : String → ConversationState → Prop} (conversationId : String) :
    Stems made memory (clear config draw conversationId memory).2 := by
  rw [clear]
  split
  · exact .refl memory
  · exact stems_of_loaded config draw memory rfl (.erase conversationId _)

theorem clearIfVersion_stems {made : String → ConversationState → Prop}
    (conversationId : String) (version : Option Int) :
    Stems made memory (clearIfVersion config draw conversationId version memory).2 := by
  cases version with
  | none => exact .refl memory
  | some version =>
      simp only [clearIfVersion]
      split
      · exact .refl memory
      · split
        · rename_i rest load
          exact stems_of_loaded config draw memory load (.refl rest)
        · rename_i state rest load
          apply stems_of_loaded config draw memory load
          split
          · exact .refl rest
          · exact .erase conversationId rest

theorem execute_stems (method : Method) :
    Stems (fun other => (inRedis config).Makes memory other ⟨draw, method⟩)
      memory (execute config draw method memory).2 := by
  cases method with
  | snapshot conversationId =>
      rw [execute]
      split
      · exact .refl memory
      · exact read_stems config draw memory conversationId
  | renderForPrompt conversationId maxChars =>
      rw [execute]
      split
      · exact .refl memory
      · exact read_stems config draw memory conversationId
  | appendTurn conversationId arguments =>
      exact appendTurn_stems config draw memory conversationId arguments
  | hydrateIfAbsent conversationId snapshot =>
      exact hydrateIfAbsent_stems config draw memory conversationId snapshot
  | replaceFromDurable conversationId snapshot =>
      exact replaceFromDurable_stems config draw memory conversationId snapshot
  | durableStateIsCurrent conversationId assistantSequence =>
      rw [execute]
      split
      · exact .refl memory
      · exact stems_of_loaded config draw memory rfl (.refl _)
  | applySummary job summary => exact applySummary_stems config draw memory job summary
  | clear conversationId => exact clear_stems config draw memory conversationId
  | clearIfVersion conversationId version =>
      exact clearIfVersion_stems config draw memory conversationId version
  | knowledgeBaseIds conversationId =>
      rw [execute]
      split
      · exact .refl memory
      · exact stems_of_loaded config draw memory rfl (.refl _)

end Redis

/-! ## What a call can do -/

/-- The behaviour both backends share. -/
structure Backend.Lawful (backend : Backend) : Prop where
  stems : ∀ (store : backend.Store) (event : backend.Event) (conversationId : String)
    (state : ConversationState),
    backend.stored (backend.after event store) conversationId = some state →
      backend.Makes store conversationId event state ∨
        ∃ earlier, backend.stored store conversationId = some earlier ∧ earlier.Alike state
  found : ∀ (draw : backend.Draw) (store : backend.Store) (conversationId : String)
    (state : ConversationState), backend.found draw store conversationId = some state →
      ∃ stored, backend.stored store conversationId = some stored ∧ stored.Alike state
  initial : ∀ conversationId, backend.stored backend.empty conversationId = none
  covers : ∀ (draw : backend.Draw) (store : backend.Store) (conversationId : String)
    (assistantSequence : Int),
    (backend.execute draw (.durableStateIsCurrent conversationId assistantSequence)
      store).1 = true →
      stateCoversSequence (backend.found draw store conversationId) assistantSequence = true

theorem InProcess.lawful (config : MemoryConfig) : (inProcess config).Lawful where
  stems memory event := execute_stems config event.draw memory event.method
  found _ _ _ state present :=
    ⟨state, (Dictionary.get?_removeWhere.mp present).1, .refl state⟩
  initial _ := rfl
  covers clock memory conversationId assistantSequence covered := by
    change (execute config clock (.durableStateIsCurrent conversationId assistantSequence)
      memory).1 = true at covered
    simp only [execute] at covered
    split at covered
    · cases covered
    · exact covered

theorem Redis.lawful (config : MemoryConfig) : (inRedis config).Lawful where
  stems memory event := execute_stems config event.draw memory event.method
  found draw memory _ _ present := (loadState_found config draw memory present).2
  initial _ := rfl
  covers draw memory conversationId assistantSequence covered := by
    change (execute config draw (.durableStateIsCurrent conversationId assistantSequence)
      memory).1 = true at covered
    simp only [execute] at covered
    split at covered
    · cases covered
    · exact covered

end RAGuardian.Memory
