import RAGuardian.Memory.Backends

/-! # Version guards

`apply_summary` and `clear_if_version` act on the state that carries the version
they present. The counter grows with every change of a state, but starts anew
whenever a state is built anew. -/

namespace RAGuardian.Memory

open Execution

/-! ## Guarded calls in a run -/

namespace Backend

variable (backend : Backend)

/-- The call builds a state of the conversation anew. -/
inductive Renews (store : backend.Store) (conversationId : String) : backend.Event → Prop
  | created (draw : backend.Draw) (arguments : AppendArguments)
      (absent : backend.found draw store conversationId = none) :
      Renews store conversationId ⟨draw, .appendTurn conversationId arguments⟩
  | hydrated (draw : backend.Draw) (snapshot : DurableSnapshot)
      (installed : (backend.execute draw (.hydrateIfAbsent conversationId snapshot)
        store).1 = true) :
      Renews store conversationId ⟨draw, .hydrateIfAbsent conversationId snapshot⟩
  | replaced (draw : backend.Draw) (snapshot : DurableSnapshot)
      (installed : (backend.execute draw (.replaceFromDurable conversationId snapshot)
        store).1 = true) :
      Renews store conversationId ⟨draw, .replaceFromDurable conversationId snapshot⟩

/-- After the call the conversation has no state, or one that was built anew. -/
def Interrupts (store : backend.Store) (conversationId : String) (event : backend.Event) :
    Prop :=
  backend.stored (backend.after event store) conversationId = none ∨
    backend.Renews store conversationId event

/-- Some call of the sequence interrupts the conversation. -/
def Interrupted (conversationId : String) (store : backend.Store)
    (events : List backend.Event) : Prop :=
  ∃ earlier event, earlier ++ [event] <+: events ∧
    backend.Interrupts (backend.runFrom store earlier) conversationId event

/-- The conversation keeps one state, with the same summary, turns and knowledge
bases, through the whole sequence. -/
def Unchanged (conversationId : String) (store : backend.Store)
    (events : List backend.Event) : Prop :=
  ∃ state : ConversationState, ∀ earlier, earlier <+: events →
    ∃ current, backend.stored (backend.runFrom store earlier) conversationId = some current ∧
      state.Same current

/-- One call reads a version of a conversation, and a later one presents it: a job
with the version `append_turn` put in it, or the version of a snapshot. -/
inductive Presents (store : backend.Store) :
    backend.Event → backend.Event → String → Int → Prop
  | applySummary (reader actor : backend.Draw) (conversationId summary : String)
      (arguments : AppendArguments) (job : ConversationSummaryJob)
      (produced : (backend.execute reader (.appendTurn conversationId arguments) store).1 =
        some job) :
      Presents store ⟨reader, .appendTurn conversationId arguments⟩
        ⟨actor, .applySummary job summary⟩ conversationId job.version
  | clearIfVersion (reader actor : backend.Draw) (conversationId : String) (version : Int)
      (seen : (backend.execute reader (.snapshot conversationId) store).1.version =
        some version) :
      Presents store ⟨reader, .snapshot conversationId⟩
        ⟨actor, .clearIfVersion conversationId (some version)⟩ conversationId version

/-- A guarded call that takes effect. -/
inductive Acts (store : backend.Store) : backend.Event → Prop
  | applySummary (draw : backend.Draw) (job : ConversationSummaryJob) (summary : String)
      (applied : (backend.execute draw (.applySummary job summary) store).1 = true) :
      Acts store ⟨draw, .applySummary job summary⟩
  | clearIfVersion (draw : backend.Draw) (conversationId : String) (version : Option Int)
      (cleared : (backend.execute draw (.clearIfVersion conversationId version)
        store).1 = true) :
      Acts store ⟨draw, .clearIfVersion conversationId version⟩

/-- A version that is read in a run and presented by a later call of it. -/
structure Attempt (events : List backend.Event) where
  earlier : List backend.Event
  reader : backend.Event
  between : List backend.Event
  actor : backend.Event
  conversationId : String
  version : Int
  taken : earlier ++ [reader] ++ between ++ [actor] <+: events
  presents : backend.Presents (backend.runFrom backend.empty earlier) reader actor
    conversationId version

variable {backend}

/-- The store as the reading left it. -/
def Attempt.read (attempt : backend.Attempt events) : backend.Store :=
  backend.runFrom backend.empty (attempt.earlier ++ [attempt.reader])

/-- The store the guarded call meets. -/
def Attempt.met (attempt : backend.Attempt events) : backend.Store :=
  backend.runFrom attempt.read attempt.between

variable (backend)

/-- A guarded call takes effect only on the state whose version was read, unchanged
since and neither cleared nor built anew. -/
def Optimistic (events : List backend.Event) : Prop :=
  ∀ attempt : backend.Attempt events, backend.Acts attempt.met attempt.actor →
    ¬ backend.Interrupted attempt.conversationId attempt.read attempt.between ∧
      backend.Unchanged attempt.conversationId attempt.read attempt.between

/-- No state built anew since a reading has reached the version that was read. -/
def VersionsApart (events : List backend.Event) : Prop :=
  ∀ attempt : backend.Attempt events,
    backend.Interrupted attempt.conversationId attempt.read attempt.between →
      ∀ state, backend.found attempt.actor.draw attempt.met attempt.conversationId =
        some state → state.version ≠ attempt.version

end Backend

/-! ## Laws of the guards -/

/-- What a guarded call does with the version it presents. -/
structure Backend.Guards (backend : Backend) : Prop extends backend.Lawful where
  presented : ∀ (store : backend.Store) (reader actor : backend.Event)
    (conversationId : String) (version : Int) (state : ConversationState),
    backend.Presents store reader actor conversationId version →
      backend.stored (backend.after reader store) conversationId = some state →
        state.version = version
  acts : ∀ (store later : backend.Store) (reader actor : backend.Event)
    (conversationId : String) (version : Int),
    backend.Presents store reader actor conversationId version →
      (backend.Acts later actor ↔
        ∃ state, backend.found actor.draw later conversationId = some state ∧
          state.version = version)

theorem Backend.Lawful.descends {backend : Backend} (lawful : backend.Lawful)
    {store : backend.Store} {event : backend.Event} {conversationId : String}
    {state : ConversationState}
    (present : backend.stored (backend.after event store) conversationId = some state) :
    backend.Renews store conversationId event ∨
      ∃ earlier, backend.stored store conversationId = some earlier ∧
        earlier.Progress state := by
  rcases lawful.stems store event conversationId state present with
    made | ⟨earlier, earlierFound, alike⟩
  · cases made with
    | created draw _ arguments _ absent => exact .inl (.created draw arguments absent)
    | appended draw _ arguments clock old found =>
        rcases lawful.found draw store _ old found with ⟨stored, storedFound, alike⟩
        exact .inr ⟨stored, storedFound,
          (ConversationState.Progress.of_alike alike).trans (old.append_progress _ _ _)⟩
    | hydrated draw _ snapshot _ _ installed => exact .inl (.hydrated draw snapshot installed)
    | replaced draw _ snapshot _ _ installed => exact .inl (.replaced draw snapshot installed)
    | summarized draw job summary updatedAt old found _ _ =>
        rcases lawful.found draw store _ old found with ⟨stored, storedFound, alike⟩
        exact .inr ⟨stored, storedFound,
          (ConversationState.Progress.of_alike alike).trans
            (old.summarize_progress _ updatedAt job summary)⟩
  · exact .inr ⟨earlier, earlierFound, .of_alike alike⟩

namespace Backend.Guards

variable {backend : Backend} (guards : backend.Guards)
include guards

/-- Without an interruption the last state of a conversation is a later version of
its first one. -/
theorem progress {conversationId : String} (events : List backend.Event)
    {store : backend.Store} {state : ConversationState}
    (calm : ¬ backend.Interrupted conversationId store events)
    (found : backend.stored (backend.runFrom store events) conversationId = some state) :
    ∃ first, backend.stored store conversationId = some first ∧ first.Progress state := by
  induction events using List.reverseRecOn generalizing state with
  | nil => exact ⟨state, found, .of_alike (.refl state)⟩
  | append_singleton past event induction =>
      rw [runFrom, run_concat] at found
      rcases guards.descends found with
        renewed | ⟨middle, middleFound, later⟩
      · exact absurd ⟨past, event, List.prefix_rfl, .inr renewed⟩ calm
      · have calmBefore : ¬ backend.Interrupted conversationId store past := by
          intro ⟨earlier, other, within, interrupts⟩
          exact calm ⟨earlier, other, within.trans (List.prefix_append past [event]), interrupts⟩
        rcases induction calmBefore middleFound with ⟨first, firstFound, sooner⟩
        exact ⟨first, firstFound, sooner.trans later⟩

/-- If the version is still the same at the end of a sequence without an
interruption, nothing has changed on the way. -/
theorem unchanged {conversationId : String} {events : List backend.Event}
    {store : backend.Store} {first last : ConversationState}
    (calm : ¬ backend.Interrupted conversationId store events)
    (firstFound : backend.stored store conversationId = some first)
    (lastFound : backend.stored (backend.runFrom store events) conversationId = some last)
    (version : first.version = last.version) :
    backend.Unchanged conversationId store events := by
  apply Exists.intro first
  intro earlier within
  rcases within with ⟨later, split⟩
  subst split
  have calmLater : ¬ backend.Interrupted conversationId (backend.runFrom store earlier) later := by
    intro ⟨start, event, within, interrupts⟩
    apply calm
    apply Exists.intro (earlier ++ start)
    apply Exists.intro event
    rw [List.append_assoc, runFrom, run_append]
    exact ⟨(List.prefix_append_right_inj earlier).mpr within, interrupts⟩
  have calmEarlier : ¬ backend.Interrupted conversationId store earlier := by
    intro ⟨start, event, within, interrupts⟩
    exact calm ⟨start, event, within.trans (List.prefix_append earlier later), interrupts⟩
  rw [runFrom, run_append] at lastFound
  rcases guards.progress later calmLater lastFound with ⟨current, currentFound, after⟩
  rcases guards.progress earlier calmEarlier currentFound with ⟨start, startFound, before⟩
  rw [firstFound] at startFound
  cases startFound
  have upper := after.version
  have lower := before.version
  exact ⟨current, currentFound, before.same (by omega)⟩

/-- A guarded call is sound exactly where no rebuilt state carries the version it
presents. -/
theorem optimistic_iff (events : List backend.Event) :
    backend.Optimistic events ↔ backend.VersionsApart events := by
  constructor
  · intro optimistic attempt interrupted state found same
    have acts := (guards.acts _ attempt.met _ _ _ _ attempt.presents).mpr ⟨state, found, same⟩
    exact (optimistic attempt acts).1 interrupted
  · intro apart attempt acts
    rcases (guards.acts _ attempt.met _ _ _ _ attempt.presents).mp acts with
      ⟨state, found, version⟩
    have calm : ¬ backend.Interrupted attempt.conversationId attempt.read attempt.between := by
      intro interrupted
      exact apart attempt interrupted state found version
    rcases guards.found _ _ _ _ found with ⟨last, lastFound, alike⟩
    rcases guards.progress attempt.between calm lastFound with ⟨first, firstFound, later⟩
    have read : first.version = attempt.version := by
      apply guards.presented _ _ _ _ _ first attempt.presents
      simpa only [Attempt.read, runFrom, run_concat] using firstFound
    exact ⟨calm, guards.unchanged calm firstFound lastFound
      (read.trans (version.symm.trans alike.version.symm))⟩

end Backend.Guards

/-! ## The laws of the two stores -/

theorem summaryJob_some {config : MemoryConfig} {conversationId : String}
    {appended : Appended} {job : ConversationSummaryJob}
    (produced : summaryJob config conversationId appended = some job) :
    appended.added = true ∧ job.conversationId = conversationId ∧
      job.version = appended.state.version := by
  rw [summaryJob] at produced
  by_cases unadded : appended.added = false
  · simp [unadded] at produced
  · simp only [if_neg unadded] at produced
    split at produced
    · cases produced
    · split at produced
      · cases produced
      · cases produced
        exact ⟨by simpa using unadded, rfl, rfl⟩

theorem append_changed {state : ConversationState} {clock : Clock} {turn : ConversationTurn}
    {ids : List String} (added : (state.append clock turn ids).added = true) :
    (state.append clock turn ids).changed = true := by
  simp only [ConversationState.append] at added ⊢
  rw [added, Bool.true_or]

namespace InProcess

variable (config : MemoryConfig)

theorem get?_touched {memory : Conversations} {conversationId : String}
    {state found : ConversationState}
    (present : (Conversations.touch conversationId state memory).get? conversationId =
      some found) : found = state := by
  rw [Conversations.touch, Dictionary.get?_moveToEnd, Dictionary.get?_set_self] at present
  cases present
  rfl

theorem appendTurn_job {clock : Clock} {memory : Conversations} {conversationId : String}
    {arguments : AppendArguments} {job : ConversationSummaryJob}
    (produced : (appendTurn config clock conversationId arguments memory).1 = some job) :
    job.conversationId = conversationId := by
  rw [appendTurn] at produced
  by_cases unnamed : conversationId = ""
  · simp [if_pos unnamed] at produced
  · rw [if_neg unnamed] at produced
    exact (summaryJob_some produced).2.1

theorem appendTurn_version {clock : Clock} {memory : Conversations} {conversationId : String}
    {arguments : AppendArguments} {job : ConversationSummaryJob} {state : ConversationState}
    (produced : (appendTurn config clock conversationId arguments memory).1 = some job)
    (present : (appendTurn config clock conversationId arguments memory).2.get? conversationId =
      some state) : state.version = job.version := by
  rw [appendTurn] at produced present
  by_cases unnamed : conversationId = ""
  · simp [if_pos unnamed] at produced
  · rw [if_neg unnamed] at produced present
    rw [get?_touched (get?_evicted config present)]
    exact (summaryJob_some produced).2.2.symm

theorem snapshot_named {clock : Clock} {memory : Conversations} {conversationId : String}
    {version : Int}
    (seen : (execute config clock (.snapshot conversationId) memory).1.version = some version) :
    conversationId ≠ "" := by
  intro unnamed
  simp [execute, unnamed, ConversationSnapshot.absent] at seen

theorem snapshot_version {clock : Clock} {memory : Conversations} {conversationId : String}
    {version : Int} {state : ConversationState}
    (seen : (execute config clock (.snapshot conversationId) memory).1.version = some version)
    (present : (execute config clock (.snapshot conversationId) memory).2.get? conversationId =
      some state) : state.version = version := by
  simp only [execute] at seen present
  by_cases unnamed : conversationId = ""
  · simp [if_pos unnamed, ConversationSnapshot.absent] at seen
  · rw [if_neg unnamed] at seen present
    rw [Conversations.read] at seen present
    cases found : (purgeExpired config clock.purgedAt memory).get? conversationId with
    | none => simp [found, ConversationSnapshot.absent] at seen
    | some old =>
        simp only [found] at seen present
        rw [get?_touched present]
        simpa [ConversationState.snapshot] using seen

theorem applySummary_iff (clock : Clock) (job : ConversationSummaryJob) (summary : String)
    (memory : Conversations) :
    (applySummary config clock job summary memory).1 = true ↔
      ∃ state, (purgeExpired config clock.purgedAt memory).get? job.conversationId = some state ∧
        state.version = job.version := by
  rw [applySummary]
  cases (purgeExpired config clock.purgedAt memory).get? job.conversationId with
  | none => simp
  | some state => by_cases same : state.version = job.version <;> simp [same]

theorem clearIfVersion_iff (clock : Clock) {conversationId : String} (version : Int)
    (memory : Conversations) (named : conversationId ≠ "") :
    (clearIfVersion config clock conversationId (some version) memory).1 = true ↔
      ∃ state, (purgeExpired config clock.purgedAt memory).get? conversationId = some state ∧
        state.version = version := by
  simp only [clearIfVersion, if_neg named]
  cases (purgeExpired config clock.purgedAt memory).get? conversationId with
  | none => simp
  | some state => by_cases same : state.version = version <;> simp [same]

theorem guards : (inProcess config).Guards where
  toLawful := lawful config
  presented _ _ _ _ _ _ presents present := by
    cases presents with
    | applySummary _ _ _ _ _ _ produced => exact appendTurn_version config produced present
    | clearIfVersion _ _ _ _ seen => exact snapshot_version config seen present
  acts _ later _ _ conversationId version presents := by
    cases presents with
    | applySummary _ actor _ summary _ job produced =>
        rw [← appendTurn_job config produced]
        apply Iff.trans _ (applySummary_iff config actor job summary later)
        constructor
        · intro acts
          cases acts with
          | applySummary _ _ _ applied => exact applied
        · exact @Backend.Acts.applySummary (inProcess config) later actor job summary
    | clearIfVersion _ actor _ _ seen =>
        apply Iff.trans _ (clearIfVersion_iff config actor version later
          (snapshot_named config seen))
        constructor
        · intro acts
          cases acts with
          | clearIfVersion _ _ _ cleared => exact cleared
        · exact @Backend.Acts.clearIfVersion (inProcess config) later actor conversationId
            (some version)

end InProcess

namespace Redis

variable (config : MemoryConfig)

theorem appendTurn_job {draw : RedisDraw} {memory : RedisMemory} {conversationId : String}
    {arguments : AppendArguments} {job : ConversationSummaryJob}
    (produced : (appendTurn config draw conversationId arguments memory).1 = some job) :
    job.conversationId = conversationId := by
  rw [appendTurn] at produced
  by_cases unnamed : conversationId = ""
  · simp [if_pos unnamed] at produced
  · rw [if_neg unnamed] at produced
    exact (summaryJob_some produced).2.1

theorem appendTurn_version {draw : RedisDraw} {memory : RedisMemory} {conversationId : String}
    {arguments : AppendArguments} {job : ConversationSummaryJob} {state : ConversationState}
    (produced : (appendTurn config draw conversationId arguments memory).1 = some job)
    (present : (appendTurn config draw conversationId arguments memory).2.get? conversationId =
      some state) : state.version = job.version := by
  rw [appendTurn] at produced present
  by_cases unnamed : conversationId = ""
  · simp [if_pos unnamed] at produced
  · simp only [if_neg unnamed] at produced present
    have job := summaryJob_some produced
    rw [if_pos (append_changed job.1), Dictionary.get?_set_self] at present
    cases present
    exact job.2.2.symm

theorem snapshot_named {draw : RedisDraw} {memory : RedisMemory} {conversationId : String}
    {version : Int}
    (seen : (execute config draw (.snapshot conversationId) memory).1.version = some version) :
    conversationId ≠ "" := by
  intro unnamed
  simp [execute, unnamed, ConversationSnapshot.absent] at seen

theorem snapshot_version {draw : RedisDraw} {memory : RedisMemory} {conversationId : String}
    {version : Int} {state : ConversationState}
    (seen : (execute config draw (.snapshot conversationId) memory).1.version = some version)
    (present : (execute config draw (.snapshot conversationId) memory).2.get? conversationId =
      some state) : state.version = version := by
  have named := snapshot_named config seen
  simp only [execute, if_neg named, read] at seen present
  split at seen
  · simp [ConversationSnapshot.absent] at seen
  · rename_i old rest found
    simp only [found] at present
    rw [Dictionary.get?_set_self] at present
    cases present
    simpa [ConversationState.snapshot] using seen

theorem applySummary_iff (draw : RedisDraw) (job : ConversationSummaryJob) (summary : String)
    (memory : RedisMemory) :
    (applySummary config draw job summary memory).1 = true ↔
      ∃ state, (loadState config draw job.conversationId memory).1 = some state ∧
        state.version = job.version := by
  rw [applySummary]
  rcases loadState config draw job.conversationId memory with ⟨_ | state, rest⟩
  · simp
  · by_cases same : state.version = job.version <;> simp [same]

theorem clearIfVersion_iff (draw : RedisDraw) {conversationId : String} (version : Int)
    (memory : RedisMemory) (named : conversationId ≠ "") :
    (clearIfVersion config draw conversationId (some version) memory).1 = true ↔
      ∃ state, (loadState config draw conversationId memory).1 = some state ∧
        state.version = version := by
  simp only [clearIfVersion, if_neg named]
  rcases loadState config draw conversationId memory with ⟨_ | state, rest⟩
  · simp
  · by_cases same : state.version = version <;> simp [same]

theorem guards : (inRedis config).Guards where
  toLawful := lawful config
  presented _ _ _ _ _ _ presents present := by
    cases presents with
    | applySummary _ _ _ _ _ _ produced => exact appendTurn_version config produced present
    | clearIfVersion _ _ _ _ seen => exact snapshot_version config seen present
  acts _ later _ _ conversationId version presents := by
    cases presents with
    | applySummary _ actor _ summary _ job produced =>
        rw [← appendTurn_job config produced]
        apply Iff.trans _ (applySummary_iff config actor job summary later)
        constructor
        · intro acts
          cases acts with
          | applySummary _ _ _ applied => exact applied
        · exact @Backend.Acts.applySummary (inRedis config) later actor job summary
    | clearIfVersion _ actor _ _ seen =>
        apply Iff.trans _ (clearIfVersion_iff config actor version later
          (snapshot_named config seen))
        constructor
        · intro acts
          cases acts with
          | clearIfVersion _ _ _ cleared => exact cleared
        · exact @Backend.Acts.clearIfVersion (inRedis config) later actor conversationId
            (some version)

end Redis

/-! ## Soundness of the version guards -/

/-- A store that summarizes as soon as it can. -/
def eagerConfig : MemoryConfig :=
  { MemoryConfig.standard with summaryThresholdChars := 1 }

def appendOf (user assistant : String) (sequence : Int) : Method :=
  .appendTurn "c" { user := user, assistant := assistant, assistantSequence := some sequence }

/-- The job of the first two turns. -/
def earlyJob : ConversationSummaryJob where
  conversationId := "c"
  previousSummary := ""
  turnsToSummarize := [⟨"q1", "a1", some 2⟩]
  recentTurns := [⟨"q2", "a2", some 4⟩]
  version := 2

/-- While the first two turns are being summarized the conversation is cleared and
two new turns are taken. -/
def rebuiltMethods : List Method :=
  [appendOf "q1" "a1" 2, appendOf "q2" "a2" 4, .clear "c", appendOf "q3" "a3" 2,
    appendOf "q4" "a4" 4, .applySummary earlyJob "summary"]

def Backend.calls (backend : Backend) (draw : backend.Draw) (methods : List Method) :
    List backend.Event :=
  methods.map fun method => ⟨draw, method⟩

end RAGuardian.Memory
