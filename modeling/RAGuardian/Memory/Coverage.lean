import Mathlib.Algebra.Group.Int.Even
import RAGuardian.Memory.Versions

/-! # Coverage of the warm memory

What `durable_state_is_current` promises: every assistant sequence up to the one
asked for has been received. The cursor of a state moves only when a summary is
applied or a durable snapshot is installed. -/

namespace RAGuardian.Memory

open Execution

/-! ## Sequences of turns -/

/-- The sequences the assistant's messages of a conversation have. -/
def AssistantSequence (sequence : Int) : Prop :=
  0 < sequence ∧ Even sequence

instance (sequence : Int) : Decidable (AssistantSequence sequence) :=
  inferInstanceAs (Decidable (_ ∧ _))

theorem mem_evenSequences {target : Nat} {sequence : Int} :
    sequence ∈ evenSequences target ↔ AssistantSequence sequence ∧ sequence ≤ target := by
  rw [evenSequences, AssistantSequence, List.mem_map]
  constructor
  · intro ⟨index, member, equal⟩
    have below := List.mem_range.mp member
    subst equal
    exact ⟨⟨by omega, ⟨(index : Int) + 1, by omega⟩⟩, by omega⟩
  · intro ⟨⟨positive, half, double⟩, within⟩
    exact ⟨(half - 1).toNat, List.mem_range.mpr (by omega), by omega⟩

theorem mem_sequencesOf {turns : List ConversationTurn} {sequence : Int} :
    sequence ∈ sequencesOf turns ↔
      ∃ turn ∈ turns, turn.assistantSequence = some sequence := by
  simp [sequencesOf]

/-- An insertion keeps the turns there are. -/
theorem insertAtSequence_subset {sequence : Int} {turn : ConversationTurn}
    {turns inserted : List ConversationTurn}
    (result : insertAtSequence sequence turn turns = some inserted) : turns ⊆ inserted := by
  induction turns generalizing inserted with
  | nil => exact List.nil_subset _
  | cons existing rest induction =>
      have recurse : ∀ tail, insertAtSequence sequence turn rest = some tail →
          existing :: rest ⊆ existing :: tail :=
        fun tail found => List.cons_subset_cons existing (induction found)
      rw [insertAtSequence] at result
      split at result
      · rcases Option.map_eq_some_iff.mp result with ⟨tail, found, equal⟩
        subst equal
        exact recurse tail found
      · split at result
        · cases result
        · split at result
          · cases result
            exact List.subset_cons_self _ _
          · rcases Option.map_eq_some_iff.mp result with ⟨tail, found, equal⟩
            subst equal
            exact recurse tail found

/-- A sequenced turn is left out only if its sequence is there. -/
theorem insertAtSequence_none {sequence : Int} {turn : ConversationTurn}
    {turns : List ConversationTurn}
    (result : insertAtSequence sequence turn turns = none) :
    sequence ∈ sequencesOf turns := by
  induction turns with
  | nil => cases result
  | cons existing rest induction =>
      rw [mem_sequencesOf]
      rw [insertAtSequence] at result
      split at result
      · rcases mem_sequencesOf.mp (induction (Option.map_eq_none_iff.mp result)) with
          ⟨other, member, equal⟩
        exact ⟨other, List.mem_cons_of_mem existing member, equal⟩
      · rename_i present stored
        split at result
        · rename_i same
          exact ⟨existing, List.mem_cons_self, by rw [stored, same]⟩
        · split at result
          · cases result
          · rcases mem_sequencesOf.mp (induction (Option.map_eq_none_iff.mp result)) with
              ⟨other, member, equal⟩
            exact ⟨other, List.mem_cons_of_mem existing member, equal⟩

theorem insertTurnBySequence_subset {state : ConversationState} {turn : ConversationTurn} :
    state.turns ⊆ (insertTurnBySequence state turn).getD state.turns := by
  cases result : insertTurnBySequence state turn with
  | none => exact List.Subset.refl _
  | some inserted =>
      rw [insertTurnBySequence] at result
      split at result
      · cases result
        exact List.subset_append_left _ _
      · split at result
        · cases result
        · exact insertAtSequence_subset result

/-- A turn is discarded as summarized already or as present already. -/
theorem insertTurnBySequence_none {state : ConversationState} {turn : ConversationTurn}
    (discarded : insertTurnBySequence state turn = none) :
    ∃ sequence, turn.assistantSequence = some sequence ∧
      (sequence ≤ state.summaryThroughSequence ∨ sequence ∈ sequencesOf state.turns) := by
  rw [insertTurnBySequence] at discarded
  split at discarded
  · cases discarded
  · rename_i sequence sequenced
    apply Exists.intro sequence
    split at discarded
    · rename_i summarized
      exact ⟨sequenced, .inl summarized⟩
    · exact ⟨sequenced, .inr (insertAtSequence_none discarded)⟩

theorem append_sequences {state : ConversationState} {clock : Clock} {turn : ConversationTurn}
    {ids : List String} {sequence : Int} (present : sequence ∈ sequencesOf state.turns) :
    sequence ∈ sequencesOf (state.append clock turn ids).state.turns := by
  rcases mem_sequencesOf.mp present with ⟨stored, member, sequenced⟩
  exact mem_sequencesOf.mpr ⟨stored, insertTurnBySequence_subset member, sequenced⟩

/-- A state that covers a sequence has it, or a cursor beyond it. -/
theorem covered_cases {state : ConversationState} {assistantSequence sequence : Int}
    (covers : stateCoversSequence (some state) assistantSequence = true)
    (assistant : AssistantSequence sequence) (reached : sequence ≤ assistantSequence) :
    sequence ∈ sequencesOf state.turns ∨ sequence ≤ state.summaryThroughSequence := by
  have positive := assistant.1
  have member : sequence ∈ evenSequences (max 0 assistantSequence).toNat :=
    mem_evenSequences.mpr ⟨assistant, by omega⟩
  have represented := List.all_eq_true.mp covers sequence member
  by_cases present : sequence ∈ sequencesOf state.turns
  · exact .inl present
  · right
    simp [present] at represented
    omega

/-! ## What has been received -/

namespace Backend

variable (backend : Backend)

/-- A sequence was handed to a summary that was applied, or lies below the cursor of
a durable snapshot that was installed. -/
inductive Accounted (past : List backend.Event) (conversationId : String) (sequence : Int) :
    Prop
  | summarized (earlier : List backend.Event) (draw : backend.Draw)
      (job : ConversationSummaryJob) (summary : String)
      (taken : earlier ++ [⟨draw, .applySummary job summary⟩] <+: past)
      (named : job.conversationId = conversationId)
      (applied : (backend.execute draw (.applySummary job summary)
        (backend.runFrom backend.empty earlier)).1 = true)
      (handed : sequence ∈ sequencesOf job.turnsToSummarize) :
      Accounted past conversationId sequence
  | hydrated (earlier : List backend.Event) (draw : backend.Draw) (snapshot : DurableSnapshot)
      (taken : earlier ++ [⟨draw, .hydrateIfAbsent conversationId snapshot⟩] <+: past)
      (installed : (backend.execute draw (.hydrateIfAbsent conversationId snapshot)
        (backend.runFrom backend.empty earlier)).1 = true)
      (reached : sequence ≤ snapshot.throughSequence) :
      Accounted past conversationId sequence
  | replaced (earlier : List backend.Event) (draw : backend.Draw) (snapshot : DurableSnapshot)
      (taken : earlier ++ [⟨draw, .replaceFromDurable conversationId snapshot⟩] <+: past)
      (installed : (backend.execute draw (.replaceFromDurable conversationId snapshot)
        (backend.runFrom backend.empty earlier)).1 = true)
      (reached : sequence ≤ snapshot.throughSequence) :
      Accounted past conversationId sequence

/-- A sequence is among the turns of the state, or accounted for. -/
def Received (past : List backend.Event) (conversationId : String) (sequence : Int) : Prop :=
  (∃ state, backend.stored (backend.runFrom backend.empty past) conversationId = some state ∧
    sequence ∈ sequencesOf state.turns) ∨
    backend.Accounted past conversationId sequence

/-- Whatever `durable_state_is_current` reports as represented, and whatever
`append_turn` discards, was received. -/
structure CoverageSound (events : List backend.Event) : Prop where
  current : ∀ past, past <+: events → ∀ draw conversationId assistantSequence,
    (backend.execute draw (.durableStateIsCurrent conversationId assistantSequence)
      (backend.runFrom backend.empty past)).1 = true →
      ∀ sequence, AssistantSequence sequence → sequence ≤ assistantSequence →
        backend.Received past conversationId sequence
  discarded : ∀ past draw conversationId arguments,
    past ++ [⟨draw, .appendTurn conversationId arguments⟩] <+: events →
      ∀ state, backend.found draw (backend.runFrom backend.empty past) conversationId =
        some state → insertTurnBySequence state arguments.turn = none →
        ∀ sequence, arguments.assistantSequence = some sequence → AssistantSequence sequence →
          backend.Received past conversationId sequence

/-- No applied summary moves the cursor over a turn that was never received. -/
def SummariesAccount (events : List backend.Event) : Prop :=
  ∀ past draw job summary, past ++ [⟨draw, .applySummary job summary⟩] <+: events →
    ∀ state, backend.found draw (backend.runFrom backend.empty past) job.conversationId =
      some state → state.version = job.version →
      ∀ sequence, AssistantSequence sequence →
        sequence ≤ job.throughSequence.getD state.summaryThroughSequence →
        sequence ∈ sequencesOf job.turnsToSummarize ∨
          sequence ∈ sequencesOf job.recentTurns ∨
          backend.Accounted past job.conversationId sequence

end Backend

/-! ## The cursor along a run -/

namespace Backend

variable {backend : Backend}

theorem Accounted.mono {past present : List backend.Event} {conversationId : String}
    {sequence : Int} (accounted : backend.Accounted past conversationId sequence)
    (longer : past <+: present) : backend.Accounted present conversationId sequence := by
  cases accounted with
  | summarized earlier draw job summary taken named applied handed =>
      exact .summarized earlier draw job summary (taken.trans longer) named applied handed
  | hydrated earlier draw snapshot taken installed reached =>
      exact .hydrated earlier draw snapshot (taken.trans longer) installed reached
  | replaced earlier draw snapshot taken installed reached =>
      exact .replaced earlier draw snapshot (taken.trans longer) installed reached

/-- Every sequence below the cursor of a state was received. -/
def CursorSound (backend : Backend) (past : List backend.Event) : Prop :=
  ∀ conversationId state,
    backend.stored (backend.runFrom backend.empty past) conversationId = some state →
      ∀ sequence, AssistantSequence sequence → sequence ≤ state.summaryThroughSequence →
        sequence ∈ sequencesOf state.turns ∨ backend.Accounted past conversationId sequence

theorem received_of_cursor {past : List backend.Event} {conversationId : String}
    {state : ConversationState} {sequence : Int} (sound : backend.CursorSound past)
    (present : backend.stored (backend.runFrom backend.empty past) conversationId = some state)
    (assistant : AssistantSequence sequence) (below : sequence ≤ state.summaryThroughSequence) :
    backend.Received past conversationId sequence := by
  rcases sound conversationId state present sequence assistant below with received | accounted
  · exact .inl ⟨state, present, received⟩
  · exact .inr accounted

variable (lawful : backend.Lawful)
include lawful

/-- One call keeps the cursor sound, unless it applies a summary that does not
account for what it covers. -/
theorem Lawful.cursorSound_concat {past : List backend.Event} {event : backend.Event}
    (accounts : ∀ draw job summary, event = ⟨draw, .applySummary job summary⟩ →
      ∀ state, backend.found draw (backend.runFrom backend.empty past) job.conversationId =
        some state → state.version = job.version →
        ∀ sequence, AssistantSequence sequence →
          sequence ≤ job.throughSequence.getD state.summaryThroughSequence →
          sequence ∈ sequencesOf job.turnsToSummarize ∨
            sequence ∈ sequencesOf job.recentTurns ∨
            backend.Accounted past job.conversationId sequence)
    (sound : backend.CursorSound past) : backend.CursorSound (past ++ [event]) := by
  intro conversationId state present sequence assistant below
  have grows := List.prefix_append past [event]
  rw [runFrom, run_concat] at present
  rcases lawful.stems _ event conversationId state present with
    made | ⟨earlier, earlierFound, alike⟩
  · cases made with
    | created draw _ arguments clock _ =>
        have positive := assistant.1
        change sequence ≤ 0 at below
        omega
    | appended draw _ arguments clock old found =>
        rcases lawful.found _ _ _ old found with ⟨stored, storedFound, alike⟩
        change sequence ≤ old.summaryThroughSequence at below
        rw [← alike.summaryThroughSequence] at below
        rcases sound _ stored storedFound sequence assistant below with received | accounted
        · rw [alike.turns] at received
          exact .inl (append_sequences received)
        · exact .inr (accounted.mono grows)
    | hydrated draw _ snapshot createdAt updatedAt installed =>
        right
        apply Accounted.hydrated past draw snapshot List.prefix_rfl installed
        have positive := assistant.1
        change sequence ≤ max 0 snapshot.throughSequence at below
        omega
    | replaced draw _ snapshot createdAt updatedAt installed =>
        right
        apply Accounted.replaced past draw snapshot List.prefix_rfl installed
        have positive := assistant.1
        change sequence ≤ max 0 snapshot.throughSequence at below
        omega
    | summarized draw job summary updatedAt old found version applied =>
        rcases accounts draw job summary rfl old found version sequence assistant below with
          handed | kept | accounted
        · exact .inr (.summarized past draw job summary List.prefix_rfl rfl applied handed)
        · exact .inl kept
        · exact .inr (accounted.mono grows)
  · rw [← alike.summaryThroughSequence] at below
    rcases sound conversationId earlier earlierFound sequence assistant below with
      received | accounted
    · rw [alike.turns] at received
      exact .inl received
    · exact .inr (accounted.mono grows)

/-- The cursor stays sound along every run whose summaries account for what they
cover. -/
theorem Lawful.cursorSound {events : List backend.Event}
    (accounts : backend.SummariesAccount events) {past : List backend.Event}
    (within : past <+: events) : backend.CursorSound past := by
  induction past using List.reverseRecOn with
  | nil =>
      intro conversationId state present
      rw [runFrom, run_nil, lawful.initial] at present
      cases present
  | append_singleton past event induction =>
      apply lawful.cursorSound_concat _ (induction ((List.prefix_append _ _).trans within))
      intro draw job summary same
      subst same
      exact accounts past draw job summary within

theorem Lawful.coverageSound {events : List backend.Event}
    (accounts : backend.SummariesAccount events) : backend.CoverageSound events where
  current past within draw conversationId assistantSequence covered := by
    intro sequence assistant reached
    have covers := lawful.covers draw _ conversationId assistantSequence covered
    cases found : backend.found draw (backend.runFrom backend.empty past) conversationId with
    | none =>
        rw [found] at covers
        cases covers
    | some state =>
        rw [found] at covers
        rcases lawful.found _ _ _ state found with ⟨stored, storedFound, alike⟩
        rcases covered_cases covers assistant reached with present | below
        · rw [← alike.turns] at present
          exact .inl ⟨stored, storedFound, present⟩
        · rw [← alike.summaryThroughSequence] at below
          exact received_of_cursor (lawful.cursorSound accounts within) storedFound assistant below
  discarded past draw conversationId arguments taken state found discarded := by
    intro sequence given assistant
    rcases lawful.found _ _ _ state found with ⟨stored, storedFound, alike⟩
    rcases insertTurnBySequence_none discarded with ⟨other, sequenced, reason⟩
    have same : other = sequence := Option.some.inj (sequenced.symm.trans given)
    subst same
    rw [← alike.summaryThroughSequence, ← alike.turns] at reason
    rcases reason with below | present
    · have sound := lawful.cursorSound accounts ((List.prefix_append _ _).trans taken)
      exact received_of_cursor sound storedFound assistant below
    · exact .inl ⟨stored, storedFound, present⟩

end Backend

/-! ## Soundness of the coverage check -/

/-- In every run of either store in which no summary covers a turn that was never
received, the coverage check is sound and no turn is lost to it. -/
theorem run_coverage_sound (config : MemoryConfig) :
    (∀ events, (inProcess config).SummariesAccount events →
        (inProcess config).CoverageSound events) ∧
      ∀ events, (inRedis config).SummariesAccount events →
        (inRedis config).CoverageSound events :=
  ⟨fun _ => (InProcess.lawful config).coverageSound,
    fun _ => (Redis.lawful config).coverageSound⟩

/-- A job over two turns with one missing between them. -/
def gapJob : ConversationSummaryJob where
  conversationId := "c"
  previousSummary := ""
  turnsToSummarize := [⟨"q1", "a1", some 2⟩, ⟨"q3", "a3", some 6⟩]
  recentTurns := [⟨"q4", "a4", some 8⟩]
  version := 3

/-- The turn with sequence 4 is late, and the others are summarized before it comes. -/
def gapMethods : List Method :=
  [appendOf "q1" "a1" 2, appendOf "q3" "a3" 6, appendOf "q4" "a4" 8,
    .applySummary gapJob "summary"]

theorem gap_not_accounted {backend : Backend} (draw : backend.Draw) :
    ¬ backend.Accounted (backend.calls draw gapMethods) "c" 4 := by
  intro accounted
  cases accounted with
  | summarized earlier other job summary taken named applied handed =>
      have member := taken.subset (List.mem_append_right _ List.mem_cons_self)
      simp only [Backend.calls, gapMethods, appendOf, List.map_cons, List.map_nil,
        List.mem_cons, Backend.Event.mk.injEq, reduceCtorEq, Method.applySummary.injEq,
        and_false, false_or, or_false, List.not_mem_nil] at member
      rw [member.2.1] at handed
      exact absurd handed (by decide)
  | hydrated earlier other snapshot taken installed reached =>
      have member := taken.subset (List.mem_append_right _ List.mem_cons_self)
      simp [Backend.calls, gapMethods, appendOf] at member
  | replaced earlier other snapshot taken installed reached =>
      have member := taken.subset (List.mem_append_right _ List.mem_cons_self)
      simp [Backend.calls, gapMethods, appendOf] at member

theorem gap_unsound {backend : Backend} (draw : backend.Draw)
    (covers : (backend.execute draw (.durableStateIsCurrent "c" 8)
      (backend.runFrom backend.empty (backend.calls draw gapMethods))).1 = true)
    (turns : (backend.stored (backend.runFrom backend.empty
      (backend.calls draw gapMethods)) "c").map (sequencesOf ·.turns) = some [8]) :
    ¬ backend.CoverageSound (backend.calls draw gapMethods) := by
  intro sound
  rcases sound.current _ List.prefix_rfl draw "c" 8 covers 4 (by decide) (by decide) with
    ⟨state, present, listed⟩ | accounted
  · rw [present, Option.map_some] at turns
    rw [Option.some.inj turns] at listed
    exact absurd listed (by decide)
  · exact gap_not_accounted draw accounted

set_option maxRecDepth 4000 in
/-- The state is reported to represent all sequences up to 8, without 4. -/
theorem gap_reported_covered :
    ¬ (inProcess eagerConfig).CoverageSound
        ((inProcess eagerConfig).calls (⟨1, 1, 1⟩ : Clock) gapMethods) ∧
      ¬ (inRedis eagerConfig).CoverageSound
        ((inRedis eagerConfig).calls (⟨⟨1, 1, 1⟩, false⟩ : RedisDraw) gapMethods) := by
  constructor
  · apply gap_unsound
    · change (InProcess.execute _ _ _ _).1 = _
      decide +kernel
    · change (Dictionary.get? _ _).map _ = _
      decide +kernel
  · apply gap_unsound
    · change (Redis.execute _ _ _ _).1 = _
      decide +kernel
    · change (Dictionary.get? _ _).map _ = _
      decide +kernel

end RAGuardian.Memory
