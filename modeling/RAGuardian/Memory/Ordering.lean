import RAGuardian.Memory.Coverage

/-! # The order of warm turns

Turns arrive in any order. A state keeps them in the order of their sequences, above its
cursor and without duplicates. -/

namespace RAGuardian.Memory

open Execution

/-! ## Ordered turns -/

/-- Sequenced turns in strictly increasing order, above a cursor. -/
structure Ordered (through : Int) (turns : List ConversationTurn) : Prop where
  sequenced : ∀ turn ∈ turns, ∃ sequence, turn.assistantSequence = some sequence
  increasing : (sequencesOf turns).Pairwise (· < ·)
  above : ∀ sequence ∈ sequencesOf turns, through < sequence

def ConversationState.Ordered (state : ConversationState) : Prop :=
  Memory.Ordered state.summaryThroughSequence state.turns

section

variable {through sequence : Int} {turn : ConversationTurn} {turns rest : List ConversationTurn}

theorem ordered_nil : Ordered through [] :=
  ⟨nofun, List.Pairwise.nil, nofun⟩

theorem sequencesOf_cons (sequenced : turn.assistantSequence = some sequence) :
    sequencesOf (turn :: rest) = sequence :: sequencesOf rest :=
  List.filterMap_cons_some sequenced

theorem sequencesOf_append {first second : List ConversationTurn} :
    sequencesOf (first ++ second) = sequencesOf first ++ sequencesOf second :=
  List.filterMap_append

/-- The turns after one of the turns are ordered above it. -/
theorem ordered_cons : Ordered through (turn :: rest) ↔
    ∃ sequence, turn.assistantSequence = some sequence ∧ through < sequence ∧
      Ordered sequence rest := by
  constructor
  · intro ordered
    obtain ⟨sequence, sequenced⟩ := ordered.sequenced turn List.mem_cons_self
    have increasing := ordered.increasing
    have above := ordered.above
    rw [sequencesOf_cons sequenced] at increasing above
    rw [List.pairwise_cons] at increasing
    exact ⟨sequence, sequenced, above sequence List.mem_cons_self,
      fun other member => ordered.sequenced other (List.mem_cons_of_mem turn member),
      increasing.2, increasing.1⟩
  · rintro ⟨sequence, sequenced, above, ordered⟩
    refine ⟨?_, ?_, ?_⟩
    · intro other member
      rcases List.mem_cons.mp member with rfl | member
      · exact ⟨sequence, sequenced⟩
      · exact ordered.sequenced other member
    · rw [sequencesOf_cons sequenced, List.pairwise_cons]
      exact ⟨ordered.above, ordered.increasing⟩
    · intro other member
      rw [sequencesOf_cons sequenced, List.mem_cons] at member
      rcases member with rfl | member
      · exact above
      · exact above.trans (ordered.above other member)

theorem Ordered.lower {lower : Int} (ordered : Ordered through turns) (below : lower ≤ through) :
    Ordered lower turns :=
  ⟨ordered.sequenced, ordered.increasing,
    fun sequence member => below.trans_lt (ordered.above sequence member)⟩

/-- An inserted turn stands at its place. -/
theorem Ordered.inserted {inserted : List ConversationTurn} (ordered : Ordered through turns)
    (sequenced : turn.assistantSequence = some sequence) (above : through < sequence)
    (result : insertAtSequence sequence turn turns = some inserted) :
    Ordered through inserted := by
  induction turns generalizing through inserted with
  | nil =>
      cases result
      exact ordered_cons.mpr ⟨sequence, sequenced, above, ordered_nil⟩
  | cons existing rest induction =>
      obtain ⟨present, stored, below, later⟩ := ordered_cons.mp ordered
      rw [insertAtSequence, stored] at result
      dsimp only at result
      by_cases same : present = sequence
      · rw [if_pos same] at result
        cases result
      · rw [if_neg same] at result
        by_cases before : sequence < present
        · rw [if_pos before] at result
          cases result
          exact ordered_cons.mpr ⟨sequence, sequenced, above,
            ordered_cons.mpr ⟨present, stored, before, later⟩⟩
        · rw [if_neg before] at result
          rcases Option.map_eq_some_iff.mp result with ⟨tail, found, rfl⟩
          exact ordered_cons.mpr ⟨present, stored, below,
            induction later (by omega) found⟩

theorem mem_insertAtSequence {inserted : List ConversationTurn} {other : ConversationTurn}
    (result : insertAtSequence sequence turn turns = some inserted) :
    other ∈ inserted ↔ other = turn ∨ other ∈ turns := by
  induction turns generalizing inserted with
  | nil =>
      cases result
      exact List.mem_cons
  | cons existing rest induction =>
      have recurse : ∀ tail, insertAtSequence sequence turn rest = some tail →
          (other ∈ existing :: tail ↔ other = turn ∨ other ∈ existing :: rest) := by
        intro tail found
        rw [List.mem_cons, List.mem_cons, induction found]
        exact or_left_comm
      rw [insertAtSequence] at result
      split at result
      · rcases Option.map_eq_some_iff.mp result with ⟨tail, found, rfl⟩
        exact recurse tail found
      · split at result
        · cases result
        · split at result
          · cases result
            exact List.mem_cons
          · rcases Option.map_eq_some_iff.mp result with ⟨tail, found, rfl⟩
            exact recurse tail found

/-- A turn whose sequence is there is not inserted into ordered turns. -/
theorem Ordered.present (ordered : Ordered through turns)
    (present : sequence ∈ sequencesOf turns) : insertAtSequence sequence turn turns = none := by
  induction turns generalizing through with
  | nil => cases present
  | cons existing rest induction =>
      obtain ⟨first, stored, -, later⟩ := ordered_cons.mp ordered
      rw [sequencesOf_cons stored, List.mem_cons] at present
      rw [insertAtSequence, stored]
      dsimp only
      rcases present with rfl | present
      · rw [if_pos rfl]
      · have after := later.above sequence present
        rw [if_neg (by omega), if_neg (by omega), induction later present]
        rfl

/-- Ordered turns are determined by which turns they are. -/
theorem Ordered.ext {first second : List ConversationTurn} (left : Ordered through first)
    (right : Ordered through second) (same : ∀ turn, turn ∈ first ↔ turn ∈ second) :
    first = second := by
  have before : ∀ {turns : List ConversationTurn} {through : Int}, Ordered through turns →
      turns.Pairwise fun one other => ∀ sequence later, one.assistantSequence = some sequence →
        other.assistantSequence = some later → sequence < later := by
    intro turns
    induction turns with
    | nil => exact fun _ => List.Pairwise.nil
    | cons turn rest induction =>
        intro through ordered
        obtain ⟨sequence, sequenced, -, later⟩ := ordered_cons.mp ordered
        refine List.pairwise_cons.mpr ⟨?_, induction later⟩
        intro other member one two oneSequence twoSequence
        rw [sequenced] at oneSequence
        cases oneSequence
        exact later.above two (mem_sequencesOf.mpr ⟨other, member, twoSequence⟩)
  have distinct : ∀ {turns : List ConversationTurn}, Ordered through turns → turns.Nodup := by
    intro turns ordered
    refine (before ordered).imp_of_mem ?_
    rintro one other member - earlier rfl
    obtain ⟨sequence, sequenced⟩ := ordered.sequenced one member
    exact absurd (earlier sequence sequence sequenced sequenced) (lt_irrefl sequence)
  have perm : first.Perm second :=
    (List.perm_ext_iff_of_nodup (distinct left) (distinct right)).mpr same
  refine perm.eq_of_pairwise ?_ (before left) (before right)
  intro one other member otherMember forward backward
  obtain ⟨sequence, sequenced⟩ := left.sequenced one member
  obtain ⟨later, otherSequenced⟩ := right.sequenced other otherMember
  have up := forward sequence later sequenced otherSequenced
  have down := backward later sequence otherSequenced sequenced
  omega

end

/-! ## Appends -/

section

variable {state : ConversationState} {clock : Clock} {turn : ConversationTurn}
  {ids : List String} {sequence : Int}

/-- A state keeps its turns ordered when a sequenced turn is appended. -/
theorem ConversationState.Ordered.append (ordered : state.Ordered)
    (sequenced : turn.assistantSequence = some sequence) :
    (state.append clock turn ids).state.Ordered := by
  change Memory.Ordered state.summaryThroughSequence
    ((insertTurnBySequence state turn).getD state.turns)
  rw [insertTurnBySequence, sequenced]
  dsimp only
  by_cases summarized : sequence ≤ state.summaryThroughSequence
  · rw [if_pos summarized]
    exact ordered
  · rw [if_neg summarized]
    cases result : insertAtSequence sequence turn state.turns with
    | none => exact ordered
    | some inserted => exact ordered.inserted sequenced (by omega) result

/-- The turns after an append. -/
theorem ConversationState.Ordered.mem_append (ordered : state.Ordered)
    (sequenced : turn.assistantSequence = some sequence)
    (above : state.summaryThroughSequence < sequence) {other : ConversationTurn} :
    other ∈ (state.append clock turn ids).state.turns ↔
      other ∈ state.turns ∨ other = turn ∧ sequence ∉ sequencesOf state.turns := by
  change other ∈ (insertTurnBySequence state turn).getD state.turns ↔ _
  rw [insertTurnBySequence, sequenced]
  dsimp only
  rw [if_neg (by omega)]
  cases result : insertAtSequence sequence turn state.turns with
  | none =>
      have present := insertAtSequence_none result
      simp [present]
  | some inserted =>
      have absent : sequence ∉ sequencesOf state.turns := by
        intro present
        rw [Memory.Ordered.present ordered present] at result
        cases result
      rw [Option.getD_some, mem_insertAtSequence result]
      simp [absent, or_comm]

/-- Append turns to a state, one after the other. -/
def ConversationState.appendAll (state : ConversationState) (calls : List (Clock × AppendArguments)) :
    ConversationState :=
  calls.foldl
    (fun state call => (state.append call.1 call.2.turn call.2.knowledgeBaseIds).state) state

/-- Turns that can be appended in any order: each has a sequence above the cursor, and the
turns with one sequence are the same. -/
structure Appendable (through : Int) (calls : List (Clock × AppendArguments)) : Prop where
  sequenced : ∀ call ∈ calls, ∃ sequence, call.2.assistantSequence = some sequence ∧
    through < sequence
  distinct : ∀ call ∈ calls, ∀ other ∈ calls,
    call.2.assistantSequence = other.2.assistantSequence → call.2.turn = other.2.turn

theorem Appendable.tail {through : Int} {call : Clock × AppendArguments}
    {calls : List (Clock × AppendArguments)} (appendable : Appendable through (call :: calls)) :
    Appendable through calls where
  sequenced other member := appendable.sequenced other (List.mem_cons_of_mem call member)
  distinct one member other otherMember := appendable.distinct one (List.mem_cons_of_mem call member)
    other (List.mem_cons_of_mem call otherMember)

/-- The turns after several appends, and their order. -/
theorem ConversationState.Ordered.appendAll {calls : List (Clock × AppendArguments)}
    (ordered : state.Ordered) (appendable : Appendable state.summaryThroughSequence calls) :
    (state.appendAll calls).Ordered ∧
      (state.appendAll calls).summaryThroughSequence = state.summaryThroughSequence ∧
      ∀ turn, turn ∈ (state.appendAll calls).turns ↔ turn ∈ state.turns ∨
        ∃ call ∈ calls, turn = call.2.turn ∧
          ∀ sequence ∈ sequencesOf state.turns, turn.assistantSequence ≠ some sequence := by
  induction calls generalizing state with
  | nil => exact ⟨ordered, rfl, fun turn => by simp [ConversationState.appendAll]⟩
  | cons call calls induction =>
      obtain ⟨sequence, sequenced, above⟩ := appendable.sequenced call List.mem_cons_self
      have own : call.2.turn.assistantSequence = some sequence := sequenced
      have next := @ConversationState.Ordered.append state call.1 call.2.turn
        call.2.knowledgeBaseIds sequence ordered own
      obtain ⟨last, through, members⟩ := induction next appendable.tail
      refine ⟨last, through, ?_⟩
      intro turn
      change turn ∈ (ConversationState.appendAll _ calls).turns ↔ _
      rw [members, ordered.mem_append own above]
      constructor
      · rintro ((stored | ⟨rfl, absent⟩) | ⟨other, member, rfl, apart⟩)
        · exact .inl stored
        · refine .inr ⟨call, List.mem_cons_self, rfl, ?_⟩
          rintro present stored same
          rw [own] at same
          cases same
          exact absent stored
        · refine .inr ⟨other, List.mem_cons_of_mem call member, rfl, ?_⟩
          exact fun present stored => apart present (append_sequences stored)
      · rintro (stored | ⟨other, member, rfl, apart⟩)
        · exact .inl (.inl stored)
        · rcases List.mem_cons.mp member with rfl | later
          · exact .inl (.inr ⟨rfl, fun present => apart sequence present own⟩)
          · by_cases same : other.2.turn.assistantSequence = some sequence
            · have equal := appendable.distinct other member call List.mem_cons_self
                (same.trans sequenced.symm)
              rw [equal] at apart ⊢
              exact .inl (.inr ⟨rfl, fun present => apart sequence present own⟩)
            · refine .inr ⟨other, later, rfl, ?_⟩
              intro present stored
              obtain ⟨turn, held, listed⟩ := mem_sequencesOf.mp stored
              rcases (ordered.mem_append own above).mp held with old | ⟨rfl, -⟩
              · exact apart present (mem_sequencesOf.mpr ⟨turn, old, listed⟩)
              · rintro equal
                exact same (equal.trans (listed.symm.trans own))

/-- The order of the appends does not matter, nor does a repetition. -/
theorem ConversationState.Ordered.appendAll_eq {first second : List (Clock × AppendArguments)}
    (ordered : state.Ordered) (left : Appendable state.summaryThroughSequence first)
    (right : Appendable state.summaryThroughSequence second)
    (same : ∀ turn, (∃ call ∈ first, turn = call.2.turn) ↔ ∃ call ∈ second, turn = call.2.turn) :
    (state.appendAll first).turns = (state.appendAll second).turns := by
  obtain ⟨firstOrdered, firstThrough, firstMembers⟩ := ordered.appendAll left
  obtain ⟨secondOrdered, secondThrough, secondMembers⟩ := ordered.appendAll right
  rw [ConversationState.Ordered, firstThrough] at firstOrdered
  rw [ConversationState.Ordered, secondThrough] at secondOrdered
  refine firstOrdered.ext secondOrdered ?_
  intro turn
  rw [firstMembers, secondMembers]
  have moved : ∀ {calls other : List (Clock × AppendArguments)},
      ((∃ call ∈ calls, turn = call.2.turn) → ∃ call ∈ other, turn = call.2.turn) →
      (∃ call ∈ calls, turn = call.2.turn ∧ ∀ sequence ∈ sequencesOf state.turns,
        turn.assistantSequence ≠ some sequence) →
      ∃ call ∈ other, turn = call.2.turn ∧ ∀ sequence ∈ sequencesOf state.turns,
        turn.assistantSequence ≠ some sequence := by
    rintro calls other transfer ⟨call, member, equal, apart⟩
    obtain ⟨found, foundMember, foundEqual⟩ := transfer ⟨call, member, equal⟩
    exact ⟨found, foundMember, foundEqual, apart⟩
  exact or_congr_right ⟨moved (same turn).mp, moved (same turn).mpr⟩

end

/-! ## Summaries -/

section

variable {config : MemoryConfig} {conversationId : String} {appended : Appended}
  {job : ConversationSummaryJob} {through : Int}

/-- A job takes the first turns of the state, and at least one. -/
theorem summaryJob_turns (produced : summaryJob config conversationId appended = some job)
    (some : appended.state.turns ≠ []) :
    job.turnsToSummarize ++ job.recentTurns = appended.state.turns ∧
      job.turnsToSummarize ≠ [] := by
  rw [summaryJob] at produced
  split at produced
  · cases produced
  · split at produced
    · cases produced
    · dsimp only at produced
      split at produced
      · cases produced
      · rename_i positive
        cases produced
        refine ⟨List.take_append_drop _ _, ?_⟩
        rw [ne_eq, List.take_eq_nil_iff]
        rintro (zero | empty)
        · exact positive zero
        · exact some empty

theorem foldl_max_lt {sequences : List Int} {start bound : Int} (below : start < bound)
    (all : ∀ sequence ∈ sequences, sequence < bound) : sequences.foldl max start < bound := by
  induction sequences generalizing start with
  | nil => exact below
  | cons sequence rest induction =>
      exact induction (max_lt below (all sequence List.mem_cons_self))
        fun other member => all other (List.mem_cons_of_mem sequence member)

theorem throughSequence_nonneg {sequence : Int} (through : job.throughSequence = some sequence) :
    0 ≤ sequence := by
  have grows : ∀ (sequences : List Int) (start : Int), start ≤ sequences.foldl max start := by
    intro sequences
    induction sequences with
    | nil => exact fun start => le_rfl
    | cons sequence rest induction =>
        exact fun start => (le_max_left start sequence).trans (induction _)
  rw [ConversationSummaryJob.throughSequence] at through
  split at through
  · cases through
  · obtain ⟨sequences, -, rfl⟩ := Option.map_eq_some_iff.mp through
    exact grows sequences 0

theorem mapM_sequences {turns : List ConversationTurn} (ordered : Ordered through turns) :
    turns.mapM ConversationTurn.assistantSequence = some (sequencesOf turns) := by
  induction turns generalizing through with
  | nil => rfl
  | cons turn rest induction =>
      obtain ⟨sequence, sequenced, -, later⟩ := ordered_cons.mp ordered
      rw [List.mapM_cons, sequenced, induction later, sequencesOf_cons sequenced]
      rfl

/-- A job whose turns are ordered leaves its recent turns above the cursor that it sets. -/
structure ConversationSummaryJob.Ordered (job : ConversationSummaryJob) : Prop where
  summarizes : job.turnsToSummarize ≠ []
  ordered : Memory.Ordered 0 (job.turnsToSummarize ++ job.recentTurns)

theorem ConversationSummaryJob.Ordered.summarize {state : ConversationState}
    {updatedAt : History.Timestamp} {summary : String} (ordered : job.Ordered) :
    (state.summarize config updatedAt job summary).Ordered := by
  obtain ⟨summarizes, sequenced, increasing, above⟩ := ordered
  rw [sequencesOf_append] at increasing above
  obtain ⟨firstIncreasing, recentIncreasing, apart⟩ := List.pairwise_append.mp increasing
  have first : Memory.Ordered 0 job.turnsToSummarize :=
    ⟨fun turn member => sequenced turn (List.mem_append_left _ member), firstIncreasing,
      fun sequence member => above sequence (List.mem_append_left _ member)⟩
  change Memory.Ordered (job.throughSequence.getD state.summaryThroughSequence) job.recentTurns
  rw [ConversationSummaryJob.throughSequence, if_neg summarizes, mapM_sequences first]
  refine ⟨fun turn member => sequenced turn (List.mem_append_right _ member), recentIncreasing, ?_⟩
  intro sequence member
  exact foldl_max_lt (above sequence (List.mem_append_right _ member))
    fun other otherMember => apart other otherMember sequence member

end

/-! ## Runs -/

/-- A job that `append_turn` returns is the job of the state it leaves. -/
def Backend.Issues (backend : Backend) : Prop :=
  ∀ (draw : backend.Draw) (store : backend.Store) (conversationId : String)
    (arguments : AppendArguments) (job : ConversationSummaryJob),
    (backend.execute draw (.appendTurn conversationId arguments) store).1 = some job →
      ∃ clock, summaryJob backend.config conversationId
        (((backend.found draw store conversationId).getD (.fresh clock)).append clock
          arguments.turn arguments.knowledgeBaseIds) = some job

theorem InProcess.appendTurn_issued {config : MemoryConfig} {clock : Clock}
    {memory : Conversations} {conversationId : String} {arguments : AppendArguments}
    {job : ConversationSummaryJob}
    (produced : (InProcess.appendTurn config clock conversationId arguments memory).1 =
      some job) :
    summaryJob config conversationId
      ((((purgeExpired config clock.purgedAt memory).get? conversationId).getD
        (.fresh clock)).append clock arguments.turn arguments.knowledgeBaseIds) = some job := by
  rw [InProcess.appendTurn] at produced
  by_cases unnamed : conversationId = ""
  · rw [if_pos unnamed] at produced
    cases produced
  · rw [if_neg unnamed] at produced
    exact produced

theorem Redis.appendTurn_issued {config : MemoryConfig} {draw : RedisDraw}
    {memory : RedisMemory} {conversationId : String} {arguments : AppendArguments}
    {job : ConversationSummaryJob}
    (produced : (Redis.appendTurn config draw conversationId arguments memory).1 = some job) :
    summaryJob config conversationId
      (((Redis.loadState config draw conversationId memory).1.getD
        (.fresh draw.clock)).append draw.clock arguments.turn arguments.knowledgeBaseIds) =
          some job := by
  rw [Redis.appendTurn] at produced
  by_cases unnamed : conversationId = ""
  · rw [if_pos unnamed] at produced
    cases produced
  · rw [if_neg unnamed] at produced
    exact produced

theorem InProcess.issues (config : MemoryConfig) : (inProcess config).Issues :=
  fun clock _ _ _ _ produced => ⟨clock, InProcess.appendTurn_issued produced⟩

theorem Redis.issues (config : MemoryConfig) : (inRedis config).Issues :=
  fun draw _ _ _ _ produced => ⟨draw.clock, Redis.appendTurn_issued produced⟩

namespace Backend

variable (backend : Backend)

/-- Appends are sequenced, durable tails are sorted, and the summary that is applied is of a
job that an append has returned. -/
def Sequenced (past : List backend.Event) (event : backend.Event) : Prop :=
  match event.method with
  | .appendTurn _ arguments => ∃ sequence, arguments.assistantSequence = some sequence
  | .hydrateIfAbsent _ snapshot => Ordered (max 0 snapshot.throughSequence) snapshot.turns
  | .replaceFromDurable _ snapshot => Ordered (max 0 snapshot.throughSequence) snapshot.turns
  | .applySummary job _ =>
      ∃ earlier draw conversationId arguments,
        earlier ++ [⟨draw, .appendTurn conversationId arguments⟩] <+: past ∧
          (backend.execute draw (.appendTurn conversationId arguments)
            (backend.runFrom backend.empty earlier)).1 = some job
  | _ => True

/-- Every call of a run is sequenced. -/
def SequencedRun (events : List backend.Event) : Prop :=
  ∀ past event, past ++ [event] <+: events → backend.Sequenced past event

/-- The turns of every state are ordered. -/
def KeepsOrder (past : List backend.Event) : Prop :=
  ∀ conversationId state,
    backend.stored (backend.runFrom backend.empty past) conversationId = some state →
      state.Ordered ∧ 0 ≤ state.summaryThroughSequence

variable {backend}

theorem KeepsOrder.found (lawful : backend.Lawful) {past : List backend.Event}
    (keeps : backend.KeepsOrder past) {draw : backend.Draw} {conversationId : String}
    {state : ConversationState}
    (found : backend.found draw (backend.runFrom backend.empty past) conversationId =
      some state) :
    state.Ordered ∧ 0 ≤ state.summaryThroughSequence := by
  obtain ⟨stored, present, alike⟩ := lawful.found _ _ _ state found
  obtain ⟨ordered, cursor⟩ := keeps conversationId stored present
  rw [ConversationState.Ordered, alike.turns, alike.summaryThroughSequence] at ordered
  rw [alike.summaryThroughSequence] at cursor
  exact ⟨ordered, cursor⟩

theorem ordered_fresh (clock : Clock) : (ConversationState.fresh clock).Ordered :=
  ordered_nil

/-- The jobs that appends return are ordered. -/
theorem KeepsOrder.job (lawful : backend.Lawful) (issues : backend.Issues)
    {past : List backend.Event} (keeps : backend.KeepsOrder past) {draw : backend.Draw}
    {conversationId : String} {arguments : AppendArguments} {job : ConversationSummaryJob}
    {sequence : Int} (sequenced : arguments.assistantSequence = some sequence)
    (produced : (backend.execute draw (.appendTurn conversationId arguments)
      (backend.runFrom backend.empty past)).1 = some job) : job.Ordered := by
  obtain ⟨clock, issued⟩ := issues draw _ conversationId arguments job produced
  have before : ∀ state, (backend.found draw (backend.runFrom backend.empty past)
      conversationId).getD (.fresh clock) = state →
        state.Ordered ∧ 0 ≤ state.summaryThroughSequence := by
    rintro state rfl
    cases found : backend.found draw (backend.runFrom backend.empty past) conversationId with
    | none => exact ⟨ordered_fresh clock, le_rfl⟩
    | some state => exact keeps.found lawful found
  generalize (backend.found draw (backend.runFrom backend.empty past) conversationId).getD
    (.fresh clock) = state at issued before
  obtain ⟨ordered, cursor⟩ := before state rfl
  have next := @ConversationState.Ordered.append state clock arguments.turn
    arguments.knowledgeBaseIds sequence ordered sequenced
  have some : (state.append clock arguments.turn arguments.knowledgeBaseIds).state.turns ≠ [] := by
    intro empty
    have added := (summaryJob_some issued).1
    change (insertTurnBySequence state arguments.turn).isSome = true at added
    obtain ⟨turns, inserted⟩ := Option.isSome_iff_exists.mp added
    change (insertTurnBySequence state arguments.turn).getD state.turns = [] at empty
    rw [inserted, Option.getD_some] at empty
    rw [insertTurnBySequence] at inserted
    have shown : arguments.turn.assistantSequence = some sequence := sequenced
    rw [shown] at inserted
    dsimp only at inserted
    split at inserted
    · cases inserted
    · have member := (mem_insertAtSequence inserted).mpr (.inl rfl)
      rw [empty] at member
      cases member
  obtain ⟨turns, summarizes⟩ := summaryJob_turns issued some
  refine ⟨summarizes, ?_⟩
  rw [turns]
  exact next.lower cursor

theorem Lawful.keepsOrder_concat (lawful : backend.Lawful) (issues : backend.Issues)
    {past : List backend.Event} {event : backend.Event}
    (earlier : ∀ before, before <+: past → backend.KeepsOrder before)
    (run : backend.SequencedRun (past ++ [event])) : backend.KeepsOrder (past ++ [event]) := by
  intro conversationId state present
  have sequenced := run past event List.prefix_rfl
  rw [runFrom, run_concat] at present
  rcases lawful.stems _ event conversationId state present with
    made | ⟨old, oldFound, alike⟩
  · cases made with
    | created draw _ arguments clock _ =>
        obtain ⟨sequence, given⟩ := sequenced
        exact ⟨(ordered_fresh clock).append given, le_rfl⟩
    | appended draw _ arguments clock old found =>
        obtain ⟨sequence, given⟩ := sequenced
        obtain ⟨ordered, cursor⟩ := (earlier past List.prefix_rfl).found lawful found
        exact ⟨ordered.append given, cursor⟩
    | hydrated draw _ snapshot createdAt updatedAt installed =>
        exact ⟨sequenced, le_max_left 0 _⟩
    | replaced draw _ snapshot createdAt updatedAt installed =>
        exact ⟨sequenced, le_max_left 0 _⟩
    | summarized draw job summary updatedAt old found version applied =>
        obtain ⟨before, reader, other, arguments, taken, produced⟩ := sequenced
        obtain ⟨sequence, given⟩ := run before ⟨reader, .appendTurn other arguments⟩
          (taken.trans (List.prefix_append _ _))
        have shorter := (List.prefix_append before _).trans taken
        have ordered := (earlier before shorter).job lawful issues given produced
        refine ⟨ordered.summarize, ?_⟩
        have cursor := ((earlier past List.prefix_rfl).found lawful found).2
        change 0 ≤ job.throughSequence.getD old.summaryThroughSequence
        cases through : job.throughSequence with
        | none => exact cursor
        | some sequence => exact throughSequence_nonneg through
  · obtain ⟨ordered, cursor⟩ := earlier past List.prefix_rfl conversationId old oldFound
    rw [ConversationState.Ordered, alike.turns, alike.summaryThroughSequence] at ordered
    rw [alike.summaryThroughSequence] at cursor
    exact ⟨ordered, cursor⟩

theorem Lawful.keepsOrder (lawful : backend.Lawful) (issues : backend.Issues)
    {events : List backend.Event} (run : backend.SequencedRun events) :
    ∀ past, past <+: events → backend.KeepsOrder past := by
  induction events using List.reverseRecOn with
  | nil =>
      intro past within
      rw [List.prefix_nil.mp within]
      intro conversationId state present
      rw [runFrom, run_nil, lawful.initial] at present
      cases present
  | append_singleton events event induction =>
      have shorter : backend.SequencedRun events :=
        fun past other within => run past other (within.trans (List.prefix_append _ _))
      intro past within
      rcases List.prefix_concat_iff.mp within with rfl | before
      · exact lawful.keepsOrder_concat issues (induction shorter) run
      · exact induction shorter past before

end Backend

theorem Backend.SequencedRun.concat {backend : Backend} {past : List backend.Event}
    {event : backend.Event} (run : backend.SequencedRun past)
    (sequenced : backend.Sequenced past event) : backend.SequencedRun (past ++ [event]) := by
  intro before other within
  rcases List.prefix_concat_iff.mp within with same | shorter
  · obtain ⟨rfl, last⟩ := List.append_inj' same rfl
    cases last
    exact sequenced
  · exact run before other shorter

def sampleCall (user assistant : String) (sequence : Int) : Clock × AppendArguments :=
  (⟨1, 1, 1⟩, { user := user, assistant := assistant, assistantSequence := some sequence })

end RAGuardian.Memory
