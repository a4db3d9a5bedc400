import Mathlib.Data.Finset.Basic
import RAGuardian.History.Schema

/-! # Warm conversation states

What the warm memory holds for one conversation, how it is rendered, and how a
turn, a summary or a durable snapshot changes it. Both backends of the memory
store work on these states. -/

namespace RAGuardian.Memory

open Text
open History (Timestamp)

def summaryThresholdChars : Nat := 12000
def promptMaxChars : Nat := 8000
def retrievalMaxChars : Nat := 3000
def summaryMaxChars : Nat := 3000
def maxStoredMessageChars : Nat := 6000
def stateSchemaVersion : Int := 1

/-- The constructor arguments of the store, `recent_turns_to_keep` as the
constructor corrects it. -/
structure MemoryConfig where
  summaryThresholdChars : Nat := Memory.summaryThresholdChars
  promptMaxChars : Nat := Memory.promptMaxChars
  retrievalMaxChars : Nat := Memory.retrievalMaxChars
  summaryMaxChars : Nat := Memory.summaryMaxChars
  recentTurnsToKeep : Nat := 4
  recentTurnsToKeep_pos : 0 < recentTurnsToKeep := by decide
  ttlSeconds : Int := 21600
  maxItems : Nat := 100

/-- The configuration with the constants of the module. -/
def MemoryConfig.standard : MemoryConfig := {}

/-- The readings of `time.time()` one call makes, in order. -/
structure Clock where
  purgedAt : Timestamp
  createdAt : Timestamp
  updatedAt : Timestamp
deriving DecidableEq, Repr

structure ConversationTurn where
  user : String
  assistant : String
  assistantSequence : Option Int
deriving DecidableEq, Repr

structure ConversationSummaryJob where
  conversationId : String
  previousSummary : String
  turnsToSummarize : List ConversationTurn
  recentTurns : List ConversationTurn
  version : Int
deriving DecidableEq, Repr

structure ConversationState where
  summary : String
  summaryThroughSequence : Int
  turns : List ConversationTurn
  knowledgeBaseIds : Finset String
  createdAt : Timestamp
  updatedAt : Timestamp
  version : Int
deriving DecidableEq

/-! ## Texts -/

def abbreviationMarker : String := "\n[...contenuto abbreviato...]\n"

/-- `_clamp_text` -/
def clampText (value : String) (maxChars : Nat) : String :=
  let value := strip value
  if value.length ≤ maxChars then value
  else
    let head := maxChars / 2
    let tail : Int := maxChars - head - abbreviationMarker.length
    if tail ≤ 0 then truncate maxChars value
    else rstrip (truncate head value) ++ abbreviationMarker ++ lstrip (last tail.toNat value)

/-- `_trim_left` -/
def trimLeft (value : String) (maxChars : Nat) : String :=
  if value.length ≤ maxChars then value
  else
    -- `value[-0:]` is the whole text.
    "[...parte iniziale della conversazione omessa...]\n" ++
      if maxChars = 0 then value else last maxChars value

def ConversationTurn.format (turn : ConversationTurn) : String :=
  "Utente:\n" ++ turn.user ++ "\n\nAssistente:\n" ++ turn.assistant

/-- `format_turns` -/
def formatTurns (turns : List ConversationTurn) : String :=
  "\n\n".intercalate (turns.map ConversationTurn.format)

/-- `_render_state` -/
def renderState (state : ConversationState) : String :=
  "\n\n".intercalate
    ((if state.summary = "" then []
      else ["Riassunto della conversazione precedente:\n" ++ state.summary]) ++
      if state.turns = [] then [] else ["Turni recenti:\n" ++ formatTurns state.turns])

/-- `_state_size` -/
def stateSize (state : ConversationState) : Nat :=
  (renderState state).length

/-- `fallback_summary` -/
def fallbackSummary (job : ConversationSummaryJob) : String :=
  clampText
    (strip ("\n\n".intercalate
      ((if job.previousSummary = "" then [] else [job.previousSummary]) ++
        let turns := formatTurns job.turnsToSummarize
        if turns = "" then [] else [turns])))
    summaryMaxChars

/-! ## Sequences -/

/-- `ConversationSummaryJob.through_sequence` -/
def ConversationSummaryJob.throughSequence (job : ConversationSummaryJob) : Option Int :=
  if job.turnsToSummarize = [] then none
  else
    (job.turnsToSummarize.mapM ConversationTurn.assistantSequence).map fun sequences =>
      sequences.foldl max 0

/-- The assistant sequences a list of turns has. -/
def sequencesOf (turns : List ConversationTurn) : List Int :=
  turns.filterMap (·.assistantSequence)

/-- `_durable_state_sequence` -/
def durableStateSequence (turns : List ConversationTurn) (throughSequence : Int) : Int :=
  (sequencesOf turns).foldl max (max 0 throughSequence)

/-- `_conversation_state_sequence` -/
def conversationStateSequence (state : ConversationState) : Int :=
  durableStateSequence state.turns state.summaryThroughSequence

/-- The turns with a sequenced turn among them at its place, if no turn has its
sequence yet. -/
def insertAtSequence (sequence : Int) (turn : ConversationTurn) :
    List ConversationTurn → Option (List ConversationTurn)
  | [] => some [turn]
  | existing :: rest =>
      match existing.assistantSequence with
      | none => (insertAtSequence sequence turn rest).map (existing :: ·)
      | some present =>
          if present = sequence then none
          else if sequence < present then some (turn :: existing :: rest)
          else (insertAtSequence sequence turn rest).map (existing :: ·)

/-- `_insert_turn_by_sequence`, with the turns it leaves if it added the turn. -/
def insertTurnBySequence (state : ConversationState) (turn : ConversationTurn) :
    Option (List ConversationTurn) :=
  match turn.assistantSequence with
  | none => some (state.turns ++ [turn])
  | some sequence =>
      if sequence ≤ state.summaryThroughSequence then none
      else insertAtSequence sequence turn state.turns

/-- `range(2, target + 1, 2)` for a target that is not negative. -/
def evenSequences (target : Nat) : List Int :=
  (List.range (target / 2)).map fun (index : Nat) => 2 * ((index : Int) + 1)

/-- `_state_covers_sequence` -/
def stateCoversSequence (state : Option ConversationState) (assistantSequence : Int) : Bool :=
  match state with
  | none => false
  | some state =>
      let target := (max 0 assistantSequence).toNat
      let through := max 0 state.summaryThroughSequence
      (evenSequences target).all fun sequence =>
        !(through < sequence) || (sequencesOf state.turns).contains sequence

/-! ## Changes of a state -/

/-- `{str(value) for value in (values or ()) if value}` -/
def identifierSet (values : List String) : Finset String :=
  (values.filter (· ≠ "")).toFinset

/-- `ConversationState()` -/
def ConversationState.fresh (clock : Clock) : ConversationState where
  summary := ""
  summaryThroughSequence := 0
  turns := []
  knowledgeBaseIds := ∅
  createdAt := clock.createdAt
  updatedAt := clock.createdAt
  version := 0

/-- What `append_turn` makes of a state: whether the turn was added, whether
anything but the time of use changed, and the state itself. -/
structure Appended where
  added : Bool
  changed : Bool
  state : ConversationState

def ConversationState.append (state : ConversationState) (clock : Clock)
    (turn : ConversationTurn) (knowledgeBaseIds : List String) : Appended :=
  let turns := insertTurnBySequence state turn
  let ids := state.knowledgeBaseIds ∪ identifierSet knowledgeBaseIds
  let changed := turns.isSome || ids ≠ state.knowledgeBaseIds
  { added := turns.isSome
    changed := changed
    state := { state with
      turns := turns.getD state.turns
      knowledgeBaseIds := ids
      updatedAt := clock.updatedAt
      version := if changed then state.version + 1 else state.version } }

/-- `_summary_split_index` -/
def summarySplitIndex (config : MemoryConfig) (turns : List ConversationTurn) : Nat :=
  if turns.length ≤ config.recentTurnsToKeep then turns.length - 1
  else turns.length - config.recentTurnsToKeep

/-- The summary job `append_turn` returns for the state it left. -/
def summaryJob (config : MemoryConfig) (conversationId : String) (appended : Appended) :
    Option ConversationSummaryJob :=
  let state := appended.state
  if appended.added = false then none
  else if stateSize state ≤ config.summaryThresholdChars then none
  else
    let splitIndex := summarySplitIndex config state.turns
    if splitIndex = 0 then none
    else
      some {
        conversationId := conversationId
        previousSummary := state.summary
        turnsToSummarize := state.turns.take splitIndex
        recentTurns := state.turns.drop splitIndex
        version := state.version }

/-- The arguments of `hydrate_if_absent` and `replace_from_durable`. -/
structure DurableSnapshot where
  summary : String
  turns : List ConversationTurn
  knowledgeBaseIds : List String
  version : Option Int
  throughSequence : Int

/-- The state a durable snapshot installs. -/
def DurableSnapshot.state (config : MemoryConfig) (snapshot : DurableSnapshot)
    (createdAt updatedAt : Timestamp) : ConversationState where
  summary := clampText snapshot.summary config.summaryMaxChars
  summaryThroughSequence := max 0 snapshot.throughSequence
  turns := snapshot.turns
  knowledgeBaseIds := identifierSet snapshot.knowledgeBaseIds
  createdAt := createdAt
  updatedAt := updatedAt
  version := snapshot.version.getD snapshot.turns.length

/-- What `apply_summary` makes of the state of the job's version. -/
def ConversationState.summarize (config : MemoryConfig) (state : ConversationState)
    (updatedAt : Timestamp) (job : ConversationSummaryJob) (summary : String) :
    ConversationState :=
  { state with
    summary := clampText (strip summary) config.summaryMaxChars
    turns := job.recentTurns
    summaryThroughSequence := job.throughSequence.getD state.summaryThroughSequence
    updatedAt := updatedAt
    version := state.version + 1 }

/-- The arguments of `append_turn`. -/
structure AppendArguments where
  user : String
  assistant : String
  knowledgeBaseIds : List String := []
  assistantSequence : Option Int := none

/-- The turn `append_turn` stores. -/
def AppendArguments.turn (arguments : AppendArguments) : ConversationTurn where
  user := clampText arguments.user maxStoredMessageChars
  assistant := clampText arguments.assistant maxStoredMessageChars
  assistantSequence := arguments.assistantSequence

end RAGuardian.Memory
