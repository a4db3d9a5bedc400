import RAGuardian.Foundation.Window
import RAGuardian.History.Pagination
import RAGuardian.Memory.Coverage

/-! # Hydration of the warm memory

How the service rebuilds the warm state of a conversation from its transcript:
the turns after the summary cursor are read a page at a time, all but the last
ones are folded into the summary, and the cursor moves on with them. -/

namespace RAGuardian.Service

open Execution History Memory Pagination

/-! ## The compacted tail -/

def hydrationLimitMessages : Int := 200

inductive HydrationError
  | history (error : StoreError)
  | runtimeError (message : String)

/-- What the loop of `_compacted_hydration_tail` carries along. -/
structure HydrationTail where
  summary : String
  throughSequence : Int
  recentTurns : List ConversationTurn
  pendingUser : Option Message

/-- A turn joins the recent ones, and the oldest of them is summarized if there
are too many. -/
def HydrationTail.addTurn (scopeKey : String) (summaryVersion : Int) (keep : Nat)
    (tail : HydrationTail) (turn : ConversationTurn) : HydrationTail :=
  match tail.recentTurns ++ [turn] with
  | [] => tail
  | evicted :: rest =>
      if keep < (evicted :: rest).length then
        { tail with
          summary := fallbackSummary {
            conversationId := scopeKey
            previousSummary := tail.summary
            turnsToSummarize := [evicted]
            recentTurns := rest
            version := summaryVersion }
          throughSequence := evicted.assistantSequence.getD 0
          recentTurns := rest }
      else
        { tail with recentTurns := evicted :: rest }

/-- The loop body on one message. -/
def HydrationTail.visit (scopeKey : String) (summaryVersion : Int) (keep : Nat)
    (tail : HydrationTail) (message : Message) : HydrationTail :=
  match message.role, tail.pendingUser with
  | .user, _ => { tail with pendingUser := some message }
  | .assistant, none => tail
  | .assistant, some user =>
      HydrationTail.addTurn scopeKey summaryVersion keep { tail with pendingUser := none } {
        user := user.content
        assistant := message.content
        assistantSequence := some message.sequence }

/-- The loop over the pages, with the number of the last page. -/
def readHydrationTail (scopeKey historyId : String) (summaryVersion : Int) (keep : Nat)
    (databaseAt : Nat → Database) :
    Nat → Nat → Int → HydrationTail → Except HydrationError (Option (HydrationTail × Nat))
  | 0, _, _, _ => .ok none
  | fuel + 1, page, afterSequence, tail => do
      let (messages, nextAfter) ← (listMessagesAfterSequence historyId afterSequence
        hydrationLimitMessages (databaseAt page)).mapError .history
      let tail := messages.foldl (HydrationTail.visit scopeKey summaryVersion keep) tail
      match nextAfter with
      | none => return some (tail, page)
      | some next =>
          if (next : Int) ≤ afterSequence then
            throw (.runtimeError "conversation message cursor did not advance")
          else
            readHydrationTail scopeKey historyId summaryVersion keep databaseAt fuel (page + 1)
              next tail

/-- What `_compacted_hydration_tail` returns. -/
structure CompactedTail where
  summary : String
  summaryVersion : Int
  throughSequence : Int
  recentTurns : List ConversationTurn

/-- `_compacted_hydration_tail` with the database as it is at each page and, after
the last page, at the update of the summary. Without enough fuel there is no
result. -/
def compactedHydrationTail (keep : Nat) (scopeKey : String) (conversation : Conversation)
    (databaseAt : Nat → Database) (draws : Draws) (fuel : Nat) :
    Except HydrationError (Option (Option CompactedTail × Database)) := do
  let version := conversation.summaryVersion
  let originalThrough := conversation.summaryThroughSequence
  let start : HydrationTail := ⟨conversation.summary, originalThrough, [], none⟩
  match ← readHydrationTail scopeKey conversation.id version keep databaseAt fuel 0
      originalThrough start with
  | none => return none
  | some (tail, last) =>
      let database := databaseAt (last + 1)
      if originalThrough < tail.throughSequence then
        let (accepted, database) :=
          updateSummary draws scopeKey tail.summary version tail.throughSequence database
        if accepted then
          return some (some ⟨tail.summary, version + 1, tail.throughSequence, tail.recentTurns⟩,
            database)
        else
          return some (none, database)
      else
        return some (some ⟨tail.summary, version, tail.throughSequence, tail.recentTurns⟩,
          database)

/-! ## Hydration for a prompt -/

/-- What one attempt meets: the database at each of its requests, the draws of its
update of the summary, the warm memory and its draws when the state is replaced,
and whether the memory store fails there. -/
structure Attempt (backend : Backend) where
  databaseAt : Nat → Database
  draws : Draws
  memory : backend.Store
  memoryDraw : backend.Draw
  memoryFails : Bool

/-- `_hydrate_for_prompt` with `replace`, and the warm memory it leaves. -/
def hydrateForPrompt {backend : Backend} (enabled : Bool) (scopeKey warmConversationId : String)
    (attempt : Attempt backend) (fuel : Nat) : Option (Option Bool × backend.Store) :=
  if enabled = false ∨ warmConversationId = "" then some (some false, attempt.memory)
  else
    match getByScopeKey scopeKey (attempt.databaseAt 0) with
    | .error _ => some (some false, attempt.memory)
    | .ok none => some (some false, attempt.memory)
    | .ok (some view) =>
        match compactedHydrationTail backend.config.recentTurnsToKeep scopeKey view.conversation
            (fun page => attempt.databaseAt (page + 1)) attempt.draws fuel with
        | .error _ => some (some false, attempt.memory)
        | .ok none => none
        | .ok (some (none, _)) => some (none, attempt.memory)
        | .ok (some (some compacted, _)) =>
            if attempt.memoryFails then some (some false, attempt.memory)
            else
              let durableIds := (view.knowledgeBases.map (·.knowledgeBaseId)).filter (· ≠ "")
              let (replaced, memory) := backend.execute attempt.memoryDraw
                (.replaceFromDurable warmConversationId {
                  summary := compacted.summary
                  turns := compacted.recentTurns
                  knowledgeBaseIds := durableIds
                  version := some compacted.summaryVersion
                  throughSequence := compacted.throughSequence }) attempt.memory
              some (some replaced, memory)

/-- The attempts `rehydrate_for_prompt` has left. -/
def rehydrateAttempts {backend : Backend} (enabled : Bool) (scopeKey warmConversationId : String)
    (fuel : Nat) : List (Attempt backend) → Option (Option (Attempt backend × backend.Store))
  | [] => some none
  | attempt :: attempts => do
      let (hydrated, memory) ←
        hydrateForPrompt enabled scopeKey warmConversationId attempt fuel
      if hydrated = some true then
        return some (attempt, memory)
      else
        rehydrateAttempts enabled scopeKey warmConversationId fuel attempts

/-- `rehydrate_for_prompt`. When it returns `True` its result is the attempt that
succeeded, with the warm memory the attempt left. -/
def rehydrateForPrompt {backend : Backend} (enabled : Bool) (scopeKey warmConversationId : String)
    (attempts : Fin 3 → Attempt backend) (fuel : Nat) :
    Option (Option (Attempt backend × backend.Store)) :=
  rehydrateAttempts enabled scopeKey warmConversationId fuel (List.ofFn attempts)

/-! ## Turns of a transcript -/

/-- The turns of messages that alternate between the user and the assistant. -/
def turnsOf : List Message → List ConversationTurn
  | user :: assistant :: rest =>
      ⟨user.content, assistant.content, some assistant.sequence⟩ :: turnsOf rest
  | _ => []

theorem assistant_of_turnsOf {messages : List Message} {turn : ConversationTurn}
    (member : turn ∈ turnsOf messages) :
    ∃ message ∈ messages, turn.assistantSequence = some (message.sequence : Int) := by
  induction messages using turnsOf.induct with
  | case1 user assistant rest induction =>
      rw [turnsOf] at member
      rcases List.mem_cons.mp member with rfl | member
      · exact ⟨assistant, by simp, rfl⟩
      · obtain ⟨message, listed, same⟩ := induction member
        exact ⟨message, by simp [listed], same⟩
  | case2 messages short =>
      rw [turnsOf] at member
      · cases member
      · exact short

/-- A summary with one more turn in it. -/
def summarizeTurn (scopeKey : String) (summary : String) (turn : ConversationTurn) : String :=
  fallbackSummary {
    conversationId := scopeKey
    previousSummary := summary
    turnsToSummarize := [turn]
    recentTurns := []
    version := 0 }

/-- The cursor behind a list of turns. -/
def throughOf (cursor : Int) (turns : List ConversationTurn) : Int :=
  (turns.getLast?.bind (·.assistantSequence)).getD cursor

section Tail

variable {scopeKey : String} {summaryVersion : Int} {keep : Nat}

/-- What the loop gathers from a turn that leaves the window. -/
def gather (scopeKey : String) (gathered : String × Int) (turn : ConversationTurn) :
    String × Int :=
  (summarizeTurn scopeKey gathered.1 turn, turn.assistantSequence.getD 0)

def HydrationTail.window (tail : HydrationTail) : (String × Int) × List ConversationTurn :=
  ((tail.summary, tail.throughSequence), tail.recentTurns)

theorem HydrationTail.addTurn_window (tail : HydrationTail) (turn : ConversationTurn) :
    (tail.addTurn scopeKey summaryVersion keep turn).window =
        Window.push keep (gather scopeKey) tail.window turn ∧
      (tail.addTurn scopeKey summaryVersion keep turn).pendingUser = tail.pendingUser := by
  rw [addTurn, Window.push, window, window]
  cases entered : tail.recentTurns ++ [turn] with
  | nil => simp at entered
  | cons evicted rest =>
      by_cases full : keep ≤ rest.length
      · simp [Nat.lt_succ_of_le full, full, gather, summarizeTurn, fallbackSummary]
      · have room : ¬ keep < rest.length + 1 := by omega
        simp [room, full]

theorem HydrationTail.foldl_addTurn (tail : HydrationTail) (turns : List ConversationTurn) :
    (turns.foldl (HydrationTail.addTurn scopeKey summaryVersion keep) tail).window =
        turns.foldl (Window.push keep (gather scopeKey)) tail.window ∧
      (turns.foldl (HydrationTail.addTurn scopeKey summaryVersion keep) tail).pendingUser =
        tail.pendingUser := by
  induction turns generalizing tail with
  | nil => exact ⟨rfl, rfl⟩
  | cons turn turns induction =>
      have step := @addTurn_window scopeKey summaryVersion keep tail turn
      have rest := induction (tail.addTurn scopeKey summaryVersion keep turn)
      rw [List.foldl_cons, List.foldl_cons, ← step.1, ← step.2]
      exact rest

/-- Over the messages of complete turns the loop adds one turn after the other. -/
theorem foldl_visit {first : Nat} {turns : List TurnRow} {messages : List Message}
    (alternate : messages.map (fun message => (message.sequence, message.turnId, message.role)) =
      exchanges first turns) (tail : HydrationTail) (settled : tail.pendingUser = none) :
    messages.foldl (HydrationTail.visit scopeKey summaryVersion keep) tail =
      (turnsOf messages).foldl (HydrationTail.addTurn scopeKey summaryVersion keep) tail := by
  induction turns generalizing first messages tail with
  | nil =>
      rw [exchanges, List.map_eq_nil_iff] at alternate
      subst alternate
      rfl
  | cons turn turns induction =>
      rw [exchanges] at alternate
      obtain ⟨user, others, rfl, userPlace, alternate⟩ := List.map_eq_cons_iff.mp alternate
      obtain ⟨assistant, rest, rfl, assistantPlace, alternate⟩ := List.map_eq_cons_iff.mp alternate
      simp only [Prod.mk.injEq] at userPlace assistantPlace
      have added : HydrationTail.visit scopeKey summaryVersion keep
          (HydrationTail.visit scopeKey summaryVersion keep tail user) assistant =
            tail.addTurn scopeKey summaryVersion keep
              ⟨user.content, assistant.content, some assistant.sequence⟩ := by
        rw [HydrationTail.visit, HydrationTail.visit, userPlace.2.2, assistantPlace.2.2]
        simp only
        congr 1
        rw [← settled]
      rw [List.foldl_cons, List.foldl_cons, added, turnsOf, List.foldl_cons]
      exact induction alternate _ ((HydrationTail.addTurn_window tail _).2.trans settled)

theorem throughOf_cons {turn : ConversationTurn} {turns : List ConversationTurn} (cursor : Int)
    (sequenced : ∀ other ∈ turn :: turns, other.assistantSequence.isSome = true) :
    throughOf cursor (turn :: turns) = throughOf (turn.assistantSequence.getD 0) turns := by
  cases turns with
  | nil =>
      obtain ⟨sequence, same⟩ :=
        Option.isSome_iff_exists.mp (sequenced turn List.mem_cons_self)
      simp [throughOf, same]
  | cons other turns =>
      have member := List.getLast_mem (List.cons_ne_nil other turns)
      obtain ⟨sequence, same⟩ := Option.isSome_iff_exists.mp
        (sequenced _ (List.mem_cons_of_mem turn member))
      have last := List.getLast?_eq_some_getLast (List.cons_ne_nil other turns)
      rw [throughOf, throughOf, List.getLast?_cons_cons, last, Option.bind_some, same]
      rfl

theorem foldl_gather (gathered : String × Int) {turns : List ConversationTurn}
    (sequenced : ∀ turn ∈ turns, turn.assistantSequence.isSome = true) :
    turns.foldl (gather scopeKey) gathered =
      (turns.foldl (summarizeTurn scopeKey) gathered.1, throughOf gathered.2 turns) := by
  induction turns generalizing gathered with
  | nil => rfl
  | cons turn turns induction =>
      have rest := induction (gather scopeKey gathered turn)
        fun other member => sequenced other (List.mem_cons_of_mem turn member)
      rw [List.foldl_cons, List.foldl_cons, rest, throughOf_cons gathered.2 sequenced, gather]

/-- The whole loop: the window has the last turns, and the others are summarized. -/
theorem foldl_visit_window {first : Nat} {turns : List TurnRow} {messages : List Message}
    (alternate : messages.map (fun message => (message.sequence, message.turnId, message.role)) =
      exchanges first turns) (summary : String) (cursor : Int) :
    (messages.foldl (HydrationTail.visit scopeKey summaryVersion keep)
        ⟨summary, cursor, [], none⟩).window =
      (((Window.past keep (turnsOf messages)).foldl (summarizeTurn scopeKey) summary,
        throughOf cursor (Window.past keep (turnsOf messages))),
        Window.recent keep (turnsOf messages)) := by
  have sequenced : ∀ turn ∈ Window.past keep (turnsOf messages),
      turn.assistantSequence.isSome = true := fun turn member => by
    obtain ⟨message, -, same⟩ := assistant_of_turnsOf (List.mem_of_mem_take member)
    rw [same, Option.isSome_some]
  rw [foldl_visit alternate _ rfl, (HydrationTail.foldl_addTurn _ _).1, HydrationTail.window,
    Window.foldl_push _ _ (Nat.zero_le keep), List.nil_append, foldl_gather _ sequenced]

end Tail

/-! ## The pages -/

/-- The loop reads on until the last page, and its cursor always advances. -/
theorem readHydrationTail_eq {scopeKey historyId : String} {summaryVersion : Int} {keep : Nat}
    {databaseAt : Nat → Database} (readable : ∀ page, Readable (databaseAt page) historyId)
    (fuel page : Nat) (after : Int) (tail : HydrationTail)
    {read : Option (List Message × Nat)}
    (followed : followAfter historyId (fun _ => hydrationLimitMessages) databaseAt fuel page after =
      .ok read) :
    readHydrationTail scopeKey historyId summaryVersion keep databaseAt fuel page after tail =
      .ok (read.map fun (messages, last) =>
        (messages.foldl (HydrationTail.visit scopeKey summaryVersion keep) tail, last)) := by
  induction fuel generalizing page after tail read with
  | zero =>
      cases followed
      rfl
  | succ fuel induction =>
      rw [followAfter, (readable page).listMessagesAfterSequence_eq] at followed
      rw [readHydrationTail, (readable page).listMessagesAfterSequence_eq]
      simp only [bind, Except.bind, Except.mapError] at followed ⊢
      cases more : (pageAbove MessageOf.sequence after (pageSize hydrationLimitMessages)
          ((databaseAt page).messagesOf historyId)).next with
      | none =>
          rw [more] at followed
          cases followed
          rfl
      | some next =>
          obtain ⟨⟨entry, past, same⟩, -, -⟩ := (readable page).ascending.pageAbove_more more
          have advanced : ¬ (next : Int) ≤ after := by
            have := ((mem_above MessageOf.sequence).mp past).2
            omega
          simp only [more] at followed
          cases rest : followAfter historyId (fun _ => hydrationLimitMessages) databaseAt fuel
              (page + 1) next with
          | error failure =>
              rw [rest] at followed
              cases followed
          | ok newer =>
              rw [rest] at followed
              cases followed
              simp only [if_neg advanced]
              rw [induction (page + 1) next _ rest]
              cases newer with
              | none => rfl
              | some newer => simp [List.foldl_append]

/-! ## The messages after the cursor -/

/-- The messages past a turn are those of the turns after it. -/
theorem exchanges_above {turns : List TurnRow} {count : Nat} (within : count ≤ turns.length) :
    (exchanges 1 turns).filter (fun place => decide ((2 * count : Int) < place.1)) =
      exchanges (1 + 2 * count) (turns.drop count) := by
  have parts := exchanges_append 1 (turns.take count) (turns.drop count)
  rw [List.take_append_drop, List.length_take, Nat.min_eq_left within] at parts
  rw [parts, List.filter_append, List.filter_eq_nil_iff.mpr, List.filter_eq_self.mpr,
    List.nil_append]
  · intro place member
    obtain ⟨index, bound, rfl | rfl⟩ := mem_exchanges member
    · exact decide_eq_true (by push_cast; omega)
    · exact decide_eq_true (by push_cast; omega)
  · intro place member
    obtain ⟨index, bound, placed⟩ := mem_exchanges member
    rw [List.length_take] at bound
    rcases placed with rfl | rfl
    · simp only [decide_eq_true_eq, not_lt]
      push_cast
      omega
    · simp only [decide_eq_true_eq, not_lt]
      push_cast
      omega

/-- A summary cursor that no turn or a turn of the transcript is behind. -/
def OnTurn (database : Database) (conversation : Conversation) : Prop :=
  conversation.summaryThroughSequence = 0 ∨
    ∃ row ∈ database.messagesOf conversation.id,
      row.role = .assistant ∧ conversation.summaryThroughSequence = row.sequence

/-- The messages past a cursor on a turn are the exchanges of the turns after it. -/
theorem alternate_above {database : Database} {row : ConversationRow} {turns : List TurnRow}
    (history : LinearHistory database row turns) {cursor : Int}
    (onTurn : cursor = 0 ∨ ∃ message ∈ database.messagesOf row.id,
      message.role = .assistant ∧ cursor = message.sequence) :
    ∃ count ≤ turns.length, cursor = 2 * (count : Int) ∧
      ((above MessageOf.sequence cursor (database.messagesOf row.id)).map MessageOf.shown).map
        (fun message => (message.sequence, message.turnId, message.role)) =
          exchanges (1 + 2 * count) (turns.drop count) := by
  obtain ⟨count, within, same⟩ : ∃ count ≤ turns.length, cursor = 2 * (count : Int) := by
    rcases onTurn with rfl | ⟨message, listed, assistant, rfl⟩
    · exact ⟨0, Nat.zero_le _, rfl⟩
    · have place : message.place ∈ exchanges 1 turns :=
        history.messages ▸ List.mem_map_of_mem listed
      obtain ⟨index, bound, placed | placed⟩ := mem_exchanges place
      · simp [MessageOf.place, assistant] at placed
      · refine ⟨index + 1, bound, ?_⟩
        have sequence := congrArg Prod.fst placed
        simp only [MessageOf.place] at sequence
        omega
  refine ⟨count, within, same, ?_⟩
  rw [← exchanges_above within, ← history.messages, List.filter_map, List.map_map, same]
  rfl

/-- The assistant sequences of complete turns. -/
theorem turnsOf_sequences {first : Nat} {turns : List TurnRow} {messages : List Message}
    (alternate : messages.map (fun message => (message.sequence, message.turnId, message.role)) =
      exchanges first turns) :
    (turnsOf messages).map (·.assistantSequence) =
      (List.range turns.length).map fun index => some ((first + 2 * index + 1 : Nat) : Int) := by
  induction turns generalizing first messages with
  | nil =>
      rw [exchanges, List.map_eq_nil_iff] at alternate
      subst alternate
      rfl
  | cons turn turns induction =>
      rw [exchanges] at alternate
      obtain ⟨user, others, rfl, userPlace, alternate⟩ := List.map_eq_cons_iff.mp alternate
      obtain ⟨assistant, rest, rfl, assistantPlace, alternate⟩ := List.map_eq_cons_iff.mp alternate
      have sequence : assistant.sequence = first + 1 := congrArg Prod.fst assistantPlace
      rw [turnsOf, List.map_cons, induction alternate, List.length_cons, List.range_succ_eq_map,
        List.map_cons, List.map_map, sequence]
      congr 1
      apply List.map_congr_left
      intro index _
      simp only [Function.comp_apply, Option.some.injEq]
      omega

/-! ## The result -/

/-- What the tail of a conversation is compacted to: the last turns after the
cursor, with the others in the summary and the cursor behind them. -/
structure Compacts (keep : Nat) (scopeKey : String) (conversation : Conversation)
    (turns : List ConversationTurn) (compacted : CompactedTail) : Prop where
  recentTurns : compacted.recentTurns = Window.recent keep turns
  summary : compacted.summary =
    (Window.past keep turns).foldl (summarizeTurn scopeKey) conversation.summary
  throughSequence : compacted.throughSequence =
    throughOf conversation.summaryThroughSequence (Window.past keep turns)
  summaryVersion : compacted.summaryVersion =
    conversation.summaryVersion + if Window.past keep turns = [] then 0 else 1

/-- The summary cursor stored under a scope key. -/
def CursorIs (database : Database) (scopeKey : String) (cursor : Int) : Prop :=
  ∀ row ∈ database.conversations, row.scopeKey = scopeKey → row.summaryThroughSequence = cursor

theorem updateSummary_cursorIs {draws : Draws} {scopeKey summary : String}
    {expectedVersion throughSequence : Int} {database : Database}
    (accepted : (updateSummary draws scopeKey summary expectedVersion throughSequence
      database).1 = true) :
    CursorIs (updateSummary draws scopeKey summary expectedVersion throughSequence database).2
      scopeKey throughSequence := by
  unfold updateSummary at accepted ⊢
  split at accepted
  · cases accepted
  · rename_i stored found
    split at accepted
    · cases accepted
    · rename_i current
      split at accepted
      · cases accepted
      · rename_i newer
        obtain ⟨member, keyed⟩ := Database.conversationByScope_eq_some.mp found
        simp only [if_neg current, if_neg newer]
        intro row updated inScope
        obtain ⟨old, oldMember, equal⟩ := Table.mem_update.mp updated
        by_cases same : old.id = stored.id
        · rw [if_pos (by simpa using same)] at equal
          exact equal ▸ rfl
        · rw [if_neg (by simpa using same)] at equal
          subst equal
          have alone := Table.eq_of_key_eq database.constraints.scopeKeys oldMember member
            (inScope.trans keyed.symm)
          exact absurd (congrArg ConversationOf.id alone) same

theorem getByScopeKey_eq_some {scopeKey : String} {database : Database}
    {view : ConversationView} (read : getByScopeKey scopeKey database = .ok (some view)) :
    ∃ row ∈ database.conversations, row.scopeKey = scopeKey ∧ row.id = view.conversation.id := by
  rw [getByScopeKey] at read
  cases found : database.conversationByScope scopeKey with
  | none =>
      rw [found] at read
      cases read
  | some row =>
      obtain ⟨member, keyed⟩ := Database.conversationByScope_eq_some.mp found
      simp only [found, viewConversation, bind_eq_ok, pure_eq_ok, Option.some.injEq] at read
      obtain ⟨conversation, decoded, rfl⟩ := read
      obtain ⟨promptRef, rfl⟩ := conversationRow_eq_ok decoded
      exact ⟨row, member, keyed, rfl⟩

/-- A cursor moves exactly when a turn leaves the window. -/
theorem throughOf_past {keep : Nat} {cursor : Int} {messages : List Message}
    (beyond : ∀ message ∈ messages, cursor < message.sequence) :
    cursor < throughOf cursor (Window.past keep (turnsOf messages)) ↔
      Window.past keep (turnsOf messages) ≠ [] := by
  constructor
  · intro moved empty
    rw [empty] at moved
    exact lt_irrefl cursor moved
  · intro nonempty
    have last := List.getLast?_eq_some_getLast nonempty
    obtain ⟨message, listed, same⟩ := assistant_of_turnsOf
      (List.mem_of_mem_take (List.getLast_mem nonempty))
    rw [throughOf, last, Option.bind_some, same]
    exact beyond message listed

/-- What one compaction returns and leaves, when it has read a list of turns before
a database. -/
structure CompactionResult (keep : Nat) (scopeKey : String) (conversation : Conversation)
    (draws : Draws) (turns : List ConversationTurn) (before : Database)
    (result : Option CompactedTail) (after : Database) : Prop where
  refused : result = none → Window.past keep turns ≠ [] ∧
    (updateSummary draws scopeKey
      ((Window.past keep turns).foldl (summarizeTurn scopeKey) conversation.summary)
      conversation.summaryVersion
      (throughOf conversation.summaryThroughSequence (Window.past keep turns)) before).1 = false
  compacts : ∀ compacted, result = some compacted →
    Compacts keep scopeKey conversation turns compacted
  cursor : ∀ compacted, result = some compacted →
    (Window.past keep turns = [] →
      CursorIs before scopeKey conversation.summaryThroughSequence) →
    CursorIs after scopeKey compacted.throughSequence

theorem compactedHydrationTail_result {keep : Nat} {scopeKey : String}
    {conversation : Conversation} {databaseAt : Nat → Database} {draws : Draws} {fuel last : Nat}
    {messages : List Message} {first : Nat} {later : List TurnRow}
    (readable : ∀ page, Readable (databaseAt page) conversation.id)
    (followed : followAfter conversation.id (fun _ => hydrationLimitMessages) databaseAt fuel 0
      conversation.summaryThroughSequence = .ok (some (messages, last)))
    (beyond : ∀ message ∈ messages, conversation.summaryThroughSequence < message.sequence)
    (alternate : messages.map (fun message => (message.sequence, message.turnId, message.role)) =
      exchanges first later) :
    ∃ result after,
      compactedHydrationTail keep scopeKey conversation databaseAt draws fuel =
        .ok (some (result, after)) ∧
      CompactionResult keep scopeKey conversation draws (turnsOf messages)
        (databaseAt (last + 1)) result after := by
  have loop := @readHydrationTail_eq scopeKey _ conversation.summaryVersion keep _ readable fuel 0
    _ ⟨conversation.summary, conversation.summaryThroughSequence, [], none⟩ _ followed
  have gathered := @foldl_visit_window scopeKey conversation.summaryVersion keep _ _ _ alternate
    conversation.summary conversation.summaryThroughSequence
  simp only [Option.map_some] at loop
  generalize messages.foldl (HydrationTail.visit scopeKey conversation.summaryVersion keep)
    ⟨conversation.summary, conversation.summaryThroughSequence, [], none⟩ = tail at loop gathered
  simp only [HydrationTail.window, Prod.mk.injEq] at gathered
  obtain ⟨⟨summary, through⟩, recent⟩ := gathered
  have moves := @throughOf_past keep conversation.summaryThroughSequence messages beyond
  rw [← through] at moves
  simp only [compactedHydrationTail, loop, bind, Except.bind]
  by_cases moved : conversation.summaryThroughSequence < tail.throughSequence
  · rw [if_pos moved]
    have evicted := moves.mp moved
    cases accepted : (updateSummary draws scopeKey tail.summary conversation.summaryVersion
        tail.throughSequence (databaseAt (last + 1))).1 with
    | true =>
        refine ⟨_, _, rfl, ?_, ?_, ?_⟩
        · intro refused
          cases refused
        · rintro _ ⟨⟩
          exact ⟨recent, summary, through, by rw [if_neg evicted]⟩
        · rintro _ ⟨⟩ _
          exact updateSummary_cursorIs accepted
    | false =>
        refine ⟨none, _, rfl, ?_, ?_, ?_⟩
        · intro _
          rw [← summary, ← through]
          exact ⟨evicted, accepted⟩
        · rintro _ ⟨⟩
        · rintro _ ⟨⟩
  · rw [if_neg moved]
    have kept : Window.past keep (turnsOf messages) = [] :=
      Classical.not_not.mp fun evicted => moved (moves.mpr evicted)
    refine ⟨_, _, rfl, ?_, ?_, ?_⟩
    · intro refused
      cases refused
    · rintro _ ⟨⟩
      exact ⟨recent, summary, through, by simp [kept]⟩
    · rintro _ ⟨⟩ same
      rw [through, kept]
      exact same kept

/-- At every page the messages past the cursor are the exchanges of the turns after
it. -/
theorem observed_alternate {config : StoreConfig} {databaseAt : Nat → Database}
    (observed : Observed config databaseAt) {conversation : Conversation}
    (stored : conversation.id ∈ (databaseAt 0).conversationIds)
    (onTurn : OnTurn (databaseAt 0) conversation) (page : Nat) :
    ∃ turns : List TurnRow, ∃ count ≤ turns.length,
      conversation.summaryThroughSequence = 2 * (count : Int) ∧
      ((databaseAt page).messagesOf conversation.id).map MessageOf.place = exchanges 1 turns ∧
      ((above MessageOf.sequence conversation.summaryThroughSequence
        ((databaseAt page).messagesOf conversation.id)).map MessageOf.shown).map
        (fun message => (message.sequence, message.turnId, message.role)) =
          exchanges (1 + 2 * count) (turns.drop count) := by
  have grown := observed.grows conversation.id page
  obtain ⟨row, rowMember, same⟩ := List.mem_map.mp (grown.conversation stored)
  obtain ⟨turns, history⟩ := (observed.reachedAt page).linear.histories row rowMember
  have cursor : conversation.summaryThroughSequence = 0 ∨
      ∃ message ∈ (databaseAt page).messagesOf row.id,
        message.role = .assistant ∧ conversation.summaryThroughSequence = message.sequence := by
    refine onTurn.imp_right ?_
    rintro ⟨message, listed, assistant, reached⟩
    exact ⟨message, same.symm ▸ grown.messages.subset listed, assistant, reached⟩
  obtain ⟨count, within, reached, alternate⟩ := alternate_above history cursor
  exact ⟨turns, count, within, reached, same ▸ history.messages, same ▸ alternate⟩

/-- The compaction comes to an end, and gives up only if its update of the summary
is refused. What it returns is the exact tail of the transcript as it is at the last
page, and the stored cursor is the one it returns. -/
theorem compactedHydrationTail_exact {config : StoreConfig} {keep : Nat} {scopeKey : String}
    {databaseAt : Nat → Database} {view : ConversationView} (draws : Draws)
    (observed : Observed config databaseAt)
    (read : getByScopeKey scopeKey (databaseAt 0) = .ok (some view))
    (onTurn : OnTurn (databaseAt 0) view.conversation) :
    ∃ last transcript enough,
      Transcript (databaseAt (last + 1)) view.conversation.id transcript ∧
      ∀ fuel, enough ≤ fuel → ∃ result after,
        compactedHydrationTail keep scopeKey view.conversation (fun page => databaseAt (page + 1))
          draws fuel = .ok (some (result, after)) ∧
        CompactionResult keep scopeKey view.conversation draws
          (turnsOf (transcript.filter fun message =>
            decide (view.conversation.summaryThroughSequence < message.sequence)))
          (databaseAt (last + 2)) result after := by
  obtain ⟨row, member, keyed, owned⟩ := getByScopeKey_eq_some read
  have stored : view.conversation.id ∈ (databaseAt 0).conversationIds :=
    owned ▸ List.mem_map_of_mem member
  have readable := observed.readable stored
  obtain ⟨last, enough, followed⟩ := observed.later.followAfter_ends
    ((observed.grows view.conversation.id 1).conversation stored)
    (fun _ => hydrationLimitMessages) view.conversation.summaryThroughSequence
  refine ⟨last, _, enough, (readable (last + 1)).transcript, fun fuel more => ?_⟩
  rw [List.filter_map]
  obtain ⟨turns, count, within, -, -, alternate⟩ :=
    observed_alternate observed stored onTurn (last + 1)
  refine compactedHydrationTail_result (fun page => readable (page + 1)) (followed fuel more) ?_
    alternate
  intro message listed
  obtain ⟨row, past, rfl⟩ := List.mem_map.mp listed
  exact ((mem_above MessageOf.sequence).mp past).2

/-! ## The warm state -/

/-- The cursor behind some of the first turns. -/
theorem throughOf_range {cursor : Int} {first count : Nat} {turns : List ConversationTurn}
    (sequences : turns.map (·.assistantSequence) =
      (List.range count).map fun index => some ((first + 2 * index + 1 : Nat) : Int)) :
    throughOf cursor turns =
      if count = 0 then cursor else ((first + 2 * count - 1 : Nat) : Int) := by
  cases count with
  | zero =>
      rw [List.range_zero, List.map_nil, List.map_eq_nil_iff] at sequences
      subst sequences
      rfl
  | succ count =>
      have last := congrArg List.getLast? sequences
      rw [List.getLast?_map, List.range_succ, List.map_append, List.map_singleton,
        List.getLast?_concat] at last
      obtain ⟨turn, final, same⟩ := Option.map_eq_some_iff.mp last
      rw [throughOf, final, Option.bind_some, same, if_neg (Nat.succ_ne_zero count),
        Option.getD_some]
      congr 1

/-- A state with the recent turns and the cursor behind the others covers the
messages of all turns. -/
theorem covers_window {keep : Nat} {conversation : Conversation} {scopeKey : String}
    {messages : List Message} {turns : List TurnRow} {count : Nat} (within : count ≤ turns.length)
    (cursor : conversation.summaryThroughSequence = 2 * (count : Int))
    (alternate : messages.map (fun message => (message.sequence, message.turnId, message.role)) =
      exchanges (1 + 2 * count) (turns.drop count))
    {compacted : CompactedTail}
    (compacts : Compacts keep scopeKey conversation (turnsOf messages) compacted)
    {state : ConversationState} (recent : state.turns = compacted.recentTurns)
    (through : state.summaryThroughSequence = max 0 compacted.throughSequence)
    {sequence : Nat} (reached : sequence ≤ 2 * turns.length) :
    stateCoversSequence (some state) sequence = true := by
  have sequences := turnsOf_sequences alternate
  have length := congrArg List.length sequences
  rw [List.length_map, List.length_map, List.length_range, List.length_drop] at length
  have behind : state.summaryThroughSequence = 2 * (count + (turns.length - count - keep : Nat)) := by
    have past := @throughOf_range conversation.summaryThroughSequence (1 + 2 * count)
      (turns.length - count - keep) (Window.past keep (turnsOf messages)) (by
        rw [Window.past, List.map_take, sequences, ← List.map_take, List.take_range, length,
          List.length_drop]
        congr 2
        omega)
    rw [through, compacts.throughSequence, past]
    split
    · omega
    · omega
  simp only [stateCoversSequence, List.all_eq_true, Bool.or_eq_true, Bool.not_eq_true',
    decide_eq_false_iff_not, not_lt, List.contains_eq_mem, decide_eq_true_eq]
  intro even listed
  obtain ⟨⟨positive, half, double⟩, bounded⟩ := mem_evenSequences.mp listed
  by_cases summarized : even ≤ max 0 state.summaryThroughSequence
  · exact .inl summarized
  · right
    have listed : some even ∈ (Window.recent keep (turnsOf messages)).map
        (·.assistantSequence) := by
      rw [Window.recent, List.map_drop, sequences, length, List.mem_iff_getElem?]
      refine ⟨half.toNat - (count + 1) - (turns.length - count - keep), ?_⟩
      rw [List.getElem?_drop, List.getElem?_map, List.getElem?_range (by
        rw [List.length_drop]
        omega)]
      simp only [Option.map_some, Option.some.injEq]
      omega
    rw [mem_sequencesOf, recent, compacts.recentTurns]
    exact List.mem_map.mp listed

/-! ## The backends -/

/-- A successful replacement leaves the state of the snapshot. -/
def Installs (backend : Backend) : Prop :=
  ∀ draw conversationId snapshot memory,
    (backend.execute draw (.replaceFromDurable conversationId snapshot) memory).1 = true →
    ∃ createdAt updatedAt,
      backend.stored (backend.execute draw (.replaceFromDurable conversationId snapshot) memory).2
        conversationId = some (snapshot.state backend.config createdAt updatedAt)

theorem inRedis_installs (config : MemoryConfig) : Installs (inRedis config) := by
  intro draw conversationId snapshot memory replaced
  simp only [inRedis, Redis.execute, Redis.replaceFromDurable] at replaced ⊢
  split at replaced
  · cases replaced
  · rename_i named
    rw [if_neg named]
    split at replaced
    · cases replaced
    · rename_i older
      rw [if_neg older]
      exact ⟨_, _, Dictionary.get?_set_self _ _ _⟩

theorem get?_evicted_touch {config : MemoryConfig} (room : 0 < config.maxItems)
    (conversationId : String) (state : ConversationState) (memory : Conversations) :
    (evictIfNeeded config (Conversations.touch conversationId state memory)).get?
      conversationId = some state := by
  have found := Dictionary.get?_set_self memory conversationId state
  have nonempty : 0 < (Conversations.touch conversationId state memory).entries.length := by
    obtain ⟨front, entries⟩ := Dictionary.entries_moveToEnd found
    rw [Conversations.touch, entries, List.length_append]
    exact Nat.succ_pos _
  exact Dictionary.get?_dropOldest_moveToEnd found (Nat.sub_lt nonempty room)

theorem inProcess_installs {config : MemoryConfig} (room : 0 < config.maxItems) :
    Installs (inProcess config) := by
  intro draw conversationId snapshot memory replaced
  simp only [inProcess, InProcess.execute, InProcess.replaceFromDurable] at replaced ⊢
  split at replaced
  · cases replaced
  · rename_i named
    rw [if_neg named]
    split at replaced
    · cases replaced
    · rename_i older
      rw [if_neg older]
      exact ⟨_, _, get?_evicted_touch room conversationId _ _⟩

/-! ## Successful hydration -/

/-- A compaction that returns has read the messages past the cursor as they are at
its last page. -/
theorem compactedHydrationTail_returned {config : StoreConfig} {keep : Nat} {scopeKey : String}
    {databaseAt : Nat → Database} {conversation : Conversation} {draws : Draws} {fuel : Nat}
    {result : Option CompactedTail} {after : Database}
    (observed : Observed config databaseAt)
    (stored : conversation.id ∈ (databaseAt 0).conversationIds)
    (onTurn : OnTurn (databaseAt 0) conversation)
    (returned : compactedHydrationTail keep scopeKey conversation (fun page => databaseAt (page + 1))
      draws fuel = .ok (some (result, after))) :
    ∃ last, CompactionResult keep scopeKey conversation draws
      (turnsOf ((above MessageOf.sequence conversation.summaryThroughSequence
        ((databaseAt (last + 1)).messagesOf conversation.id)).map MessageOf.shown))
      (databaseAt (last + 2)) result after := by
  have readable := observed.readable stored
  have followed := @followAfter_eq conversation.id (fun _ => hydrationLimitMessages) _
    (fun page => readable (page + 1)) fuel 0 conversation.summaryThroughSequence
  cases read : followAbove MessageOf.sequence
      (fun page => (databaseAt (page + 1)).messagesOf conversation.id)
      (fun _ => pageSize hydrationLimitMessages) fuel 0 conversation.summaryThroughSequence with
  | none =>
      rw [read] at followed
      have loop := @readHydrationTail_eq scopeKey _ conversation.summaryVersion keep _
        (fun page => readable (page + 1)) fuel 0 _
        ⟨conversation.summary, conversation.summaryThroughSequence, [], none⟩ _ followed
      simp only [compactedHydrationTail, loop, Option.map_none] at returned
      cases returned
  | some pages =>
      obtain ⟨rows, last⟩ := pages
      rw [read] at followed
      obtain ⟨-, rfl⟩ := followAbove_eq (observed.later.growing conversation.id)
        (fun page => (readable (page + 1)).ascending) (fun _ => pageSize_pos _) fuel 0 _ read
      obtain ⟨turns, count, within, -, -, alternate⟩ :=
        observed_alternate observed stored onTurn (last + 1)
      obtain ⟨other, final, same, exact⟩ := @compactedHydrationTail_result keep scopeKey _ _ draws
        _ _ _ _ _ (fun page => readable (page + 1)) followed (by
          intro message listed
          obtain ⟨row, past, rfl⟩ := List.mem_map.mp listed
          exact ((mem_above MessageOf.sequence).mp past).2) alternate
      rw [returned] at same
      cases same
      exact ⟨last, exact⟩

/-- The warm state of a conversation covers a transcript to its end. -/
def WarmCovers (backend : Backend) (memory : backend.Store) (warmConversationId : String)
    (transcript : List Message) : Prop :=
  ∃ state, backend.stored memory warmConversationId = some state ∧
    ∀ message ∈ transcript, stateCoversSequence (some state) message.sequence = true

/-- What an attempt meets of the history store: one database after the other, with a
summary cursor on a turn. -/
structure Attempt.Regular {backend : Backend} (config : StoreConfig) (scopeKey : String)
    (attempt : Attempt backend) : Prop where
  observed : Observed config attempt.databaseAt
  onTurn : ∀ view, getByScopeKey scopeKey (attempt.databaseAt 0) = .ok (some view) →
    OnTurn (attempt.databaseAt 0) view.conversation

/-- An attempt that succeeds leaves a state that covers the transcript it has read. -/
theorem hydrateForPrompt_covers {backend : Backend} (installs : Installs backend)
    {config : StoreConfig} {enabled : Bool} {scopeKey warmConversationId : String}
    {attempt : Attempt backend} {fuel : Nat} {memory : backend.Store}
    (regular : attempt.Regular config scopeKey)
    (hydrated : hydrateForPrompt enabled scopeKey warmConversationId attempt fuel =
      some (some true, memory)) :
    ∃ view last transcript,
      getByScopeKey scopeKey (attempt.databaseAt 0) = .ok (some view) ∧
      Transcript (attempt.databaseAt (last + 1)) view.conversation.id transcript ∧
      WarmCovers backend memory warmConversationId transcript := by
  rw [hydrateForPrompt] at hydrated
  split at hydrated
  · cases hydrated
  · split at hydrated
    · cases hydrated
    · cases hydrated
    · rename_i view read
      obtain ⟨row, member, keyed, owned⟩ := getByScopeKey_eq_some read
      have stored : view.conversation.id ∈ (attempt.databaseAt 0).conversationIds :=
        owned ▸ List.mem_map_of_mem member
      split at hydrated
      · cases hydrated
      · cases hydrated
      · cases hydrated
      · rename_i compacted after returned
        split at hydrated
        · cases hydrated
        · simp only [Option.some.injEq, Prod.mk.injEq] at hydrated
          obtain ⟨replaced, rfl⟩ := hydrated
          have onTurn := regular.onTurn view read
          obtain ⟨last, exact⟩ := compactedHydrationTail_returned regular.observed stored onTurn
            returned
          obtain ⟨turns, count, within, cursor, places, alternate⟩ :=
            observed_alternate regular.observed stored onTurn (last + 1)
          obtain ⟨createdAt, updatedAt, installed⟩ := installs _ _ _ _ replaced
          refine ⟨view, last, _, read,
            (regular.observed.readable stored (last + 1)).transcript, _, installed, ?_⟩
          intro message listed
          obtain ⟨row, rowListed, rfl⟩ := List.mem_map.mp listed
          refine covers_window within cursor alternate (exact.compacts compacted rfl) rfl rfl ?_
          have place : row.place ∈ exchanges 1 turns := places ▸ List.mem_map_of_mem rowListed
          have sequence : row.shown.sequence = row.place.1 := rfl
          obtain ⟨index, bound, same | same⟩ := mem_exchanges place
          · rw [sequence, same]
            omega
          · rw [sequence, same]
            omega

theorem rehydrateAttempts_some {backend : Backend} {enabled : Bool}
    {scopeKey warmConversationId : String} {fuel : Nat} {attempts : List (Attempt backend)}
    {attempt : Attempt backend} {memory : backend.Store}
    (rehydrated : rehydrateAttempts enabled scopeKey warmConversationId fuel attempts =
      some (some (attempt, memory))) :
    attempt ∈ attempts ∧ hydrateForPrompt enabled scopeKey warmConversationId attempt fuel =
      some (some true, memory) := by
  induction attempts with
  | nil => cases rehydrated
  | cons first attempts induction =>
      rw [rehydrateAttempts] at rehydrated
      cases hydrated : hydrateForPrompt enabled scopeKey warmConversationId first fuel with
      | none =>
          rw [hydrated] at rehydrated
          cases rehydrated
      | some outcome =>
          rw [hydrated] at rehydrated
          simp only [bind, Option.bind] at rehydrated
          split at rehydrated
          · rename_i succeeded
            cases rehydrated
            exact ⟨List.mem_cons_self, by rw [hydrated, ← succeeded]⟩
          · obtain ⟨member, found⟩ := induction rehydrated
            exact ⟨List.mem_cons_of_mem first member, found⟩

/-- Whatever turns are completed and summaries updated meanwhile: the compaction of a
conversation comes to an end with the exact tail of the transcript at its last page,
and a hydration that succeeds leaves a warm state that covers the transcript it has
read to its end, in either backend. -/
theorem hydration_exact (config : StoreConfig) (memoryConfig : MemoryConfig) (scopeKey : String) :
    (∀ (keep : Nat) (databaseAt : Nat → Database) (draws : Draws) (view : ConversationView),
      Observed config databaseAt →
      getByScopeKey scopeKey (databaseAt 0) = .ok (some view) →
      OnTurn (databaseAt 0) view.conversation →
      ∃ last transcript enough,
        Transcript (databaseAt (last + 1)) view.conversation.id transcript ∧
        ∀ fuel, enough ≤ fuel → ∃ result after,
          compactedHydrationTail keep scopeKey view.conversation
            (fun page => databaseAt (page + 1)) draws fuel = .ok (some (result, after)) ∧
          CompactionResult keep scopeKey view.conversation draws
            (turnsOf (transcript.filter fun message =>
              decide (view.conversation.summaryThroughSequence < message.sequence)))
            (databaseAt (last + 2)) result after) ∧
    ∀ backend : Backend,
      (backend = inProcess memoryConfig ∧ 0 < memoryConfig.maxItems ∨
        backend = inRedis memoryConfig) →
      ∀ (enabled : Bool) (warmConversationId : String) (attempts : Fin 3 → Attempt backend)
        (fuel : Nat) (attempt : Attempt backend) (memory : backend.Store),
        (∀ index, (attempts index).Regular config scopeKey) →
        rehydrateForPrompt enabled scopeKey warmConversationId attempts fuel =
          some (some (attempt, memory)) →
        ∃ index, attempt = attempts index ∧
          ∃ view last transcript,
            getByScopeKey scopeKey (attempt.databaseAt 0) = .ok (some view) ∧
            Transcript (attempt.databaseAt (last + 1)) view.conversation.id transcript ∧
            WarmCovers backend memory warmConversationId transcript := by
  constructor
  · intro keep databaseAt draws view observed read onTurn
    exact compactedHydrationTail_exact draws observed read onTurn
  · intro backend chosen enabled warmConversationId attempts fuel attempt memory regular rehydrated
    have installs : Installs backend := by
      rcases chosen with ⟨rfl, room⟩ | rfl
      · exact inProcess_installs room
      · exact inRedis_installs memoryConfig
    obtain ⟨member, hydrated⟩ := rehydrateAttempts_some rehydrated
    obtain ⟨index, rfl⟩ := List.mem_ofFn.mp member
    exact ⟨index, rfl, hydrateForPrompt_covers installs (regular index) hydrated⟩

/-! ## A conversation of two turns -/

namespace Sample

def twoTurns : List Event :=
  History.Sample.oneTurn ++
    [⟨.beginTurn (History.Sample.begins "t2" (some "t1")), History.Sample.draws 20 "c"⟩,
      ⟨.completeTurn (History.Sample.completes "t2" "c"), History.Sample.draws 30 "d"⟩]

def database : Database :=
  run (Event.after History.Sample.config) .empty twoTurns

def attempt : Attempt (inRedis .standard) where
  databaseAt _ := database
  draws := History.Sample.draws 40 "e"
  memory := (Dictionary.empty : RedisMemory)
  memoryDraw := (⟨⟨40, 40, 40⟩, false⟩ : RedisDraw)
  memoryFails := false

end Sample

theorem Sample.observed : Observed History.Sample.config fun _ => Sample.database where
  reached := ⟨Sample.twoTurns, rfl⟩
  changed _ := ⟨[], rfl⟩

theorem Sample.view : ∃ view, getByScopeKey "w:c" Sample.database = .ok (some view) ∧
    view.conversation.summaryThroughSequence = 0 ∧ view.conversation.messageCount = 4 := by
  have seen : (getByScopeKey "w:c" Sample.database).toOption.join.any (fun view =>
      view.conversation.summaryThroughSequence == 0 && view.conversation.messageCount == 4) =
        true := by
    decide +kernel
  cases read : getByScopeKey "w:c" Sample.database with
  | error raised =>
      rw [read] at seen
      cases seen
  | ok found =>
      cases found with
      | none =>
          rw [read] at seen
          cases seen
      | some view =>
          rw [read] at seen
          exact ⟨view, rfl, by simpa [Except.toOption] using seen⟩

/-- Two turns are compacted to one, and a hydration covers both. -/
theorem hydration_exact_twoTurns :
    (∃ (view : ConversationView) (last : Nat) (transcript : List Message) (enough : Nat),
      view.conversation.messageCount = 4 ∧
      Transcript Sample.database view.conversation.id transcript ∧
      ∀ fuel, enough ≤ fuel → ∃ result after,
        compactedHydrationTail 1 "w:c" view.conversation (fun _ => Sample.database)
          (History.Sample.draws 40 "e") fuel = .ok (some (result, after)) ∧
        CompactionResult 1 "w:c" view.conversation (History.Sample.draws 40 "e")
          (turnsOf (transcript.filter fun message =>
            decide (view.conversation.summaryThroughSequence < message.sequence)))
          ((fun _ => Sample.database) (last + 2)) result after) ∧
    ∃ (view : ConversationView) (transcript : List Message) (memory : (inRedis .standard).Store),
      getByScopeKey "w:c" Sample.database = .ok (some view) ∧
      Transcript Sample.database view.conversation.id transcript ∧
      WarmCovers (inRedis .standard) memory "w" transcript := by
  have onTurn : ∀ view, getByScopeKey "w:c" Sample.database = .ok (some view) →
      OnTurn Sample.database view.conversation := by
    intro view read
    obtain ⟨other, same, cursor, -⟩ := Sample.view
    rw [read] at same
    cases same
    exact .inl cursor
  constructor
  · obtain ⟨view, read, cursor, count⟩ := Sample.view
    obtain ⟨last, transcript, enough, shown, exact⟩ :=
      (hydration_exact History.Sample.config .standard "w:c").1 1 (fun _ => Sample.database)
        (History.Sample.draws 40 "e") view Sample.observed read (onTurn view read)
    exact ⟨view, last, transcript, enough, count, shown, exact⟩
  · have succeeds : (rehydrateForPrompt true "w:c" "w" (fun _ => Sample.attempt) 3).join.isSome =
        true := by
      decide +kernel
    obtain ⟨⟨attempt, memory⟩, joined⟩ := Option.isSome_iff_exists.mp succeeds
    have rehydrated := Option.join_eq_some_iff.mp joined
    obtain ⟨index, rfl, view, last, transcript, read, shown, covers⟩ :=
      (hydration_exact History.Sample.config .standard "w:c").2 (inRedis .standard) (.inr rfl) true "w"
        (fun _ => Sample.attempt) 3 attempt memory (fun _ => ⟨Sample.observed, onTurn⟩) rehydrated
    exact ⟨view, transcript, memory, read, shown, covers⟩

end RAGuardian.Service
