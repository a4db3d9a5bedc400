import RAGuardian.Foundation.Pagination
import RAGuardian.History.Replay
import RAGuardian.History.Store.Reading

/-! # Cursor pagination

Readers that follow the cursors of `list_messages` and
`list_messages_after_sequence` through a transcript, while other workers complete
turns and update summaries between their pages. -/

namespace RAGuardian.History

open Execution Pagination

variable {config : StoreConfig} {database : Database}

/-! ## Readers -/

/-- What other workers do between two pages. -/
inductive Change
  | completeTurn (draws : Draws) (arguments : CompleteTurnArguments)
  | updateSummary (draws : Draws) (scopeKey summary : String)
      (expectedVersion throughSequence : Int)

def Change.event : Change → Event
  | .completeTurn draws arguments => ⟨.completeTurn arguments, draws⟩
  | .updateSummary draws scopeKey summary expectedVersion throughSequence =>
      ⟨.updateSummary scopeKey summary expectedVersion throughSequence, draws⟩

/-- The page limits of a reader, and the changes between each page and the next. -/
structure Schedule where
  limit : Nat → Int
  changes : Nat → List Change

/-- The database a page is read from. -/
def Schedule.databaseAt (schedule : Schedule) (config : StoreConfig) (start : Database) :
    Nat → Database
  | 0 => start
  | page + 1 => run (Event.after config) (databaseAt schedule config start page)
      ((schedule.changes page).map Change.event)

/-- Follow `next_cursor` of `list_messages` until it is `None`, older pages in
front. -/
def followBefore (historyId : String) (limit : Nat → Int) (databaseAt : Nat → Database) :
    Nat → Nat → Option Int → Except StoreError (Option (List Message))
  | 0, _, _ => .ok none
  | fuel + 1, page, before => do
      let (messages, nextCursor) ← listMessages historyId before (limit page) (databaseAt page)
      match nextCursor with
      | none => return some messages
      | some next =>
          let older ←
            followBefore historyId limit databaseAt fuel (page + 1) (some (next : Int))
          return older.map (· ++ messages)

/-- Follow `next_after` of `list_messages_after_sequence` until it is `None`, with
the number of the last page. -/
def followAfter (historyId : String) (limit : Nat → Int) (databaseAt : Nat → Database) :
    Nat → Nat → Int → Except StoreError (Option (List Message × Nat))
  | 0, _, _ => .ok none
  | fuel + 1, page, after => do
      let (messages, nextAfter) ←
        listMessagesAfterSequence historyId after (limit page) (databaseAt page)
      match nextAfter with
      | none => return some (messages, page)
      | some next =>
          let newer ← followAfter historyId limit databaseAt fuel (page + 1) next
          return newer.map fun (rest, last) => (messages ++ rest, last)

/-! ## Decoded rows -/

/-- A row as it is shown, with a column that cannot be decoded as null. -/
def MessageOf.shown (row : MessageRow) : Message :=
  { row with
    sources := (row.sources.loads (.list [])).getD .null
    metadata := (row.metadata.loads (.dict [])).getD .null }

theorem messageRow_eq_shown {row : MessageRow} {message : Message}
    (decoded : messageRow row = .ok message) : message = row.shown := by
  simp only [messageRow, bind_eq_ok, orRaise_eq_ok, pure_eq_ok] at decoded
  obtain ⟨sources, sourcesLoaded, metadata, metadataLoaded, rfl⟩ := decoded
  rw [MessageOf.shown, sourcesLoaded, metadataLoaded]
  rfl

theorem Database.Documented.mapM_messageRow (documented : database.Documented)
    {rows : List MessageRow} (stored : ∀ row ∈ rows, row ∈ database.messages) :
    rows.mapM History.messageRow = .ok (rows.map MessageOf.shown) := by
  induction rows with
  | nil => rfl
  | cons row rows induction =>
      obtain ⟨message, decoded⟩ := documented.messageRow (stored row List.mem_cons_self)
      have rest := induction fun other member => stored other (List.mem_cons_of_mem row member)
      rw [List.mapM_cons, decoded, rest, messageRow_eq_shown decoded]
      rfl

/-! ## One page -/

theorem pageSize_pos (limit : Int) : 0 < pageSize limit := by
  rw [pageSize]
  omega

/-- What the readers of a conversation rely on: it exists, its columns decode, and
its messages are in sequence order. -/
structure Readable (database : Database) (historyId : String) : Prop where
  stored : (database.conversationById historyId).isSome = true
  documented : database.Documented
  ascending : Ascending MessageOf.sequence (database.messagesOf historyId)
  positive : ∀ row ∈ database.messagesOf historyId, 0 < row.sequence

namespace Readable

variable {historyId : String}

theorem mapM_messageRow (readable : Readable database historyId) {rows : List MessageRow}
    (listed : ∀ row ∈ rows, row ∈ database.messagesOf historyId) :
    rows.mapM messageRow = .ok (rows.map MessageOf.shown) :=
  readable.documented.mapM_messageRow fun row member =>
    (Database.mem_messagesOf.mp (listed row member)).1

theorem found (readable : Readable database historyId) :
    ∃ row, orRaise (.history (.conversationNotFound historyId))
      (database.conversationById historyId) = .ok row := by
  obtain ⟨row, found⟩ := Option.isSome_iff_exists.mp readable.stored
  exact ⟨row, orRaise_eq_ok.mpr found⟩

theorem messagesBefore_eq (readable : Readable database historyId) (before : Option Int) :
    messagesBefore database historyId before =
      (below MessageOf.sequence before (database.messagesOf historyId)).reverse :=
  (readable.ascending.short before).sort_eq_reverse

theorem messagesAfter_eq (readable : Readable database historyId) (after : Int) :
    messagesAfter database historyId after =
      above MessageOf.sequence after (database.messagesOf historyId) := by
  have same : above MessageOf.sequence (max 0 after) (database.messagesOf historyId) =
      above MessageOf.sequence after (database.messagesOf historyId) := by
    apply List.filter_congr
    intro row member
    have := readable.positive row member
    rw [decide_eq_decide]
    omega
  rw [← same]
  exact (readable.ascending.past (max 0 after)).sort_eq

/-- `list_messages` shows a page of the rows short of its cursor. -/
theorem listMessages_eq (readable : Readable database historyId) (before : Option Int)
    (limit : Int) :
    let page := pageBelow MessageOf.sequence before (pageSize limit)
      (database.messagesOf historyId)
    listMessages historyId before limit database =
      .ok (page.entries.map MessageOf.shown, page.next) := by
  intro page
  obtain ⟨row, found⟩ := readable.found
  have taken : (below MessageOf.sequence before (database.messagesOf historyId)).reverse.take
      (pageSize limit) = page.entries.reverse := List.take_reverse
  have listed : ∀ row ∈ page.entries.reverse, row ∈ database.messagesOf historyId :=
    fun row member => List.mem_of_mem_filter (List.mem_of_mem_drop (List.mem_reverse.mp member))
  have first : (page.entries.map MessageOf.shown).head?.map (·.sequence) =
      page.entries.head?.map MessageOf.sequence := by
    rw [List.head?_map, Option.map_map]
    rfl
  simp only [listMessages, found, readable.messagesBefore_eq, probe_more, probe_page, taken,
    readable.mapM_messageRow listed]
  simp only [bind, Except.bind, pure, Except.pure, ← List.map_reverse, List.reverse_reverse,
    List.length_reverse, first, decide_eq_true_eq]
  rfl

/-- `list_messages_after_sequence` shows a page of the rows past its cursor. -/
theorem listMessagesAfterSequence_eq (readable : Readable database historyId) (after limit : Int) :
    let page := pageAbove MessageOf.sequence after (pageSize limit)
      (database.messagesOf historyId)
    listMessagesAfterSequence historyId after limit database =
      .ok (page.entries.map MessageOf.shown, page.next) := by
  intro page
  obtain ⟨row, found⟩ := readable.found
  have taken : (above MessageOf.sequence after (database.messagesOf historyId)).take
      (pageSize limit) = page.entries := rfl
  have listed : ∀ row ∈ page.entries, row ∈ database.messagesOf historyId :=
    fun row member => List.mem_of_mem_filter (List.mem_of_mem_take member)
  have final : (page.entries.map MessageOf.shown).getLast?.map (·.sequence) =
      page.entries.getLast?.map MessageOf.sequence := by
    rw [List.getLast?_map, Option.map_map]
    rfl
  simp only [listMessagesAfterSequence, found, readable.messagesAfter_eq, probe_more, probe_page,
    taken, readable.mapM_messageRow listed]
  simp only [bind, Except.bind, pure, Except.pure, final, decide_eq_true_eq]
  rfl

end Readable

/-! ## All pages -/

section Following

variable {historyId : String} {limit : Nat → Int} {databaseAt : Nat → Database}

theorem followBefore_eq (readable : ∀ page, Readable (databaseAt page) historyId)
    (fuel page : Nat) (before : Option Int) :
    followBefore historyId limit databaseAt fuel page before =
      .ok ((followBelow MessageOf.sequence (fun page => (databaseAt page).messagesOf historyId)
        (fun page => pageSize (limit page)) fuel page before).map (List.map MessageOf.shown)) := by
  induction fuel generalizing page before with
  | zero => rfl
  | succ fuel induction =>
      rw [followBefore, followBelow, (readable page).listMessages_eq before (limit page)]
      simp only [bind, Except.bind]
      cases (pageBelow MessageOf.sequence before (pageSize (limit page))
        ((databaseAt page).messagesOf historyId)).next with
      | none => rfl
      | some next =>
          simp only [induction, pure, Except.pure, Option.map_map, Except.ok.injEq]
          congr 1
          funext older
          simp

theorem followAfter_eq (readable : ∀ page, Readable (databaseAt page) historyId)
    (fuel page : Nat) (after : Int) :
    followAfter historyId limit databaseAt fuel page after =
      .ok ((followAbove MessageOf.sequence (fun page => (databaseAt page).messagesOf historyId)
        (fun page => pageSize (limit page)) fuel page after).map
          fun (rows, last) => (rows.map MessageOf.shown, last)) := by
  induction fuel generalizing page after with
  | zero => rfl
  | succ fuel induction =>
      rw [followAfter, followAbove, (readable page).listMessagesAfterSequence_eq after (limit page)]
      simp only [bind, Except.bind]
      cases (pageAbove MessageOf.sequence after (pageSize (limit page))
        ((databaseAt page).messagesOf historyId)).next with
      | none => rfl
      | some next =>
          simp only [induction, pure, Except.pure, Option.map_map, Except.ok.injEq]
          congr 1
          funext newer
          simp

end Following

/-! ## Changes between the pages -/

/-- The messages of a conversation grow from one database to the next, within the
quota for messages. -/
structure Extends (config : StoreConfig) (historyId : String) (before after : Database) :
    Prop where
  conversation : historyId ∈ before.conversationIds → historyId ∈ after.conversationIds
  messages : before.messagesOf historyId <+: after.messagesOf historyId
  quota : (after.messagesOf historyId).length ≤
    max (before.messagesOf historyId).length config.maxMessagesPerConversation.toNat

namespace Extends

variable {historyId : String} {before between after : Database}

theorem refl (config : StoreConfig) (historyId : String) (database : Database) :
    Extends config historyId database database where
  conversation present := present
  messages := List.prefix_rfl
  quota := Nat.le_max_left _ _

theorem trans (first : Extends config historyId before between)
    (second : Extends config historyId between after) : Extends config historyId before after where
  conversation present := second.conversation (first.conversation present)
  messages := first.messages.trans second.messages
  quota := by
    have := first.quota
    have := second.quota
    omega

end Extends

theorem Commit.grows {draws : Draws} {arguments : CompleteTurnArguments} {turn : TurnRow}
    {conversation : ConversationRow} {user assistant : MessageRow} {title : String}
    {promptRef : Json.Column} {before after : Database}
    (commit : Commit config draws arguments turn conversation user assistant title promptRef
      before after) (linear : before.Linear) (historyId : String) :
    Extends config historyId before after := by
  have ids : after.conversationIds = before.conversationIds := by
    rw [Tables.conversationIds, commit.conversations]
    exact Table.map_update (fun row : ConversationRow => row.id) (ConversationUpdate.id _) _
  by_cases owned : turn.conversationId = historyId
  · subst owned
    have grown := commit.messagesOf
    obtain ⟨turns, history⟩ := linear.histories conversation commit.owner
    have count := congrArg List.length history.sequences
    rw [commit.owns, List.length_map, List.length_range'] at count
    have quota := commit.messageQuota
    refine ⟨fun present => ids ▸ present, ⟨_, grown.symm⟩, ?_⟩
    rw [grown, List.length_append, List.length_cons, List.length_cons, List.length_nil]
    omega
  · have same : after.messagesOf historyId = before.messagesOf historyId := by
      rw [Database.messagesOf, commit.messages, List.filter_append,
        List.filter_cons_of_neg (by simpa [commit.exchange.userOwner] using owned),
        List.filter_cons_of_neg (by simpa [commit.exchange.assistantOwner] using owned),
        List.filter_nil, List.append_nil]
      rfl
    refine ⟨fun present => ids ▸ present, same ▸ List.prefix_rfl, ?_⟩
    rw [same]
    exact Nat.le_max_left _ _

theorem Database.updateConversations_grows (historyId : String) (database : Database)
    (selects : ConversationRow → Bool) (update : ConversationUpdate) :
    Extends config historyId database (database.updateConversations selects update) where
  conversation present := by
    have ids : (database.updateConversations selects update).conversationIds =
        database.conversationIds :=
      Table.map_update (fun row : ConversationRow => row.id) update.id _
    exact ids ▸ present
  messages := List.prefix_rfl
  quota := Nat.le_max_left _ _

theorem Change.grows (change : Change) (linear : database.Linear) (historyId : String) :
    Extends config historyId database (change.event.after config database) := by
  cases change with
  | completeTurn draws arguments =>
      rw [Event.after, Change.event, Operation.run, transaction]
      split
      · rename_i result committed returned
        obtain ⟨row, found, ⟨-, rfl, -⟩ | ⟨-, conversation, user, assistant, title, promptRef,
          committed, commit, -⟩⟩ := completeTurn_eq_ok returned
        · exact .refl config historyId committed
        · exact commit.grows linear historyId
      · exact .refl config historyId database
  | updateSummary draws scopeKey summary expectedVersion throughSequence =>
      show Extends config historyId database
        (History.updateSummary draws scopeKey summary expectedVersion throughSequence database).2
      rcases updateSummary_cases draws scopeKey summary expectedVersion throughSequence database
        with same | ⟨id, update, -, updated⟩
      · rw [same]
        exact .refl config historyId database
      · rw [updated]
        exact database.updateConversations_grows historyId _ update

/-- A database the store reaches from an empty one. -/
def Reached (config : StoreConfig) (database : Database) : Prop :=
  ∃ events, database = run (Event.after config) .empty events

theorem Reached.later (reached : Reached config database) (events : List Event) :
    Reached config (run (Event.after config) database events) := by
  obtain ⟨earlier, rfl⟩ := reached
  exact ⟨earlier ++ events, (run_append (Event.after config) .empty earlier events).symm⟩

theorem Reached.linear (reached : Reached config database) : database.Linear := by
  obtain ⟨events, rfl⟩ := reached
  exact run_linear config events

theorem Reached.changes_grow (reached : Reached config database) (historyId : String)
    (changes : List Change) : Extends config historyId database
      (run (Event.after config) database (changes.map Change.event)) := by
  induction changes generalizing database with
  | nil => exact .refl config historyId database
  | cons change changes induction =>
      exact (change.grows reached.linear historyId).trans
        (induction (reached.later [change.event]))

theorem Reached.readable (reached : Reached config database) {historyId : String}
    (stored : historyId ∈ database.conversationIds) : Readable database historyId := by
  obtain ⟨conversation, member, rfl⟩ := List.mem_map.mp stored
  obtain ⟨turns, history⟩ := reached.linear.histories conversation member
  obtain ⟨events, same⟩ := reached
  refine ⟨?_, same ▸ run_documented config events, ?_, ?_⟩
  · rw [Option.isSome_iff_exists]
    exact ⟨conversation, Database.conversationById_eq_some.mpr ⟨member, rfl⟩⟩
  · refine List.pairwise_map.mp ?_
    rw [history.sequences]
    exact List.pairwise_lt_range'
  · intro row listed
    have sequenced : row.sequence ∈ List.range' 1 conversation.messageCount :=
      history.sequences ▸ List.mem_map_of_mem listed
    exact (List.mem_range'_1.mp sequenced).1

/-- The databases a reader meets one after the other. -/
structure Observed (config : StoreConfig) (databaseAt : Nat → Database) : Prop where
  reached : Reached config (databaseAt 0)
  changed : ∀ page, ∃ changes : List Change,
    databaseAt (page + 1) = run (Event.after config) (databaseAt page) (changes.map Change.event)

namespace Observed

variable {databaseAt : Nat → Database} {historyId : String}

theorem reachedAt (observed : Observed config databaseAt) (page : Nat) :
    Reached config (databaseAt page) := by
  induction page with
  | zero => exact observed.reached
  | succ page induction =>
      obtain ⟨changes, changed⟩ := observed.changed page
      exact changed ▸ induction.later _

theorem later (observed : Observed config databaseAt) :
    Observed config fun page => databaseAt (page + 1) where
  reached := observed.reachedAt 1
  changed page := observed.changed (page + 1)

theorem grows (observed : Observed config databaseAt) (historyId : String) (page : Nat) :
    Extends config historyId (databaseAt 0) (databaseAt page) := by
  induction page with
  | zero => exact .refl config historyId (databaseAt 0)
  | succ page induction =>
      obtain ⟨changes, changed⟩ := observed.changed page
      rw [changed]
      exact induction.trans ((observed.reachedAt page).changes_grow historyId changes)

theorem readable (observed : Observed config databaseAt)
    (stored : historyId ∈ (databaseAt 0).conversationIds) (page : Nat) :
    Readable (databaseAt page) historyId :=
  (observed.reachedAt page).readable ((observed.grows historyId page).conversation stored)

theorem growing (observed : Observed config databaseAt) (historyId : String) :
    Growing fun page => (databaseAt page).messagesOf historyId := by
  intro page
  obtain ⟨changes, changed⟩ := observed.changed page
  show _ <+: (databaseAt (page + 1)).messagesOf historyId
  rw [changed]
  exact ((observed.reachedAt page).changes_grow historyId changes).messages

/-- A reader upwards comes to an end, with the messages past its cursor at its last
page. -/
theorem followAfter_ends (observed : Observed config databaseAt)
    (stored : historyId ∈ (databaseAt 0).conversationIds) (limit : Nat → Int) (after : Int) :
    ∃ last enough, ∀ fuel, enough ≤ fuel →
      followAfter historyId limit databaseAt fuel 0 after =
        .ok (some ((above MessageOf.sequence after
          ((databaseAt last).messagesOf historyId)).map MessageOf.shown, last)) := by
  have readable := observed.readable stored
  have growing := observed.growing historyId
  have ascending := fun page => (readable page).ascending
  have positive := fun page => pageSize_pos (limit page)
  let log := fun page => (databaseAt page).messagesOf historyId
  let bound := max (log 0).length config.maxMessagesPerConversation.toNat
  have bounded : ∀ page, (log page).length ≤ bound :=
    fun page => (observed.grows historyId page).quota
  have enough : bound + (above MessageOf.sequence after (log 0)).length <
      bound + (log 0).length + 1 + (log 0).length := by
    have : (above MessageOf.sequence after (log 0)).length ≤ (log 0).length :=
      List.length_filter_le ..
    omega
  have ends : ∃ read, followAbove MessageOf.sequence log (fun page => pageSize (limit page))
      (bound + (log 0).length + 1) 0 after = some read :=
    Option.isSome_iff_exists.mp (followAbove_ends growing ascending bounded _ 0 after enough)
  obtain ⟨⟨rows, last⟩, followed⟩ := ends
  refine ⟨last, bound + (log 0).length + 1, fun fuel enough => ?_⟩
  rw [followAfter_eq readable, followAbove_of_le enough followed,
    (followAbove_eq growing ascending positive _ 0 after followed).2]
  rfl

end Observed

theorem Schedule.observed (schedule : Schedule) {start : Database}
    (reached : Reached config start) : Observed config (schedule.databaseAt config start) where
  reached := reached
  changed page := ⟨schedule.changes page, rfl⟩

/-- The messages of a conversation as they are shown, each once and in sequence
order. -/
structure Transcript (database : Database) (historyId : String) (messages : List Message) :
    Prop where
  decoded : (database.messagesOf historyId).mapM messageRow = .ok messages
  ascending : messages.Pairwise fun left right => left.sequence < right.sequence

theorem Readable.transcript {historyId : String} (readable : Readable database historyId) :
    Transcript database historyId ((database.messagesOf historyId).map MessageOf.shown) where
  decoded := readable.mapM_messageRow fun _ member => member
  ascending := List.pairwise_map.mpr readable.ascending

/-- However the pages are cut, and whatever turns are completed between them, a
reader backwards comes to an end with the transcript as it was at the first page,
and a reader forwards with the part past its cursor of the transcript as it is at
the last page. -/
theorem run_pages_complete (config : StoreConfig) (events : List Event) (schedule : Schedule)
    {conversation : ConversationRow}
    (member : conversation ∈ (run (Event.after config) .empty events).conversations) :
    let databaseAt := schedule.databaseAt config (run (Event.after config) .empty events)
    (∃ transcript enough, Transcript (databaseAt 0) conversation.id transcript ∧
      ∀ fuel, enough ≤ fuel →
        followBefore conversation.id schedule.limit databaseAt fuel 0 none =
          .ok (some transcript)) ∧
    ∀ after : Int, ∃ transcript last enough,
      Transcript (databaseAt last) conversation.id transcript ∧
      ∀ fuel, enough ≤ fuel →
        followAfter conversation.id schedule.limit databaseAt fuel 0 after =
          .ok (some (transcript.filter (fun message => decide (after < message.sequence)),
            last)) := by
  intro databaseAt
  have observed : Observed config databaseAt := schedule.observed ⟨events, rfl⟩
  have stored : conversation.id ∈ (databaseAt 0).conversationIds := List.mem_map_of_mem member
  have readable := observed.readable stored
  constructor
  · refine ⟨_, ((databaseAt 0).messagesOf conversation.id).length + 1, (readable 0).transcript,
      fun fuel enough => ?_⟩
    rw [followBefore_eq readable, followBelow_eq (observed.growing conversation.id)
      (fun page => (readable page).ascending) (fun page => pageSize_pos (schedule.limit page))
      fuel 0 none (by rw [below_none]; exact enough), below_none]
    rfl
  · intro after
    obtain ⟨last, enough, followed⟩ :=
      observed.followAfter_ends stored schedule.limit after
    refine ⟨_, last, enough, (readable last).transcript, fun fuel more => ?_⟩
    rw [followed fuel more, List.filter_map]
    rfl

/-- A conversation of one turn, read in pages of one message. -/
theorem run_pages_complete_oneTurn :
    ∃ conversation : ConversationRow, conversation.messageCount = 2 ∧
      ∃ transcript enough,
        Transcript (run (Event.after Sample.config) .empty Sample.oneTurn) conversation.id
          transcript ∧
        ∀ fuel, enough ≤ fuel →
          followBefore conversation.id (fun _ => 1)
            ((Schedule.mk (fun _ => 1) fun _ => []).databaseAt Sample.config
              (run (Event.after Sample.config) .empty Sample.oneTurn)) fuel 0 none =
            .ok (some transcript) := by
  have stored : ∃ conversation ∈
      (run (Event.after Sample.config) .empty Sample.oneTurn).conversations,
      conversation.messageCount = 2 := by
    decide +kernel
  rcases stored with ⟨conversation, member, count⟩
  exact ⟨conversation, count, (run_pages_complete Sample.config Sample.oneTurn
    ⟨fun _ => 1, fun _ => []⟩ member).1⟩

end RAGuardian.History
