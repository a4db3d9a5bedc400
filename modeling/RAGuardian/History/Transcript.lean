import Mathlib.Algebra.GroupWithZero.Nat
import RAGuardian.History.Origins

/-! # Transcripts

Every conversation is a linear chain of complete turns, its messages are the
exchanges of that chain in order, and its counters are what the messages add up
to. -/

namespace RAGuardian.History

open Execution

variable {config : StoreConfig} {draws : Draws} {before after : Database}

/-! ## Leases and statuses -/

/-- A lease token is held exactly while a turn is in flight. -/
def Database.Leased (database : Database) : Prop :=
  ∀ row ∈ database.turnRequests, row.leaseToken.isSome = row.inFlight

theorem Effect.leased (effect : Effect config draws before after) (holds : before.Leased) :
    after.Leased := by
  intro row member
  cases effect.turnOrigin member with
  | kept member => exact holds row member
  | failed old updatedAt member incomplete equal =>
      subst equal
      rfl
  | changed old member change =>
      rw [change.inFlight]
      rcases change.leaseToken with ⟨inFlight, same⟩ | ⟨token, -, drawn⟩
      · rw [same, holds old member, inFlight]
      · rw [drawn, Option.isSome_some]
  | reserved reservation =>
      rw [reservation.leaseToken, TurnRow.inFlight, reservation.status]
      rfl
  | committed old member leased incomplete equal =>
      subst equal
      rfl

/-! ## Exchanges -/

/-- The sequence, turn and role of the messages a chain of turns leaves. -/
def exchanges (first : Nat) : List TurnRow → List (Nat × String × Role)
  | [] => []
  | turn :: turns =>
      (first, turn.turnId, .user) :: (first + 1, turn.turnId, .assistant) ::
        exchanges (first + 2) turns

theorem exchanges_append (first : Nat) (turns others : List TurnRow) :
    exchanges first (turns ++ others) =
      exchanges first turns ++ exchanges (first + 2 * turns.length) others := by
  induction turns generalizing first with
  | nil => simp [exchanges]
  | cons turn turns induction =>
      have shift : first + 2 + 2 * turns.length = first + 2 * (turns.length + 1) := by omega
      simp [exchanges, induction, shift]

theorem exchanges_sequences (first : Nat) (turns : List TurnRow) :
    (exchanges first turns).map Prod.fst = List.range' first (2 * turns.length) := by
  induction turns generalizing first with
  | nil => rfl
  | cons turn turns induction =>
      have double : 2 * (turns.length + 1) = 2 * turns.length + 1 + 1 := by omega
      simp [exchanges, induction, double, List.range'_succ]

theorem exchanges_get (first : Nat) (turns : List TurnRow) (index : Nat)
    (bound : index < turns.length) :
    (exchanges first turns)[2 * index]? = some (first + 2 * index, turns[index].turnId, .user) ∧
      (exchanges first turns)[2 * index + 1]? =
        some (first + 2 * index + 1, turns[index].turnId, .assistant) := by
  induction turns generalizing first index with
  | nil => cases bound
  | cons turn turns induction =>
      cases index with
      | zero => exact ⟨rfl, rfl⟩
      | succ index =>
          have next := induction (first + 2) index (by simpa using bound)
          have shift : first + 2 + 2 * index = first + 2 * (index + 1) := by omega
          rw [shift] at next
          exact next

theorem foldl_max_range' (count : Nat) : (List.range' 1 count).foldl max 0 = count := by
  induction count with
  | zero => rfl
  | succ count induction =>
      rw [List.range'_concat, List.foldl_append, induction]
      simp [Nat.add_comm]

/-- Every place of an exchange list belongs to one of its turns. -/
theorem mem_exchanges {first : Nat} {turns : List TurnRow} {place : Nat × String × Role}
    (member : place ∈ exchanges first turns) :
    ∃ index, ∃ bound : index < turns.length,
      place = (first + 2 * index, turns[index].turnId, .user) ∨
        place = (first + 2 * index + 1, turns[index].turnId, .assistant) := by
  induction turns generalizing first with
  | nil => cases member
  | cons turn turns induction =>
      rcases List.mem_cons.mp member with rfl | member
      · exact ⟨0, Nat.succ_pos _, .inl rfl⟩
      · rcases List.mem_cons.mp member with rfl | member
        · exact ⟨0, Nat.succ_pos _, .inr rfl⟩
        · obtain ⟨index, bound, placed⟩ := induction member
          have shift : first + 2 + 2 * index = first + 2 * (index + 1) := by omega
          rw [shift] at placed
          exact ⟨index + 1, Nat.succ_lt_succ bound, placed⟩

/-! ## Linear histories -/

/-- Where a message stands in its conversation. -/
def MessageOf.place (row : MessageRow) : Nat × String × Role :=
  (row.sequence, row.turnId, row.role)

/-- A conversation whose complete turns are `turns`, in the order they were
completed. The chain equation says that each turn names the one before it as
its parent, and that `last_turn_id` is the parent a next turn has to name. -/
structure LinearHistory (database : Database) (conversation : ConversationRow)
    (turns : List TurnRow) : Prop where
  completed : ∀ row, row ∈ turns ↔ row ∈ database.turnRequests ∧
    row.conversationId = conversation.id ∧ row.status = .complete
  nodup : turns.Nodup
  linked : turns.map (·.parentTurnId) ++ [conversation.lastTurnId] =
    none :: turns.map fun turn => some turn.turnId
  messages : (database.messagesOf conversation.id).map MessageOf.place = exchanges 1 turns
  messageCount : conversation.messageCount = 2 * turns.length
  payloadBytes : conversation.payloadBytes =
    ((database.messagesOf conversation.id).map (·.payloadBytes)).sum
  inFlight : ∀ row ∈ database.turnRequests, row.conversationId = conversation.id →
    row.inFlight = true → row.parentTurnId = conversation.lastTurnId

/-- Every conversation has a linear history. -/
structure Database.Linear (database : Database) : Prop where
  leased : database.Leased
  histories : ∀ conversation ∈ database.conversations,
    ∃ turns, LinearHistory database conversation turns

theorem Database.empty_linear : Database.empty.Linear where
  leased row member := by cases member
  histories conversation member := by cases member

namespace LinearHistory

variable {database : Database} {conversation : ConversationRow} {turns : List TurnRow}

theorem sequences (history : LinearHistory database conversation turns) :
    (database.messagesOf conversation.id).map (·.sequence) =
      List.range' 1 conversation.messageCount := by
  have places := congrArg (List.map Prod.fst) history.messages
  rw [List.map_map, exchanges_sequences, ← history.messageCount] at places
  exact places

theorem nextSequence_eq (history : LinearHistory database conversation turns) :
    nextSequence database conversation.id = conversation.messageCount + 1 := by
  rw [nextSequence, history.sequences, foldl_max_range']

/-- Rows outside the transcript may change, as long as those in flight still
extend it. -/
theorem transfer {new : ConversationRow} (history : LinearHistory before conversation turns)
    (same : SameAccount conversation new)
    (messages : after.messagesOf new.id = before.messagesOf new.id)
    (completed : ∀ turn : TurnRow, turn.conversationId = new.id → turn.status = .complete →
      (turn ∈ after.turnRequests ↔ turn ∈ before.turnRequests))
    (inFlight : ∀ row ∈ after.turnRequests, row.conversationId = new.id →
      row.inFlight = true → row.parentTurnId = new.lastTurnId) :
    LinearHistory after new turns where
  completed row := by
    rw [history.completed row, ← same.id]
    constructor
    · rintro ⟨member, owned, complete⟩
      exact ⟨(completed row owned complete).mpr member, owned, complete⟩
    · rintro ⟨member, owned, complete⟩
      exact ⟨(completed row owned complete).mp member, owned, complete⟩
  nodup := history.nodup
  linked := by rw [same.lastTurnId, history.linked]
  messages := by rw [messages, same.id, history.messages]
  messageCount := by rw [same.messageCount, history.messageCount]
  payloadBytes := by rw [messages, same.payloadBytes, same.id, history.payloadBytes]
  inFlight := inFlight

end LinearHistory

/-- Two turns under the linear-parent index cannot name one parent. -/
theorem Database.indexed_unique {database : Database} {left right : TurnRow}
    (leftMember : left ∈ database.turnRequests) (rightMember : right ∈ database.turnRequests)
    (leftIndexed : left.indexed = true) (rightIndexed : right.indexed = true)
    (owner : left.conversationId = right.conversationId)
    (parent : left.parentTurnId = right.parentTurnId) : left = right := by
  refine Table.eq_of_key_eq database.constraints.linearParents
    (List.mem_filter.mpr ⟨leftMember, leftIndexed⟩)
    (List.mem_filter.mpr ⟨rightMember, rightIndexed⟩) ?_
  rw [TurnRow.parentSlot, TurnRow.parentSlot, owner, parent]

theorem TurnRow.indexed_of_inFlight {row : TurnRow} (inFlight : row.inFlight = true) :
    row.indexed = true := by
  cases status : row.status <;> simp_all [TurnRow.inFlight, TurnRow.indexed]

/-- The row stored under an identifier. -/
theorem Database.lastTurnId_eq {database : Database} {conversation : ConversationRow}
    (member : conversation ∈ database.conversations) :
    database.lastTurnId conversation.id = conversation.lastTurnId := by
  rw [Database.lastTurnId, Database.conversationById_eq_some.mpr ⟨member, rfl⟩,
    Option.bind_some]

/-! ## One effect -/

/-- Turns that an effect puts or keeps in flight extend the conversation as it
was before. -/
theorem Effect.inFlight_linear (effect : Effect config draws before after)
    (holds : before.Linear) {conversation : ConversationRow}
    (member : conversation ∈ before.conversations) {row : TurnRow}
    (rowMember : row ∈ after.turnRequests) (owned : row.conversationId = conversation.id)
    (inFlight : row.inFlight = true) : row.parentTurnId = conversation.lastTurnId := by
  obtain ⟨turns, history⟩ := holds.histories conversation member
  cases effect.turnOrigin rowMember with
  | kept oldMember => exact history.inFlight row oldMember owned inFlight
  | failed old updatedAt oldMember incomplete equal =>
      subst equal
      cases inFlight
  | changed old oldMember change =>
      have sameOwner : old.conversationId = conversation.id :=
        (congrArg Prod.fst change.key).symm.trans owned
      rcases change.linear with oldInFlight | linear
      · rw [change.parentTurnId]
        exact history.inFlight old oldMember sameOwner oldInFlight
      · rw [linear, owned, Database.lastTurnId_eq member]
  | reserved reservation =>
      rw [reservation.linear, owned, Database.lastTurnId_eq member]
  | committed old oldMember leased incomplete equal =>
      subst equal
      cases inFlight

/-- The created conversation has no history. -/
theorem Stub.linearHistory {row : ConversationRow} (stub : Stub draws row)
    (messages : after.messagesOf row.id = [])
    (turns : ∀ turn ∈ after.turnRequests, turn.conversationId ≠ row.id) :
    LinearHistory after row [] where
  completed turn := by
    constructor
    · intro member
      cases member
    · rintro ⟨member, owned, -⟩
      exact absurd owned (turns turn member)
  nodup := List.nodup_nil
  linked := by simp [stub.lastTurnId]
  messages := by rw [messages]; rfl
  messageCount := by rw [stub.messageCount]; rfl
  payloadBytes := by rw [messages, stub.payloadBytes]; rfl
  inFlight turn member owned := absurd owned (turns turn member)

/-- After a completion the row of its turn is the committed one, and every other
row is as before. -/
theorem Commit.mem_turnRequests {arguments : CompleteTurnArguments} {turn : TurnRow}
    {conversation : ConversationRow} {user assistant : MessageRow} {title : String}
    {promptRef : Json.Column}
    (commit : Commit config draws arguments turn conversation user assistant title promptRef
      before after) (row : TurnRow) :
    row ∈ after.turnRequests ↔
      row = turn.commit draws.now ∨ (row ∈ before.turnRequests ∧ row.key ≠ turn.key) := by
  rw [commit.turnRequests, Table.mem_update]
  constructor
  · rintro ⟨old, member, equal⟩
    split at equal
    · rename_i selected
      have same := Table.eq_of_key_eq before.constraints.turnKeys member commit.member
        (eq_of_beq selected)
      exact .inl (same ▸ equal.symm)
    · rename_i different
      exact .inr ⟨equal ▸ member, by simpa [equal] using different⟩
  · rintro (rfl | ⟨member, different⟩)
    · exact ⟨turn, commit.member, by simp⟩
    · exact ⟨row, member, by simp [different]⟩

/-- A completion extends the history of its conversation by its turn. -/
theorem Commit.linearHistory {arguments : CompleteTurnArguments} {turn : TurnRow}
    {conversation : ConversationRow} {user assistant : MessageRow} {title : String}
    {promptRef : Json.Column} {turns : List TurnRow}
    (commit : Commit config draws arguments turn conversation user assistant title promptRef
      before after) (leased : before.Leased)
    (history : LinearHistory before conversation turns) :
    LinearHistory after ((ConversationUpdate.commit arguments title promptRef
      (conversation.messageCount + 2)
      (conversation.payloadBytes + (user.payloadBytes + assistant.payloadBytes))
      draws.now).apply conversation) (turns ++ [turn.commit draws.now]) := by
  have inFlight : turn.inFlight = true := by
    rw [← leased turn commit.member, commit.leaseToken, Option.isSome_some]
  have parent := history.inFlight turn commit.member commit.owns.symm inFlight
  have absent : ∀ row ∈ turns, row.key ≠ turn.key := by
    intro row member equal
    obtain ⟨rowMember, -, complete⟩ := (history.completed row).mp member
    rw [Table.eq_of_key_eq before.constraints.turnKeys rowMember commit.member equal] at complete
    exact commit.notComplete complete
  have exchange := commit.exchange
  have messagesOf := commit.messagesOf
  rw [← commit.owns] at messagesOf
  refine {
    completed := ?completed
    nodup := ?nodup
    linked := ?linked
    messages := ?messages
    messageCount := ?messageCount
    payloadBytes := ?payloadBytes
    inFlight := ?inFlight }
  case completed =>
    intro row
    rw [List.mem_append, List.mem_singleton, commit.mem_turnRequests row]
    constructor
    · rintro (member | rfl)
      · obtain ⟨rowMember, owned, complete⟩ := (history.completed row).mp member
        exact ⟨.inr ⟨rowMember, absent row member⟩, owned, complete⟩
      · exact ⟨.inl rfl, commit.owns.symm, rfl⟩
    · rintro ⟨rfl | ⟨rowMember, -⟩, owned, complete⟩
      · exact .inr rfl
      · exact .inl ((history.completed row).mpr ⟨rowMember, owned, complete⟩)
  case nodup =>
    refine List.nodup_append.mpr ⟨history.nodup, List.nodup_singleton _, ?_⟩
    intro row member other otherMember equal
    have key : row.key = (turn.commit draws.now).key := by
      rw [equal, List.mem_singleton.mp otherMember]
    exact absent row member key
  case linked =>
    show (turns ++ [turn.commit draws.now]).map (·.parentTurnId) ++ [some arguments.turnId] = _
    have last : (turn.commit draws.now).parentTurnId = conversation.lastTurnId := parent
    have named : (turn.commit draws.now).turnId = arguments.turnId := commit.turnId
    rw [List.map_append, List.map_singleton, last, history.linked, List.map_append,
      List.map_singleton, named, List.cons_append]
  case messages =>
    show (after.messagesOf conversation.id).map MessageOf.place = _
    have sequence : nextSequence before turn.conversationId = 1 + 2 * turns.length := by
      rw [← commit.owns, history.nextSequence_eq, history.messageCount, Nat.add_comm]
    have userPlace : user.place = (1 + 2 * turns.length, turn.turnId, .user) := by
      rw [MessageOf.place, exchange.userSequence, exchange.userTurn, exchange.userRole,
        sequence]
    have assistantPlace :
        assistant.place = (1 + 2 * turns.length + 1, turn.turnId, .assistant) := by
      rw [MessageOf.place, exchange.assistantSequence, exchange.assistantTurn,
        exchange.assistantRole, sequence]
    rw [messagesOf, List.map_append, history.messages, exchanges_append]
    simp only [List.map_cons, List.map_nil, userPlace, assistantPlace, exchanges]
    rfl
  case messageCount =>
    show conversation.messageCount + 2 = _
    rw [history.messageCount, List.length_append, List.length_singleton]
    omega
  case payloadBytes =>
    show conversation.payloadBytes + (user.payloadBytes + assistant.payloadBytes) =
      ((after.messagesOf conversation.id).map (·.payloadBytes)).sum
    rw [messagesOf, List.map_append, List.sum_append, ← history.payloadBytes]
    simp
  case inFlight =>
    intro row member owned rowInFlight
    rcases (commit.mem_turnRequests row).mp member with rfl | ⟨rowMember, different⟩
    · cases rowInFlight
    · have rowParent := history.inFlight row rowMember owned rowInFlight
      have same := Database.indexed_unique rowMember commit.member
        (TurnRow.indexed_of_inFlight rowInFlight) (TurnRow.indexed_of_inFlight inFlight)
        (owned.trans commit.owns) (rowParent.trans parent.symm)
      exact absurd (congrArg TurnRow.key same) different

theorem Effect.linear (effect : Effect config draws before after) (holds : before.Linear) :
    after.Linear := by
  refine ⟨effect.leased holds.leased, ?_⟩
  intro conversation member
  cases effect.conversationOrigin member with
  | created stub fresh messages turns => exact ⟨[], stub.linearHistory messages turns⟩
  | kept old oldMember same messages completed =>
      obtain ⟨turns, history⟩ := holds.histories old oldMember
      refine ⟨turns, history.transfer same messages completed ?_⟩
      intro row rowMember owned inFlight
      rw [same.lastTurnId]
      exact effect.inFlight_linear holds oldMember rowMember (owned.trans same.id) inFlight
  | committed arguments turn old user assistant title promptRef commit equal =>
      obtain ⟨turns, history⟩ := holds.histories old commit.owner
      exact ⟨_, equal ▸ commit.linearHistory holds.leased history⟩

/-! ## Whole runs -/

/-- Every state the store reaches from an empty database is linear. -/
theorem run_linear (config : StoreConfig) (events : List Event) :
    (run (Event.after config) .empty events).Linear :=
  run_preserves (fun _ _ _ effect => effect.linear) events Database.empty_linear

/-! ## What readers rely on -/

namespace LinearHistory

variable {database : Database} {conversation : ConversationRow} {turns : List TurnRow}

theorem lastTurnId_eq (history : LinearHistory database conversation turns) :
    conversation.lastTurnId = turns.getLast?.map (·.turnId) := by
  have last := congrArg List.getLast? history.linked
  rw [List.getLast?_concat, List.getLast?_cons, List.getLast?_map] at last
  rw [Option.some.inj last]
  cases turns.getLast? <;> rfl

theorem turnIds_nodup (history : LinearHistory database conversation turns) :
    (turns.map (·.turnId)).Nodup := by
  refine List.Nodup.map_on ?_ history.nodup
  intro left leftMember right rightMember equal
  obtain ⟨leftRow, leftOwner, -⟩ := (history.completed left).mp leftMember
  obtain ⟨rightRow, rightOwner, -⟩ := (history.completed right).mp rightMember
  exact Table.eq_of_key_eq database.constraints.turnKeys leftRow rightRow
    (Prod.ext (leftOwner.trans rightOwner.symm) equal)

/-- Every message belongs to the turn at some position and carries one of its two
sequence numbers. -/
theorem exists_turn (history : LinearHistory database conversation turns)
    {message : MessageRow} (member : message ∈ database.messagesOf conversation.id) :
    ∃ index, ∃ bound : index < turns.length, message.turnId = turns[index].turnId ∧
      (message.sequence = 2 * index + 1 ∨ message.sequence = 2 * index + 2) := by
  have placed : message.place ∈ exchanges 1 turns :=
    history.messages ▸ List.mem_map_of_mem member
  obtain ⟨index, bound, place⟩ := mem_exchanges placed
  simp only [MessageOf.place, Prod.mk.injEq] at place
  refine ⟨index, bound, ?_, ?_⟩
  · rcases place with ⟨-, turn, -⟩ | ⟨-, turn, -⟩ <;> exact turn
  · omega

/-- The messages of the turn at a position carry its two sequence numbers. -/
theorem sequence_of_turn (history : LinearHistory database conversation turns)
    {index : Nat} (bound : index < turns.length) {message : MessageRow}
    (member : message ∈ database.messagesOf conversation.id)
    (turn : message.turnId = turns[index].turnId) :
    message.sequence = 2 * index + 1 ∨ message.sequence = 2 * index + 2 := by
  obtain ⟨other, otherBound, otherTurn, sequence⟩ := history.exists_turn member
  have injective := List.nodup_iff_injective_getElem.mp history.turnIds_nodup
  have equal := @injective ⟨other, by simpa using otherBound⟩ ⟨index, by simpa using bound⟩
    (by simpa using otherTurn.symm.trans turn)
  have sameIndex : other = index := congrArg Fin.val equal
  exact sameIndex ▸ sequence

/-- The turn at a position has both of its messages. -/
theorem exists_messages (history : LinearHistory database conversation turns)
    {index : Nat} (bound : index < turns.length) :
    (∃ user ∈ database.messagesOf conversation.id,
      user.place = (2 * index + 1, turns[index].turnId, .user)) ∧
    ∃ assistant ∈ database.messagesOf conversation.id,
      assistant.place = (2 * index + 2, turns[index].turnId, .assistant) := by
  obtain ⟨userPlace, assistantPlace⟩ := exchanges_get 1 turns index bound
  have first : 1 + 2 * index = 2 * index + 1 := by omega
  rw [first, ← history.messages] at userPlace assistantPlace
  exact ⟨List.mem_map.mp (List.mem_of_getElem? userPlace),
    List.mem_map.mp (List.mem_of_getElem? assistantPlace)⟩

theorem parent_of_first (history : LinearHistory database conversation turns)
    (bound : 0 < turns.length) : turns[0].parentTurnId = none := by
  have head := congrArg (·[0]?) history.linked
  simpa [bound] using head

theorem parent_of_next (history : LinearHistory database conversation turns) {index : Nat}
    (bound : index + 1 < turns.length) :
    turns[index + 1].parentTurnId = some turns[index].turnId := by
  have entry := congrArg (·[index + 1]?) history.linked
  have inside : index < turns.length := by omega
  simpa [bound, inside, List.getElem?_append] using entry

end LinearHistory

/-- The counters of a conversation agree with its messages and turns. -/
structure Consistent (database : Database) (conversation : ConversationRow) : Prop where
  sequences : (database.messagesOf conversation.id).map (·.sequence) =
    List.range' 1 conversation.messageCount
  messageCount : conversation.messageCount = 2 * database.turnRequests.countP fun row =>
    row.conversationId == conversation.id && row.status == .complete
  exchanges : ∀ index, 1 ≤ index → 2 * index ≤ conversation.messageCount →
    ∃ turn ∈ database.turnRequests,
      turn.conversationId = conversation.id ∧ turn.status = .complete ∧
      (∃ user ∈ database.messagesOf conversation.id,
        user.sequence = 2 * index - 1 ∧ user.turnId = turn.turnId ∧ user.role = .user) ∧
      ∃ assistant ∈ database.messagesOf conversation.id,
        assistant.sequence = 2 * index ∧ assistant.turnId = turn.turnId ∧
          assistant.role = .assistant
  payloadBytes : conversation.payloadBytes =
    ((database.messagesOf conversation.id).map (·.payloadBytes)).sum
  lastTurn : ∀ message ∈ database.messagesOf conversation.id,
    (∀ other ∈ database.messagesOf conversation.id, other.sequence ≤ message.sequence) →
      conversation.lastTurnId = some message.turnId
  noTurn : conversation.lastTurnId = none ↔ database.messagesOf conversation.id = []

theorem LinearHistory.consistent {database : Database} {conversation : ConversationRow}
    {turns : List TurnRow} (history : LinearHistory database conversation turns) :
    Consistent database conversation where
  sequences := history.sequences
  messageCount := by
    rw [history.messageCount, List.countP_eq_length_filter]
    refine congrArg (2 * ·) (List.Perm.length_eq ?_)
    refine (List.perm_ext_iff_of_nodup history.nodup
      ((List.Nodup.of_map _ database.constraints.turnKeys).filter _)).mpr fun row => ?_
    rw [history.completed row, List.mem_filter]
    simp
  exchanges index positive bound := by
    rw [history.messageCount] at bound
    have inside : index - 1 < turns.length := by omega
    obtain ⟨member, owned, complete⟩ :=
      (history.completed turns[index - 1]).mp (List.getElem_mem inside)
    obtain ⟨⟨user, userMember, userPlace⟩, assistant, assistantMember, assistantPlace⟩ :=
      history.exists_messages inside
    simp only [MessageOf.place, Prod.mk.injEq] at userPlace assistantPlace
    obtain ⟨userSequence, userTurn, userRole⟩ := userPlace
    obtain ⟨assistantSequence, assistantTurn, assistantRole⟩ := assistantPlace
    exact ⟨turns[index - 1], member, owned, complete,
      ⟨user, userMember, by omega, userTurn, userRole⟩,
      ⟨assistant, assistantMember, by omega, assistantTurn, assistantRole⟩⟩
  payloadBytes := history.payloadBytes
  lastTurn message member highest := by
    obtain ⟨index, bound, turn, sequence⟩ := history.exists_turn member
    have inside : turns.length - 1 < turns.length := by omega
    obtain ⟨-, assistant, assistantMember, assistantPlace⟩ := history.exists_messages inside
    have atLeast := highest assistant assistantMember
    have assistantSequence : assistant.sequence = _ := congrArg Prod.fst assistantPlace
    have sameIndex : index = turns.length - 1 := by omega
    subst sameIndex
    rw [history.lastTurnId_eq, turn, List.getLast?_eq_getElem?,
      List.getElem?_eq_getElem bound, Option.map_some]
  noTurn := by
    have length := congrArg List.length history.sequences
    rw [List.length_map, List.length_range', history.messageCount] at length
    rw [history.lastTurnId_eq, Option.map_eq_none_iff, List.getLast?_eq_none_iff,
      ← List.length_eq_zero_iff, ← List.length_eq_zero_iff]
    omega

/-- In every state the store reaches from an empty database, every conversation
is consistent. -/
theorem run_consistent (config : StoreConfig) (events : List Event) :
    ∀ conversation ∈ (run (Event.after config) .empty events).conversations,
      Consistent (run (Event.after config) .empty events) conversation := by
  intro conversation member
  obtain ⟨turns, history⟩ := (run_linear config events).histories conversation member
  exact history.consistent

/-- The conversation of one completed turn. -/
theorem run_consistent_oneTurn :
    ∃ conversation : ConversationRow, conversation.messageCount = 2 ∧
      Consistent (run (Event.after Sample.config) .empty Sample.oneTurn) conversation := by
  have stored : ∃ conversation ∈
      (run (Event.after Sample.config) .empty Sample.oneTurn).conversations,
      conversation.messageCount = 2 := by
    decide +kernel
  rcases stored with ⟨conversation, member, count⟩
  exact ⟨conversation, count, run_consistent Sample.config Sample.oneTurn conversation member⟩

/-- The complete turns of a conversation in message order form a chain of
parents. -/
structure LinearChain (database : Database) (conversation : ConversationRow)
    (turns : List TurnRow) : Prop where
  complete : ∀ row, row ∈ turns ↔ row ∈ database.turnRequests ∧
    row.conversationId = conversation.id ∧ row.status = .complete
  ordered : turns.Pairwise fun earlier later =>
    ∀ first ∈ database.messagesOf conversation.id, first.turnId = earlier.turnId →
      ∀ second ∈ database.messagesOf conversation.id, second.turnId = later.turnId →
        first.sequence < second.sequence
  stored : ∀ turn ∈ turns, ∃ message ∈ database.messagesOf conversation.id,
    message.turnId = turn.turnId
  first : ∀ turn ∈ turns.head?, turn.parentTurnId = none
  next : turns.IsChain fun previous turn => turn.parentTurnId = some previous.turnId

theorem LinearHistory.linearChain {database : Database} {conversation : ConversationRow}
    {turns : List TurnRow} (history : LinearHistory database conversation turns) :
    LinearChain database conversation turns where
  complete := history.completed
  ordered := by
    rw [List.pairwise_iff_getElem]
    intro earlier later earlierBound laterBound before first firstMember firstTurn second
      secondMember secondTurn
    have firstSequence := history.sequence_of_turn earlierBound firstMember firstTurn
    have secondSequence := history.sequence_of_turn laterBound secondMember secondTurn
    omega
  stored turn member := by
    obtain ⟨index, bound, rfl⟩ := List.getElem_of_mem member
    obtain ⟨⟨user, userMember, place⟩, -⟩ := history.exists_messages bound
    exact ⟨user, userMember, congrArg (·.2.1) place⟩
  first turn head := by
    cases turns with
    | nil => cases head
    | cons first rest =>
        cases head
        exact history.parent_of_first (Nat.succ_pos _)
  next := List.isChain_iff_getElem.mpr fun index bound => history.parent_of_next bound

/-- In every state the store reaches from an empty database, a conversation has
at most one turn in flight, which extends its last complete turn; its complete
turns form one linear chain, and no two of them share a parent. -/
theorem run_turns_linear (config : StoreConfig) (events : List Event) :
    ∀ conversation ∈ (run (Event.after config) .empty events).conversations,
      (∀ left ∈ (run (Event.after config) .empty events).turnRequests,
        ∀ right ∈ (run (Event.after config) .empty events).turnRequests,
          left.conversationId = conversation.id → right.conversationId = conversation.id →
            left.inFlight = true → right.inFlight = true → left = right) ∧
      (∀ row ∈ (run (Event.after config) .empty events).turnRequests,
        row.conversationId = conversation.id → row.inFlight = true →
          row.parentTurnId = conversation.lastTurnId) ∧
      (∃ turns,
        LinearChain (run (Event.after config) .empty events) conversation turns) ∧
      ∀ left ∈ (run (Event.after config) .empty events).turnRequests,
        ∀ right ∈ (run (Event.after config) .empty events).turnRequests,
          left.conversationId = conversation.id → right.conversationId = conversation.id →
            left.status = .complete → right.status = .complete →
              left.parentTurnId = right.parentTurnId → left = right := by
  intro conversation member
  obtain ⟨turns, history⟩ := (run_linear config events).histories conversation member
  refine ⟨?_, history.inFlight, ⟨turns, history.linearChain⟩, ?_⟩
  · intro left leftMember right rightMember leftOwner rightOwner leftInFlight rightInFlight
    exact Database.indexed_unique leftMember rightMember
      (TurnRow.indexed_of_inFlight leftInFlight) (TurnRow.indexed_of_inFlight rightInFlight)
      (leftOwner.trans rightOwner.symm)
      ((history.inFlight left leftMember leftOwner leftInFlight).trans
        (history.inFlight right rightMember rightOwner rightInFlight).symm)
  · intro left leftMember right rightMember leftOwner rightOwner leftComplete rightComplete
    exact Database.indexed_unique leftMember rightMember
      (by rw [TurnRow.indexed, leftComplete]; rfl)
      (by rw [TurnRow.indexed, rightComplete]; rfl) (leftOwner.trans rightOwner.symm)

/-- The chain of a single completed turn. -/
theorem run_turns_linear_oneTurn :
    ∃ conversation : ConversationRow, conversation.lastTurnId = some "t1" ∧
      ∃ turns, LinearChain (run (Event.after Sample.config) .empty Sample.oneTurn)
        conversation turns := by
  have stored : ∃ conversation ∈
      (run (Event.after Sample.config) .empty Sample.oneTurn).conversations,
      conversation.lastTurnId = some "t1" := by
    decide +kernel
  rcases stored with ⟨conversation, member, last⟩
  exact ⟨conversation, last,
    (run_turns_linear Sample.config Sample.oneTurn conversation member).2.2.1⟩

end RAGuardian.History
