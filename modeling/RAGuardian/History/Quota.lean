import Mathlib.Algebra.GroupWithZero.Nat
import Mathlib.Algebra.Order.BigOperators.Group.List
import RAGuardian.History.Isolation

/-! # Quotas

The counts and sizes that the configured limits bound, over every run. -/

namespace RAGuardian.History

open Json Execution

variable {config : StoreConfig} {draws : Draws} {before after : Database}

/-! ## Conversations -/

/-- Conversations within the configured limits. A limit below zero keeps the
store empty, as zero does. -/
structure ConversationsWithin (config : StoreConfig) (rows : List ConversationRow) : Prop where
  messageCount : ∀ row ∈ rows,
    (row.messageCount : Int) ≤ max config.maxMessagesPerConversation 0
  payloadBytes : ∀ row ∈ rows, (row.payloadBytes : Int) ≤ max config.maxConversationBytes 0
  historyBytes :
    (((rows.map (·.payloadBytes)).sum : Nat) : Int) ≤ max config.maxHistoryBytes 0
  conversations : 0 < config.maxConversations →
    ((rows.countP fun row => 0 < row.messageCount : Nat) : Int) ≤ config.maxConversations

namespace ConversationsWithin

variable {rows others : List ConversationRow}

theorem empty : ConversationsWithin config [] where
  messageCount row member := by cases member
  payloadBytes row member := by cases member
  historyBytes := by simp
  conversations limited := by simp; omega

theorem sublist (within : ConversationsWithin config rows) (fewer : others.Sublist rows) :
    ConversationsWithin config others where
  messageCount row member := within.messageCount row (fewer.subset member)
  payloadBytes row member := within.payloadBytes row (fewer.subset member)
  historyBytes := by
    have smaller := (fewer.map (·.payloadBytes)).sum_le_sum (fun _ _ => Nat.zero_le _)
    have bound := within.historyBytes
    omega
  conversations limited := by
    have smaller := fewer.countP_le (p := fun row => decide (0 < row.messageCount))
    have bound := within.conversations limited
    omega

theorem append_empty (within : ConversationsWithin config rows) {row : ConversationRow}
    (messageCount : row.messageCount = 0) (payloadBytes : row.payloadBytes = 0) :
    ConversationsWithin config (rows ++ [row]) where
  messageCount other member := by
    rcases List.mem_append.mp member with old | new
    · exact within.messageCount other old
    · rw [List.mem_singleton.mp new, messageCount]
      simp
  payloadBytes other member := by
    rcases List.mem_append.mp member with old | new
    · exact within.payloadBytes other old
    · rw [List.mem_singleton.mp new, payloadBytes]
      simp
  historyBytes := by simpa [payloadBytes] using within.historyBytes
  conversations limited := by simpa [messageCount] using within.conversations limited

theorem update_quiet (within : ConversationsWithin config rows)
    (selects : ConversationRow → Bool) {update : ConversationUpdate} (quiet : update.Quiet) :
    ConversationsWithin config (Table.update selects update.apply rows) where
  messageCount row member := by
    rcases Table.mem_update.mp member with ⟨old, oldMember, rfl⟩
    split
    · rw [quiet.messageCount]
      exact within.messageCount old oldMember
    · exact within.messageCount old oldMember
  payloadBytes row member := by
    rcases Table.mem_update.mp member with ⟨old, oldMember, rfl⟩
    split
    · rw [quiet.payloadBytes]
      exact within.payloadBytes old oldMember
    · exact within.payloadBytes old oldMember
  historyBytes := by
    rw [Table.map_update ConversationOf.payloadBytes quiet.payloadBytes]
    exact within.historyBytes
  conversations limited := by
    rw [Table.countP_update fun row _ _ => by rw [quiet.messageCount]]
    exact within.conversations limited

end ConversationsWithin

/-- A completion has checked every limit for the row it is about to store. -/
theorem Commit.conversationsWithin {arguments : CompleteTurnArguments} {turn : TurnRow}
    {conversation : ConversationRow} {user assistant : MessageRow} {title : String}
    {promptRef : Column}
    (commit : Commit config draws arguments turn conversation user assistant title promptRef
      before after)
    (within : ConversationsWithin config before.conversations) :
    ConversationsWithin config after.conversations := by
  rcases Table.exists_update_eq before.constraints.conversationKeys commit.owner
    (·.id == turn.conversationId)
    (ConversationUpdate.commit arguments title promptRef (conversation.messageCount + 2)
      (conversation.payloadBytes + (user.payloadBytes + assistant.payloadBytes))
      draws.now).apply
    (fun other _ => by simp [commit.owns]) with ⟨earlier, later, rows, updated, first, last⟩
  have messageQuota := commit.messageQuota
  have bytesQuota := commit.bytesQuota
  have historyQuota := commit.historyQuota
  rw [commit.conversations, updated]
  rw [rows] at within historyQuota
  constructor
  · intro row member
    rcases List.mem_append.mp member with old | member
    · exact within.messageCount row (List.mem_append_left _ old)
    · rcases List.mem_cons.mp member with rfl | old
      · show ((conversation.messageCount + 2 : Nat) : Int) ≤ _
        omega
      · exact within.messageCount row (List.mem_append_right _ (List.mem_cons_of_mem _ old))
  · intro row member
    rcases List.mem_append.mp member with old | member
    · exact within.payloadBytes row (List.mem_append_left _ old)
    · rcases List.mem_cons.mp member with rfl | old
      · show ((conversation.payloadBytes +
          (user.payloadBytes + assistant.payloadBytes) : Nat) : Int) ≤ _
        omega
      · exact within.payloadBytes row (List.mem_append_right _ (List.mem_cons_of_mem _ old))
  · simp only [List.map_append, List.map_cons, List.sum_append, List.sum_cons] at historyQuota ⊢
    show (((earlier.map (·.payloadBytes)).sum + (conversation.payloadBytes +
      (user.payloadBytes + assistant.payloadBytes) + (later.map (·.payloadBytes)).sum) : Nat) :
        Int) ≤ _
    omega
  · intro limited
    have quota := commit.conversationQuota limited
    have bound := within.conversations limited
    rw [rows] at quota
    -- Only this conversation can start to count.
    have others : ∀ part : List ConversationRow, (∀ row ∈ part, row.id ≠ conversation.id) →
        part.countP (fun row => 0 < row.messageCount && row.id != conversation.id) =
          part.countP fun row => 0 < row.messageCount := by
      intro part distinct
      apply List.countP_congr
      intro row member
      simp [distinct row member]
    simp only [List.countP_append, List.countP_cons, others earlier first, others later last,
      bne_self_eq_false, Bool.and_false, Bool.false_eq_true, if_false] at quota bound ⊢
    show (((earlier.countP _ + (later.countP _ + if decide (0 < conversation.messageCount + 2)
      then 1 else 0) : Nat)) : Int) ≤ _
    by_cases empty : conversation.messageCount = 0
    · have room := quota empty
      simp [empty] at bound ⊢
      omega
    · have counted : 0 < conversation.messageCount := by omega
      simp [counted] at bound ⊢
      omega

theorem Effect.conversationsWithin (effect : Effect config draws before after)
    (within : ConversationsWithin config before.conversations) :
    ConversationsWithin config after.conversations := by
  cases effect with
  | failTurns selects updatedAt incomplete => exact within
  | changeTurn row change member changed tables =>
      rw [tables]
      exact within
  | insertConversation row stub tables =>
      rw [tables]
      exact within.append_empty stub.messageCount stub.payloadBytes
  | associate conversationId ids associates =>
      rw [associates.tables]
      exact within
  | reserve row reservation tables =>
      rw [tables]
      exact within
  | commit arguments row conversation user assistant title promptRef committed =>
      exact committed.conversationsWithin within
  | editConversation id update quiet => exact within.update_quiet _ quiet
  | deleteConversation id => exact within.sublist (Table.delete_sublist _ _)
  | deleteTurn key incomplete => exact within
  | stageCleanup row => exact within
  | deleteCleanup cleanupKey => exact within

/-! ## Pending turns -/

def pending (row : TurnRow) : Bool :=
  row.status != .complete

theorem pending_iff {row : TurnRow} : pending row = true ↔ row.status ≠ .complete := by
  simp [pending]

theorem pending_of_inFlight {row : TurnRow} (inFlight : row.inFlight = true) :
    pending row = true := by
  rw [pending_iff]
  intro complete
  simp [TurnRow.inFlight, complete] at inFlight

/-- Turn rows within the configured limit. -/
def PendingWithin (config : StoreConfig) (rows : List TurnRow) : Prop :=
  0 < config.maxPendingTurns → ((rows.countP pending : Nat) : Int) ≤ config.maxPendingTurns

theorem PendingWithin.of_le {rows others : List TurnRow} (within : PendingWithin config rows)
    (fewer : others.countP pending ≤ rows.countP pending) : PendingWithin config others := by
  intro limited
  have bound := within limited
  omega

theorem Effect.pendingWithin (effect : Effect config draws before after)
    (within : PendingWithin config before.turnRequests) :
    PendingWithin config after.turnRequests := by
  cases effect with
  | failTurns selects updatedAt incomplete =>
      refine within.of_le (Table.countP_update fun row member selected => ?_).le
      rw [pending_iff.mpr (incomplete row member selected)]
      rfl
  | changeTurn row change member changed tables =>
      rw [tables]
      refine within.of_le (Table.countP_update fun other otherMember selected => ?_).le
      have same := Table.eq_of_key_eq before.constraints.turnKeys otherMember member
        (by simpa using selected)
      rw [same, pending_of_inFlight changed.inFlight, pending_iff.mpr changed.notComplete]
  | insertConversation row stub tables =>
      rw [tables]
      exact within
  | associate conversationId ids associates =>
      rw [associates.tables]
      exact within
  | reserve row reservation tables =>
      rw [tables]
      intro limited
      have room := reservation.quota limited
      have counted : pending row = true := by simp [pending, reservation.status]
      rw [List.countP_append, List.countP_singleton, if_pos counted]
      change ((before.turnRequests.countP pending : Nat) : Int) < _ at room
      omega
  | commit arguments row conversation user assistant title promptRef committed =>
      rw [committed.turnRequests]
      apply within.of_le
      rw [Table.update, List.countP_map]
      apply List.countP_mono_left
      intro other member counted
      by_cases selected : other.key = row.key
      · simp [selected, pending, TurnRow.commit] at counted
      · simpa [selected] using counted
  | editConversation id update quiet => exact within
  | deleteConversation id => exact within.of_le (Table.delete_sublist _ _).countP_le
  | deleteTurn key incomplete => exact within.of_le (Table.delete_sublist _ _).countP_le
  | stageCleanup row => exact within
  | deleteCleanup cleanupKey => exact within

/-! ## Rejected calls -/

/-- A reply that cannot fail leaves every failure to the body. -/
theorem transaction_error_unchanged {reply : α → Except StoreError β}
    {body : Database → Except StoreError (α × Database)} {database : Database}
    {raised : StoreError} (replies : ∀ result, reply result ≠ .error raised)
    (failed : (transaction reply body database).1 = .error raised) :
    (transaction reply body database).2 = database := by
  unfold transaction at failed ⊢
  split at failed
  · rename_i result committed returned
    exact absurd failed (replies result)
  · rfl

theorem conversationRow_error {row : ConversationRow} {raised : StoreError}
    (failed : conversationRow row = .error raised) : raised = .jsonDecode := by
  unfold conversationRow at failed
  cases loaded : row.promptRef.loads (.dict []) with
  | none =>
      rw [loaded] at failed
      cases failed
      rfl
  | some value =>
      rw [loaded] at failed
      cases failed

theorem RecoverResultOf.decode_error {result : RecoverResultOf ConversationRow}
    {raised : StoreError} (failed : result.decode = .error raised) : raised = .jsonDecode := by
  cases result with
  | complete messages => cases failed
  | new leaseToken leaseExpiresAt row =>
      cases row with
      | none => cases failed
      | some row =>
          cases decoded : conversationRow row with
          | ok conversation => simp [RecoverResultOf.decode, decoded, Functor.map, Except.map,
              bind, Except.bind, pure, Except.pure] at failed
          | error other =>
              simp [RecoverResultOf.decode, decoded, Functor.map, Except.map,
                bind, Except.bind] at failed
              rw [← failed]
              exact conversationRow_error decoded

/-- A call that fails with an error of the history family has rolled back. -/
theorem Operation.run_error_unchanged (operation : Operation) {database : Database}
    {error : HistoryError}
    (failed : (operation.run config draws database).1 = .error (.history error)) :
    (operation.run config draws database).2 = database := by
  cases operation with
  | recoverReadyTurn scopeKey turnId requestFingerprint expectedLeaseToken =>
      refine transaction_error_unchanged (fun result decoded => ?_) failed
      cases shown : result.decode with
      | ok recovered => simp [shown, Except.map] at decoded
      | error raised =>
          simp [shown, Except.map, RecoverResultOf.decode_error shown] at decoded
  | updateConversation historyId title archived =>
      refine transaction_error_unchanged (fun row decoded => ?_) failed
      cases shown : conversationRow row with
      | ok conversation => simp [shown, Except.map] at decoded
      | error raised => simp [shown, Except.map, conversationRow_error shown] at decoded
  | _ => exact transaction_error_unchanged (fun result impossible => by cases impossible) failed

/-- Every count and size is within its limit. -/
structure Database.WithinQuotas (config : StoreConfig) (database : Database) : Prop where
  conversations : ConversationsWithin config database.conversations
  pending : PendingWithin config database.turnRequests

theorem Effect.withinQuotas (effect : Effect config draws before after)
    (within : before.WithinQuotas config) : after.WithinQuotas config where
  conversations := effect.conversationsWithin within.conversations
  pending := effect.pendingWithin within.pending

theorem Database.empty_withinQuotas : Database.empty.WithinQuotas config where
  conversations := .empty
  pending limited := limited.le

/-- In every reachable state every count and size is within its limit, and a call
rejected by a quota leaves the database as it was. -/
theorem run_within_quotas (config : StoreConfig) (events : List Event) :
    (run (Event.after config) .empty events).WithinQuotas config ∧
    ∀ (event : Event) (message : String),
      (event.operation.run config event.draws
        (run (Event.after config) .empty events)).1 =
          .error (.history (.quotaExceeded message)) →
        event.after config (run (Event.after config) .empty events) =
          run (Event.after config) .empty events :=
  ⟨run_preserves (fun _ _ _ effect => effect.withinQuotas) events
      Database.empty_withinQuotas,
    fun event _ rejected => event.operation.run_error_unchanged rejected⟩

/-- Under a negative message limit an empty stub is already above it. -/
theorem stub_above_negative_limit :
    ∃ conversation ∈
        (run (Event.after { Sample.config with maxMessagesPerConversation := -1 }) .empty
          [⟨.beginTurn (Sample.begins "t1" none), Sample.draws 0 "a"⟩]).conversations,
      ¬ (conversation.messageCount : Int) ≤ -1 := by
  decide +kernel

end RAGuardian.History
