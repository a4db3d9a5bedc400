import RAGuardian.History.Retention

/-! # Replaying complete turns

A turn is completed once; afterwards every retry gets the messages stored then,
for as long as the conversation lives. -/

namespace RAGuardian.History

open Json Execution

variable {config : StoreConfig} {draws : Draws} {before after database : Database}

/-! ## Conversations over a run -/

/-- A conversation that exists after an effect existed before it, or has just
been given its identifier. -/
theorem Effect.conversationIds (effect : Effect config draws before after) {id : String}
    (present : id ∈ after.conversationIds) :
    id ∈ before.conversationIds ∨ id = draws.conversationId := by
  obtain ⟨conversation, member, rfl⟩ := List.mem_map.mp present
  cases effect.conversationOrigin member with
  | created stub fresh messages turns => exact .inr stub.id
  | kept old oldMember same messages completed =>
      exact .inl (same.id ▸ List.mem_map_of_mem oldMember)
  | committed arguments turn old user assistant title promptRef commit equal =>
      subst equal
      exact .inl (List.mem_map.mpr ⟨old, commit.owner, rfl⟩)

/-- An effect of a call that draws other identifiers. -/
theorem Effect.conversationIds_of_ne (effect : Effect config draws before after)
    {id : String} (other : draws.conversationId ≠ id) (present : id ∈ after.conversationIds) :
    id ∈ before.conversationIds :=
  (effect.conversationIds present).resolve_right other.symm

/-- The identifiers a run has drawn. -/
def drawnIds (events : List Event) : List String :=
  events.map (·.draws.conversationId)

theorem Event.conversationIds_of_ne (event : Event) {id : String}
    (other : event.draws.conversationId ≠ id)
    (present : id ∈ (event.after config database).conversationIds) :
    id ∈ database.conversationIds :=
  chain_earlier (fun database => id ∈ database.conversationIds)
    (fun _ _ effect => effect.conversationIds_of_ne other)
    (event.operation.run_chain database) present

/-- Conversations get the identifiers that calls draw. -/
theorem run_conversationIds (events : List Event) {id : String}
    (present : id ∈ (run (Event.after config) .empty events).conversationIds) :
    id ∈ drawnIds events := by
  revert present
  refine run_history
    (fun past (database : Database) => id ∈ database.conversationIds → id ∈ drawnIds past)
    ?_ ?_ events
  · intro present
    cases present
  · intro past event induction present
    rw [drawnIds, List.map_append, List.mem_append]
    by_cases drawn : event.draws.conversationId = id
    · exact .inr (by simp [drawn])
    · exact .inl (induction (event.conversationIds_of_ne drawn present))

/-- What every effect preserves while a conversation lives is preserved along a
chain it survives. -/
theorem chain_while_alive {id : String} (holds : Database → Prop)
    (undrawn : draws.conversationId ≠ id)
    (preserved : ∀ before after, Effect config draws before after →
      id ∈ after.conversationIds → holds before → holds after)
    (chain : Chain config draws before after) (initial : holds before)
    (survives : id ∈ after.conversationIds) : holds after :=
  chain_while (fun database => id ∈ database.conversationIds)
    (fun _ _ effect => effect.conversationIds_of_ne undrawn) preserved chain initial survives

/-- The same over a run, when no call draws the identifier again. -/
theorem run_while_alive {id : String} (holds : Database → Prop)
    (preserved : ∀ draws before after, Effect config draws before after →
      draws.conversationId ≠ id → id ∈ after.conversationIds → holds before → holds after)
    (events : List Event) (undrawn : id ∉ drawnIds events) {database : Database}
    (initial : holds database)
    (survives : id ∈ (run (Event.after config) database events).conversationIds) :
    holds (run (Event.after config) database events) := by
  refine run_while (fun event : Event => event.draws.conversationId ≠ id)
    (fun database => id ∈ database.conversationIds)
    (fun event _ other => event.conversationIds_of_ne other) ?_ events ?_ initial survives
  · intro event state other survives held
    exact chain_while_alive holds other
      (fun before after effect => preserved event.draws before after effect other)
      (event.operation.run_chain state) held survives
  · intro event member equal
    exact undrawn (equal ▸ List.mem_map_of_mem member)

/-! ## Settled turns -/

/-- The messages of one turn, in insertion order. -/
def Database.turnMessages (database : Database) (conversationId turnId : String) :
    List MessageRow :=
  (database.messagesOf conversationId).filter (·.turnId == turnId)

theorem messagesForTurn_eq (database : Database) (conversationId turnId : String) :
    messagesForTurn database conversationId turnId =
      ((database.turnMessages conversationId turnId).insertionSort
        fun left right => left.sequence ≤ right.sequence).mapM messageRow := by
  rw [messagesForTurn, Database.turnMessages, Database.messagesOf, List.filter_filter]
  simp only [Bool.and_comm]

/-- A turn that is complete, with the request it answers and the two messages it
left. -/
structure Settled (database : Database) (scopeKey : String) (turn : TurnRow)
    (user assistant : MessageRow) : Prop where
  stored : turn ∈ database.turnRequests
  complete : turn.status = .complete
  messages : database.turnMessages turn.conversationId turn.turnId = [user, assistant]
  scope : ∀ conversation ∈ database.conversations,
    conversation.id = turn.conversationId → conversation.scopeKey = scopeKey

/-- A settled turn stays as it is while its conversation lives. -/
theorem Effect.settled (effect : Effect config draws before after) {scopeKey : String}
    {turn : TurnRow} {user assistant : MessageRow}
    (other : draws.conversationId ≠ turn.conversationId)
    (survives : turn.conversationId ∈ after.conversationIds)
    (settled : Settled before scopeKey turn user assistant) :
    Settled after scopeKey turn user assistant := by
  obtain ⟨conversation, member, owned⟩ := List.mem_map.mp survives
  have scope : ∀ conversation ∈ after.conversations,
      conversation.id = turn.conversationId → conversation.scopeKey = scopeKey := by
    intro conversation member owned
    cases effect.conversationOrigin member with
    | created stub => exact absurd (stub.id.symm.trans owned) other
    | kept old oldMember same =>
        rw [same.scopeKey]
        exact settled.scope old oldMember (same.id.symm.trans owned)
    | committed arguments turn old user assistant title promptRef commit equal =>
        subst equal
        exact settled.scope old commit.owner owned
  cases effect.conversationOrigin member with
  | created stub => exact absurd (stub.id.symm.trans owned) other
  | kept old oldMember same messages completed =>
      refine ⟨(completed turn owned.symm settled.complete).mpr settled.stored, settled.complete,
        ?_, scope⟩
      rw [owned] at messages
      rw [Database.turnMessages, messages]
      exact settled.messages
  | committed arguments closed old newUser newAssistant title promptRef commit equal =>
      have different : turn.key ≠ closed.key := by
        intro equal
        have same := Table.eq_of_key_eq before.constraints.turnKeys settled.stored
          commit.member equal
        exact commit.notComplete (same ▸ settled.complete)
      have closedOwner : closed.conversationId = turn.conversationId := by
        subst equal
        exact commit.owns.symm.trans owned
      have otherTurn : closed.turnId ≠ turn.turnId := fun equal =>
        different (Prod.ext closedOwner.symm equal.symm)
      refine ⟨(commit.mem_turnRequests turn).mpr (.inr ⟨settled.stored, different⟩),
        settled.complete, ?_, scope⟩
      rw [← closedOwner, Database.turnMessages, commit.messagesOf, List.filter_append,
        closedOwner, ← Database.turnMessages, settled.messages]
      simp [commit.exchange.userTurn, commit.exchange.assistantTurn, otherTurn]

/-- A completion settles its turn. -/
theorem Commit.settled {arguments : CompleteTurnArguments} {turn : TurnRow}
    {conversation : ConversationRow} {user assistant : MessageRow} {title : String}
    {promptRef : Column}
    (commit : Commit config draws arguments turn conversation user assistant title promptRef
      before after) (linear : before.Linear) :
    Settled after conversation.scopeKey (turn.commit draws.now) user assistant where
  stored := (commit.mem_turnRequests _).mpr (.inl rfl)
  complete := rfl
  messages := by
    obtain ⟨turns, history⟩ := linear.histories conversation commit.owner
    have none : before.turnMessages turn.conversationId turn.turnId = [] := by
      rw [Database.turnMessages, List.filter_eq_nil_iff]
      intro message member sameTurn
      rw [← commit.owns] at member
      obtain ⟨index, bound, named, -⟩ := history.exists_turn member
      obtain ⟨rowMember, owned, complete⟩ :=
        (history.completed turns[index]).mp (List.getElem_mem bound)
      have same := Table.eq_of_key_eq before.constraints.turnKeys rowMember commit.member
        (Prod.ext (owned.trans commit.owns) (named.symm.trans (eq_of_beq sameTurn)))
      exact commit.notComplete (same ▸ complete)
    show after.turnMessages turn.conversationId turn.turnId = [user, assistant]
    rw [Database.turnMessages, commit.messagesOf, List.filter_append,
      ← Database.turnMessages, none]
    simp [commit.exchange.userTurn, commit.exchange.assistantTurn]
  scope other member owned := by
    rw [commit.conversations] at member
    obtain ⟨old, oldMember, rfl⟩ := Table.mem_update.mp member
    have sameScope : ∀ update : ConversationUpdate, ∀ selected : Bool,
        (if selected = true then update.apply old else old).id = old.id ∧
          (if selected = true then update.apply old else old).scopeKey = old.scopeKey := by
      intro update selected
      cases selected
      · exact ⟨rfl, rfl⟩
      · exact ⟨update.id old, update.scopeKey old⟩
    obtain ⟨sameId, same⟩ := sameScope (.commit arguments title promptRef
      (conversation.messageCount + 2)
      (conversation.payloadBytes + (user.payloadBytes + assistant.payloadBytes)) draws.now)
      (old.id == turn.conversationId)
    rw [same]
    refine congrArg ConversationOf.scopeKey (Table.eq_of_key_eq
      before.constraints.conversationKeys oldMember commit.owner ?_)
    exact (sameId.symm.trans owned).trans commit.owns.symm

/-! ## Retries -/

/-- Stored turn ids and fingerprints have passed the checks of `begin_turn`. -/
def Database.Bounded (database : Database) : Prop :=
  ∀ row ∈ database.turnRequests,
    (row.turnId ≠ "" ∧ row.turnId.length ≤ turnIdMaxLen) ∧
      row.requestFingerprint ≠ "" ∧ row.requestFingerprint.length ≤ requestFingerprintLen

theorem Effect.bounded (effect : Effect config draws before after) (holds : before.Bounded) :
    after.Bounded := by
  intro row member
  cases effect.turnOrigin member with
  | kept oldMember => exact holds row oldMember
  | failed old updatedAt oldMember incomplete equal =>
      subst equal
      exact holds old oldMember
  | changed old oldMember change =>
      rw [change.requestFingerprint, show row.turnId = old.turnId from
        congrArg Prod.snd change.key]
      exact holds old oldMember
  | reserved reservation => exact ⟨reservation.turnId, reservation.requestFingerprint⟩
  | committed old oldMember leased incomplete equal =>
      subst equal
      exact holds old oldMember

theorem run_bounded (config : StoreConfig) (events : List Event) :
    (run (Event.after config) .empty events).Bounded :=
  run_preserves (fun _ _ _ effect => effect.bounded) events fun row member => by cases member

theorem enforceConversationQuotaForNewScope_of_present {scopeKey : String}
    {row : ConversationRow} (found : database.conversationByScope scopeKey = some row) :
    enforceConversationQuotaForNewScope config scopeKey database = .ok () := by
  unfold enforceConversationQuotaForNewScope
  rw [found]
  simp

/-- Associating knowledge bases with a stored conversation cannot fail. -/
theorem insertKnowledgeBaseOrIgnore_total {row : KnowledgeBaseRow}
    (owner : row.conversationId ∈ database.conversationIds) :
    ∃ after, database.insertKnowledgeBaseOrIgnore row = .ok after := by
  unfold Database.insertKnowledgeBaseOrIgnore
  split
  · exact ⟨database, rfl⟩
  · rename_i absent
    have holds := database.constraints
    have fresh : row.key ∉ database.knowledgeBases.map KnowledgeBaseRow.key := by
      intro member
      obtain ⟨other, otherMember, equal⟩ := List.mem_map.mp member
      exact absent (List.any_eq_true.mpr ⟨other, otherMember, by simp [equal]⟩)
    suffices constraints : ({ database.toTables with
        knowledgeBases := database.knowledgeBases ++ [row] } : Tables).Constraints from
      ⟨⟨_, constraints⟩, Database.execute_eq_ok.mpr rfl⟩
    refine { holds with knowledgeBaseKeys := ?_, knowledgeBaseOwners := ?_ }
    · rw [List.map_append, List.map_singleton]
      exact List.nodup_append.mpr ⟨holds.knowledgeBaseKeys, List.nodup_singleton _,
        fun key member other otherMember equal =>
          fresh (List.mem_singleton.mp otherMember ▸ equal ▸ member)⟩
    · intro other member
      rcases List.mem_append.mp member with old | new
      · exact holds.knowledgeBaseOwners other old
      · exact List.mem_singleton.mp new ▸ owner

theorem associateReservationKnowledgeBases_total {now : Timestamp} {conversationId : String}
    {ids : List String} (owner : conversationId ∈ database.conversationIds) :
    ∃ after, associateReservationKnowledgeBases now conversationId ids database =
      .ok after := by
  unfold associateReservationKnowledgeBases
  generalize ids.eraseDups = rest
  induction rest generalizing database with
  | nil => exact ⟨database, rfl⟩
  | cons id rest induction =>
      rw [List.foldlM_cons]
      by_cases empty : id = ""
      · rw [if_pos empty]
        exact induction owner
      · rw [if_neg empty]
        obtain ⟨middle, inserted⟩ : ∃ after, database.insertKnowledgeBaseOrIgnore
            ⟨conversationId, id, false, now, now⟩ = .ok after :=
          insertKnowledgeBaseOrIgnore_total owner
        rw [inserted]
        apply induction
        rw [(Associates.insertKnowledgeBaseOrIgnore inserted).tables]
        exact owner

namespace Settled

variable {scopeKey : String} {turn : TurnRow} {user assistant : MessageRow}
  {messages : List Message}

theorem turnForUpdate (settled : Settled database scopeKey turn user assistant)
    (alive : turn.conversationId ∈ database.conversationIds) :
    database.turnForUpdate scopeKey turn.turnId = some turn := by
  obtain ⟨conversation, member, owned⟩ := List.mem_map.mp alive
  exact Database.turnForUpdate_eq_some.mpr
    ⟨settled.stored, rfl, conversation, member, settled.scope conversation member owned, owned⟩

theorem messagesForTurn (settled : Settled database scopeKey turn user assistant)
    (ordered : user.sequence ≤ assistant.sequence) :
    History.messagesForTurn database turn.conversationId turn.turnId =
      [user, assistant].mapM messageRow := by
  rw [messagesForTurn_eq, settled.messages]
  simp [List.insertionSort, ordered]

theorem recoverReadyTurn (settled : Settled database scopeKey turn user assistant)
    (alive : turn.conversationId ∈ database.conversationIds)
    (stored : History.messagesForTurn database turn.conversationId turn.turnId =
      .ok messages) (expectedLeaseToken : Option String) :
    History.recoverReadyTurn config draws scopeKey turn.turnId turn.requestFingerprint
      expectedLeaseToken database = .ok (.complete messages, database) := by
  simp [History.recoverReadyTurn, settled.turnForUpdate alive, settled.complete, stored,
    orRaise, require, bind, Except.bind, pure, Except.pure]

end Settled

/-- Arguments that pass the size checks `complete_turn` starts with. -/
structure Completable (config : StoreConfig) (arguments : CompleteTurnArguments) : Prop where
  content : validateMessageContent config arguments.userContent arguments.assistantContent =
    .ok ()
  sources : ∃ value, validateJsonField (.list (arguments.sources.getD []))
    config.maxSourcesBytesPerTurn (.list []) = .ok value
  metadata : ∃ value, validateJsonField (.dict (arguments.metadata.getD []))
    config.maxMetadataBytesPerTurn (.dict []) = .ok value
  promptRef : ∃ value, validateJsonField (.dict (arguments.promptRef.getD [])) 65536
    (.dict []) = .ok value

namespace Settled

variable {scopeKey : String} {turn : TurnRow} {user assistant : MessageRow}
  {messages : List Message}

theorem completeTurn (settled : Settled database scopeKey turn user assistant)
    (alive : turn.conversationId ∈ database.conversationIds)
    (stored : History.messagesForTurn database turn.conversationId turn.turnId =
      .ok messages) {arguments : CompleteTurnArguments} (scope : arguments.scopeKey = scopeKey)
    (sameTurn : arguments.turnId = turn.turnId) (valid : Completable config arguments) :
    History.completeTurn config draws arguments database =
      .ok (.replayed messages, database) := by
  obtain ⟨sources, sourcesValid⟩ := valid.sources
  obtain ⟨metadata, metadataValid⟩ := valid.metadata
  obtain ⟨promptRef, promptRefValid⟩ := valid.promptRef
  unfold History.completeTurn
  rw [valid.content, sourcesValid, metadataValid, promptRefValid, scope, sameTurn]
  simp [settled.turnForUpdate alive, settled.complete, stored, orRaise, bind, Except.bind,
    pure, Except.pure]

/-- A retry of `begin_turn` whose retention pass spares the conversation. -/
theorem beginTurn (settled : Settled database scopeKey turn user assistant)
    (ordered : user.sequence ≤ assistant.sequence) (documented : database.Documented)
    (bounded : database.Bounded)
    (stored : [user, assistant].mapM messageRow = .ok messages)
    {conversation : ConversationRow} (member : conversation ∈ database.conversations)
    (owned : conversation.id = turn.conversationId)
    (active : conversation.status ≠ .archived)
    (spared : conversation.id ∈ (retained config draws database).conversationIds)
    {arguments : BeginTurnArguments} (scope : arguments.scopeKey = scopeKey)
    (sameTurn : arguments.turnId = turn.turnId)
    (sameRequest : arguments.requestFingerprint = turn.requestFingerprint)
    (validScope : (ScopeKind.parse arguments.scopeKind).isSome) :
    ∃ shown after, History.beginTurn config draws arguments database =
        .ok (⟨.complete messages, shown⟩, after) ∧
      ∀ message ∈ after.messages, message ∈ database.messages := by
  have reduces := retained_reduces config draws database
  have inScope := settled.scope conversation member owned
  have found : (retained config draws database).conversationByScope arguments.scopeKey =
      some conversation := by
    rw [scope, ← inScope]
    exact reduces.conversationByScope member spared
  have survivor := (Database.conversationByScope_eq_some.mp found).1
  have documents := chain_invariant (fun _ _ effect => effect.documented)
    (retained_chain config draws database) documented
  obtain ⟨shown, decoded⟩ := documents.conversationRow survivor
  obtain ⟨promptRef, equal⟩ := conversationRow_eq_ok decoded
  have shownId : shown.id = conversation.id := by rw [equal]
  obtain ⟨associated, associates⟩ : ∃ after, associateReservationKnowledgeBases draws.now
      shown.id (arguments.selectedKnowledgeBaseIds.getD []) (retained config draws database) =
        .ok after :=
    associateReservationKnowledgeBases_total (shownId ▸ spared)
  have rows := associateReservationKnowledgeBases_eq_ok associates
  have settledAssociated : Settled associated scopeKey turn user assistant := by
    -- Neither the retention pass nor the association uses the drawn identifier.
    let other : Draws := { draws with conversationId := turn.conversationId ++ "'" }
    have undrawn : other.conversationId ≠ turn.conversationId := by
      intro equal
      have length := congrArg String.length equal
      simp [other] at length
    have chain : Chain config other database (retained config draws database) :=
      cleanupExpiredLocked_chain draws.now database
    refine chain_while_alive (Settled · scopeKey turn user assistant) undrawn
      (fun _ _ effect survives held => effect.settled undrawn survives held)
      (chain.tail (.associate _ _ rows)) settled ?_
    rw [rows.tables]
    exact owned ▸ spared
  have existing : associated.turnRequest shown.id arguments.turnId = some turn :=
    Database.turnRequest_eq_some.mpr
      ⟨settledAssociated.stored, Prod.ext (owned.symm.trans shownId.symm) sameTurn.symm⟩
  have read := settledAssociated.messagesForTurn ordered
  rw [stored] at read
  have limits := bounded turn settled.stored
  obtain ⟨scopeKind, parsed⟩ := Option.isSome_iff_exists.mp validScope
  refine ⟨shown, associated, ?_, ?_⟩
  · have getOrCreate : getOrCreateConversation draws arguments scopeKind
        (retained config draws database) = .ok (shown, retained config draws database) := by
      simp [getOrCreateConversation, found, active, decoded, require, bind, Except.bind, pure,
        Except.pure]
    rw [beginTurn_of_existing parsed (sameTurn ▸ limits.1) (sameRequest ▸ limits.2)
      (enforceConversationQuotaForNewScope_of_present found) getOrCreate associates existing,
      sameRequest]
    simp [handleExistingTurn, settled.complete, read, require, bind, Except.bind, pure,
      Except.pure, Except.map]
  · intro message messageMember
    rw [rows.tables] at messageMember
    exact reduces.messages.subset messageMember

end Settled

/-! ## Over whole runs -/

/-- A message stays as long as its conversation lives. -/
theorem Effect.message_stays (effect : Effect config draws before after) {message : MessageRow}
    (undrawn : draws.conversationId ≠ message.conversationId)
    (survives : message.conversationId ∈ after.conversationIds)
    (stored : message ∈ before.messages) : message ∈ after.messages := by
  obtain ⟨conversation, member, owned⟩ := List.mem_map.mp survives
  have inConversation : message ∈ before.messagesOf message.conversationId :=
    Database.mem_messagesOf.mpr ⟨stored, rfl⟩
  suffices message ∈ after.messagesOf message.conversationId from
    (Database.mem_messagesOf.mp this).1
  cases effect.conversationOrigin member with
  | created stub => exact absurd (stub.id.symm.trans owned) undrawn
  | kept old oldMember same messages completed =>
      rw [owned] at messages
      exact messages ▸ inConversation
  | committed arguments turn old user assistant title promptRef commit equal =>
      subst equal
      have sameOwner : turn.conversationId = message.conversationId :=
        commit.owns.symm.trans owned
      have grown := commit.messagesOf
      rw [sameOwner] at grown
      rw [grown]
      exact List.mem_append_left _ inConversation

/-- The messages of a conversation that lives on are only added to. -/
theorem Effect.messagesOf_grows (effect : Effect config draws before after) {id : String}
    (undrawn : draws.conversationId ≠ id) (survives : id ∈ after.conversationIds) :
    before.messagesOf id <+: after.messagesOf id := by
  obtain ⟨conversation, member, rfl⟩ := List.mem_map.mp survives
  cases effect.conversationOrigin member with
  | created stub => exact absurd stub.id.symm undrawn
  | kept old oldMember same messages => exact messages ▸ List.prefix_rfl
  | committed arguments turn old user assistant title promptRef commit equal =>
      subst equal
      have grown := commit.messagesOf
      rw [← commit.owns] at grown
      exact ⟨[user, assistant], grown.symm⟩

/-- A conversation and turn have one message of each role over a whole run. -/
theorem run_messages_once {earlier later : List Event}
    (fresh : (drawnIds (earlier ++ later)).Nodup) {first second : MessageRow}
    (firstStored : first ∈ (run (Event.after config) .empty earlier).messages)
    (secondStored : second ∈ (run (Event.after config) .empty (earlier ++ later)).messages)
    (conversation : second.conversationId = first.conversationId)
    (turn : second.turnId = first.turnId) (role : second.role = first.role) :
    second = first := by
  have drawnEarlier := run_conversationIds earlier
    ((run (Event.after config) .empty earlier).constraints.messageOwners first firstStored)
  have undrawn : first.conversationId ∉ drawnIds later := by
    rw [drawnIds, List.map_append] at fresh
    exact List.disjoint_of_nodup_append fresh drawnEarlier
  have survives := (run (Event.after config) .empty (earlier ++ later)).constraints.messageOwners
    second secondStored
  rw [conversation, run_append] at survives
  rw [run_append] at secondStored
  have kept := run_while_alive (fun database => first ∈ database.messages)
    (fun _ _ _ effect other alive stored => effect.message_stays other alive stored) later
    undrawn firstStored survives
  refine Table.eq_of_key_eq
    (run (Event.after config) (run (Event.after config) .empty earlier) later).constraints.messageRoles
    secondStored kept ?_
  rw [conversation, turn, role]

/-- What a retry of a complete turn gets: the stored messages and nothing new. -/
structure Replays (config : StoreConfig) (database : Database)
    (conversation : ConversationRow) (turnId requestFingerprint : String)
    (messages : List Message) : Prop where
  beginTurn : ∀ (draws : Draws) (arguments : BeginTurnArguments),
    arguments.scopeKey = conversation.scopeKey → arguments.turnId = turnId →
      arguments.requestFingerprint = requestFingerprint →
        (ScopeKind.parse arguments.scopeKind).isSome → conversation.status ≠ .archived →
          conversation.id ∈ (retained config draws database).conversationIds →
            ∃ shown after, History.beginTurn config draws arguments database =
                .ok (⟨.complete messages, shown⟩, after) ∧
              ∀ message ∈ after.messages, message ∈ database.messages
  recoverReadyTurn : ∀ (draws : Draws) (expectedLeaseToken : Option String),
    History.recoverReadyTurn config draws conversation.scopeKey turnId requestFingerprint
      expectedLeaseToken database = .ok (.complete messages, database)
  completeTurn : ∀ (draws : Draws) (arguments : CompleteTurnArguments),
    arguments.scopeKey = conversation.scopeKey → arguments.turnId = turnId →
      Completable config arguments →
        History.completeTurn config draws arguments database =
          .ok (.replayed messages, database)

/-- The pair a completion returns, as read back from its two rows. -/
theorem messages_eq_pair {user assistant : MessageRow} {messages : List Message}
    (read : [user, assistant].mapM messageRow = .ok messages) :
    ∃ shownUser shownAssistant, messages = [shownUser, shownAssistant] ∧
      messageRow user = .ok shownUser ∧ messageRow assistant = .ok shownAssistant := by
  simp only [List.mapM_cons, List.mapM_nil, bind_eq_ok, pure_eq_ok] at read
  obtain ⟨shownUser, userRead, rest, ⟨shownAssistant, assistantRead, nothing, rfl, rfl⟩, rfl⟩ :=
    read
  exact ⟨shownUser, shownAssistant, rfl, userRead, assistantRead⟩

/-- A completed call comes from a commit of the state it found. -/
theorem Operation.run_completed {arguments : CompleteTurnArguments} {result : CommittedTurn}
    (committed : ((Operation.completeTurn arguments).run config draws database).1 =
      .ok (.completed (.committed result))) :
    ∃ row conversation user assistant title promptRef after,
      ((Operation.completeTurn arguments).run config draws database).2 = after ∧
      database.turnForUpdate arguments.scopeKey arguments.turnId = some row ∧
      Commit config draws arguments row conversation user assistant title promptRef
        database after ∧
      messagesForTurn after row.conversationId arguments.turnId = .ok result.messages := by
  rw [Operation.run, transaction] at committed ⊢
  split at committed
  · rename_i outcome after returned
    cases committed
    obtain ⟨row, found, ⟨-, -, messages, -, replayed⟩ | ⟨-, conversation, user, assistant,
      title, promptRef, other, commit, read, same⟩⟩ := completeTurn_eq_ok returned
    · cases replayed
    · cases same
      exact ⟨row, conversation, user, assistant, title, promptRef, after, rfl, found, commit,
        read⟩
  · cases committed

/-- A settled turn replays on every later retry. -/
theorem Settled.replays {turn : TurnRow} {user assistant : MessageRow}
    {messages : List Message} {conversation : ConversationRow} {turnId : String}
    {requestFingerprint : String}
    (settled : Settled database conversation.scopeKey turn user assistant)
    (ordered : user.sequence ≤ assistant.sequence) (documented : database.Documented)
    (bounded : database.Bounded)
    (stored : [user, assistant].mapM messageRow = .ok messages)
    (member : conversation ∈ database.conversations)
    (owned : conversation.id = turn.conversationId) (sameTurn : turn.turnId = turnId)
    (sameRequest : turn.requestFingerprint = requestFingerprint) :
    Replays config database conversation turnId requestFingerprint messages := by
  subst sameTurn sameRequest
  have alive : turn.conversationId ∈ database.conversationIds :=
    owned ▸ List.mem_map_of_mem member
  have read := (settled.messagesForTurn ordered).trans stored
  exact {
    beginTurn := fun draws arguments scope sameTurn sameRequest validScope active spared =>
      settled.beginTurn ordered documented bounded stored member owned active spared scope
        sameTurn sameRequest validScope
    recoverReadyTurn := fun draws expected => settled.recoverReadyTurn alive read expected
    completeTurn := fun draws arguments scope sameTurn valid =>
      settled.completeTurn alive read scope sameTurn valid }

/-- With fresh conversation identifiers, a turn's messages are inserted at most
once over a whole run, and after the commit every retry in a state that still has
the conversation gets exactly the pair stored then. -/
theorem run_exactly_once (config : StoreConfig) (events : List Event)
    (fresh : (drawnIds events).Nodup) :
    (∀ earlier later, events = earlier ++ later →
      ∀ first ∈ (run (Event.after config) .empty earlier).messages,
        ∀ second ∈ (run (Event.after config) .empty events).messages,
          second.conversationId = first.conversationId → second.turnId = first.turnId →
            second.role = first.role → second = first) ∧
    ∀ earlier draws arguments later result,
      events = earlier ++ ⟨.completeTurn arguments, draws⟩ :: later →
        ((Operation.completeTurn arguments).run config draws
          (run (Event.after config) .empty earlier)).1 =
            .ok (.completed (.committed result)) →
          ∃ user assistant : Message, result.messages = [user, assistant] ∧
            user.role = .user ∧ user.content = arguments.userContent ∧
            assistant.role = .assistant ∧ assistant.content = arguments.assistantContent ∧
            user.turnId = arguments.turnId ∧
            ∀ conversation ∈ (run (Event.after config) .empty events).conversations,
              conversation.id = user.conversationId →
                Replays config (run (Event.after config) .empty events) conversation
                  arguments.turnId arguments.requestFingerprint result.messages := by
  constructor
  · rintro earlier later rfl first firstStored second secondStored conversation turn role
    exact run_messages_once fresh firstStored secondStored conversation turn role
  · rintro earlier draws arguments later result rfl committed
    obtain ⟨row, conversation, user, assistant, title, promptRef, after, reached, -, commit,
      read⟩ := Operation.run_completed committed
    have settled := commit.settled (run_linear config earlier)
    have ordered : user.sequence ≤ assistant.sequence := by
      rw [commit.exchange.userSequence, commit.exchange.assistantSequence]
      exact Nat.le_succ _
    have pair : [user, assistant].mapM messageRow = .ok result.messages := by
      rw [← settled.messagesForTurn ordered]
      exact commit.turnId ▸ read
    obtain ⟨shownUser, shownAssistant, messages, userRead, assistantRead⟩ :=
      messages_eq_pair pair
    obtain ⟨sources, metadata, userEqual⟩ := messageRow_eq_ok userRead
    obtain ⟨otherSources, otherMetadata, assistantEqual⟩ := messageRow_eq_ok assistantRead
    have exchange := commit.exchange
    refine ⟨shownUser, shownAssistant, messages, by rw [userEqual, ← exchange.userRole],
      by rw [userEqual, ← exchange.userContent], by rw [assistantEqual, ← exchange.assistantRole],
      by rw [assistantEqual, ← exchange.assistantContent],
      by rw [userEqual, ← commit.turnId, ← exchange.userTurn], ?_⟩
    intro final finalMember sameId
    have owner : shownUser.conversationId = row.conversationId := by
      rw [userEqual, ← exchange.userOwner]
    have finalOwner : final.id = row.conversationId := sameId.trans owner
    have reaches : run (Event.after config) .empty
        (earlier ++ ⟨.completeTurn arguments, draws⟩ :: later) =
          run (Event.after config) after later := by
      rw [run_append, run_cons]
      exact congrArg (run (Event.after config) · later) reached
    have undrawn : row.conversationId ∉ drawnIds later := by
      have drawn : row.conversationId ∈ drawnIds earlier :=
        run_conversationIds earlier
          ((run (Event.after config) .empty earlier).constraints.turnOwners row commit.member)
      rw [drawnIds, List.map_append, List.map_cons] at fresh
      have disjoint := List.disjoint_of_nodup_append fresh drawn
      exact fun member => disjoint (List.mem_cons_of_mem _ member)
    have survives : row.conversationId ∈
        (run (Event.after config) after later).conversationIds := by
      rw [← reaches, ← finalOwner]
      exact List.mem_map_of_mem finalMember
    have lasting := run_while_alive
      (Settled · conversation.scopeKey (row.commit draws.now) user assistant)
      (fun _ _ _ effect other alive held => effect.settled other alive held) later undrawn
      settled survives
    rw [← reaches] at lasting
    have scope := lasting.scope final finalMember finalOwner
    exact (scope ▸ lasting).replays ordered (run_documented config _) (run_bounded config _) pair
      finalMember finalOwner commit.turnId commit.requestFingerprint

/-- A turn begun and completed, and a state in which its retries replay. -/
theorem run_exactly_once_replays :
    ∃ result, ((Operation.completeTurn (Sample.completes "t1" "a")).run Sample.config
        (Sample.draws 10 "b") (run (Event.after Sample.config) .empty
          [⟨.beginTurn (Sample.begins "t1" none), Sample.draws 0 "a"⟩])).1 =
            .ok (.completed (.committed result)) ∧
      ∃ conversation ∈
          (run (Event.after Sample.config) .empty Sample.oneTurn).conversations,
        Replays Sample.config (run (Event.after Sample.config) .empty Sample.oneTurn)
          conversation "t1" "f" result.messages := by
  have committed :
      (match ((Operation.completeTurn (Sample.completes "t1" "a")).run Sample.config
        (Sample.draws 10 "b") (run (Event.after Sample.config) .empty
          [⟨.beginTurn (Sample.begins "t1" none), Sample.draws 0 "a"⟩])).1 with
      | .ok (.completed (.committed result)) =>
          result.messages.head?.map (·.conversationId) == some "conversation-a"
      | _ => false) = true := by
    decide +kernel
  split at committed
  · rename_i result returned
    obtain ⟨user, assistant, pair, -, -, -, -, -, replays⟩ :=
      (run_exactly_once Sample.config Sample.oneTurn (by decide)).2 [_] _ _ [] result rfl returned
    have stored : ∃ conversation ∈
        (run (Event.after Sample.config) .empty Sample.oneTurn).conversations,
        conversation.id = "conversation-a" := by
      decide +kernel
    obtain ⟨conversation, member, id⟩ := stored
    rw [pair] at committed
    have owner : user.conversationId = "conversation-a" := by simpa using committed
    exact ⟨result, returned, conversation, member,
      replays conversation member (id.trans owner.symm)⟩
  · cases committed

/-- Retries of a complete turn that get an answer other than its messages: a
completion with a longer text than the limit, a begin with an unknown scope kind,
and a begin whose own retention pass removes the conversation. -/
theorem retries_without_replay :
    (∃ conversation ∈ (run (Event.after { Sample.config with maxMessageChars := 8 }) .empty
        Sample.oneTurn).conversations,
      conversation.scopeKey = "w:c" ∧ conversation.status = .active ∧
        conversation.messageCount = 2) ∧
    (completeTurn { Sample.config with maxMessageChars := 8 } (Sample.draws 20 "c")
        { Sample.completes "t1" "a" with userContent := "questions" }
        (run (Event.after { Sample.config with maxMessageChars := 8 }) .empty
          Sample.oneTurn)).map (fun _ => ()) =
      .error (.history (.conversationHistory "user message exceeds size limit")) ∧
    (beginTurn { Sample.config with maxMessageChars := 8 } (Sample.draws 20 "c")
        { Sample.begins "t1" none with scopeKind := "other" }
        (run (Event.after { Sample.config with maxMessageChars := 8 }) .empty
          Sample.oneTurn)).map (fun outcome => outcome.1.reply.status) =
      .error (.history (.conversationHistory "invalid scope_kind: other")) ∧
    (beginTurn { Sample.config with maxMessageChars := 8 } (Sample.draws 8000000 "c")
        (Sample.begins "t1" none)
        (run (Event.after { Sample.config with maxMessageChars := 8 }) .empty
          Sample.oneTurn)).map (fun outcome => outcome.1.reply.status) = .ok "new" := by
  decide +kernel

end RAGuardian.History
