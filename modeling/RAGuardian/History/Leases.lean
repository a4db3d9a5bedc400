import RAGuardian.History.Origins

/-! # Lease fencing

A turn's lease token only ever changes to a token a call has just drawn, so a
token that is gone stays gone and the calls that present it do nothing. -/

namespace RAGuardian.History

open Execution

variable {config : StoreConfig} {draws : Draws} {before after database : Database}

/-- The current lease token of the turn a scope key and a turn id name. -/
def Database.lease (database : Database) (scopeKey turnId : String) : Option String :=
  (database.turnForUpdate scopeKey turnId).bind (·.leaseToken)

def Event.tokens (event : Event) : List String :=
  event.draws.tokens

theorem Database.lease_eq_some {scopeKey turnId token : String} :
    database.lease scopeKey turnId = some token ↔
      ∃ row, database.turnForUpdate scopeKey turnId = some row ∧
        row.leaseToken = some token :=
  Option.bind_eq_some_iff

/-! ## How a lease changes -/

/-- The conversation that owns a turn after an effect was there before, under the
same scope key. -/
theorem Effect.owner_before (effect : Effect config draws before after)
    {conversation : ConversationRow} (member : conversation ∈ after.conversations)
    {row : TurnRow} (rowMember : row ∈ after.turnRequests)
    (owned : conversation.id = row.conversationId) :
    ∃ old ∈ before.conversations, old.scopeKey = conversation.scopeKey ∧
      old.id = conversation.id := by
  cases effect.conversationOrigin member with
  | created stub fresh messages turns => exact absurd owned.symm (turns row rowMember)
  | kept old oldMember same messages completed =>
      exact ⟨old, oldMember, same.scopeKey.symm, same.id.symm⟩
  | committed arguments turn old user assistant title promptRef commit equal =>
      subst equal
      exact ⟨old, commit.owner, rfl, rfl⟩

/-- A token that leases a turn after an effect did so before, or was drawn. -/
theorem Effect.lease (effect : Effect config draws before after)
    {scopeKey turnId token : String} (leased : after.lease scopeKey turnId = some token) :
    before.lease scopeKey turnId = some token ∨ token ∈ draws.tokens := by
  obtain ⟨row, found, holds⟩ := Database.lease_eq_some.mp leased
  obtain ⟨member, turn, conversation, conversationMember, inScope, owned⟩ :=
    Database.turnForUpdate_eq_some.mp found
  obtain ⟨owner, ownerMember, sameScope, sameId⟩ :=
    effect.owner_before conversationMember member owned
  have found_before : ∀ old ∈ before.turnRequests, old.key = row.key →
      before.turnForUpdate scopeKey turnId = some old := by
    intro old oldMember key
    obtain ⟨sameOwner, sameTurn⟩ := Prod.mk.inj key
    exact Database.turnForUpdate_eq_some.mpr ⟨oldMember, sameTurn.trans turn, owner,
      ownerMember, sameScope.trans inScope, (sameId.trans owned).trans sameOwner.symm⟩
  cases effect.turnOrigin member with
  | kept oldMember =>
      exact .inl (Database.lease_eq_some.mpr ⟨row, found_before row oldMember rfl, holds⟩)
  | failed old updatedAt oldMember incomplete equal =>
      subst equal
      cases holds
  | changed old oldMember change =>
      rcases change.leaseToken with ⟨-, same⟩ | ⟨drawn, drawnMember, equal⟩
      · exact .inl (Database.lease_eq_some.mpr
          ⟨old, found_before old oldMember change.key.symm, same.symm.trans holds⟩)
      · rw [equal] at holds
        exact .inr (Option.some.inj holds ▸ drawnMember)
  | reserved reservation =>
      rw [reservation.leaseToken] at holds
      exact .inr (Option.some.inj holds ▸ List.mem_cons_self)
  | committed old oldMember leased incomplete equal =>
      subst equal
      cases holds

theorem Event.lease (event : Event) {scopeKey turnId token : String}
    (leased : (event.after config database).lease scopeKey turnId = some token) :
    database.lease scopeKey turnId = some token ∨ token ∈ event.tokens := by
  have backwards : ∀ {middle}, Chain config event.draws database middle →
      middle.lease scopeKey turnId = some token →
        database.lease scopeKey turnId = some token ∨ token ∈ event.tokens := by
    intro middle chain
    induction chain with
    | refl => exact .inl
    | tail _ effect induction =>
        intro leased
        rcases effect.lease leased with earlier | drawn
        · exact induction earlier
        · exact .inr drawn
  exact backwards (event.operation.run_chain database) leased

/-- Over a whole run, a lease comes from the start or from a draw of the run. -/
theorem run_lease (events : List Event) {scopeKey turnId token : String}
    (leased : (run (Event.after config) database events).lease scopeKey turnId =
      some token) :
    database.lease scopeKey turnId = some token ∨ token ∈ events.flatMap Event.tokens := by
  induction events generalizing database with
  | nil => exact .inl leased
  | cons event events induction =>
      rw [run_cons] at leased
      rw [List.flatMap_cons, List.mem_append]
      rcases induction leased with earlier | drawn
      · exact (event.lease earlier).imp_right .inl
      · exact .inr (.inr drawn)

/-! ## Calls that present a lease -/

/-- The four calls that act under a lease, for a turn and a token. -/
inductive Presents (scopeKey turnId leaseToken : String) : Operation → Prop
  | markTurnReady (resultDigest : String) :
      Presents scopeKey turnId leaseToken
        (.markTurnReady scopeKey turnId leaseToken resultDigest)
  | renewTurnLease :
      Presents scopeKey turnId leaseToken (.renewTurnLease scopeKey turnId leaseToken)
  | failTurn : Presents scopeKey turnId leaseToken (.failTurn scopeKey turnId leaseToken)
  | completeTurn (arguments : CompleteTurnArguments) (scope : arguments.scopeKey = scopeKey)
      (turn : arguments.turnId = turnId) (lease : arguments.leaseToken = leaseToken) :
      Presents scopeKey turnId leaseToken (.completeTurn arguments)

/-- A call that presents a token other than the current one changes nothing. -/
theorem Presents.unchanged {scopeKey turnId leaseToken : String} {operation : Operation}
    (presents : Presents scopeKey turnId leaseToken operation)
    (stale : database.lease scopeKey turnId ≠ some leaseToken) :
    (operation.run config draws database).2 = database := by
  have notCurrent : ∀ row, database.turnForUpdate scopeKey turnId = some row →
      row.leaseToken ≠ some leaseToken := fun row found current =>
    stale (Database.lease_eq_some.mpr ⟨row, found, current⟩)
  cases presents with
  | markTurnReady resultDigest =>
      rw [Operation.run, transaction]
      split
      · rename_i done committed returned
        rcases markTurnReady_eq_ok returned with ⟨-, same⟩ | ⟨-, row, found, current, -⟩
        · exact same
        · exact absurd current (notCurrent row found)
      · rfl
  | renewTurnLease =>
      show (History.renewTurnLease config draws scopeKey turnId leaseToken database).2 = database
      rcases renewTurnLease_cases config draws scopeKey turnId leaseToken database with
        same | ⟨row, found, current, -⟩
      · rw [same]
      · exact absurd current (notCurrent row found)
  | failTurn =>
      show (History.failTurn draws scopeKey turnId leaseToken database).2 = database
      rcases failTurn_cases draws scopeKey turnId leaseToken database with
        same | ⟨row, found, current, -⟩
      · rw [same]
      · exact absurd current (notCurrent row found)
  | completeTurn arguments scope turn lease =>
      subst scope turn lease
      rw [Operation.run, transaction]
      split
      · rename_i result committed returned
        obtain ⟨row, found, ⟨-, same, -⟩ | ⟨-, conversation, user, assistant, title, encoded,
          -, commit, -⟩⟩ := completeTurn_eq_ok returned
        · exact same
        · exact absurd commit.leaseToken (notCurrent row found)
      · rfl

/-! ## Fencing over runs -/

/-- With fresh tokens, once a turn's lease is no longer `leaseToken`, every later
call that presents it leaves the database as it is, whatever other calls, such as
those of the next lease holder, come in between. -/
theorem run_fenced (config : StoreConfig) (earlier between later : List Event)
    (scopeKey turnId leaseToken : String)
    (fresh : ((earlier ++ between ++ later).flatMap Event.tokens).Nodup)
    (held : (run (Event.after config) .empty earlier).lease scopeKey turnId =
      some leaseToken)
    (replaced : (run (Event.after config) .empty (earlier ++ between)).lease scopeKey turnId ≠
      some leaseToken)
    (stale : Event) (presents : Presents scopeKey turnId leaseToken stale.operation) :
    stale.after config (run (Event.after config) .empty (earlier ++ between ++ later)) =
      run (Event.after config) .empty (earlier ++ between ++ later) := by
  refine presents.unchanged fun current => ?_
  have drawnEarlier : leaseToken ∈ earlier.flatMap Event.tokens := by
    rcases run_lease earlier held with initial | drawn
    · cases initial
    · exact drawn
  rw [run_append] at current
  rcases run_lease later current with kept | drawnLater
  · exact replaced kept
  · rw [List.flatMap_append, List.flatMap_append] at fresh
    exact List.disjoint_of_nodup_append fresh (List.mem_append_left _ drawnEarlier) drawnLater

/-- The lease of a failed turn, presented again after a retry took a new one. -/
theorem run_fenced_after_retry :
    Event.after Sample.config ⟨.failTurn "w:c" "t1" "a", Sample.draws 30 "d"⟩
        (run (Event.after Sample.config) .empty
          ([⟨.beginTurn (Sample.begins "t1" none), Sample.draws 0 "a"⟩] ++
            [⟨.failTurn "w:c" "t1" "a", Sample.draws 10 "b"⟩] ++
            [⟨.beginTurn (Sample.begins "t1" none), Sample.draws 20 "c"⟩])) =
      run (Event.after Sample.config) .empty
        ([⟨.beginTurn (Sample.begins "t1" none), Sample.draws 0 "a"⟩] ++
          [⟨.failTurn "w:c" "t1" "a", Sample.draws 10 "b"⟩] ++
          [⟨.beginTurn (Sample.begins "t1" none), Sample.draws 20 "c"⟩]) :=
  run_fenced Sample.config [⟨.beginTurn (Sample.begins "t1" none), Sample.draws 0 "a"⟩]
    [⟨.failTurn "w:c" "t1" "a", Sample.draws 10 "b"⟩]
    [⟨.beginTurn (Sample.begins "t1" none), Sample.draws 20 "c"⟩] "w:c" "t1" "a"
    (by decide) (by decide +kernel) (by decide +kernel) _ .failTurn

end RAGuardian.History
