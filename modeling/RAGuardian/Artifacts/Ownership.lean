import RAGuardian.Artifacts.Protection

/-! # What a safe plan removes

The exclusive references of a safe plan are those its conversations denote and no other
conversation of the workspace does. -/

namespace RAGuardian.Artifacts

open Json History

variable {config : StoreConfig} {rules : UrlRules} {database : Database}

attribute [ext] References

/-! ## Identifiers -/

/-- Identifiers that match their patterns, as extraction yields them. -/
structure References.WellFormed (references : References) : Prop where
  attachmentIds : ∀ attachmentId ∈ references.attachmentIds,
    matchesAttachmentId attachmentId = true
  imageNames : ∀ imageName ∈ references.imageNames, (runIdForImage imageName).isSome = true
  runIds : ∀ runId ∈ references.runIds, matchesRunId runId = true

theorem References.empty_wellFormed : References.empty.WellFormed := by
  constructor <;> simp [References.empty]

theorem matchesRunId_of_image {imageName runId : String}
    (parsed : runIdForImage imageName = some runId) : matchesRunId runId = true := by
  simp only [runIdForImage] at parsed
  split at parsed
  · rename_i matched
    cases parsed
    simp only [Bool.and_eq_true, beq_iff_eq] at matched
    simp [matchesRunId, matched]
  · cases parsed

theorem publicImageName_parses {value : Value} {imageName : String}
    (returned : publicImageName rules value = .ok (some imageName)) :
    (runIdForImage imageName).isSome = true := by
  cases value with
  | str text =>
      simp only [publicImageName, bind_eq_ok] at returned
      obtain ⟨parsed, -, returned⟩ := returned
      split at returned
      · cases returned
      · split at returned
        · cases returned
        · split at returned
          · cases returned
          · rename_i matched
            cases returned
            simp only [Bool.or_eq_true, not_or, Bool.not_eq_true, Option.isNone_eq_false_iff]
              at matched
            exact matched.2
  | _ => cases returned

theorem attachmentId_matches {value : Value} {identifier : String}
    (found : attachmentId value = some identifier) : matchesAttachmentId identifier = true := by
  cases value with
  | dict entries => exact (Option.filter_eq_some_iff.mp found).2
  | _ => cases found

theorem mem_of_mapM_eq_ok {read : α → Except StoreError β} {items : List α} {results : List β}
    (returned : items.mapM read = .ok results) {result : β} (member : result ∈ results) :
    ∃ item ∈ items, read item = .ok result := by
  induction items generalizing results with
  | nil =>
      cases returned
      cases member
  | cons item items induction =>
      simp only [List.mapM_cons, bind_eq_ok, pure_eq_ok] at returned
      obtain ⟨first, reads, others, rest, rfl⟩ := returned
      rcases List.mem_cons.mp member with rfl | later
      · exact ⟨item, List.mem_cons_self, reads⟩
      · obtain ⟨other, listed, found⟩ := induction rest later
        exact ⟨other, List.mem_cons_of_mem item listed, found⟩

theorem referencesFromResponsePayload_wellFormed {payload : List (String × Value)}
    {references : References}
    (extracted : referencesFromResponsePayload rules payload = .ok references) :
    references.WellFormed := by
  simp only [referencesFromResponsePayload, bind_eq_ok] at extracted
  obtain ⟨attachments, -, extracted⟩ := extracted
  have uploads : ∀ identifier ∈ (attachments.filterMap attachmentId).toFinset,
      matchesAttachmentId identifier = true := by
    intro identifier member
    obtain ⟨value, -, found⟩ := List.mem_filterMap.mp (List.mem_toFinset.mp member)
    exact attachmentId_matches found
  split at extracted
  · simp only [bind_eq_ok, pure_eq_ok] at extracted
    obtain ⟨images, -, names, reads, rfl⟩ := extracted
    refine ⟨uploads, ?_, ?_⟩
    · intro imageName member
      obtain ⟨read, listed, same⟩ := List.mem_filterMap.mp (List.mem_toFinset.mp member)
      obtain ⟨image, -, found⟩ := mem_of_mapM_eq_ok reads listed
      rw [id_eq] at same
      exact publicImageName_parses (same ▸ found)
    · intro runId member
      rcases List.mem_append.mp (List.mem_toFinset.mp member) with given | derived
      · exact (Option.filter_eq_some_iff.mp (Option.mem_toList.mp given)).2
      · obtain ⟨imageName, -, parsed⟩ := List.mem_filterMap.mp derived
        exact matchesRunId_of_image parsed
  · cases extracted
    exact ⟨uploads, by simp, by simp⟩

theorem messageReferences_wellFormed (rules : UrlRules) (message : MessageRow) :
    (messageReferences rules message).WellFormed := by
  unfold messageReferences
  cases message.metadata.loads (.dict []) with
  | none => exact References.empty_wellFormed
  | some metadata =>
      simp only [Option.map_some, Option.getD_some, denotedBy]
      cases extracted : referencesFromHistoryMetadata rules metadata with
      | error raised => exact References.empty_wellFormed
      | ok references =>
          simp only [Except.toOption, Option.getD_some]
          unfold referencesFromHistoryMetadata at extracted
          split at extracted
          · split at extracted
            · exact referencesFromResponsePayload_wellFormed extracted
            · cases extracted
              exact References.empty_wellFormed
          · cases extracted
            exact References.empty_wellFormed

/-! ## References of messages -/

/-- Everything some messages denote. -/
def denotedIn (rules : UrlRules) : List MessageRow → References
  | [] => .empty
  | message :: messages => (messageReferences rules message).union (denotedIn rules messages)

theorem mem_denotedIn_attachmentIds {messages : List MessageRow} {attachmentId : String} :
    attachmentId ∈ (denotedIn rules messages).attachmentIds ↔
      ∃ message ∈ messages, attachmentId ∈ (messageReferences rules message).attachmentIds := by
  induction messages with
  | nil => simp [denotedIn, References.empty]
  | cons message messages induction => simp [denotedIn, References.union, induction]

theorem mem_denotedIn_imageNames {messages : List MessageRow} {imageName : String} :
    imageName ∈ (denotedIn rules messages).imageNames ↔
      ∃ message ∈ messages, imageName ∈ (messageReferences rules message).imageNames := by
  induction messages with
  | nil => simp [denotedIn, References.empty]
  | cons message messages induction => simp [denotedIn, References.union, induction]

theorem mem_denotedIn_runIds {messages : List MessageRow} {runId : String} :
    runId ∈ (denotedIn rules messages).runIds ↔
      ∃ message ∈ messages, runId ∈ (messageReferences rules message).runIds := by
  induction messages with
  | nil => simp [denotedIn, References.empty]
  | cons message messages induction => simp [denotedIn, References.union, induction]

/-- The runs of the images that messages denote are denoted with them. -/
theorem denotedIn_closed (messages : List MessageRow) : (denotedIn rules messages).Closed := by
  intro imageName member runId parsed
  obtain ⟨message, listed, denoted⟩ := mem_denotedIn_imageNames.mp member
  exact mem_denotedIn_runIds.mpr
    ⟨message, listed, messageReferences_closed rules message imageName denoted runId parsed⟩

theorem denotedIn_wellFormed (messages : List MessageRow) :
    (denotedIn rules messages).WellFormed where
  attachmentIds attachmentId member := by
    obtain ⟨message, -, denoted⟩ := mem_denotedIn_attachmentIds.mp member
    exact (messageReferences_wellFormed rules message).attachmentIds attachmentId denoted
  imageNames imageName member := by
    obtain ⟨message, -, denoted⟩ := mem_denotedIn_imageNames.mp member
    exact (messageReferences_wellFormed rules message).imageNames imageName denoted
  runIds runId member := by
    obtain ⟨message, -, denoted⟩ := mem_denotedIn_runIds.mp member
    exact (messageReferences_wellFormed rules message).runIds runId denoted

namespace References

theorem union_empty (references : References) : references.union .empty = references := by
  ext <;> simp [union, empty]

theorem empty_union (references : References) : References.empty.union references = references := by
  ext <;> simp [union, empty]

theorem union_assoc (first second third : References) :
    (first.union second).union third = first.union (second.union third) := by
  ext <;> simp [union]

end References

/-! ## Plans -/

/-- The messages of the conversations chosen, and those of all others. -/
def targetMessages (conversationIds : List String) (database : Database) : List MessageRow :=
  database.messages.filter fun message => message.conversationId ∈ conversationIds

def otherMessages (conversationIds : List String) (database : Database) : List MessageRow :=
  database.messages.filter fun message => message.conversationId ∉ conversationIds

theorem visit_gathers {targetIds : List String} {gathered visited : GatheredReferences}
    {message : MessageRow} (visits : gathered.visit rules targetIds message = .ok visited) :
    (message.conversationId ∈ targetIds →
      visited.target = gathered.target.union (messageReferences rules message) ∧
        visited.retained = gathered.retained) ∧
    (message.conversationId ∉ targetIds → visited.target = gathered.target ∧
        visited.retained = gathered.retained.union (messageReferences rules message)) := by
  unfold GatheredReferences.visit at visits
  split at visits
  · rename_i undecoded
    cases visits
    have nothing : messageReferences rules message = .empty := by
      simp [messageReferences, undecoded]
    simp [nothing, References.union_empty]
  · rename_i metadata decoded
    simp only [bind_eq_ok] at visits
    obtain ⟨references, extracted, visits⟩ := visits
    have denoted : messageReferences rules message = references := by
      simp [messageReferences, decoded, denotedBy, extracted, Except.toOption]
    rw [denoted]
    split at visits
    · rename_i targeted
      cases visits
      exact ⟨fun _ => ⟨rfl, rfl⟩, fun spared => absurd targeted spared⟩
    · rename_i spared
      cases visits
      exact ⟨fun targeted => absurd targeted spared, fun _ => ⟨rfl, rfl⟩⟩

/-- A pass gathers what the messages of the targets denote, and what the others do. -/
theorem foldlM_visit_gathers {targetIds : List String} {messages : List MessageRow}
    {gathered final : GatheredReferences}
    (returned : messages.foldlM (GatheredReferences.visit rules targetIds) gathered = .ok final) :
    final.target = gathered.target.union (denotedIn rules
      (messages.filter fun message => message.conversationId ∈ targetIds)) ∧
    final.retained = gathered.retained.union (denotedIn rules
      (messages.filter fun message => message.conversationId ∉ targetIds)) := by
  induction messages generalizing gathered with
  | nil =>
      cases returned
      exact ⟨(References.union_empty _).symm, (References.union_empty _).symm⟩
  | cons message messages induction =>
      rw [List.foldlM_cons, bind_eq_ok] at returned
      obtain ⟨visited, visits, rest⟩ := returned
      obtain ⟨target, retained⟩ := induction rest
      by_cases targeted : message.conversationId ∈ targetIds
      · obtain ⟨grows, stays⟩ := (visit_gathers visits).1 targeted
        rw [target, retained, grows, stays]
        simp [targeted, denotedIn, References.union_assoc]
      · obtain ⟨stays, grows⟩ := (visit_gathers visits).2 targeted
        rw [target, retained, grows, stays]
        simp [targeted, denotedIn, References.union_assoc]

/-- A safe plan removes what is exclusive to its conversations. -/
theorem artifactCleanupPlanLocked_exclusive {conversationIds : List String} {plan : DeletionPlan}
    (planned : artifactCleanupPlanLocked config conversationIds database = .ok plan)
    (safe : plan.safe = true) :
    plan.exclusive = exclusiveReferences
      (denotedIn config.urlRules (targetMessages conversationIds database))
      (denotedIn config.urlRules (otherMessages conversationIds database)) := by
  simp only [artifactCleanupPlanLocked, bind_eq_ok, pure_eq_ok] at planned
  obtain ⟨gathered, visits, rfl⟩ := planned
  have gatheredSafe : gathered.safe = true := safe
  obtain ⟨target, retained⟩ := foldlM_visit_gathers visits
  rw [References.empty_union] at target retained
  simp only [if_pos gatheredSafe, target, retained]
  by_cases none : conversationIds = []
  · subst none
    ext <;> simp [exclusiveReferences, targetMessages, denotedIn, References.empty]
  · rw [if_neg none]
    rfl

/-- A plan that is not safe removes nothing. -/
theorem artifactCleanupPlanLocked_exclusive_of_notSafe {conversationIds : List String}
    {plan : DeletionPlan}
    (planned : artifactCleanupPlanLocked config conversationIds database = .ok plan)
    (notSafe : plan.safe = false) : plan.exclusive = .empty := by
  simp only [artifactCleanupPlanLocked, bind_eq_ok, pure_eq_ok] at planned
  obtain ⟨gathered, -, rfl⟩ := planned
  have gatheredUnsafe : gathered.safe = false := notSafe
  simp [gatheredUnsafe]

end RAGuardian.Artifacts
