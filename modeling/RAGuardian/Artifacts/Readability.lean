import RAGuardian.Artifacts.Protection

/-! # Metadata a deletion can read

A plan walks the metadata of every message of the workspace. Only the decoding of
a column is guarded, so the shapes the walk cannot iterate end the deletion. -/

namespace RAGuardian.Artifacts

open Json History Execution

variable {config : StoreConfig} {draws : Draws} {rules : UrlRules} {database : Database}

/-! ## Readable shapes -/

/-- What a `for` statement visits in `value or ()`. -/
def walked : Value → List Value
  | .list items => items
  | .str text => text.toList.map fun character => .str (String.ofList [character])
  | .dict entries => entries.map fun entry => .str entry.1
  | .null | .bool _ | .int _ | .float _ | .object _ => []

/-- A value that is false, or that can be iterated. -/
def Walkable (value : Value) : Prop :=
  value.truthy = true → match value with
    | .list _ | .str _ | .dict _ => True
    | .null | .bool _ | .int _ | .float _ | .object _ => False

/-- The `result` of a response: its images are walked, and every text among them is
split as an URL. -/
structure ReadableResult (rules : UrlRules) (result : List (String × Value)) : Prop where
  images : Walkable (Value.lookup result "images")
  urls : ∀ text, Value.str text ∈ walked (Value.lookup result "images") →
    ∃ parsed, urlsplit rules text = .ok parsed

structure ReadablePayload (rules : UrlRules) (payload : List (String × Value)) : Prop where
  attachments : Walkable (Value.lookup payload "attachments")
  result : ∀ result, Value.lookup payload "result" = .dict result → ReadableResult rules result

/-- Only a response payload inside a dictionary is looked at. -/
def Readable (rules : UrlRules) (metadata : Value) : Prop :=
  ∀ entries payload, metadata = .dict entries →
    Value.lookup entries "response_payload" = .dict payload → ReadablePayload rules payload

/-- Whatever is stored as metadata either does not decode or can be read. -/
def MetadataReadable (rules : UrlRules) (database : Database) : Prop :=
  ∀ message ∈ database.messages, ∀ metadata, message.metadata.loads (.dict []) = some metadata →
    Readable rules metadata

/-! ## Extraction -/

theorem iterate_orElse_eq_ok {value : Value} {items : List Value} :
    iterate (value.orElse (.list [])) = .ok items ↔ Walkable value ∧ items = walked value := by
  unfold Value.orElse Walkable
  split
  · rename_i truthy
    cases value <;> simp [iterate, walked, truthy, eq_comm]
  · rename_i falsy
    have nothing : walked value = [] := by
      cases value <;> simp_all [Value.truthy, walked]
    simp [iterate, nothing, falsy, eq_comm]

theorem publicImageName_returns_iff {value : Value} :
    (∃ imageName, publicImageName rules value = .ok imageName) ↔
      ∀ text, value = .str text → ∃ parsed, urlsplit rules text = .ok parsed := by
  cases value with
  | str text =>
      simp only [publicImageName, bind_eq_ok, Value.str.injEq, forall_eq']
      constructor
      · rintro ⟨imageName, parsed, splits, -⟩
        exact ⟨parsed, splits⟩
      · rintro ⟨parsed, splits⟩
        rw [exists_comm]
        refine ⟨parsed, ?_⟩
        split
        · exact ⟨none, splits, rfl⟩
        · split
          · exact ⟨none, splits, rfl⟩
          · split
            · exact ⟨none, splits, rfl⟩
            · exact ⟨_, splits, rfl⟩
  | _ => simp [publicImageName]

theorem mapM_returns_iff {read : α → Except StoreError β} {items : List α} :
    (∃ results, items.mapM read = .ok results) ↔ ∀ item ∈ items, ∃ result, read item = .ok result := by
  induction items with
  | nil => simp
  | cons item items induction =>
      simp only [List.mapM_cons, bind_eq_ok, pure_eq_ok, List.forall_mem_cons, ← induction]
      constructor
      · rintro ⟨-, result, reads, results, others, -⟩
        exact ⟨⟨result, reads⟩, results, others⟩
      · rintro ⟨⟨result, reads⟩, results, others⟩
        exact ⟨_, result, reads, results, others, rfl⟩

theorem referencesFromResponsePayload_returns_iff {payload : List (String × Value)} :
    (∃ references, referencesFromResponsePayload rules payload = .ok references) ↔
      ReadablePayload rules payload := by
  simp only [referencesFromResponsePayload, bind_eq_ok, iterate_orElse_eq_ok]
  constructor
  · rintro ⟨references, attachments, ⟨walks, -⟩, rest⟩
    refine ⟨walks, ?_⟩
    intro result found
    rw [found] at rest
    simp only [bind_eq_ok, iterate_orElse_eq_ok] at rest
    obtain ⟨images, ⟨imagesWalk, rfl⟩, names, reads, -⟩ := rest
    refine ⟨imagesWalk, fun text member => ?_⟩
    exact publicImageName_returns_iff.mp (mapM_returns_iff.mp ⟨names, reads⟩ _ member) text rfl
  · intro readable
    cases found : Value.lookup payload "result" with
    | dict result =>
        have images := readable.result result found
        obtain ⟨names, reads⟩ := mapM_returns_iff.mpr fun image member =>
          publicImageName_returns_iff.mpr fun text same => images.urls text (same ▸ member)
        simp only [bind_eq_ok, iterate_orElse_eq_ok]
        exact ⟨_, _, ⟨readable.attachments, rfl⟩, _, ⟨images.images, rfl⟩, names, reads, rfl⟩
    | _ => exact ⟨_, _, ⟨readable.attachments, rfl⟩, rfl⟩

theorem referencesFromHistoryMetadata_returns_iff {metadata : Value} :
    (∃ references, referencesFromHistoryMetadata rules metadata = .ok references) ↔
      Readable rules metadata := by
  unfold referencesFromHistoryMetadata Readable
  split
  · rename_i entries
    split
    · rename_i payload found
      rw [referencesFromResponsePayload_returns_iff]
      constructor
      · rintro readable _ _ ⟨rfl⟩ same
        rw [found] at same
        cases same
        exact readable
      · intro readable
        exact readable _ _ rfl found
    · rename_i other
      refine ⟨fun _ => ?_, fun _ => ⟨_, rfl⟩⟩
      rintro _ payload ⟨rfl⟩ same
      exact absurd same (other payload)
  · rename_i other
    refine ⟨fun _ => ?_, fun _ => ⟨_, rfl⟩⟩
    intro entries payload same
    exact absurd same (other entries)

/-! ## Plans -/

theorem visit_returns_iff {targetIds : List String} {gathered : GatheredReferences}
    {message : MessageRow} :
    (∃ visited, gathered.visit rules targetIds message = .ok visited) ↔
      ∀ metadata, message.metadata.loads (.dict []) = some metadata → Readable rules metadata := by
  unfold GatheredReferences.visit
  split
  · rename_i undecoded
    simp [undecoded]
  · rename_i metadata decoded
    simp only [decoded, Option.some.injEq, forall_eq', ← referencesFromHistoryMetadata_returns_iff,
      bind_eq_ok]
    constructor
    · rintro ⟨_, references, extracted, -⟩
      exact ⟨references, extracted⟩
    · rintro ⟨references, extracted⟩
      rw [exists_comm]
      refine ⟨references, ?_⟩
      split
      · exact ⟨_, extracted, rfl⟩
      · exact ⟨_, extracted, rfl⟩

/-- A visited message makes the plan unsafe exactly when its metadata does not decode. -/
theorem visit_safe {targetIds : List String} {gathered visited : GatheredReferences}
    {message : MessageRow} (visits : gathered.visit rules targetIds message = .ok visited) :
    visited.safe = (gathered.safe && (message.metadata.loads (.dict [])).isSome) := by
  unfold GatheredReferences.visit at visits
  split at visits
  · rename_i undecoded
    cases visits
    simp [undecoded]
  · rename_i metadata decoded
    simp only [bind_eq_ok] at visits
    obtain ⟨references, -, visits⟩ := visits
    split at visits
    all_goals
      cases visits
      simp [decoded]

theorem foldlM_visit_returns_iff {targetIds : List String} {messages : List MessageRow}
    {gathered : GatheredReferences} :
    (∃ final, messages.foldlM (GatheredReferences.visit rules targetIds) gathered = .ok final) ↔
      ∀ message ∈ messages, ∀ metadata,
        message.metadata.loads (.dict []) = some metadata → Readable rules metadata := by
  induction messages generalizing gathered with
  | nil => simp
  | cons message messages induction =>
      simp only [List.foldlM_cons, bind_eq_ok, List.forall_mem_cons]
      constructor
      · rintro ⟨final, visited, visits, rest⟩
        exact ⟨visit_returns_iff.mp ⟨visited, visits⟩, induction.mp ⟨final, rest⟩⟩
      · rintro ⟨here, others⟩
        obtain ⟨visited, visits⟩ := visit_returns_iff.mpr here
        obtain ⟨final, rest⟩ := induction.mpr others
        exact ⟨final, visited, visits, rest⟩

theorem foldlM_visit_safe {targetIds : List String} {messages : List MessageRow}
    {gathered final : GatheredReferences}
    (returned : messages.foldlM (GatheredReferences.visit rules targetIds) gathered = .ok final) :
    final.safe = (gathered.safe &&
      messages.all fun message => (message.metadata.loads (.dict [])).isSome) := by
  induction messages generalizing gathered with
  | nil =>
      cases returned
      simp
  | cons message messages induction =>
      rw [List.foldlM_cons, bind_eq_ok] at returned
      obtain ⟨visited, visits, rest⟩ := returned
      rw [induction rest, visit_safe visits, List.all_cons, Bool.and_assoc]

theorem artifactCleanupPlanLocked_returns_iff {conversationIds : List String}
    (nonempty : conversationIds ≠ []) :
    (∃ plan, artifactCleanupPlanLocked config conversationIds database = .ok plan) ↔
      MetadataReadable config.urlRules database := by
  rw [MetadataReadable, ← foldlM_visit_returns_iff]
  simp only [artifactCleanupPlanLocked, if_neg nonempty, bind_eq_ok, pure_eq_ok]
  constructor
  · rintro ⟨_, final, returned, -⟩
    exact ⟨final, returned⟩
  · rintro ⟨final, returned⟩
    exact ⟨_, final, returned, rfl⟩

theorem artifactCleanupPlanLocked_safe {conversationIds : List String} {plan : DeletionPlan}
    (nonempty : conversationIds ≠ [])
    (planned : artifactCleanupPlanLocked config conversationIds database = .ok plan) :
    plan.safe = database.messages.all fun message => (message.metadata.loads (.dict [])).isSome := by
  simp only [artifactCleanupPlanLocked, if_neg nonempty, bind_eq_ok, pure_eq_ok] at planned
  obtain ⟨gathered, visits, rfl⟩ := planned
  simpa using foldlM_visit_safe visits

/-! ## Checkpoints -/

theorem dumpsItems_texts (layout : Layout) (texts : List String) :
    ∃ encoded, Value.dumpsItems layout (texts.map .str) = some encoded := by
  induction texts with
  | nil => exact ⟨_, rfl⟩
  | cons text texts induction =>
      obtain ⟨encoded, others⟩ := induction
      exact ⟨_, by simp [Value.dumpsItems, Value.dumpsWith, others]; rfl⟩

theorem dumpsWith_outboxPayload (layout : Layout) (references : References) :
    ∃ encoded, (outboxPayload references).dumpsWith layout = some encoded := by
  obtain ⟨attachments, first⟩ :=
    dumpsItems_texts layout (references.attachmentIds.sort (· ≤ ·))
  obtain ⟨images, second⟩ := dumpsItems_texts layout (references.imageNames.sort (· ≤ ·))
  obtain ⟨runs, third⟩ := dumpsItems_texts layout (references.runIds.sort (· ≤ ·))
  simp [outboxPayload, Value.dumpsWith, Value.dumpsEntries, first, second, third]

/-- The references of a plan can always be checkpointed, in a row of its own. -/
theorem stageSafePlan_returns (draws : Draws) (cleanupKey : String) (plan : DeletionPlan)
    (database : Database) :
    ∃ staged, stageSafePlan draws cleanupKey plan database = .ok staged := by
  unfold stageSafePlan
  split
  · obtain ⟨encoded, dumps⟩ := dumpsWith_outboxPayload .canonical plan.exclusive
    have kept : ∃ document,
        Document.dumpsWith .canonical (outboxPayload plan.exclusive) = some document := by
      unfold Document.dumpsWith
      split
      · exact ⟨_, rfl⟩
      · rename_i absent
        rw [dumps] at absent
        cases absent
    obtain ⟨document, stored⟩ := kept
    exact ⟨_, by simp only [stageArtifactCleanupLocked, stored]; rfl⟩
  · exact ⟨_, rfl⟩

/-! ## Deletions -/

/-- The two deletions that checkpoint a cleanup. -/
inductive Deletion
  | conversation (historyId : String)
  | knowledgeBase (knowledgeBaseId : String)

namespace Deletion

/-- The conversations a deletion finds. -/
def targets (database : Database) : Deletion → List String
  | .conversation historyId =>
      if (database.conversationById historyId).isNone then [] else [historyId]
  | .knowledgeBase knowledgeBaseId => distinctConversationIdsOf knowledgeBaseId database

/-- The call of the store, with its plan as the result. -/
def perform (config : StoreConfig) (draws : Draws) (database : Database) :
    Deletion → Except StoreError (DeletionPlan × Database)
  | .conversation historyId =>
      (deleteWithArtifactCleanup config draws historyId database).map fun ((_, plan), after) =>
        (plan, after)
  | .knowledgeBase knowledgeBaseId =>
      (deleteByKnowledgeBaseWithArtifactCleanup config draws knowledgeBaseId database).map
        fun ((_, plan), after) => (plan, after)

def cleanupKey : Deletion → String
  | .conversation historyId => "conversation:" ++ historyId
  | .knowledgeBase knowledgeBaseId => "knowledge-base:" ++ knowledgeBaseId

/-- A deletion that finds conversations plans, checkpoints and deletes. -/
theorem perform_eq {deletion : Deletion} (found : deletion.targets database ≠ []) :
    deletion.perform config draws database = (do
      let plan ← artifactCleanupPlanLocked config (deletion.targets database) database
      let staged ← stageSafePlan draws deletion.cleanupKey plan database
      return (plan, deleteConversationIds (deletion.targets database) staged)) := by
  cases deletion with
  | conversation historyId =>
      have present : ¬ (database.conversationById historyId).isNone := by
        intro absent
        simp [targets, absent] at found
      simp only [perform, deleteWithArtifactCleanup, targets, if_neg present, cleanupKey]
      cases artifactCleanupPlanLocked config [historyId] database with
      | error raised => rfl
      | ok plan =>
          change Except.map _ (stageSafePlan draws _ plan database >>= _) =
            stageSafePlan draws _ plan database >>= _
          cases stageSafePlan draws ("conversation:" ++ historyId) plan database <;> rfl
  | knowledgeBase knowledgeBaseId =>
      simp only [targets] at found
      simp only [perform, deleteByKnowledgeBaseWithArtifactCleanup, targets, if_neg found,
        cleanupKey]
      cases artifactCleanupPlanLocked config _ database with
      | error raised => rfl
      | ok plan =>
          change Except.map _ (stageSafePlan draws _ plan database >>= _) =
            stageSafePlan draws _ plan database >>= _
          cases stageSafePlan draws ("knowledge-base:" ++ knowledgeBaseId) plan database <;> rfl

/-- The conversations are deleted, by a plan that is safe unless some metadata does
not decode. -/
def Succeeds (config : StoreConfig) (draws : Draws) (database : Database)
    (deletion : Deletion) : Prop :=
  ∃ plan after, deletion.perform config draws database = .ok (plan, after) ∧
    (∀ id ∈ deletion.targets database, id ∉ after.conversationIds) ∧
    (plan.safe = true ↔ ∀ message ∈ database.messages,
      ∃ metadata, message.metadata.loads (.dict []) = some metadata)

/-- A deletion of conversations succeeds exactly when all metadata of the workspace
that decodes has a shape the walk can read. -/
theorem succeeds_iff_metadataReadable (config : StoreConfig) (draws : Draws)
    (database : Database) (deletion : Deletion) (found : deletion.targets database ≠ []) :
    deletion.Succeeds config draws database ↔ MetadataReadable config.urlRules database := by
  rw [Succeeds, perform_eq found, ← artifactCleanupPlanLocked_returns_iff found]
  simp only [bind_eq_ok, pure_eq_ok]
  constructor
  · rintro ⟨_, _, ⟨plan, planned, -⟩, -⟩
    exact ⟨plan, planned⟩
  · rintro ⟨plan, planned⟩
    obtain ⟨staged, stages⟩ := stageSafePlan_returns draws deletion.cleanupKey plan database
    refine ⟨plan, _, ⟨plan, planned, staged, stages, rfl⟩, ?_, ?_⟩
    · intro id targeted
      exact deleteConversationIds_absent targeted staged
    · rw [artifactCleanupPlanLocked_safe found planned]
      simp [Option.isSome_iff_exists]

theorem succeeds_iff_metadataReadable_oneTurn :
    (Deletion.conversation "conversation-a").Succeeds Sample.config (Sample.draws 20 "c")
        (run (Event.after Sample.config) .empty Sample.oneTurn) ↔
      MetadataReadable Sample.config.urlRules
        (run (Event.after Sample.config) .empty Sample.oneTurn) :=
  succeeds_iff_metadataReadable Sample.config (Sample.draws 20 "c")
    (run (Event.after Sample.config) .empty Sample.oneTurn) (.conversation "conversation-a")
    (by decide +kernel)

/-- An answer whose attachments are a number. -/
def numberedAttachments : List Event :=
  [⟨.beginTurn (Sample.begins "t1" none), Sample.draws 0 "a"⟩,
    ⟨.completeTurn { Sample.completes "t1" "a" with
      metadata := some [("response_payload", .dict [("attachments", .int 5)])] },
      Sample.draws 10 "b"⟩]

/-- `complete_turn` accepts the number, and the conversation can no longer be deleted. -/
theorem numberedAttachments_not_deleted :
    ¬ ∀ (events : List Event) (draws : Draws) (deletion : Deletion),
      deletion.targets (run (Event.after Sample.config) .empty events) ≠ [] →
        deletion.Succeeds Sample.config draws (run (Event.after Sample.config) .empty events) := by
  intro succeeds
  obtain ⟨plan, after, returned, -⟩ := succeeds numberedAttachments (Sample.draws 20 "c")
    (.conversation "conversation-a") (by decide +kernel)
  have raised : ((Deletion.conversation "conversation-a").perform Sample.config
      (Sample.draws 20 "c") (run (Event.after Sample.config) .empty numberedAttachments)).toBool =
        false := by
    decide +kernel
  rw [returned] at raised
  cases raised

end Deletion

end RAGuardian.Artifacts
