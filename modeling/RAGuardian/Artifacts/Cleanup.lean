import RAGuardian.Foundation.Execution
import RAGuardian.History.Store.Operations

/-! # Deletions and the cleanup of their artifacts

A deletion takes its plan and its checkpoint in one transaction and executes the
plan afterwards. Both deletions hold the lifecycle write lock from the plan to the
end of its execution, and turns complete under the read lock. -/

namespace RAGuardian.Artifacts

open Json History

/-! ## What a cleanup can hit -/

/-- The references one stored metadata value denotes. Metadata that cannot be read
denotes nothing. -/
def denotedBy (rules : UrlRules) (metadata : Value) : References :=
  (referencesFromHistoryMetadata rules metadata).toOption.getD .empty

/-- The references a message denotes. -/
def messageReferences (rules : UrlRules) (message : MessageRow) : References :=
  ((message.metadata.loads (.dict [])).map (denotedBy rules)).getD .empty

/-- Cleaning up `cleaned` removes nothing that `live` denotes: neither one of its
identifiers nor an image of a cleaned run. -/
structure References.Spares (cleaned live : References) : Prop where
  attachmentIds : ∀ attachmentId ∈ cleaned.attachmentIds, attachmentId ∉ live.attachmentIds
  imageNames : ∀ imageName ∈ cleaned.imageNames, imageName ∉ live.imageNames
  runIds : ∀ runId ∈ cleaned.runIds, runId ∉ live.runIds
  imageRuns : ∀ imageName ∈ live.imageNames, ∀ runId ∈ cleaned.runIds,
    runIdForImage imageName ≠ some runId

/-- No conversation that exists denotes something a cleanup removes. -/
def SparesConversations (rules : UrlRules) (cleaned : References) (database : Database) : Prop :=
  ∀ conversation ∈ database.conversations, ∀ message ∈ database.messagesOf conversation.id,
    cleaned.Spares (messageReferences rules message)

/-! ## Executions -/

/-- A call of `cleanup_workspace_artifacts`: the references it is executed with, and
the database at that moment. -/
structure ExecutedCleanup where
  references : References
  database : Database

/-- The database of a workspace, with the cleanups executed so far. -/
structure State where
  database : Database
  executions : List ExecutedCleanup

def State.initial : State where
  database := .empty
  executions := []

/-- How the execution of a plan ends: it succeeds; it raises `ArtifactCleanupError`,
or the process stops before the success is recorded; or the process stops before it
begins. -/
inductive CleanupOutcome
  | succeeded
  | failed
  | interrupted
deriving DecidableEq, Repr

inductive DeletionError
  | store (error : StoreError)
  | artifactCleanupFailed
  | interrupted

/-- What both deletions do with a safe plan: execute it, and complete the outbox item
of its key. -/
def executePlan (cleanupKey : String) (plan : DeletionPlan) (outcome : CleanupOutcome)
    (state : State) : Except DeletionError Unit × State :=
  let executed := { state with
    executions := state.executions ++ [⟨plan.exclusive, state.database⟩] }
  match outcome with
  | .succeeded => (.ok (), { executed with
      database := (completeArtifactCleanup cleanupKey state.database).2 })
  | .failed => (.error .artifactCleanupFailed, executed)
  | .interrupted => (.error .interrupted, state)

/-- `delete_conversation` with an upload folder, from the durable deletion on -/
def deleteConversation (config : StoreConfig) (draws : Draws) (historyId : String)
    (outcome : CleanupOutcome) (state : State) : Except DeletionError Bool × State :=
  match deleteWithArtifactCleanup config draws historyId state.database with
  | .error raised => (.error (.store raised), state)
  | .ok ((deleted, plan), database) =>
      let state := { state with database := database }
      if plan.safe then
        let (ended, state) := executePlan ("conversation:" ++ historyId) plan outcome state
        (ended.map fun _ => true, state)
      else (.ok deleted, state)

/-- The cascade over the conversations of a knowledge base in
`_run_delete_knowledge_base_job`, and the cleanup after it -/
def deleteConversationsOf (config : StoreConfig) (draws : Draws) (knowledgeBaseId : String)
    (outcome : CleanupOutcome) (state : State) : Except DeletionError Nat × State :=
  match deleteByKnowledgeBaseWithArtifactCleanup config draws knowledgeBaseId
      state.database with
  | .error raised => (.error (.store raised), state)
  | .ok ((deletedConversations, plan), database) =>
      let state := { state with database := database }
      if plan.safe then
        let (ended, state) := executePlan ("knowledge-base:" ++ knowledgeBaseId) plan outcome state
        (ended.map fun _ => deletedConversations, state)
      else (.ok deletedConversations, state)

/-- A call of the store on its own, or a deletion with its cleanup. A deletion whose
conversations are gone is a retry from the outbox. -/
inductive Act
  | call (event : Event)
  | deleteConversation (draws : Draws) (historyId : String) (outcome : CleanupOutcome)
  | deleteConversationsOf (draws : Draws) (knowledgeBaseId : String)
      (outcome : CleanupOutcome)

def Act.after (config : StoreConfig) (act : Act) (state : State) : State :=
  match act with
  | .call event => { state with database := event.after config state.database }
  | .deleteConversation draws historyId outcome =>
      (Artifacts.deleteConversation config draws historyId outcome state).2
  | .deleteConversationsOf draws knowledgeBaseId outcome =>
      (Artifacts.deleteConversationsOf config draws knowledgeBaseId outcome state).2

end RAGuardian.Artifacts
