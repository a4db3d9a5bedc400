import RAGuardian.Foundation.Concurrency
import RAGuardian.Jobs.MemoryStore

/-! # The job store in Redis

`RedisJobStore`, method by method as the sequence of its Redis commands. The
admission lock makes a `create_*` method one step of the store, and so it is left
out of the programs; the other methods take no lock. -/

namespace RAGuardian.Jobs

open Concurrency
open History (Timestamp)

/-! ## Commands -/

/-- The keys of the active ids: `active:rebuild`, `active:rebuild:…`,
`active:data-source-sync:…` and `active:delete:…`. -/
inductive ActiveKey
  | unscoped
  | rebuild (key : String)
  | dataSourceSync (key : String)
  | delete (key : String)
deriving DecidableEq, Repr

/-- The values stored under the keys of the jobs and of the active ids. -/
structure RedisJobs where
  jobs : Dictionary String Job
  active : Dictionary ActiveKey String

def RedisJobs.empty : RedisJobs where
  jobs := .empty
  active := .empty

inductive Command
  | getJob (jobId : String)
  | setexJob (jobId : String) (job : Job)
  | deleteJob (jobId : String)
  | scanJobs
  | getActive (key : ActiveKey)
  | setActive (key : ActiveKey) (jobId : String)
  | setNxActive (key : ActiveKey) (jobId : String)
  | deleteActive (key : ActiveKey)
  | flushJobs

@[reducible] def Command.Response : Command → Type
  | .getJob _ => Option Job
  | .setexJob _ _ => Unit
  | .deleteJob _ => Nat
  | .scanJobs => List String
  | .getActive _ => Option String
  | .setActive _ _ => Unit
  | .setNxActive _ _ => Bool
  | .deleteActive _ => Unit
  | .flushJobs => Unit

/-- What a scan reports while other commands come between its steps: anything, or
exactly the keys there are. -/
abbrev Scan := Option (List String)

def execute (scan : Scan) : (command : Command) → RedisJobs → command.Response × RedisJobs
  | .getJob jobId, redis => (redis.jobs.get? jobId, redis)
  | .setexJob jobId job, redis => ((), { redis with jobs := redis.jobs.set jobId job })
  | .deleteJob jobId, redis =>
      (if (redis.jobs.get? jobId).isSome then 1 else 0,
        { redis with jobs := redis.jobs.erase jobId })
  | .scanJobs, redis => (scan.getD redis.jobs.keys, redis)
  | .getActive key, redis => (redis.active.get? key, redis)
  | .setActive key jobId, redis => ((), { redis with active := redis.active.set key jobId })
  | .setNxActive key jobId, redis =>
      match redis.active.get? key with
      | some _ => (false, redis)
      | none => (true, { redis with active := redis.active.set key jobId })
  | .deleteActive key, redis => ((), { redis with active := redis.active.erase key })
  | .flushJobs, _ => ((), .empty)

abbrev Commands (α : Type) : Type := Program Command Command.Response α

namespace Commands

def getJob (jobId : String) : Commands (Option Job) := .call (.getJob jobId) .done

def setexJob (jobId : String) (job : Job) : Commands Unit := .call (.setexJob jobId job) .done

def deleteJob (jobId : String) : Commands Nat := .call (.deleteJob jobId) .done

def scanJobs : Commands (List String) := .call .scanJobs .done

def getActive (key : ActiveKey) : Commands (Option String) := .call (.getActive key) .done

def setActive (key : ActiveKey) (jobId : String) : Commands Unit :=
  .call (.setActive key jobId) .done

def setNxActive (key : ActiveKey) (jobId : String) : Commands Bool :=
  .call (.setNxActive key jobId) .done

def deleteActive (key : ActiveKey) : Commands Unit := .call (.deleteActive key) .done

def flushJobs : Commands Unit := .call .flushJobs .done

end Commands

/-! ## Methods -/

namespace RedisJobStore

open Commands

/-- `get` -/
def get (jobId : String) : Commands (Option Job) :=
  if jobId = "" then pure none
  else do
    let job ← getJob jobId
    pure (job.map publicJob)

/-- `_save` -/
def save (job : Job) : Commands Unit :=
  setexJob job.id job

/-- `_decode(self.redis.get(key))` -/
def activeId (key : ActiveKey) : Commands String := do
  let jobId ← getActive key
  pure (jobId.getD "")

/-- Drop an active id if it is the one of the job. -/
def release (key : ActiveKey) (jobId : String) : Commands Unit := do
  let active ← activeId key
  if active = jobId then deleteActive key else pure ()

/-- `_iter_jobs`, which skips the jobs without an id. -/
def iterJobs : Commands (List Job) := do
  let jobIds ← scanJobs
  let rec collect : List String → Commands (List Job)
    | [] => pure []
    | jobId :: rest => do
        let job ← getJob jobId
        let jobs ← collect rest
        pure ((job.toList.filter fun job => job.id ≠ "") ++ jobs)
  collect jobIds

/-- `_active_jobs_for_target` -/
def activeJobsForTarget (job : Job) : Commands (List Job) := do
  let jobs ← iterJobs
  pure (jobs.filter fun candidate => candidate.Running ∧ SameKnowledgeBase candidate job)

/-- `_legacy_active_rebuild_id` -/
def legacyActiveRebuildId : Commands String := do
  let unscoped ← activeId .unscoped
  if unscoped ≠ "" then pure unscoped else activeId (.rebuild "legacy")

variable (digest : Digest)

/-- `_active_delete` -/
def activeDelete (job : Job) : Commands String := do
  let targetKey := knowledgeBaseKey digest job
  if targetKey = "" then pure ""
  else
    let active ← activeId (.delete targetKey)
    let stored ← get active
    if stored.any (·.Running) then pure active
    else
      if active ≠ "" then deleteActive (.delete targetKey) else pure ()
      let candidates ← activeJobsForTarget job
      match candidates.find? fun candidate => candidate.type = some deleteType with
      | none => pure ""
      | some candidate =>
          setActive (.delete targetKey) candidate.id
          pure candidate.id

/-- Save an admitted job, and reply with it. -/
def enroll (job : Job) : Commands Reply := do
  save job
  let stored ← get job.id
  pure (.accepted (stored.getD job))

/-- Reserve an active id for a job: if the one present is not of a running job, it
is dropped and the key set once more. `none` if the key is reserved, and otherwise
the id that holds it. -/
def reserve (key : ActiveKey) (jobId : String) : Commands (Option String) := do
  let free ← setNxActive key jobId
  if free then pure none
  else
    let active ← activeId key
    let stored ← get active
    if stored.any (·.Running) then pure (some active)
    else
      deleteActive key
      let free ← setNxActive key jobId
      if free then pure none
      else
        let active ← activeId key
        pure (some active)

/-- `create_rebuild_job` -/
def createRebuildJob (job : Job) : Commands Reply := do
  let job := { job with
    type := some (if job.type.getD "" = "" then "rebuild_index" else job.type.getD "") }
  let deleteId ← activeDelete digest job
  if deleteId ≠ "" then pure (.conflict (deleteConflict deleteId))
  else
    let legacyId ←
      if rebuildKey digest job ≠ "legacy" then legacyActiveRebuildId else activeId .unscoped
    if legacyId ≠ "" then pure (.conflict (rebuildConflict legacyId))
    else
      let holder ← reserve (.rebuild (rebuildKey digest job)) job.id
      match holder with
      | some holder => pure (.conflict (rebuildConflict holder))
      | none => enroll job

/-- `create_data_source_sync_job` -/
def createDataSourceSyncJob (job : Job) : Commands Reply := do
  let deleteId ← activeDelete digest job
  if deleteId ≠ "" then pure (.conflict (deleteConflict deleteId))
  else
    let holder ← reserve (.dataSourceSync (dataSourceSyncKey digest job)) job.id
    match holder with
    | some holder => pure (.conflict (syncConflict holder job))
    | none => enroll job

/-- The rest of `create_delete_job`, once no deletion of the target is known. -/
def reserveDelete (job : Job) : Commands Reply := do
  let legacyId ← legacyActiveRebuildId
  if legacyId ≠ "" then pure (.conflict (activeJobsConflict legacyId))
  else
    let scopedId ← activeId (.rebuild (rebuildKey digest job))
    if scopedId ≠ "" then pure (.conflict (activeJobsConflict scopedId))
    else
      let active ← activeJobsForTarget job
      match active with
      | first :: _ =>
          if first.type = some deleteType then do
            setActive (.delete (knowledgeBaseKey digest job)) first.id
            let existing ← get first.id
            pure (.accepted (existing.getD first))
          else pure (.conflict (activeJobsConflict first.id))
      | [] =>
          let key := ActiveKey.delete (knowledgeBaseKey digest job)
          let free ← setNxActive key job.id
          if free then enroll job
          else
            let active ← activeId key
            pure (.conflict (deleteConflict active))

/-- `create_delete_job` -/
def createDeleteJob (job : Job) : Commands Reply := do
  if knowledgeBaseKey digest job = "" then pure (.valueError workspaceRequired)
  else
    let job := { job with type := some deleteType }
    let deleteId ← activeDelete digest job
    if deleteId ≠ "" then
      let existing ← get deleteId
      match existing with
      | some existing => pure (.accepted existing)
      | none => reserveDelete digest job
    else reserveDelete digest job

/-- `create_job` -/
def createJob (job : Job) : Commands Reply := do
  if job.type = some deleteType then createDeleteJob digest job
  else
    let deleteId ← activeDelete digest job
    if deleteId ≠ "" then pure (.conflict (deleteConflict deleteId))
    else enroll job

/-- Read a job, change it, and save it, as long as there is one; then go on. -/
def modify (jobId : String) (change : Job → Job) (rest : Option Job → Commands α) :
    Commands α := do
  let job ← get jobId
  match job with
  | none => rest none
  | some job => do
      save (change job)
      rest (some (change job))

/-- `update` -/
def update (jobId : String) (patch : Patch) : Commands Unit :=
  modify jobId (fun job => job.update patch) fun _ => pure ()

/-- `append_error` -/
def appendError (jobId filename message : String) : Commands Unit :=
  modify jobId (fun job => job.appendError filename message) fun _ => pure ()

/-- Drop the active ids of a job that is finished or cleared, but for the legacy
ones. -/
def releaseTyped (job : Job) (jobId : String) : Commands Unit := do
  if job.type = some "data_source_sync" then
    release (.dataSourceSync (dataSourceSyncKey digest job)) jobId
  else pure ()
  if job.type = some deleteType then
    release (.delete (knowledgeBaseKey digest job)) jobId
  else pure ()

/-- Drop the active ids of a finished job. Without a job the keys are those of a job
without fields. -/
def releaseFinished (jobId : String) (job : Option Job) : Commands Unit := do
  release (.rebuild ((job.map (rebuildKey digest)).getD "legacy")) jobId
  release .unscoped jobId
  release (.rebuild "legacy") jobId
  match job with
  | none => pure ()
  | some job => releaseTyped digest job jobId

/-- `finish` -/
def finish (now : Timestamp) (jobId status message : String) : Commands Unit :=
  modify jobId (fun job => job.finish now status message) (releaseFinished digest jobId)

/-- The loop of `_clear_matching` over the scanned keys. -/
def clearEach (selects : Job → Bool) : List String → Nat → Commands Nat
  | [], deleted => pure deleted
  | jobId :: rest, deleted => do
      let job ← getJob jobId
      match job with
      | none => clearEach selects rest deleted
      | some job =>
          if selects job then do
            let count ← deleteJob jobId
            release (.rebuild (rebuildKey digest job)) job.id
            releaseTyped digest job job.id
            clearEach selects rest (deleted + count)
          else clearEach selects rest deleted

/-- `_clear_matching` -/
def clearMatching (selects : Job → Bool) : Commands Nat := do
  let jobIds ← scanJobs
  clearEach digest selects jobIds 0

/-- `clear_by_knowledge_base` -/
def clearByKnowledgeBase (workspaceId knowledgeBaseId : String)
    (excludeJobId : Option String) : Commands Nat :=
  clearMatching digest fun job =>
    job.workspaceId = some workspaceId ∧ job.knowledgeBase = knowledgeBaseId ∧
      job.id ≠ excludeJobId.getD ""

/-- `clear_by_workspace` -/
def clearByWorkspace (workspaceId : String) : Commands Nat :=
  if workspaceId = "" then pure 0
  else clearMatching digest fun job => job.workspaceId = some workspaceId

/-- `clear` -/
def clear : Commands Unit :=
  flushJobs

end RedisJobStore

end RAGuardian.Jobs
