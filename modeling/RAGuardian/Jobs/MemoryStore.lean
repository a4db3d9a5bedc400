import RAGuardian.Foundation.Dictionary
import RAGuardian.Foundation.Execution
import RAGuardian.Jobs.Schema

/-! # The job store of a process

`MemoryJobStore`: the jobs in the order of their creation, and the ids of the jobs
admitted last for each target. Every method runs under the lock of the store. -/

namespace RAGuardian.Jobs

open History (Timestamp)

structure MemoryJobStore where
  jobs : Dictionary String Job
  activeRebuildJobIds : Dictionary String String
  activeDataSourceSyncJobIds : Dictionary String String
  activeDeleteJobIds : Dictionary String String

namespace MemoryJobStore

def empty : MemoryJobStore where
  jobs := .empty
  activeRebuildJobIds := .empty
  activeDataSourceSyncJobIds := .empty
  activeDeleteJobIds := .empty

/-- `get` -/
def get (jobId : String) (store : MemoryJobStore) : Option Job :=
  (store.jobs.get? jobId).map publicJob

/-- `self._jobs.get(active_id) if active_id else None`, if that job is running. -/
def runningJob (activeId : Option String) (store : MemoryJobStore) : Option Job :=
  match activeId with
  | none => none
  | some activeId =>
      if activeId = "" then none
      else (store.jobs.get? activeId).filter fun job => job.Running

variable (digest : Digest)

/-- `_active_delete_unlocked` -/
def activeDeleteUnlocked (job : Job) (store : MemoryJobStore) : String × MemoryJobStore :=
  let targetKey := knowledgeBaseKey digest job
  let activeId := store.activeDeleteJobIds.get? targetKey
  match store.runningJob activeId with
  | some _ => (activeId.getD "", store)
  | none =>
      let store :=
        if activeId.getD "" = "" then store
        else { store with activeDeleteJobIds := store.activeDeleteJobIds.erase targetKey }
      match store.jobs.entries.find? fun entry =>
          entry.2.type = some deleteType ∧ entry.2.Running ∧ SameKnowledgeBase entry.2 job with
      | none => ("", store)
      | some (_, candidate) =>
          (candidate.id, { store with
            activeDeleteJobIds := store.activeDeleteJobIds.set targetKey candidate.id })

/-- `_active_jobs_for_target_unlocked` -/
def activeJobsForTargetUnlocked (job : Job) (store : MemoryJobStore) : List Job :=
  (store.jobs.entries.map Prod.snd).filter fun candidate =>
    candidate.Running ∧ SameKnowledgeBase candidate job

/-- Store a job under its id, and reply with it. -/
def enroll (job : Job) (store : MemoryJobStore) : Reply × MemoryJobStore :=
  (.accepted (publicJob job), { store with jobs := store.jobs.set job.id job })

/-- `create_rebuild_job` -/
def createRebuildJob (job : Job) (store : MemoryJobStore) : Reply × MemoryJobStore :=
  let (deleteId, store) := store.activeDeleteUnlocked digest job
  if deleteId ≠ "" then (.conflict (deleteConflict deleteId), store)
  else
    let key := rebuildKey digest job
    let activeId := store.activeRebuildJobIds.get? key
    -- `active_id or ...`: the legacy entry counts only where the target has none.
    let activeId :=
      if key ≠ "legacy" ∧ activeId.getD "" = "" then store.activeRebuildJobIds.get? "legacy"
      else activeId
    match store.runningJob activeId with
    | some _ => (.conflict (rebuildConflict (activeId.getD "")), store)
    | none =>
        let stored := { job with type := job.type.or (some "rebuild_index") }
        enroll stored { store with
          activeRebuildJobIds := store.activeRebuildJobIds.set key stored.id }

/-- `create_data_source_sync_job` -/
def createDataSourceSyncJob (job : Job) (store : MemoryJobStore) : Reply × MemoryJobStore :=
  let (deleteId, store) := store.activeDeleteUnlocked digest job
  if deleteId ≠ "" then (.conflict (deleteConflict deleteId), store)
  else
    let key := dataSourceSyncKey digest job
    let activeId := store.activeDataSourceSyncJobIds.get? key
    match store.runningJob activeId with
    | some _ => (.conflict (syncConflict (activeId.getD "") job), store)
    | none =>
        enroll job { store with
          activeDataSourceSyncJobIds := store.activeDataSourceSyncJobIds.set key job.id }

/-- `create_delete_job` -/
def createDeleteJob (job : Job) (store : MemoryJobStore) : Reply × MemoryJobStore :=
  let targetKey := knowledgeBaseKey digest job
  if targetKey = "" then (.valueError workspaceRequired, store)
  else
    let (deleteId, store) := store.activeDeleteUnlocked digest job
    if deleteId ≠ "" then
      match store.get deleteId with
      | some existing => (.accepted existing, store)
      | none => (.keyError deleteId, store)
    else
      let legacyRebuildId := store.activeRebuildJobIds.get? "legacy"
      match store.runningJob legacyRebuildId with
      | some _ => (.conflict (activeJobsConflict (legacyRebuildId.getD "")), store)
      | none =>
          match store.activeJobsForTargetUnlocked job with
          | active :: _ => (.conflict (activeJobsConflict active.id), store)
          | [] =>
              enroll { job with type := some deleteType } { store with
                activeDeleteJobIds := store.activeDeleteJobIds.set targetKey job.id }

/-- `create_job` -/
def createJob (job : Job) (store : MemoryJobStore) : Reply × MemoryJobStore :=
  if job.type = some deleteType then store.createDeleteJob digest job
  else
    let (deleteId, store) := store.activeDeleteUnlocked digest job
    if deleteId ≠ "" then (.conflict (deleteConflict deleteId), store)
    else enroll job store

/-- `update` -/
def update (jobId : String) (patch : Patch) (store : MemoryJobStore) : MemoryJobStore :=
  match store.jobs.get? jobId with
  | none => store
  | some job => { store with jobs := store.jobs.set jobId (job.update patch) }

/-- `append_error` -/
def appendError (jobId filename message : String) (store : MemoryJobStore) :
    MemoryJobStore :=
  match store.jobs.get? jobId with
  | none => store
  | some job => { store with jobs := store.jobs.set jobId (job.appendError filename message) }

/-- Drop the entry of a key if it names the job. -/
def release (key jobId : String) (active : Dictionary String String) :
    Dictionary String String :=
  if active.get? key = some jobId then active.erase key else active

/-- `finish` -/
def finish (now : Timestamp) (jobId status message : String) (store : MemoryJobStore) :
    MemoryJobStore :=
  match store.jobs.get? jobId with
  | none => store
  | some job =>
      let job := job.finish now status message
      { jobs := store.jobs.set jobId job
        activeRebuildJobIds :=
          if job.type = some "rebuild" ∨ job.type = some "rebuild_index" then
            release (rebuildKey digest job) jobId store.activeRebuildJobIds
          else store.activeRebuildJobIds
        activeDataSourceSyncJobIds :=
          if job.type = some "data_source_sync" then
            release (dataSourceSyncKey digest job) jobId store.activeDataSourceSyncJobIds
          else store.activeDataSourceSyncJobIds
        activeDeleteJobIds :=
          if job.type = some deleteType then
            release (knowledgeBaseKey digest job) jobId store.activeDeleteJobIds
          else store.activeDeleteJobIds }

/-- Drop the selected jobs, and the entries that name them. -/
def clearWhere (selects : String → Job → Bool) (store : MemoryJobStore) :
    Nat × MemoryJobStore :=
  let jobIds := (store.jobs.entries.filter fun entry => selects entry.1 entry.2).map Prod.fst
  let clearJobIds := Dictionary.removeWhere fun _ jobId => decide (jobId ∈ jobIds)
  (jobIds.length,
    { jobs := store.jobs.removeWhere selects
      activeRebuildJobIds := clearJobIds store.activeRebuildJobIds
      activeDataSourceSyncJobIds := clearJobIds store.activeDataSourceSyncJobIds
      activeDeleteJobIds := clearJobIds store.activeDeleteJobIds })

/-- `clear_by_knowledge_base` -/
def clearByKnowledgeBase (workspaceId knowledgeBaseId : String) (excludeJobId : Option String)
    (store : MemoryJobStore) : Nat × MemoryJobStore :=
  if workspaceId = "" ∨ knowledgeBaseId = "" then (0, store)
  else
    store.clearWhere fun jobId job =>
      job.workspaceId = some workspaceId ∧ job.knowledgeBase = knowledgeBaseId ∧
        some jobId ≠ excludeJobId

/-- `clear_by_workspace` -/
def clearByWorkspace (workspaceId : String) (store : MemoryJobStore) :
    Nat × MemoryJobStore :=
  if workspaceId = "" then (0, store)
  else store.clearWhere fun _ job => job.workspaceId = some workspaceId

/-- `clear` -/
def clear (_ : MemoryJobStore) : MemoryJobStore :=
  .empty

end MemoryJobStore

/-! ## Calls -/

/-- The calls that change a store. -/
inductive Call
  | createJob (job : Job)
  | createRebuildJob (job : Job)
  | createDataSourceSyncJob (job : Job)
  | createDeleteJob (job : Job)
  | update (jobId : String) (patch : Patch)
  | appendError (jobId filename message : String)
  | finish (now : Timestamp) (jobId status message : String)
  | clearByKnowledgeBase (workspaceId knowledgeBaseId : String)
      (excludeJobId : Option String)
  | clearByWorkspace (workspaceId : String)
  | clear
deriving DecidableEq

/-- The store after a call. -/
def MemoryJobStore.after (digest : Digest) : Call → MemoryJobStore → MemoryJobStore
  | .createJob job, store => (store.createJob digest job).2
  | .createRebuildJob job, store => (store.createRebuildJob digest job).2
  | .createDataSourceSyncJob job, store => (store.createDataSourceSyncJob digest job).2
  | .createDeleteJob job, store => (store.createDeleteJob digest job).2
  | .update jobId patch, store => store.update jobId patch
  | .appendError jobId filename message, store => store.appendError jobId filename message
  | .finish now jobId status message, store => store.finish digest now jobId status message
  | .clearByKnowledgeBase workspaceId knowledgeBaseId excludeJobId, store =>
      (store.clearByKnowledgeBase workspaceId knowledgeBaseId excludeJobId).2
  | .clearByWorkspace workspaceId, store => (store.clearByWorkspace workspaceId).2
  | .clear, store => store.clear

/-- The store after a sequence of calls. -/
def MemoryJobStore.run (digest : Digest) (calls : List Call) : MemoryJobStore :=
  Execution.run (MemoryJobStore.after digest) .empty calls

end RAGuardian.Jobs
