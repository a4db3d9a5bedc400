import RAGuardian.History.Schema

/-! # Background jobs

The job records of both stores, the keys that name what a job works on, and the
replies of the stores. -/

namespace RAGuardian.Jobs

open History (Timestamp)

/-! ## Records -/

structure JobError where
  filename : String
  error : String
deriving DecidableEq, Repr

/-- The fields of a job that the stores read or write. A missing text is empty
unless a store tells the two apart. -/
structure Job where
  id : String
  type : Option String
  status : String
  workspaceId : Option String
  knowledgeBaseId : String := ""
  dataSourceId : String := ""
  message : String := ""
  currentFile : String := ""
  finishedAt : Option Timestamp := none
  errors : List JobError := []
deriving DecidableEq, Repr

/-- `RUNNING_JOB_STATUSES` -/
def runningJobStatuses : List String :=
  ["queued", "running"]

/-- `job.get("status") in RUNNING_JOB_STATUSES` -/
def Job.Running (job : Job) : Prop :=
  job.status ∈ runningJobStatuses

instance (job : Job) : Decidable job.Running :=
  inferInstanceAs (Decidable (_ ∈ _))

/-- `job.get("workspace_id") or ""` -/
def Job.workspace (job : Job) : String :=
  job.workspaceId.getD ""

/-- `value or "default"` -/
def orDefault (knowledgeBaseId : String) : String :=
  if knowledgeBaseId = "" then "default" else knowledgeBaseId

def Job.knowledgeBase (job : Job) : String :=
  orDefault job.knowledgeBaseId

/-- `_public_job` -/
def publicJob (job : Job) : Job :=
  { job with knowledgeBaseId := job.knowledgeBase }

/-- The keyword arguments of `update`. -/
structure Patch where
  id : Option String := none
  type : Option String := none
  status : Option String := none
  workspaceId : Option String := none
  knowledgeBaseId : Option String := none
  dataSourceId : Option String := none
  message : Option String := none
  currentFile : Option String := none
  finishedAt : Option Timestamp := none
  errors : Option (List JobError) := none
deriving DecidableEq, Repr

/-- `job.update(patch)` -/
def Job.update (job : Job) (patch : Patch) : Job where
  id := patch.id.getD job.id
  type := patch.type.or job.type
  status := patch.status.getD job.status
  workspaceId := patch.workspaceId.or job.workspaceId
  knowledgeBaseId := patch.knowledgeBaseId.getD job.knowledgeBaseId
  dataSourceId := patch.dataSourceId.getD job.dataSourceId
  message := patch.message.getD job.message
  currentFile := patch.currentFile.getD job.currentFile
  finishedAt := patch.finishedAt.or job.finishedAt
  errors := patch.errors.getD job.errors

/-- What `append_error` makes of a job. -/
def Job.appendError (job : Job) (filename message : String) : Job :=
  { job with errors := job.errors ++ [⟨filename, message⟩] }

/-- What `finish` makes of a job. -/
def Job.finish (job : Job) (now : Timestamp) (status message : String) : Job :=
  { job with
    status := status
    message := message
    currentFile := ""
    finishedAt := some now }

/-! ## Keys -/

/-- The hexadecimal SHA-256 digest of a text, cut to 32 characters. -/
structure Digest where
  hexdigest : String → String

/-- SHA-256, as far as the examples digest texts. -/
def exampleDigest : Digest where
  hexdigest raw :=
    if raw = "w:a" then "052614887028d2817a96c111b2c01c43"
    else if raw = "w:b" then "caf4e9c64ffe26a5564d6c8d7429266c"
    else raw

variable (digest : Digest)

/-- `_data_source_sync_key` -/
def dataSourceSyncKey (job : Job) : String :=
  digest.hexdigest (job.workspace ++ ":" ++ job.knowledgeBase ++ ":" ++ job.dataSourceId)

/-- `_knowledge_base_key` -/
def knowledgeBaseKey (job : Job) : String :=
  if job.workspace = "" then ""
  else digest.hexdigest (job.workspace ++ ":" ++ job.knowledgeBase)

/-- `_rebuild_key` -/
def rebuildKey (job : Job) : String :=
  if job.workspace = "" then "legacy"
  else digest.hexdigest (job.workspace ++ ":" ++ job.knowledgeBase)

/-- `_same_knowledge_base` -/
def SameKnowledgeBase (first second : Job) : Prop :=
  first.workspace ≠ "" ∧ first.workspace = second.workspace ∧
    first.knowledgeBase = second.knowledgeBase

instance (first second : Job) : Decidable (SameKnowledgeBase first second) :=
  inferInstanceAs (Decidable (_ ∧ _ ∧ _))

/-! ## Replies -/

structure Conflict where
  error : String
  status : String
  jobId : String
  dataSourceId : Option String := none
deriving DecidableEq, Repr

/-- What a `create_*` method returns: a job with status 202, a conflict with status
409, or an exception. -/
inductive Reply
  | accepted (job : Job)
  | conflict (conflict : Conflict)
  | valueError (message : String)
  | keyError (jobId : String)
deriving DecidableEq, Repr

/-- `_delete_conflict` -/
def deleteConflict (jobId : String) : Conflict where
  error := "Knowledge base in eliminazione"
  status := "knowledge_base_deleting"
  jobId := jobId

/-- `_active_jobs_conflict` -/
def activeJobsConflict (jobId : String) : Conflict where
  error := "La knowledge base ha job attivi"
  status := "knowledge_base_has_active_jobs"
  jobId := jobId

/-- `_rebuild_conflict` -/
def rebuildConflict (jobId : String) : Conflict where
  error := "Ricostruzione indice gia' in corso"
  status := "conflict"
  jobId := jobId

/-- `_sync_conflict` -/
def syncConflict (jobId : String) (job : Job) : Conflict where
  error := "Sync data source gia' in corso"
  status := "conflict"
  jobId := jobId
  dataSourceId := some job.dataSourceId

def workspaceRequired : String :=
  "workspace_id richiesto per eliminare una knowledge base"

/-- The type of the jobs that destroy a knowledge base. -/
def deleteType : String :=
  "delete_knowledge_base"

def exampleJob (id type status knowledgeBaseId : String) : Job where
  id := id
  type := some type
  status := status
  workspaceId := some "w"
  knowledgeBaseId := knowledgeBaseId

end RAGuardian.Jobs
