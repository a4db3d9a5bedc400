import RAGuardian.Jobs.LegacyRedis

/-! # Expiry of the active ids in Redis

An active id expires by its own time to live, while its job may run for longer. The
admissions of deletions scan the jobs. Those of rebuilds and syncs look only for their
active id. -/

namespace RAGuardian.Jobs

open Concurrency Execution
open History (Timestamp)

/-! ## Runs -/

/-- A call as one step, or an active id that expires. -/
inductive ExpiryEvent
  | create (creation : Creation)
  | update (jobId : String) (patch : Patch)
  | finish (now : Timestamp) (jobId status message : String)
  | expire (key : ActiveKey)

def ExpiryEvent.after (digest : Digest) : ExpiryEvent → RedisJobs → RedisJobs
  | .create creation, redis => (creation.perform digest redis).2
  | .update jobId patch, redis =>
      ((RedisJobStore.update jobId patch).perform (execute none) redis).2
  | .finish now jobId status message, redis =>
      ((RedisJobStore.finish digest now jobId status message).perform (execute none) redis).2
  | .expire key, redis => { redis with active := redis.active.erase key }

def expiryRun (digest : Digest) (events : List ExpiryEvent) : RedisJobs :=
  run (ExpiryEvent.after digest) .empty events

/-- The calls that ask for a job. -/
def asked (events : List ExpiryEvent) : List Call :=
  events.filterMap fun
    | .create creation => some creation.call
    | _ => none

/-- A running deletion is alone on its target, and rebuilds and syncs exclude each other. -/
structure ExclusiveJobs (calls : List Call) (jobs : Dictionary String Job) : Prop where
  deletes : ∀ id job other found, RunsIn jobs id job → job.type = some deleteType →
    RunsIn jobs other found → found.workspace = job.workspace →
    found.knowledgeBase = job.knowledgeBase → other = id
  rebuilds : ∀ id job other found, RebuildRequested calls id → RebuildRequested calls other →
    RunsIn jobs id job → RunsIn jobs other found → found.workspace = job.workspace →
    found.knowledgeBase = job.knowledgeBase → other = id
  syncs : ∀ id job other found, SyncRequested calls id → SyncRequested calls other →
    RunsIn jobs id job → RunsIn jobs other found → found.workspace = job.workspace →
    found.knowledgeBase = job.knowledgeBase → found.dataSourceId = job.dataSourceId → other = id

/-- A version of a job under the same id and for the same target, running or a deletion
only if it was. -/
structure Faithful (old new : Job) : Prop where
  id : new.id = old.id
  target : SameTarget old new
  deletion : new.type = some deleteType → old.type = some deleteType
  running : new.Running → old.Running

/-- The jobs have fresh ids and types as in the other store, the changes are faithful, and
the active id of a rebuild or a sync does not expire while its job is running. -/
structure Lasting (digest : Digest) (events : List ExpiryEvent) : Prop where
  distinct : (createdIds (asked events)).Nodup
  named : ∀ id ∈ createdIds (asked events), id ≠ ""
  typed : ∀ job, Call.createRebuildJob job ∈ asked events ∨
    Call.createDataSourceSyncJob job ∈ asked events → job.type ≠ some deleteType
  updates : ∀ past jobId patch, past ++ [.update jobId patch] <+: events →
    ∀ job, (expiryRun digest past).lookup jobId = some job → Faithful job (job.update patch)
  finishes : ∀ past now jobId status message,
    past ++ [.finish now jobId status message] <+: events → status ∉ runningJobStatuses
  expiries : ∀ past key, past ++ [.expire key] <+: events →
    ∀ id job, (expiryRun digest past).active.get? key = some id →
      RunsIn (expiryRun digest past).jobs id job →
        key ≠ .rebuild (rebuildKey digest job) ∧ key ≠ .dataSourceSync (dataSourceSyncKey digest job)

/-! ## What the calls do -/

/-- The keys of the active ids of deletions. -/
def ActiveKey.IsDelete : ActiveKey → Prop
  | .delete _ => True
  | _ => False

/-- Only active ids of deletions change. -/
structure OnlyDeletions (before after : RedisJobs) : Prop where
  jobs : after.jobs = before.jobs
  active : ∀ key : ActiveKey, ¬key.IsDelete → after.active.get? key = before.active.get? key

section

variable {digest : Digest} {redis : RedisJobs} {job : Job}

theorem OnlyDeletions.refl (redis : RedisJobs) : OnlyDeletions redis redis :=
  ⟨rfl, fun _ _ => rfl⟩

theorem OnlyDeletions.trans {first second third : RedisJobs} (left : OnlyDeletions first second)
    (right : OnlyDeletions second third) : OnlyDeletions first third :=
  ⟨right.jobs.trans left.jobs, fun key other =>
    (right.active key other).trans (left.active key other)⟩

theorem onlyDeletions_set (target jobId : String) (redis : RedisJobs) :
    OnlyDeletions redis { redis with active := redis.active.set (.delete target) jobId } where
  jobs := rfl
  active key other := by
    apply Dictionary.get?_set_of_ne
    rintro rfl
    exact other trivial

theorem onlyDeletions_erase (target : String) (redis : RedisJobs) :
    OnlyDeletions redis { redis with active := redis.active.erase (.delete target) } where
  jobs := rfl
  active key other := by
    apply Dictionary.get?_erase_of_ne
    rintro rfl
    exact other trivial

theorem perform_collect (jobIds : List String) (redis : RedisJobs) :
    (RedisJobStore.iterJobs.collect jobIds).perform (execute none) redis =
      ((jobIds.filterMap redis.jobs.get?).filter (fun job => job.id ≠ ""), redis) := by
  induction jobIds with
  | nil => rfl
  | cons jobId rest induction =>
      simp only [RedisJobStore.iterJobs.collect, Program.bind_eq_bind, Program.perform_bind,
        Commands.getJob, Program.perform_call, Program.perform_done, execute, induction]
      cases stored : redis.jobs.get? jobId with
      | none =>
          rw [List.filterMap_cons_none stored]
          rfl
      | some job =>
          rw [List.filterMap_cons_some stored, Option.toList_some, List.filter_cons]
          split <;> simp_all

/-- The running jobs of a target. -/
def RedisJobs.activeFor (job : Job) (redis : RedisJobs) : List Job :=
  ((redis.jobs.keys.filterMap redis.jobs.get?).filter fun job => job.id ≠ "").filter
    fun candidate => candidate.Running ∧ SameKnowledgeBase candidate job

theorem perform_activeJobsForTarget (job : Job) (redis : RedisJobs) :
    (RedisJobStore.activeJobsForTarget job).perform (execute none) redis =
      (redis.activeFor job, redis) := by
  simp only [RedisJobStore.activeJobsForTarget, RedisJobStore.iterJobs, Program.bind_eq_bind,
    Program.perform_bind, Commands.scanJobs, Program.perform_call, Program.perform_done, execute,
    perform_collect]
  rfl

theorem mem_activeFor {candidate : Job} :
    candidate ∈ redis.activeFor job ↔ candidate.id ≠ "" ∧
      (∃ id, RunsIn redis.jobs id candidate) ∧ SameKnowledgeBase candidate job := by
  simp only [RedisJobs.activeFor, List.mem_filter, List.mem_filterMap, RunsIn, Dictionary.mem_keys,
    decide_eq_true_eq]
  constructor
  · rintro ⟨⟨⟨id, _, stored⟩, named⟩, running, same⟩
    exact ⟨named, ⟨id, stored, running⟩, same⟩
  · rintro ⟨named, ⟨id, stored, running⟩, same⟩
    exact ⟨⟨⟨id, ⟨candidate, stored⟩, stored⟩, named⟩, running, same⟩

/-- A running deletion of the target, where the target has a key. -/
structure Deletes (digest : Digest) (redis : RedisJobs) (job : Job) (id : String) (found : Job) :
    Prop where
  runs : RunsIn redis.jobs id found
  named : found.id ≠ ""
  deletion : found.type = some deleteType
  same : SameKnowledgeBase found job
  placed : knowledgeBaseKey digest job ≠ ""

theorem perform_setActive (key : ActiveKey) (jobId : String) (redis : RedisJobs) :
    (Commands.setActive key jobId).perform (execute none) redis =
      ((), { redis with active := redis.active.set key jobId }) :=
  rfl

theorem perform_deleteActive (key : ActiveKey) (redis : RedisJobs) :
    (Commands.deleteActive key).perform (execute none) redis =
      ((), { redis with active := redis.active.erase key }) :=
  rfl

/-- The scan of `_active_delete`. -/
theorem perform_findDelete (digest : Digest) (job : Job) (redis : RedisJobs) :
    ∃ reply after, ((RedisJobStore.activeJobsForTarget job).bind fun candidates =>
        match candidates.find? fun candidate => candidate.type = some deleteType with
        | none => (.done "" : Commands String)
        | some candidate =>
            (Commands.setActive (.delete (knowledgeBaseKey digest job)) candidate.id).bind
              fun _ => .done candidate.id).perform (execute none) redis = (reply, after) ∧
      OnlyDeletions redis after ∧
      (reply = "" → ∀ id found, ¬Deletes digest redis job id found) := by
  rw [Program.perform_bind, perform_activeJobsForTarget]
  cases found : (redis.activeFor job).find? fun candidate => candidate.type = some deleteType with
  | none =>
      dsimp only
      refine ⟨_, _, rfl, .refl redis, ?_⟩
      rintro _ id candidate ⟨runs, named, deletion, same, _⟩
      have other := List.find?_eq_none.mp found candidate (mem_activeFor.mpr ⟨named, ⟨id, runs⟩, same⟩)
      exact other (decide_eq_true deletion)
  | some candidate =>
      simp only [Program.perform_bind, perform_setActive]
      refine ⟨_, _, rfl, onlyDeletions_set _ _ redis, ?_⟩
      intro unnamed
      exact absurd unnamed (mem_activeFor.mp (List.mem_of_find?_eq_some found)).1

/-- `_active_delete` finds a running deletion of the target. -/
theorem perform_activeDelete (digest : Digest) (job : Job) (redis : RedisJobs) :
    ∃ reply after, (RedisJobStore.activeDelete digest job).perform (execute none) redis =
        (reply, after) ∧
      OnlyDeletions redis after ∧
      (reply = "" → ∀ id found, ¬Deletes digest redis job id found) := by
  simp only [RedisJobStore.activeDelete, Program.bind_eq_bind]
  split
  · rename_i unplaced
    exact ⟨_, _, rfl, .refl redis, fun _ _ _ deletes => deletes.placed unplaced⟩
  · rw [Program.perform_bind, perform_activeId, Program.perform_bind, perform_get]
    dsimp only
    split
    · rename_i running
      refine ⟨_, _, rfl, .refl redis, ?_⟩
      intro unnamed
      rw [unnamed] at running
      simp [RedisJobs.lookup] at running
    · split
      · rw [Program.perform_bind, perform_deleteActive]
        rcases perform_findDelete digest job { redis with
          active := redis.active.erase (.delete (knowledgeBaseKey digest job)) } with
          ⟨reply, after, performed, only, absent⟩
        refine ⟨reply, after, performed, (onlyDeletions_erase _ redis).trans only, ?_⟩
        rintro unnamed id found ⟨runs, named, deletion, same, placed⟩
        exact absent unnamed id found ⟨runs, named, deletion, same, placed⟩
      · exact perform_findDelete digest job redis

/-! ## What the creating calls do -/

/-- What a creating call does. Nothing but to ids of deletions, or it adds the job and its
id under the key, when no running job is barred and the key names no running job. -/
inductive Outcome (key : Option ActiveKey) (barred : String → Job → Prop) (job : Job)
    (redis : RedisJobs) : RedisJobs → Prop
  | refused (after : RedisJobs) (only : OnlyDeletions redis after) :
      Outcome key barred job redis after
  | added (after : RedisJobs) (absent : ∀ id found, ¬barred id found)
      (free : ∀ entry ∈ key, ∀ holder found, redis.active.get? entry = some holder →
        holder ≠ "" → ¬RunsIn redis.jobs holder found)
      (jobs : after.jobs = redis.jobs.set job.id job)
      (active : ∀ other : ActiveKey, ¬other.IsDelete → after.active.get? other =
        if key = some other then some job.id else redis.active.get? other) :
      Outcome key barred job redis after

/-- A job that takes no active id of its own is added. -/
theorem outcome_enroll {barred : String → Job → Prop} {middle : RedisJobs} (job : Job)
    (only : OnlyDeletions redis middle) (absent : ∀ id found, ¬barred id found) :
    Outcome none barred job redis
      ((RedisJobStore.enroll job).perform (execute none) middle).2 := by
  rcases perform_enroll job middle with ⟨_, performed⟩
  rw [performed]
  refine .added _ absent nofun ?_ ?_
  · rw [only.jobs]
  · intro other kept
    rw [if_neg nofun]
    exact only.active other kept

/-- A job is added under an id that is free. -/
theorem outcome_reserved {barred : String → Job → Prop} {middle : RedisJobs} {key : ActiveKey}
    {result : Reply × RedisJobs} (reserved : Reserved key job middle result)
    (other : ¬key.IsDelete) (only : OnlyDeletions redis middle)
    (absent : ∀ id found, ¬barred id found) :
    Outcome (some key) barred job redis result.2 := by
  cases reserved with
  | refused conflict => exact .refused middle only
  | added reply after free jobs active =>
      refine .added after absent ?_ ?_ ?_
      · intro entry same holder found held named runs
        cases same
        rw [← only.active key other] at held
        apply free holder found held named _ runs.2
        rw [only.jobs]
        exact runs.1
      · rw [jobs, only.jobs]
      · intro another kept
        rw [active, only.active another kept]
        simp only [Option.some.injEq, eq_comm]

theorem plain_outcome (digest : Digest) (job : Job) (redis : RedisJobs)
    (plain : job.type ≠ some deleteType) :
    Outcome none (Deletes digest redis job) job redis
      ((Creation.plain job).perform digest redis).2 := by
  rw [Creation.perform, Creation.program, RedisJobStore.createJob, if_neg plain]
  rcases perform_activeDelete digest job redis with ⟨deleteId, middle, performed, only, absent⟩
  rw [Program.bind_eq_bind, Program.perform_bind, performed]
  dsimp only
  split
  · exact .refused middle only
  · rename_i unnamed
    exact outcome_enroll job only (absent (not_not.mp unnamed))

theorem sync_outcome (digest : Digest) (job : Job) (redis : RedisJobs) :
    Outcome (some (.dataSourceSync (dataSourceSyncKey digest job))) (Deletes digest redis job) job
      redis ((Creation.dataSourceSync job).perform digest redis).2 := by
  rw [Creation.perform, Creation.program, RedisJobStore.createDataSourceSyncJob]
  rcases perform_activeDelete digest job redis with ⟨deleteId, middle, performed, only, absent⟩
  rw [Program.bind_eq_bind, Program.perform_bind, performed]
  dsimp only
  split
  · exact .refused middle only
  · rename_i unnamed
    exact outcome_reserved (perform_reserve_enroll _ (fun holder => syncConflict holder job) job middle)
      id only (absent (not_not.mp unnamed))

/-- The job that `create_rebuild_job` stores. -/
def Job.asRebuild (job : Job) : Job :=
  { job with type := some (rebuildType job.type) }

theorem rebuild_outcome (digest : Digest) (job : Job) (redis : RedisJobs) :
    Outcome (some (.rebuild (rebuildKey digest job.asRebuild))) (Deletes digest redis job.asRebuild)
      job.asRebuild redis ((Creation.rebuild job).perform digest redis).2 := by
  rw [Creation.perform, Creation.program, RedisJobStore.createRebuildJob, Job.asRebuild, rebuildType]
  generalize { job with
    type := some (if job.type.getD "" = "" then "rebuild_index" else job.type.getD "") } = job
  rcases perform_activeDelete digest job redis with ⟨deleteId, middle, performed, only, absent⟩
  rw [Program.bind_eq_bind, Program.perform_bind, performed]
  dsimp only
  split
  · exact .refused middle only
  · rename_i unnamed
    have reserves := outcome_reserved (perform_reserve_enroll (.rebuild (rebuildKey digest job))
      rebuildConflict job middle) id only (absent (not_not.mp unnamed))
    split
    · rw [Program.bind_eq_bind, Program.perform_bind, perform_legacyActiveRebuildId]
      dsimp only
      split
      · exact .refused middle only
      · exact reserves
    · rw [Program.bind_eq_bind, Program.perform_bind, perform_activeId]
      dsimp only
      split
      · exact .refused middle only
      · exact reserves

/-- A running job of the target. -/
structure Occupies (redis : RedisJobs) (job : Job) (id : String) (found : Job) : Prop where
  runs : RunsIn redis.jobs id found
  named : found.id ≠ ""
  same : SameKnowledgeBase found job

theorem reserveDelete_outcome (digest : Digest) (job : Job) {middle : RedisJobs}
    (only : OnlyDeletions redis middle) :
    Outcome none (Occupies redis job) job redis
      ((RedisJobStore.reserveDelete digest job).perform (execute none) middle).2 := by
  rw [RedisJobStore.reserveDelete, Program.bind_eq_bind, Program.perform_bind,
    perform_legacyActiveRebuildId]
  dsimp only
  split
  · exact .refused middle only
  · rw [Program.bind_eq_bind, Program.perform_bind, perform_activeId]
    dsimp only
    split
    · exact .refused middle only
    · rw [Program.bind_eq_bind, Program.perform_bind, perform_activeJobsForTarget]
      dsimp only
      split
      · rename_i first rest _
        split
        · rw [Program.bind_eq_bind, Program.perform_bind, perform_setActive, Program.bind_eq_bind,
            Program.perform_bind, perform_get]
          exact .refused _ (only.trans (onlyDeletions_set _ _ middle))
        · exact .refused middle only
      · rename_i none
        have absent : ∀ id found, ¬Occupies redis job id found := by
          rintro id found ⟨runs, named, same⟩
          have member := mem_activeFor.mpr ⟨named, ⟨id, only.jobs ▸ runs⟩, same⟩
          rw [none] at member
          cases member
        rw [Program.bind_eq_bind, Program.perform_bind]
        cases held : middle.active.get? (.delete (knowledgeBaseKey digest job)) with
        | none =>
            rw [perform_setNx_free held]
            exact outcome_enroll job (only.trans (onlyDeletions_set _ _ middle)) absent
        | some holder =>
            rw [perform_setNx_held held]
            exact .refused middle only

/-- The job that `create_delete_job` stores. -/
def Job.asDelete (job : Job) : Job :=
  { job with type := some deleteType }

/-- A deletion is stored for a target that has a key. -/
theorem delete_outcome (digest : Digest) (job : Job) (redis : RedisJobs) :
    ((Creation.delete job).perform digest redis).2 = redis ∨
      knowledgeBaseKey digest job.asDelete ≠ "" ∧
        Outcome none (Occupies redis job.asDelete) job.asDelete redis
          ((Creation.delete job).perform digest redis).2 := by
  rw [Creation.perform, Creation.program, RedisJobStore.createDeleteJob, Job.asDelete]
  split
  · exact .inl rfl
  · rename_i placed
    right
    refine ⟨placed, ?_⟩
    generalize { job with type := some deleteType } = job
    rcases perform_activeDelete digest job redis with ⟨deleteId, middle, performed, only, _⟩
    rw [Program.bind_eq_bind, Program.perform_bind, performed]
    dsimp only
    split
    · rw [Program.bind_eq_bind, Program.perform_bind, perform_get]
      dsimp only
      split
      · exact .refused middle only
      · exact reserveDelete_outcome digest job only
    · exact reserveDelete_outcome digest job only

end

/-! ## What the other calls do -/

section

variable {digest : Digest} {redis : RedisJobs}

/-- Active ids are dropped only where they are this id. -/
structure Releases (jobId : String) (before after : RedisJobs) : Prop where
  jobs : after.jobs = before.jobs
  active : ∀ key : ActiveKey, after.active.get? key = before.active.get? key ∨
    (before.active.get? key).getD "" = jobId

theorem Releases.trans {jobId : String} {first second third : RedisJobs}
    (left : Releases jobId first second) (right : Releases jobId second third) :
    Releases jobId first third := by
  refine ⟨right.jobs.trans left.jobs, ?_⟩
  intro key
  rcases left.active key with same | dropped
  · rw [← same]
    exact right.active key
  · exact .inr dropped

theorem perform_release (key : ActiveKey) (jobId : String) (redis : RedisJobs) :
    Releases jobId redis ((RedisJobStore.release key jobId).perform (execute none) redis).2 := by
  rw [RedisJobStore.release, Program.bind_eq_bind, Program.perform_bind, perform_activeId]
  dsimp only
  split
  · rename_i named
    rw [perform_deleteActive]
    refine ⟨rfl, ?_⟩
    intro other
    by_cases same : other = key
    · rw [same]
      exact .inr named
    · exact .inl (Dictionary.get?_erase_of_ne same)
  · exact ⟨rfl, fun _ => .inl rfl⟩

theorem perform_releaseTyped (job : Job) (jobId : String) (redis : RedisJobs) :
    Releases jobId redis
      ((RedisJobStore.releaseTyped digest job jobId).perform (execute none) redis).2 := by
  have optional : ∀ (condition : Prop) [Decidable condition] (key : ActiveKey) (redis : RedisJobs),
      Releases jobId redis ((if condition then RedisJobStore.release key jobId
        else pure ()).perform (execute none) redis).2 := by
    intro condition _ key redis
    split
    · exact perform_release key jobId redis
    · exact ⟨rfl, fun _ => .inl rfl⟩
  rw [RedisJobStore.releaseTyped]
  split
  · rw [Program.bind_eq_bind, Program.perform_bind]
    exact (perform_release _ jobId redis).trans (optional _ _ _)
  · exact optional _ _ redis

theorem perform_releaseFinished (job : Option Job) (jobId : String) (redis : RedisJobs) :
    Releases jobId redis
      ((RedisJobStore.releaseFinished digest jobId job).perform (execute none) redis).2 := by
  simp only [RedisJobStore.releaseFinished, Program.bind_eq_bind, Program.perform_bind]
  have own := perform_release (.rebuild ((job.map (rebuildKey digest)).getD "legacy")) jobId redis
  generalize ((RedisJobStore.release (.rebuild ((job.map (rebuildKey digest)).getD "legacy"))
    jobId).perform (execute none) redis).2 = first at own ⊢
  have unscoped := perform_release .unscoped jobId first
  generalize ((RedisJobStore.release .unscoped jobId).perform (execute none) first).2 = second
    at unscoped ⊢
  have legacy := perform_release (.rebuild "legacy") jobId second
  generalize ((RedisJobStore.release (.rebuild "legacy") jobId).perform (execute none) second).2 =
    third at legacy ⊢
  apply own.trans (unscoped.trans (legacy.trans _))
  cases job with
  | none => exact ⟨rfl, fun _ => .inl rfl⟩
  | some job => exact perform_releaseTyped job jobId _

/-- A job is read and saved in another version. -/
theorem perform_modify {α : Type} (jobId : String) (change : Job → Job)
    (rest : Option Job → Commands α) (redis : RedisJobs) :
    (RedisJobStore.modify jobId change rest).perform (execute none) redis =
      match redis.lookup jobId with
      | none => (rest none).perform (execute none) redis
      | some job => (rest (some (change job))).perform (execute none)
          { redis with jobs := redis.jobs.set (change job).id (change job) } := by
  rw [RedisJobStore.modify, Program.bind_eq_bind, Program.perform_bind, perform_get]
  cases redis.lookup jobId with
  | none => rfl
  | some job => rfl

end

/-! ## The invariant -/

/-- Every running rebuild or sync is named by the id under its key, and a running deletion
is alone on its target. -/
structure Guarded (digest : Digest) (calls : List Call) (redis : RedisJobs) : Prop where
  keyed : Keyed redis
  created : Created calls redis.jobs
  named : ∀ id job, redis.jobs.get? id = some job → id ≠ ""
  placed : ∀ id job, redis.jobs.get? id = some job → job.type = some deleteType →
    knowledgeBaseKey digest job ≠ ""
  rebuilds : ∀ id job, RebuildRequested calls id → RunsIn redis.jobs id job →
    redis.active.get? (.rebuild (rebuildKey digest job)) = some id
  syncs : ∀ id job, SyncRequested calls id → RunsIn redis.jobs id job →
    redis.active.get? (.dataSourceSync (dataSourceSyncKey digest job)) = some id
  alone : ∀ id job other found, RunsIn redis.jobs id job → job.type = some deleteType →
    RunsIn redis.jobs other found → SameKnowledgeBase found job → other = id

namespace Guarded

variable {digest : Digest} {calls : List Call} {call : Call} {redis after : RedisJobs}

theorem empty : Guarded digest [] .empty where
  keyed _ _ := nofun
  created _ _ := nofun
  named _ _ := nofun
  placed _ _ := nofun
  rebuilds _ _ _ running := by cases running.1
  syncs _ _ _ running := by cases running.1
  alone _ _ _ _ running := by cases running.1

theorem grow (guarded : Guarded digest calls redis) (fresh : Fresh calls call) :
    Guarded digest (calls ++ [call]) redis where
  keyed := guarded.keyed
  created id job stored := by
    rw [createdIds_append]
    exact List.mem_append_left _ (guarded.created id job stored)
  named := guarded.named
  placed := guarded.placed
  rebuilds id job requested runs :=
    guarded.rebuilds id job (requested.earlier fresh (guarded.created id job runs.1)) runs
  syncs id job requested runs :=
    guarded.syncs id job (requested.earlier fresh (guarded.created id job runs.1)) runs
  alone := guarded.alone

/-- Active ids are dropped that no running job of theirs needs. -/
theorem drop (guarded : Guarded digest calls redis) (jobs : after.jobs = redis.jobs)
    (active : ∀ key : ActiveKey, ¬key.IsDelete → after.active.get? key = redis.active.get? key ∨
      ∀ id job, redis.active.get? key = some id → RunsIn redis.jobs id job →
        key ≠ .rebuild (rebuildKey digest job) ∧
          key ≠ .dataSourceSync (dataSourceSyncKey digest job)) :
    Guarded digest calls after where
  keyed := by
    intro id job stored
    exact guarded.keyed id job (jobs ▸ stored)
  created := by
    rw [jobs]
    exact guarded.created
  named := by
    rw [jobs]
    exact guarded.named
  placed := by
    rw [jobs]
    exact guarded.placed
  rebuilds := by
    rw [jobs]
    intro id job requested runs
    have entry := guarded.rebuilds id job requested runs
    rcases active (.rebuild (rebuildKey digest job)) nofun with same | dropped
    · exact same.trans entry
    · exact absurd rfl (dropped id job entry runs).1
  syncs := by
    rw [jobs]
    intro id job requested runs
    have entry := guarded.syncs id job requested runs
    rcases active (.dataSourceSync (dataSourceSyncKey digest job)) nofun with same | dropped
    · exact same.trans entry
    · exact absurd rfl (dropped id job entry runs).2
  alone := by
    rw [jobs]
    exact guarded.alone

theorem only (guarded : Guarded digest calls redis) (only : OnlyDeletions redis after) :
    Guarded digest calls after :=
  guarded.drop only.jobs fun key other => .inl (only.active key other)

/-- Ids of a job that does not run are dropped. -/
theorem releases (guarded : Guarded digest calls redis) {jobId : String}
    (finished : ∀ job, ¬RunsIn redis.jobs jobId job) (releases : Releases jobId redis after) :
    Guarded digest calls after := by
  apply guarded.drop releases.jobs
  intro key _
  apply (releases.active key).imp_right
  intro dropped id job held runs
  rw [held, Option.getD_some] at dropped
  exact absurd runs (dropped ▸ finished job)

/-- A job is replaced by a faithful version. -/
theorem change (guarded : Guarded digest calls redis) {id : String} {old new : Job}
    (stored : redis.jobs.get? id = some old) (faithful : Faithful old new) :
    Guarded digest calls { redis with jobs := redis.jobs.set id new } := by
  have origin : ∀ other found, (redis.jobs.set id new).get? other = some found →
      ∃ earlier, redis.jobs.get? other = some earlier ∧ Faithful earlier found := by
    intro other found present
    rw [Dictionary.get?_set] at present
    split at present
    · rename_i same
      cases present
      exact ⟨old, same ▸ stored, faithful⟩
    · exact ⟨found, present, rfl, ⟨rfl, rfl, rfl⟩, fun deletion => deletion, fun runs => runs⟩
  constructor
  · intro other found present
    rcases origin other found present with ⟨earlier, before, faithful⟩
    exact faithful.id.trans (guarded.keyed other earlier before)
  · intro other found present
    rcases origin other found present with ⟨earlier, before, _⟩
    exact guarded.created other earlier before
  · intro other found present
    rcases origin other found present with ⟨earlier, before, _⟩
    exact guarded.named other earlier before
  · intro other found present deletion
    rcases origin other found present with ⟨earlier, before, faithful⟩
    have placed := guarded.placed other earlier before (faithful.deletion deletion)
    rw [knowledgeBaseKey, faithful.target.workspace, faithful.target.knowledgeBase]
    exact placed
  · intro other found requested runs
    rcases origin other found runs.1 with ⟨earlier, before, faithful⟩
    rw [rebuildKey, faithful.target.workspace, faithful.target.knowledgeBase]
    exact guarded.rebuilds other earlier requested ⟨before, faithful.running runs.2⟩
  · intro other found requested runs
    rcases origin other found runs.1 with ⟨earlier, before, faithful⟩
    rw [dataSourceSyncKey, faithful.target.workspace, faithful.target.knowledgeBase,
      faithful.target.dataSource]
    exact guarded.syncs other earlier requested ⟨before, faithful.running runs.2⟩
  · intro first deletion second found runs isDelete otherRuns same
    rcases origin first deletion runs.1 with ⟨earlier, before, faithful⟩
    rcases origin second found otherRuns.1 with ⟨previous, present, otherFaithful⟩
    apply guarded.alone first earlier second previous ⟨before, faithful.running runs.2⟩
      (faithful.deletion isDelete) ⟨present, otherFaithful.running otherRuns.2⟩
    rw [SameKnowledgeBase, faithful.target.workspace, faithful.target.knowledgeBase,
      otherFaithful.target.workspace, otherFaithful.target.knowledgeBase] at same
    exact same

/-- A creating call keeps the ids in order. -/
theorem create (guarded : Guarded digest calls redis) (fresh : Fresh calls call)
    {original job : Job} (asked : call.created = some original) (identified : job.id = original.id)
    (named : original.id ≠ "") {key : Option ActiveKey} {barred : String → Job → Prop}
    (outcome : Outcome key barred job redis after)
    (rebuild : RebuildRequested (calls ++ [call]) job.id →
      key = some (.rebuild (rebuildKey digest job)))
    (sync : SyncRequested (calls ++ [call]) job.id →
      key = some (.dataSourceSync (dataSourceSyncKey digest job)))
    (placed : job.type = some deleteType → knowledgeBaseKey digest job ≠ "")
    (bars : ∀ id found, RunsIn redis.jobs id found → SameKnowledgeBase found job →
      found.type = some deleteType ∨ job.type = some deleteType → barred id found) :
    Guarded digest (calls ++ [call]) after := by
  cases outcome with
  | refused only => exact (guarded.grow fresh).only only
  | added absent free jobs active =>
      have origin : ∀ other found, after.jobs.get? other = some found →
          other = job.id ∧ found = job ∨ redis.jobs.get? other = some found := by
        intro other found present
        rw [jobs, Dictionary.get?_set] at present
        split at present
        · rename_i same
          exact .inl ⟨same, (Option.some.inj present).symm⟩
        · exact .inr present
      have kept : ∀ (entry : ActiveKey) other found, ¬entry.IsDelete →
          redis.active.get? entry = some other → RunsIn redis.jobs other found →
          after.active.get? entry = some other := by
        intro entry other found plain held runs
        rw [active entry plain, if_neg, held]
        intro taken
        exact free entry taken other found held (guarded.named other found runs.1) runs
      have own : ∀ entry : ActiveKey, ¬entry.IsDelete → key = some entry →
          after.active.get? entry = some job.id := by
        intro entry plain taken
        rw [active entry plain, if_pos taken]
      have grown := guarded.grow fresh
      constructor
      · intro other found present
        rcases origin other found present with ⟨sameId, sameJob⟩ | old
        · rw [sameId, sameJob]
        · exact guarded.keyed other found old
      · intro other found present
        rcases origin other found present with ⟨sameId, _⟩ | old
        · rw [createdIds_append, List.mem_append]
          right
          simp [asked, sameId, identified]
        · exact grown.created other found old
      · intro other found present
        rcases origin other found present with ⟨sameId, _⟩ | old
        · rw [sameId, identified]
          exact named
        · exact guarded.named other found old
      · intro other found present deletion
        rcases origin other found present with ⟨_, rfl⟩ | old
        · exact placed deletion
        · exact guarded.placed other found old deletion
      · intro other found requested runs
        rcases origin other found runs.1 with ⟨rfl, rfl⟩ | old
        · exact own _ (by rintro ⟨⟩) (rebuild requested)
        · exact kept _ other found (by rintro ⟨⟩) (grown.rebuilds other found requested ⟨old, runs.2⟩)
            ⟨old, runs.2⟩
      · intro other found requested runs
        rcases origin other found runs.1 with ⟨rfl, rfl⟩ | old
        · exact own _ (by rintro ⟨⟩) (sync requested)
        · exact kept _ other found (by rintro ⟨⟩) (grown.syncs other found requested ⟨old, runs.2⟩)
            ⟨old, runs.2⟩
      · intro first deletion second found runs isDelete otherRuns same
        rcases origin first deletion runs.1 with ⟨rfl, rfl⟩ | old
        · rcases origin second found otherRuns.1 with ⟨sameId, _⟩ | other
          · exact sameId
          · exact absurd (bars second found ⟨other, otherRuns.2⟩ same (.inr isDelete))
              (absent second found)
        · rcases origin second found otherRuns.1 with ⟨_, rfl⟩ | other
          · apply absurd (bars first deletion ⟨old, runs.2⟩ ?_ (.inl isDelete))
              (absent first deletion)
            exact ⟨same.2.1 ▸ same.1, same.2.1.symm, same.2.2.symm⟩
          · exact guarded.alone first deletion second found ⟨old, runs.2⟩ isDelete
              ⟨other, otherRuns.2⟩ same

end Guarded

/-! ## Every step of a run -/

section

variable {digest : Digest} {events : List ExpiryEvent} {calls : List Call} {redis : RedisJobs}

theorem asked_append (past : List ExpiryEvent) (event : ExpiryEvent) :
    asked (past ++ [event]) = asked past ++ asked [event] := by
  rw [asked, List.filterMap_append]
  rfl

theorem Lasting.before {past : List ExpiryEvent} (lasting : Lasting digest events)
    (within : past <+: events) : Lasting digest past := by
  have earlier : asked past <+: asked events := by
    rcases within with ⟨later, rfl⟩
    rw [asked, asked, List.filterMap_append]
    exact List.prefix_append _ _
  have created : createdIds (asked past) <+: createdIds (asked events) := by
    rcases earlier with ⟨later, same⟩
    rw [← same, createdIds, createdIds, List.filterMap_append, List.map_append]
    exact List.prefix_append _ _
  constructor
  · exact created.sublist.nodup lasting.distinct
  · exact fun id member => lasting.named id (created.subset member)
  · exact fun job member => lasting.typed job
      (member.imp (fun rebuild => earlier.subset rebuild) (fun sync => earlier.subset sync))
  · exact fun before jobId patch early => lasting.updates before jobId patch (early.trans within)
  · exact fun before now jobId status message early =>
      lasting.finishes before now jobId status message (early.trans within)
  · exact fun before key early => lasting.expiries before key (early.trans within)

theorem Faithful.trans {first second third : Job} (left : Faithful first second)
    (right : Faithful second third) : Faithful first third where
  id := right.id.trans left.id
  target := ⟨right.target.workspace.trans left.target.workspace,
    right.target.knowledgeBase.trans left.target.knowledgeBase,
    right.target.dataSource.trans left.target.dataSource⟩
  deletion retyped := left.deletion (right.deletion retyped)
  running runs := left.running (right.running runs)

theorem publicJob_faithful (job : Job) : Faithful job (publicJob job) := by
  refine ⟨rfl, ⟨rfl, ?_, rfl⟩, fun deletion => deletion, fun runs => runs⟩
  by_cases unset : job.knowledgeBaseId = ""
  · simp [Job.knowledgeBase, publicJob, orDefault, unset]
  · simp [Job.knowledgeBase, publicJob, orDefault, unset]

theorem finish_faithful (job : Job) (now : Timestamp) {status : String} (message : String)
    (finished : status ∉ runningJobStatuses) : Faithful job (job.finish now status message) :=
  ⟨rfl, ⟨rfl, rfl, rfl⟩, fun deletion => deletion, fun runs => absurd runs finished⟩

theorem stored_of_lookup {jobId : String} {job : Job} (found : redis.lookup jobId = some job) :
    ∃ stored, redis.jobs.get? jobId = some stored ∧ Faithful stored job := by
  rw [RedisJobs.lookup] at found
  split at found
  · cases found
  · rcases Option.map_eq_some_iff.mp found with ⟨stored, present, rfl⟩
    exact ⟨stored, present, publicJob_faithful stored⟩

theorem Guarded.lookup_none (guarded : Guarded digest calls redis) {jobId : String}
    (missing : redis.lookup jobId = none) (job : Job) : ¬RunsIn redis.jobs jobId job := by
  intro runs
  rw [RedisJobs.lookup, if_neg (guarded.named jobId job runs.1), runs.1] at missing
  cases missing

/-- A faithful version of a stored job is saved under its id. -/
theorem Guarded.save (guarded : Guarded digest calls redis) {jobId : String} {job new : Job}
    (found : redis.lookup jobId = some job) (faithful : Faithful job new) :
    new.id = jobId ∧ Guarded digest calls { redis with jobs := redis.jobs.set new.id new } := by
  rcases stored_of_lookup found with ⟨stored, present, read⟩
  have saved := read.trans faithful
  have same : new.id = jobId := saved.id.trans (guarded.keyed jobId stored present)
  rw [same]
  exact ⟨rfl, guarded.change present saved⟩

/-- Every call of a run keeps the ids in order, and every expiry that comes late enough. -/
theorem Guarded.after {past : List ExpiryEvent} {event : ExpiryEvent}
    (lasting : Lasting digest (past ++ [event]))
    (guarded : Guarded digest (asked past) (expiryRun digest past)) :
    Guarded digest (asked (past ++ [event])) (event.after digest (expiryRun digest past)) := by
  rw [asked_append]
  cases event with
  | create creation =>
      have requested : asked (past ++ [.create creation]) = asked past ++ [creation.call] :=
        asked_append past _
      have fresh : Fresh (asked past) creation.call := by
        intro original created member
        have nodup := lasting.distinct
        rw [requested, createdIds_append, created] at nodup
        exact (List.nodup_append.mp nodup).2.2 _ member _ List.mem_cons_self rfl
      have named : ∀ original, creation.call.created = some original → original.id ≠ "" := by
        intro original created
        apply lasting.named
        rw [requested, createdIds_append, created]
        exact List.mem_append_right _ List.mem_cons_self
      have last : creation.call ∈ asked (past ++ [.create creation]) := by
        rw [requested]
        exact List.mem_append_right _ List.mem_cons_self
      have identified : ∀ id found, RunsIn (expiryRun digest past).jobs id found → found.id ≠ "" := by
        intro id found runs
        rw [guarded.keyed id found runs.1]
        exact guarded.named id found runs.1
      have deletes : ∀ job : Job, job.type ≠ some deleteType →
          ∀ id found, RunsIn (expiryRun digest past).jobs id found → SameKnowledgeBase found job →
            found.type = some deleteType ∨ job.type = some deleteType →
            Deletes digest (expiryRun digest past) job id found := by
        intro job plain id found runs same deletion
        have deletion := deletion.resolve_right plain
        refine ⟨runs, identified id found runs, deletion, same, ?_⟩
        rw [← knowledgeBaseKey_congr same]
        exact guarded.placed id found runs.1 deletion
      have removes : ∀ job : Job, creation.call.created = some job →
          (∀ asked, creation.call ≠ .createRebuildJob asked) →
          (∀ asked, creation.call ≠ .createDataSourceSyncJob asked) →
          Guarded digest (asked past ++ [creation.call])
            ((Creation.delete job).perform digest (expiryRun digest past)).2 := by
        intro job created rebuild sync
        rcases delete_outcome digest job (expiryRun digest past) with same | ⟨placed, outcome⟩
        · rw [same]
          exact guarded.grow fresh
        · refine @Guarded.create _ _ _ _ _ guarded fresh job job.asDelete created rfl
            (named job created) _ _ outcome (fun requested => ?_) (fun requested => ?_) (fun _ => placed) ?_
          · exact absurd requested (not_rebuildRequested fresh created rebuild rfl)
          · exact absurd requested (not_syncRequested fresh created sync rfl)
          · intro id found runs same _
            exact ⟨runs, identified id found runs, same⟩
      cases creation with
      | plain job =>
          by_cases deletion : job.type = some deleteType
          · have same : (Creation.plain job).perform digest (expiryRun digest past) =
                (Creation.delete job).perform digest (expiryRun digest past) := by
              rw [Creation.perform, Creation.program, RedisJobStore.createJob, if_pos deletion]
              rfl
            rw [ExpiryEvent.after, same]
            exact removes job rfl (by rintro _ ⟨⟩) (by rintro _ ⟨⟩)
          · refine guarded.create fresh rfl rfl (named job rfl) (plain_outcome digest job _ deletion)
              (fun requested => ?_) (fun requested => ?_) (fun retyped => absurd retyped deletion)
              (deletes job deletion)
            · exact absurd requested (not_rebuildRequested fresh rfl (by rintro _ ⟨⟩) rfl)
            · exact absurd requested (not_syncRequested fresh rfl (by rintro _ ⟨⟩) rfl)
      | rebuild job =>
          have plain : job.asRebuild.type ≠ some deleteType := by
            intro deletion
            exact rebuildType_plain (lasting.typed job (.inl last)) (Option.some.inj deletion)
          refine @Guarded.create _ _ _ _ _ guarded fresh job job.asRebuild rfl rfl (named job rfl)
            _ _ (rebuild_outcome digest job _) (fun _ => rfl) (fun requested => ?_)
            (fun retyped => absurd retyped plain) (deletes job.asRebuild plain)
          exact absurd requested (not_syncRequested fresh rfl (by rintro _ ⟨⟩) rfl)
      | dataSourceSync job =>
          have plain := lasting.typed job (.inr last)
          refine guarded.create fresh rfl rfl (named job rfl) (sync_outcome digest job _)
            (fun requested => ?_) (fun _ => rfl) (fun retyped => absurd retyped plain)
            (deletes job plain)
          exact absurd requested (not_rebuildRequested fresh rfl (by rintro _ ⟨⟩) rfl)
      | delete job => exact removes job rfl (by rintro _ ⟨⟩) (by rintro _ ⟨⟩)
  | update jobId patch =>
      rw [asked, asked, List.filterMap_cons, List.filterMap_nil, List.append_nil]
      rw [ExpiryEvent.after, RedisJobStore.update, perform_modify]
      cases found : (expiryRun digest past).lookup jobId with
      | none => exact guarded
      | some job =>
          exact (guarded.save found (lasting.updates past jobId patch List.prefix_rfl job found)).2
  | finish now jobId status message =>
      have finished := lasting.finishes past now jobId status message List.prefix_rfl
      rw [asked, asked, List.filterMap_cons, List.filterMap_nil, List.append_nil]
      rw [ExpiryEvent.after, RedisJobStore.finish, perform_modify]
      cases found : (expiryRun digest past).lookup jobId with
      | none => exact guarded.releases (guarded.lookup_none found) (perform_releaseFinished _ _ _)
      | some job =>
          rcases guarded.save found (finish_faithful job now message finished) with ⟨same, saved⟩
          apply saved.releases _ (perform_releaseFinished _ _ _)
          intro other runs
          have stored := runs.1
          dsimp only at stored
          rw [same, Dictionary.get?_set_self] at stored
          cases stored
          exact finished runs.2
  | expire key =>
      rw [asked, asked, List.filterMap_cons, List.filterMap_nil, List.append_nil]
      refine guarded.drop rfl ?_
      intro other _
      by_cases same : other = key
      · rw [same]
        exact .inr (lasting.expiries past key List.prefix_rfl)
      · exact .inl (Dictionary.get?_erase_of_ne same)

theorem expiryRun_guarded (lasting : Lasting digest events) :
    Guarded digest (asked events) (expiryRun digest events) := by
  induction events using List.reverseRecOn with
  | nil => exact .empty
  | append_singleton past event induction =>
      rw [expiryRun, run_concat]
      exact (induction (lasting.before (List.prefix_append _ _))).after lasting

theorem Guarded.exclusive (guarded : Guarded digest calls redis) :
    ExclusiveJobs calls redis.jobs where
  deletes id job other found runs deletion otherRuns workspace knowledgeBase := by
    apply guarded.alone id job other found runs deletion otherRuns
    refine ⟨?_, workspace, knowledgeBase⟩
    intro unplaced
    apply guarded.placed id job runs.1 deletion
    rw [knowledgeBaseKey, if_pos (workspace.symm.trans unplaced)]
  rebuilds id job other found requested otherRequested runs otherRuns workspace knowledgeBase := by
    have entry := guarded.rebuilds id job requested runs
    have otherEntry := guarded.rebuilds other found otherRequested otherRuns
    rw [rebuildKey, workspace, knowledgeBase] at otherEntry
    exact Option.some.inj (otherEntry.symm.trans entry)
  syncs id job other found requested otherRequested runs otherRuns workspace knowledgeBase source := by
    have entry := guarded.syncs id job requested runs
    have otherEntry := guarded.syncs other found otherRequested otherRuns
    rw [dataSourceSyncKey, workspace, knowledgeBase, source] at otherEntry
    exact Option.some.inj (otherEntry.symm.trans entry)

end

/-- Jobs exclude each other in every state if no active id of a rebuild or a sync expires
while its job is running. -/
theorem run_expiry_exclusive {digest : Digest} {events : List ExpiryEvent}
    (lasting : Lasting digest events) :
    ExclusiveJobs (asked events) (expiryRun digest events).jobs :=
  (expiryRun_guarded lasting).exclusive

/-- SHA-256, as far as the runs below digest texts. -/
def sourceDigest : Digest where
  hexdigest raw :=
    if raw = "w:a:src" then "b4f3b773e329931e22586aa708b9adff" else exampleDigest.hexdigest raw

def sourceJob (id : String) : Job :=
  { exampleJob id "data_source_sync" "running" "a" with dataSourceId := "src" }

/-- The id of a rebuild that has finished expires, and then that of a running deletion. -/
def lateExpiryEvents : List ExpiryEvent :=
  [.create (.rebuild (exampleJob "r" "rebuild_index" "running" "a")),
    .expire (.rebuild "legacy"),
    .update "r" { message := some "halfway" },
    .finish 9 "r" "completed" "done",
    .create (.delete (exampleJob "d" deleteType "running" "a")),
    .expire (.delete (sourceDigest.hexdigest "w:a")),
    .create (.dataSourceSync (sourceJob "s"))]

theorem run_expiry_exclusive_late :
    ExclusiveJobs (asked lateExpiryEvents) (expiryRun sourceDigest lateExpiryEvents).jobs := by
  apply run_expiry_exclusive
  constructor
  · decide
  · decide
  · intro job member
    simp only [lateExpiryEvents, asked, Creation.call, List.filterMap_cons, List.filterMap_nil,
      List.mem_cons, reduceCtorEq, Call.createRebuildJob.injEq, Call.createDataSourceSyncJob.injEq,
      List.not_mem_nil, or_false, false_or] at member
    rcases member with rfl | rfl
    · decide
    · decide
  · intro past jobId patch within job found
    rcases eq_take_of_concat_prefix within with ⟨same, happens⟩
    generalize past.length = position at same happens
    subst same
    rcases position with _ | _ | _ | _ | _ | _ | _ | position
    · cases happens
    · cases happens
    · cases happens
      exact ⟨rfl, ⟨rfl, rfl, rfl⟩, fun deletion => deletion, fun runs => runs⟩
    all_goals cases happens
  · intro past now jobId status message within
    have member := within.subset (List.mem_append_right _ List.mem_cons_self)
    simp only [lateExpiryEvents, List.mem_cons, reduceCtorEq, ExpiryEvent.finish.injEq,
      List.not_mem_nil, or_false, false_or] at member
    rw [member.2.2.1]
    decide
  · intro past key within id job held runs
    have member := within.subset (List.mem_append_right _ List.mem_cons_self)
    rcases eq_take_of_concat_prefix within with ⟨same, happens⟩
    generalize past.length = position at same happens
    subst same
    rcases position with _ | _ | _ | _ | _ | _ | _ | position
    · cases happens
    · cases happens
      have absent : (expiryRun sourceDigest (lateExpiryEvents.take 1)).active.get?
          (.rebuild "legacy") = none := by decide +kernel
      rw [absent] at held
      cases held
    · cases happens
    · cases happens
    · cases happens
    · cases happens
      exact ⟨by rintro ⟨⟩, by rintro ⟨⟩⟩
    all_goals cases happens

/-- The id of a rebuild expires while its job is running. -/
def earlyRebuildExpiry : List ExpiryEvent :=
  [.create (.rebuild (exampleJob "r1" "rebuild_index" "running" "a")),
    .expire (.rebuild (sourceDigest.hexdigest "w:a")),
    .create (.rebuild (exampleJob "r2" "rebuild_index" "running" "a"))]

/-- The id of a sync expires while its job is running. -/
def earlySyncExpiry : List ExpiryEvent :=
  [.create (.dataSourceSync (sourceJob "s1")),
    .expire (.dataSourceSync (sourceDigest.hexdigest "w:a:src")),
    .create (.dataSourceSync (sourceJob "s2"))]

/-- Two rebuilds of one knowledge base run at once, and two syncs of one data source. -/
theorem expired_ids_admit :
    ((createdIds (asked earlyRebuildExpiry)).Nodup ∧
      ¬ExclusiveJobs (asked earlyRebuildExpiry)
        (expiryRun sourceDigest earlyRebuildExpiry).jobs) ∧
      (createdIds (asked earlySyncExpiry)).Nodup ∧
        ¬ExclusiveJobs (asked earlySyncExpiry) (expiryRun sourceDigest earlySyncExpiry).jobs := by
  refine ⟨⟨by decide, ?_⟩, by decide, ?_⟩
  · intro exclusive
    have same := exclusive.rebuilds "r1" (exampleJob "r1" "rebuild_index" "running" "a")
      "r2" (exampleJob "r2" "rebuild_index" "running" "a")
      ⟨_, List.mem_cons_self, rfl⟩ ⟨_, List.mem_cons_of_mem _ List.mem_cons_self, rfl⟩
      ⟨by decide +kernel, by decide⟩ ⟨by decide +kernel, by decide⟩ rfl rfl
    exact absurd same (by decide)
  · intro exclusive
    have same := exclusive.syncs "s1" (sourceJob "s1") "s2" (sourceJob "s2")
      ⟨_, List.mem_cons_self, rfl⟩ ⟨_, List.mem_cons_of_mem _ List.mem_cons_self, rfl⟩
      ⟨by decide +kernel, by decide⟩ ⟨by decide +kernel, by decide⟩ rfl rfl rfl
    exact absurd same (by decide)

end RAGuardian.Jobs
