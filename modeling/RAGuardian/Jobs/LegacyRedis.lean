import RAGuardian.Jobs.Legacy
import RAGuardian.Jobs.Updates

/-! # Legacy rebuilds in the job store in Redis

The admissions are single steps, and the commands of the other calls come between
them in any order. The id of a legacy rebuild is looked for under its own key, so a
leftover id only blocks, but its admission looks for no scoped rebuild and no
deletion either. -/

namespace RAGuardian.Jobs

open Concurrency Execution

/-! ## Admissions -/

/-- The calls of the `create_*` methods. -/
inductive Creation
  | plain (job : Job)
  | rebuild (job : Job)
  | dataSourceSync (job : Job)
  | delete (job : Job)

def Creation.call : Creation → Call
  | .plain job => .createJob job
  | .rebuild job => .createRebuildJob job
  | .dataSourceSync job => .createDataSourceSyncJob job
  | .delete job => .createDeleteJob job

def Creation.program (digest : Digest) : Creation → Commands Reply
  | .plain job => RedisJobStore.createJob digest job
  | .rebuild job => RedisJobStore.createRebuildJob digest job
  | .dataSourceSync job => RedisJobStore.createDataSourceSyncJob digest job
  | .delete job => RedisJobStore.createDeleteJob digest job

/-- An admission as one step. -/
def Creation.perform (digest : Digest) (creation : Creation) (redis : RedisJobs) :
    Reply × RedisJobs :=
  (creation.program digest).perform (execute none) redis

/-! ### The active ids of rebuilds -/

/-- The key holds the active id of rebuilds. -/
def ActiveKey.IsRebuild : ActiveKey → Prop
  | .unscoped | .rebuild _ => True
  | _ => False

/-- A command that changes neither jobs nor active ids of rebuilds. -/
def SparesRebuilds : Command → Prop
  | .setexJob _ _ | .deleteJob _ | .flushJobs => False
  | .setActive key _ | .setNxActive key _ | .deleteActive key => ¬ key.IsRebuild
  | _ => True

/-- The jobs and the active ids of rebuilds are the same. -/
structure SameRebuilds (before after : RedisJobs) : Prop where
  jobs : after.jobs = before.jobs
  active : ∀ key : ActiveKey, key.IsRebuild → after.active.get? key = before.active.get? key

/-- `_legacy_active_rebuild_id` -/
def RedisJobs.legacyId (redis : RedisJobs) : String :=
  if (redis.active.get? .unscoped).getD "" ≠ "" then (redis.active.get? .unscoped).getD ""
  else (redis.active.get? (.rebuild "legacy")).getD ""

/-- What `get` returns. -/
def RedisJobs.lookup (redis : RedisJobs) (jobId : String) : Option Job :=
  if jobId = "" then none else (redis.jobs.get? jobId).map publicJob

section

variable {digest : Digest} {redis : RedisJobs} {α : Type}

theorem SameRebuilds.refl (redis : RedisJobs) : SameRebuilds redis redis :=
  ⟨rfl, fun _ _ => rfl⟩

theorem SameRebuilds.trans {first second third : RedisJobs} (left : SameRebuilds first second)
    (right : SameRebuilds second third) : SameRebuilds first third :=
  ⟨right.jobs.trans left.jobs, fun key rebuild =>
    (right.active key rebuild).trans (left.active key rebuild)⟩

theorem SameRebuilds.legacyId {before after : RedisJobs} (same : SameRebuilds before after) :
    after.legacyId = before.legacyId := by
  rw [RedisJobs.legacyId, RedisJobs.legacyId, same.active .unscoped trivial,
    same.active (.rebuild "legacy") trivial]

theorem sameRebuilds_set (key : ActiveKey) (spared : ¬ key.IsRebuild) (jobId : String) :
    SameRebuilds redis { redis with active := redis.active.set key jobId } where
  jobs := rfl
  active other rebuild := by
    apply Dictionary.get?_set_of_ne
    intro same
    exact spared (same ▸ rebuild)

theorem execute_spares (scan : Scan) {command : Command} (spares : SparesRebuilds command)
    (redis : RedisJobs) : SameRebuilds redis (execute scan command redis).2 := by
  cases command with
  | getJob jobId => exact .refl redis
  | setexJob jobId job => cases spares
  | deleteJob jobId => cases spares
  | scanJobs => exact .refl redis
  | getActive key => exact .refl redis
  | setActive key jobId => exact sameRebuilds_set key spares jobId
  | setNxActive key jobId =>
      simp only [execute]
      split
      · exact .refl redis
      · exact sameRebuilds_set key spares jobId
  | deleteActive key =>
      refine ⟨rfl, fun other rebuild => Dictionary.get?_erase_of_ne ?_⟩
      intro same
      exact spares (same ▸ rebuild)
  | flushJobs => cases spares

theorem perform_spares {program : Commands α} (makes : program.Makes SparesRebuilds)
    (redis : RedisJobs) : SameRebuilds redis (program.perform (execute none) redis).2 := by
  have kept : ∀ command state, SparesRebuilds command → SameRebuilds redis state →
      SameRebuilds redis (execute none command state).2 :=
    fun command state spares same => same.trans (execute_spares none spares state)
  exact makes.perform kept (.refl redis)

theorem spares_command (command : Command) (spares : SparesRebuilds command) :
    (Program.call command Program.done : Commands command.Response).Makes SparesRebuilds :=
  ⟨spares, fun _ => trivial⟩

theorem spares_get (jobId : String) : (RedisJobStore.get jobId).Makes SparesRebuilds := by
  rw [RedisJobStore.get]
  split
  · trivial
  · exact Program.Always.bind (spares_command (.getJob jobId) trivial) fun _ => trivial

theorem spares_collect (jobIds : List String) :
    (RedisJobStore.iterJobs.collect jobIds).Makes SparesRebuilds := by
  induction jobIds with
  | nil => trivial
  | cons jobId rest induction =>
      simp only [RedisJobStore.iterJobs.collect, Program.bind_eq_bind]
      apply Program.Always.bind (spares_command (.getJob jobId) trivial)
      intro job
      exact Program.Always.bind induction fun _ => trivial

theorem spares_activeJobsForTarget (job : Job) :
    (RedisJobStore.activeJobsForTarget job).Makes SparesRebuilds := by
  simp only [RedisJobStore.activeJobsForTarget, RedisJobStore.iterJobs, Program.bind_eq_bind]
  apply Program.Always.bind
  · exact Program.Always.bind (spares_command .scanJobs trivial) fun jobIds => spares_collect jobIds
  · intro jobs
    trivial

theorem spares_findDelete (job : Job) :
    ((RedisJobStore.activeJobsForTarget job).bind fun candidates =>
      match candidates.find? fun candidate => candidate.type = some deleteType with
      | none => (.done "" : Commands String)
      | some candidate =>
          (Commands.setActive (.delete (knowledgeBaseKey digest job)) candidate.id).bind
            fun _ => .done candidate.id).Makes SparesRebuilds := by
  apply Program.Always.bind (spares_activeJobsForTarget job)
  intro candidates
  split
  · trivial
  · apply Program.Always.bind (spares_command (.setActive (.delete _) _) fun rebuild => rebuild)
    intro _
    trivial

theorem spares_activeDelete (job : Job) :
    (RedisJobStore.activeDelete digest job).Makes SparesRebuilds := by
  simp only [RedisJobStore.activeDelete, RedisJobStore.activeId, Program.bind_eq_bind]
  split
  · trivial
  · apply Program.Always.bind
    · exact Program.Always.bind (spares_command (.getActive _) trivial) fun _ => trivial
    · intro active
      apply Program.Always.bind (spares_get active)
      intro stored
      split
      · trivial
      · split
        · apply Program.Always.bind (spares_command (.deleteActive (.delete _)) fun rebuild => rebuild)
          intro _
          exact spares_findDelete job
        · exact spares_findDelete job

theorem spares_reserve (key : ActiveKey) (spared : ¬ key.IsRebuild) (jobId : String) :
    (RedisJobStore.reserve key jobId).Makes SparesRebuilds := by
  simp only [RedisJobStore.reserve, RedisJobStore.activeId, Program.bind_eq_bind]
  apply Program.Always.bind (spares_command (.setNxActive key jobId) spared)
  intro free
  split
  · trivial
  · apply Program.Always.bind
    · exact Program.Always.bind (spares_command (.getActive key) trivial) fun _ => trivial
    · intro active
      apply Program.Always.bind (spares_get active)
      intro stored
      split
      · trivial
      · apply Program.Always.bind (spares_command (.deleteActive key) spared)
        intro _
        apply Program.Always.bind (spares_command (.setNxActive key jobId) spared)
        intro free
        split
        · trivial
        · apply Program.Always.bind
          · exact Program.Always.bind (spares_command (.getActive key) trivial) fun _ => trivial
          · intro _
            trivial

/-! ### What the creating calls do -/

theorem perform_get (jobId : String) (redis : RedisJobs) :
    (RedisJobStore.get jobId).perform (execute none) redis =
      (redis.lookup jobId, redis) := by
  rw [RedisJobStore.get, RedisJobs.lookup]
  split
  · rfl
  · rfl

theorem perform_activeId (key : ActiveKey) (redis : RedisJobs) :
    (RedisJobStore.activeId key).perform (execute none) redis =
      ((redis.active.get? key).getD "", redis) :=
  rfl

theorem perform_legacyActiveRebuildId (redis : RedisJobs) :
    RedisJobStore.legacyActiveRebuildId.perform (execute none) redis =
      (redis.legacyId, redis) := by
  rw [RedisJobStore.legacyActiveRebuildId, Program.bind_eq_bind, Program.perform_bind,
    perform_activeId, RedisJobs.legacyId]
  by_cases unscoped : (redis.active.get? .unscoped).getD "" ≠ ""
  · rw [if_pos unscoped, if_pos unscoped]
    rfl
  · rw [if_neg unscoped, if_neg unscoped]
    rfl

theorem perform_enroll (job : Job) (redis : RedisJobs) :
    ∃ admitted, (RedisJobStore.enroll job).perform (execute none) redis =
      (.accepted admitted, { redis with jobs := redis.jobs.set job.id job }) := by
  rw [RedisJobStore.enroll, Program.bind_eq_bind, Program.perform_bind, Program.bind_eq_bind,
    Program.perform_bind, perform_get]
  exact ⟨_, rfl⟩

theorem perform_setNx_held {key : ActiveKey} {holder : String}
    (held : redis.active.get? key = some holder) (jobId : String) :
    (Commands.setNxActive key jobId).perform (execute none) redis = (false, redis) := by
  simp only [Commands.setNxActive, Program.perform_call, Program.perform_done, execute, held]

theorem perform_setNx_free {key : ActiveKey} (free : redis.active.get? key = none)
    (jobId : String) :
    (Commands.setNxActive key jobId).perform (execute none) redis =
      (true, { redis with active := redis.active.set key jobId }) := by
  simp only [Commands.setNxActive, Program.perform_call, Program.perform_done, execute, free]

/-- Reserving an active id for a job succeeds unless it is the id of a running job. -/
theorem perform_reserve (key : ActiveKey) (jobId : String) (redis : RedisJobs) :
    (∃ holder, (RedisJobStore.reserve key jobId).perform (execute none) redis =
        (some holder, redis)) ∨
      ((RedisJobStore.reserve key jobId).perform (execute none) redis).1 = none ∧
        (∀ holder job, redis.active.get? key = some holder → holder ≠ "" →
          redis.jobs.get? holder = some job → ¬ job.Running) ∧
        ((RedisJobStore.reserve key jobId).perform (execute none) redis).2.jobs = redis.jobs ∧
        (∀ other, ((RedisJobStore.reserve key jobId).perform (execute none)
          redis).2.active.get? other =
            if other = key then some jobId else redis.active.get? other) := by
  rw [RedisJobStore.reserve, Program.bind_eq_bind, Program.perform_bind]
  cases held : redis.active.get? key with
  | none =>
      rw [perform_setNx_free held]
      exact .inr ⟨rfl, fun _ _ => nofun, rfl, fun other => Dictionary.get?_set⟩
  | some holder =>
      rw [perform_setNx_held held]
      simp only [Bool.false_eq_true, if_false, Program.bind_eq_bind, Program.perform_bind,
        perform_activeId, held, Option.getD_some, perform_get]
      by_cases running : (redis.lookup holder).any (·.Running)
      · simp only [if_pos running]
        exact .inl ⟨holder, rfl⟩
      · have free : (redis.active.erase key).get? key = none := Dictionary.get?_erase_self _ _
        right
        simp only [if_neg running, Program.perform_bind, Commands.deleteActive,
          Program.perform_call, Program.perform_done, execute]
        rw [@perform_setNx_free { redis with active := redis.active.erase key } key free]
        refine ⟨rfl, ?_, rfl, ?_⟩
        · intro other job same named stored runs
          cases same
          rw [RedisJobs.lookup, if_neg named, stored] at running
          exact running (decide_eq_true runs)
        · intro other
          rw [if_pos rfl]
          change (Dictionary.set key jobId _).get? other = _
          rw [Dictionary.get?_set]
          split
          · rfl
          · rename_i different
            exact Dictionary.get?_erase_of_ne different

/-- A rebuild is refused, or added while the id under its key is not of a running
job. -/
inductive Reserved (key : ActiveKey) (job : Job) (redis : RedisJobs) :
    Reply × RedisJobs → Prop
  | refused (conflict : Conflict) : Reserved key job redis (.conflict conflict, redis)
  | added (reply : Reply) (after : RedisJobs)
      (free : ∀ holder found, redis.active.get? key = some holder → holder ≠ "" →
        redis.jobs.get? holder = some found → ¬ found.Running)
      (jobs : after.jobs = redis.jobs.set job.id job)
      (active : ∀ other, after.active.get? other =
        if other = key then some job.id else redis.active.get? other) :
      Reserved key job redis (reply, after)

theorem perform_reserve_enroll (key : ActiveKey) (conflict : String → Conflict) (job : Job)
    (redis : RedisJobs) :
    Reserved key job redis (((RedisJobStore.reserve key job.id).bind fun holder =>
      match holder with
      | some holder => .done (.conflict (conflict holder))
      | none => RedisJobStore.enroll job).perform (execute none) redis) := by
  rw [Program.perform_bind]
  have outcome := perform_reserve key job.id redis
  generalize (RedisJobStore.reserve key job.id).perform (execute none) redis = result at outcome
  rcases result with ⟨holder, middle⟩
  rcases outcome with ⟨holder, held⟩ | ⟨reserved, free, jobs, active⟩
  · cases held
    exact .refused _
  · cases reserved
    rcases perform_enroll job middle with ⟨admitted, performed⟩
    dsimp only at jobs active ⊢
    rw [performed, jobs]
    exact .added _ _ free rfl active

/-- What a call that may add a rebuild does. -/
inductive RebuildAdded (digest : Digest) (job : Job) (redis : RedisJobs) :
    Reply × RedisJobs → Prop
  | refused (conflict : Conflict) (after : RedisJobs) (same : SameRebuilds redis after) :
      RebuildAdded digest job redis (.conflict conflict, after)
  | added (reply : Reply) (after : RedisJobs)
      (unnamed : rebuildKey digest job ≠ "legacy" → redis.legacyId = "")
      (free : ∀ holder found, redis.active.get? (.rebuild (rebuildKey digest job)) = some holder →
        holder ≠ "" → redis.jobs.get? holder = some found → ¬ found.Running)
      (jobs : after.jobs = redis.jobs.set job.id job)
      (active : ∀ key : ActiveKey, key.IsRebuild → after.active.get? key =
        if key = .rebuild (rebuildKey digest job) then some job.id else redis.active.get? key) :
      RebuildAdded digest job redis (reply, after)

theorem Reserved.rebuildAdded {job : Job} {middle : RedisJobs} {result : Reply × RedisJobs}
    (reserved : Reserved (.rebuild (rebuildKey digest job)) job middle result)
    (same : SameRebuilds redis middle)
    (unnamed : rebuildKey digest job ≠ "legacy" → redis.legacyId = "") :
    RebuildAdded digest job redis result := by
  cases reserved with
  | refused conflict => exact .refused conflict middle same
  | added reply after free jobs active =>
      apply RebuildAdded.added reply after unnamed
      · intro holder found held named stored
        rw [← same.active (.rebuild (rebuildKey digest job)) trivial] at held
        rw [← same.jobs] at stored
        exact free holder found held named stored
      · rw [jobs, same.jobs]
      · intro key rebuild
        rw [active, same.active key rebuild]

/-- The type of a rebuild, `job.get("type") or "rebuild_index"`. -/
def rebuildType (type : Option String) : String :=
  if type.getD "" = "" then "rebuild_index" else type.getD ""

/-- `create_rebuild_job` refuses the job, or adds it while no legacy rebuild is named
and the id under its key is not of a running job. -/
theorem rebuild_cases (digest : Digest) (job : Job) (redis : RedisJobs) :
    RebuildAdded digest { job with type := some (rebuildType job.type) } redis
      ((Creation.rebuild job).perform digest redis) := by
  rw [Creation.perform, Creation.program, RedisJobStore.createRebuildJob, rebuildType]
  generalize { job with
    type := some (if job.type.getD "" = "" then "rebuild_index" else job.type.getD "") } = job
  rw [Program.bind_eq_bind]
  have same := perform_spares (@spares_activeDelete digest job) redis
  rw [Program.perform_bind]
  generalize (RedisJobStore.activeDelete digest job).perform (execute none) redis = result
    at same
  rcases result with ⟨deleteId, middle⟩
  dsimp only at same ⊢
  split
  · exact .refused _ middle same
  · split
    · rw [Program.bind_eq_bind, Program.perform_bind, perform_legacyActiveRebuildId]
      dsimp only
      split
      · exact .refused _ middle same
      · rename_i unnamed
        apply (perform_reserve_enroll _ rebuildConflict job middle).rebuildAdded same
        intro _
        rw [← same.legacyId]
        exact not_not.mp unnamed
    · rename_i legacy
      rw [Program.bind_eq_bind, Program.perform_bind, perform_activeId]
      dsimp only
      split
      · exact .refused _ middle same
      · apply (perform_reserve_enroll _ rebuildConflict job middle).rebuildAdded same
        exact fun keyed => absurd keyed legacy

/-- What a call that may add another job does: the job is added only under the given
condition. -/
inductive JobAdded (condition : Prop) (job : Job) (redis : RedisJobs) :
    Reply × RedisJobs → Prop
  | refused (reply : Reply) (after : RedisJobs) (same : SameRebuilds redis after) :
      JobAdded condition job redis (reply, after)
  | added (reply : Reply) (after : RedisJobs) (holds : condition)
      (jobs : after.jobs = redis.jobs.set job.id job)
      (active : ∀ key : ActiveKey, key.IsRebuild →
        after.active.get? key = redis.active.get? key) :
      JobAdded condition job redis (reply, after)

theorem jobAdded_enroll {condition : Prop} (holds : condition) (job : Job) {middle : RedisJobs}
    (same : SameRebuilds redis middle) :
    JobAdded condition job redis ((RedisJobStore.enroll job).perform (execute none) middle) := by
  rcases perform_enroll job middle with ⟨admitted, performed⟩
  rw [performed]
  apply JobAdded.added _ _ holds
  · rw [same.jobs]
  · exact same.active

theorem jobAdded_spares {condition : Prop} {job : Job} {program : Commands Reply}
    (makes : program.Makes SparesRebuilds) {middle : RedisJobs}
    (same : SameRebuilds redis middle) :
    JobAdded condition job redis (program.perform (execute none) middle) :=
  .refused _ _ (same.trans (perform_spares makes middle))

theorem dataSourceSync_cases (digest : Digest) (job : Job) (redis : RedisJobs) :
    JobAdded True job redis ((Creation.dataSourceSync job).perform digest redis) := by
  rw [Creation.perform, Creation.program, RedisJobStore.createDataSourceSyncJob,
    Program.bind_eq_bind, Program.perform_bind]
  have same := perform_spares (@spares_activeDelete digest job) redis
  generalize (RedisJobStore.activeDelete digest job).perform (execute none) redis = result
    at same
  rcases result with ⟨deleteId, middle⟩
  dsimp only at same ⊢
  split
  · exact .refused _ middle same
  · rw [Program.bind_eq_bind, Program.perform_bind]
    have reserves := perform_spares
      (spares_reserve (.dataSourceSync (dataSourceSyncKey digest job)) id job.id) middle
    generalize (RedisJobStore.reserve (.dataSourceSync (dataSourceSyncKey digest job))
      job.id).perform (execute none) middle = result at reserves
    rcases result with ⟨holder, last⟩
    dsimp only at reserves ⊢
    have unchanged := same.trans reserves
    cases holder with
    | some holder => exact .refused _ last unchanged
    | none => exact jobAdded_enroll trivial job unchanged

/-- A deletion is added only while no legacy rebuild is named. -/
theorem reserveDelete_cases (digest : Digest) (job : Job) {middle : RedisJobs}
    (same : SameRebuilds redis middle) :
    JobAdded (redis.legacyId = "") job redis
      ((RedisJobStore.reserveDelete digest job).perform (execute none) middle) := by
  rw [RedisJobStore.reserveDelete, Program.bind_eq_bind, Program.perform_bind,
    perform_legacyActiveRebuildId]
  dsimp only
  split
  · exact .refused _ middle same
  · rename_i unnamed
    have unnamed : redis.legacyId = "" := by
      rw [← same.legacyId]
      exact not_not.mp unnamed
    rw [Program.bind_eq_bind, Program.perform_bind, perform_activeId]
    dsimp only
    split
    · exact .refused _ middle same
    · rw [Program.bind_eq_bind, Program.perform_bind]
      have scans := perform_spares (spares_activeJobsForTarget job) middle
      generalize (RedisJobStore.activeJobsForTarget job).perform (execute none) middle = result
        at scans
      rcases result with ⟨active, scanned⟩
      dsimp only at scans ⊢
      have unchanged := same.trans scans
      split
      · split
        · rename_i first _ _
          apply jobAdded_spares _ unchanged
          apply Program.Always.bind (spares_command (.setActive (.delete _) first.id) id)
          intro _
          exact Program.Always.bind (spares_get first.id) fun _ => trivial
        · exact .refused _ scanned unchanged
      · rw [Program.bind_eq_bind, Program.perform_bind]
        have reserves := perform_spares (spares_command
          (.setNxActive (.delete (knowledgeBaseKey digest job)) job.id) id) scanned
        change SameRebuilds scanned ((Commands.setNxActive
          (.delete (knowledgeBaseKey digest job)) job.id).perform (execute none) scanned).2
          at reserves
        generalize (Commands.setNxActive (.delete (knowledgeBaseKey digest job)) job.id).perform
          (execute none) scanned = result at reserves
        rcases result with ⟨free, reserved⟩
        dsimp only at reserves ⊢
        split
        · exact jobAdded_enroll unnamed job (unchanged.trans reserves)
        · apply jobAdded_spares _ (unchanged.trans reserves)
          exact Program.Always.bind (Program.Always.bind (spares_command (.getActive _) trivial)
            fun _ => trivial) fun _ => trivial

theorem delete_cases (digest : Digest) (job : Job) (redis : RedisJobs) :
    JobAdded (redis.legacyId = "") { job with type := some deleteType } redis
      ((Creation.delete job).perform digest redis) := by
  rw [Creation.perform, Creation.program, RedisJobStore.createDeleteJob]
  split
  · exact .refused _ redis (.refl redis)
  · generalize { job with type := some deleteType } = job
    rw [Program.bind_eq_bind, Program.perform_bind]
    have same := perform_spares (@spares_activeDelete digest job) redis
    generalize (RedisJobStore.activeDelete digest job).perform (execute none) redis = result
      at same
    rcases result with ⟨deleteId, middle⟩
    dsimp only at same ⊢
    split
    · rw [Program.bind_eq_bind, Program.perform_bind, perform_get]
      dsimp only
      split
      · exact .refused _ middle same
      · exact reserveDelete_cases digest job same
    · exact reserveDelete_cases digest job same

/-- `create_job` adds a deletion as `create_delete_job` does, and any other job unless
it is refused. -/
theorem plain_cases (digest : Digest) (job : Job) (redis : RedisJobs) :
    JobAdded (job.type ≠ some deleteType ∨ redis.legacyId = "") job redis
      ((Creation.plain job).perform digest redis) := by
  rw [Creation.perform, Creation.program, RedisJobStore.createJob]
  split
  · rename_i deletes
    have added := delete_cases digest job redis
    have retyped : { job with type := some deleteType } = job := by rw [← deletes]
    rw [retyped] at added
    change JobAdded _ job redis
      ((RedisJobStore.createDeleteJob digest job).perform (execute none) redis) at added
    generalize (RedisJobStore.createDeleteJob digest job).perform (execute none) redis = result
      at added ⊢
    cases added with
    | refused reply after same => exact .refused reply after same
    | added reply after holds jobs active => exact .added reply after (.inr holds) jobs active
  · rename_i plain
    rw [Program.bind_eq_bind, Program.perform_bind]
    have same := perform_spares (@spares_activeDelete digest job) redis
    generalize (RedisJobStore.activeDelete digest job).perform (execute none) redis = result
      at same
    rcases result with ⟨deleteId, middle⟩
    dsimp only at same ⊢
    split
    · exact .refused _ middle same
    · exact jobAdded_enroll (.inl plain) job same

end

/-! ## Runs -/

/-- An admission, or an event of the workers that run the other calls. -/
inductive StoreEvent
  | create (creation : Creation)
  | work (event : Event Scan Mutation)

def StoreEvent.next (digest : Digest) :
    StoreEvent → Machine (mutations digest) → Machine (mutations digest)
  | .create creation, machine =>
      { machine with state := (creation.perform digest machine.state).2 }
  | .work event, machine => machine.next event

/-- The store and its workers after some events. -/
abbrev redisRun (digest : Digest) (events : List StoreEvent) : Machine (mutations digest) :=
  run (StoreEvent.next digest) (.initial (mutations digest) .empty) events

/-- The jobs asked for. -/
def requests (events : List StoreEvent) : List Call :=
  events.filterMap fun
    | .create creation => some creation.call
    | .work _ => none

/-- A version of a job under the same id and in the same workspace, running or a
deletion only if it was. -/
structure Tame (old new : Job) : Prop where
  id : new.id = old.id
  workspace : new.workspace = old.workspace
  deletion : new.type = some deleteType → old.type = some deleteType
  running : new.Running → old.Running

/-- The jobs have fresh ids and types as in the other store. Nobody comes between the
two commands of a call that saves a job, and the changes are tame. A legacy rebuild is
not asked for while a deletion or a scoped rebuild is running, and its active id is
dropped only when the job it names has finished. -/
structure RedisLegacyApart (digest : Digest) (events : List StoreEvent) : Prop where
  distinct : (createdIds (requests events)).Nodup
  named : ∀ id ∈ createdIds (requests events), id ≠ ""
  typed : ∀ job, Call.createRebuildJob job ∈ requests events ∨
    Call.createDataSourceSyncJob job ∈ requests events → job.type ≠ some deleteType
  undisturbed : ∀ past index scan, past ++ [.work (.step index scan)] <+: events →
    ∀ task, (redisRun digest past).tasks[index]? = some task →
      ∀ savedId saved next, task.remaining = .call (.setexJob savedId saved) next →
        ∀ jobId read before, task.trail = [⟨.getJob jobId, read, before⟩] →
          before.jobs.get? jobId = (redisRun digest past).state.jobs.get? jobId
  updates : ∀ past, past <+: events → ∀ task ∈ (redisRun digest past).tasks,
    ∀ jobId patch, task.call = .update jobId patch →
      ∀ read before, task.trail = [⟨.getJob jobId, read, before⟩] →
        ∀ old, before.jobs.get? jobId = some old → Tame old (old.update patch)
  finishes : ∀ past, past <+: events → ∀ task ∈ (redisRun digest past).tasks,
    ∀ now jobId status message, task.call = .finish now jobId status message →
      status ∉ runningJobStatuses
  first : ∀ past job, past ++ [.create (.rebuild job)] <+: events → job.workspace = "" →
    ∀ id other, RunsIn (redisRun digest past).state.jobs id other →
      Compatible (requests past) id other
  held : ∀ past index scan, past ++ [.work (.step index scan)] <+: events →
    ∀ task, (redisRun digest past).tasks[index]? = some task →
      ∀ next, task.remaining = .call (.deleteActive (.rebuild "legacy")) next →
        ∀ id, (redisRun digest past).state.active.get? (.rebuild "legacy") = some id →
          ∀ job, ¬ RunsIn (redisRun digest past).state.jobs id job

/-- While a legacy rebuild is running no deletion and no scoped rebuild is, and the
calls that ask for one are refused. -/
structure RedisLegacyExclusive (digest : Digest) (events : List StoreEvent) : Prop where
  alone : Apart (requests events) (redisRun digest events).state.jobs
  refused : ∀ past job, past ++ [.create (.rebuild job)] <+: events → job.workspace ≠ "" →
    (∃ id legacy, LegacyRuns (requests past) (redisRun digest past).state.jobs id legacy) →
      ∃ conflict, ((Creation.rebuild job).perform digest (redisRun digest past).state).1 =
        .conflict conflict
  unadmitted : ∀ past job, past ++ [.create (.delete job)] <+: events →
    (∃ id legacy, LegacyRuns (requests past) (redisRun digest past).state.jobs id legacy) →
      ((Creation.delete job).perform digest (redisRun digest past).state).2.jobs =
        (redisRun digest past).state.jobs

/-! ## The invariant -/

/-- How the jobs, the id of the legacy rebuild and the requests so far belong
together. -/
structure Led (calls : List Call) (redis : RedisJobs) : Prop where
  keyed : Keyed redis
  created : Created calls redis.jobs
  named : ∀ id job, redis.jobs.get? id = some job → id ≠ ""
  entry : ∀ id legacy, LegacyRuns calls redis.jobs id legacy →
    redis.active.get? (.rebuild "legacy") = some id
  apart : Apart calls redis.jobs

namespace Led

variable {digest : Digest} {calls : List Call} {call : Call} {redis after : RedisJobs}
  {id : String} {job : Job}

theorem empty : Led [] .empty where
  keyed _ _ := nofun
  created _ _ := nofun
  named _ _ := nofun
  entry _ _ running := by cases running.runs.1
  apart _ _ running := by cases running.runs.1

/-- The jobs are the same, or fewer, and the legacy id is, unless nothing it names is
running. -/
theorem fewer (led : Led calls redis)
    (dropped : ∀ id job, after.jobs.get? id = some job → redis.jobs.get? id = some job)
    (active : ∀ id job, redis.active.get? (.rebuild "legacy") = some id →
      RunsIn after.jobs id job → after.active.get? (.rebuild "legacy") = some id) :
    Led calls after where
  keyed id job present := led.keyed id job (dropped id job present)
  created id job present := led.created id job (dropped id job present)
  named id job present := led.named id job (dropped id job present)
  entry id legacy running := by
    have runs : RunsIn redis.jobs id legacy := ⟨dropped id legacy running.runs.1, running.runs.2⟩
    exact active id legacy (led.entry id legacy ⟨running.requested, runs, running.unplaced⟩)
      running.runs
  apart := led.apart.drop dropped

theorem same (led : Led calls redis) (same : SameRebuilds redis after) : Led calls after := by
  apply led.fewer
  · intro id job present
    rw [← same.jobs]
    exact present
  · intro id job named _
    rw [same.active (.rebuild "legacy") trivial]
    exact named

theorem grow (led : Led calls redis) (fresh : Fresh calls call) : Led (calls ++ [call]) redis where
  keyed := led.keyed
  created id job present := by
    rw [createdIds_append]
    exact List.mem_append_left _ (led.created id job present)
  named := led.named
  entry id legacy running := led.entry id legacy (running.shrink led.created fresh)
  apart := led.apart.grow led.created fresh

/-- A job is replaced by a tame version. -/
theorem change (led : Led calls redis) {old new : Job} (stored : redis.jobs.get? id = some old)
    (tame : Tame old new) : Led calls { redis with jobs := redis.jobs.set id new } := by
  have origin : ∀ other found, (redis.jobs.set id new).get? other = some found →
      ∃ earlier, redis.jobs.get? other = some earlier ∧ Tame earlier found := by
    intro other found present
    rw [Dictionary.get?_set] at present
    split at present
    · rename_i same
      cases present
      exact ⟨old, same ▸ stored, tame⟩
    · exact ⟨found, present, rfl, rfl, fun isDelete => isDelete, fun runs => runs⟩
  constructor
  · intro other found present
    rcases origin other found present with ⟨earlier, before, tame⟩
    exact tame.id.trans (led.keyed other earlier before)
  · intro other found present
    rcases origin other found present with ⟨earlier, before, _⟩
    exact led.created other earlier before
  · intro other found present
    rcases origin other found present with ⟨earlier, before, _⟩
    exact led.named other earlier before
  · intro other legacy running
    rcases origin other legacy running.runs.1 with ⟨earlier, before, tame⟩
    exact led.entry other earlier ⟨running.requested, ⟨before, tame.running running.runs.2⟩,
      tame.workspace.symm.trans running.unplaced⟩
  · exact led.apart.change stored new tame.workspace tame.deletion tame.running

/-- A running legacy rebuild is named, so the calls that look for it find it. -/
theorem legacyId (led : Led calls redis)
    (legacy : ∃ id legacy, LegacyRuns calls redis.jobs id legacy) : redis.legacyId ≠ "" := by
  rcases legacy with ⟨id, legacy, running⟩
  rw [RedisJobs.legacyId]
  split
  · assumption
  · rw [led.entry id legacy running]
    exact led.named id legacy running.runs.1

/-- A call adds a job while the legacy id leads to the running legacy rebuild. -/
theorem add (led : Led calls redis) {original : Job} (asked : call.created = some original)
    (identified : job.id = original.id) (named : original.id ≠ "")
    (jobs : after.jobs = redis.jobs.set job.id job)
    (entry : ∀ id legacy, LegacyRuns (calls ++ [call]) after.jobs id legacy →
      after.active.get? (.rebuild "legacy") = some id)
    (apart : Apart (calls ++ [call]) after.jobs) : Led (calls ++ [call]) after := by
  have origin : ∀ other found, after.jobs.get? other = some found →
      other = job.id ∧ found = job ∨ redis.jobs.get? other = some found := by
    intro other found present
    rw [jobs, Dictionary.get?_set] at present
    split at present
    · rename_i same
      exact .inl ⟨same, (Option.some.inj present).symm⟩
    · exact .inr present
  refine ⟨?_, ?_, ?_, entry, apart⟩
  · intro other found present
    rcases origin other found present with ⟨sameId, sameJob⟩ | old
    · rw [sameId, sameJob]
    · exact led.keyed other found old
  · intro other found present
    rw [createdIds_append, List.mem_append]
    rcases origin other found present with ⟨sameId, _⟩ | old
    · right
      simp [asked, sameId, identified]
    · exact .inl (led.created other found old)
  · intro other found present
    rcases origin other found present with ⟨sameId, _⟩ | old
    · rw [sameId, identified]
      exact named
    · exact led.named other found old

/-- A call other than `create_rebuild_job` keeps the ids in order if it adds
deletions only while no legacy rebuild is named. -/
theorem added {condition : Prop} {result : Reply × RedisJobs} (led : Led calls redis)
    (fresh : Fresh calls call) {original : Job} (asked : call.created = some original)
    (identified : job.id = original.id) (named : original.id ≠ "")
    (other : ∀ job, call ≠ .createRebuildJob job)
    (plain : condition → job.type = some deleteType → redis.legacyId = "")
    (added : JobAdded condition job redis result) : Led (calls ++ [call]) result.2 := by
  cases added with
  | refused reply after same => exact (led.grow fresh).same same
  | added reply after holds jobs active =>
      have apart : Apart (calls ++ [call]) after.jobs := by
        rw [jobs]
        apply led.apart.add_plain led.created fresh asked identified.symm other
        exact fun legacy isDelete => led.legacyId legacy (plain holds isDelete)
      apply led.add asked identified named jobs _ apart
      intro id legacy running
      rw [active (.rebuild "legacy") trivial]
      have present := running.runs.1
      rw [jobs, Dictionary.get?_set] at present
      split at present
      · rename_i sameId
        have unrequested := not_rebuildRequested fresh asked other identified.symm
        exact absurd (sameId ▸ running.requested) unrequested
      · have before : LegacyRuns (calls ++ [call]) redis.jobs id legacy :=
          ⟨running.requested, ⟨present, running.runs.2⟩, running.unplaced⟩
        exact led.entry id legacy (before.shrink led.created fresh)

/-- `create_rebuild_job` keeps the ids in order if a legacy rebuild is asked for only
while all running jobs are compatible with it. -/
theorem rebuildAdded {original : Job} {result : Reply × RedisJobs} (led : Led calls redis)
    (fresh : Fresh calls (.createRebuildJob original)) (identified : job.id = original.id)
    (named : original.id ≠ "") (typed : job.type ≠ some deleteType)
    (first : job.workspace = "" → ∀ id other, RunsIn redis.jobs id other →
      Compatible calls id other)
    (added : RebuildAdded digest job redis result) :
    Led (calls ++ [.createRebuildJob original]) result.2 := by
  cases added with
  | refused conflict after same => exact (led.grow fresh).same same
  | added reply after unnamed free jobs active =>
      have unled : ¬ ∃ id legacy, LegacyRuns calls redis.jobs id legacy := by
        intro legacy
        by_cases keyed : rebuildKey digest job = "legacy"
        · rcases legacy with ⟨id, legacy, running⟩
          rw [keyed] at free
          exact free id legacy (led.entry id legacy running)
            (led.named id legacy running.runs.1) running.runs.1 running.runs.2
        · exact led.legacyId legacy (unnamed keyed)
      have apart : Apart (calls ++ [.createRebuildJob original]) after.jobs := by
        rw [jobs, identified]
        apply led.apart.add_rebuild led.created fresh typed
        · exact fun legacy => absurd legacy unled
        · exact first
      apply led.add rfl identified named jobs _ apart
      intro id legacy running
      have present := running.runs.1
      rw [jobs, Dictionary.get?_set] at present
      split at present
      · rename_i sameId
        cases present
        have keyed : rebuildKey digest job = "legacy" := by
          rw [rebuildKey, if_pos running.unplaced]
        rw [active (.rebuild "legacy") trivial, keyed, if_pos rfl, sameId]
      · have before : LegacyRuns (calls ++ [.createRebuildJob original]) redis.jobs id legacy :=
          ⟨running.requested, ⟨present, running.runs.2⟩, running.unplaced⟩
        exact absurd ⟨id, legacy, before.shrink led.created fresh⟩ unled

end Led

theorem rebuildType_plain {type : Option String} (typed : type ≠ some deleteType) :
    rebuildType type ≠ deleteType := by
  rw [rebuildType]
  split
  · decide
  · cases type with
    | none => decide
    | some type => exact fun same => typed (congrArg some same)

/-- Every admission of a run keeps the ids in order. -/
theorem Led.create {digest : Digest} {calls : List Call} {redis : RedisJobs}
    (creation : Creation) (led : Led calls redis) (fresh : Fresh calls creation.call)
    (named : ∀ job, creation.call.created = some job → job.id ≠ "")
    (typed : ∀ job, creation = .rebuild job ∨ creation = .dataSourceSync job →
      job.type ≠ some deleteType)
    (first : ∀ job, creation = .rebuild job → job.workspace = "" →
      ∀ id other, RunsIn redis.jobs id other → Compatible calls id other) :
    Led (calls ++ [creation.call]) (creation.perform digest redis).2 := by
  cases creation with
  | plain job =>
      apply led.added fresh rfl rfl (named job rfl) (fun _ => nofun) _ (plain_cases digest job redis)
      exact fun condition isDelete => condition.resolve_left (not_not.mpr isDelete)
  | rebuild job =>
      apply led.rebuildAdded fresh ?_ (named job rfl) ?_ ?_ (rebuild_cases digest job redis)
      · rfl
      · exact fun isDelete =>
          rebuildType_plain (typed job (.inl rfl)) (Option.some.inj isDelete)
      · exact first job rfl
  | dataSourceSync job =>
      apply led.added fresh rfl rfl (named job rfl) (fun _ => nofun) _
        (dataSourceSync_cases digest job redis)
      exact fun _ isDelete => absurd isDelete (typed job (.inr rfl))
  | delete job =>
      apply led.added fresh rfl ?_ (named job rfl) (fun _ => nofun) ?_
        (delete_cases digest job redis)
      · rfl
      · exact fun unnamed _ => unnamed

/-! ## Every step of a run -/

section

variable {digest : Digest} {events : List StoreEvent}

theorem requests_append (past : List StoreEvent) (event : StoreEvent) :
    requests (past ++ [event]) = requests past ++ requests [event] := by
  rw [requests, List.filterMap_append]
  rfl

theorem RedisLegacyApart.before {past : List StoreEvent} (apart : RedisLegacyApart digest events)
    (within : past <+: events) : RedisLegacyApart digest past := by
  have asked : requests past <+: requests events := by
    rcases within with ⟨later, rfl⟩
    rw [requests, requests, List.filterMap_append]
    exact List.prefix_append _ _
  have created : createdIds (requests past) <+: createdIds (requests events) := by
    rcases asked with ⟨later, same⟩
    rw [← same, createdIds, createdIds, List.filterMap_append, List.map_append]
    exact List.prefix_append _ _
  constructor
  · exact created.sublist.nodup apart.distinct
  · exact fun id member => apart.named id (created.subset member)
  · exact fun job member => apart.typed job
      (member.imp (fun rebuild => asked.subset rebuild) (fun sync => asked.subset sync))
  · exact fun earlier index scan early => apart.undisturbed earlier index scan (early.trans within)
  · exact fun earlier early => apart.updates earlier (early.trans within)
  · exact fun earlier early => apart.finishes earlier (early.trans within)
  · exact fun earlier job early => apart.first earlier job (early.trans within)
  · exact fun earlier index scan early => apart.held earlier index scan (early.trans within)

theorem redisRun_consistent (events : List StoreEvent) :
    (redisRun digest events).Consistent := by
  induction events using List.reverseRecOn with
  | nil =>
      intro task member
      cases member
  | append_singleton past event induction =>
      rw [redisRun, run_concat]
      cases event with
      | create creation => exact induction
      | work event => exact (Machine.moves _ event).consistent induction

/-- Every call of a run was started by one of its events. -/
theorem redisRun_started {task : Task (mutations digest)}
    (member : task ∈ (redisRun digest events).tasks) :
    StoreEvent.work (.start task.call) ∈ events := by
  induction events using List.reverseRecOn generalizing task with
  | nil => cases member
  | append_singleton past event induction =>
      apply List.mem_append.mpr
      rw [redisRun, run_concat] at member
      cases event with
      | create creation => exact .inl (induction member)
      | work event =>
          change task ∈ (Machine.next event (redisRun digest past)).tasks at member
          generalize reached : Machine.next event (redisRun digest past) = after at member
          have moves := (redisRun digest past).moves event
          rw [reached] at moves
          cases moves with
          | idle => exact .inl (induction member)
          | start call free =>
              rcases List.mem_append.mp member with old | new
              · exact .inl (induction old)
              · rw [List.mem_singleton.mp new]
                exact .inr List.mem_cons_self
          | step index scan stepped command next found asks =>
              rcases Machine.mem_set member with old | rfl
              · exact .inl (induction old)
              · have started := induction (List.mem_of_getElem? found)
                exact .inl started

/-- What a call saves is tame to what it has read. -/
theorem tame_of_read (apart : RedisLegacyApart digest events) {past : List StoreEvent}
    (within : past <+: events) {task : Task (mutations digest)}
    (member : task ∈ (redisRun digest past).tasks) {jobId : String} {change : Job → Job}
    (modifies : task.call.modifies = some (jobId, change)) {scan : Scan} {before : RedisJobs}
    (trail : task.trail = [⟨.getJob jobId, scan, before⟩]) {old : Job}
    (stored : before.jobs.get? jobId = some old) : Tame old (change (publicJob old)) := by
  cases called : task.call with
  | update id patch =>
      rw [called] at modifies
      cases modifies
      have tame := apart.updates past within task member jobId patch called scan before trail
        old stored
      exact ⟨tame.id, tame.workspace, tame.deletion, tame.running⟩
  | appendError id filename message =>
      rw [called] at modifies
      cases modifies
      exact ⟨rfl, rfl, fun isDelete => isDelete, fun runs => runs⟩
  | finish now id status message =>
      rw [called] at modifies
      cases modifies
      have stops := apart.finishes past within task member now jobId status message called
      exact ⟨rfl, rfl, fun isDelete => isDelete, fun runs => absurd runs stops⟩
  | clearByKnowledgeBase workspaceId knowledgeBaseId excludeJobId =>
      rw [called] at modifies
      cases modifies
  | clearByWorkspace workspaceId =>
      rw [called] at modifies
      cases modifies
  | clear =>
      rw [called] at modifies
      cases modifies
  | expireJob id =>
      rw [called] at modifies
      cases modifies
  | expireActive key =>
      rw [called] at modifies
      cases modifies

/-- A command of the calls that work on admitted jobs. -/
def Working (command : Command) : Prop :=
  Clearing command ∨ ∃ jobId job, command = .setexJob jobId job

theorem working_modify {jobId : String} {change : Job → Job}
    {rest : Option Job → Commands Unit} (clears : ∀ job, (rest job).Makes Clearing) :
    (RedisJobStore.modify jobId change rest).Makes Working := by
  have works : ∀ job, (rest job).Makes Working :=
    fun job => (clears job).mono fun _ _ clearing => .inl clearing
  rw [RedisJobStore.modify, Program.bind_eq_bind, RedisJobStore.get]
  apply Program.Always.bind
  · split
    · trivial
    · exact ⟨.inl trivial, fun _ => trivial⟩
  · intro job
    cases job with
    | none => exact works none
    | some job => exact ⟨.inr ⟨_, _, rfl⟩, fun _ => works _⟩

theorem working_program (call : Mutation) : (call.program digest).Makes Working := by
  cases modifies : call.modifies with
  | none => exact (clears_unmodifying modifies).mono fun _ _ clears => .inl clears
  | some modification =>
      cases call with
      | update jobId patch => exact working_modify fun _ => Program.always_done ()
      | appendError jobId filename message => exact working_modify fun _ => Program.always_done ()
      | finish now jobId status message => exact working_modify (clears_releaseFinished jobId)
      | clearByKnowledgeBase workspaceId knowledgeBaseId excludeJobId => cases modifies
      | clearByWorkspace workspaceId => cases modifies
      | clear => cases modifies
      | expireJob jobId => cases modifies
      | expireActive key => cases modifies

/-- Every command of a worker keeps the ids in order. -/
theorem Led.command (apart : RedisLegacyApart digest events) {past : List StoreEvent}
    {index : Nat} {scan : Scan} (within : past ++ [.work (.step index scan)] <+: events)
    {task : Task (mutations digest)} (found : (redisRun digest past).tasks[index]? = some task)
    {command : Command} {next : command.Response → Commands task.call.Outcome}
    (asks : task.remaining = .call command next)
    (led : Led (requests past) (redisRun digest past).state) :
    Led (requests past) (execute scan command (redisRun digest past).state).2 := by
  have member := List.mem_of_getElem? found
  have consistent : (redisRun digest past).Consistent := redisRun_consistent past
  have works := consistent.allows member asks (working_program task.call)
  cases command with
  | getJob jobId => exact led
  | setexJob savedId saved =>
      rcases saving_task (consistent task member) asks with
        ⟨jobId, change, read, before, old, modifies, _, trail, stored, rfl, rfl⟩
      have tame := tame_of_read apart ((List.prefix_append past _).trans within) member modifies
        trail stored
      have present := apart.undisturbed past index scan within task found _ _ next asks
        jobId read before trail
      rw [stored] at present
      have named : (change (publicJob old)).id = jobId :=
        tame.id.trans (led.keyed jobId old present.symm)
      rw [execute, named]
      exact led.change present.symm tame
  | deleteJob jobId =>
      apply led.fewer
      · intro id job present
        exact Dictionary.get?_of_erase present
      · exact fun id job named _ => named
  | scanJobs => exact led
  | getActive key => exact led
  | setActive key jobId =>
      rcases works with clearing | ⟨_, _, same⟩
      · cases clearing
      · cases same
  | setNxActive key jobId =>
      rcases works with clearing | ⟨_, _, same⟩
      · cases clearing
      · cases same
  | deleteActive key =>
      apply led.fewer
      · exact fun id job present => present
      · intro id job named runs
        by_cases legacy : key = .rebuild "legacy"
        · subst legacy
          exact absurd runs (apart.held past index scan within task found next asks id named job)
        · exact (Dictionary.get?_erase_of_ne (Ne.symm legacy)).trans named
  | flushJobs =>
      apply led.fewer
      · intro id job present
        cases present
      · intro id job named runs
        cases runs.1

/-- Every event of a run keeps the ids in order. -/
theorem Led.after (event : StoreEvent) {past : List StoreEvent}
    (apart : RedisLegacyApart digest (past ++ [event]))
    (led : Led (requests past) (redisRun digest past).state) :
    Led (requests (past ++ [event])) (event.next digest (redisRun digest past)).state := by
  cases event with
  | create creation =>
      have asked : requests (past ++ [.create creation]) = requests past ++ [creation.call] :=
        requests_append past (.create creation)
      have last : creation.call ∈ requests (past ++ [.create creation]) := by
        rw [asked]
        exact List.mem_append_right _ List.mem_cons_self
      have fresh : Fresh (requests past) creation.call := by
        intro original created member
        have nodup := apart.distinct
        rw [asked, createdIds_append, created] at nodup
        exact (List.nodup_append.mp nodup).2.2 _ member _ List.mem_cons_self rfl
      rw [asked]
      apply led.create creation fresh
      · intro job created
        apply apart.named
        rw [asked, createdIds_append, created]
        exact List.mem_append_right _ List.mem_cons_self
      · rintro job (rfl | rfl)
        · exact apart.typed job (.inl last)
        · exact apart.typed job (.inr last)
      · rintro job rfl
        exact apart.first past job List.prefix_rfl
  | work event =>
      rw [requests_append]
      change Led (requests past ++ []) (Machine.next event (redisRun digest past)).state
      rw [List.append_nil]
      generalize reached : Machine.next event (redisRun digest past) = after
      have moves := (redisRun digest past).moves event
      rw [reached] at moves
      cases moves with
      | idle => exact led
      | start call free => exact led
      | step index scan task command next found asks =>
          exact led.command apart List.prefix_rfl found asks

theorem redisRun_led (apart : RedisLegacyApart digest events) :
    Led (requests events) (redisRun digest events).state := by
  induction events using List.reverseRecOn with
  | nil => exact .empty
  | append_singleton past event induction =>
      rw [redisRun, run_concat]
      exact Led.after event apart (induction (apart.before (List.prefix_append _ _)))

theorem run_redis_legacy_excludes (apart : RedisLegacyApart digest events) :
    RedisLegacyExclusive digest events := by
  have led : ∀ past event, past ++ [event] <+: events →
      Led (requests past) (redisRun digest past).state := by
    intro past event within
    exact redisRun_led (apart.before ((List.prefix_append past [event]).trans within))
  constructor
  · exact (redisRun_led apart).apart
  · intro past job within placed legacy
    have led := led past _ within
    have outcome := rebuild_cases digest job (redisRun digest past).state
    generalize (Creation.rebuild job).perform digest (redisRun digest past).state = result
      at outcome
    cases outcome with
    | refused conflict after same => exact ⟨conflict, rfl⟩
    | added reply after unnamed free jobs active =>
        by_cases keyed : rebuildKey digest job = "legacy"
        · rcases legacy with ⟨id, legacy, running⟩
          rw [show rebuildKey digest { job with type := some (rebuildType job.type) } =
            rebuildKey digest job from rfl, keyed] at free
          exact absurd running.runs.2 (free id legacy (led.entry id legacy running)
            (led.named id legacy running.runs.1) running.runs.1)
        · exact absurd (unnamed keyed) (led.legacyId legacy)
  · intro past job within legacy
    have led := led past _ within
    have outcome := delete_cases digest job (redisRun digest past).state
    generalize (Creation.delete job).perform digest (redisRun digest past).state = result
      at outcome
    cases outcome with
    | refused reply after same => exact same.jobs
    | added reply after unnamed jobs active => exact absurd unnamed (led.legacyId legacy)

end

/-! ## Both stores -/

/-- In both stores a running legacy rebuild keeps scoped rebuilds and deletions out,
if none was running when it was asked for and no leftover id hides it. -/
theorem run_legacy_exclusive {digest : Digest} {calls : List Call} {events : List StoreEvent}
    (disciplined : Disciplined digest calls) (typed : WellTyped digest calls)
    (apart : LegacyApart digest calls) (redisApart : RedisLegacyApart digest events) :
    LegacyExclusive digest calls ∧ RedisLegacyExclusive digest events :=
  ⟨run_legacy_excludes disciplined typed apart, run_redis_legacy_excludes redisApart⟩

/-- A rebuild without a workspace. -/
def legacyJob (id : String) : Job where
  id := id
  type := some "rebuild_index"
  status := "running"
  workspaceId := none

/-- A scoped rebuild is asked for while a legacy one runs. -/
def legacyFirstCalls : List Call :=
  [.createRebuildJob (legacyJob "l"),
    .createRebuildJob (exampleJob "r" "rebuild_index" "running" "a"),
    .createDeleteJob (exampleJob "d" deleteType "running" "a")]

/-- The same in Redis, and then the legacy rebuild finishes. -/
def legacyFirstEvents : List StoreEvent :=
  [.create (.rebuild (legacyJob "l")),
    .create (.rebuild (exampleJob "r" "rebuild_index" "running" "a")),
    .work (.start (.finish 1 "l" "completed" "done")), .work (.step 0 none),
    .work (.step 0 none), .work (.step 0 none), .work (.step 0 none)]

theorem run_legacy_exclusive_legacyFirst :
    LegacyExclusive exampleDigest legacyFirstCalls ∧
      RedisLegacyExclusive exampleDigest legacyFirstEvents := by
  apply run_legacy_exclusive
  · apply disciplined_of_quiet (by decide) (by simp [legacyFirstCalls])
    intro id patch member
    simp [legacyFirstCalls] at member
  · constructor
    · intro call member job created
      simp only [legacyFirstCalls, List.mem_cons, List.not_mem_nil, or_false] at member
      rcases member with rfl | rfl | rfl <;> cases created <;> decide
    · intro job member
      simp only [legacyFirstCalls, List.mem_cons, reduceCtorEq, Call.createRebuildJob.injEq,
        List.not_mem_nil, or_false] at member
      rcases member with rfl | rfl <;> decide
    · intro past id patch within
      have member := within.subset (List.mem_append_right _ List.mem_cons_self)
      simp [legacyFirstCalls] at member
  · constructor
    · intro past job within unplaced id other runs
      rcases eq_take_of_concat_prefix within with ⟨same, happens⟩
      generalize past.length = position at same happens
      subst same
      match position with
      | 0 => cases runs.1
      | 1 =>
          cases happens
          exact absurd unplaced (by decide)
      | 2 => cases happens
      | _ + 3 => cases happens
    · intro past job within placed legacy id entry
      rcases eq_take_of_concat_prefix within with ⟨same, happens⟩
      generalize past.length = position at same happens
      subst same
      match position with
      | 0 =>
          cases happens
          exact absurd rfl placed
      | 1 =>
          cases happens
          have absent : (MemoryJobStore.run exampleDigest
              (legacyFirstCalls.take 1)).activeRebuildJobIds.get?
                (rebuildKey exampleDigest (exampleJob "r" "rebuild_index" "running" "a")) =
              none := by decide +kernel
          rw [absent] at entry
          cases entry
      | 2 => cases happens
      | _ + 3 => cases happens
  · constructor
    · decide
    · decide
    · intro job member
      simp only [legacyFirstEvents, requests, Creation.call, List.filterMap_cons,
        List.filterMap_nil, List.mem_cons, reduceCtorEq, Call.createRebuildJob.injEq,
        List.not_mem_nil, or_false] at member
      rcases member with rfl | rfl <;> decide
    · intro past index scan within task found savedId saved next asks jobId read before trail
      rcases eq_take_of_concat_prefix within with ⟨same, happens⟩
      generalize past.length = position at same happens
      subst same
      match position with
      | 0 => cases happens
      | 1 => cases happens
      | 2 => cases happens
      | 3 =>
          cases happens
          cases found
          cases asks
      | 4 =>
          cases happens
          cases found
          cases trail
          rfl
      | 5 =>
          cases happens
          cases found
          cases asks
      | 6 =>
          cases happens
          cases found
          cases asks
      | _ + 7 => cases happens
    · intro past within task member jobId patch call
      have started := within.subset (redisRun_started member)
      simp [legacyFirstEvents, call] at started
    · intro past within task member now jobId status message call
      have started := within.subset (redisRun_started member)
      simp only [legacyFirstEvents, call, List.mem_cons, StoreEvent.work.injEq, Event.start.injEq,
        reduceCtorEq, Mutation.finish.injEq, List.not_mem_nil, or_false, false_or] at started
      rw [started.2.2.1]
      decide
    · intro past job within unplaced id other runs
      rcases eq_take_of_concat_prefix within with ⟨same, happens⟩
      generalize past.length = position at same happens
      subst same
      match position with
      | 0 => cases runs.1
      | 1 =>
          cases happens
          exact absurd unplaced (by decide)
      | 2 => cases happens
      | 3 => cases happens
      | 4 => cases happens
      | 5 => cases happens
      | 6 => cases happens
      | _ + 7 => cases happens
    · intro past index scan within task found next asks id named job runs
      rcases eq_take_of_concat_prefix within with ⟨same, happens⟩
      generalize past.length = position at same happens
      subst same
      match position with
      | 0 => cases happens
      | 1 => cases happens
      | 2 => cases happens
      | 3 =>
          cases happens
          cases found
          cases asks
      | 4 =>
          cases happens
          cases found
          cases asks
      | 5 =>
          cases happens
          cases found
          cases asks
      | 6 =>
          have holder : (redisRun exampleDigest (legacyFirstEvents.take 6)).state.active.get?
              (.rebuild "legacy") = some "l" := by decide +kernel
          have stored : (redisRun exampleDigest (legacyFirstEvents.take 6)).state.jobs.get? "l" =
              some ((publicJob (legacyJob "l")).finish 1 "completed" "done") := by decide +kernel
          rw [holder] at named
          cases named
          have present := runs.1
          rw [stored] at present
          cases present
          exact absurd runs.2 (by decide)
      | _ + 7 => cases happens

/-- A scoped rebuild runs, and a legacy one is asked for. -/
def scopedFirstCalls : List Call :=
  [.createRebuildJob (exampleJob "r" "rebuild_index" "running" "a"),
    .createRebuildJob (legacyJob "l")]

/-- A deletion runs, and a legacy rebuild is asked for. -/
def deletionFirstCalls : List Call :=
  [.createDeleteJob (exampleJob "d" deleteType "running" "a"),
    .createRebuildJob (legacyJob "l")]

/-- A scoped rebuild has failed without a call of `finish`, and its id is left over when
a legacy rebuild runs and the next scoped one is asked for. -/
def leftoverCalls : List Call :=
  [.createRebuildJob (exampleJob "r" "rebuild_index" "running" "a"),
    .update "r" { status := some "failed" },
    .createRebuildJob (legacyJob "l"),
    .createRebuildJob (exampleJob "s" "rebuild_index" "running" "a")]

/-- A scoped rebuild runs in Redis, and a legacy one is asked for. -/
def scopedFirstEvents : List StoreEvent :=
  [.create (.rebuild (exampleJob "r" "rebuild_index" "running" "a")),
    .create (.rebuild (legacyJob "l"))]

/-- A deletion runs in Redis, and a legacy rebuild is asked for. -/
def deletionFirstEvents : List StoreEvent :=
  [.create (.delete (exampleJob "d" deleteType "running" "a")),
    .create (.rebuild (legacyJob "l"))]

/-- A legacy rebuild runs beside a scoped rebuild or a deletion that was there first,
or beside a scoped rebuild that a leftover id let in. -/
theorem legacy_rebuild_overlaps :
    ¬ Apart scopedFirstCalls (MemoryJobStore.run exampleDigest scopedFirstCalls).jobs ∧
      ¬ Apart deletionFirstCalls (MemoryJobStore.run exampleDigest deletionFirstCalls).jobs ∧
      ¬ Apart leftoverCalls (MemoryJobStore.run exampleDigest leftoverCalls).jobs ∧
      ¬ Apart (requests scopedFirstEvents)
        (redisRun exampleDigest scopedFirstEvents).state.jobs ∧
      ¬ Apart (requests deletionFirstEvents)
        (redisRun exampleDigest deletionFirstEvents).state.jobs := by
  have runs : ∀ calls jobs, Call.createRebuildJob (legacyJob "l") ∈ calls →
      jobs.get? "l" = some (legacyJob "l") → LegacyRuns calls jobs "l" (legacyJob "l") :=
    fun calls jobs member stored => ⟨⟨_, member, rfl⟩, ⟨stored, by decide⟩, rfl⟩
  have rebuild : Call.createRebuildJob (exampleJob "r" "rebuild_index" "running" "a") ∈
      scopedFirstCalls := by simp [scopedFirstCalls]
  refine ⟨?_, ?_, ?_, ?_, ?_⟩
  · intro apart
    have compatible := apart "l" _ (runs _ _ (by simp [scopedFirstCalls]) (by decide +kernel))
      "r" (exampleJob "r" "rebuild_index" "running" "a") ⟨by decide +kernel, by decide⟩
    exact absurd (compatible.unscoped ⟨_, rebuild, rfl⟩) (by decide)
  · intro apart
    have compatible := apart "l" _ (runs _ _ (by simp [deletionFirstCalls]) (by decide +kernel))
      "d" (exampleJob "d" deleteType "running" "a") ⟨by decide +kernel, by decide⟩
    exact compatible.plain rfl
  · intro apart
    have compatible := apart "l" _ (runs _ _ (by simp [leftoverCalls]) (by decide +kernel))
      "s" (exampleJob "s" "rebuild_index" "running" "a") ⟨by decide +kernel, by decide⟩
    have asked : Call.createRebuildJob (exampleJob "s" "rebuild_index" "running" "a") ∈
        leftoverCalls := by simp [leftoverCalls]
    exact absurd (compatible.unscoped ⟨_, asked, rfl⟩) (by decide)
  · intro apart
    have compatible := apart "l" _ (runs _ _ (by simp [requests, scopedFirstEvents, Creation.call])
      (by decide +kernel)) "r" (exampleJob "r" "rebuild_index" "running" "a")
      ⟨by decide +kernel, by decide⟩
    exact absurd (compatible.unscoped ⟨_, rebuild, rfl⟩) (by decide)
  · intro apart
    have compatible := apart "l" _
      (runs _ _ (by simp [requests, deletionFirstEvents, Creation.call]) (by decide +kernel))
      "d" (exampleJob "d" deleteType "running" "a") ⟨by decide +kernel, by decide⟩
    exact compatible.plain rfl

end RAGuardian.Jobs
