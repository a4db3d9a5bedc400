import RAGuardian.Jobs.MemoryStore

/-! # Admission of jobs in a process

For every target one entry of a side map names the running job that was admitted
for it. The entries decide the admissions, so they must name a job for as long as
it runs. -/

namespace RAGuardian.Jobs

open Execution
open History (Timestamp)

/-! ## Entries that name running jobs -/

/-- Every watched job that is running is named by the entry of its key. -/
def Tracked (watched : String → Job → Prop) (key : Job → String)
    (active : Dictionary String String) (jobs : Dictionary String Job) : Prop :=
  ∀ id job, jobs.get? id = some job → watched id job → job.Running →
    active.get? (key job) = some id

namespace Tracked

variable {watched : String → Job → Prop} {key : Job → String}
  {active : Dictionary String String} {jobs : Dictionary String Job} {id : String} {job : Job}

/-- A job is replaced by a version of it that is watched and running only if it was. -/
theorem set {old : Job} (tracked : Tracked watched key active jobs)
    (stored : jobs.get? id = some old) (sameKey : key job = key old)
    (stillWatched : watched id job → watched id old) (stillRunning : job.Running → old.Running) :
    Tracked watched key active (jobs.set id job) := by
  intro other found present isWatched running
  by_cases same : other = id
  · subst same
    rw [Dictionary.get?_set_self] at present
    cases present
    rw [sameKey]
    exact tracked other old stored (stillWatched isWatched) (stillRunning running)
  · rw [Dictionary.get?_set_of_ne same] at present
    exact tracked other found present isWatched running

/-- A job that is not watched is added. -/
theorem add (tracked : Tracked watched key active jobs) (unwatched : ¬ watched id job) :
    Tracked watched key active (jobs.set id job) := by
  intro other found present isWatched running
  by_cases same : other = id
  · subst same
    rw [Dictionary.get?_set_self] at present
    cases present
    exact absurd isWatched unwatched
  · rw [Dictionary.get?_set_of_ne same] at present
    exact tracked other found present isWatched running

/-- A job is added and takes over the entry of its key, which named no running job. -/
theorem enroll (tracked : Tracked watched key active jobs)
    (free : ∀ other found, jobs.get? other = some found → watched other found →
      found.Running → key found ≠ key job) :
    Tracked watched key (active.set (key job) id) (jobs.set id job) := by
  intro other found present isWatched running
  by_cases same : other = id
  · subst same
    rw [Dictionary.get?_set_self] at present
    cases present
    rw [Dictionary.get?_set_self]
  · rw [Dictionary.get?_set_of_ne same] at present
    rw [Dictionary.get?_set_of_ne (free other found present isWatched running)]
    exact tracked other found present isWatched running

/-- The entry of a job that does not run is released. -/
theorem release (tracked : Tracked watched key active jobs) (entry : String)
    (stored : jobs.get? id = some job) (finished : ¬ job.Running) :
    Tracked watched key (MemoryJobStore.release entry id active) jobs := by
  intro other found present isWatched running
  have named := tracked other found present isWatched running
  rw [MemoryJobStore.release]
  split
  · rename_i names
    rw [Dictionary.get?_erase_of_ne]
    · exact named
    · intro same
      rw [same, names] at named
      cases named
      rw [stored] at present
      cases present
      exact finished running
  · exact named

/-- Jobs are dropped together with the entries that name them. -/
theorem clear (tracked : Tracked watched key active jobs) (selects : String → Job → Bool)
    {jobIds : List String}
    (cleared : ∀ other, other ∈ jobIds → (jobs.removeWhere selects).get? other = none) :
    Tracked watched key (active.removeWhere fun _ jobId => decide (jobId ∈ jobIds))
      (jobs.removeWhere selects) := by
  intro other found present isWatched running
  have stored := (Dictionary.get?_removeWhere.mp present).1
  apply Dictionary.get?_removeWhere.mpr
  constructor
  · exact tracked other found stored isWatched running
  · rw [decide_eq_false_iff_not]
    intro member
    rw [cleared other member] at present
    cases present

theorem mono (tracked : Tracked watched key active jobs)
    (wider : String → Job → Prop)
    (narrower : ∀ other found, jobs.get? other = some found → wider other found →
      watched other found) : Tracked wider key active jobs :=
  fun other found present isWatched =>
    tracked other found present (narrower other found present isWatched)

end Tracked

/-! ## What a run asked for -/

/-- The job a call asks to be created. -/
def Call.created : Call → Option Job
  | .createJob job => some job
  | .createRebuildJob job => some job
  | .createDataSourceSyncJob job => some job
  | .createDeleteJob job => some job
  | _ => none

def createdIds (calls : List Call) : List String :=
  (calls.filterMap Call.created).map (·.id)

/-- The job was asked for by a call of `create_rebuild_job`. -/
def RebuildRequested (calls : List Call) (id : String) : Prop :=
  ∃ job, Call.createRebuildJob job ∈ calls ∧ job.id = id

/-- The job was asked for by a call of `create_data_source_sync_job`. -/
def SyncRequested (calls : List Call) (id : String) : Prop :=
  ∃ job, Call.createDataSourceSyncJob job ∈ calls ∧ job.id = id

/-- A version of a job works on the same target. -/
structure SameTarget (before after : Job) : Prop where
  workspace : after.workspace = before.workspace
  knowledgeBase : after.knowledgeBase = before.knowledgeBase
  dataSource : after.dataSourceId = before.dataSourceId

/-- A job is stored and running. -/
def MemoryJobStore.Runs (store : MemoryJobStore) (id : String) (job : Job) : Prop :=
  store.jobs.get? id = some job ∧ job.Running

/-! ## The invariant -/

/-- How the jobs of a store, its entries and the calls so far belong together. -/
structure Admissions (digest : Digest) (calls : List Call) (store : MemoryJobStore) : Prop where
  created : ∀ id job, store.jobs.get? id = some job → id ∈ createdIds calls
  named : ∀ id job, store.jobs.get? id = some job → id ≠ ""
  deletes : Tracked (fun _ job => job.type = some deleteType) (knowledgeBaseKey digest)
    store.activeDeleteJobIds store.jobs
  rebuilds : Tracked (fun id _ => RebuildRequested calls id) (rebuildKey digest)
    store.activeRebuildJobIds store.jobs
  syncs : Tracked (fun id _ => SyncRequested calls id) (dataSourceSyncKey digest)
    store.activeDataSourceSyncJobIds store.jobs
  alone : ∀ id job other otherJob, store.Runs id job → job.type = some deleteType →
    store.Runs other otherJob → SameKnowledgeBase otherJob job → other = id

section

variable {digest : Digest} {calls : List Call} {store : MemoryJobStore} {call : Call}
  {first second job : Job}

theorem knowledgeBaseKey_congr (same : SameKnowledgeBase first second) :
    knowledgeBaseKey digest first = knowledgeBaseKey digest second := by
  rw [knowledgeBaseKey, knowledgeBaseKey, same.2.1, same.2.2]

theorem rebuildKey_congr (same : SameKnowledgeBase first second) :
    rebuildKey digest first = rebuildKey digest second := by
  rw [rebuildKey, rebuildKey, same.2.1, same.2.2]

theorem dataSourceSyncKey_congr (same : SameKnowledgeBase first second)
    (source : first.dataSourceId = second.dataSourceId) :
    dataSourceSyncKey digest first = dataSourceSyncKey digest second := by
  rw [dataSourceSyncKey, dataSourceSyncKey, same.2.1, same.2.2, source]

theorem runningJob_some {activeId : Option String} {found : Job} :
    store.runningJob activeId = some found ↔
      ∃ id, activeId = some id ∧ id ≠ "" ∧ store.Runs id found := by
  cases activeId with
  | none => simp [MemoryJobStore.runningJob]
  | some id =>
      by_cases unnamed : id = ""
      · simp [MemoryJobStore.runningJob, unnamed]
      · simp [MemoryJobStore.runningJob, MemoryJobStore.Runs, unnamed,
          Option.filter_eq_some_iff]

theorem createdIds_append (calls : List Call) (call : Call) :
    createdIds (calls ++ [call]) = createdIds calls ++ (call.created.map (·.id)).toList := by
  rw [createdIds, createdIds, List.filterMap_append, List.map_append]
  cases created : call.created <;> simp [created]

theorem RebuildRequested.created {id : String} (requested : RebuildRequested calls id) :
    id ∈ createdIds calls := by
  rcases requested with ⟨job, member, rfl⟩
  exact List.mem_map_of_mem (List.mem_filterMap.mpr ⟨_, member, rfl⟩)

theorem SyncRequested.created {id : String} (requested : SyncRequested calls id) :
    id ∈ createdIds calls := by
  rcases requested with ⟨job, member, rfl⟩
  exact List.mem_map_of_mem (List.mem_filterMap.mpr ⟨_, member, rfl⟩)

/-- The entry of a running deletion leads to it. -/
theorem Admissions.delete_found (admissions : Admissions digest calls store) {id : String}
    {found : Job} (runs : store.Runs id found) (deletes : found.type = some deleteType) :
    store.activeDeleteJobIds.get? (knowledgeBaseKey digest found) = some id ∧
      store.runningJob (some id) = some found := by
  exact ⟨admissions.deletes id found runs.1 deletes runs.2,
    runningJob_some.mpr ⟨id, rfl, admissions.named id found runs.1, runs⟩⟩

theorem Admissions.with_entries (admissions : Admissions digest calls store)
    {entries : Dictionary String String}
    (deletes : Tracked (fun _ job => job.type = some deleteType) (knowledgeBaseKey digest)
      entries store.jobs) :
    Admissions digest calls { store with activeDeleteJobIds := entries } :=
  ⟨admissions.created, admissions.named, deletes, admissions.rebuilds, admissions.syncs,
    admissions.alone⟩

/-- What `_active_delete_unlocked` finds: a running deletion, or that there is none
for the target, after the entry of a finished one is dropped. -/
inductive DeleteLookup (digest : Digest) (calls : List Call) (store : MemoryJobStore)
    (job : Job) : String × MemoryJobStore → Prop
  | found (id : String) (named : id ≠ "") : DeleteLookup digest calls store job (id, store)
  | free (entries : Dictionary String String)
      (admissions : Admissions digest calls { store with activeDeleteJobIds := entries })
      (absent : ∀ id found, store.Runs id found → found.type = some deleteType →
        knowledgeBaseKey digest found ≠ knowledgeBaseKey digest job) :
      DeleteLookup digest calls store job ("", { store with activeDeleteJobIds := entries })

theorem Admissions.activeDelete (admissions : Admissions digest calls store) (job : Job) :
    DeleteLookup digest calls store job (store.activeDeleteUnlocked digest job) := by
  rw [MemoryJobStore.activeDeleteUnlocked]
  cases running : store.runningJob
      (store.activeDeleteJobIds.get? (knowledgeBaseKey digest job)) with
  | some found =>
      rcases runningJob_some.mp running with ⟨id, entry, named, _⟩
      rw [entry]
      exact .found id named
  | none =>
      have absent : ∀ id found, store.Runs id found → found.type = some deleteType →
          knowledgeBaseKey digest found ≠ knowledgeBaseKey digest job := by
        intro id found runs deletes sameKey
        rcases admissions.delete_found runs deletes with ⟨entry, finds⟩
        rw [← sameKey, entry, finds] at running
        cases running
      have unfound : store.jobs.entries.find?
          (fun entry => decide (entry.2.type = some deleteType ∧ entry.2.Running ∧
            SameKnowledgeBase entry.2 job)) = none := by
        rw [List.find?_eq_none]
        intro entry member selected
        have selected := of_decide_eq_true selected
        exact absent entry.1 entry.2 ⟨Dictionary.get?_eq_some.mpr member, selected.2.1⟩
          selected.1 (knowledgeBaseKey_congr selected.2.2)
      by_cases stale :
          (store.activeDeleteJobIds.get? (knowledgeBaseKey digest job)).getD "" = ""
      · simp only [if_pos stale, unfound]
        exact .free _ admissions absent
      · simp only [if_neg stale, unfound]
        apply DeleteLookup.free _ (admissions.with_entries _) absent
        intro id found present deletes runs
        have named := admissions.deletes id found present deletes runs
        rw [Dictionary.get?_erase_of_ne]
        · exact named
        · intro same
          rw [same] at named
          rw [named, runningJob_some.mpr
            ⟨id, rfl, admissions.named id found present, present, runs⟩] at running
          cases running

/-! ## Admissions -/

/-- A job is added for a target without a running deletion. -/
theorem Admissions.add (admissions : Admissions digest calls store) (original job : Job)
    {after : MemoryJobStore} (created : call.created = some original)
    (identified : job.id = original.id) (named : original.id ≠ "")
    (jobs : after.jobs = store.jobs.set job.id job)
    (deletes : Tracked (fun _ job => job.type = some deleteType) (knowledgeBaseKey digest)
      after.activeDeleteJobIds after.jobs)
    (rebuilds : Tracked (fun id _ => RebuildRequested (calls ++ [call]) id)
      (rebuildKey digest) after.activeRebuildJobIds after.jobs)
    (syncs : Tracked (fun id _ => SyncRequested (calls ++ [call]) id)
      (dataSourceSyncKey digest) after.activeDataSourceSyncJobIds after.jobs)
    (absent : ∀ id found, store.Runs id found → found.type = some deleteType →
      knowledgeBaseKey digest found ≠ knowledgeBaseKey digest job)
    (idle : job.type = some deleteType → ∀ id found, store.Runs id found →
      ¬ SameKnowledgeBase found job) :
    Admissions digest (calls ++ [call]) after := by
  have origin : ∀ id found, after.jobs.get? id = some found →
      id = job.id ∧ found = job ∨ id ≠ job.id ∧ store.jobs.get? id = some found := by
    intro id found present
    rw [jobs, Dictionary.get?_set] at present
    split at present
    · rename_i same
      exact .inl ⟨same, (Option.some.inj present).symm⟩
    · rename_i different
      exact .inr ⟨different, present⟩
  constructor
  · intro id found present
    rw [createdIds_append, List.mem_append]
    rcases origin id found present with ⟨same, _⟩ | ⟨_, old⟩
    · right
      simp [created, same, identified]
    · exact .inl (admissions.created id found old)
  · intro id found present
    rcases origin id found present with ⟨same, _⟩ | ⟨_, old⟩
    · rw [same, identified]
      exact named
    · exact admissions.named id found old
  · exact deletes
  · exact rebuilds
  · exact syncs
  · intro id found other otherFound runs isDelete otherRuns same
    rcases origin id found runs.1 with ⟨same₁, equal₁⟩ | ⟨_, old⟩
    · rcases origin other otherFound otherRuns.1 with ⟨same₂, _⟩ | ⟨_, otherOld⟩
      · rw [same₁, same₂]
      · rw [equal₁] at isDelete same
        exact absurd same (idle isDelete other otherFound ⟨otherOld, otherRuns.2⟩)
    · rcases origin other otherFound otherRuns.1 with ⟨_, equal₂⟩ | ⟨_, otherOld⟩
      · rw [equal₂] at same
        exact absurd (knowledgeBaseKey_congr same).symm (absent id found ⟨old, runs.2⟩ isDelete)
      · exact admissions.alone id found other otherFound ⟨old, runs.2⟩ isDelete
          ⟨otherOld, otherRuns.2⟩ same

/-- A call asks for an id that no call has asked for before. -/
def Fresh (calls : List Call) (call : Call) : Prop :=
  ∀ original, call.created = some original → original.id ∉ createdIds calls

theorem RebuildRequested.earlier {id : String} (fresh : Fresh calls call)
    (requested : RebuildRequested (calls ++ [call]) id) (stored : id ∈ createdIds calls) :
    RebuildRequested calls id := by
  rcases requested with ⟨original, member, rfl⟩
  rcases List.mem_append.mp member with old | new
  · exact ⟨original, old, rfl⟩
  · rw [← List.mem_singleton.mp new] at fresh
    exact absurd stored (fresh original rfl)

theorem SyncRequested.earlier {id : String} (fresh : Fresh calls call)
    (requested : SyncRequested (calls ++ [call]) id) (stored : id ∈ createdIds calls) :
    SyncRequested calls id := by
  rcases requested with ⟨original, member, rfl⟩
  rcases List.mem_append.mp member with old | new
  · exact ⟨original, old, rfl⟩
  · rw [← List.mem_singleton.mp new] at fresh
    exact absurd stored (fresh original rfl)

/-- A call that leaves the jobs alone. -/
theorem Admissions.grow (admissions : Admissions digest calls store)
    (fresh : Fresh calls call) : Admissions digest (calls ++ [call]) store := by
  have rebuilds := admissions.rebuilds.mono
    (fun id _ => RebuildRequested (calls ++ [call]) id) fun id found present requested =>
      requested.earlier fresh (admissions.created id found present)
  have syncs := admissions.syncs.mono
    (fun id _ => SyncRequested (calls ++ [call]) id) fun id found present requested =>
      requested.earlier fresh (admissions.created id found present)
  apply Admissions.mk _ admissions.named admissions.deletes rebuilds syncs admissions.alone
  intro id found present
  rw [createdIds_append]
  exact List.mem_append_left _ (admissions.created id found present)

theorem not_rebuildRequested {original : Job} {id : String} (fresh : Fresh calls call)
    (created : call.created = some original) (other : ∀ job, call ≠ .createRebuildJob job)
    (identified : original.id = id) : ¬ RebuildRequested (calls ++ [call]) id := by
  subst identified
  intro ⟨requested, member, same⟩
  rcases List.mem_append.mp member with old | new
  · exact fresh original created (same ▸ RebuildRequested.created ⟨requested, old, rfl⟩)
  · exact other requested (List.mem_singleton.mp new).symm

theorem not_syncRequested {original : Job} {id : String} (fresh : Fresh calls call)
    (created : call.created = some original)
    (other : ∀ job, call ≠ .createDataSourceSyncJob job) (identified : original.id = id) :
    ¬ SyncRequested (calls ++ [call]) id := by
  subst identified
  intro ⟨requested, member, same⟩
  rcases List.mem_append.mp member with old | new
  · exact fresh original created (same ▸ SyncRequested.created ⟨requested, old, rfl⟩)
  · exact other requested (List.mem_singleton.mp new).symm

theorem Admissions.createRebuildJob (admissions : Admissions digest calls store)
    (fresh : Fresh calls (.createRebuildJob job)) (named : job.id ≠ "") (typed : job.type ≠ some deleteType) :
    Admissions digest (calls ++ [.createRebuildJob job])
      (store.createRebuildJob digest job).2 := by
  rw [MemoryJobStore.createRebuildJob]
  have lookup := admissions.activeDelete job
  generalize store.activeDeleteUnlocked digest job = result at lookup
  cases lookup with
  | found id idNamed =>
      simp only [if_pos idNamed]
      exact admissions.grow fresh
  | free entries admissions absent =>
      have grown := admissions.grow fresh
      simp only [ne_eq, not_true_eq_false, if_false]
      split
      · exact grown
      · rename_i free
        have untyped : job.type.or (some "rebuild_index") ≠ some deleteType := by
          cases type : job.type with
          | none => decide
          | some type => simpa [type] using typed
        apply admissions.add job { job with type := job.type.or (some "rebuild_index") } rfl rfl
          named rfl
        · exact grown.deletes.add untyped
        · apply grown.rebuilds.enroll
          intro other found present requested running sameKey
          have entry := grown.rebuilds other found present requested running
          rw [sameKey] at entry
          change store.activeRebuildJobIds.get? (rebuildKey digest job) = some other at entry
          have otherNamed := grown.named other found present
          have finds := runningJob_some.mpr ⟨other, rfl, otherNamed, present, running⟩
          rw [entry, Option.getD_some, if_neg (by simp [otherNamed]), finds] at free
          cases free
        · exact grown.syncs.add (not_syncRequested fresh rfl (by rintro _ ⟨⟩) rfl)
        · exact absent
        · intro isDelete
          exact absurd isDelete untyped

theorem Admissions.createDataSourceSyncJob (admissions : Admissions digest calls store)
    (fresh : Fresh calls (.createDataSourceSyncJob job)) (named : job.id ≠ "") (typed : job.type ≠ some deleteType) :
    Admissions digest (calls ++ [.createDataSourceSyncJob job])
      (store.createDataSourceSyncJob digest job).2 := by
  rw [MemoryJobStore.createDataSourceSyncJob]
  have lookup := admissions.activeDelete job
  generalize store.activeDeleteUnlocked digest job = result at lookup
  cases lookup with
  | found id idNamed =>
      simp only [if_pos idNamed]
      exact admissions.grow fresh
  | free entries admissions absent =>
      have grown := admissions.grow fresh
      simp only [ne_eq, not_true_eq_false, if_false]
      split
      · exact grown
      · rename_i free
        apply admissions.add job job rfl rfl named rfl
        · exact grown.deletes.add typed
        · exact grown.rebuilds.add (not_rebuildRequested fresh rfl (by rintro _ ⟨⟩) rfl)
        · apply grown.syncs.enroll
          intro other found present requested running sameKey
          have entry := grown.syncs other found present requested running
          rw [sameKey] at entry
          have finds := runningJob_some.mpr
            ⟨other, entry, grown.named other found present, present, running⟩
          cases free.symm.trans finds
        · exact absent
        · intro isDelete
          exact absurd isDelete typed

theorem Admissions.createDeleteJob (admissions : Admissions digest calls store)
    (asks : call.created = some job)
    (plain : (∀ job, call ≠ .createRebuildJob job) ∧ ∀ job, call ≠ .createDataSourceSyncJob job)
    (fresh : Fresh calls call) (named : job.id ≠ "") :
    Admissions digest (calls ++ [call]) (store.createDeleteJob digest job).2 := by
  rw [MemoryJobStore.createDeleteJob]
  by_cases keyless : knowledgeBaseKey digest job = ""
  · simp only [if_pos keyless]
    exact admissions.grow fresh
  · simp only [if_neg keyless]
    have lookup := admissions.activeDelete job
    generalize store.activeDeleteUnlocked digest job = result at lookup
    cases lookup with
    | found id idNamed =>
        simp only [if_pos idNamed]
        split
        · exact admissions.grow fresh
        · exact admissions.grow fresh
    | free entries admissions absent =>
        have grown := admissions.grow fresh
        simp only [ne_eq, not_true_eq_false, if_false]
        split
        · exact grown
        · split
          · exact grown
          · rename_i idle
            have nobody : ∀ id found, store.Runs id found → ¬ SameKnowledgeBase found job := by
              intro id found runs same
              have member : found ∈ MemoryJobStore.activeJobsForTargetUnlocked job
                  { store with activeDeleteJobIds := entries } := by
                rw [MemoryJobStore.activeJobsForTargetUnlocked, List.mem_filter, List.mem_map]
                exact ⟨⟨_, Dictionary.get?_eq_some.mp runs.1, rfl⟩,
                  decide_eq_true ⟨runs.2, same⟩⟩
              rw [idle] at member
              cases member
            apply admissions.add job { job with type := some deleteType } asks rfl named rfl
            · apply grown.deletes.enroll
              intro other found present deletes running
              exact absent other found ⟨present, running⟩ deletes
            · exact grown.rebuilds.add (not_rebuildRequested fresh asks plain.1 rfl)
            · exact grown.syncs.add (not_syncRequested fresh asks plain.2 rfl)
            · exact absent
            · intro _
              exact nobody

theorem Admissions.createJob (admissions : Admissions digest calls store)
    (fresh : Fresh calls (.createJob job)) (named : job.id ≠ "") :
    Admissions digest (calls ++ [.createJob job]) (store.createJob digest job).2 := by
  rw [MemoryJobStore.createJob]
  by_cases deletes : job.type = some deleteType
  · rw [if_pos deletes]
    exact admissions.createDeleteJob rfl ⟨fun _ => nofun, fun _ => nofun⟩ fresh named
  · rw [if_neg deletes]
    have lookup := admissions.activeDelete job
    generalize store.activeDeleteUnlocked digest job = result at lookup
    cases lookup with
    | found id idNamed =>
        simp only [if_pos idNamed]
        exact admissions.grow fresh
    | free entries admissions absent =>
        have grown := admissions.grow fresh
        simp only [ne_eq, not_true_eq_false, if_false]
        apply admissions.add job job rfl rfl named rfl
        · exact grown.deletes.add deletes
        · exact grown.rebuilds.add (not_rebuildRequested fresh rfl (fun _ => nofun) rfl)
        · exact grown.syncs.add (not_syncRequested fresh rfl (fun _ => nofun) rfl)
        · exact absent
        · intro isDelete
          exact absurd isDelete deletes

/-! ## Changes of stored jobs -/

/-- A stored job is replaced by a version of it on the same target. -/
theorem Admissions.change (admissions : Admissions digest calls store) {id : String}
    {old : Job} (stored : store.jobs.get? id = some old) (target : SameTarget old job)
    (deletion : job.type = some deleteType → old.type = some deleteType)
    (running : job.Running → old.Running) :
    Admissions digest calls { store with jobs := store.jobs.set id job } := by
  have origin : ∀ other found, (store.jobs.set id job).get? other = some found →
      ∃ before, store.jobs.get? other = some before ∧ SameTarget before found ∧
        (found.type = some deleteType → before.type = some deleteType) ∧
        (found.Running → before.Running) := by
    intro other found present
    rw [Dictionary.get?_set] at present
    split at present
    · rename_i same
      cases present
      rw [same]
      exact ⟨old, stored, target, deletion, running⟩
    · exact ⟨found, present, ⟨rfl, rfl, rfl⟩, fun deletes => deletes, fun runs => runs⟩
  have sameBase : knowledgeBaseKey digest job = knowledgeBaseKey digest old := by
    rw [knowledgeBaseKey, knowledgeBaseKey, target.workspace, target.knowledgeBase]
  have sameRebuild : rebuildKey digest job = rebuildKey digest old := by
    rw [rebuildKey, rebuildKey, target.workspace, target.knowledgeBase]
  have sameSync : dataSourceSyncKey digest job = dataSourceSyncKey digest old := by
    rw [dataSourceSyncKey, dataSourceSyncKey, target.workspace, target.knowledgeBase,
      target.dataSource]
  constructor
  · intro other found present
    rcases origin other found present with ⟨before, found, _⟩
    exact admissions.created other before found
  · intro other found present
    rcases origin other found present with ⟨before, earlier, _⟩
    exact admissions.named other before earlier
  · exact admissions.deletes.set stored sameBase deletion running
  · exact admissions.rebuilds.set stored sameRebuild (fun requested => requested) running
  · exact admissions.syncs.set stored sameSync (fun requested => requested) running
  · intro first firstJob second secondJob firstRuns deletes secondRuns same
    rcases origin first firstJob firstRuns.1 with
      ⟨firstOld, firstStored, firstTarget, firstDeletes, firstRunning⟩
    rcases origin second secondJob secondRuns.1 with
      ⟨secondOld, secondStored, secondTarget, _, secondRunning⟩
    apply admissions.alone first firstOld second secondOld
      ⟨firstStored, firstRunning firstRuns.2⟩ (firstDeletes deletes)
      ⟨secondStored, secondRunning secondRuns.2⟩
    rw [SameKnowledgeBase, ← firstTarget.workspace, ← firstTarget.knowledgeBase,
      ← secondTarget.workspace, ← secondTarget.knowledgeBase]
    exact same

theorem Admissions.finish (admissions : Admissions digest calls store) (now : Timestamp)
    (id status message : String) (finishes : status ∉ runningJobStatuses) :
    Admissions digest calls (store.finish digest now id status message) := by
  rw [MemoryJobStore.finish]
  cases stored : store.jobs.get? id with
  | none => exact admissions
  | some old =>
      have idle : ¬ (old.finish now status message).Running := finishes
      have changed : Admissions digest calls
          { store with jobs := store.jobs.set id (old.finish now status message) } :=
        admissions.change stored ⟨rfl, rfl, rfl⟩ (fun deletes => deletes)
          (fun runs => absurd runs idle)
      have present : (store.jobs.set id (old.finish now status message)).get? id =
          some (old.finish now status message) := Dictionary.get?_set_self _ _ _
      have released : ∀ (chosen : Prop) [Decidable chosen] {watched : String → Job → Prop}
          {key : Job → String} {active : Dictionary String String} (entry : String),
          Tracked watched key active (store.jobs.set id (old.finish now status message)) →
          Tracked watched key
            (if chosen then MemoryJobStore.release entry id active else active)
            (store.jobs.set id (old.finish now status message)) := by
        intro chosen _ watched key active entry tracked
        split
        · exact tracked.release entry present idle
        · exact tracked
      have deletes := released (old.type = some deleteType)
        (knowledgeBaseKey digest (old.finish now status message)) changed.deletes
      have rebuilds := released (old.type = some "rebuild" ∨ old.type = some "rebuild_index")
        (rebuildKey digest (old.finish now status message)) changed.rebuilds
      have syncs := released (old.type = some "data_source_sync")
        (dataSourceSyncKey digest (old.finish now status message)) changed.syncs
      exact ⟨changed.created, changed.named, deletes, rebuilds, syncs, changed.alone⟩

theorem Admissions.clearWhere (admissions : Admissions digest calls store)
    (selects : String → Job → Bool) : Admissions digest calls (store.clearWhere selects).2 := by
  have stored : ∀ id found, (store.jobs.removeWhere selects).get? id = some found →
      store.jobs.get? id = some found :=
    fun id found present => (Dictionary.get?_removeWhere.mp present).1
  have cleared : ∀ other, other ∈ (store.jobs.entries.filter fun entry =>
      selects entry.1 entry.2).map Prod.fst →
      (store.jobs.removeWhere selects).get? other = none := by
    intro other member
    rcases List.mem_map.mp member with ⟨entry, selected, rfl⟩
    rcases List.mem_filter.mp selected with ⟨inside, holds⟩
    rw [Option.eq_none_iff_forall_ne_some]
    intro found present
    have spared := Dictionary.get?_removeWhere.mp present
    rw [Dictionary.get?_eq_some.mpr inside] at spared
    cases spared.1
    rw [holds] at spared
    cases spared.2
  rw [MemoryJobStore.clearWhere]
  constructor
  · intro id found present
    exact admissions.created id found (stored id found present)
  · intro id found present
    exact admissions.named id found (stored id found present)
  · exact admissions.deletes.clear selects cleared
  · exact admissions.rebuilds.clear selects cleared
  · exact admissions.syncs.clear selects cleared
  · intro id found other otherFound runs deletes otherRuns same
    exact admissions.alone id found other otherFound ⟨stored id found runs.1, runs.2⟩ deletes
      ⟨stored other otherFound otherRuns.1, otherRuns.2⟩ same

theorem Admissions.empty : Admissions digest calls .empty := by
  have absent : ∀ id job, MemoryJobStore.empty.jobs.get? id ≠ some job := by
    intro id job present
    cases present
  constructor
  · exact fun id job present => absurd present (absent id job)
  · exact fun id job present => absurd present (absent id job)
  · exact fun id job present => absurd present (absent id job)
  · exact fun id job present => absurd present (absent id job)
  · exact fun id job present => absurd present (absent id job)
  · exact fun id job _ _ runs => absurd runs.1 (absent id job)

end

end RAGuardian.Jobs
