import RAGuardian.Jobs.Exclusion

/-! # Legacy rebuilds in the job store of a process

A rebuild without a workspace works on every index, so nothing else that writes an
index may run beside it. Every admission looks for a running legacy rebuild, but
the admission of a legacy rebuild looks for another legacy rebuild only. -/

namespace RAGuardian.Jobs

open Execution

/-! ## What the creating calls do to the jobs -/

section

variable {digest : Digest} {store : MemoryJobStore} {job : Job}

theorem activeDeleteUnlocked_frame (digest : Digest) (job : Job) (store : MemoryJobStore) :
    (store.activeDeleteUnlocked digest job).2.jobs = store.jobs ∧
      (store.activeDeleteUnlocked digest job).2.activeRebuildJobIds =
        store.activeRebuildJobIds := by
  rw [MemoryJobStore.activeDeleteUnlocked]
  dsimp only
  split
  · exact ⟨rfl, rfl⟩
  · by_cases stale : (store.activeDeleteJobIds.get? (knowledgeBaseKey digest job)).getD "" = ""
    · simp only [if_pos stale]
      split
      · exact ⟨rfl, rfl⟩
      · exact ⟨rfl, rfl⟩
    · simp only [if_neg stale]
      split
      · exact ⟨rfl, rfl⟩
      · exact ⟨rfl, rfl⟩

theorem runningJob_frame {after : MemoryJobStore} (jobs : after.jobs = store.jobs)
    (activeId : Option String) : after.runningJob activeId = store.runningJob activeId := by
  cases activeId with
  | none => rfl
  | some activeId => simp only [MemoryJobStore.runningJob, jobs]

/-- The id `create_rebuild_job` looks at. -/
def consultedId (digest : Digest) (job : Job) (store : MemoryJobStore) : Option String :=
  let key := rebuildKey digest job
  let activeId := store.activeRebuildJobIds.get? key
  if key ≠ "legacy" ∧ activeId.getD "" = "" then store.activeRebuildJobIds.get? "legacy"
  else activeId

/-- `create_rebuild_job` refuses the job, or adds it if the id it looks at is not of a
running job. -/
theorem createRebuildJob_cases (digest : Digest) (job : Job) (store : MemoryJobStore) :
    ((∃ conflict, (store.createRebuildJob digest job).1 = .conflict conflict) ∧
        (store.createRebuildJob digest job).2.jobs = store.jobs) ∨
      store.runningJob (consultedId digest job store) = none ∧
        (store.createRebuildJob digest job).2.jobs =
          store.jobs.set job.id { job with type := job.type.or (some "rebuild_index") } := by
  rw [MemoryJobStore.createRebuildJob]
  have frame := activeDeleteUnlocked_frame digest job store
  generalize store.activeDeleteUnlocked digest job = result at frame
  rcases result with ⟨deleteId, after⟩
  rcases frame with ⟨jobs, entries⟩
  dsimp only at jobs entries ⊢
  split
  · exact .inl ⟨⟨_, rfl⟩, jobs⟩
  · rw [entries]
    split
    · exact .inl ⟨⟨_, rfl⟩, jobs⟩
    · rename_i free
      rw [runningJob_frame jobs] at free
      right
      constructor
      · exact free
      · rw [MemoryJobStore.enroll, jobs]

/-- `create_data_source_sync_job` refuses the job or adds it. -/
theorem createDataSourceSyncJob_cases (digest : Digest) (job : Job) (store : MemoryJobStore) :
    (store.createDataSourceSyncJob digest job).2.jobs = store.jobs ∨
      (store.createDataSourceSyncJob digest job).2.jobs = store.jobs.set job.id job := by
  rw [MemoryJobStore.createDataSourceSyncJob]
  have frame := activeDeleteUnlocked_frame digest job store
  generalize store.activeDeleteUnlocked digest job = result at frame
  rcases result with ⟨deleteId, after⟩
  dsimp only at frame ⊢
  split
  · exact .inl frame.1
  · split
    · exact .inl frame.1
    · rw [MemoryJobStore.enroll, frame.1]
      exact .inr rfl

/-- `create_delete_job` adds no job, or adds a deletion while no legacy rebuild is
named. -/
theorem createDeleteJob_cases (digest : Digest) (job : Job) (store : MemoryJobStore) :
    (store.createDeleteJob digest job).2.jobs = store.jobs ∨
      store.runningJob (store.activeRebuildJobIds.get? "legacy") = none ∧
        (store.createDeleteJob digest job).2.jobs =
          store.jobs.set job.id { job with type := some deleteType } := by
  rw [MemoryJobStore.createDeleteJob]
  have frame := activeDeleteUnlocked_frame digest job store
  generalize store.activeDeleteUnlocked digest job = result at frame
  rcases result with ⟨deleteId, after⟩
  rcases frame with ⟨jobs, entries⟩
  dsimp only at jobs entries ⊢
  split
  · exact .inl rfl
  · split
    · split
      · exact .inl jobs
      · exact .inl jobs
    · rw [entries]
      split
      · exact .inl jobs
      · rename_i free
        rw [runningJob_frame jobs] at free
        split
        · exact .inl jobs
        · rw [MemoryJobStore.enroll, jobs]
          exact .inr ⟨free, rfl⟩

/-- `create_job` adds a deletion as `create_delete_job` does, and any other job
unless it is refused. -/
theorem createJob_cases (digest : Digest) (job : Job) (store : MemoryJobStore) :
    (store.createJob digest job).2.jobs = store.jobs ∨
      job.type ≠ some deleteType ∧
        (store.createJob digest job).2.jobs = store.jobs.set job.id job ∨
      store.runningJob (store.activeRebuildJobIds.get? "legacy") = none ∧
        (store.createJob digest job).2.jobs =
          store.jobs.set job.id { job with type := some deleteType } := by
  rw [MemoryJobStore.createJob]
  split
  · rcases createDeleteJob_cases digest job store with same | added
    · exact .inl same
    · exact .inr (.inr added)
  · rename_i plain
    have frame := activeDeleteUnlocked_frame digest job store
    generalize store.activeDeleteUnlocked digest job = result at frame
    rcases result with ⟨deleteId, after⟩
    dsimp only at frame ⊢
    split
    · exact .inl frame.1
    · rw [MemoryJobStore.enroll, frame.1]
      exact .inr (.inl ⟨plain, rfl⟩)

end

/-! ## Jobs that run beside a legacy rebuild -/

/-- A job of the table is running. -/
def RunsIn (jobs : Dictionary String Job) (id : String) (job : Job) : Prop :=
  jobs.get? id = some job ∧ job.Running

/-- A legacy rebuild that is running. -/
structure LegacyRuns (calls : List Call) (jobs : Dictionary String Job) (id : String)
    (legacy : Job) : Prop where
  requested : RebuildRequested calls id
  runs : RunsIn jobs id legacy
  unplaced : legacy.workspace = ""

/-- A job that may run beside a legacy rebuild: no deletion and no scoped rebuild. -/
structure Compatible (calls : List Call) (id : String) (job : Job) : Prop where
  plain : job.type ≠ some deleteType
  unscoped : RebuildRequested calls id → job.workspace = ""

/-- A running legacy rebuild has only compatible jobs running beside it. -/
def Apart (calls : List Call) (jobs : Dictionary String Job) : Prop :=
  ∀ id legacy, LegacyRuns calls jobs id legacy →
    ∀ other job, RunsIn jobs other job → Compatible calls other job

/-- All jobs were asked for by one of the calls. -/
def Created (calls : List Call) (jobs : Dictionary String Job) : Prop :=
  ∀ id job, jobs.get? id = some job → id ∈ createdIds calls

section

variable {calls : List Call} {jobs : Dictionary String Job} {call : Call} {job : Job}
  {id : String}

theorem Compatible.grow (created : Created calls jobs) (fresh : Fresh calls call)
    (runs : RunsIn jobs id job) (compatible : Compatible calls id job) :
    Compatible (calls ++ [call]) id job where
  plain := compatible.plain
  unscoped requested :=
    compatible.unscoped (requested.earlier fresh (created id job runs.1))

theorem LegacyRuns.shrink (created : Created calls jobs) (fresh : Fresh calls call)
    (running : LegacyRuns (calls ++ [call]) jobs id job) : LegacyRuns calls jobs id job where
  requested := running.requested.earlier fresh (created id job running.runs.1)
  runs := running.runs
  unplaced := running.unplaced

/-- No running job is new, and none has moved to a workspace or become a deletion. -/
theorem Apart.keep (apart : Apart calls jobs) {after : Dictionary String Job}
    (origin : ∀ id job, RunsIn after id job → ∃ old, RunsIn jobs id old ∧
      job.workspace = old.workspace ∧
      (job.type = some deleteType → old.type = some deleteType)) :
    Apart calls after := by
  intro id legacy running other job runs
  rcases origin id legacy running.runs with ⟨oldLegacy, legacyRuns, legacyPlace, _⟩
  rcases origin other job runs with ⟨old, oldRuns, place, deletion⟩
  have before : LegacyRuns calls jobs id oldLegacy :=
    ⟨running.requested, legacyRuns, legacyPlace.symm.trans running.unplaced⟩
  have compatible := apart id oldLegacy before other old oldRuns
  constructor
  · exact fun isDelete => compatible.plain (deletion isDelete)
  · exact fun requested => place.trans (compatible.unscoped requested)

/-- A call that adds no job. -/
theorem Apart.grow (apart : Apart calls jobs) (created : Created calls jobs)
    (fresh : Fresh calls call) : Apart (calls ++ [call]) jobs := by
  intro id legacy running other job runs
  exact (apart id legacy (running.shrink created fresh) other job runs).grow created fresh runs

/-- Some jobs are dropped. -/
theorem Apart.drop (apart : Apart calls jobs) {after : Dictionary String Job}
    (dropped : ∀ id job, after.get? id = some job → jobs.get? id = some job) :
    Apart calls after := by
  apply apart.keep
  intro id job runs
  exact ⟨job, ⟨dropped id job runs.1, runs.2⟩, rfl, fun isDelete => isDelete⟩

/-- A job is replaced by a version of it. -/
theorem Apart.change (apart : Apart calls jobs) {old : Job} (stored : jobs.get? id = some old)
    (new : Job) (place : new.workspace = old.workspace)
    (deletion : new.type = some deleteType → old.type = some deleteType)
    (running : new.Running → old.Running) : Apart calls (jobs.set id new) := by
  apply apart.keep
  intro other found runs
  have present := runs.1
  rw [Dictionary.get?_set] at present
  split at present
  · rename_i same
    cases present
    rw [← same] at stored
    exact ⟨old, ⟨stored, running runs.2⟩, place, deletion⟩
  · exact ⟨found, ⟨present, runs.2⟩, rfl, fun isDelete => isDelete⟩

/-- A call adds a job. -/
theorem Apart.add (apart : Apart calls jobs) (created : Created calls jobs)
    (fresh : Fresh calls call)
    (beside : (∃ other legacy, LegacyRuns calls jobs other legacy) →
      Compatible (calls ++ [call]) id job)
    (unplaced : RebuildRequested (calls ++ [call]) id → job.workspace = "" →
      Compatible (calls ++ [call]) id job ∧
        ∀ other found, RunsIn jobs other found → Compatible calls other found) :
    Apart (calls ++ [call]) (jobs.set id job) := by
  have origin : ∀ other found, RunsIn (jobs.set id job) other found →
      other = id ∧ found = job ∨ RunsIn jobs other found := by
    intro other found runs
    have present := runs.1
    rw [Dictionary.get?_set] at present
    split at present
    · rename_i same
      exact .inl ⟨same, (Option.some.inj present).symm⟩
    · exact .inr ⟨present, runs.2⟩
  intro legacyId legacy running other found runs
  rcases origin legacyId legacy running.runs with ⟨sameId, sameJob⟩ | legacyOld
  · subst sameId sameJob
    rcases unplaced running.requested running.unplaced with ⟨self, others⟩
    rcases origin other found runs with ⟨sameId, sameJob⟩ | old
    · rw [sameId, sameJob]
      exact self
    · exact (others other found old).grow created fresh old
  · have before : LegacyRuns (calls ++ [call]) jobs legacyId legacy :=
      ⟨running.requested, legacyOld, running.unplaced⟩
    have earlier := before.shrink created fresh
    rcases origin other found runs with ⟨sameId, sameJob⟩ | old
    · rw [sameId, sameJob]
      exact beside ⟨legacyId, legacy, earlier⟩
    · exact (apart legacyId legacy earlier other found old).grow created fresh old

/-- A job asked for by another call than `create_rebuild_job` runs beside a legacy
rebuild unless it deletes. -/
theorem Apart.add_plain (apart : Apart calls jobs) (created : Created calls jobs)
    (fresh : Fresh calls call) {original : Job} (asked : call.created = some original)
    (identified : original.id = id) (other : ∀ job, call ≠ .createRebuildJob job)
    (plain : (∃ other legacy, LegacyRuns calls jobs other legacy) →
      job.type ≠ some deleteType) :
    Apart (calls ++ [call]) (jobs.set id job) := by
  have unrequested := not_rebuildRequested fresh asked other identified
  apply apart.add created fresh
  · intro legacy
    exact ⟨plain legacy, fun requested => absurd requested unrequested⟩
  · intro requested
    exact absurd requested unrequested

/-- A scoped rebuild is added while no legacy rebuild runs, and a legacy one while all
running jobs are compatible with it. -/
theorem Apart.add_rebuild (apart : Apart calls jobs) {original : Job}
    (created : Created calls jobs) (fresh : Fresh calls (.createRebuildJob original))
    (typed : job.type ≠ some deleteType)
    (found : (∃ other legacy, LegacyRuns calls jobs other legacy) → job.workspace = "")
    (first : job.workspace = "" → ∀ other found, RunsIn jobs other found →
      Compatible calls other found) :
    Apart (calls ++ [.createRebuildJob original]) (jobs.set id job) := by
  apply apart.add created fresh
  · intro legacy
    exact ⟨typed, fun _ => found legacy⟩
  · intro _ unplaced
    exact ⟨⟨typed, fun _ => unplaced⟩, first unplaced⟩

end

/-! ## Exclusion -/

/-- A legacy rebuild is not asked for while a deletion or a scoped rebuild is running,
and no rebuild is asked for a target whose entry names a finished job while a legacy
rebuild is running. -/
structure LegacyApart (digest : Digest) (calls : List Call) : Prop where
  first : ∀ past job, past ++ [.createRebuildJob job] <+: calls → job.workspace = "" →
    ∀ id other, (MemoryJobStore.run digest past).Runs id other → Compatible past id other
  shown : ∀ past job, past ++ [.createRebuildJob job] <+: calls → job.workspace ≠ "" →
    (∃ id legacy, LegacyRuns past (MemoryJobStore.run digest past).jobs id legacy) →
      ∀ id, (MemoryJobStore.run digest past).activeRebuildJobIds.get?
        (rebuildKey digest job) = some id → id ≠ "" →
        ∃ other, (MemoryJobStore.run digest past).Runs id other

/-- While a legacy rebuild is running no deletion and no scoped rebuild is, and the
calls that ask for one are refused. -/
structure LegacyExclusive (digest : Digest) (calls : List Call) : Prop where
  alone : Apart calls (MemoryJobStore.run digest calls).jobs
  refused : ∀ past job, past ++ [.createRebuildJob job] <+: calls → job.workspace ≠ "" →
    (∃ id legacy, LegacyRuns past (MemoryJobStore.run digest past).jobs id legacy) →
      ∃ conflict, ((MemoryJobStore.run digest past).createRebuildJob digest job).1 =
        .conflict conflict
  unadmitted : ∀ past job, past ++ [.createDeleteJob job] <+: calls →
    (∃ id legacy, LegacyRuns past (MemoryJobStore.run digest past).jobs id legacy) →
      ((MemoryJobStore.run digest past).createDeleteJob digest job).2.jobs =
        (MemoryJobStore.run digest past).jobs

section

variable {digest : Digest} {calls : List Call} {store : MemoryJobStore} {job : Job}

/-- The legacy entry leads to a running legacy rebuild. -/
theorem LegacyRuns.found (admissions : Admissions digest calls store) {id : String}
    {legacy : Job} (running : LegacyRuns calls store.jobs id legacy) :
    store.activeRebuildJobIds.get? "legacy" = some id ∧
      store.runningJob (some id) = some legacy := by
  have entry := admissions.rebuilds id legacy running.runs.1 running.requested running.runs.2
  rw [rebuildKey, if_pos running.unplaced] at entry
  exact ⟨entry, runningJob_some.mpr
    ⟨id, rfl, admissions.named id legacy running.runs.1, running.runs⟩⟩

/-- Unless a leftover id hides it, `create_rebuild_job` finds a running legacy
rebuild. -/
theorem LegacyRuns.consulted (admissions : Admissions digest calls store) {id : String}
    {legacy : Job} (running : LegacyRuns calls store.jobs id legacy)
    (shown : ∀ other, store.activeRebuildJobIds.get? (rebuildKey digest job) = some other →
      other ≠ "" → ∃ found, store.Runs other found) :
    store.runningJob (consultedId digest job store) ≠ none := by
  rcases running.found admissions with ⟨entry, finds⟩
  rw [consultedId]
  split
  · rw [entry, finds]
    rintro ⟨⟩
  · rename_i own
    cases stored : store.activeRebuildJobIds.get? (rebuildKey digest job) with
    | none =>
        by_cases keyed : rebuildKey digest job = "legacy"
        · rw [keyed, entry] at stored
          cases stored
        · rw [stored] at own
          simp [keyed] at own
    | some other =>
        by_cases keyed : rebuildKey digest job = "legacy"
        · rw [keyed, entry] at stored
          rw [← stored, finds]
          rintro ⟨⟩
        · rw [stored] at own
          have named : other ≠ "" := by
            intro unnamed
            simp [keyed, unnamed] at own
          rcases shown other stored named with ⟨found, runs⟩
          rw [runningJob_some.mpr ⟨other, rfl, named, runs⟩]
          rintro ⟨⟩

theorem LegacyRuns.blocks (admissions : Admissions digest calls store)
    (legacy : ∃ id legacy, LegacyRuns calls store.jobs id legacy) :
    store.runningJob (store.activeRebuildJobIds.get? "legacy") ≠ none := by
  rcases legacy with ⟨id, legacy, running⟩
  rcases running.found admissions with ⟨entry, finds⟩
  rw [entry, finds]
  exact nofun

/-- Every call of a run with the legacy rebuilds apart keeps them apart. -/
theorem Apart.after {call : Call} (disciplined : Disciplined digest (calls ++ [call]))
    (typed : WellTyped digest (calls ++ [call])) (legacyApart : LegacyApart digest (calls ++ [call]))
    (reached : store = .run digest calls) (admissions : Admissions digest calls store)
    (apart : Apart calls store.jobs) :
    Apart (calls ++ [call]) (store.after digest call).jobs := by
  have fresh := disciplined.fresh
  have created : Created calls store.jobs := admissions.created
  have last : call ∈ calls ++ [call] := List.mem_append_right _ List.mem_cons_self
  have kept := apart.grow created fresh
  cases call with
  | createJob job =>
      rw [MemoryJobStore.after]
      rcases createJob_cases digest job store with same | ⟨plain, added⟩ | ⟨free, added⟩
      · rw [same]
        exact kept
      · rw [added]
        exact apart.add_plain created fresh rfl rfl (by rintro _ ⟨⟩) fun _ => plain
      · rw [added]
        apply apart.add_plain created fresh rfl rfl (by rintro _ ⟨⟩)
        exact fun legacy => absurd free (LegacyRuns.blocks admissions legacy)
  | createRebuildJob job =>
      rw [MemoryJobStore.after]
      rcases createRebuildJob_cases digest job store with ⟨_, same⟩ | ⟨free, added⟩
      · rw [same]
        exact kept
      · rw [added]
        have given := typed.typed job (.inl last)
        apply apart.add_rebuild created fresh
        · cases type : job.type with
          | none => simp [deleteType]
          | some type => simpa [type] using given
        · rintro ⟨other, found, running⟩
          by_contra placed
          have shown := legacyApart.shown calls job List.prefix_rfl placed
          rw [← reached] at shown
          exact absurd free (running.consulted admissions (shown ⟨other, found, running⟩))
        · intro unplaced
          have first := legacyApart.first calls job List.prefix_rfl unplaced
          rw [← reached] at first
          exact first
  | createDataSourceSyncJob job =>
      rw [MemoryJobStore.after]
      rcases createDataSourceSyncJob_cases digest job store with same | added
      · rw [same]
        exact kept
      · rw [added]
        exact apart.add_plain created fresh rfl rfl (by rintro _ ⟨⟩)
          fun _ => typed.typed job (.inr last)
  | createDeleteJob job =>
      rw [MemoryJobStore.after]
      rcases createDeleteJob_cases digest job store with same | ⟨free, added⟩
      · rw [same]
        exact kept
      · rw [added]
        apply apart.add_plain created fresh rfl rfl (by rintro _ ⟨⟩)
        exact fun legacy => absurd free (LegacyRuns.blocks admissions legacy)
  | update id patch =>
      rw [MemoryJobStore.after, MemoryJobStore.update]
      cases stored : store.jobs.get? id with
      | none => exact kept
      | some old =>
          have known := stored
          rw [reached] at known
          rcases typed.targets calls id patch List.prefix_rfl old known with ⟨target, deletion⟩
          have running := disciplined.updates calls id patch List.prefix_rfl old known
          exact kept.change stored (old.update patch) target.workspace deletion running
  | appendError id filename message =>
      rw [MemoryJobStore.after, MemoryJobStore.appendError]
      cases stored : store.jobs.get? id with
      | none => exact kept
      | some old =>
          exact kept.change stored (old.appendError filename message) rfl
            (fun isDelete => isDelete) fun runs => runs
  | finish now id status message =>
      rw [MemoryJobStore.after, MemoryJobStore.finish]
      cases stored : store.jobs.get? id with
      | none => exact kept
      | some old =>
          have stops := disciplined.finishes now id status message last
          exact kept.change stored (old.finish now status message) rfl
            (fun isDelete => isDelete) fun runs => absurd runs stops
  | clearByKnowledgeBase workspaceId knowledgeBaseId excludeJobId =>
      rw [MemoryJobStore.after, MemoryJobStore.clearByKnowledgeBase]
      split
      · exact kept
      · exact kept.drop fun id job present => (Dictionary.get?_removeWhere.mp present).1
  | clearByWorkspace workspaceId =>
      rw [MemoryJobStore.after, MemoryJobStore.clearByWorkspace]
      split
      · exact kept
      · exact kept.drop fun id job present => (Dictionary.get?_removeWhere.mp present).1
  | clear =>
      intro id legacy running
      cases running.runs.1

theorem LegacyApart.earlier {call : Call} (apart : LegacyApart digest (calls ++ [call])) :
    LegacyApart digest calls where
  first past job within := apart.first past job (within.trans (List.prefix_append _ _))
  shown past job within := apart.shown past job (within.trans (List.prefix_append _ _))

theorem run_apart (disciplined : Disciplined digest calls) (typed : WellTyped digest calls)
    (legacyApart : LegacyApart digest calls) :
    Apart calls (MemoryJobStore.run digest calls).jobs := by
  induction calls using List.reverseRecOn with
  | nil =>
      intro id legacy running
      cases running.runs.1
  | append_singleton past call induction =>
      rw [MemoryJobStore.run, run_concat]
      exact Apart.after disciplined typed legacyApart rfl
        (run_admissions disciplined.earlier typed.earlier)
        (induction disciplined.earlier typed.earlier legacyApart.earlier)

theorem run_legacy_excludes (disciplined : Disciplined digest calls)
    (typed : WellTyped digest calls) (legacyApart : LegacyApart digest calls) :
    LegacyExclusive digest calls := by
  have admitted : ∀ past call, past ++ [call] <+: calls →
      Admissions digest past (MemoryJobStore.run digest past) := by
    intro past call within
    have early := (List.prefix_append past [call]).trans within
    exact run_admissions (disciplined.before early) (typed.before early)
  constructor
  · exact run_apart disciplined typed legacyApart
  · intro past job within placed legacy
    have shown := legacyApart.shown past job within placed legacy
    rcases legacy with ⟨id, legacy, running⟩
    rcases createRebuildJob_cases digest job (MemoryJobStore.run digest past) with
      ⟨conflict, _⟩ | ⟨free, _⟩
    · exact conflict
    · exact absurd free (running.consulted (admitted past _ within) shown)
  · intro past job within legacy
    have blocks := LegacyRuns.blocks (admitted past _ within) legacy
    rcases createDeleteJob_cases digest job (MemoryJobStore.run digest past) with
      same | ⟨free, _⟩
    · exact same
    · exact absurd free blocks

end

end RAGuardian.Jobs
