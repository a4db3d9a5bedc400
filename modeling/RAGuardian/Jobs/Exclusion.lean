import RAGuardian.Jobs.Admissions

/-! # Exclusion in the job store of a process

A running deletion is the only running job of its knowledge base, and rebuilds and
syncs of one target never run together. -/

namespace RAGuardian.Jobs

open Execution

/-! ## Disciplined runs -/

/-- What is assumed of the calls of a run: fresh ids, and no call that sets a job
running again. -/
structure Disciplined (digest : Digest) (calls : List Call) : Prop where
  distinct : (createdIds calls).Nodup
  finishes : ∀ now id status message, Call.finish now id status message ∈ calls →
    status ∉ runningJobStatuses
  updates : ∀ past id patch, past ++ [.update id patch] <+: calls →
    ∀ job, (MemoryJobStore.run digest past).jobs.get? id = some job →
      (job.update patch).Running → job.Running

/-- The jobs have ids, only `create_delete_job` and `create_job` create jobs that
delete, and an update leaves the target of a job and its power to delete alone. -/
structure WellTyped (digest : Digest) (calls : List Call) : Prop where
  named : ∀ call ∈ calls, ∀ job, call.created = some job → job.id ≠ ""
  typed : ∀ job, Call.createRebuildJob job ∈ calls ∨ Call.createDataSourceSyncJob job ∈ calls →
    job.type ≠ some deleteType
  targets : ∀ past id patch, past ++ [.update id patch] <+: calls →
    ∀ job, (MemoryJobStore.run digest past).jobs.get? id = some job →
      SameTarget job (job.update patch) ∧
        ((job.update patch).type = some deleteType → job.type = some deleteType)

/-- The job was admitted by a call of `create_rebuild_job`. -/
def RebuildAdmitted (digest : Digest) (calls : List Call) (id : String) : Prop :=
  ∃ past job reply, past ++ [.createRebuildJob job] <+: calls ∧ job.id = id ∧
    ((MemoryJobStore.run digest past).createRebuildJob digest job).1 = .accepted reply

/-- The job was admitted by a call of `create_data_source_sync_job`. -/
def SyncAdmitted (digest : Digest) (calls : List Call) (id : String) : Prop :=
  ∃ past job reply, past ++ [.createDataSourceSyncJob job] <+: calls ∧ job.id = id ∧
    ((MemoryJobStore.run digest past).createDataSourceSyncJob digest job).1 = .accepted reply

/-- After the calls a running deletion is alone on its target, and rebuilds and syncs
exclude each other. -/
structure Exclusive (digest : Digest) (calls : List Call) : Prop where
  deletes : ∀ id job other otherJob, (MemoryJobStore.run digest calls).Runs id job →
    job.type = some deleteType → (MemoryJobStore.run digest calls).Runs other otherJob →
    SameKnowledgeBase otherJob job → other = id
  rebuilds : ∀ id job other otherJob, RebuildAdmitted digest calls id →
    RebuildAdmitted digest calls other → (MemoryJobStore.run digest calls).Runs id job →
    (MemoryJobStore.run digest calls).Runs other otherJob →
    SameKnowledgeBase otherJob job → other = id
  syncs : ∀ id job other otherJob, SyncAdmitted digest calls id →
    SyncAdmitted digest calls other → (MemoryJobStore.run digest calls).Runs id job →
    (MemoryJobStore.run digest calls).Runs other otherJob →
    SameKnowledgeBase otherJob job → otherJob.dataSourceId = job.dataSourceId → other = id

/-! ## Runs -/

section

variable {digest : Digest} {calls : List Call}

/-- A run is disciplined from its start on. -/
theorem Disciplined.before {past : List Call} (disciplined : Disciplined digest calls)
    (within : past <+: calls) : Disciplined digest past where
  distinct := by
    rcases within with ⟨later, rfl⟩
    have nodup := disciplined.distinct
    rw [createdIds, List.filterMap_append, List.map_append] at nodup
    exact nodup.of_append_left
  finishes now id status message member :=
    disciplined.finishes now id status message (within.subset member)
  updates earlier id patch early := disciplined.updates earlier id patch (early.trans within)

theorem Disciplined.earlier {call : Call}
    (disciplined : Disciplined digest (calls ++ [call])) : Disciplined digest calls :=
  disciplined.before (List.prefix_append _ _)

theorem WellTyped.before {past : List Call} (typed : WellTyped digest calls)
    (within : past <+: calls) : WellTyped digest past where
  named call member := typed.named call (within.subset member)
  typed job member := typed.typed job
    (member.imp (fun asked => within.subset asked) (fun asked => within.subset asked))
  targets earlier id patch early := typed.targets earlier id patch (early.trans within)

theorem WellTyped.earlier {call : Call} (typed : WellTyped digest (calls ++ [call])) :
    WellTyped digest calls :=
  typed.before (List.prefix_append _ _)

theorem Disciplined.fresh {call : Call} (disciplined : Disciplined digest (calls ++ [call])) :
    Fresh calls call := by
  intro original created member
  have nodup := disciplined.distinct
  rw [createdIds_append, created] at nodup
  exact (List.nodup_append.mp nodup).2.2 _ member _ List.mem_cons_self rfl

/-- Every call of a disciplined run keeps the admissions in order. -/
theorem Admissions.after {store : MemoryJobStore} {call : Call}
    (disciplined : Disciplined digest (calls ++ [call]))
    (typed : WellTyped digest (calls ++ [call])) (reached : store = .run digest calls)
    (admissions : Admissions digest calls store) :
    Admissions digest (calls ++ [call]) (store.after digest call) := by
  have fresh := disciplined.fresh
  have last : call ∈ calls ++ [call] := List.mem_append_right _ List.mem_cons_self
  have named := typed.named call last
  cases call with
  | createJob job => exact admissions.createJob fresh (named job rfl)
  | createRebuildJob job =>
      exact admissions.createRebuildJob fresh (named job rfl)
        (typed.typed job (.inl last))
  | createDataSourceSyncJob job =>
      exact admissions.createDataSourceSyncJob fresh (named job rfl)
        (typed.typed job (.inr last))
  | createDeleteJob job =>
      exact admissions.createDeleteJob rfl ⟨fun _ => nofun, fun _ => nofun⟩ fresh
        (named job rfl)
  | update id patch =>
      have grown := admissions.grow fresh
      rw [MemoryJobStore.after, MemoryJobStore.update]
      cases stored : store.jobs.get? id with
      | none => exact grown
      | some job =>
          rw [reached] at stored
          rcases typed.targets calls id patch List.prefix_rfl job stored with ⟨target, deletion⟩
          have running := disciplined.updates calls id patch List.prefix_rfl job stored
          rw [← reached] at stored
          exact grown.change stored target deletion running
  | appendError id filename message =>
      have grown := admissions.grow fresh
      rw [MemoryJobStore.after, MemoryJobStore.appendError]
      cases stored : store.jobs.get? id with
      | none => exact grown
      | some job =>
          exact grown.change stored ⟨rfl, rfl, rfl⟩ (fun deletes => deletes) (fun runs => runs)
  | finish now id status message =>
      exact (admissions.grow fresh).finish now id status message
        (disciplined.finishes now id status message last)
  | clearByKnowledgeBase workspaceId knowledgeBaseId excludeJobId =>
      have grown := admissions.grow fresh
      rw [MemoryJobStore.after, MemoryJobStore.clearByKnowledgeBase]
      split
      · exact grown
      · exact grown.clearWhere _
  | clearByWorkspace workspaceId =>
      have grown := admissions.grow fresh
      rw [MemoryJobStore.after, MemoryJobStore.clearByWorkspace]
      split
      · exact grown
      · exact grown.clearWhere _
  | clear => exact .empty

theorem run_admissions (disciplined : Disciplined digest calls)
    (typed : WellTyped digest calls) : Admissions digest calls (.run digest calls) := by
  induction calls using List.reverseRecOn with
  | nil => exact .empty
  | append_singleton past call induction =>
      rw [MemoryJobStore.run, run_concat]
      exact Admissions.after disciplined typed rfl
        (induction disciplined.earlier typed.earlier)

theorem RebuildAdmitted.requested {id : String} (admitted : RebuildAdmitted digest calls id) :
    RebuildRequested calls id := by
  rcases admitted with ⟨past, job, reply, within, same, _⟩
  exact ⟨job, within.subset (List.mem_append_right _ List.mem_cons_self), same⟩

theorem SyncAdmitted.requested {id : String} (admitted : SyncAdmitted digest calls id) :
    SyncRequested calls id := by
  rcases admitted with ⟨past, job, reply, within, same, _⟩
  exact ⟨job, within.subset (List.mem_append_right _ List.mem_cons_self), same⟩

/-- After every disciplined run the running jobs exclude each other. -/
theorem run_jobs_exclusive (disciplined : Disciplined digest calls)
    (typed : WellTyped digest calls) : Exclusive digest calls := by
  have admissions := run_admissions disciplined typed
  constructor
  · intro id job other otherJob runs deletes otherRuns same
    exact admissions.alone id job other otherJob runs deletes otherRuns same
  · intro id job other otherJob admitted otherAdmitted runs otherRuns same
    have entry := admissions.rebuilds id job runs.1 admitted.requested runs.2
    have otherEntry :=
      admissions.rebuilds other otherJob otherRuns.1 otherAdmitted.requested otherRuns.2
    rw [rebuildKey_congr same, entry] at otherEntry
    exact (Option.some.inj otherEntry).symm
  · intro id job other otherJob admitted otherAdmitted runs otherRuns same source
    have entry := admissions.syncs id job runs.1 admitted.requested runs.2
    have otherEntry :=
      admissions.syncs other otherJob otherRuns.1 otherAdmitted.requested otherRuns.2
    rw [dataSourceSyncKey_congr same source, entry] at otherEntry
    exact (Option.some.inj otherEntry).symm

end

/-! ### Runs on one workspace -/

/-- A deletion waits for a rebuild, and an upload to another knowledge base does not
wait for the deletion. -/
def waitingCalls : List Call :=
  [.createRebuildJob (exampleJob "r" "rebuild_index" "running" "a"),
    .createDeleteJob (exampleJob "d1" deleteType "running" "a"),
    .finish 1 "r" "completed" "done",
    .createDeleteJob (exampleJob "d2" deleteType "running" "a"),
    .createJob (exampleJob "u" "file_upload" "running" "b")]

theorem update_running {job : Job} {patch : Patch} (quiet : patch.status = none)
    (running : (job.update patch).Running) : job.Running := by
  rw [Job.Running, Job.update, quiet] at running
  exact running

theorem run_jobs_exclusive_waiting : Exclusive exampleDigest waitingCalls := by
  apply run_jobs_exclusive
  · constructor
    · decide
    · intro now id status message member
      simp only [waitingCalls, List.mem_cons, reduceCtorEq, Call.finish.injEq,
        List.not_mem_nil, or_false, false_or] at member
      rw [member.2.2.1]
      decide
    · intro past id patch within
      have member := within.subset (List.mem_append_right _ List.mem_cons_self)
      simp [waitingCalls] at member
  · constructor
    · intro call member job created
      simp only [waitingCalls, List.mem_cons, List.not_mem_nil, or_false] at member
      rcases member with rfl | rfl | rfl | rfl | rfl <;> cases created <;> decide
    · intro job member
      simp only [waitingCalls, List.mem_cons, reduceCtorEq, Call.createRebuildJob.injEq,
        List.not_mem_nil, or_false] at member
      rw [member]
      decide
    · intro past id patch within
      have member := within.subset (List.mem_append_right _ List.mem_cons_self)
      simp [waitingCalls] at member

/-- An update moves a rebuild to the knowledge base of another one. -/
def retargetedCalls : List Call :=
  [.createRebuildJob (exampleJob "r1" "rebuild_index" "running" "a"),
    .createRebuildJob (exampleJob "r2" "rebuild_index" "running" "b"),
    .update "r2" { knowledgeBaseId := some "a" }]

/-- An update turns an upload into a deletion. -/
def retypedCalls : List Call :=
  [.createJob (exampleJob "u1" "file_upload" "running" "a"),
    .createJob (exampleJob "u2" "file_upload" "running" "a"),
    .update "u2" { type := some deleteType }]

/-- `create_rebuild_job` is given a deletion. -/
def mistypedCalls : List Call :=
  [.createJob (exampleJob "u" "file_upload" "running" "a"),
    .createRebuildJob (exampleJob "d" deleteType "running" "a")]

/-- A rebuild has an empty id, which counts as no entry. -/
def unnamedCalls : List Call :=
  [.createRebuildJob (exampleJob "" "rebuild_index" "running" "a"),
    .createRebuildJob (exampleJob "r" "rebuild_index" "running" "a")]

/-- Every created job has a workspace. -/
abbrev Placed (calls : List Call) : Prop :=
  ∀ job ∈ calls.filterMap Call.created, job.workspace ≠ ""

theorem disciplined_of_quiet {calls : List Call} (distinct : (createdIds calls).Nodup)
    (finishes : ∀ now id status message, Call.finish now id status message ∉ calls)
    (updates : ∀ id patch, Call.update id patch ∈ calls → patch.status = none) :
    Disciplined exampleDigest calls where
  distinct := distinct
  finishes now id status message member := absurd member (finishes now id status message)
  updates _ id patch within _ _ running :=
    update_running (updates id patch
      (within.subset (List.mem_append_right _ List.mem_cons_self))) running

/-- Without the further assumptions on types, targets and ids two jobs that exclude
each other run at once. -/
theorem exclusion_escaped :
    (Disciplined exampleDigest retargetedCalls ∧ Placed retargetedCalls ∧
        ¬ Exclusive exampleDigest retargetedCalls) ∧
      (Disciplined exampleDigest retypedCalls ∧ Placed retypedCalls ∧
        ¬ Exclusive exampleDigest retypedCalls) ∧
      (Disciplined exampleDigest mistypedCalls ∧ Placed mistypedCalls ∧
        ¬ Exclusive exampleDigest mistypedCalls) ∧
      (Disciplined exampleDigest unnamedCalls ∧ Placed unnamedCalls ∧
        ¬ Exclusive exampleDigest unnamedCalls) := by
  refine ⟨⟨?_, by decide, ?_⟩, ⟨?_, by decide, ?_⟩, ⟨?_, by decide, ?_⟩, ?_, by decide, ?_⟩
  · apply disciplined_of_quiet (by decide) (by simp [retargetedCalls])
    intro id patch member
    simp only [retargetedCalls, List.mem_cons, reduceCtorEq, Call.update.injEq,
      List.not_mem_nil, or_false, false_or] at member
    rw [member.2]
  · intro exclusive
    have first : RebuildAdmitted exampleDigest retargetedCalls "r1" :=
      ⟨[], _, exampleJob "r1" "rebuild_index" "running" "a", ⟨_, rfl⟩, rfl, by decide +kernel⟩
    have second : RebuildAdmitted exampleDigest retargetedCalls "r2" :=
      ⟨retargetedCalls.take 1, _, exampleJob "r2" "rebuild_index" "running" "b", ⟨_, rfl⟩, rfl,
        by decide +kernel⟩
    have same := exclusive.rebuilds "r1" (exampleJob "r1" "rebuild_index" "running" "a")
      "r2" (exampleJob "r2" "rebuild_index" "running" "a") first second
      ⟨by decide +kernel, by decide⟩ ⟨by decide +kernel, by decide⟩ (by decide)
    exact absurd same (by decide)
  · apply disciplined_of_quiet (by decide) (by simp [retypedCalls])
    intro id patch member
    simp only [retypedCalls, List.mem_cons, reduceCtorEq, Call.update.injEq,
      List.not_mem_nil, or_false, false_or] at member
    rw [member.2]
  · intro exclusive
    have same := exclusive.deletes "u2" (exampleJob "u2" deleteType "running" "a")
      "u1" (exampleJob "u1" "file_upload" "running" "a")
      ⟨by decide +kernel, by decide⟩ rfl ⟨by decide +kernel, by decide⟩ (by decide)
    exact absurd same (by decide)
  · apply disciplined_of_quiet (by decide) (by simp [mistypedCalls])
    intro id patch member
    simp [mistypedCalls] at member
  · intro exclusive
    have same := exclusive.deletes "d" (exampleJob "d" deleteType "running" "a")
      "u" (exampleJob "u" "file_upload" "running" "a")
      ⟨by decide +kernel, by decide⟩ rfl ⟨by decide +kernel, by decide⟩ (by decide)
    exact absurd same (by decide)
  · apply disciplined_of_quiet (by decide) (by simp [unnamedCalls])
    intro id patch member
    simp [unnamedCalls] at member
  · intro exclusive
    have first : RebuildAdmitted exampleDigest unnamedCalls "" :=
      ⟨[], _, exampleJob "" "rebuild_index" "running" "a", ⟨_, rfl⟩, rfl, by decide +kernel⟩
    have second : RebuildAdmitted exampleDigest unnamedCalls "r" :=
      ⟨unnamedCalls.take 1, _, exampleJob "r" "rebuild_index" "running" "a", ⟨_, rfl⟩, rfl,
        by decide +kernel⟩
    have same := exclusive.rebuilds "" (exampleJob "" "rebuild_index" "running" "a")
      "r" (exampleJob "r" "rebuild_index" "running" "a") first second
      ⟨by decide +kernel, by decide⟩ ⟨by decide +kernel, by decide⟩ (by decide)
    exact absurd same (by decide)

end RAGuardian.Jobs

