import RAGuardian.Jobs.RedisStore

/-! # Concurrent updates of a job in Redis

`update`, `append_error` and `finish` read a job, change it and save it without a
lock. Nothing is lost as long as nobody else has touched the job between the two
commands. -/

namespace RAGuardian.Jobs

open Concurrency Execution
open History (Timestamp)

/-! ## Calls -/

/-- The calls that work on admitted jobs, and the expiry of a key. -/
inductive Mutation
  | update (jobId : String) (patch : Patch)
  | appendError (jobId filename message : String)
  | finish (now : Timestamp) (jobId status message : String)
  | clearByKnowledgeBase (workspaceId knowledgeBaseId : String)
      (excludeJobId : Option String)
  | clearByWorkspace (workspaceId : String)
  | clear
  | expireJob (jobId : String)
  | expireActive (key : ActiveKey)

@[reducible] def Mutation.Outcome : Mutation → Type
  | .clearByKnowledgeBase _ _ _ => Nat
  | .clearByWorkspace _ => Nat
  | .expireJob _ => Nat
  | _ => Unit

def Mutation.program (digest : Digest) : (call : Mutation) → Commands call.Outcome
  | .update jobId patch => RedisJobStore.update jobId patch
  | .appendError jobId filename message => RedisJobStore.appendError jobId filename message
  | .finish now jobId status message => RedisJobStore.finish digest now jobId status message
  | .clearByKnowledgeBase workspaceId knowledgeBaseId excludeJobId =>
      RedisJobStore.clearByKnowledgeBase digest workspaceId knowledgeBaseId excludeJobId
  | .clearByWorkspace workspaceId => RedisJobStore.clearByWorkspace digest workspaceId
  | .clear => RedisJobStore.clear
  | .expireJob jobId => Commands.deleteJob jobId
  | .expireActive key => Commands.deleteActive key

/-- Workers that run these calls at once, command by command. -/
def mutations (digest : Digest) :
    System Command Command.Response Scan RedisJobs Mutation Mutation.Outcome where
  execute := execute
  program := Mutation.program digest
  excludes _ _ := false

/-- The job a call reads, and what it saves instead. -/
def Mutation.modifies : Mutation → Option (String × (Job → Job))
  | .update jobId patch => some (jobId, fun job => job.update patch)
  | .appendError jobId filename message => some (jobId, fun job => job.appendError filename message)
  | .finish now jobId status message => some (jobId, fun job => job.finish now status message)
  | _ => none

/-! ## What a call saves -/

/-- A command that saves no job. -/
def NoSave (command : Command) : Prop :=
  ∀ jobId job, command ≠ .setexJob jobId job

/-- A command that stores nothing. -/
def Clearing : Command → Prop
  | .setexJob _ _ | .setActive _ _ | .setNxActive _ _ => False
  | _ => True

theorem Clearing.noSave {command : Command} (clearing : Clearing command) : NoSave command := by
  intro jobId job same
  rw [same] at clearing
  exact clearing

section

variable {digest : Digest} {α : Type} {jobId : String} {change : Job → Job}
  {rest : Option Job → Commands α} {trail : List (Step Command Scan RedisJobs)}
  {remaining : Commands α}

theorem modify_named (named : jobId ≠ "") :
    RedisJobStore.modify jobId change rest =
      .call (.getJob jobId) fun (job : Option Job) =>
        match job with
        | none => rest none
        | some old =>
            .call (.setexJob (change (publicJob old)).id (change (publicJob old)))
              fun _ => rest (some (change (publicJob old))) := by
  rw [RedisJobStore.modify, RedisJobStore.get, if_neg named]
  simp only [Commands.getJob, Program.bind_eq_bind, Program.pure_eq_done, Program.bind,
    Program.call.injEq, heq_eq_eq, true_and]
  funext job
  cases job <;> rfl

/-- How far a call that modifies a job has come. -/
theorem follows_modify (follows : Follows (mutations digest)
      (RedisJobStore.modify jobId change rest) trail remaining) :
    trail = [] ∧ remaining = RedisJobStore.modify jobId change rest ∨
      jobId = "" ∧ Follows (mutations digest) (rest none) trail remaining ∨
      jobId ≠ "" ∧ ∃ scan before later, trail = ⟨.getJob jobId, scan, before⟩ :: later ∧
        (before.jobs.get? jobId = none ∧ Follows (mutations digest) (rest none) later remaining ∨
          ∃ old, before.jobs.get? jobId = some old ∧
            Follows (mutations digest)
              (.call (.setexJob (change (publicJob old)).id (change (publicJob old)))
                fun _ => rest (some (change (publicJob old)))) later remaining) := by
  by_cases unnamed : jobId = ""
  · right
    left
    rw [RedisJobStore.modify, RedisJobStore.get, if_pos unnamed] at follows
    exact ⟨unnamed, follows⟩
  · rw [modify_named unnamed] at follows ⊢
    cases follows with
    | here => exact .inl ⟨rfl, rfl⟩
    | call request next scan before steps =>
        right
        right
        refine ⟨unnamed, scan, before, _, rfl, ?_⟩
        change Follows _ (match before.jobs.get? jobId with
          | none => rest none
          | some old => _) _ _ at steps
        cases stored : before.jobs.get? jobId with
        | none =>
            rw [stored] at steps
            exact .inl ⟨rfl, steps⟩
        | some old =>
            rw [stored] at steps
            exact .inr ⟨old, rfl, steps⟩

/-- A call about to save a job has read it, and saves it as it changes it. -/
theorem follows_modify_save {savedId : String} {saved : Job} {next : Unit → Commands α}
    (follows : Follows (mutations digest) (RedisJobStore.modify jobId change rest) trail
      (.call (.setexJob savedId saved) next)) (quiet : ∀ job, (rest job).Makes NoSave) :
    ∃ scan before old, jobId ≠ "" ∧ trail = [⟨.getJob jobId, scan, before⟩] ∧
      before.jobs.get? jobId = some old ∧ saved = change (publicJob old) ∧
      savedId = saved.id := by
  have silent : ∀ job later, ¬ Follows (mutations digest) (rest job) later
      (.call (.setexJob savedId saved) next) := by
    intro job later steps
    exact (steps.always (quiet job)).1 savedId saved rfl
  rcases follows_modify follows with ⟨_, same⟩ | ⟨_, steps⟩ |
    ⟨named, scan, before, later, split, steps⟩
  · by_cases unnamed : jobId = ""
    · rw [RedisJobStore.modify, RedisJobStore.get, if_pos unnamed] at same
      exact absurd (same ▸ .here _) (silent none [])
    · rw [modify_named unnamed] at same
      cases same
  · exact absurd steps (silent none trail)
  · rcases steps with ⟨_, steps⟩ | ⟨old, stored, steps⟩
    · exact absurd steps (silent none later)
    · generalize reached : (.call (.setexJob savedId saved) next : Commands α) = goal at steps
      cases steps with
      | here =>
          cases reached
          exact ⟨scan, before, old, named, split, stored, rfl, rfl⟩
      | call _ _ _ _ steps =>
          rw [← reached] at steps
          exact absurd steps (silent _ _)

/-- A call that has returned has found no job, or saved what it made of the job. -/
theorem follows_modify_done (named : jobId ≠ "")
    (follows : Follows (mutations digest)
      (RedisJobStore.modify jobId change fun _ => (.done () : Commands Unit)) trail
      (.done ())) :
    (∃ step ∈ trail, step.request = .getJob jobId ∧ step.before.jobs.get? jobId = none) ∨
      ∃ scan before old save, trail = [⟨.getJob jobId, scan, before⟩, save] ∧
        before.jobs.get? jobId = some old ∧
        save.request = .setexJob (change (publicJob old)).id (change (publicJob old)) := by
  rcases follows_modify follows with ⟨_, same⟩ | ⟨unnamed, _⟩ |
    ⟨_, scan, before, later, split, steps⟩
  · rw [modify_named named] at same
    cases same
  · exact absurd unnamed named
  · rw [split]
    rcases steps with ⟨absent, _⟩ | ⟨old, stored, steps⟩
    · exact .inl ⟨_, List.mem_cons_self, rfl, absent⟩
    · cases steps with
      | call _ _ draw saving rest =>
          cases rest with
          | here => exact .inr ⟨scan, before, old, _, rfl, stored, rfl⟩

/-! ### The commands that store nothing -/

theorem clears_command (command : Command) (clearing : Clearing command) :
    (Program.call command Program.done : Commands command.Response).Makes Clearing :=
  ⟨clearing, fun _ => trivial⟩

theorem clears_release (key : ActiveKey) (jobId : String) :
    (RedisJobStore.release key jobId).Makes Clearing := by
  rw [RedisJobStore.release, Program.bind_eq_bind]
  apply Program.Always.bind (clears_command (.getActive key) trivial)
  intro active
  dsimp only [Program.pure_eq_done]
  split
  · exact clears_command (.deleteActive key) trivial
  · trivial

theorem clears_releaseTyped (job : Job) (jobId : String) :
    (RedisJobStore.releaseTyped digest job jobId).Makes Clearing := by
  have deletes : (if job.type = some deleteType then
      RedisJobStore.release (.delete (knowledgeBaseKey digest job)) jobId
    else pure ()).Makes Clearing := by
    split
    · exact clears_release _ _
    · trivial
  rw [RedisJobStore.releaseTyped]
  dsimp only [Program.bind_eq_bind]
  split
  · exact Program.Always.bind (clears_release _ _) fun _ => deletes
  · exact deletes

theorem clears_releaseFinished (jobId : String) (job : Option Job) :
    (RedisJobStore.releaseFinished digest jobId job).Makes Clearing := by
  simp only [RedisJobStore.releaseFinished, Program.bind_eq_bind]
  apply Program.Always.bind (clears_release _ _)
  intro _
  apply Program.Always.bind (clears_release _ _)
  intro _
  apply Program.Always.bind (clears_release _ _)
  intro _
  cases job with
  | none => trivial
  | some job => exact clears_releaseTyped _ _

theorem clears_clearEach (selects : Job → Bool) (jobIds : List String) (deleted : Nat) :
    (RedisJobStore.clearEach digest selects jobIds deleted).Makes Clearing := by
  induction jobIds generalizing deleted with
  | nil => trivial
  | cons jobId rest induction =>
      simp only [RedisJobStore.clearEach, Program.bind_eq_bind]
      apply Program.Always.bind (clears_command (.getJob jobId) trivial)
      intro job
      cases job with
      | none => exact induction deleted
      | some job =>
          dsimp only
          split
          · apply Program.Always.bind (clears_command (.deleteJob jobId) trivial)
            intro count
            apply Program.Always.bind (clears_release _ _)
            intro _
            apply Program.Always.bind (clears_releaseTyped _ _)
            intro _
            exact induction _
          · exact induction deleted

theorem clears_clearMatching (selects : Job → Bool) :
    (RedisJobStore.clearMatching digest selects).Makes Clearing := by
  rw [RedisJobStore.clearMatching, Program.bind_eq_bind]
  apply Program.Always.bind (clears_command .scanJobs trivial)
  intro jobIds
  exact clears_clearEach _ jobIds 0

/-- A call that modifies no job stores nothing. -/
theorem clears_unmodifying {call : Mutation} (unmodifying : call.modifies = none) :
    (call.program digest).Makes Clearing := by
  cases call with
  | update jobId patch => cases unmodifying
  | appendError jobId filename message => cases unmodifying
  | finish now jobId status message => cases unmodifying
  | clearByKnowledgeBase workspaceId knowledgeBaseId excludeJobId =>
      exact clears_clearMatching _
  | clearByWorkspace workspaceId =>
      rw [Mutation.program, RedisJobStore.clearByWorkspace]
      split
      · trivial
      · exact clears_clearMatching _
  | clear => exact clears_command .flushJobs trivial
  | expireJob jobId => exact clears_command (.deleteJob jobId) trivial
  | expireActive key => exact clears_command (.deleteActive key) trivial

end

/-- A running call that is about to save a job. -/
theorem saving_task {digest : Digest} {task : Task (mutations digest)}
    (follows : Follows (mutations digest) (task.call.program digest) task.trail task.remaining)
    {savedId : String} {saved : Job} {next : Unit → Commands task.call.Outcome}
    (asks : task.remaining = .call (.setexJob savedId saved) next) :
    ∃ jobId change scan before old, task.call.modifies = some (jobId, change) ∧ jobId ≠ "" ∧
      task.trail = [⟨.getJob jobId, scan, before⟩] ∧
      before.jobs.get? jobId = some old ∧ saved = change (publicJob old) ∧
      savedId = saved.id := by
  rw [asks] at follows
  cases modifies : task.call.modifies with
  | none =>
      have clears := follows.always (clears_unmodifying modifies)
      exact absurd rfl (clears.1.noSave savedId saved)
  | some modification =>
      rcases task with ⟨call, trail, remaining⟩
      cases call with
      | update jobId patch =>
          change Follows _ (RedisJobStore.modify jobId (fun job => job.update patch)
            fun _ => .done ()) _ _ at follows
          cases modifies
          rcases follows_modify_save follows fun _ => trivial with ⟨scan, before, old, facts⟩
          exact ⟨jobId, _, scan, before, old, rfl, facts⟩
      | appendError jobId filename message =>
          change Follows _ (RedisJobStore.modify jobId
            (fun job => job.appendError filename message) fun _ => .done ()) _ _ at follows
          cases modifies
          rcases follows_modify_save follows fun _ => trivial with ⟨scan, before, old, facts⟩
          exact ⟨jobId, _, scan, before, old, rfl, facts⟩
      | finish now jobId status message =>
          cases modifies
          have quiet : ∀ job, (RedisJobStore.releaseFinished digest jobId job).Makes NoSave :=
            fun job => (clears_releaseFinished jobId job).mono fun _ _ => Clearing.noSave
          rcases follows_modify_save follows quiet with ⟨scan, before, old, facts⟩
          exact ⟨jobId, _, scan, before, old, rfl, facts⟩
      | clearByKnowledgeBase workspaceId knowledgeBaseId excludeJobId => cases modifies
      | clearByWorkspace workspaceId => cases modifies
      | clear => cases modifies
      | expireJob jobId => cases modifies
      | expireActive key => cases modifies

/-! ## Orderly runs -/

/-- A version of a job under the same id, running only if it was, with all its
errors. -/
structure Gentle (old new : Job) : Prop where
  id : new.id = old.id
  running : new.Running → old.Running
  errors : old.errors ⊆ new.errors

theorem Gentle.refl (job : Job) : Gentle job job :=
  ⟨rfl, fun runs => runs, List.Subset.refl _⟩

theorem Gentle.trans {first second third : Job} (left : Gentle first second)
    (right : Gentle second third) : Gentle first third :=
  ⟨right.id.trans left.id, fun runs => left.running (right.running runs),
    List.Subset.trans left.errors right.errors⟩

/-- The jobs are stored under their ids. -/
def Keyed (redis : RedisJobs) : Prop :=
  ∀ id job, redis.jobs.get? id = some job → job.id = id

/-- What is stored later was stored before, in a version that is gentle to it. -/
def Settles (before after : RedisJobs) : Prop :=
  ∀ id new, after.jobs.get? id = some new →
    ∃ old, before.jobs.get? id = some old ∧ Gentle old new

/-- The workers after some events, started on what is stored. -/
abbrev workers (digest : Digest) (redis : RedisJobs) (events : List (Event Scan Mutation)) :
    Machine (mutations digest) :=
  run Machine.next (.initial (mutations digest) redis) events

/-- Nobody comes between the two commands of a call that saves a job, and the
changes are gentle: an update leaves the id and the errors alone, and neither an
update nor a finish sets a job running that it has read as finished. -/
structure Orderly (digest : Digest) (redis : RedisJobs)
    (events : List (Event Scan Mutation)) : Prop where
  undisturbed : ∀ past index scan, past ++ [.step index scan] <+: events →
    ∀ task, (workers digest redis past).tasks[index]? = some task →
      ∀ savedId saved next, task.remaining = .call (.setexJob savedId saved) next →
        ∀ jobId read before, task.trail = [⟨.getJob jobId, read, before⟩] →
          before.jobs.get? jobId = (workers digest redis past).state.jobs.get? jobId
  updates : ∀ past, past <+: events → ∀ task ∈ (workers digest redis past).tasks,
    ∀ jobId patch, task.call = .update jobId patch →
      ∀ read before, task.trail = [⟨.getJob jobId, read, before⟩] →
        ∀ old, before.jobs.get? jobId = some old → Gentle old (old.update patch)
  finishes : ∀ past, past <+: events → ∀ task ∈ (workers digest redis past).tasks,
    ∀ now jobId status message, task.call = .finish now jobId status message →
      ∀ read before, task.trail = [⟨.getJob jobId, read, before⟩] →
        ∀ old, before.jobs.get? jobId = some old → status ∈ runningJobStatuses → old.Running

/-! ## What a step does to the jobs -/

section

variable {digest : Digest} {redis : RedisJobs} {events : List (Event Scan Mutation)}

theorem Settles.refl (redis : RedisJobs) : Settles redis redis :=
  fun _ new present => ⟨new, present, .refl new⟩

theorem Settles.trans {first second third : RedisJobs} (left : Settles first second)
    (right : Settles second third) : Settles first third := by
  intro id new present
  rcases right id new present with ⟨middle, middlePresent, later⟩
  rcases left id middle middlePresent with ⟨old, oldPresent, sooner⟩
  exact ⟨old, oldPresent, sooner.trans later⟩

theorem Settles.keyed {before after : RedisJobs} (settles : Settles before after)
    (keyed : Keyed before) : Keyed after := by
  intro id job present
  rcases settles id job present with ⟨old, oldPresent, gentle⟩
  exact gentle.id.trans (keyed id old oldPresent)

/-- A command that saves no job brings no job to life. -/
theorem settles_of_noSave (scan : Scan) {command : Command} (quiet : NoSave command)
    (redis : RedisJobs) : Settles redis (execute scan command redis).2 := by
  intro id new present
  cases command with
  | setexJob jobId job => exact absurd rfl (quiet jobId job)
  | deleteJob jobId => exact ⟨new, Dictionary.get?_of_erase present, .refl new⟩
  | flushJobs => cases present
  | setNxActive key jobId =>
      simp only [execute] at present
      split at present
      · exact ⟨new, present, .refl new⟩
      · exact ⟨new, present, .refl new⟩
  | getJob jobId => exact ⟨new, present, .refl new⟩
  | scanJobs => exact ⟨new, present, .refl new⟩
  | getActive key => exact ⟨new, present, .refl new⟩
  | setActive key jobId => exact ⟨new, present, .refl new⟩
  | deleteActive key => exact ⟨new, present, .refl new⟩

/-- What a call saves is gentle to what it has read. -/
theorem gentle_of_read (orderly : Orderly digest redis events)
    {past : List (Event Scan Mutation)} (within : past <+: events)
    {task : Task (mutations digest)} (member : task ∈ (workers digest redis past).tasks)
    {jobId : String} {change : Job → Job} (modifies : task.call.modifies = some (jobId, change))
    {scan : Scan} {before : RedisJobs} (trail : task.trail = [⟨.getJob jobId, scan, before⟩])
    {old : Job} (stored : before.jobs.get? jobId = some old) :
    Gentle old (change (publicJob old)) := by
  cases called : task.call with
  | update id patch =>
      rw [called] at modifies
      cases modifies
      have gentle := orderly.updates past within task member jobId patch called scan before trail
        old stored
      exact ⟨gentle.id, gentle.running, gentle.errors⟩
  | appendError id filename message =>
      rw [called] at modifies
      cases modifies
      exact ⟨rfl, fun runs => runs, List.subset_append_left _ _⟩
  | finish now id status message =>
      rw [called] at modifies
      cases modifies
      exact ⟨rfl, orderly.finishes past within task member now jobId status message called scan
        before trail old stored, List.Subset.refl _⟩
  | clearByKnowledgeBase workspaceId knowledgeBaseId excludeJobId =>
      rw [called] at modifies
      cases modifies
  | clearByWorkspace workspaceId =>
      rw [called] at modifies
      cases modifies
  | clear =>
      rw [called] at modifies
      cases modifies
  | expireJob id =>
      rw [called] at modifies
      cases modifies
  | expireActive key =>
      rw [called] at modifies
      cases modifies

/-- Every step of an orderly run settles the jobs. -/
theorem step_settles (orderly : Orderly digest redis events)
    {past : List (Event Scan Mutation)} {event : Event Scan Mutation}
    (within : past ++ [event] <+: events)
    (keyed : Keyed (workers digest redis past).state) :
    Settles (workers digest redis past).state
      (Machine.next event (workers digest redis past)).state := by
  have pastWithin := (List.prefix_append past [event]).trans within
  have consistent : (workers digest redis past).Consistent := run_trails redis past
  generalize reached : Machine.next event (workers digest redis past) = after
  have moves := (workers digest redis past).moves event
  rw [reached] at moves
  cases moves with
  | idle => exact .refl _
  | start call free => exact .refl _
  | step index scan task command next found asks =>
      by_cases quiet : NoSave command
      · exact settles_of_noSave scan quiet _
      · rw [NoSave] at quiet
        simp only [ne_eq, not_forall, not_not] at quiet
        rcases quiet with ⟨savedId, saved, rfl⟩
        have member := List.mem_of_getElem? found
        rcases saving_task (consistent task member) asks with
          ⟨jobId, change, read, before, old, modifies, _, trail, stored, rfl, rfl⟩
        have gentle := gentle_of_read orderly pastWithin member modifies trail stored
        have present := orderly.undisturbed past index scan within task found _ _ next asks
          jobId read before trail
        rw [stored] at present
        have named : (change (publicJob old)).id = jobId :=
          gentle.id.trans (keyed jobId old present.symm)
        intro id new newPresent
        change (Dictionary.set _ _ _).get? id = some new at newPresent
        rw [Dictionary.get?_set] at newPresent
        split at newPresent
        · rename_i same
          cases newPresent
          exact ⟨old, by rw [same, named, ← present], gentle⟩
        · exact ⟨new, newPresent, .refl new⟩

theorem workers_keyed (orderly : Orderly digest redis events) (keyed : Keyed redis)
    {past : List (Event Scan Mutation)} (within : past <+: events) :
    Keyed (workers digest redis past).state := by
  induction past using List.reverseRecOn with
  | nil => exact keyed
  | append_singleton past event induction =>
      have before := induction ((List.prefix_append past [event]).trans within)
      rw [workers, run_concat]
      exact (step_settles orderly within before).keyed before

/-- The jobs settle along an orderly run. -/
theorem workers_settle (orderly : Orderly digest redis events) (keyed : Keyed redis)
    {earlier later : List (Event Scan Mutation)} (order : earlier <+: later)
    (within : later <+: events) :
    Settles (workers digest redis earlier).state (workers digest redis later).state := by
  apply run_related
    (fun before after : Machine (mutations digest) => Settles before.state after.state)
    (fun _ => .refl _) (fun _ _ _ => .trans) _ order within
  intro past event pastWithin
  exact step_settles orderly pastWithin
    (workers_keyed orderly keyed ((List.prefix_append past [event]).trans pastWithin))

/-- A step in the trail of a call, at the point of the run where it was taken. -/
theorem step_taken {past : List (Event Scan Mutation)} {index : Nat}
    {task : Task (mutations digest)} (found : (workers digest redis past).tasks[index]? = some task)
    {step : Step Command Scan RedisJobs} (inTrail : step ∈ task.trail) :
    ∃ before task' next, before ++ [.step index step.draw] <+: past ∧
      (workers digest redis before).tasks[index]? = some task' ∧ task'.call = task.call ∧
      task'.remaining = .call step.request next ∧
      (workers digest redis before).state = step.before ∧
      (workers digest redis (before ++ [.step index step.draw])).state =
        (execute step.draw step.request step.before).2 := by
  rcases List.mem_iff_append.mp inTrail with ⟨earlier, later, split⟩
  rcases run_recorded redis past index task found earlier step later split with
    ⟨before, task', within, present, state, call, _, next, asks⟩
  have after := Machine.next_step_state present asks step.draw
  rw [state] at after
  exact ⟨before, task', next, within, present, call, asks, state, by
    rw [workers, run_concat]
    exact after⟩

end

/-! ## What concurrent calls keep -/

/-- A finish has stored the job with a status that is not running, or a clear has
deleted it. -/
inductive Ended (digest : Digest) (redis : RedisJobs) (past : List (Event Scan Mutation))
    (id : String) : Prop
  | finished (task : Task (mutations digest)) (member : task ∈ (workers digest redis past).tasks)
      (now : Timestamp) (jobId status message : String)
      (call : task.call = .finish now jobId status message)
      (stops : status ∉ runningJobStatuses)
      (step : Step Command Scan RedisJobs) (taken : step ∈ task.trail) (job : Job)
      (stored : step.request = .setexJob id job) : Ended digest redis past id
  | cleared (task : Task (mutations digest)) (member : task ∈ (workers digest redis past).tasks)
      (workspaceId knowledgeBaseId : String) (excludeJobId : Option String)
      (call : task.call = .clearByKnowledgeBase workspaceId knowledgeBaseId excludeJobId)
      (step : Step Command Scan RedisJobs) (taken : step ∈ task.trail)
      (deleted : step.request = .deleteJob id) : Ended digest redis past id

/-- A job that was ended never runs again, and a finish that starts after an error was
appended stores the error. -/
structure UpdatesKept (digest : Digest) (redis : RedisJobs)
    (events : List (Event Scan Mutation)) : Prop where
  ended : ∀ past later, past <+: later → later <+: events → ∀ id, Ended digest redis past id →
    ∀ job, (workers digest redis later).state.jobs.get? id = some job → ¬ job.Running
  recorded : ∀ past, past <+: events → ∀ task ∈ (workers digest redis past).tasks,
    ∀ jobId filename message, task.call = .appendError jobId filename message →
      task.running = false →
      ∀ index finisher, (workers digest redis past).tasks.length ≤ index →
        (workers digest redis events).tasks[index]? = some finisher →
        ∀ now status text, finisher.call = .finish now jobId status text →
          ∀ step ∈ finisher.trail, ∀ id job, step.request = .setexJob id job →
            ⟨filename, message⟩ ∈ job.errors

section

variable {digest : Digest} {redis : RedisJobs} {events : List (Event Scan Mutation)}

theorem ended_kept (orderly : Orderly digest redis events) (keyed : Keyed redis)
    {past later : List (Event Scan Mutation)} (order : past <+: later)
    (within : later <+: events) {id : String} (ended : Ended digest redis past id) {job : Job}
    (present : (workers digest redis later).state.jobs.get? id = some job) : ¬ job.Running := by
  cases ended with
  | finished task member now jobId status message call stops step taken saved stored =>
      rcases List.mem_iff_getElem?.mp member with ⟨index, found⟩
      rcases step_taken found taken with ⟨before, task', next, early, present', same, asks, _, after⟩
      rcases step with ⟨request, draw, state⟩
      cases stored
      rcases saving_task (run_trails redis before task' (List.mem_of_getElem? present')) asks with
        ⟨readId, change, _, _, old, modifies, _, _, _, rfl, _⟩
      rw [same, call] at modifies
      cases modifies
      rcases workers_settle orderly keyed (early.trans order) within id job present with
        ⟨earlier, earlierPresent, gentle⟩
      rw [after] at earlierPresent
      change (Dictionary.set _ _ _).get? id = some earlier at earlierPresent
      rw [Dictionary.get?_set_self] at earlierPresent
      cases earlierPresent
      exact fun runs => stops (gentle.running runs)
  | cleared task member workspaceId knowledgeBaseId excludeJobId call step taken deleted =>
      rcases List.mem_iff_getElem?.mp member with ⟨index, found⟩
      rcases step_taken found taken with ⟨before, task', next, early, _, _, _, _, after⟩
      rcases step with ⟨request, draw, state⟩
      cases deleted
      rcases workers_settle orderly keyed (early.trans order) within id job present with
        ⟨earlier, earlierPresent, _⟩
      rw [after] at earlierPresent
      change (Dictionary.erase _ _).get? id = some earlier at earlierPresent
      rw [Dictionary.get?_erase_self] at earlierPresent
      cases earlierPresent

/-- Once a call to append an error has returned, the job is gone or has the error. -/
theorem appended_kept (orderly : Orderly digest redis events) (keyed : Keyed redis)
    {past later : List (Event Scan Mutation)} (order : past <+: later)
    (within : later <+: events) {task : Task (mutations digest)}
    (member : task ∈ (workers digest redis past).tasks) {jobId filename message : String}
    (named : jobId ≠ "") (call : task.call = .appendError jobId filename message)
    (returned : task.running = false) {job : Job}
    (present : (workers digest redis later).state.jobs.get? jobId = some job) :
    ⟨filename, message⟩ ∈ job.errors := by
  have settled : ∀ before, before <+: past → Settles (workers digest redis before).state
      (workers digest redis later).state :=
    fun before early => workers_settle orderly keyed (early.trans order) within
  have reached : ∀ before, before <+: past → Keyed (workers digest redis before).state :=
    fun before early => workers_keyed orderly keyed ((early.trans order).trans within)
  have follows := run_trails redis past task member
  rcases List.mem_iff_getElem?.mp member with ⟨index, found⟩
  rcases task with ⟨called, trail, remaining⟩
  cases call
  cases remaining with
  | call request next => cases returned
  | done result =>
      rcases follows_modify_done named follows with
        ⟨step, taken, asked, absent⟩ | ⟨scan, state, old, save, split, stored, saved⟩
      · rcases step_taken found taken with ⟨before, _, _, early, _, _, _, same, _⟩
        rcases settled before ((List.prefix_append _ _).trans early) jobId job present with
          ⟨earlier, earlierPresent, _⟩
        rw [same, absent] at earlierPresent
        cases earlierPresent
      · change trail = _ at split
        have readTaken : (⟨.getJob jobId, scan, state⟩ : Step Command Scan RedisJobs) ∈ trail := by
          rw [split]
          exact List.mem_cons_self
        have saveTaken : save ∈ trail := by
          rw [split]
          exact List.mem_cons_of_mem _ List.mem_cons_self
        rcases step_taken found readTaken with ⟨reading, _, _, readEarly, _, _, _, readState, _⟩
        rcases step_taken found saveTaken with ⟨before, _, _, early, _, _, _, _, after⟩
        have oldId : old.id = jobId := by
          apply reached reading ((List.prefix_append _ _).trans readEarly) jobId old
          rw [readState]
          exact stored
        rcases settled _ early jobId job present with ⟨earlier, earlierPresent, gentle⟩
        rcases save with ⟨request, draw, saving⟩
        cases saved
        rw [after] at earlierPresent
        change (Dictionary.set old.id _ _).get? jobId = some earlier at earlierPresent
        rw [oldId, Dictionary.get?_set_self] at earlierPresent
        cases earlierPresent
        exact gentle.errors (List.mem_append_right _ List.mem_cons_self)

/-- In every orderly run of any number of workers no update is lost. -/
theorem run_updates_kept (orderly : Orderly digest redis events) (keyed : Keyed redis) :
    UpdatesKept digest redis events where
  ended _ _ order within _ ended _ present := ended_kept orderly keyed order within ended present
  recorded past within task member jobId filename message call returned index finisher beyond
      found now status text finishes step taken id job saved := by
    rcases step_taken found taken with
      ⟨saving, task', next, savingEarly, present, same, asks, _, _⟩
    rcases step with ⟨request, draw, state⟩
    cases saved
    rcases saving_task (run_trails redis saving task' (List.mem_of_getElem? present)) asks with
      ⟨readId, change, read, before, old, modifies, named, trail, stored, rfl, _⟩
    rw [same, finishes] at modifies
    cases modifies
    have readTaken : (⟨.getJob jobId, read, before⟩ : Step Command Scan RedisJobs) ∈
        task'.trail := by
      rw [trail]
      exact List.mem_cons_self
    rcases step_taken present readTaken with
      ⟨reading, reader, _, early, readerFound, _, _, readState, _⟩
    have early := (List.prefix_append _ _).trans early
    have savingWithin := (List.prefix_append _ _).trans savingEarly
    have readingWithin := early.trans savingWithin
    have order : past <+: reading := by
      rcases List.prefix_or_prefix_of_prefix within readingWithin with before | after
      · exact before
      · have fewer : (workers digest redis reading).tasks.length ≤
            (workers digest redis past).tasks.length := run_tasks_length after
        have started := (List.getElem?_eq_some_iff.mp readerFound).1
        omega
    have read : (workers digest redis reading).state.jobs.get? jobId = some old := by
      rw [readState]
      exact stored
    have appended := appended_kept orderly keyed order readingWithin member named call returned
      read
    exact appended

end

/-- One job is stored, and it is running. -/
def runningRedis : RedisJobs where
  jobs := Dictionary.empty.set "j" (exampleJob "j" "file_upload" "running" "a")
  active := .empty

theorem runningRedis_keyed : Keyed runningRedis := by
  intro id job present
  change (Dictionary.set "j" _ _).get? id = some job at present
  rw [Dictionary.get?_set] at present
  split at present
  · rename_i same
    cases present
    exact same.symm
  · cases present

/-- An error is appended and the job is finished, one after the other. -/
def orderlyEvents : List (Event Scan Mutation) :=
  [.start (.appendError "j" "a.pdf" "boom"), .step 0 none, .step 0 none,
    .start (.finish 1 "j" "completed" "done"), .step 1 none, .step 1 none]

theorem run_updates_kept_orderly :
    UpdatesKept exampleDigest runningRedis orderlyEvents := by
  apply run_updates_kept _ runningRedis_keyed
  constructor
  · intro past index scan within task found savedId saved next asks jobId read before trail
    rcases eq_take_of_concat_prefix within with ⟨same, happens⟩
    generalize past.length = position at same happens
    subst same
    match position with
    | 0 => cases happens
    | 1 =>
        cases happens
        cases found
        cases asks
    | 2 =>
        cases happens
        cases found
        cases trail
        rfl
    | 3 => cases happens
    | 4 =>
        cases happens
        cases found
        cases asks
    | 5 =>
        cases happens
        cases found
        cases trail
        rfl
    | _ + 6 => cases happens
  · intro past within task member jobId patch call
    have started := within.subset (run_started member)
    simp [orderlyEvents, call] at started
  · intro past within task member now jobId status message call read before trail old present runs
    have started := within.subset (run_started member)
    simp only [orderlyEvents, call, List.mem_cons, Event.start.injEq, reduceCtorEq,
      Mutation.finish.injEq, List.not_mem_nil, or_false, false_or] at started
    rw [started.2.2.1] at runs
    exact absurd runs (by decide)

/-- A progress update has read the job before it is finished, and saves it after. -/
def overtakenEvents : List (Event Scan Mutation) :=
  [.start (.update "j" { message := some "working" }),
    .start (.finish 1 "j" "completed" "done"), .step 0 none, .step 1 none, .step 1 none,
    .step 0 none]

/-- The finished job is running again. -/
theorem finished_job_runs : ¬ UpdatesKept exampleDigest runningRedis overtakenEvents := by
  intro kept
  have stopped := kept.ended (overtakenEvents.take 5) overtakenEvents ⟨_, rfl⟩ List.prefix_rfl "j"
    (.finished _ (List.mem_of_getElem? (i := 1) rfl) 1 "j" "completed" "done" rfl (by decide)
      ⟨.setexJob "j" ((exampleJob "j" "file_upload" "running" "a").finish 1 "completed" "done"),
        none, _⟩ (List.mem_of_getElem? (i := 1) rfl) _ rfl)
    { exampleJob "j" "file_upload" "running" "a" with message := "working" }
    (by decide +kernel)
  exact absurd (by decide) stopped

end RAGuardian.Jobs
