import Mathlib.Algebra.Order.Field.Rat
import Mathlib.Tactic.Linarith
import RAGuardian.Access.RateLimiter
import RAGuardian.Foundation.SlidingWindow

/-! # The rate is bounded

With the lock every window has at most as many allowed calls as the limit says. In Redis
this depends on what happens between the commands of a call. -/

namespace RAGuardian.Access

open Concurrency Execution SlidingWindow

variable {limit : RateLimit}

/-! ## In memory -/

/-- The calls that still count, as the limiter has stored them. -/
def storedTimes (limit : RateLimit) (currentTime : ℚ) (clientIp : String)
    (requests : Requests) : List ℚ :=
  ((requests.get? clientIp).getD []).filter fun timestamp =>
    currentTime - timestamp < limit.windowSeconds

theorem isAllowedMemory_allows {currentTime : ℚ} {clientIp : String} {requests : Requests}
    (room : (storedTimes limit currentTime clientIp requests).length < limit.maxRequests) :
    isAllowedMemory limit currentTime clientIp requests = ((true, 0), requests.set clientIp
      (storedTimes limit currentTime clientIp requests ++ [currentTime])) := by
  unfold isAllowedMemory
  rw [← storedTimes]
  cases stored : storedTimes limit currentTime clientIp requests with
  | nil => rfl
  | cons oldest others =>
      rw [stored, List.length_cons] at room
      simp [Nat.not_le.mpr room]

theorem isAllowedMemory_refuses {currentTime : ℚ} {clientIp : String} {requests : Requests}
    (full : limit.maxRequests ≤ (storedTimes limit currentTime clientIp requests).length) :
    (isAllowedMemory limit currentTime clientIp requests).1.1 = false ∧
      (isAllowedMemory limit currentTime clientIp requests).2 = requests.set clientIp
        (storedTimes limit currentTime clientIp requests) := by
  unfold isAllowedMemory
  rw [← storedTimes]
  cases stored : storedTimes limit currentTime clientIp requests with
  | nil =>
      rw [stored] at full
      exact absurd (limit.maxRequests_pos.trans full) (Nat.not_succ_le_zero 0)
  | cons oldest others =>
      rw [stored, List.length_cons] at full
      simp [full]

theorem storedTimes_set_of_ne {time : ℚ} {clientIp other : String} {requests : Requests}
    (different : other ≠ clientIp) (timestamps : List ℚ) :
    storedTimes limit time other (requests.set clientIp timestamps) =
      storedTimes limit time other requests := by
  rw [storedTimes, storedTimes, Dictionary.get?_set_of_ne different]

/-- The stored times are those of the allowed calls that may still count. -/
structure MemoryLimiter.Sound (limit : RateLimit) (limiter : MemoryLimiter) : Prop where
  remembers : ∀ clientIp time, limiter.now ≤ time →
    storedTimes limit time clientIp limiter.requests =
      (limiter.allowedTo clientIp).filter fun timestamp => time - timestamp < limit.windowSeconds
  bounded : ∀ clientIp,
    Bounded limit.maxRequests (limit.windowSeconds : ℚ) (limiter.allowedTo clientIp)

/-- What counts later counts now. -/
theorem filter_recent {now later window : ℚ} (order : now ≤ later) (times : List ℚ) :
    (times.filter fun time => now - time < window).filter (fun time => later - time < window) =
      times.filter fun time => later - time < window := by
  rw [List.filter_filter]
  apply List.filter_congr
  intro time _
  by_cases counts : later - time < window
  · have still : now - time < window := by linarith
    simp [counts, still]
  · simp [counts]

theorem MemoryCall.apply_sound (call : MemoryCall) {limiter : MemoryLimiter}
    (sound : limiter.Sound limit) : (call.apply limit limiter).Sound limit := by
  have order : limiter.now ≤ limiter.now + call.elapsed :=
    le_add_of_nonneg_right call.elapsed.coe_nonneg
  generalize currentTime_eq : limiter.now + (call.elapsed : ℚ) = currentTime at order
  have remembered := sound.remembers call.clientIp currentTime order
  rcases Nat.lt_or_ge (storedTimes limit currentTime call.clientIp limiter.requests).length
    limit.maxRequests with room | full
  · have after : call.apply limit limiter = {
        now := currentTime
        requests := limiter.requests.set call.clientIp
          (storedTimes limit currentTime call.clientIp limiter.requests ++ [currentTime])
        allowed := limiter.allowed ++ [(call.clientIp, currentTime)] } := by
      rw [MemoryCall.apply, currentTime_eq, isAllowedMemory_allows room]
      rfl
    rw [after]
    constructor
    · intro clientIp time later
      by_cases same : clientIp = call.clientIp
      · subst same
        rw [storedTimes, Dictionary.get?_set_self, Option.getD_some, List.filter_append,
          MemoryLimiter.allowedTo, List.filter_append, List.map_append, List.filter_append,
          ← MemoryLimiter.allowedTo, remembered, filter_recent later]
        simp
      · rw [storedTimes_set_of_ne same, sound.remembers clientIp time (order.trans later)]
        simp [MemoryLimiter.allowedTo, Ne.symm same]
    · intro clientIp
      by_cases same : clientIp = call.clientIp
      · subst same
        have recent_lt : recent (limit.windowSeconds : ℚ) currentTime
            (limiter.allowedTo call.clientIp) < limit.maxRequests := by
          rw [recent, List.countP_eq_length_filter, ← remembered]
          exact room
        refine ((sound.bounded call.clientIp).add recent_lt).perm ?_
        simp only [MemoryLimiter.allowedTo, List.filter_append, List.map_append]
        simp
      · simpa [MemoryLimiter.allowedTo, Ne.symm same] using sound.bounded clientIp
  · have refused := isAllowedMemory_refuses full
    have after : call.apply limit limiter = {
        now := currentTime
        requests := limiter.requests.set call.clientIp
          (storedTimes limit currentTime call.clientIp limiter.requests)
        allowed := limiter.allowed } := by
      rw [MemoryCall.apply, currentTime_eq]
      simp [refused.1, refused.2]
    rw [after]
    constructor
    · intro clientIp time later
      by_cases same : clientIp = call.clientIp
      · subst same
        rw [storedTimes, Dictionary.get?_set_self, Option.getD_some, remembered,
          filter_recent later]
        rfl
      · rw [storedTimes_set_of_ne same, sound.remembers clientIp time (order.trans later)]
        rfl
    · exact sound.bounded

theorem memoryRun_sound (limit : RateLimit) (start : ℚ) (calls : List MemoryCall) :
    (memoryRun limit start calls).Sound limit := by
  apply run_invariant (fun _ => True) (fun call limiter _ => call.apply_sound) calls
    fun _ _ => trivial
  exact ⟨fun _ _ _ => rfl, fun _ => .nil⟩

/-- A call is allowed exactly if the window that ends with it has room. -/
theorem memory_allows_iff (limit : RateLimit) (start : ℚ) (calls : List MemoryCall)
    (call : MemoryCall) :
    let limiter := memoryRun limit start calls
    let now := limiter.now + call.elapsed
    (isAllowedMemory limit now call.clientIp limiter.requests).1.1 = true ↔
      recent (limit.windowSeconds : ℚ) now (limiter.allowedTo call.clientIp) <
        limit.maxRequests := by
  intro limiter now
  rw [recent, List.countP_eq_length_filter, ← (memoryRun_sound limit start calls).remembers _ now
    (le_add_of_nonneg_right call.elapsed.coe_nonneg)]
  rcases Nat.lt_or_ge (storedTimes limit now call.clientIp limiter.requests).length
    limit.maxRequests with room | full
  · simpa [isAllowedMemory_allows room] using room
  · simpa [isAllowedMemory_refuses full] using full

/-! ## In Redis -/

/-- What a call has done so far. -/
structure CallView where
  key : String
  reading : Option ℚ
  pruned : Bool
  added : Option ℚ
  running : Bool

/-- The call has read the time and has not returned. -/
def CallView.Ongoing (key : String) (view : CallView) : Prop :=
  view.key = key ∧ view.running = true ∧ view.reading.isSome = true

/-- The readings the calls have added to a set. -/
def addedTo (key : String) (views : List CallView) : List ℚ :=
  views.filterMap fun view => if view.key = key then view.added else none

/-- The score is too old for whoever adds from now on. -/
def Passed (limit : RateLimit) (key : String) (views : List CallView) (now score : ℚ) : Prop :=
  (∃ view ∈ views, view.key = key ∧ view.pruned = true ∧ ∃ reading, view.reading = some reading ∧
      score + limit.windowSeconds ≤ reading) ∨
    (score + limit.windowSeconds ≤ now ∧ ∀ view ∈ views, view.Ongoing key →
      ∀ reading, view.reading = some reading → score + limit.windowSeconds ≤ reading)

/-- What has been added to a set is there, or too old. The set does not expire before
its scores are too old, unless a call is under way. -/
structure Kept (limit : RateLimit) (key : String) (views : List CallView) (server : ScoreServer) :
    Prop where
  read : ∀ view ∈ views, ∀ reading, view.reading = some reading → reading ≤ server.now
  added : ∀ view ∈ views, ∀ score, view.added = some score → view.reading = some score
  split : ∃ gone, (addedTo key views).Perm (gone ++ server.scores key) ∧
    ∀ score ∈ gone, Passed limit key views server.now score
  timely : (∃ view ∈ views, view.Ongoing key) ∨ ∀ set deadline,
    server.sets.get? key = some set → set.deadline = some deadline →
      ∀ score ∈ set.scores, score + limit.windowSeconds < deadline
  bounded : Bounded limit.maxRequests (limit.windowSeconds : ℚ) (addedTo key views)

namespace Kept

variable {key : String} {views others : List CallView} {server : ScoreServer}

theorem perm (kept : Kept limit key views server) (same : views.Perm others) :
    Kept limit key others server where
  read view member := kept.read view (same.mem_iff.mpr member)
  added view member := kept.added view (same.mem_iff.mpr member)
  split := by
    rcases kept.split with ⟨gone, split, passed⟩
    refine ⟨gone, (same.filterMap _).symm.trans split, ?_⟩
    intro score member
    rcases passed score member with ⟨view, viewed, pruned⟩ | ⟨old, ongoing⟩
    · exact .inl ⟨view, same.mem_iff.mp viewed, pruned⟩
    · exact .inr ⟨old, fun view viewed => ongoing view (same.mem_iff.mpr viewed)⟩
  timely := by
    rcases kept.timely with ⟨view, member, ongoing⟩ | timely
    · exact .inl ⟨view, same.mem_iff.mp member, ongoing⟩
    · exact .inr timely
  bounded := kept.bounded.perm (same.filterMap _).symm

/-- The scores of a set are readings. -/
theorem scores_le (kept : Kept limit key views server) {score : ℚ}
    (member : score ∈ server.scores key) : score ≤ server.now := by
  rcases kept.split with ⟨gone, split, -⟩
  have added := split.mem_iff.mpr (List.mem_append_right gone member)
  rcases List.mem_filterMap.mp added with ⟨view, viewed, equal⟩
  split at equal
  · exact kept.read view viewed score (kept.added view viewed score equal)
  · cases equal

end Kept

/-! ### Time passes -/

/-- The set of a key expires while time passes. -/
def expires (key : String) (elapsed : ℚ≥0) (server : ScoreServer) : Bool :=
  (server.sets.get? key).any fun set =>
    set.deadline.any fun deadline => deadline < server.now + elapsed

section

variable {key : String} {server : ScoreServer} {elapsed : ℚ≥0} {views : List CallView}

theorem get?_elapse : (server.elapse elapsed).sets.get? key =
    if expires key elapsed server then none else server.sets.get? key := by
  apply Option.ext
  intro set
  rw [ScoreServer.elapse, Dictionary.get?_removeWhere, expires]
  cases found : server.sets.get? key with
  | none => simp
  | some present =>
      by_cases expired : (present.deadline.any fun deadline =>
          decide (deadline < server.now + elapsed)) = true
      · simp only [Option.any_some, expired, if_true, reduceCtorEq, iff_false, not_and]
        rintro ⟨rfl⟩
        simp [expired]
      · simp only [Option.any_some, expired]
        constructor
        · exact fun held => held.1
        · rintro ⟨rfl⟩
          exact ⟨rfl, by simpa using expired⟩

theorem scores_elapse : (server.elapse elapsed).scores key =
    if expires key elapsed server then [] else server.scores key := by
  rw [ScoreServer.scores, ScoreServer.scores, get?_elapse]
  split <;> rfl

theorem Kept.elapse (kept : Kept limit key views server)
    (idle : expires key elapsed server = true → ∀ view ∈ views, ¬ view.Ongoing key) :
    Kept limit key views (server.elapse elapsed) := by
  have later : server.now ≤ (server.elapse elapsed).now :=
    le_add_of_nonneg_right elapsed.coe_nonneg
  have still : ∀ score, Passed limit key views server.now score →
      Passed limit key views (server.elapse elapsed).now score :=
    fun score passed => passed.imp_right fun old => ⟨old.1.trans later, old.2⟩
  constructor
  · exact fun view member reading known => (kept.read view member reading known).trans later
  · exact kept.added
  · rcases kept.split with ⟨gone, split, passed⟩
    rw [scores_elapse]
    split
    · rename_i expired
      refine ⟨gone ++ server.scores key, by simpa using split, ?_⟩
      intro score member
      rcases List.mem_append.mp member with gone | stored
      · exact still score (passed score gone)
      · -- nobody is under way, so the scores have been there when the deadline was set
        have free := idle expired
        refine .inr ⟨?_, fun view viewed ongoing => absurd ongoing (free view viewed)⟩
        rcases kept.timely with ⟨view, viewed, ongoing⟩ | timely
        · exact absurd ongoing (free view viewed)
        · cases found : server.sets.get? key with
          | none =>
              rw [ScoreServer.scores, found] at stored
              cases stored
          | some set =>
              simp only [expires, found, Option.any_some, Option.any_eq_true,
                decide_eq_true_eq] at expired
              rcases expired with ⟨deadline, known, reached⟩
              rw [ScoreServer.scores, found] at stored
              exact (timely set deadline found known score stored).le.trans reached.le
    · exact ⟨gone, split, fun score member => still score (passed score member)⟩
  · refine kept.timely.imp_right fun timely set deadline found => timely set deadline ?_
    rw [get?_elapse] at found
    split at found
    · cases found
    · exact found
  · exact kept.bounded

end

/-! ### Commands -/

section

variable {key other : String} {server : ScoreServer}

theorem scores_set {sets : Dictionary String ScoreSet} {now : ℚ} {set : ScoreSet} :
    (ScoreServer.mk now (sets.set key set)).scores key = set.scores := by
  simp [ScoreServer.scores]

theorem scores_prune (cutoff : ℚ) : (server.prune key cutoff).scores key =
    (server.scores key).filter fun score => ¬ (0 ≤ score ∧ score ≤ cutoff) := by
  unfold ScoreServer.prune
  cases found : server.sets.get? key with
  | none => simp [ScoreServer.scores, found]
  | some set =>
      have stored : server.scores key = set.scores := by simp [ScoreServer.scores, found]
      rw [stored]
      dsimp only
      split
      · rename_i empty
        rw [empty]
        simp [ScoreServer.scores, Dictionary.get?_erase_self]
      · exact scores_set

theorem scores_add (score : ℚ) :
    (server.add key score).scores key = server.scores key ++ [score] :=
  scores_set

theorem scores_setDeadline (seconds : Nat) :
    (server.setDeadline key seconds).scores key = server.scores key := by
  unfold ScoreServer.setDeadline
  cases found : server.sets.get? key with
  | none => rfl
  | some set => simp [ScoreServer.scores, found]

theorem deadline_setDeadline {seconds : Nat} {set : ScoreSet}
    (found : (server.setDeadline key seconds).sets.get? key = some set) :
    set.deadline = some (server.now + seconds) := by
  unfold ScoreServer.setDeadline at found
  cases present : server.sets.get? key with
  | none =>
      rw [present] at found
      dsimp only at found
      rw [present] at found
      cases found
  | some stored =>
      rw [present] at found
      simp only [Dictionary.get?_set_self, Option.some.injEq] at found
      rw [← found]

/-- The key a command is about. -/
def ScoreCommand.key? : ScoreCommand → Option String
  | .time => none
  | .pruneAndCount key _ | .lowest key | .zadd key _ | .expire key _ => some key

theorem serveScores_now (command : ScoreCommand) :
    (serveScores command server).2.now = server.now := by
  cases command with
  | time => rfl
  | lowest key => rfl
  | zadd key score => rfl
  | pruneAndCount key cutoff =>
      change (server.prune key cutoff).now = server.now
      unfold ScoreServer.prune
      split <;> rfl
  | expire key seconds =>
      change (server.setDeadline key seconds).now = server.now
      unfold ScoreServer.setDeadline
      split <;> rfl

/-- A command has no effect on other keys. -/
theorem serveScores_get? {command : ScoreCommand} (different : command.key? ≠ some key) :
    (serveScores command server).2.sets.get? key = server.sets.get? key := by
  cases command with
  | time => rfl
  | lowest other => rfl
  | zadd other score =>
      exact Dictionary.get?_set_of_ne fun same => different (congrArg some same.symm)
  | pruneAndCount other cutoff =>
      have apart : key ≠ other := fun same => different (congrArg some same.symm)
      change (server.prune other cutoff).sets.get? key = server.sets.get? key
      unfold ScoreServer.prune
      split
      · rfl
      · dsimp only
        split
        · exact Dictionary.get?_erase_of_ne apart
        · exact Dictionary.get?_set_of_ne apart
  | expire other seconds =>
      have apart : key ≠ other := fun same => different (congrArg some same.symm)
      change (server.setDeadline other seconds).sets.get? key = server.sets.get? key
      unfold ScoreServer.setDeadline
      split
      · rfl
      · exact Dictionary.get?_set_of_ne apart

end

section

variable {key : String} {server : ScoreServer} {view : CallView} {others : List CallView}

theorem addedTo_goesOn {changed : CallView} (same : changed.key = view.key)
    (added : changed.added = view.added) :
    addedTo key (changed :: others) = addedTo key (view :: others) := by
  simp only [addedTo, List.filterMap_cons, same, added]

/-- What a call for another key does has no effect on a set. -/
theorem Kept.elsewhere {command : ScoreCommand} {changed : CallView}
    (kept : Kept limit key (view :: others) server) (different : view.key ≠ key)
    (same : changed.key = view.key) (about : command.key? ≠ some key)
    (read : ∀ reading, changed.reading = some reading → reading ≤ server.now)
    (added : ∀ score, changed.added = some score → changed.reading = some score) :
    Kept limit key (changed :: others) (serveScores command server).2 := by
  have changed_ne : changed.key ≠ key := same ▸ different
  have views : addedTo key (changed :: others) = addedTo key (view :: others) := by
    simp [addedTo, different, changed_ne]
  have scores : (serveScores command server).2.scores key = server.scores key := by
    rw [ScoreServer.scores, ScoreServer.scores, serveScores_get? about]
  constructor
  · rw [serveScores_now]
    intro other member
    rcases List.mem_cons.mp member with rfl | rest
    · exact read
    · exact kept.read other (List.mem_cons_of_mem view rest)
  · intro other member
    rcases List.mem_cons.mp member with rfl | rest
    · exact added
    · exact kept.added other (List.mem_cons_of_mem view rest)
  · rcases kept.split with ⟨gone, split, passed⟩
    rw [views, scores, serveScores_now]
    refine ⟨gone, split, ?_⟩
    intro score member
    rcases passed score member with ⟨pruner, viewed, own, pruned⟩ | ⟨old, ongoing⟩
    · rcases List.mem_cons.mp viewed with rfl | rest
      · exact absurd own different
      · exact .inl ⟨pruner, List.mem_cons_of_mem changed rest, own, pruned⟩
    · refine .inr ⟨old, fun other viewed busy => ?_⟩
      rcases List.mem_cons.mp viewed with rfl | rest
      · exact absurd busy.1 changed_ne
      · exact ongoing other (List.mem_cons_of_mem view rest) busy
  · rw [serveScores_get? about]
    rcases kept.timely with ⟨other, viewed, busy⟩ | timely
    · rcases List.mem_cons.mp viewed with rfl | rest
      · exact absurd busy.1 different
      · exact .inl ⟨other, List.mem_cons_of_mem changed rest, busy⟩
    · exact .inr timely
  · rw [views]
    exact kept.bounded

/-- A call that goes on with its reading leaves what has passed as it is. -/
theorem Passed.goesOn {changed : CallView} {now score : ℚ}
    (passed : Passed limit key (view :: others) now score) (same : changed.key = view.key)
    (reading : changed.reading = view.reading)
    (pruned : view.pruned = true → changed.pruned = true)
    (running : changed.running = true → view.running = true) :
    Passed limit key (changed :: others) now score := by
  rcases passed with ⟨pruner, viewed, own, done, known⟩ | ⟨old, ongoing⟩
  · rcases List.mem_cons.mp viewed with rfl | rest
    · exact .inl ⟨changed, List.mem_cons_self, same.trans own, pruned done, reading ▸ known⟩
    · exact .inl ⟨pruner, List.mem_cons_of_mem changed rest, own, done, known⟩
  · refine .inr ⟨old, fun other viewed busy => ?_⟩
    rcases List.mem_cons.mp viewed with rfl | rest
    · rw [reading]
      exact ongoing view List.mem_cons_self
        ⟨same ▸ busy.1, running busy.2.1, reading ▸ busy.2.2⟩
    · exact ongoing other (List.mem_cons_of_mem view rest) busy

theorem Kept.readTime (kept : Kept limit key (view :: others) server)
    (unread : view.reading = none) (nothing : view.added = none) :
    Kept limit key ({ view with reading := some server.now } :: others) server := by
  have views : addedTo key ({ view with reading := some server.now } :: others) =
      addedTo key (view :: others) := addedTo_goesOn rfl rfl
  constructor
  · intro other member reading known
    rcases List.mem_cons.mp member with rfl | rest
    · exact (Option.some.inj known).ge
    · exact kept.read other (List.mem_cons_of_mem view rest) reading known
  · intro other member score known
    rcases List.mem_cons.mp member with rfl | rest
    · rw [nothing] at known
      cases known
    · exact kept.added other (List.mem_cons_of_mem view rest) score known
  · rcases kept.split with ⟨gone, split, passed⟩
    refine ⟨gone, views ▸ split, ?_⟩
    intro score member
    rcases passed score member with ⟨pruner, viewed, own, done, known⟩ | ⟨old, ongoing⟩
    · rcases List.mem_cons.mp viewed with rfl | rest
      · rw [unread] at known
        rcases known with ⟨reading, impossible, -⟩
        cases impossible
      · exact .inl ⟨pruner, List.mem_cons_of_mem _ rest, own, done, known⟩
    · refine .inr ⟨old, fun other viewed busy reading known => ?_⟩
      rcases List.mem_cons.mp viewed with rfl | rest
      · exact Option.some.inj known ▸ old
      · exact ongoing other (List.mem_cons_of_mem view rest) busy reading known
  · rcases kept.timely with ⟨other, viewed, busy⟩ | timely
    · rcases List.mem_cons.mp viewed with rfl | rest
      · have known := busy.2.2
        rw [unread] at known
        cases known
      · exact .inl ⟨other, List.mem_cons_of_mem _ rest, busy⟩
    · exact .inr timely
  · exact views ▸ kept.bounded

theorem Kept.prune {reading : ℚ} (kept : Kept limit key (view :: others) server)
    (own : view.key = key) (running : view.running = true) (known : view.reading = some reading) :
    Kept limit key ({ view with pruned := true } :: others)
      (server.prune key (reading - limit.windowSeconds)) := by
  have now : (server.prune key (reading - limit.windowSeconds)).now = server.now :=
    serveScores_now (.pruneAndCount key _)
  constructor
  · rw [now]
    intro other member
    rcases List.mem_cons.mp member with rfl | rest
    · exact kept.read view List.mem_cons_self
    · exact kept.read other (List.mem_cons_of_mem view rest)
  · intro other member
    rcases List.mem_cons.mp member with rfl | rest
    · exact kept.added view List.mem_cons_self
    · exact kept.added other (List.mem_cons_of_mem view rest)
  · rcases kept.split with ⟨gone, split, passed⟩
    rw [now, scores_prune]
    refine ⟨gone ++ (server.scores key).filter fun score =>
      0 ≤ score ∧ score ≤ reading - limit.windowSeconds, ?_, ?_⟩
    · refine split.trans ?_
      rw [List.append_assoc]
      refine List.Perm.append_left gone ?_
      simpa only [decide_not] using (List.filter_append_perm (fun score : ℚ =>
        decide (0 ≤ score ∧ score ≤ reading - limit.windowSeconds)) (server.scores key)).symm
    · intro score member
      rcases List.mem_append.mp member with earlier | removed
      · exact (passed score earlier).goesOn rfl rfl (fun _ => rfl) id
      · have old := (List.mem_filter.mp removed).2
        rw [decide_eq_true_eq] at old
        exact .inl ⟨_, List.mem_cons_self, own, rfl, reading, known, by linarith [old.2]⟩
  · exact .inl ⟨_, List.mem_cons_self, own, running, by rw [known]; rfl⟩
  · have views : addedTo key ({ view with pruned := true } :: others) =
        addedTo key (view :: others) := addedTo_goesOn rfl rfl
    exact views ▸ kept.bounded

theorem Kept.add {reading : ℚ} (kept : Kept limit key (view :: others) server)
    (own : view.key = key) (running : view.running = true) (known : view.reading = some reading)
    (nothing : view.added = none) (room : (server.scores key).length < limit.maxRequests)
    (latest : ∀ other ∈ view :: others, other.key = key → other.pruned = true →
      ∀ time, other.reading = some time → time ≤ reading) :
    Kept limit key ({ view with added := some reading } :: others) (server.add key reading) := by
  have views : addedTo key ({ view with added := some reading } :: others) =
      reading :: addedTo key (view :: others) := by
    simp [addedTo, own, nothing]
  rcases kept.split with ⟨gone, split, passed⟩
  constructor
  · intro other member
    rcases List.mem_cons.mp member with rfl | rest
    · exact kept.read view List.mem_cons_self
    · exact kept.read other (List.mem_cons_of_mem view rest)
  · intro other member score equal
    rcases List.mem_cons.mp member with rfl | rest
    · exact known.trans equal
    · exact kept.added other (List.mem_cons_of_mem view rest) score equal
  · refine ⟨gone, ?_, fun score member => (passed score member).goesOn rfl rfl id id⟩
    rw [views, scores_add, ← List.append_assoc]
    exact (split.cons reading).trans (List.perm_append_singleton _ _).symm
  · exact .inl ⟨_, List.mem_cons_self, own, running, by rw [known]; rfl⟩
  · rw [views]
    refine kept.bounded.add ?_
    -- what has gone does not count any more
    have old : ∀ score ∈ gone, score + limit.windowSeconds ≤ reading := by
      intro score member
      rcases passed score member with ⟨pruner, viewed, ownPruner, done, time, read, old⟩ | passed
      · exact old.trans (latest pruner viewed ownPruner done time read)
      · exact passed.2 view List.mem_cons_self ⟨own, running, by rw [known]; rfl⟩ reading known
    have none : gone.countP (fun score => reading - score < limit.windowSeconds) = 0 := by
      rw [List.countP_eq_zero]
      intro score member counts
      rw [decide_eq_true_eq] at counts
      linarith [old score member]
    calc recent (limit.windowSeconds : ℚ) reading (addedTo key (view :: others))
        = (gone ++ server.scores key).countP (fun score => reading - score < limit.windowSeconds) :=
          split.countP_eq _
      _ = (server.scores key).countP (fun score => reading - score < limit.windowSeconds) := by
          rw [List.countP_append, none, Nat.zero_add]
      _ ≤ (server.scores key).length := List.countP_le_length
      _ < limit.maxRequests := room

theorem Kept.finish (kept : Kept limit key (view :: others) server) :
    Kept limit key ({ view with running := false } :: others)
      (server.setDeadline key (limit.windowSeconds + 1)) := by
  have now : (server.setDeadline key (limit.windowSeconds + 1)).now = server.now :=
    serveScores_now (.expire key _)
  have views : addedTo key ({ view with running := false } :: others) =
      addedTo key (view :: others) := addedTo_goesOn rfl rfl
  constructor
  · rw [now]
    intro other member
    rcases List.mem_cons.mp member with rfl | rest
    · exact kept.read view List.mem_cons_self
    · exact kept.read other (List.mem_cons_of_mem view rest)
  · intro other member
    rcases List.mem_cons.mp member with rfl | rest
    · exact kept.added view List.mem_cons_self
    · exact kept.added other (List.mem_cons_of_mem view rest)
  · rcases kept.split with ⟨gone, split, passed⟩
    rw [now, scores_setDeadline, views]
    exact ⟨gone, split, fun score member => (passed score member).goesOn rfl rfl id nofun⟩
  · refine .inr fun set deadline found known score member => ?_
    have stored : score ∈ server.scores key := by
      rw [← scores_setDeadline (limit.windowSeconds + 1), ScoreServer.scores, found]
      exact member
    rw [deadline_setDeadline found, Option.some.injEq] at known
    have before := kept.scores_le stored
    rw [← known]
    push_cast
    linarith
  · exact views ▸ kept.bounded

end

/-! ### Calls -/

variable {redisKey : String → String}

section

variable {key : String}

/-- Where a call is, after what it has read, pruned and added. -/
inductive Stage (limit : RateLimit) (key : String) :
    Option ℚ → Bool → Option ℚ → ScoreProgram (Bool × Int) → Prop
  | begun : Stage limit key none false none (.call .time fun (now : ℚ) =>
      .call (.pruneAndCount key (now - limit.windowSeconds)) (afterCount limit key now))
  | read (now : ℚ) : Stage limit key (some now) false none
      (.call (.pruneAndCount key (now - limit.windowSeconds)) (afterCount limit key now))
  | refusing (now : ℚ) (wait : Option ℚ → Int) : Stage limit key (some now) true none
      (.call (.lowest key) fun (oldest : Option ℚ) =>
        .call (.expire key (limit.windowSeconds + 1)) fun _ => .done (false, wait oldest))
  | adding (now : ℚ) : Stage limit key (some now) true none
      (.call (.zadd key now) fun _ =>
        .call (.expire key (limit.windowSeconds + 1)) fun _ => .done (true, 0))
  | refreshing (now : ℚ) (isAllowed : Bool) (wait : Int) :
      Stage limit key (some now) true (if isAllowed then some now else none)
        (.call (.expire key (limit.windowSeconds + 1)) fun _ => .done (isAllowed, wait))
  | returned (now : ℚ) (isAllowed : Bool) (wait : Int) :
      Stage limit key (some now) true (if isAllowed then some now else none)
        (.done (isAllowed, wait))

theorem afterCount_stage (now : ℚ) (count : Nat) :
    Stage limit key (some now) true none (afterCount limit key now count) := by
  unfold afterCount
  split
  · exact .refusing now _
  · exact .adding now

def hasPruned (task : LimiterTask limit redisKey) : Bool :=
  task.trail.any fun step =>
    match step.request with
    | .pruneAndCount _ _ => true
    | _ => false

def addedBy (task : LimiterTask limit redisKey) : Option ℚ :=
  task.trail.findSome? fun step =>
    match step.request with
    | .zadd _ score => some score
    | _ => none

def viewOf (task : LimiterTask limit redisKey) : CallView where
  key := redisKey task.call
  reading := readingOf task
  pruned := hasPruned task
  added := addedBy task
  running := task.running

def views (machine : LimiterMachine limit redisKey) : List CallView :=
  machine.tasks.map viewOf

/-- The call is where what it has done has brought it. -/
def Staged (task : LimiterTask limit redisKey) : Prop :=
  Stage limit (redisKey task.call) (readingOf task) (hasPruned task) (addedBy task) task.remaining

end

/-! ### Events -/

/-- An event that keeps the rate of a key: the set does not expire while a call is under
way, and a call adds its reading when the set has room and no later reading has pruned it. -/
def isOrderly (key : String) (machine : LimiterMachine limit redisKey) : LimiterEvent → Bool
  | .start _ => true
  | .step index elapsed =>
      (!expires key elapsed machine.state || !machine.tasks.any fun task =>
        decide (redisKey task.call = key) && task.running && (readingOf task).isSome) &&
      (machine.tasks[index]?).all fun task =>
        match task.remaining with
        | .call (.zadd other now) _ => decide (other ≠ key) ||
            (decide ((machine.state.scores key).length < limit.maxRequests) &&
              machine.tasks.all fun task => decide (redisKey task.call ≠ key) ||
                !hasPruned task || (readingOf task).all fun reading => decide (reading ≤ now))
        | _ => true

/-- Every call is where it should be, and the set of a key keeps what matters. -/
structure Orderly (key : String) (machine : LimiterMachine limit redisKey) : Prop where
  staged : ∀ task ∈ machine.tasks, Staged task
  kept : Kept limit key (views machine) machine.state

section

variable {key : String} {machine : LimiterMachine limit redisKey}

theorem Orderly.start (orderly : Orderly key machine) (clientIp : String) :
    Orderly key { machine with
      tasks := machine.tasks ++ [.begun (limiterSystem limit redisKey) clientIp] } := by
  have begun : (viewOf (.begun (limiterSystem limit redisKey) clientIp)).reading = none := rfl
  have nothing : (viewOf (.begun (limiterSystem limit redisKey) clientIp)).added = none := rfl
  have listed : views { machine with
      tasks := machine.tasks ++ [.begun (limiterSystem limit redisKey) clientIp] } =
        views machine ++ [viewOf (.begun (limiterSystem limit redisKey) clientIp)] := by
    simp [views]
  generalize viewOf (.begun (limiterSystem limit redisKey) clientIp) = view at *
  have same : addedTo key (views machine ++ [view]) = addedTo key (views machine) := by
    simp [addedTo, nothing]
  have kept := orderly.kept
  constructor
  · intro task member
    rcases List.mem_append.mp member with old | new
    · exact orderly.staged task old
    · rw [List.mem_singleton.mp new]
      exact .begun
  · rw [listed]
    constructor
    · intro other member reading known
      rcases List.mem_append.mp member with old | new
      · exact kept.read other old reading known
      · rw [List.mem_singleton.mp new, begun] at known
        cases known
    · intro other member score known
      rcases List.mem_append.mp member with old | new
      · exact kept.added other old score known
      · rw [List.mem_singleton.mp new, nothing] at known
        cases known
    · rcases kept.split with ⟨gone, split, passed⟩
      refine ⟨gone, same ▸ split, fun score member => ?_⟩
      rcases passed score member with ⟨pruner, viewed, pruned⟩ | ⟨old, ongoing⟩
      · exact .inl ⟨pruner, List.mem_append_left _ viewed, pruned⟩
      · refine .inr ⟨old, fun other viewed busy reading known => ?_⟩
        rcases List.mem_append.mp viewed with present | new
        · exact ongoing other present busy reading known
        · rw [List.mem_singleton.mp new, begun] at known
          cases known
    · rcases kept.timely with ⟨other, viewed, busy⟩ | timely
      · exact .inl ⟨other, List.mem_append_left _ viewed, busy⟩
      · exact .inr timely
    · exact same ▸ kept.bounded

/-- A step of a call changes its view only. -/
theorem views_set {index : Nat} {task : LimiterTask limit redisKey}
    (found : machine.tasks[index]? = some task) (changed : LimiterTask limit redisKey)
    (state : ScoreServer) : ∃ others,
      (views machine).Perm (viewOf task :: others) ∧
        (views { state := state, tasks := machine.tasks.set index changed }).Perm
          (viewOf changed :: others) := by
  rcases List.getElem?_eq_some_iff.mp found with ⟨within, rfl⟩
  refine ⟨(machine.tasks.eraseIdx index).map viewOf, ?_, ?_⟩
  · exact (List.getElem_cons_eraseIdx_perm within).symm.map viewOf
  · exact (List.set_perm_cons_eraseIdx within changed).map viewOf

end

section

variable {task : LimiterTask limit redisKey} {elapsed : ℚ≥0} {state : ScoreServer}
  {request : ScoreCommand} {next : request.Response → ScoreProgram (Bool × Int)}

theorem readingOf_answered : readingOf (task.answered elapsed state request next) =
    (readingOf task).or (match request with
      | .time => some (state.elapse elapsed).now
      | _ => none) := by
  rw [readingOf, Task.answered, List.findSome?_append, ← readingOf]
  cases request <;> rfl

theorem hasPruned_answered : hasPruned (task.answered elapsed state request next) =
    (hasPruned task || match request with
      | .pruneAndCount _ _ => true
      | _ => false) := by
  rw [hasPruned, Task.answered, List.any_append, ← hasPruned]
  cases request <;> simp

theorem addedBy_answered : addedBy (task.answered elapsed state request next) =
    (addedBy task).or (match request with
      | .zadd _ score => some score
      | _ => none) := by
  rw [addedBy, Task.answered, List.findSome?_append, ← addedBy]
  cases request <;> rfl

theorem viewOf_answered : viewOf (task.answered elapsed state request next) = {
    key := redisKey task.call
    reading := (readingOf task).or (match request with
      | .time => some (state.elapse elapsed).now
      | _ => none)
    pruned := hasPruned task || match request with
      | .pruneAndCount _ _ => true
      | _ => false
    added := (addedBy task).or (match request with
      | .zadd _ score => some score
      | _ => none)
    running := (task.answered elapsed state request next).running } := by
  rw [viewOf, readingOf_answered, hasPruned_answered, addedBy_answered]
  rfl

end

theorem running_afterCount (limit : RateLimit) (key : String) (now : ℚ) (count : Nat) :
    ∃ request next, afterCount limit key now count = .call request next := by
  unfold afterCount
  split
  · exact ⟨_, _, rfl⟩
  · exact ⟨_, _, rfl⟩

/-- A step of a call keeps the set, and the call where it should be. -/
theorem Kept.step {key : String} {task : LimiterTask limit redisKey} {others : List CallView}
    {state : ScoreServer} {elapsed : ℚ≥0} {request : ScoreCommand}
    {next : request.Response → ScoreProgram (Bool × Int)} (staged : Staged task)
    (asks : task.remaining = .call request next)
    (kept : Kept limit key (viewOf task :: others) (state.elapse elapsed))
    (room : ∀ now, request = .zadd key now →
      ((state.elapse elapsed).scores key).length < limit.maxRequests ∧
        ∀ other ∈ viewOf task :: others, other.key = key → other.pruned = true →
          ∀ time, other.reading = some time → time ≤ now) :
    Staged (task.answered elapsed state request next) ∧
      Kept limit key (viewOf (task.answered elapsed state request next) :: others)
        (serveScores request (state.elapse elapsed)).2 := by
  have running : task.running = true := Task.running_of_call asks
  rw [Staged, asks] at staged
  rw [Staged, viewOf_answered, readingOf_answered, hasPruned_answered, addedBy_answered]
  have view : viewOf task =
      ⟨redisKey task.call, readingOf task, hasPruned task, addedBy task, true⟩ := by
    rw [viewOf, running]
  rw [view] at kept room
  have read : ∀ reading, readingOf task = some reading → reading ≤ (state.elapse elapsed).now :=
    kept.read _ List.mem_cons_self
  generalize readingOf task = reading, hasPruned task = pruned, addedBy task = added at *
  cases staged with
  | begun => exact ⟨.read _, kept.readTime rfl rfl⟩
  | read now =>
      have goesOn : (task.answered elapsed state (.pruneAndCount (redisKey task.call)
          (now - limit.windowSeconds)) (afterCount limit (redisKey task.call) now)).running =
            true := by
        rcases running_afterCount limit (redisKey task.call) now _ with ⟨request, next, calls⟩
        exact Task.running_of_call calls
      refine ⟨afterCount_stage now _, ?_⟩
      rw [goesOn]
      by_cases own : redisKey task.call = key
      · subst own
        exact kept.prune rfl rfl rfl
      · exact kept.elsewhere own rfl (fun about => own (Option.some.inj about)) read nofun
  | refusing now wait =>
      exact ⟨.refreshing now false _, kept⟩
  | adding now =>
      refine ⟨.refreshing now true 0, ?_⟩
      by_cases own : redisKey task.call = key
      · subst own
        rcases room now rfl with ⟨free, latest⟩
        exact kept.add rfl rfl rfl rfl free latest
      · exact kept.elsewhere own rfl (fun about => own (Option.some.inj about)) read
          fun score added => added
  | refreshing now isAllowed wait =>
      have returned : Stage limit (redisKey task.call) (some now) true
          (if isAllowed then some now else none) (.done (isAllowed, wait)) :=
        .returned now isAllowed wait
      by_cases own : redisKey task.call = key
      · subst own
        have finished := kept.finish
        cases isAllowed with
        | false => exact ⟨returned, finished⟩
        | true => exact ⟨returned, finished⟩
      · have about : (ScoreCommand.expire (redisKey task.call) (limit.windowSeconds + 1)).key? ≠
            some key := fun about => own (Option.some.inj about)
        cases isAllowed with
        | false => exact ⟨returned, kept.elsewhere own rfl about read nofun⟩
        | true => exact ⟨returned, kept.elsewhere own rfl about read fun score added => added⟩

/-- One event keeps the set. -/
theorem Orderly.next {key : String} {machine : LimiterMachine limit redisKey} {event : LimiterEvent}
    (orderly : Orderly key machine) (allowed : isOrderly key machine event = true) :
    Orderly key (machine.next event) := by
  have moves := machine.moves event
  generalize machine.next event = after at moves ⊢
  cases moves with
  | idle => exact orderly
  | start clientIp free => exact orderly.start clientIp
  | step index elapsed task request next found asks =>
      have member := List.mem_of_getElem? found
      have runs : task.running = true := Task.running_of_call asks
      rw [isOrderly, found, Option.all_some, asks, Bool.and_eq_true] at allowed
      rcases allowed with ⟨idle, adds⟩
      have free : expires key elapsed machine.state = true →
          ∀ view ∈ views machine, ¬ view.Ongoing key := by
        intro expired view viewed ongoing
        rcases List.mem_map.mp viewed with ⟨other, listed, rfl⟩
        simp only [expired, Bool.not_true, Bool.false_or, Bool.not_eq_true',
          List.any_eq_false] at idle
        refine idle other listed ?_
        simpa [CallView.Ongoing, viewOf, and_assoc] using ongoing
      have elapsedKept := orderly.kept.elapse free
      rcases views_set found (task.answered elapsed machine.state request next)
        (serveScores request (machine.state.elapse elapsed)).2 with ⟨others, before, after⟩
      have stepped := Kept.step (orderly.staged task member) asks (elapsedKept.perm before) ?_
      · constructor
        · intro other listed
          rcases Machine.mem_set listed with old | rfl
          · exact orderly.staged other old
          · exact stepped.1
        · exact stepped.2.perm after.symm
      · rintro now rfl
        simp only [ne_eq, not_true_eq_false, decide_false, Bool.false_or, Bool.and_eq_true,
          decide_eq_true_eq] at adds
        constructor
        · refine lt_of_le_of_lt ?_ adds.1
          rw [scores_elapse]
          split
          · exact Nat.zero_le _
          · exact le_rfl
        · intro other viewed own pruned time known
          rcases List.mem_map.mp (before.mem_iff.mpr viewed) with ⟨owner, listed, rfl⟩
          have checked := List.all_eq_true.mp adds.2 owner listed
          simp only [viewOf] at own pruned known
          simpa [own, pruned, known] using checked

/-- A call that has returned that it is allowed has added its reading. -/
theorem Staged.allowed {task : LimiterTask limit redisKey} (staged : Staged task)
    (allowed : isAllowed task = true) : ∃ now, readingOf task = some now ∧ addedBy task = some now := by
  rw [isAllowed] at allowed
  rw [Staged] at staged
  generalize readingOf task = reading, hasPruned task = pruned, addedBy task = added,
    task.remaining = remaining at staged allowed
  cases staged with
  | returned now isAllowed wait =>
      dsimp only at allowed
      exact ⟨now, rfl, by rw [if_pos allowed]⟩
  | begun => cases allowed
  | read now =>
      unfold afterCount at allowed
      cases allowed
  | refusing now wait => cases allowed
  | adding now => cases allowed
  | refreshing now isAllowed wait => cases allowed

/-- The allowed calls of a client have added their readings to its set. -/
theorem Orderly.allowed_bounded {machine : LimiterMachine limit redisKey} {clientIp : String}
    (orderly : Orderly (redisKey clientIp) machine) :
    Bounded limit.maxRequests (limit.windowSeconds : ℚ) (allowedTo clientIp machine) := by
  refine orderly.kept.bounded.sublist ?_
  rw [allowedTo, addedTo, views, List.filterMap_map]
  have staged := orderly.staged
  generalize machine.tasks = tasks at staged
  induction tasks with
  | nil => exact List.Sublist.slnil
  | cons task rest induction =>
      have later := induction fun other member => staged other (List.mem_cons_of_mem task member)
      have here := staged task List.mem_cons_self
      by_cases chosen : (decide (task.call = clientIp) && isAllowed task) = true
      · rcases Bool.and_eq_true_iff.mp chosen with ⟨own, allowed⟩
        rcases here.allowed allowed with ⟨now, read, added⟩
        rw [List.filter_cons, if_pos chosen, List.filterMap_cons_some read,
          List.filterMap_cons_some (b := now)]
        · exact later.cons_cons now
        · simp [viewOf, of_decide_eq_true own, added]
      · rw [List.filter_cons, if_neg chosen]
        exact later.trans ((List.sublist_cons_self task rest).filterMap _)

/-- In every window the limiter allows no more calls than its limit. -/
theorem run_rate_bounded (limit : RateLimit) (start : ℚ) (clientIp : String) :
    (∀ calls, Bounded limit.maxRequests (limit.windowSeconds : ℚ)
      ((memoryRun limit start calls).allowedTo clientIp)) ∧
    ∀ (stateKeyPrefix : String) (digest : String → String) (events : List LimiterEvent),
      (∀ past event, past ++ [event] <+: events →
        isOrderly (limiterKey stateKeyPrefix digest clientIp)
          (limiterRun limit (limiterKey stateKeyPrefix digest) start past) event = true) →
      Bounded limit.maxRequests (limit.windowSeconds : ℚ)
        (allowedTo clientIp (limiterRun limit (limiterKey stateKeyPrefix digest) start events)) := by
  constructor
  · exact fun calls => (memoryRun_sound limit start calls).bounded clientIp
  · intro stateKeyPrefix digest events allowed
    suffices orderly : Orderly (limiterKey stateKeyPrefix digest clientIp)
      (limiterRun limit (limiterKey stateKeyPrefix digest) start events) from
      orderly.allowed_bounded
    induction events using List.reverseRecOn with
    | nil =>
        constructor
        · intro task member
          cases member
        · constructor
          · intro view member
            cases member
          · intro view member
            cases member
          · exact ⟨[], .refl _, nofun⟩
          · exact .inr fun set deadline found => by cases found
          · exact .nil
    | append_singleton past event induction =>
        rw [limiterRun, run_concat]
        refine Orderly.next (induction fun earlier other within => ?_)
          (allowed past event List.prefix_rfl)
        exact allowed earlier other (within.trans (List.prefix_append past [event]))

/-! ## Sample runs -/

/-- One call a minute. -/
def sampleLimit : RateLimit := ⟨1, 60, by decide, by decide⟩

def sampleKey : String → String :=
  limiterKey "rag" fun _ => "130e4daba9786013f48dc2fccf39f91a0b3ec2cfba74ff0b645acf95229df69e"

/-- Three calls one after the other; the second one comes too early. -/
def sequentialCalls : List LimiterEvent :=
  [.start "10.0.0.7", .step 0 1, .step 0 0, .step 0 0, .step 0 1,
    .start "10.0.0.7", .step 1 10, .step 1 0, .step 1 0, .step 1 0,
    .start "10.0.0.7", .step 2 50, .step 2 0, .step 2 0, .step 2 0]

theorem run_rate_bounded_sequential : Bounded 1 (60 : ℚ)
    (allowedTo "10.0.0.7" (limiterRun sampleLimit sampleKey 0 sequentialCalls)) := by
  refine (run_rate_bounded sampleLimit 0 "10.0.0.7").2 "rag" _ sequentialCalls ?_
  intro past event within
  have checked : checkEach (fun past event => isOrderly (sampleKey "10.0.0.7")
      (limiterRun sampleLimit sampleKey 0 past) event) sequentialCalls = true := by
    decide +kernel
  exact checkEach_sound checked within

/-- Two workers count before either adds. -/
def overlappingCalls : List LimiterEvent :=
  [.start "10.0.0.7", .start "10.0.0.7", .step 0 1, .step 1 0, .step 0 0, .step 1 0,
    .step 0 0, .step 1 0, .step 0 0, .step 1 0]

/-- Both calls are allowed in the same second. -/
theorem overlapping_calls_exceed : ¬ Bounded 1 (60 : ℚ)
    (allowedTo "10.0.0.7" (limiterRun sampleLimit sampleKey 0 overlappingCalls)) := by
  intro bounded
  have both : (allowedTo "10.0.0.7" (limiterRun sampleLimit sampleKey 0 overlappingCalls)).countP
      (fun time => (1 : ℚ) ≤ time ∧ time < 1 + 60) = 2 := by
    decide +kernel
  have within := (bounded 1).1
  rw [both] at within
  exact absurd within (by decide)

end RAGuardian.Access
