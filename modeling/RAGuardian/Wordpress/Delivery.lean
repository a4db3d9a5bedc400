import RAGuardian.Wordpress.ImportQueue

/-! # Delivery of the import queue

The state of an import that is stored at any time counts lines that were submitted. It may
still be the state of another queue than the one prepared last, when a batch writes back
what it has read before. -/

namespace RAGuardian.Wordpress

open Concurrency Execution Program

variable {Article : Type} (format : Format Article)

/-! ## What a state says -/

/-- Queue files keep their content, and submissions are not taken back. -/
structure Grows (before after : Site Article) : Prop where
  files : ∀ (path : QueuePath) (file : QueueFile), before.files[path]? = some file →
    ∃ later : QueueFile, after.files[path]? = some later ∧ later.content = file.content
  submitted : before.submitted ⊆ after.submitted

/-- The state of an import of these articles, of which the first ones were processed up to
an offset in the queue file. -/
structure Tracks (articles : List Article) (site : Site Article) (stored : Stored)
    (offset : Nat) : Prop where
  written : ∃ file : QueueFile, site.files[stored.queue]? = some file ∧
    file.content = Lines.join (queueLines format articles)
  named : ∀ path, stored.state.queuePath = some path → path = stored.queue
  total : stored.state.total = articles.length
  counted : stored.state.succeeded + stored.state.failed = stored.state.processed
  within : stored.state.processed ≤ stored.state.total
  position : offset = Lines.position (queueLines format articles) stored.state.processed
  submitted : ∀ count < stored.state.processed, ∃ submission ∈ site.submitted,
    submission.queue = stored.queue ∧
      submission.offset = Lines.position (queueLines format articles) count

/-- A state that may be stored: when it is completed, all lines were processed. -/
structure StoredSound (site : Site Article) (stored : Stored) : Prop where
  tracks : ∃ articles, Tracks format articles site stored stored.state.queueOffset
  completed : stored.state.status = .completed → stored.state.processed = stored.state.total

def Sound (site : Site Article) : Prop :=
  ∀ stored, site.option = some stored → StoredSound format site stored

theorem Grows.refl (site : Site Article) : Grows site site where
  files _ file found := ⟨file, found, rfl⟩
  submitted := List.Subset.refl _

theorem Grows.trans {first second third : Site Article} (earlier : Grows first second)
    (later : Grows second third) : Grows first third where
  files path file found := by
    obtain ⟨between, kept, same⟩ := earlier.files path file found
    obtain ⟨last, present, equal⟩ := later.files path between kept
    exact ⟨last, present, equal.trans same⟩
  submitted := List.Subset.trans earlier.submitted later.submitted

variable {format}

theorem Tracks.mono {articles : List Article} {before after : Site Article} {stored : Stored}
    {offset : Nat} (tracks : Tracks format articles before stored offset)
    (grows : Grows before after) : Tracks format articles after stored offset :=
  { tracks with
    written := by
      obtain ⟨file, found, content⟩ := tracks.written
      obtain ⟨later, present, same⟩ := grows.files _ file found
      exact ⟨later, present, same.trans content⟩
    submitted := by
      intro count processed
      obtain ⟨submission, member, same⟩ := tracks.submitted count processed
      exact ⟨submission, grows.submitted member, same⟩ }

theorem StoredSound.mono {before after : Site Article} {stored : Stored}
    (sound : StoredSound format before stored) (grows : Grows before after) :
    StoredSound format after stored where
  tracks := by
    obtain ⟨articles, tracks⟩ := sound.tracks
    exact ⟨articles, tracks.mono grows⟩
  completed := sound.completed

/-! ## Requests -/

theorem grows_delete (path : QueuePath) (site : Site Article) : Grows site (site.delete path) where
  files other file found := by
    rw [Site.delete, List.getElem?_modify, found]
    split
    · exact ⟨_, rfl, rfl⟩
    · exact ⟨_, rfl, rfl⟩
  submitted := List.Subset.refl _

theorem answer_grows (draw : Draw) (request : Request Article) (site : Site Article) :
    Grows site (answer draw request site).2 := by
  cases request with
  | writeQueue content =>
      refine ⟨fun path file found => ⟨file, ?_, rfl⟩, List.Subset.refl _⟩
      exact (List.getElem?_append_left (List.getElem?_eq_some_iff.mp found).1).trans found
  | deleteFile path =>
      rw [answer]
      split
      · exact grows_delete path site
      · exact .refl site
  | ingestArticle submission =>
      exact ⟨fun path file found => ⟨file, found, rfl⟩, List.subset_append_left _ _⟩
  | _ => exact ⟨fun path file found => ⟨file, found, rfl⟩, List.Subset.refl _⟩

def Request.saves : Request Article → Bool
  | .saveImportState _ => true
  | _ => false

theorem answer_option (draw : Draw) (request : Request Article) (site : Site Article)
    (unsaved : request.saves = false) :
    (answer draw request site).2.option = site.option ∨
      (answer draw request site).2.option = none := by
  cases request with
  | saveImportState stored => cases unsaved
  | deleteOption => exact .inr rfl
  | deleteFile path =>
      rw [answer]
      split
      · exact .inl rfl
      · exact .inl rfl
  | _ => exact .inl rfl

/-! ## Programs -/

variable (format) in
/-- However the other calls run meanwhile, the program keeps stored states sound. -/
abbrev Safe {α : Type} (condition : α → Site Article → Prop) (program : Calls Article α)
    (site : Site Article) : Prop :=
  program.Safe answer Grows (Sound format) condition site

section

variable {α : Type} {condition : α → Site Article → Prop} {site : Site Article}

theorem safe_call {request : Request Article} {next : request.Response → Calls Article α}
    (unsaved : request.saves = false)
    (continues : ∀ draw later, Grows site later → Sound format later →
      Safe format condition (next (answer draw request later).1) (answer draw request later).2) :
    Safe format condition (.call request next) site := by
  intro draw later grows sound
  refine ⟨fun stored found => ?_, continues draw later grows sound⟩
  rcases answer_option draw request later unsaved with same | gone
  · rw [same] at found
    exact (sound stored found).mono (answer_grows draw request later)
  · rw [gone] at found
    cases found

theorem safe_save {stored : Stored} {next : Unit → Calls Article α}
    (stays : StoredSound format site stored)
    (continues : ∀ later, Grows site later → Safe format condition (next ()) later) :
    Safe format condition (.call (.saveImportState stored) next) site := by
  intro draw later grows sound
  have moved := answer_grows draw (.saveImportState stored) later
  refine ⟨fun other found => ?_, continues _ (grows.trans moved)⟩
  rw [← Option.some.inj found]
  exact (stays.mono grows).mono moved

end

/-! ## Batches -/

theorem queueLines_plain (articles : List Article) :
    ∀ line ∈ queueLines format articles, 10 ∉ line := by
  intro line member
  obtain ⟨article, -, rfl⟩ := List.mem_map.mp member
  exact format.encode_plain article

/-- The line after those that were processed is that of an article. -/
theorem Tracks.nextLine {articles : List Article} {site : Site Article} {stored : Stored}
    {offset : Nat} (tracks : Tracks format articles site stored offset)
    (more : stored.state.processed < stored.state.total) :
    ∃ article, Lines.fgets (site.content stored.queue) offset =
        some (format.encode article ++ [10]) ∧
      Lines.position (queueLines format articles) (stored.state.processed + 1) =
        offset + (format.encode article ++ [10]).length := by
  obtain ⟨file, found, content⟩ := tracks.written
  have position := tracks.position
  have short : stored.state.processed < articles.length := by
    rw [← tracks.total]
    exact more
  have within : stored.state.processed < (queueLines format articles).length := by
    rw [queueLines, List.length_map]
    exact short
  have line : (queueLines format articles)[stored.state.processed] =
      format.encode articles[stored.state.processed] :=
    List.getElem_map format.encode
  refine ⟨articles[stored.state.processed], ?_, ?_⟩
  · rw [Site.content, found, Option.map_some, Option.getD_some, content, position,
      Lines.fgets_position (queueLines_plain articles) within, line]
  · rw [Lines.position_succ within, line, position, List.length_append]
    rfl

/-- One more line was submitted and counted. -/
theorem Tracks.advance {articles : List Article} {site : Site Article} {stored next : Stored}
    {offset later : Nat} (tracks : Tracks format articles site stored offset)
    (more : stored.state.processed < stored.state.total)
    (submitted : ∃ submission ∈ site.submitted,
      submission.queue = stored.queue ∧ submission.offset = offset)
    (queue : next.queue = stored.queue) (path : next.state.queuePath = stored.state.queuePath)
    (total : next.state.total = stored.state.total)
    (processed : next.state.processed = stored.state.processed + 1)
    (counted : next.state.succeeded + next.state.failed =
      stored.state.succeeded + stored.state.failed + 1)
    (position : later =
      Lines.position (queueLines format articles) (stored.state.processed + 1)) :
    Tracks format articles site next later where
  written := by
    rw [queue]
    exact tracks.written
  named := by
    rw [queue, path]
    exact tracks.named
  total := total.trans tracks.total
  counted := by
    rw [counted, processed, tracks.counted]
  within := by
    rw [processed, total]
    exact more
  position := by
    rw [processed]
    exact position
  submitted := by
    intro count before
    rw [queue]
    rw [processed] at before
    rcases Nat.lt_succ_iff_lt_or_eq.mp before with earlier | rfl
    · exact tracks.submitted count earlier
    · rw [← tracks.position]
      exact submitted

/-- The line of an article is submitted, whether the upload fails or not. -/
theorem safe_processLine {articles : List Article} {site : Site Article} {stored : Stored}
    {offset later : Nat} {article : Article}
    (tracks : Tracks format articles site stored offset)
    (more : stored.state.processed < stored.state.total)
    (position : Lines.position (queueLines format articles) (stored.state.processed + 1) =
      later) :
    Safe format (fun next site => next.queue = stored.queue ∧
        Tracks format articles site next later)
      (processLine format stored offset (format.encode article ++ [10])) site := by
  obtain ⟨decoded, isDecoded⟩ := Option.isSome_iff_exists.mp (format.decode_encode article)
  have read : (if trim (format.encode article ++ [10]) = [] then none
      else format.decode (trim (format.encode article ++ [10]))) = some decoded := by
    rw [format.trim_encode, if_neg (format.encode_nonempty article), isDecoded]
  rw [processLine, read]
  apply safe_call rfl
  intro draw between grows _
  have kept := (tracks.mono grows).mono (answer_grows draw (.ingestArticle
    ⟨stored.queue, offset, decoded, format.sanitizeTextField stored.state.knowledgeBaseId⟩) between)
  have submitted : ∃ submission ∈ (answer draw (.ingestArticle
      ⟨stored.queue, offset, decoded, format.sanitizeTextField stored.state.knowledgeBaseId⟩)
        between).2.submitted,
      submission.queue = stored.queue ∧ submission.offset = offset :=
    ⟨_, List.mem_append_right _ (List.mem_singleton_self _), rfl, rfl⟩
  cases response : draw.error with
  | some message =>
      simp only [answer, response] at kept submitted ⊢
      exact ⟨rfl, kept.advance more submitted rfl rfl rfl rfl (Nat.add_assoc _ _ 1).symm
        position.symm⟩
  | none =>
      simp only [answer, response] at kept submitted ⊢
      refine ⟨rfl, kept.advance more submitted rfl rfl rfl rfl ?_ position.symm⟩
      exact Nat.succ_add _ _

theorem safe_processLines {articles : List Article} (rounds : Nat) {site : Site Article}
    {stored : Stored} {offset : Nat} (tracks : Tracks format articles site stored offset) :
    Safe format (fun result site => result.1.queue = stored.queue ∧
        Tracks format articles site result.1 result.2)
      (processLines format stored.queue rounds stored offset) site := by
  induction rounds generalizing site stored offset with
  | zero => exact ⟨rfl, tracks⟩
  | succ rounds induction =>
      rw [processLines]
      split
      · rename_i more
        apply safe_call rfl
        intro draw later grows _
        have kept := tracks.mono grows
        obtain ⟨article, line, position⟩ := kept.nextLine more
        have answered : (answer draw (.readLine stored.queue offset) later).1 =
            some (format.encode article ++ [10]) := line
        rw [answered]
        apply Program.Safe.bind (safe_processLine kept more position)
        rintro next after ⟨same, tracked⟩
        rw [← same]
        exact induction tracked
      · exact ⟨rfl, tracks⟩

/-- Lines that were not processed are not at the end of the file. -/
theorem Tracks.inside {articles : List Article} {site : Site Article} {stored : Stored}
    {offset : Nat} (tracks : Tracks format articles site stored offset)
    (more : stored.state.processed < stored.state.total) :
    offset < (site.content stored.queue).length := by
  obtain ⟨article, line, -⟩ := tracks.nextLine more
  by_contra beyond
  rw [Lines.fgets, List.drop_eq_nil_of_le (Nat.not_lt.mp beyond)] at line
  cases line

/-- The queue of a sound state has an offset as soon as lines were processed. -/
theorem Tracks.seekQueue_eq {articles : List Article} {site : Site Article} {stored : Stored}
    (tracks : Tracks format articles site stored stored.state.queueOffset) (path : QueuePath) :
    (seekQueue path stored.state : Calls Article (Option Nat)) =
      .done (some stored.state.queueOffset) := by
  rw [seekQueue]
  split
  · rfl
  · rename_i start
    have zero : stored.state.queueOffset = 0 := Nat.eq_zero_of_not_pos start
    split
    · rename_i processed
      have within : stored.state.processed ≤ (queueLines format articles).length := by
        rw [queueLines, List.length_map, ← tracks.total]
        exact tracks.within
      have positive := Lines.position_pos within processed
      rw [← tracks.position, zero] at positive
      exact absurd positive (Nat.lt_irrefl 0)
    · rw [zero]
      rfl

/-- A state all of whose lines were processed is completed, whether its queue file can be
deleted or not. -/
theorem safe_completeImport {articles : List Article} {site : Site Article} {stored : Stored}
    (tracks : Tracks format articles site stored stored.state.queueOffset)
    (finished : stored.state.processed = stored.state.total) :
    Safe format (fun _ _ => True) (completeImport stored) site := by
  have clears : ∀ later, Grows site later → Safe format (fun _ _ => True)
      (saveImportState { stored with
        state := { stored.state with
          queuePath := none
          errors := lastErrors stored.state.errors
          status := .completed } }) later := by
    intro later grows
    refine safe_save ⟨⟨articles, ?_⟩, fun _ => finished⟩ fun _ _ => trivial
    exact { tracks.mono grows with named := fun path absent => by cases absent }
  rw [completeImport]
  split
  · exact clears site (.refl site)
  · rename_i path named
    apply safe_call rfl
    intro draw later grows _
    have grown := grows.trans (answer_grows draw (.isFile path) later)
    cases found : (answer draw (.isFile path) later).1 with
    | false => exact clears _ grown
    | true =>
        apply safe_call rfl
        intro draw latest further _
        have onward := (grown.trans further).trans (answer_grows draw (.deleteFile path) latest)
        cases deleted : (answer draw (.deleteFile path) latest).1 with
        | true => exact clears _ onward
        | false =>
            refine safe_save ⟨⟨articles, ?_⟩, fun _ => finished⟩ fun _ _ => trivial
            exact { tracks.mono onward with }

/-- The state a batch ends with, before it is stored. -/
theorem Tracks.endBatch {articles : List Article} {site : Site Article} {stored : Stored}
    {offset : Nat} (tracks : Tracks format articles site stored offset) {ended : Bool}
    (isEnded : ended = decide ((site.content stored.queue).length ≤ offset)) :
    Tracks format articles site
        { stored with state := endBatch stored.state offset ended } offset ∧
      (Wordpress.endBatch stored.state offset ended).queueOffset = offset := by
  have early : (ended && decide (stored.state.processed < stored.state.total)) = false := by
    by_cases more : stored.state.processed < stored.state.total
    · have inside := tracks.inside more
      rw [isEnded, decide_eq_false (Nat.not_le.mpr inside)]
      rfl
    · rw [decide_eq_false more, Bool.and_false]
  have plain : Wordpress.endBatch stored.state offset ended =
      { stored.state with
        queueOffset := offset
        errors := lastErrors stored.state.errors } := by
    rw [Wordpress.endBatch]
    simp only [early]
    rfl
  rw [plain]
  exact ⟨{ tracks with }, rfl⟩

theorem safe_finishBatch {articles : List Article} {site : Site Article} {stored : Stored}
    {offset : Nat} (tracks : Tracks format articles site stored offset) :
    Safe format (fun _ _ => True) (finishBatch stored.queue stored offset) site := by
  rw [finishBatch]
  apply safe_call rfl
  intro draw later grows _
  have kept := tracks.mono (grows.trans (answer_grows draw (.atEnd stored.queue offset) later))
  generalize answered : (answer draw (.atEnd stored.queue offset) later).1 = flag
  obtain ⟨ended, position⟩ := kept.endBatch answered.symm
  have counted : Tracks format articles (answer draw (.atEnd stored.queue offset) later).2
      { stored with state := endBatch stored.state offset flag }
      (endBatch stored.state offset flag).queueOffset := by
    rw [position]
    exact ended
  simp only [done_bind]
  split
  · rename_i finished
    exact Program.Safe.bind (safe_completeImport counted
      (Nat.le_antisymm counted.within finished)) fun _ _ _ => trivial
  · refine safe_save ⟨⟨articles, { counted with }⟩, ?_⟩ fun _ _ => trivial
    rintro ⟨⟩

theorem safe_processImportBatch (batchSize : Nat) {site : Site Article} :
    Safe format (fun _ _ => True) (processImportBatch format batchSize) site := by
  rw [processImportBatch]
  apply safe_call rfl
  intro draw later _ sound
  change Safe format _ _ later
  change ∀ stored, later.option = some stored → _ at sound
  simp only [answer]
  cases found : later.option with
  | none => trivial
  | some stored =>
      obtain ⟨⟨articles, tracks⟩, completed⟩ := sound stored found
      simp only [done_bind]
      split
      · trivial
      split
      · trivial
      rename_i path named
      obtain rfl := tracks.named path named
      apply safe_call rfl
      intro draw checked grows _
      have kept := tracks.mono (grows.trans (answer_grows draw (.isFile stored.queue) checked))
      simp only [answer, done_bind]
      split
      · trivial
      split
      · rename_i finished
        exact Program.Safe.bind (safe_completeImport kept (Nat.le_antisymm kept.within finished))
          fun _ _ _ => trivial
      · apply safe_call rfl
        intro draw opened grows _
        have kept := kept.mono (grows.trans (answer_grows draw (.openQueue stored.queue) opened))
        simp only [answer, done_bind]
        split
        · trivial
        · rw [kept.seekQueue_eq]
          simp only [bind_eq_bind, done_bind]
          have running : Tracks format articles opened
              { stored with state := { stored.state with status := .running } }
              stored.state.queueOffset := { kept with }
          refine Program.Safe.bind (safe_processLines _ running) ?_
          rintro ⟨next, offset⟩ later ⟨same, tracked⟩
          rw [← same]
          exact safe_finishBatch tracked

theorem safe_handleClearImport {site : Site Article} :
    Safe format (fun _ _ => True) (handleClearImport : Calls Article Unit) site := by
  rw [handleClearImport]
  apply safe_call rfl
  intro draw later _ _
  simp only [done_bind]
  split
  · exact safe_call rfl fun _ _ _ _ => trivial
  · exact safe_call rfl fun _ _ _ _ => safe_call rfl fun _ _ _ _ => trivial

/-- The queue file is written before its state is stored. -/
theorem safe_prepareWxrQueue (articles : List Article) (written : Bool)
    (knowledgeBaseId : String) {site : Site Article} :
    Safe format (fun _ _ => True)
      (prepareWxrQueue format articles written knowledgeBaseId) site := by
  rw [prepareWxrQueue]
  apply safe_call rfl
  intro draw later _ _
  simp only [answer, done_bind]
  split
  · exact safe_call rfl fun _ _ _ _ => trivial
  · generalize newState : ImportState.mk _ _ _ _ _ _ _ _ _ = state
    generalize newSite : Site.mk _ _ _ = site
    have tracks : Tracks format articles site ⟨later.files.length, state⟩ state.queueOffset := by
      rw [← newState, ← newSite]
      exact {
        written := ⟨_, List.getElem?_concat_length, rfl⟩
        named := fun path named => (Option.some.inj named).symm
        total := rfl
        counted := rfl
        within := Nat.zero_le _
        position := rfl
        submitted := fun count before => absurd before (Nat.not_lt_zero count) }
    have incomplete : state.status ≠ .completed := by
      rw [← newState]
      intro completed
      simp only at completed
      split at completed <;> cases completed
    have publishes : ∀ after, Grows site after → Safe format (fun _ _ => True)
        (saveImportState ⟨later.files.length, state⟩ >>= fun _ =>
          (pure (.ok state) : Calls Article (Except String ImportState))) after := fun after grows =>
      safe_save (StoredSound.mono ⟨⟨articles, tracks⟩, fun completed =>
        absurd completed incomplete⟩ grows) fun _ _ => trivial
    apply safe_call rfl
    intro draw read grows _
    simp only [answer, done_bind]
    split
    · exact publishes read grows
    split
    · exact publishes read grows
    rename_i previousPath _ _
    apply safe_call rfl
    intro draw checked further _
    have onward := (grows.trans further).trans (answer_grows draw (.isFile previousPath) checked)
    simp only [answer, done_bind] at onward ⊢
    split
    · exact publishes checked onward
    apply safe_call rfl
    intro draw deleting further _
    have latest := (onward.trans further).trans
      (answer_grows draw (.deleteFile previousPath) deleting)
    simp only [done_bind]
    split
    · exact publishes _ latest
    · exact safe_call rfl fun _ _ _ _ => trivial

/-! ## Runs -/

/-- Every state that is stored in a run is sound, however the calls interleave. -/
theorem run_sound (format : Format Article) (events : List (Event Draw (Call Article))) :
    Sound format
      (run Machine.next (.initial (importSystem format) ⟨[], none, []⟩) events).state := by
  refine run_safe Grows.refl (fun _ _ _ => Grows.trans) answer_grows ?_ ?_ events
  · intro call site _
    cases call with
    | prepare articles written knowledgeBaseId =>
        exact safe_prepareWxrQueue articles written knowledgeBaseId
    | batch batchSize => exact safe_processImportBatch batchSize
    | clear => exact safe_handleClearImport
  · intro stored absent
    cases absent

/-- Every line of the queue was submitted, and every one of them counts once. -/
structure Delivered (site : Site Article) (stored : Stored) : Prop where
  lines : ∀ file : QueueFile, site.files[stored.queue]? = some file →
    ∀ offset, Lines.Starts file.content offset →
      ∃ submission ∈ site.submitted,
        submission.queue = stored.queue ∧ submission.offset = offset
  processed : stored.state.processed = stored.state.total
  total : stored.state.total = stored.state.succeeded + stored.state.failed

theorem StoredSound.delivered {site : Site Article} {stored : Stored}
    (sound : StoredSound format site stored) (completed : stored.state.status = .completed) :
    Delivered site stored := by
  obtain ⟨articles, tracks⟩ := sound.tracks
  have finished := sound.completed completed
  refine ⟨fun file found offset starts => ?_, finished, ?_⟩
  · obtain ⟨written, present, content⟩ := tracks.written
    rw [found] at present
    rw [Option.some.inj present, content] at starts
    obtain ⟨count, within, rfl⟩ := Lines.starts_join (queueLines_plain articles) starts
    rw [queueLines, List.length_map, ← tracks.total, ← finished] at within
    exact tracks.submitted count within
  · rw [tracks.counted, finished]

/-! ## The stored queue -/

section

variable {format : Format Article}

/-- The request that an event makes, and the call it is made for. -/
def made (event : Event Draw (Call Article)) (machine : Machine (importSystem format)) :
    Option (Call Article × Request Article) :=
  match event with
  | .start _ => none
  | .step index _ =>
      (machine.tasks[index]?).bind fun task =>
        match task.remaining with
        | .done _ => none
        | .call request _ => some (task.call, request)

/-- A batch stores a state while that of its queue is still stored. -/
def timely (event : Event Draw (Call Article)) (machine : Machine (importSystem format)) :
    Bool :=
  match made event machine with
  | some (.batch _, .saveImportState stored) =>
      machine.state.option.map (·.queue) == some stored.queue
  | _ => true

/-- The queue whose first state is stored by an upload. -/
def prepared (event : Event Draw (Call Article)) (machine : Machine (importSystem format)) :
    Option QueuePath :=
  match made event machine with
  | some (.batch _, .saveImportState _) => none
  | some (_, .saveImportState stored) => some stored.queue
  | _ => none

/-- A clear deletes the option. -/
def clears (event : Event Draw (Call Article)) (machine : Machine (importSystem format)) : Bool :=
  match made event machine with
  | some (_, .deleteOption) => true
  | _ => false

/-- Only what is stored and deleted changes the option. -/
theorem answer_option_eq (draw : Draw) (request : Request Article) (site : Site Article) :
    (answer draw request site).2.option =
      match request with
      | .saveImportState stored => some stored
      | .deleteOption => none
      | _ => site.option := by
  cases request with
  | deleteFile path =>
      rw [answer]
      split
      · rfl
      · rfl
  | _ => rfl

theorem next_option_of_made {event : Event Draw (Call Article)}
    {machine : Machine (importSystem format)} {call : Call Article} {request : Request Article}
    (isMade : made event machine = some (call, request)) :
    ∃ draw, (machine.next event).state = (answer draw request machine.state).2 := by
  cases event with
  | start call => cases isMade
  | step index draw =>
      obtain ⟨task, found, asks⟩ := Option.bind_eq_some_iff.mp isMade
      split at asks
      · cases asks
      · rename_i asked next remaining
        obtain ⟨-, rfl⟩ := Prod.mk.inj (Option.some.inj asks)
        exact ⟨draw, Machine.next_step_state found remaining draw⟩

theorem next_option_of_idle {event : Event Draw (Call Article)}
    {machine : Machine (importSystem format)} (idle : made event machine = none) :
    (machine.next event).state = machine.state := by
  have moves := machine.moves event
  generalize machine.next event = after at moves
  cases moves with
  | idle => rfl
  | start call free => rfl
  | step index draw task request next found asks =>
      rw [made, found, Option.bind_some, asks] at idle
      cases idle

/-- The queue of the stored state stays while batches are timely, and nothing replaces or
clears it. -/
theorem next_queue {event : Event Draw (Call Article)} {machine : Machine (importSystem format)}
    {queue : QueuePath} (inTime : timely event machine = true)
    (kept : prepared event machine = none) (uncleared : clears event machine = false)
    (holds : machine.state.option.map (·.queue) = some queue) :
    (machine.next event).state.option.map (·.queue) = some queue := by
  cases isMade : made event machine with
  | none =>
      rw [next_option_of_idle isMade]
      exact holds
  | some taken =>
      obtain ⟨call, request⟩ := taken
      obtain ⟨draw, same⟩ := next_option_of_made isMade
      rw [same, answer_option_eq]
      rw [timely, isMade] at inTime
      rw [prepared, isMade] at kept
      rw [clears, isMade] at uncleared
      cases request with
      | saveImportState stored =>
          cases call with
          | batch batchSize =>
              have current := eq_of_beq inTime
              rw [holds] at current
              exact current.symm
          | prepare articles written knowledgeBaseId => cases kept
          | clear => cases kept
      | deleteOption => cases uncleared
      | _ => exact holds

/-- An upload stores the state of its queue. -/
theorem next_prepared {event : Event Draw (Call Article)}
    {machine : Machine (importSystem format)} {queue : QueuePath}
    (isPrepared : prepared event machine = some queue) :
    (machine.next event).state.option.map (·.queue) = some queue := by
  rw [prepared] at isPrepared
  split at isPrepared
  · cases isPrepared
  · rename_i call stored _ isMade
    obtain ⟨draw, same⟩ := next_option_of_made isMade
    rw [same, answer_option_eq]
    exact isPrepared
  · cases isPrepared

end

/-- In every run a completed state counts lines all of which were submitted. If batches store
states only while that of their queue is stored, a prepared queue that is not replaced or
cleared later stays the stored one. -/
theorem run_loses_no_article (format : Format Article) (events : List (Event Draw (Call Article)))
    (inTime : Along Machine.next (fun event machine => timely event machine = true)
      (.initial (importSystem format) ⟨[], none, []⟩) events) :
    let reached (events : List (Event Draw (Call Article))) :=
      run Machine.next (.initial (importSystem format) ⟨[], none, []⟩) events
    (∀ stored, (reached events).state.option = some stored → stored.state.status = .completed →
      Delivered (reached events).state stored) ∧
    ∀ past event later queue, events = past ++ event :: later →
      prepared event (reached past) = some queue →
      Along Machine.next
        (fun event machine => prepared event machine = none ∧ clears event machine = false)
        (reached (past ++ [event])) later →
      (reached events).state.option.map (·.queue) = some queue := by
  intro reached
  refine ⟨fun stored found completed =>
    (run_sound format events stored found).delivered completed, ?_⟩
  rintro past event later queue rfl isPrepared undisturbed
  have split : past ++ event :: later = (past ++ [event]) ++ later := by
    rw [List.append_assoc]
    rfl
  have rest : Along Machine.next (fun event machine => timely event machine = true)
      (reached (past ++ [event])) later := by
    rw [split] at inTime
    exact inTime.of_append
  have start : (reached (past ++ [event])).state.option.map (·.queue) = some queue := by
    simp only [reached]
    rw [run_concat]
    exact next_prepared isPrepared
  simp only [reached]
  rw [split, run_append]
  let Kept (machine : Machine (importSystem format)) : Prop :=
    machine.state.option.map (·.queue) = some queue
  have preserved : ∀ (event : Event Draw (Call Article)) (machine : Machine (importSystem format)),
      (timely event machine = true ∧ prepared event machine = none ∧
        clears event machine = false) → Kept machine → Kept (machine.next event) :=
    fun event machine allowed => next_queue allowed.1 allowed.2.1 allowed.2.2
  exact along_invariant preserved (rest.and undisturbed) start

/-! ## A batch that stores a state too late -/

/-- Two articles, each with one character of JSON. -/
def Format.sample : Format Bool where
  encode article := if article then [49] else [48]
  decode line := if line = [49] then some true else if line = [48] then some false else none
  postId _ := 1
  sanitizeTextField text := text
  encode_plain := by decide
  trim_encode := by decide
  encode_nonempty := by decide
  decode_encode := by decide

/-- Files are deleted and uploads succeed. -/
def Draw.sample : Draw where
  deletes := true
  error := none

def steps (index count : Nat) : List (Event Draw (Call Bool)) :=
  List.replicate count (.step index .sample)

/-- An upload of one article, and a batch that imports it. -/
def oneImport : List (Event Draw (Call Bool)) :=
  .start (.prepare [true] true "") :: steps 0 3 ++ .start (.batch 10) :: steps 1 9

theorem run_loses_no_article_oneImport :
    let reached (events : List (Event Draw (Call Bool))) :=
      run Machine.next (.initial (importSystem .sample) ⟨[], none, []⟩) events
    (∀ stored, (reached oneImport).state.option = some stored →
      stored.state.status = .completed → Delivered (reached oneImport).state stored) ∧
    ∀ past event later queue, oneImport = past ++ event :: later →
      prepared event (reached past) = some queue →
      Along Machine.next
        (fun event machine => prepared event machine = none ∧ clears event machine = false)
        (reached (past ++ [event])) later →
      (reached oneImport).state.option.map (·.queue) = some queue :=
  run_loses_no_article .sample oneImport
    ⟨by decide +kernel, by decide +kernel, by decide +kernel, by decide +kernel,
      by decide +kernel, by decide +kernel, by decide +kernel, by decide +kernel,
      by decide +kernel, by decide +kernel, by decide +kernel, by decide +kernel,
      by decide +kernel, by decide +kernel, trivial⟩

/-- A second export is uploaded while a batch imports the article of the first one. -/
def beforeReplacement : List (Event Draw (Call Bool)) :=
  .start (.prepare [true] true "") :: steps 0 3 ++ .start (.batch 10) :: steps 1 5 ++
    .start (.prepare [false] true "") :: steps 2 4

/-- The batch stores the state of the first queue in the place of that of the second. -/
theorem lateBatch_loses_queue :
    let reached (events : List (Event Draw (Call Bool))) :=
      run Machine.next (.initial (importSystem .sample) ⟨[], none, []⟩) events
    let published := beforeReplacement ++ [.step 2 .sample]
    prepared (.step 2 .sample) (reached beforeReplacement) = some 1 ∧
      Along Machine.next
        (fun event machine => prepared event machine = none ∧ clears event machine = false)
        (reached published) (steps 1 3) ∧
      (reached (published ++ steps 1 3)).state.option.map (·.queue) = some 0 ∧
      (reached (published ++ steps 1 3)).state.submitted.all (·.queue == 0) = true := by
  refine ⟨by decide +kernel, ⟨?_, ?_, ?_, trivial⟩, by decide +kernel, by decide +kernel⟩
  · decide +kernel
  · decide +kernel
  · decide +kernel

end RAGuardian.Wordpress
