import RAGuardian.Artifacts.Ownership
import RAGuardian.Foundation.Dictionary

/-! # The folders of chat artifacts

What a cleanup removes from the folders of uploads, pictures and interpreter runs of a
workspace, compared with what the messages denote. -/

namespace RAGuardian.Artifacts

open Json History Text

/-! ## Folders -/

/-- What a name in a folder stands for. -/
inductive EntryKind
  | file
  | link
  | directory
  | other
deriving DecidableEq, Repr

/-- `path.is_symlink() or path.is_file()` -/
def EntryKind.isFileLike : EntryKind → Bool
  | .file | .link => true
  | .directory | .other => false

abbrev Entries := Dictionary String EntryKind

/-- A folder of artifacts. Behind a link nothing belongs to the workspace. -/
inductive ArtifactFolder
  | missing
  | linked
  | notDirectory
  | directory (entries : Entries)

def ArtifactFolder.get? : ArtifactFolder → String → Option EntryKind
  | .directory entries, name => entries.get? name
  | .missing, _ | .linked, _ | .notDirectory, _ => none

structure ArtifactFolders where
  uploads : ArtifactFolder
  pics : ArtifactFolder
  codeRuns : ArtifactFolder

/-- The upload root of a workspace with its `chat_files`, one of which may be a link. -/
inductive WorkspaceFolder
  | linked (root chatFiles : Bool)
  | plain (folders : ArtifactFolders)

def WorkspaceFolder.folders : WorkspaceFolder → ArtifactFolders
  | .linked _ _ => ⟨.missing, .missing, .missing⟩
  | .plain folders => folders

/-! ## Cleanups -/

/-- `ArtifactCleanupResult` -/
structure ArtifactCleanupResult where
  deletedFiles : Nat
  deletedRunDirectories : Nat
  errors : List String
deriving DecidableEq, Repr

def ArtifactCleanupResult.append (first second : ArtifactCleanupResult) :
    ArtifactCleanupResult where
  deletedFiles := first.deletedFiles + second.deletedFiles
  deletedRunDirectories := first.deletedRunDirectories + second.deletedRunDirectories
  errors := first.errors ++ second.errors

/-- The entries of a folder during a cleanup, and its result so far. -/
structure Cleaning where
  entries : Entries
  result : ArtifactCleanupResult

namespace Cleaning

def erase (name : String) (deletedFiles deletedRunDirectories : Nat) (cleaning : Cleaning) :
    Cleaning where
  entries := cleaning.entries.erase name
  result := cleaning.result.append ⟨deletedFiles, deletedRunDirectories, []⟩

/-- `_unlink_file_like` -/
def unlinkFileLike (cleaning : Cleaning) (name : String) : Cleaning :=
  match cleaning.entries.get? name with
  | some .file | some .link => cleaning.erase name 1 0
  | some .directory | some .other =>
      { cleaning with result :=
          cleaning.result.append ⟨0, 0, ["unexpected non-file artifact: " ++ name]⟩ }
  | none => cleaning

/-- One identifier of `_cleanup_run_artifacts` -/
def removeRun (cleaning : Cleaning) (runId : String) : Cleaning :=
  match cleaning.entries.get? runId with
  | some .file | some .link => cleaning.erase runId 1 0
  | some .directory => cleaning.erase runId 0 1
  | some .other | none => cleaning

end Cleaning

/-- `_artifact_directory_is_safe`, and the work on a folder that is. -/
def ArtifactFolder.clean (label : String) (work : Cleaning → Cleaning) :
    ArtifactFolder → ArtifactFolder × ArtifactCleanupResult
  | .missing => (.missing, ⟨0, 0, []⟩)
  | .linked => (.linked, ⟨0, 0, ["unsafe symlinked artifact directory: " ++ label]⟩)
  | .notDirectory =>
      (.notDirectory, ⟨0, 0, ["unexpected non-directory artifact root: " ++ label]⟩)
  | .directory entries =>
      let cleaned := work ⟨entries, ⟨0, 0, []⟩⟩
      (.directory cleaned.entries, cleaned.result)

/-- The files `_cleanup_upload_artifacts` removes, in its order -/
def uploadVictims (references : References) (candidates : List String) : List String :=
  ((Text.sorted references.attachmentIds).filter matchesAttachmentId).flatMap fun attachmentId =>
    candidates.filter (startsWith (attachmentId ++ "_"))

/-- The files `_cleanup_image_artifacts` removes -/
def pictureVictims (references : References) (candidates : List String) : List String :=
  candidates.filter fun candidate =>
    (decide (candidate ∈ references.imageNames) && (runIdForImage candidate).isSome) ||
      (runIdForImage candidate).any fun runId => decide (runId ∈ references.runIds)

/-- `_cleanup_upload_artifacts` -/
def cleanupUploadArtifacts (references : References) :
    ArtifactFolder → ArtifactFolder × ArtifactCleanupResult :=
  ArtifactFolder.clean "uploads" fun cleaning =>
    (uploadVictims references cleaning.entries.keys).foldl Cleaning.unlinkFileLike cleaning

/-- `_cleanup_image_artifacts` -/
def cleanupImageArtifacts (references : References) :
    ArtifactFolder → ArtifactFolder × ArtifactCleanupResult :=
  ArtifactFolder.clean "pics" fun cleaning =>
    (pictureVictims references cleaning.entries.keys).foldl Cleaning.unlinkFileLike cleaning

/-- `_cleanup_run_artifacts` -/
def cleanupRunArtifacts (references : References) :
    ArtifactFolder → ArtifactFolder × ArtifactCleanupResult :=
  ArtifactFolder.clean "code_runs" fun cleaning =>
    ((Text.sorted references.runIds).filter matchesRunId).foldl Cleaning.removeRun cleaning

/-- The errors of `_artifact_ancestors_are_safe` -/
def ancestorErrors (root chatFiles : Bool) : List String :=
  (if root then ["unsafe symlinked artifact directory: workspace upload root"] else []) ++
    if chatFiles then ["unsafe symlinked artifact directory: chat_files"] else []

/-- The body of `cleanup_workspace_artifacts` -/
def cleanupFolders (references : References) :
    WorkspaceFolder → WorkspaceFolder × ArtifactCleanupResult
  | .linked root chatFiles => (.linked root chatFiles, ⟨0, 0, ancestorErrors root chatFiles⟩)
  | .plain folders =>
      let (uploads, uploadResult) := cleanupUploadArtifacts references folders.uploads
      let (pics, imageResult) := cleanupImageArtifacts references folders.pics
      let (codeRuns, runResult) := cleanupRunArtifacts references folders.codeRuns
      (.plain ⟨uploads, pics, codeRuns⟩, (uploadResult.append imageResult).append runResult)

/-- `cleanup_workspace_artifacts`; the error stands for `ArtifactCleanupError`. -/
def cleanupWorkspaceArtifacts (references : References) (strict : Bool)
    (workspace : WorkspaceFolder) :
    Except ArtifactCleanupResult ArtifactCleanupResult × WorkspaceFolder :=
  let (cleaned, result) := cleanupFolders references workspace
  (if strict && !result.errors.isEmpty then .error result else .ok result, cleaned)

/-! ## What a cleanup leaves -/

namespace Cleaning

theorem erase_get?_of_ne {name other : String} (different : other ≠ name) (files directories : Nat)
    (cleaning : Cleaning) :
    (cleaning.erase name files directories).entries.get? other = cleaning.entries.get? other :=
  Dictionary.get?_erase_of_ne different

theorem unlinkFileLike_of_ne {name other : String} (different : other ≠ name)
    (cleaning : Cleaning) :
    (cleaning.unlinkFileLike name).entries.get? other = cleaning.entries.get? other := by
  unfold unlinkFileLike
  split
  all_goals first
    | rfl
    | exact erase_get?_of_ne different _ _ cleaning

/-- Only what is no file survives. -/
theorem unlinkFileLike_self {cleaning : Cleaning} {name : String} {kind : EntryKind}
    (found : (cleaning.unlinkFileLike name).entries.get? name = some kind) :
    kind.isFileLike = false := by
  unfold unlinkFileLike at found
  split at found
  case h_1 => simp [erase, Dictionary.get?_erase_self] at found
  case h_2 => simp [erase, Dictionary.get?_erase_self] at found
  case h_3 directory =>
    rw [directory] at found
    cases found
    rfl
  case h_4 other =>
    rw [other] at found
    cases found
    rfl
  case h_5 absent =>
    rw [absent] at found
    cases found

theorem removeRun_of_ne {runId other : String} (different : other ≠ runId)
    (cleaning : Cleaning) :
    (cleaning.removeRun runId).entries.get? other = cleaning.entries.get? other := by
  unfold removeRun
  split
  all_goals first
    | rfl
    | exact erase_get?_of_ne different _ _ cleaning

theorem removeRun_self {cleaning : Cleaning} {runId : String} {kind : EntryKind}
    (found : (cleaning.removeRun runId).entries.get? runId = some kind) : kind = .other := by
  unfold removeRun at found
  split at found
  case h_1 => simp [erase, Dictionary.get?_erase_self] at found
  case h_2 => simp [erase, Dictionary.get?_erase_self] at found
  case h_3 => simp [erase, Dictionary.get?_erase_self] at found
  case h_4 other =>
    rw [other] at found
    cases found
    rfl
  case h_5 absent =>
    rw [absent] at found
    cases found

/-- A step that works on the entry of its name and leaves only certain kinds there. -/
structure Works (work : Cleaning → String → Cleaning) (survives : EntryKind → Prop) : Prop where
  others : ∀ cleaning name other, other ≠ name →
    (work cleaning name).entries.get? other = cleaning.entries.get? other
  self : ∀ cleaning name kind, (work cleaning name).entries.get? name = some kind → survives kind

theorem unlinkFileLike_works : Works unlinkFileLike (·.isFileLike = false) :=
  ⟨fun cleaning _ _ different => unlinkFileLike_of_ne different cleaning,
    fun _ _ _ found => unlinkFileLike_self found⟩

theorem removeRun_works : Works removeRun (· = .other) :=
  ⟨fun cleaning _ _ different => removeRun_of_ne different cleaning,
    fun _ _ _ found => removeRun_self found⟩

variable {work : Cleaning → String → Cleaning} {survives : EntryKind → Prop}

theorem Works.foldl_of_notMem (works : Works work survives) {names : List String} {name : String}
    (spared : name ∉ names) (cleaning : Cleaning) :
    (names.foldl work cleaning).entries.get? name = cleaning.entries.get? name := by
  induction names generalizing cleaning with
  | nil => rfl
  | cons other names induction =>
      obtain ⟨different, later⟩ := not_or.mp (mt List.mem_cons.mpr spared)
      rw [List.foldl_cons, induction later, works.others cleaning other name different]

theorem Works.foldl_of_mem (works : Works work survives) {names : List String} {name : String}
    (member : name ∈ names) {cleaning : Cleaning} {kind : EntryKind}
    (found : (names.foldl work cleaning).entries.get? name = some kind) : survives kind := by
  induction names generalizing cleaning with
  | nil => cases member
  | cons other names induction =>
      rw [List.foldl_cons] at found
      by_cases later : name ∈ names
      · exact induction later found
      · rw [works.foldl_of_notMem later] at found
        rcases List.mem_cons.mp member with rfl | absurdly
        · exact works.self cleaning name kind found
        · exact absurd absurdly later

/-- Work that adds nothing. -/
def Shrinks (work : Cleaning → Cleaning) : Prop :=
  ∀ cleaning name kind, (work cleaning).entries.get? name = some kind →
    cleaning.entries.get? name = some kind

theorem erase_shrinks (name : String) (files directories : Nat) :
    Shrinks (Cleaning.erase name files directories) :=
  fun _ _ _ found => Dictionary.get?_of_erase found

theorem unlinkFileLike_shrinks (name : String) :
    Shrinks fun cleaning => cleaning.unlinkFileLike name := by
  intro cleaning other kind found
  simp only [unlinkFileLike] at found
  split at found
  all_goals first
    | exact erase_shrinks name 1 0 cleaning other kind found
    | exact found

theorem removeRun_shrinks (runId : String) :
    Shrinks fun cleaning => cleaning.removeRun runId := by
  intro cleaning other kind found
  simp only [removeRun] at found
  split at found
  all_goals first
    | exact erase_shrinks runId 1 0 cleaning other kind found
    | exact erase_shrinks runId 0 1 cleaning other kind found
    | exact found

theorem Shrinks.foldl {step : Cleaning → String → Cleaning}
    (shrinks : ∀ name, Shrinks fun cleaning => step cleaning name) (names : List String) :
    Shrinks fun cleaning => names.foldl step cleaning := by
  induction names with
  | nil => exact fun _ _ _ found => found
  | cons name names induction =>
      intro cleaning other kind found
      exact shrinks name cleaning other kind (induction (step cleaning name) other kind found)

end Cleaning

namespace ArtifactFolder

variable {work : Cleaning → String → Cleaning} {survives : EntryKind → Prop}
variable {label : String} {folder : ArtifactFolder}

/-- A cleanup of a folder by names keeps the entries that are no victims. -/
theorem clean_keeps (victims : Entries → List String) (works : Cleaning.Works work survives)
    {name : String}
    (spared : ∀ entries, folder = .directory entries → name ∉ victims entries) :
    (folder.clean label fun cleaning =>
      (victims cleaning.entries).foldl work cleaning).1.get? name = folder.get? name := by
  cases folder with
  | directory entries => exact works.foldl_of_notMem (spared entries rfl) _
  | missing => rfl
  | linked => rfl
  | notDirectory => rfl

/-- What is left of a victim survives the work on it. -/
theorem clean_removes (victims : Entries → List String) (works : Cleaning.Works work survives)
    {name : String} {kind : EntryKind}
    (victim : ∀ entries, folder = .directory entries → entries.get? name ≠ none →
      name ∈ victims entries)
    (found : (folder.clean label fun cleaning =>
      (victims cleaning.entries).foldl work cleaning).1.get? name = some kind) :
    survives kind := by
  cases folder with
  | directory entries =>
      by_cases member : name ∈ victims entries
      · exact works.foldl_of_mem member found
      · have same := works.foldl_of_notMem member ⟨entries, ⟨0, 0, []⟩⟩
        refine absurd (victim entries rfl ?_) member
        rw [← show _ = entries.get? name from same]
        exact Option.ne_none_iff_exists'.mpr ⟨kind, found⟩
  | missing => cases found
  | linked => cases found
  | notDirectory => cases found

/-- A victim of a kind that does not survive is gone. -/
theorem clean_gone (victims : Entries → List String) (works : Cleaning.Works work survives)
    (shrinks : ∀ name, Cleaning.Shrinks fun cleaning => work cleaning name)
    {name : String} {kind : EntryKind} (held : folder.get? name = some kind)
    (perishes : ¬ survives kind)
    (victim : ∀ entries, folder = .directory entries → entries.get? name ≠ none →
      name ∈ victims entries) :
    (folder.clean label fun cleaning =>
      (victims cleaning.entries).foldl work cleaning).1.get? name = none := by
  cases found : (folder.clean label fun cleaning =>
      (victims cleaning.entries).foldl work cleaning).1.get? name with
  | none => rfl
  | some left =>
      have survivor := clean_removes victims works victim found
      cases folder with
      | directory entries =>
          have earlier := Cleaning.Shrinks.foldl shrinks (victims entries) _ name left found
          rw [show entries.get? name = some kind from held] at earlier
          cases earlier
          exact absurd survivor perishes
      | missing => cases held
      | linked => cases held
      | notDirectory => cases held

end ArtifactFolder

/-! ## Exactness -/

/-- Everything `live` denotes is as it was. -/
structure ArtifactFolders.Keeps (live : References) (before after : ArtifactFolders) : Prop where
  uploads : ∀ attachmentId ∈ live.attachmentIds, ∀ name,
    startsWith (attachmentId ++ "_") name = true → after.uploads.get? name = before.uploads.get? name
  pictures : ∀ name, (name ∈ live.imageNames ∨
      ∃ runId ∈ live.runIds, runIdForImage name = some runId) →
    after.pics.get? name = before.pics.get? name
  runs : ∀ runId ∈ live.runIds, after.codeRuns.get? runId = before.codeRuns.get? runId

/-- What `target` denotes and `retained` does not is gone: the files of its uploads, its
pictures and those of its runs, and the folders of its runs. -/
structure ArtifactFolders.Lacks (target retained : References) (after : ArtifactFolders) :
    Prop where
  uploads : ∀ attachmentId ∈ target.attachmentIds, attachmentId ∉ retained.attachmentIds →
    ∀ name kind, startsWith (attachmentId ++ "_") name = true →
      after.uploads.get? name = some kind → kind.isFileLike = false
  pictures : ∀ name kind, name ∈ target.imageNames → name ∉ retained.imageNames →
    (∀ runId, runIdForImage name = some runId → runId ∉ retained.runIds) →
      after.pics.get? name = some kind → kind.isFileLike = false
  runPictures : ∀ name kind runId, runIdForImage name = some runId → runId ∈ target.runIds →
    runId ∉ retained.runIds → after.pics.get? name = some kind → kind.isFileLike = false
  runs : ∀ runId kind, runId ∈ target.runIds → runId ∉ retained.runIds →
    after.codeRuns.get? runId = some kind → kind = .other

theorem mem_keys_of_get? {entries : Entries} {name : String}
    (found : entries.get? name ≠ none) : name ∈ entries.keys := by
  obtain ⟨kind, same⟩ := Option.ne_none_iff_exists'.mp found
  exact List.mem_map.mpr ⟨(name, kind), Dictionary.get?_eq_some.mp same, rfl⟩

theorem mem_uploadVictims {references : References} {names : List String} {name : String} :
    name ∈ uploadVictims references names ↔
      name ∈ names ∧ ∃ attachmentId ∈ references.attachmentIds,
        matchesAttachmentId attachmentId = true ∧ startsWith (attachmentId ++ "_") name = true := by
  simp only [uploadVictims, List.mem_flatMap, List.mem_filter, Finset.mem_sort]
  constructor
  · rintro ⟨attachmentId, ⟨listed, matched⟩, member, starts⟩
    exact ⟨member, attachmentId, listed, matched, starts⟩
  · rintro ⟨member, attachmentId, listed, matched, starts⟩
    exact ⟨attachmentId, ⟨listed, matched⟩, member, starts⟩

theorem mem_pictureVictims {references : References} {names : List String} {name : String} :
    name ∈ pictureVictims references names ↔
      name ∈ names ∧ ((name ∈ references.imageNames ∧ (runIdForImage name).isSome = true) ∨
        ∃ runId, runIdForImage name = some runId ∧ runId ∈ references.runIds) := by
  simp only [pictureVictims, List.mem_filter, Bool.or_eq_true, Bool.and_eq_true,
    decide_eq_true_eq, Option.any_eq_true]

/-- An upload belongs to one identifier. -/
theorem attachmentId_unique {first second name : String}
    (firstMatches : matchesAttachmentId first = true)
    (secondMatches : matchesAttachmentId second = true)
    (firstStarts : startsWith (first ++ "_") name = true)
    (secondStarts : startsWith (second ++ "_") name = true) : first = second := by
  simp only [matchesAttachmentId, Bool.and_eq_true, beq_iff_eq] at firstMatches secondMatches
  simp only [startsWith, String.toList_append, List.isPrefixOf_iff_prefix] at firstStarts secondStarts
  have left := (List.prefix_append first.toList "_".toList).trans firstStarts
  have right := (List.prefix_append second.toList "_".toList).trans secondStarts
  have same : first.toList = second.toList :=
    (List.prefix_of_prefix_length_le left right
      (firstMatches.1.trans secondMatches.1.symm).le).eq_of_length
        (firstMatches.1.trans secondMatches.1.symm)
  exact String.toList_injective same

section

variable {target retained : References} {folders : ArtifactFolders}

/-- The folders after a cleanup of what is exclusive to `target`. -/
abbrev cleanedFolders (target retained : References) (folders : ArtifactFolders) :
    ArtifactFolders :=
  (cleanupFolders (exclusiveReferences target retained) (.plain folders)).1.folders

theorem cleanup_keeps (wellFormed : retained.WellFormed) (closed : retained.Closed) :
    folders.Keeps retained (cleanedFolders target retained folders) where
  uploads := by
    intro attachmentId denoted name starts
    refine ArtifactFolder.clean_keeps (fun entries =>
      uploadVictims (exclusiveReferences target retained) entries.keys)
        Cleaning.unlinkFileLike_works fun entries _ victim => ?_
    obtain ⟨-, other, exclusive, matched, otherStarts⟩ := mem_uploadVictims.mp victim
    have same := attachmentId_unique (wellFormed.attachmentIds attachmentId denoted) matched starts
      otherStarts
    exact (Finset.mem_sdiff.mp exclusive).2 (same ▸ denoted)
  pictures := by
    intro name denoted
    refine ArtifactFolder.clean_keeps (fun entries =>
      pictureVictims (exclusiveReferences target retained) entries.keys)
        Cleaning.unlinkFileLike_works fun entries _ victim => ?_
    rcases (mem_pictureVictims.mp victim).2 with ⟨named, -⟩ | ⟨runId, parsed, ran⟩
    · obtain ⟨exclusive, unshared⟩ := Finset.mem_filter.mp named
      rcases denoted with listed | ⟨runId, listed, parsed⟩
      · exact (Finset.mem_sdiff.mp exclusive).2 listed
      · rw [parsed, Option.all_some, decide_eq_true_iff] at unshared
        exact unshared listed
    · have unshared := (Finset.mem_sdiff.mp ran).2
      rcases denoted with listed | ⟨other, listed, otherParsed⟩
      · exact unshared (closed name listed runId parsed)
      · rw [parsed] at otherParsed
        cases otherParsed
        exact unshared listed
  runs := by
    intro runId denoted
    refine ArtifactFolder.clean_keeps (fun _ =>
      ((exclusiveReferences target retained).runIds.sort (· ≤ ·)).filter matchesRunId)
        Cleaning.removeRun_works fun entries _ victim => ?_
    have exclusive := (Finset.mem_sort _).mp (List.mem_filter.mp victim).1
    exact (Finset.mem_sdiff.mp exclusive).2 denoted

theorem cleanup_lacks (wellFormed : target.WellFormed) :
    (cleanedFolders target retained folders).Lacks target retained where
  uploads := by
    intro attachmentId denoted unshared name kind starts found
    refine ArtifactFolder.clean_removes (fun entries =>
      uploadVictims (exclusiveReferences target retained) entries.keys)
        Cleaning.unlinkFileLike_works (fun entries _ stored => ?_) found
    exact mem_uploadVictims.mpr ⟨mem_keys_of_get? stored, attachmentId,
      Finset.mem_sdiff.mpr ⟨denoted, unshared⟩, wellFormed.attachmentIds attachmentId denoted,
      starts⟩
  pictures := by
    intro name kind denoted unshared unsharedRun found
    refine ArtifactFolder.clean_removes (fun entries =>
      pictureVictims (exclusiveReferences target retained) entries.keys)
        Cleaning.unlinkFileLike_works (fun entries _ stored => ?_) found
    refine mem_pictureVictims.mpr ⟨mem_keys_of_get? stored, .inl ⟨?_,
      wellFormed.imageNames name denoted⟩⟩
    refine Finset.mem_filter.mpr ⟨Finset.mem_sdiff.mpr ⟨denoted, unshared⟩, ?_⟩
    rw [Option.all_eq_true]
    intro runId parsed
    exact decide_eq_true (unsharedRun runId parsed)
  runPictures := by
    intro name kind runId parsed denoted unshared found
    refine ArtifactFolder.clean_removes (fun entries =>
      pictureVictims (exclusiveReferences target retained) entries.keys)
        Cleaning.unlinkFileLike_works (fun entries _ stored => ?_) found
    exact mem_pictureVictims.mpr ⟨mem_keys_of_get? stored, .inr ⟨runId, parsed,
      Finset.mem_sdiff.mpr ⟨denoted, unshared⟩⟩⟩
  runs := by
    intro runId kind denoted unshared found
    refine ArtifactFolder.clean_removes (fun _ =>
      ((exclusiveReferences target retained).runIds.sort (· ≤ ·)).filter matchesRunId)
        Cleaning.removeRun_works (fun entries _ stored => ?_) found
    refine List.mem_filter.mpr ⟨(Finset.mem_sort _).mpr ?_, wellFormed.runIds runId denoted⟩
    exact Finset.mem_sdiff.mpr ⟨denoted, unshared⟩

end

theorem ArtifactFolder.clean_nothing {label : String} {work : Cleaning → Cleaning}
    (idle : ∀ cleaning, work cleaning = cleaning) (folder : ArtifactFolder) :
    (folder.clean label work).1 = folder := by
  cases folder with
  | directory entries =>
      simp only [clean]
      rw [idle]
  | missing => rfl
  | linked => rfl
  | notDirectory => rfl

theorem cleanup_empty (workspace : WorkspaceFolder) :
    (cleanupFolders .empty workspace).1 = workspace := by
  cases workspace with
  | linked root chatFiles => rfl
  | plain folders =>
      have uploads : (cleanupUploadArtifacts .empty folders.uploads).1 = folders.uploads :=
        ArtifactFolder.clean_nothing (fun cleaning => by simp [uploadVictims, References.empty]) _
      have pics : (cleanupImageArtifacts .empty folders.pics).1 = folders.pics :=
        ArtifactFolder.clean_nothing (fun cleaning => by simp [pictureVictims, References.empty]) _
      have codeRuns : (cleanupRunArtifacts .empty folders.codeRuns).1 = folders.codeRuns :=
        ArtifactFolder.clean_nothing (fun cleaning => by simp [References.empty]) _
      simp only [cleanupFolders, uploads, pics, codeRuns]

/-- Executing a safe plan removes what its conversations denote and no other one does, and
nothing another conversation denotes. A plan that is not safe removes nothing. -/
theorem plan_cleanup_exact (config : StoreConfig) (database : Database)
    (conversationIds : List String) (plan : DeletionPlan)
    (planned : artifactCleanupPlanLocked config conversationIds database = .ok plan)
    (strict : Bool) (workspace : WorkspaceFolder) :
    (plan.safe = true →
      workspace.folders.Keeps (denotedIn config.urlRules (otherMessages conversationIds database))
        (cleanupWorkspaceArtifacts plan.exclusive strict workspace).2.folders ∧
      (cleanupWorkspaceArtifacts plan.exclusive strict workspace).2.folders.Lacks
        (denotedIn config.urlRules (targetMessages conversationIds database))
        (denotedIn config.urlRules (otherMessages conversationIds database))) ∧
    (plan.safe = false →
      (cleanupWorkspaceArtifacts plan.exclusive strict workspace).2 = workspace) := by
  constructor
  · intro safe
    rw [artifactCleanupPlanLocked_exclusive planned safe]
    cases workspace with
    | linked root chatFiles =>
        refine ⟨⟨fun _ _ _ _ => rfl, fun _ _ => rfl, fun _ _ => rfl⟩, ?_⟩
        constructor
        · intro _ _ _ _ _ _ found
          cases found
        · intro _ _ _ _ _ found
          cases found
        · intro _ _ _ _ _ _ found
          cases found
        · intro _ _ _ _ found
          cases found
    | plain folders =>
        exact ⟨cleanup_keeps (denotedIn_wellFormed _) (denotedIn_closed _),
          cleanup_lacks (denotedIn_wellFormed _)⟩
  · intro notSafe
    rw [artifactCleanupPlanLocked_exclusive_of_notSafe planned notSafe]
    exact cleanup_empty workspace

/-! ## A sample cleanup -/

/-- A conversation whose answer has one upload. -/
def uploadedDatabase : Database :=
  Execution.run (Event.after Sample.config) .empty
    [⟨.beginTurn (Sample.begins "t1" none), Sample.draws 0 "a"⟩,
      ⟨.completeTurn { Sample.completes "t1" "a" with
        metadata := some [("response_payload", .dict [("attachments", .list [
          .dict [("id", .str "0123456789abcdef0123456789abcdef")]])])] },
        Sample.draws 10 "b"⟩]

def uploadedWorkspace : WorkspaceFolder :=
  .plain {
    uploads := .directory
      ⟨[("0123456789abcdef0123456789abcdef_notes.txt", .file)], by decide⟩
    pics := .missing
    codeRuns := .missing }

theorem plan_cleanup_exact_upload :
    ∃ plan, artifactCleanupPlanLocked Sample.config ["conversation-a"] uploadedDatabase = .ok plan ∧
      (cleanupWorkspaceArtifacts plan.exclusive true uploadedWorkspace).2.folders.uploads.get?
        "0123456789abcdef0123456789abcdef_notes.txt" ≠ some .file := by
  cases planned : artifactCleanupPlanLocked Sample.config ["conversation-a"] uploadedDatabase with
  | error raised =>
      have returns : (artifactCleanupPlanLocked Sample.config ["conversation-a"]
          uploadedDatabase).toBool = true := by
        decide +kernel
      rw [planned] at returns
      cases returns
  | ok plan =>
      have safe : (match artifactCleanupPlanLocked Sample.config ["conversation-a"]
          uploadedDatabase with | .ok plan => plan.safe | .error _ => false) = true := by
        decide +kernel
      rw [planned] at safe
      have exact := (plan_cleanup_exact Sample.config uploadedDatabase ["conversation-a"] plan
        planned true uploadedWorkspace).1 safe
      refine ⟨plan, rfl, fun found => ?_⟩
      have denoted : "0123456789abcdef0123456789abcdef" ∈ (denotedIn Sample.config.urlRules
          (targetMessages ["conversation-a"] uploadedDatabase)).attachmentIds := by
        decide +kernel
      have unshared : "0123456789abcdef0123456789abcdef" ∉ (denotedIn Sample.config.urlRules
          (otherMessages ["conversation-a"] uploadedDatabase)).attachmentIds := by
        decide +kernel
      cases exact.2.uploads _ denoted unshared _ _ (by decide +kernel) found

end RAGuardian.Artifacts
