import RAGuardian.Ingestion.SecretsInUse

/-! # Where cursors come from

Saves, toggles and syncs of the data sources in any order. A sync reads its data source
when it starts and stores its cursor when it ends. -/

namespace RAGuardian.Ingestion

variable {Cursor : Type} (setup : Setup)

/-! ## What a data source reads -/

/-- `{**config, **secrets_env, **_resolved_user_secrets(config, source)}` -/
def sourceConfig (secrets : Secrets) (source : DataSource Cursor) : Except Failure Config :=
  withSecrets setup secrets
    (source.secrets.entries.filter fun entry =>
      entry.2.mode == "user_secret" && entry.2.ref != "")
    (merge source.config (asSettings source.secretsEnv))

/-- What the plugin of a data source reads. -/
def collectionOf (secrets : Secrets) (source : DataSource Cursor) :
    Except Failure Collection := do
  validateConfig setup source.plugin (← sourceConfig setup secrets source)

/-! ## Syncs -/

/-- A cursor, and the plugin and the collection of a sync. -/
structure Provenance (Cursor : Type) where
  plugin : String
  collection : Collection
  cursor : Cursor
deriving DecidableEq

/-- A sync that has read its data source. -/
structure RunningSync (Cursor : Type) where
  sourceId : String
  knowledgeBaseId : String
  plugin : String
  collection : Collection
  cursor : Option Cursor

/-- `datetime.now`, and the time some seconds later. -/
structure Clock where
  now : String
  later : Nat → String

/-- `_next_sync_at` -/
def nextSyncAt (clock : Clock) (source : DataSource Cursor) : String :=
  if source.syncEnabled = false then ""
  else if source.syncIntervalSeconds = 0 then ""
  else clock.later source.syncIntervalSeconds

/-- The arguments of `_update_data_source_state`. -/
structure StatePatch (Cursor : Type) where
  cursor : Option (Option Cursor) := none
  lastError : Option String := none
  lastSyncStatus : Option String := none
  touchLastSync : Bool := false
  scheduleNext : Bool := false

def StatePatch.apply (patch : StatePatch Cursor) (clock : Clock) (source : DataSource Cursor) :
    DataSource Cursor :=
  { source with
    cursor := patch.cursor.getD source.cursor
    lastSync := if patch.touchLastSync then clock.now else source.lastSync
    lastError := patch.lastError.getD source.lastError
    lastSyncStatus := patch.lastSyncStatus.getD source.lastSyncStatus
    nextSyncAt :=
      if patch.scheduleNext then nextSyncAt clock source else source.nextSyncAt }

/-- The marks a job leaves on its data source. -/
inductive Mark
  | queued
  | running
  | failed (message : String)

/-- `mark_data_source_sync_queued`, `_running` and `_failed` -/
def Mark.patch : Mark → StatePatch Cursor
  | .queued => { lastError := some "", lastSyncStatus := some "queued", scheduleNext := true }
  | .running => { lastSyncStatus := some "running" }
  | .failed message =>
      { lastError := some message, lastSyncStatus := some "failed", touchLastSync := true
        scheduleNext := true }

/-- The patch at the end of `sync_data_source`. -/
def RunningSync.patch (sync : RunningSync Cursor) (result : Option Cursor) (errors : Nat) :
    StatePatch Cursor where
  cursor := some (result.or sync.cursor)
  lastError :=
    some (if errors = 0 then "" else toString errors ++ " errore/i durante la sync")
  lastSyncStatus := some (if errors = 0 then "completed" else "completed_with_errors")
  touchLastSync := true
  scheduleNext := true

/-- The change of `toggle_data_source_enabled`. -/
def toggled (enabled : Bool) (clock : Clock) (source : DataSource Cursor) : DataSource Cursor :=
  if enabled = false then
    { source with enabled := false, lastSyncStatus := "disabled", nextSyncAt := "" }
  else if source.syncEnabled = true ∧ 0 < source.syncIntervalSeconds then
    { source with
      enabled := true
      nextSyncAt := orElse source.nextSyncAt (clock.later source.syncIntervalSeconds) }
  else { source with enabled := true, nextSyncAt := "" }

/-- The data source of a knowledge base with an id. -/
def isFor (sourceId knowledgeBaseId : String) (source : DataSource Cursor) : Bool :=
  source.id == sourceId && orElse source.knowledgeBaseId "default" == knowledgeBaseId

/-- `store.mutate` with a change of some data sources. -/
def mutateSources [DecidableEq Cursor] (selects : DataSource Cursor → Bool)
    (change : DataSource Cursor → DataSource Cursor) (files : Files Cursor) : Files Cursor :=
  let mutated := Table.update selects change (files.loaded setup)
  if mutated = files.loaded setup then files
  else { files with dataSources := normalizeDataSources setup mutated }

/-! ## The machine -/

/-- The files, the syncs under way, the cursors that syncs have produced, and those that
were handed to a plugin. -/
structure Desk (Cursor : Type) where
  files : Files Cursor
  running : List (RunningSync Cursor)
  produced : List (Provenance Cursor)
  handed : List (Provenance Cursor)

inductive Event (Cursor : Type)
  | save (request : SaveRequest)
  | toggle (sourceId knowledgeBaseId : String) (enabled : Bool) (clock : Clock)
  | mark (sourceId knowledgeBaseId : String) (mark : Mark) (clock : Clock)
  | start (sourceId knowledgeBaseId : String)
  | finish (index : Nat) (result : Option Cursor) (errors : Nat) (clock : Clock)
  | fail (index : Nat)

/-- `sync_data_source` up to the call of the plugin. -/
def Desk.start (sourceId knowledgeBaseId : String) (desk : Desk Cursor) : Desk Cursor :=
  match lookup (desk.files.loaded setup) sourceId with
  | none => desk
  | some source =>
      if orElse source.knowledgeBaseId "default" ≠ knowledgeBaseId ∨ source.enabled = false then
        desk
      else
        match collectionOf setup desk.files.secrets source with
        | .error _ => desk
        | .ok collection =>
            { desk with
              running := desk.running ++
                [⟨sourceId, knowledgeBaseId, source.plugin, collection, source.cursor⟩]
              handed := desk.handed ++
                (source.cursor.map fun cursor => ⟨source.plugin, collection, cursor⟩).toList }

/-- `sync_data_source` after the items have been indexed. -/
def Desk.finish [DecidableEq Cursor] (index : Nat) (result : Option Cursor) (errors : Nat) (clock : Clock)
    (desk : Desk Cursor) : Desk Cursor :=
  match desk.running[index]? with
  | none => desk
  | some sync =>
      { desk with
        files := mutateSources setup (isFor sync.sourceId sync.knowledgeBaseId)
          ((sync.patch result errors).apply clock) desk.files
        running := desk.running.eraseIdx index
        produced := desk.produced ++
          (result.map fun cursor => ⟨sync.plugin, sync.collection, cursor⟩).toList }

def Desk.next [DecidableEq Cursor] : Event Cursor → Desk Cursor → Desk Cursor
  | .save request, desk => { desk with files := (saveDataSource setup request desk.files).2 }
  | .toggle sourceId knowledgeBaseId enabled clock, desk =>
      { desk with
        files := mutateSources setup (isFor sourceId knowledgeBaseId) (toggled enabled clock)
          desk.files }
  | .mark sourceId knowledgeBaseId mark clock, desk =>
      { desk with
        files := mutateSources setup (isFor sourceId knowledgeBaseId) (mark.patch.apply clock)
          desk.files }
  | .start sourceId knowledgeBaseId, desk => desk.start setup sourceId knowledgeBaseId
  | .finish index result errors clock, desk => desk.finish setup index result errors clock
  | .fail index, desk => { desk with running := desk.running.eraseIdx index }

/-- A workspace without data sources. -/
def Desk.initial (secrets : Secrets) : Desk Cursor where
  files := { dataSources := [], secrets := secrets }
  running := []
  produced := []
  handed := []

/-- Every cursor that was handed to a plugin had been produced by a sync with this plugin
of this collection. -/
def Desk.Belongs (desk : Desk Cursor) : Prop :=
  desk.handed ⊆ desk.produced

/-- What the record of a request will read. -/
def SaveRequest.collection (request : SaveRequest) (files : Files Cursor) :
    Except Failure Collection :=
  let previous := lookup files.dataSources (request.sourceId setup)
  collectionOf setup
    (deleteSecrets (request.oldRefs setup previous) (request.drawn setup files.secrets))
    (request.stored setup previous (false, 0))

/-- A save that changes the plugin or the collection of a data source comes when no cursor
is stored for it and no sync of it is under way. -/
def SaveRequest.Careful (request : SaveRequest) (desk : Desk Cursor) : Prop :=
  ∀ previous, lookup desk.files.dataSources (request.sourceId setup) = some previous →
    (Text.strip request.form.plugin = previous.plugin ∧
        request.collection setup desk.files =
          collectionOf setup desk.files.secrets previous) ∨
      (previous.cursor = none ∧ ∀ sync ∈ desk.running, sync.sourceId ≠ previous.id)

/-- What the saves of a run meet. -/
def Event.Careful : Event Cursor → Desk Cursor → Prop
  | .save request, desk => request.Fresh setup desk.files ∧ request.Careful setup desk
  | _, _ => True

/-! ## What changes leave -/

variable {setup}

theorem withSecrets_congr {secrets others : Secrets} {entries : List (String × Descriptor)}
    (same : ∀ entry ∈ entries, secrets.get? entry.2.ref = others.get? entry.2.ref)
    (config : Config) :
    withSecrets setup secrets entries config = withSecrets setup others entries config := by
  induction entries generalizing config with
  | nil => rfl
  | cons entry entries induction =>
      have rest := fun config => induction
        (fun other member => same other (List.mem_cons_of_mem entry member)) config
      have first : getSecret setup.hmac setup.key secrets entry.2.ref =
          getSecret setup.hmac setup.key others entry.2.ref := by
        rw [getSecret, getSecret, same entry List.mem_cons_self]
      simp only [withSecrets, first, rest]

/-- What a data source reads depends on its own secrets only. -/
theorem collectionOf_congr {secrets others : Secrets} {source : DataSource Cursor}
    (same : ∀ name descriptor, source.secrets.get? name = some descriptor →
      secrets.get? descriptor.ref = others.get? descriptor.ref) :
    collectionOf setup secrets source = collectionOf setup others source := by
  have config : sourceConfig setup secrets source = sourceConfig setup others source := by
    apply withSecrets_congr
    intro entry member
    exact same entry.1 entry.2 (Dictionary.get?_eq_some.mpr (List.mem_of_mem_filter member))
  rw [collectionOf, collectionOf, config]

/-- A change leaves what a data source is, and what it reads. -/
structure Alters (change : DataSource Cursor → DataSource Cursor) : Prop where
  id : ∀ source, (change source).id = source.id
  knowledgeBaseId : ∀ source, (change source).knowledgeBaseId = source.knowledgeBaseId
  name : ∀ source, (change source).name = source.name
  plugin : ∀ source, (change source).plugin = source.plugin
  config : ∀ source, (change source).config = source.config
  secretsEnv : ∀ source, (change source).secretsEnv = source.secretsEnv
  secrets : ∀ source, (change source).secrets = source.secrets

theorem apply_alters (patch : StatePatch Cursor) (clock : Clock) : Alters (patch.apply clock) := by
  constructor <;> (intro source; rfl)

theorem toggled_alters (enabled : Bool) (clock : Clock) :
    Alters (toggled enabled clock : DataSource Cursor → DataSource Cursor) := by
  constructor <;> (intro source; rw [toggled]; split; rfl; split <;> rfl)

/-- A changed record as it is stored. -/
structure Restored (setup : Setup) (change : DataSource Cursor → DataSource Cursor)
    (source : DataSource Cursor) : Prop where
  normal : normalizeDataSource setup (normalizeDataSource setup (change source)) =
    normalizeDataSource setup (change source)
  id : (normalizeDataSource setup (change source)).id = source.id
  plugin : (normalizeDataSource setup (change source)).plugin = source.plugin
  config : (normalizeDataSource setup (change source)).config = source.config
  secretsEnv : (normalizeDataSource setup (change source)).secretsEnv = source.secretsEnv
  secrets : (normalizeDataSource setup (change source)).secrets = source.secrets

theorem Alters.restored {change : DataSource Cursor → DataSource Cursor} (alters : Alters change)
    {sources : List (DataSource Cursor)} (kept : WellKept setup sources)
    {source : DataSource Cursor} (member : source ∈ sources) : Restored setup change source := by
  have normal := kept.normal source member
  have nonempty : (change source).id ≠ "" := by
    rw [alters.id]
    exact kept.nonempty source member
  have id : (normalizeDataSource setup (change source)).id = source.id := by
    rw [normalized_id nonempty, alters.id, kept.slug_id member]
  have name : Text.strip source.name = source.name := by
    rw [← normal]
    exact Text.strip_strip _
  have knowledgeBase : Text.strip source.knowledgeBaseId = source.knowledgeBaseId := by
    rw [← normal]
    exact Text.strip_strip _
  have trimmed : Trimmed setup (change source) := {
    id := ⟨source.id, by rw [alters.id, kept.slug_id member]⟩
    nonempty := nonempty
    name := by rw [alters.name, name]
    knowledgeBaseId := by rw [alters.knowledgeBaseId, knowledgeBase] }
  exact {
    normal := trimmed.normalized (by rw [id]; exact kept.nonempty source member)
    id := id
    plugin := by
      change Text.strip (change source).plugin = source.plugin
      rw [alters.plugin]
      exact congrArg (·.plugin) normal
    config := (normalized_config (change source)).trans (alters.config source)
    secretsEnv := by
      change stripValues (change source).secretsEnv = source.secretsEnv
      rw [alters.secretsEnv]
      exact congrArg (·.secretsEnv) normal
    secrets := by
      change (change source).secrets.removeWhere (fun _ descriptor => descriptor.ref == "") =
        source.secrets
      rw [alters.secrets]
      exact congrArg (·.secrets) normal }

theorem Restored.collectionOf {change : DataSource Cursor → DataSource Cursor}
    {source : DataSource Cursor} (restored : Restored setup change source) (secrets : Secrets) :
    collectionOf setup secrets (normalizeDataSource setup (change source)) =
      collectionOf setup secrets source := by
  simp only [Ingestion.collectionOf, sourceConfig, restored.plugin, restored.config,
    restored.secretsEnv, restored.secrets]

/-- The stored list after some of its records were changed. -/
structure Changed (setup : Setup) (selects : DataSource Cursor → Bool)
    (change : DataSource Cursor → DataSource Cursor)
    (current sources : List (DataSource Cursor)) : Prop where
  kept : WellKept setup sources
  records : sources =
    Table.update selects (fun source => normalizeDataSource setup (change source)) current

theorem Alters.changed {change : DataSource Cursor → DataSource Cursor} (alters : Alters change)
    {sources : List (DataSource Cursor)} (kept : WellKept setup sources)
    (selects : DataSource Cursor → Bool) :
    Changed setup selects change sources
      (normalizeDataSources setup (Table.update selects change sources)) := by
  have normalized : ∀ source ∈ sources,
      normalizeDataSource setup (if selects source then change source else source) =
        if selects source then normalizeDataSource setup (change source) else source := by
    intro source member
    split
    · rfl
    · exact kept.normal source member
  have ids : ∀ source ∈ sources,
      (if selects source then normalizeDataSource setup (change source) else source).id =
        source.id := by
    intro source member
    split
    · exact (alters.restored kept member).id
    · rfl
  have mapped : (Table.update selects change sources).map (normalizeDataSource setup) =
      Table.update selects (fun source => normalizeDataSource setup (change source)) sources := by
    rw [Table.update, Table.update, List.map_map]
    exact List.map_congr_left normalized
  have sameIds : (Table.update selects (fun source => normalizeDataSource setup (change source))
      sources).map (·.id) = sources.map (·.id) := by
    rw [Table.update, List.map_map]
    exact List.map_congr_left ids
  have written : normalizeDataSources setup (Table.update selects change sources) =
      Table.update selects (fun source => normalizeDataSource setup (change source)) sources := by
    rw [normalizeDataSources, normalizeFrom_eq_map, mapped]
    · intro other listed
      obtain ⟨source, member, rfl⟩ := Table.mem_update.mp listed
      rw [normalized source member, ids source member]
      exact kept.nonempty source member
    · simp
    · have composed := List.map_map (f := normalizeDataSource setup) (g := (·.id))
        (l := Table.update selects change sources)
      rw [mapped, sameIds] at composed
      change (List.map ((·.id) ∘ normalizeDataSource setup) _).Nodup
      rw [← composed]
      exact kept.distinct
  refine ⟨?_, written⟩
  rw [written]
  constructor
  · intro other listed
    obtain ⟨source, member, rfl⟩ := Table.mem_update.mp listed
    split
    · exact (alters.restored kept member).normal
    · exact kept.normal source member
  · intro other listed
    obtain ⟨source, member, rfl⟩ := Table.mem_update.mp listed
    rw [ids source member]
    exact kept.nonempty source member
  · rw [sameIds]
    exact kept.distinct

theorem mutateSources_changed [DecidableEq Cursor]
    {change : DataSource Cursor → DataSource Cursor} (alters : Alters change) {files : Files Cursor}
    (kept : WellKept setup files.dataSources) (selects : DataSource Cursor → Bool) :
    ∃ sources, mutateSources setup selects change files = { files with dataSources := sources } ∧
      Changed setup selects change files.dataSources sources := by
  have loaded : files.loaded setup = files.dataSources := kept.loaded
  have changed := alters.changed kept selects
  rw [mutateSources, loaded]
  split
  · rename_i same
    rw [same, kept.loaded] at changed
    exact ⟨files.dataSources, rfl, changed⟩
  · exact ⟨_, rfl, changed⟩

/-- The records of a changed list. -/
theorem Changed.lookup {selects : DataSource Cursor → Bool}
    {change : DataSource Cursor → DataSource Cursor} {current sources : List (DataSource Cursor)}
    (changed : Changed setup selects change current sources) (alters : Alters change)
    (kept : WellKept setup current) (id : String) :
    lookup sources id = (lookup current id).map fun source =>
      if selects source then normalizeDataSource setup (change source) else source := by
  apply Option.ext
  intro other
  rw [changed.kept.lookup_eq_some, changed.records, Table.mem_update, Option.map_eq_some_iff]
  constructor
  · rintro ⟨⟨source, member, rfl⟩, keyed⟩
    refine ⟨source, kept.lookup_eq_some.mpr ⟨member, ?_⟩, rfl⟩
    rw [← keyed]
    split
    · exact (alters.restored kept member).id.symm
    · rfl
  · rintro ⟨source, found, rfl⟩
    obtain ⟨member, keyed⟩ := kept.lookup_eq_some.mp found
    refine ⟨⟨source, member, rfl⟩, ?_⟩
    split
    · exact (alters.restored kept member).id.trans keyed
    · exact keyed

/-! ## The invariant -/

/-- Every stored cursor was produced by a sync with the plugin of its data source of what
the data source reads, and what a sync under way has read is still what its data source
says. -/
structure Origins (setup : Setup) (desk : Desk Cursor) : Prop where
  sources : WellKept setup desk.files.dataSources
  exact : Versions.Exact (fun _ => True) (point desk.files.dataSources) desk.files.secrets.get?
    fun _ _ => True
  cursors : ∀ source ∈ desk.files.dataSources, ∀ cursor, source.cursor = some cursor →
    ∀ collection, collectionOf setup desk.files.secrets source = .ok collection →
      ⟨source.plugin, collection, cursor⟩ ∈ desk.produced
  running : ∀ sync ∈ desk.running, ∃ source,
    lookup desk.files.dataSources sync.sourceId = some source ∧ source.plugin = sync.plugin ∧
      collectionOf setup desk.files.secrets source = .ok sync.collection
  started : ∀ sync ∈ desk.running, ∀ cursor, sync.cursor = some cursor →
    ⟨sync.plugin, sync.collection, cursor⟩ ∈ desk.produced
  belongs : desk.Belongs

theorem origins_initial (secrets : Secrets) : Origins setup (Desk.initial secrets : Desk Cursor) where
  sources := WellKept.nil
  exact := {
    held := by
      intro key ref pointed
      cases pointed
    apart := by
      intro key other ref pointed
      cases pointed
    used := fun _ _ _ => .inl trivial }
  cursors := by
    intro source member
    cases member
  running := by
    intro sync member
    cases member
  started := by
    intro sync member
    cases member
  belongs := List.Subset.refl _

section

variable {desk : Desk Cursor}

/-- Fewer syncs under way and more cursors produced. -/
theorem Origins.advance (origins : Origins setup desk) {running : List (RunningSync Cursor)}
    {produced : List (Provenance Cursor)} (fewer : running ⊆ desk.running)
    (more : desk.produced ⊆ produced) :
    Origins setup { desk with running := running, produced := produced } where
  sources := origins.sources
  exact := origins.exact
  cursors source member cursor stored collection reads :=
    more (origins.cursors source member cursor stored collection reads)
  running sync member := origins.running sync (fewer member)
  started sync member cursor held := more (origins.started sync (fewer member) cursor held)
  belongs _ member := more (origins.belongs member)

theorem Origins.mutated [DecidableEq Cursor] (origins : Origins setup desk)
    {change : DataSource Cursor → DataSource Cursor} (alters : Alters change)
    (selects : DataSource Cursor → Bool)
    (stores : ∀ source ∈ desk.files.dataSources, selects source = true →
      ∀ cursor, (change source).cursor = some cursor →
        ∀ collection, collectionOf setup desk.files.secrets source = .ok collection →
          ⟨source.plugin, collection, cursor⟩ ∈ desk.produced) :
    Origins setup { desk with files := mutateSources setup selects change desk.files } := by
  obtain ⟨sources, written, changed⟩ := mutateSources_changed alters origins.sources selects
  rw [written]
  have lookups := changed.lookup alters origins.sources
  have points : point sources = point desk.files.dataSources := by
    funext key
    rw [point, point, lookups]
    cases found : lookup desk.files.dataSources key.1 with
    | none => rfl
    | some source =>
        have restored := alters.restored origins.sources
          (origins.sources.lookup_eq_some.mp found).1
        simp only [Option.map_some, Option.bind_some]
        split
        · rw [restored.secrets]
        · rfl
  exact {
    sources := changed.kept
    exact := by
      change Versions.Exact _ (point sources) _ _
      rw [points]
      exact origins.exact
    cursors := by
      intro other listed cursor stored collection reads
      change other ∈ sources at listed
      change collectionOf setup desk.files.secrets other = .ok collection at reads
      rw [changed.records] at listed
      obtain ⟨source, member, rfl⟩ := Table.mem_update.mp listed
      split at stored
      · rename_i selected
        have restored := alters.restored origins.sources member
        rw [if_pos selected, restored.collectionOf] at reads
        rw [if_pos selected, restored.plugin]
        rw [normalized_cursor] at stored
        exact stores source member selected cursor stored collection reads
      · rename_i unselected
        rw [if_neg unselected] at reads ⊢
        exact origins.cursors source member cursor stored collection reads
    running := by
      intro sync member
      obtain ⟨source, found, plugin, reads⟩ := origins.running sync member
      have restored := alters.restored origins.sources
        (origins.sources.lookup_eq_some.mp found).1
      refine ⟨if selects source then normalizeDataSource setup (change source) else source,
        by rw [lookups, found, Option.map_some], ?_⟩
      split
      · exact ⟨restored.plugin.trans plugin, (restored.collectionOf _).trans reads⟩
      · exact ⟨plugin, reads⟩
    started := origins.started
    belongs := origins.belongs }

theorem Origins.start (origins : Origins setup desk) (sourceId knowledgeBaseId : String) :
    Origins setup (desk.start setup sourceId knowledgeBaseId) := by
  have loaded : desk.files.loaded setup = desk.files.dataSources := origins.sources.loaded
  rw [Desk.start, loaded]
  split
  · exact origins
  · rename_i source found
    have member := (origins.sources.lookup_eq_some.mp found).1
    split
    · exact origins
    · split
      · exact origins
      · rename_i collection reads
        exact { origins with
          running := by
            intro sync listed
            rcases List.mem_append.mp listed with earlier | last
            · exact origins.running sync earlier
            · rw [List.mem_singleton.mp last]
              exact ⟨source, found, rfl, reads⟩
          started := by
            intro sync listed cursor held
            rcases List.mem_append.mp listed with earlier | last
            · exact origins.started sync earlier cursor held
            · rw [List.mem_singleton.mp last] at held ⊢
              exact origins.cursors source member cursor held collection reads
          belongs := by
            intro provenance listed
            rcases List.mem_append.mp listed with earlier | last
            · exact origins.belongs earlier
            · cases stored : source.cursor with
              | none =>
                  rw [stored] at last
                  cases last
              | some cursor =>
                  rw [stored] at last
                  rw [List.mem_singleton.mp last]
                  exact origins.cursors source member cursor stored collection reads }

theorem Origins.finish [DecidableEq Cursor] (origins : Origins setup desk) (index : Nat)
    (result : Option Cursor) (errors : Nat) (clock : Clock) :
    Origins setup (desk.finish setup index result errors clock) := by
  rw [Desk.finish]
  split
  · exact origins
  · rename_i sync found
    have member := List.mem_of_getElem? found
    have advanced := origins.advance (List.eraseIdx_subset (l := desk.running) (k := index))
      (List.subset_append_left desk.produced
        (result.map fun cursor => ⟨sync.plugin, sync.collection, cursor⟩).toList)
    refine advanced.mutated (apply_alters (sync.patch result errors) clock)
      (isFor sync.sourceId sync.knowledgeBaseId) ?_
    intro source listed selected cursor stored collection reads
    -- The data source still reads what it read when the sync started.
    obtain ⟨own, there, plugin, same⟩ := origins.running sync member
    have keyed : source.id = sync.sourceId := by
      rw [isFor, Bool.and_eq_true] at selected
      exact eq_of_beq selected.1
    have unique : lookup desk.files.dataSources sync.sourceId = some source :=
      origins.sources.lookup_eq_some.mpr ⟨listed, keyed⟩
    rw [unique, Option.some.injEq] at there
    subst there
    change collectionOf setup desk.files.secrets source = .ok collection at reads
    rw [same, Except.ok.injEq] at reads
    subst reads
    change result.or sync.cursor = some cursor at stored
    rw [plugin]
    apply List.mem_append.mpr
    cases result with
    | none => exact .inl (origins.started sync member cursor stored)
    | some newest =>
        cases stored
        exact .inr (List.mem_singleton_self _)

/-- Other secrets than those of the data sources matter to no sync. -/
theorem Origins.withSecrets (origins : Origins setup desk) {secrets : Secrets}
    (same : ∀ key ref, point desk.files.dataSources key = some ref →
      secrets.get? ref = desk.files.secrets.get? ref) :
    Origins setup { desk with files := { desk.files with secrets := secrets } } := by
  have reads : ∀ source ∈ desk.files.dataSources,
      collectionOf setup secrets source = collectionOf setup desk.files.secrets source := by
    intro source member
    apply collectionOf_congr
    intro name descriptor found
    exact same (source.id, name) descriptor.ref (point_eq_some.mpr
      ⟨source, origins.sources.lookup_eq_some.mpr ⟨member, rfl⟩, descriptor, found, rfl⟩)
  exact {
    sources := origins.sources
    exact := {
      held := by
        intro key ref pointed
        change ∃ value, secrets.get? ref = some value ∧ True
        rw [same key ref pointed]
        exact origins.exact.held key ref pointed
      apart := origins.exact.apart
      used := fun _ _ _ => .inl trivial }
    cursors := by
      intro source member cursor stored collection read
      change collectionOf setup secrets source = .ok collection at read
      rw [reads source member] at read
      exact origins.cursors source member cursor stored collection read
    running := by
      intro sync member
      obtain ⟨source, found, plugin, read⟩ := origins.running sync member
      exact ⟨source, found, plugin,
        (reads source (origins.sources.lookup_eq_some.mp found).1).trans read⟩
    started := origins.started
    belongs := origins.belongs }

theorem stored_plugin (request : SaveRequest) (previous : Option (DataSource Cursor))
    (sync : Bool × Nat) :
    (request.stored setup previous sync).plugin = Text.strip request.form.plugin :=
  Text.strip_strip _

theorem collectionOf_stored (request : SaveRequest) (files : Files Cursor)
    (sync : Bool × Nat) :
    collectionOf setup
        (deleteSecrets (request.oldRefs setup (lookup files.dataSources (request.sourceId setup)))
          (request.drawn setup files.secrets))
        (request.stored setup (lookup files.dataSources (request.sourceId setup)) sync) =
      request.collection setup files :=
  rfl

theorem Origins.placed (origins : Origins setup desk) {request : SaveRequest}
    (fresh : request.Fresh setup desk.files) (careful : request.Careful setup desk)
    {sync : Bool × Nat} {sources : List (DataSource Cursor)}
    (nonempty : request.sourceId setup ≠ "")
    (replaces : lookup desk.files.dataSources
        (Settings.slug setup.characters (request.sourceId setup)) =
      lookup desk.files.dataSources (request.sourceId setup))
    (placed : Placed setup
      (request.stored setup (lookup desk.files.dataSources (request.sourceId setup)) sync)
      desk.files.dataSources sources) :
    Origins setup { desk with
      files := {
        dataSources := sources
        secrets := deleteSecrets (request.oldRefs setup
          (lookup desk.files.dataSources (request.sourceId setup)))
          (request.drawn setup desk.files.secrets) } } := by
  have turned := @turned_placed Cursor setup request desk.files (fun _ => True)
    (fun _ _ => True) (fun _ _ => True) origins.sources origins.exact fresh sync sources nonempty
    replaces placed (fun _ _ _ _ => trivial) fun _ => trivial
  have id := @stored_id Cursor setup request
    (lookup desk.files.dataSources (request.sourceId setup)) sync nonempty
  have plugin := @stored_plugin Cursor setup request
    (lookup desk.files.dataSources (request.sourceId setup)) sync
  have reads := @collectionOf_stored Cursor setup request desk.files sync
  have cursor_kept : (request.stored setup
      (lookup desk.files.dataSources (request.sourceId setup)) sync).cursor =
      (lookup desk.files.dataSources (request.sourceId setup)).bind (·.cursor) := rfl
  -- The other data sources read what they read before.
  have others : ∀ source ∈ desk.files.dataSources,
      source.id ≠ (request.stored setup
        (lookup desk.files.dataSources (request.sourceId setup)) sync).id →
      collectionOf setup (deleteSecrets (request.oldRefs setup
          (lookup desk.files.dataSources (request.sourceId setup)))
          (request.drawn setup desk.files.secrets)) source =
        collectionOf setup desk.files.secrets source := by
    intro source member different
    apply collectionOf_congr
    intro name descriptor found
    have before : point desk.files.dataSources (source.id, name) = some descriptor.ref :=
      point_eq_some.mpr
        ⟨source, origins.sources.lookup_eq_some.mpr ⟨member, rfl⟩, descriptor, found, rfl⟩
    have after : point sources (source.id, name) = some descriptor.ref := by
      rw [point_placed placed, if_neg different, before]
    obtain ⟨payload, present, -⟩ := origins.exact.held _ _ before
    rcases turned.points _ _ after with ⟨-, same, -⟩ | ⟨-, spared, -⟩
    · exact absurd ((congrArg Prod.fst same).trans id.symm) different
    · rw [turned.spared _ payload present spared, present]
  generalize previous : lookup desk.files.dataSources (request.sourceId setup) = replaced at *
  generalize request.stored setup replaced sync = stored at *
  exact {
    sources := placed.kept
    exact := origins.exact.turned turned
    cursors := by
      intro source listed cursor held collection read
      have found := (placed.lookup_eq source.id).symm.trans
        (placed.kept.lookup_eq_some.mpr ⟨listed, rfl⟩)
      split at found
      · obtain rfl := Option.some.inj found
        cases replaced with
        | none =>
            rw [cursor_kept] at held
            cases held
        | some old =>
            have member := (origins.sources.lookup_eq_some.mp previous).1
            rw [cursor_kept, Option.bind_some] at held
            rcases careful old previous with ⟨samePlugin, sameReads⟩ | ⟨empty, -⟩
            · rw [plugin, samePlugin]
              exact origins.cursors old member cursor held collection
                (sameReads.symm.trans (reads.symm.trans read))
            · rw [empty] at held
              cases held
      · rename_i different
        have member := (origins.sources.lookup_eq_some.mp found).1
        rw [others source member different] at read
        exact origins.cursors source member cursor held collection read
    running := by
      intro sync member
      obtain ⟨source, found, same, read⟩ := origins.running sync member
      obtain ⟨listed, keyed⟩ := origins.sources.lookup_eq_some.mp found
      by_cases own : sync.sourceId = stored.id
      · have old : replaced = some source := by
          rw [← replaces, ← id, ← own, found]
        refine ⟨stored, (placed.lookup_eq _).trans (if_pos own), ?_⟩
        rcases careful source (previous.trans old) with ⟨samePlugin, sameReads⟩ | ⟨-, idle⟩
        · exact ⟨plugin.trans (samePlugin.trans same), reads.trans (sameReads.trans read)⟩
        · exact absurd keyed.symm (idle sync member)
      · refine ⟨source, (placed.lookup_eq _).trans ((if_neg own).trans found), same, ?_⟩
        exact (others source listed (keyed ▸ own)).trans read
    started := origins.started
    belongs := origins.belongs }

theorem Origins.save [DecidableEq Cursor] (origins : Origins setup desk) {request : SaveRequest}
    (fresh : request.Fresh setup desk.files) (careful : request.Careful setup desk) :
    Origins setup { desk with files := (saveDataSource setup request desk.files).2 } := by
  have referenced : Referenced desk.files := by
    intro source member name descriptor found
    obtain ⟨payload, present, -⟩ := origins.exact.held (source.id, name) descriptor.ref
      (point_eq_some.mpr
        ⟨source, origins.sources.lookup_eq_some.mpr ⟨member, rfl⟩, descriptor, found, rfl⟩)
    rw [present]
    simp
  have effect := saveEffect origins.sources referenced fresh
  generalize saveDataSource setup request desk.files = result at effect
  cases effect with
  | refused failure secrets same => exact origins.withSecrets fun _ ref _ => same ref
  | idle plain => exact origins
  | dropped secrets nonempty absent taken same =>
      refine origins.withSecrets fun key ref pointed => ?_
      obtain ⟨payload, present, -⟩ := origins.exact.held key ref pointed
      have different : ref ≠ request.ref setup (request.sourceId setup) := by
        rintro rfl
        rw [fresh] at present
        cases present
      rw [same, get?_drawn_of_ne different]
  | placed sync sources nonempty replaces placed =>
      exact origins.placed fresh careful nonempty replaces placed

theorem Origins.next [DecidableEq Cursor] (origins : Origins setup desk) {event : Event Cursor}
    (careful : event.Careful setup desk) : Origins setup (Desk.next setup event desk) := by
  have kept : ∀ {change : DataSource Cursor → DataSource Cursor} (selects : DataSource Cursor → Bool),
      (∀ source, (change source).cursor = source.cursor) → Alters change →
        Origins setup { desk with files := mutateSources setup selects change desk.files } := by
    intro change selects same alters
    refine origins.mutated alters selects ?_
    intro source member _ cursor stored collection reads
    rw [same] at stored
    exact origins.cursors source member cursor stored collection reads
  cases event with
  | save request => exact origins.save careful.1 careful.2
  | toggle sourceId knowledgeBaseId enabled clock =>
      refine kept _ (fun source => ?_) (toggled_alters enabled clock)
      rw [toggled]
      split
      · rfl
      · split
        · rfl
        · rfl
  | mark sourceId knowledgeBaseId mark clock =>
      refine kept _ (fun source => ?_) (apply_alters mark.patch clock)
      cases mark with
      | queued => rfl
      | running => rfl
      | failed message => rfl
  | start sourceId knowledgeBaseId => exact origins.start sourceId knowledgeBaseId
  | finish index result errors clock => exact origins.finish index result errors clock
  | fail index =>
      exact origins.advance List.eraseIdx_subset (List.Subset.refl desk.produced)

end

/-- In every run whose saves change no collection under a stored cursor or a sync under
way, a cursor that is handed to a plugin was produced by a sync with this plugin of this
collection. -/
theorem run_cursors_belong [DecidableEq Cursor] (setup : Setup) (secrets : Secrets)
    (events : List (Event Cursor))
    (careful : Execution.Along (Desk.next setup) (Event.Careful setup) (Desk.initial secrets)
      events) :
    (Execution.run (Desk.next setup) (Desk.initial secrets) events).Belongs := by
  have origins := Execution.along_invariant
    (fun event (desk : Desk Cursor) allowed (holds : Origins setup desk) => holds.next allowed)
    careful (origins_initial secrets)
  exact origins.belongs

instance [DecidableEq Cursor] (request : SaveRequest) (desk : Desk Cursor) :
    Decidable (request.Careful setup desk) :=
  match found : lookup desk.files.dataSources (request.sourceId setup) with
  | none => isTrue fun previous other => by
      rw [found] at other
      cases other
  | some source =>
      decidable_of_iff
        ((Text.strip request.form.plugin = source.plugin ∧
            request.collection setup desk.files =
              collectionOf setup desk.files.secrets source) ∨
          (source.cursor = none ∧ ∀ sync ∈ desk.running, sync.sourceId ≠ source.id))
        ⟨fun holds previous other => by
          rw [found] at other
          cases other
          exact holds, fun careful => careful source found⟩

def noonClock : Clock where
  now := "12:00"
  later _ := "12:15"

def saveMailbox (folder password unique : String) : Event Nat :=
  .save {
    form := (mailboxForm "mail" folder password).set "enabled" "on"
    knowledgeBaseId := "default"
    unique := unique
    nonce := [] }

/-- The password is changed between the syncs of a folder. -/
def oneFolder : List (Event Nat) :=
  [saveMailbox "INBOX" "first" "1", .start "mail" "default", .finish 0 (some 7) 0 noonClock,
    saveMailbox "INBOX" "second" "2", .start "mail" "default"]

theorem run_cursors_belong_oneFolder :
    (Execution.run (Desk.next .sample) (Desk.initial .empty) oneFolder).Belongs :=
  run_cursors_belong .sample .empty oneFolder
    ⟨⟨by decide +kernel, by decide +kernel⟩, trivial, trivial,
      ⟨by decide +kernel, by decide +kernel⟩, trivial, trivial⟩

/-- The folder is changed between the syncs. -/
def twoFolders : List (Event Nat) :=
  [saveMailbox "INBOX" "first" "1", .start "mail" "default", .finish 0 (some 7) 0 noonClock,
    saveMailbox "Archive" "second" "2", .start "mail" "default"]

/-- The cursor of the first folder is handed to the sync of the second. -/
theorem twoFolders_not_belong :
    ¬ (Execution.run (Desk.next .sample) (Desk.initial .empty) twoFolders).Belongs := by
  have handed : ⟨"email_imap", .mailbox "mail" "user" "Archive", 7⟩ ∈
      (Execution.run (Desk.next .sample) (Desk.initial .empty) twoFolders).handed := by
    decide +kernel
  have produced : ⟨"email_imap", .mailbox "mail" "user" "Archive", 7⟩ ∉
      (Execution.run (Desk.next .sample) (Desk.initial .empty) twoFolders).produced := by
    decide +kernel
  exact fun belongs => produced (belongs handed)

end RAGuardian.Ingestion
