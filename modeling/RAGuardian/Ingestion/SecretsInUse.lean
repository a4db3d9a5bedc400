import RAGuardian.Foundation.Fallible
import RAGuardian.Foundation.Latest
import RAGuardian.Foundation.Versions
import RAGuardian.Ingestion.DataSources

/-! # The secrets of the data sources

What a save of a data source does to the settings and to the secrets, and when the
secrets that are kept are those in use. -/

namespace RAGuardian.Ingestion

variable {Cursor : Type} {setup : Setup}

/-! ## The data source of a form -/

/-- The record of the form after `normalize_data_source`. -/
def SaveRequest.base (setup : Setup) (request : SaveRequest) (sync : Bool × Nat) :
    DataSource Cursor :=
  normalizeDataSource setup (rawSource request.form request.knowledgeBaseId sync)

theorem base_id (request : SaveRequest) (sync : Bool × Nat) :
    (request.base setup sync : DataSource Cursor).id = request.sourceId setup := by
  by_cases blank : request.form.id = ""
  · have parts : request.form.text "id" "" = "" ∧ request.form.text "name" "" = "" := by
      rw [Form.id, orElse] at blank
      split at blank
      · rename_i empty
        exact ⟨empty, blank⟩
      · rename_i nonempty
        exact absurd blank nonempty
    simp [SaveRequest.base, normalizeDataSource, rawSource, SaveRequest.sourceId, Form.id,
      Form.name, orElse, parts]
  · simp [SaveRequest.base, normalizeDataSource, rawSource, SaveRequest.sourceId, orElse, blank]

/-- The secrets of the record a request describes. -/
def SaveRequest.nextSecrets (setup : Setup) (request : SaveRequest)
    (previous : Option (DataSource Cursor)) : Dictionary String Descriptor :=
  let kept := keptSecrets request.form previous
  if request.form.secretValue = "" then kept
  else kept.set request.form.secretName
    ⟨"user_secret", request.ref setup (request.sourceId setup)⟩

/-- The secrets of the store once the request has created its own. -/
def SaveRequest.drawn (setup : Setup) (request : SaveRequest) (secrets : Secrets) : Secrets :=
  if request.form.secretValue = "" then secrets
  else secrets.set (request.ref setup (request.sourceId setup))
    (encrypt setup.hmac setup.key request.nonce request.form.secretValue)

/-- The record a request describes. -/
def SaveRequest.source (setup : Setup) (request : SaveRequest)
    (previous : Option (DataSource Cursor)) (sync : Bool × Nat) : DataSource Cursor :=
  { (request.base setup sync : DataSource Cursor) with
    secrets := request.nextSecrets setup previous }

theorem dataSourceFromForm_ok {request : SaveRequest} {previous : Option (DataSource Cursor)}
    {secrets after : Secrets} {source : DataSource Cursor} {changes : List SecretChange}
    (built : dataSourceFromForm setup request previous secrets = .ok (source, changes, after)) :
    request.sourceId setup ≠ "" ∧ (∃ sync, source = request.source setup previous sync) ∧
      changes = secretChanges setup request (request.sourceId setup) previous ∧
      after = request.drawn setup secrets := by
  obtain ⟨sync, -, rest⟩ := Fallible.bind_ok built
  have named := @base_id Cursor setup request sync
  have record : normalizeDataSource setup
      (rawSource request.form request.knowledgeBaseId sync : DataSource Cursor) =
      request.base setup sync := rfl
  simp only [record, named] at rest
  split at rest
  · cases rest
  · rename_i nonempty
    obtain ⟨config, -, rest⟩ := Fallible.bind_ok rest
    obtain ⟨-, -, rest⟩ := Fallible.bind_ok rest
    split at rest
    · rename_i plain
      have parts := Except.ok.inj rest
      simp only [Prod.mk.injEq] at parts
      obtain ⟨rfl, rfl, rfl⟩ := parts
      refine ⟨nonempty, ⟨sync, ?_⟩, rfl, ?_⟩
      · simp only [SaveRequest.source, SaveRequest.nextSecrets, if_pos plain, named]
      · rw [SaveRequest.drawn, if_pos plain]
    · rename_i given
      split at rest
      · cases rest
      · have parts := Except.ok.inj rest
        simp only [Prod.mk.injEq] at parts
        obtain ⟨rfl, rfl, rfl⟩ := parts
        refine ⟨nonempty, ⟨sync, ?_⟩, rfl, ?_⟩
        · simp only [SaveRequest.source, SaveRequest.nextSecrets, if_neg given, named]
        · rw [SaveRequest.drawn, if_neg given]

/-! ## What a save does -/

/-- The record as it is stored. -/
def SaveRequest.stored (setup : Setup) (request : SaveRequest)
    (previous : Option (DataSource Cursor)) (sync : Bool × Nat) : DataSource Cursor :=
  normalizeDataSource setup (withPrevious previous (request.source setup previous sync))

/-- The references whose secrets a request deletes once it is saved. -/
def SaveRequest.oldRefs (setup : Setup) (request : SaveRequest)
    (previous : Option (DataSource Cursor)) : List String :=
  (secretChanges setup request (request.sourceId setup) previous).map (·.oldRef)

theorem trimmed_source {request : SaveRequest} {previous : Option (DataSource Cursor)}
    {sync : Bool × Nat} (nonempty : request.sourceId setup ≠ "") :
    Trimmed setup (withPrevious previous (request.source setup previous sync)) where
  id := ⟨request.form.id, base_id request sync⟩
  nonempty := by
    change (request.base setup sync : DataSource Cursor).id ≠ ""
    rw [base_id]
    exact nonempty
  name := Text.strip_strip _
  knowledgeBaseId := Text.strip_strip _

theorem stored_id {request : SaveRequest} {previous : Option (DataSource Cursor)}
    {sync : Bool × Nat} (nonempty : request.sourceId setup ≠ "") :
    (request.stored setup previous sync).id =
      Settings.slug setup.characters (request.sourceId setup) := by
  rw [SaveRequest.stored, normalized_id (trimmed_source nonempty).nonempty]
  exact congrArg _ (base_id request sync)

/-- What a save leaves. -/
inductive SaveEffect (setup : Setup) (request : SaveRequest) (files : Files Cursor) :
    Except Failure Unit × Files Cursor → Prop
  | refused (failure : Failure) (secrets : Secrets)
      (same : ∀ ref, secrets.get? ref = files.secrets.get? ref) :
      SaveEffect setup request files (.error failure, { files with secrets := secrets })
  | idle (plain : request.form.secretValue = "") :
      SaveEffect setup request files (.ok (), files)
  | dropped (secrets : Secrets) (nonempty : request.sourceId setup ≠ "")
      (absent : lookup files.dataSources (request.sourceId setup) = none)
      (taken : Settings.slug setup.characters (request.sourceId setup) = "" ∨
        lookup files.dataSources (Settings.slug setup.characters (request.sourceId setup)) ≠ none)
      (same : ∀ ref, secrets.get? ref = (request.drawn setup files.secrets).get? ref) :
      SaveEffect setup request files (.ok (), { files with secrets := secrets })
  | placed (sync : Bool × Nat) (sources : List (DataSource Cursor))
      (nonempty : request.sourceId setup ≠ "")
      (replaces : lookup files.dataSources
          (Settings.slug setup.characters (request.sourceId setup)) =
        lookup files.dataSources (request.sourceId setup))
      (placed : Placed setup
        (request.stored setup (lookup files.dataSources (request.sourceId setup)) sync)
        files.dataSources sources) :
      SaveEffect setup request files (.ok (),
        { dataSources := sources
          secrets := deleteSecrets
            (request.oldRefs setup (lookup files.dataSources (request.sourceId setup)))
            (request.drawn setup files.secrets) })

/-- The secrets of the data sources are in the store. -/
def Referenced (files : Files Cursor) : Prop :=
  ∀ source ∈ files.dataSources, ∀ name descriptor, source.secrets.get? name = some descriptor →
    files.secrets.get? descriptor.ref ≠ none

/-- A reference that `uuid4` makes is not that of a secret in the store. -/
def SaveRequest.Fresh (setup : Setup) (request : SaveRequest) (files : Files Cursor) : Prop :=
  files.secrets.get? (request.ref setup (request.sourceId setup)) = none

theorem get?_drawn_of_ne {request : SaveRequest} {secrets : Secrets} {ref : String}
    (different : ref ≠ request.ref setup (request.sourceId setup)) :
    (request.drawn setup secrets).get? ref = secrets.get? ref := by
  rw [SaveRequest.drawn]
  split
  · rfl
  · exact Dictionary.get?_set_of_ne different

theorem mem_placeSource (source : DataSource Cursor) (sources : List (DataSource Cursor)) :
    source ∈ placeSource source sources := by
  rw [placeSource]
  split
  · rename_i present
    obtain ⟨old, member, same⟩ := List.any_eq_true.mp present
    exact Table.mem_update.mpr ⟨old, member, if_pos same⟩
  · simp

/-- The references a request may have to delete if it is not saved. -/
theorem mem_newRefs {request : SaveRequest} {sourceId ref : String}
    {previous : Option (DataSource Cursor)}
    (member : ref ∈ (secretChanges setup request sourceId previous).map (·.newRef)) :
    ref = "" ∨ request.form.secretValue ≠ "" ∧ ref = request.ref setup sourceId := by
  obtain ⟨change, listed, rfl⟩ := List.mem_map.mp member
  simp only [secretChanges] at listed
  rcases List.mem_append.mp listed with created | lost
  · split at created
    · cases created
    · rename_i given
      rw [List.mem_singleton] at created
      exact .inr ⟨given, by rw [created]⟩
  · split at lost
    · obtain ⟨entry, -, rfl⟩ := List.mem_map.mp lost
      exact .inl rfl
    · cases lost

theorem newRef_mem {request : SaveRequest} {sourceId : String}
    {previous : Option (DataSource Cursor)} (given : request.form.secretValue ≠ "") :
    request.ref setup sourceId ∈
      (secretChanges setup request sourceId previous).map (·.newRef) := by
  simp [secretChanges, given]

/-- A request that replaces nothing deletes nothing. -/
theorem oldRefs_none {request : SaveRequest} {ref : String}
    (member : ref ∈ request.oldRefs setup (none : Option (DataSource Cursor))) : ref = "" := by
  obtain ⟨change, listed, rfl⟩ := List.mem_map.mp member
  simp only [secretChanges, pluginChanged, previousSecrets, Option.any_none] at listed
  rcases List.mem_append.mp listed with created | lost
  · split at created
    · cases created
    · rw [List.mem_singleton] at created
      rw [created]
      rfl
  · cases lost

/-- A request that changes nothing has no secret to create or to delete. -/
theorem idle_changes {request : SaveRequest} {files : Files Cursor} {source : DataSource Cursor}
    (referenced : Referenced files) (fresh : request.Fresh setup files)
    (member : source ∈ files.dataSources)
    (same : source.secrets = request.nextSecrets setup (some source)) :
    request.form.secretValue = "" ∧
      secretChanges setup request (request.sourceId setup) (some source) = [] := by
  have plain : request.form.secretValue = "" := by
    by_contra given
    have present : source.secrets.get? request.form.secretName =
        some ⟨"user_secret", request.ref setup (request.sourceId setup)⟩ := by
      rw [same, SaveRequest.nextSecrets, if_neg given, Dictionary.get?_set_self]
    exact referenced source member _ _ present fresh
  refine ⟨plain, ?_⟩
  simp only [secretChanges, plain, if_true, List.nil_append, pluginChanged, Option.any_some,
    decide_eq_true_eq, previousSecrets]
  split
  · rename_i changed
    have none_kept : source.secrets = .empty := by
      rw [same, SaveRequest.nextSecrets, if_pos plain, keptSecrets, if_neg changed]
    rw [none_kept]
    rfl
  · rfl

theorem saveEffect [DecidableEq Cursor] {request : SaveRequest} {files : Files Cursor}
    (kept : WellKept setup files.dataSources) (referenced : Referenced files)
    (fresh : request.Fresh setup files) :
    SaveEffect setup request files (saveDataSource setup request files) := by
  have refused : ∀ failure, SaveEffect setup request files (.error failure, files) :=
    fun failure => .refused failure files.secrets fun _ => rfl
  have current : files.loaded setup = files.dataSources := kept.loaded
  have found : request.previous setup files =
      lookup files.dataSources (request.sourceId setup) := by
    rw [SaveRequest.previous, current]
    rfl
  rw [saveDataSource]
  split
  · exact refused _
  · simp only [current, found]
    split
    · exact refused _
    · split
      · exact refused _
      · rename_i source changes secrets built
        obtain ⟨nonempty, ⟨sync, rfl⟩, rfl, rfl⟩ := dataSourceFromForm_ok built
        split
        · rename_i unchanged
          have member := mem_placeSource (withPrevious (lookup files.dataSources
            (request.sourceId setup)) (request.source setup (lookup files.dataSources
            (request.sourceId setup)) sync)) files.dataSources
          rw [unchanged] at member
          have previous := kept.lookup_eq_some.mpr ⟨member, base_id request sync⟩
          have same := congrArg (Option.map (·.secrets)) previous
          cases stored : lookup files.dataSources (request.sourceId setup) with
          | none =>
              rw [stored] at previous
              cases previous
          | some source =>
              rw [stored] at same
              obtain ⟨plain, changes⟩ := idle_changes referenced fresh
                (kept.lookup_eq_some.mp stored).1 (Option.some.inj same)
              rw [changes, SaveRequest.drawn, if_pos plain]
              exact .idle plain
        · split
          · apply SaveEffect.refused
            intro ref
            rw [get?_deleteSecrets]
            by_cases drawn : ref = request.ref setup (request.sourceId setup)
            · by_cases plain : request.form.secretValue = ""
              · rw [SaveRequest.drawn, if_pos plain, if_neg]
                rintro ⟨member, nonemptyRef⟩
                rcases mem_newRefs member with empty | ⟨given, -⟩
                · exact nonemptyRef empty
                · exact given plain
              · rw [drawn, if_pos ⟨newRef_mem plain, versionRef_ne_empty _ _ _ _⟩, fresh]
            · rw [if_neg, get?_drawn_of_ne drawn]
              rintro ⟨member, nonemptyRef⟩
              rcases mem_newRefs member with empty | ⟨-, same⟩
              · exact nonemptyRef empty
              · exact drawn same
          · have trimmed := @trimmed_source Cursor setup request
              (lookup files.dataSources (request.sourceId setup)) sync nonempty
            have id : (withPrevious (lookup files.dataSources (request.sourceId setup))
                (request.source setup (lookup files.dataSources (request.sourceId setup))
                  sync)).id = request.sourceId setup := base_id request sync
            have slugged := @stored_id Cursor setup request
              (lookup files.dataSources (request.sourceId setup)) sync nonempty
            by_cases present : request.sourceId setup ∈ files.dataSources.map (·.id)
            · obtain ⟨old, member, same⟩ := List.mem_map.mp present
              have stable : Settings.slug setup.characters (request.sourceId setup) =
                  request.sourceId setup := by
                rw [← same, kept.slug_id member]
              refine .placed sync _ nonempty (by rw [stable]) (kept.placed trimmed ?_ (.inl ?_))
              · change (request.stored setup _ sync).id ≠ ""
                rw [slugged, stable]
                exact nonempty
              · rw [id]
                exact present
            · by_cases taken : Settings.slug setup.characters (request.sourceId setup) = "" ∨
                  Settings.slug setup.characters (request.sourceId setup) ∈
                    files.dataSources.map (·.id)
              · have absent := lookup_eq_none.mpr present
                have dropped := kept.dropped (by rw [id]; exact present)
                  (by
                    change (request.stored setup _ sync).id = "" ∨
                      (request.stored setup _ sync).id ∈ _
                    rw [slugged]
                    exact taken)
                rw [dropped]
                refine .dropped _ nonempty absent (taken.imp_right fun within none_there =>
                  lookup_eq_none.mp none_there within) ?_
                intro ref
                rw [get?_deleteSecrets, if_neg]
                rintro ⟨old, nonemptyRef⟩
                rw [absent] at old
                exact nonemptyRef (oldRefs_none old)
              · rw [not_or] at taken
                refine .placed sync _ nonempty
                  ((lookup_eq_none.mpr taken.2).trans (lookup_eq_none.mpr present).symm)
                  (kept.placed trimmed ?_ (.inr ?_))
                · change (request.stored setup _ sync).id ≠ ""
                  rw [slugged]
                  exact taken.1
                · change (request.stored setup _ sync).id ∉ _
                  rw [slugged]
                  exact taken.2

/-! ## References -/

/-- The reference of a secret of a data source. -/
def point (sources : List (DataSource Cursor)) (key : String × String) : Option String :=
  ((lookup sources key.1).bind fun source => source.secrets.get? key.2).map (·.ref)

theorem point_eq_some {sources : List (DataSource Cursor)} {key : String × String}
    {ref : String} : point sources key = some ref ↔
      ∃ source, lookup sources key.1 = some source ∧
        ∃ descriptor, source.secrets.get? key.2 = some descriptor ∧ descriptor.ref = ref := by
  simp [point, Option.bind_eq_some_iff]

/-- A request without a new secret for it, or for another plugin, gives up a secret. -/
def SaveRequest.Loses (request : SaveRequest) (source : DataSource Cursor) (name : String) :
    Prop :=
  source.plugin ≠ request.form.plugin ∨
    request.form.secretValue ≠ "" ∧ name = request.form.secretName

theorem get?_nextSecrets {request : SaveRequest} {source : DataSource Cursor} {name : String} :
    (request.nextSecrets setup (some source)).get? name =
      if request.form.secretValue ≠ "" ∧ name = request.form.secretName then
        some ⟨"user_secret", request.ref setup (request.sourceId setup)⟩
      else if source.plugin = request.form.plugin then source.secrets.get? name
      else none := by
  have kept : (keptSecrets request.form (some source)).get? name =
      if source.plugin = request.form.plugin then source.secrets.get? name else none := by
    rw [keptSecrets]
    split
    · rfl
    · rfl
  rw [SaveRequest.nextSecrets]
  by_cases plain : request.form.secretValue = ""
  · simp only [plain, if_true, kept, ne_eq, not_true_eq_false, false_and, if_false]
  · simp only [plain, if_false, Dictionary.get?_set, kept, ne_eq, not_false_eq_true, true_and]

theorem get?_nextSecrets_none {request : SaveRequest} {name : String} :
    (request.nextSecrets setup (none : Option (DataSource Cursor))).get? name =
      if request.form.secretValue ≠ "" ∧ name = request.form.secretName then
        some ⟨"user_secret", request.ref setup (request.sourceId setup)⟩
      else none := by
  rw [SaveRequest.nextSecrets]
  by_cases plain : request.form.secretValue = ""
  · simp [plain, keptSecrets]
  · simp [plain, Dictionary.get?_set, keptSecrets]

/-- The old references are those of the secrets the record gives up. -/
theorem mem_oldRefs {request : SaveRequest} {source : DataSource Cursor} {ref : String}
    (nonempty : ref ≠ "") : ref ∈ request.oldRefs setup (some source) ↔
      ∃ name descriptor, source.secrets.get? name = some descriptor ∧ descriptor.ref = ref ∧
        request.Loses source name := by
  have listed : (∃ entry ∈ source.secrets.entries, entry.2.ref = ref) ↔
      ∃ name descriptor, source.secrets.get? name = some descriptor ∧ descriptor.ref = ref := by
    simp [Dictionary.get?_eq_some]
  simp only [SaveRequest.oldRefs, secretChanges, pluginChanged, Option.any_some,
    decide_eq_true_eq, previousSecrets, List.map_append, List.mem_append, SaveRequest.Loses]
  by_cases changed : source.plugin = request.form.plugin
  · by_cases plain : request.form.secretValue = ""
    · simp [changed, plain]
    · cases held : source.secrets.get? request.form.secretName with
      | none =>
          simp only [plain, changed, if_false, ne_eq, not_true_eq_false, List.map_cons,
            List.map_nil, List.mem_singleton, Option.map_none, Option.getD_none, List.not_mem_nil,
            or_false, not_false_eq_true, true_and, false_or]
          constructor
          · intro empty
            exact absurd empty nonempty
          · rintro ⟨name, descriptor, found, -, rfl⟩
            rw [held] at found
            cases found
      | some descriptor =>
          simp only [plain, changed, if_false, ne_eq, not_true_eq_false, List.map_cons,
            List.map_nil, List.mem_singleton, Option.map_some, Option.getD_some, List.not_mem_nil,
            or_false, not_false_eq_true, true_and, false_or]
          constructor
          · intro same
            exact ⟨_, descriptor, held, same.symm, rfl⟩
          · rintro ⟨name, other, found, same, rfl⟩
            rw [held] at found
            cases found
            exact same.symm
  · by_cases plain : request.form.secretValue = ""
    · simp [changed, plain, ← listed]
    · simp [changed, plain, ← listed, nonempty]

theorem WellKept.ref_ne_empty {sources : List (DataSource Cursor)}
    (kept : WellKept setup sources) {source : DataSource Cursor} (member : source ∈ sources)
    {name : String} {descriptor : Descriptor}
    (found : source.secrets.get? name = some descriptor) : descriptor.ref ≠ "" := by
  have whole := congrArg (·.secrets) (kept.normal source member)
  change source.secrets.removeWhere (fun _ descriptor => descriptor.ref == "") = source.secrets
    at whole
  rw [← whole] at found
  simpa using (Dictionary.get?_removeWhere.mp found).2

/-- The secrets of the stored record. -/
theorem get?_stored_secrets {request : SaveRequest} {sources : List (DataSource Cursor)}
    (kept : WellKept setup sources) {sourceId : String} {sync : Bool × Nat} {name : String} :
    (request.stored setup (lookup sources sourceId) sync).secrets.get? name =
      (request.nextSecrets setup (lookup sources sourceId)).get? name := by
  have named : ∀ descriptor,
      (request.nextSecrets setup (lookup sources sourceId)).get? name = some descriptor →
        descriptor.ref ≠ "" := by
    intro descriptor found
    cases previous : lookup sources sourceId with
    | none =>
        rw [previous, get?_nextSecrets_none] at found
        split at found
        · rw [← Option.some.inj found]
          exact versionRef_ne_empty _ _ _ _
        · cases found
    | some source =>
        rw [previous, get?_nextSecrets] at found
        split at found
        · rw [← Option.some.inj found]
          exact versionRef_ne_empty _ _ _ _
        · split at found
          · exact kept.ref_ne_empty (kept.lookup_eq_some.mp previous).1 found
          · cases found
  change ((request.nextSecrets setup (lookup sources sourceId)).removeWhere
    fun _ descriptor => descriptor.ref == "").get? name = _
  apply Option.ext
  intro descriptor
  rw [Dictionary.get?_removeWhere]
  constructor
  · exact And.left
  · intro found
    exact ⟨found, by simpa using named descriptor found⟩

/-! ## Runs -/

/-- A value that was saved for a secret of a data source. -/
structure SavedSecret where
  sourceId : String
  name : String
  value : String
deriving DecidableEq, Repr

def SavedSecret.key (saved : SavedSecret) : String × String :=
  (saved.sourceId, saved.name)

/-- The files of a workspace, and the values saved with success, oldest first. -/
structure Admin (Cursor : Type) where
  files : Files Cursor
  saved : List SavedSecret

/-- A workspace without data sources. -/
def Admin.initial (start : Secrets) : Admin Cursor where
  files := { dataSources := [], secrets := start }
  saved := []

/-- The value of a request, for the id under which its data source is stored. -/
def SaveRequest.savedSecret (setup : Setup) (request : SaveRequest) : SavedSecret where
  sourceId := Settings.slug setup.characters (request.sourceId setup)
  name := request.form.secretName
  value := request.form.secretValue

theorem savedSecret_key (request : SaveRequest) : (request.savedSecret setup).key =
    (Settings.slug setup.characters (request.sourceId setup), request.form.secretName) :=
  rfl

/-- What is saved with success, after one more request. -/
def SaveRequest.savedAfter (setup : Setup) (request : SaveRequest)
    (outcome : Except Failure Unit) (saved : List SavedSecret) : List SavedSecret :=
  match outcome with
  | .error _ => saved
  | .ok () =>
      if request.form.secretValue = "" then saved else saved ++ [request.savedSecret setup]

def Admin.save [DecidableEq Cursor] (setup : Setup) (request : SaveRequest)
    (admin : Admin Cursor) : Admin Cursor :=
  let result := saveDataSource setup request admin.files
  { files := result.2, saved := request.savedAfter setup result.1 admin.saved }

/-- The secrets are those in use: each secret of a data source is in the store with the
value last saved for it, and what the requests have created is the secret of a data
source. -/
structure InUse (setup : Setup) (start : Secrets) (admin : Admin Cursor) : Prop where
  readable : ∀ source ∈ admin.files.loaded setup, ∀ name descriptor,
    source.secrets.get? name = some descriptor →
      admin.files.secrets.get? descriptor.ref ≠ none ∧
        ∃ last, Latest.latest SavedSecret.key admin.saved (source.id, name) = some last ∧
          getSecret setup.hmac setup.key admin.files.secrets descriptor.ref = .ok last.value
  needed : ∀ ref, admin.files.secrets.get? ref ≠ none → start.get? ref = none →
    ∃ source ∈ admin.files.loaded setup, ∃ name descriptor,
      source.secrets.get? name = some descriptor ∧ descriptor.ref = ref

/-- A request with a secret whose id is cut once more when it is stored, to nothing or to
the id of another data source. -/
def SaveRequest.Collides (setup : Setup) (request : SaveRequest) (files : Files Cursor) : Prop :=
  let sourceId := request.sourceId setup
  let storedId := Settings.slug setup.characters sourceId
  request.form.secretValue ≠ "" ∧ storedId ≠ sourceId ∧
    (storedId = "" ∨ storedId ∈ files.dataSources.map (·.id))

/-- The value last saved for a secret, encrypted. -/
def Expected (setup : Setup) (saved : List SavedSecret) (key : String × String)
    (payload : Payload) : Prop :=
  ∃ last, Latest.latest SavedSecret.key saved key = some last ∧
    decrypt setup.hmac setup.key payload = .ok last.value

/-- The data sources are normalized, and their secrets are the versions in use. -/
structure Kept (setup : Setup) (start : Secrets) (admin : Admin Cursor) : Prop where
  sources : WellKept setup admin.files.dataSources
  exact : Versions.Exact (fun ref => start.get? ref ≠ none) (point admin.files.dataSources)
    admin.files.secrets.get? (Expected setup admin.saved)

section

variable {start : Secrets} {admin : Admin Cursor} {request : SaveRequest}

theorem kept_initial : Kept setup start (Admin.initial start : Admin Cursor) where
  sources := WellKept.nil
  exact := {
    held := by
      intro key ref pointed
      cases pointed
    apart := by
      intro key other ref pointed
      cases pointed
    used := by
      intro ref payload present
      left
      change start.get? ref = some payload at present
      rw [present]
      simp }

theorem Kept.pointed {source : DataSource Cursor} (kept : Kept setup start admin)
    (member : source ∈ admin.files.dataSources) {name : String} {descriptor : Descriptor}
    (found : source.secrets.get? name = some descriptor) :
    point admin.files.dataSources (source.id, name) = some descriptor.ref :=
  point_eq_some.mpr ⟨source, kept.sources.lookup_eq_some.mpr ⟨member, rfl⟩, descriptor, found, rfl⟩

theorem Kept.referenced (kept : Kept setup start admin) : Referenced admin.files := by
  intro source member name descriptor found
  obtain ⟨payload, present, -⟩ := kept.exact.held _ _ (kept.pointed member found)
  rw [present]
  simp

theorem Kept.inUse (kept : Kept setup start admin) : InUse setup start admin := by
  have loaded : admin.files.loaded setup = admin.files.dataSources := kept.sources.loaded
  constructor
  · intro source member name descriptor found
    rw [loaded] at member
    obtain ⟨payload, present, last, latest, opened⟩ :=
      kept.exact.held _ _ (kept.pointed member found)
    refine ⟨by simp [present], last, latest, ?_⟩
    rw [getSecret, present]
    exact opened
  · intro ref present created
    obtain ⟨payload, stored⟩ := Option.ne_none_iff_exists'.mp present
    rcases kept.exact.used ref payload stored with initial | ⟨key, pointed⟩
    · exact absurd created initial
    · obtain ⟨source, found, descriptor, secret, same⟩ := point_eq_some.mp pointed
      rw [loaded]
      exact ⟨source, (kept.sources.lookup_eq_some.mp found).1, key.2, descriptor, secret, same⟩

/-- The key and the reference of a secret that a request creates. -/
def SaveRequest.Makes (setup : Setup) (request : SaveRequest) (key : String × String)
    (ref : String) : Prop :=
  request.form.secretValue ≠ "" ∧ key = (request.savedSecret setup).key ∧
    ref = request.ref setup (request.sourceId setup)

theorem latest_savedAfter {saved : List SavedSecret} {key : String × String}
    (other : request.form.secretValue = "" ∨ key ≠ (request.savedSecret setup).key) :
    Latest.latest SavedSecret.key (request.savedAfter setup (.ok ()) saved) key =
      Latest.latest SavedSecret.key saved key := by
  rw [SaveRequest.savedAfter]
  split
  · rfl
  · rename_i given
    rw [Latest.latest_concat, if_neg (other.resolve_left given).symm]

/-- The secrets of the record that a request stores are its own or those it has kept. -/
theorem nextSecrets_cases {previous : Option (DataSource Cursor)} {name : String}
    {descriptor : Descriptor}
    (found : (request.nextSecrets setup previous).get? name = some descriptor) :
    (request.form.secretValue ≠ "" ∧ name = request.form.secretName ∧
        descriptor.ref = request.ref setup (request.sourceId setup)) ∨
      ∃ source, previous = some source ∧ source.secrets.get? name = some descriptor ∧
        ¬ request.Loses source name := by
  cases previous with
  | none =>
      rw [get?_nextSecrets_none] at found
      split at found
      · rename_i own
        rw [← Option.some.inj found]
        exact .inl ⟨own.1, own.2, rfl⟩
      · cases found
  | some source =>
      rw [get?_nextSecrets] at found
      split at found
      · rename_i own
        rw [← Option.some.inj found]
        exact .inl ⟨own.1, own.2, rfl⟩
      · rename_i other
        split at found
        · rename_i same
          refine .inr ⟨source, rfl, found, ?_⟩
          rintro (changed | replaced)
          · exact changed same
          · exact other replaced
        · cases found

theorem get?_nextSecrets_self {previous : Option (DataSource Cursor)}
    (given : request.form.secretValue ≠ "") :
    (request.nextSecrets setup previous).get? request.form.secretName =
      some ⟨"user_secret", request.ref setup (request.sourceId setup)⟩ := by
  rw [SaveRequest.nextSecrets, if_neg given, Dictionary.get?_set_self]

theorem get?_nextSecrets_kept {source : DataSource Cursor} {name : String}
    (kept : ¬ request.Loses source name) :
    (request.nextSecrets setup (some source)).get? name = source.secrets.get? name := by
  rw [SaveRequest.Loses, not_or, not_not] at kept
  rw [get?_nextSecrets, if_neg kept.2, if_pos kept.1]

/-- What a request deletes is the secrets its data source gives up. -/
theorem mem_oldRefs_iff {previous : Option (DataSource Cursor)} {ref : String}
    (nonempty : ref ≠ "") :
    ref ∈ request.oldRefs setup previous ↔
      ∃ source, previous = some source ∧
        ∃ name descriptor, source.secrets.get? name = some descriptor ∧ descriptor.ref = ref ∧
          request.Loses source name := by
  cases previous with
  | none => simpa using fun member => nonempty (oldRefs_none member)
  | some source => simpa using mem_oldRefs nonempty

/-- The references after a record has been written. -/
theorem point_placed {sources : List (DataSource Cursor)} {stored : DataSource Cursor}
    {current : List (DataSource Cursor)} (placed : Placed setup stored current sources)
    (key : String × String) :
    point sources key =
      if key.1 = stored.id then (stored.secrets.get? key.2).map (·.ref)
      else point current key := by
  rw [point, placed.lookup_eq]
  split
  · rfl
  · rfl

/-- What a stored record does to the secrets: that of the form is made, those the data
source gives up are deleted, and all others are left. -/
theorem turned_placed {files : Files Cursor} {initial : String → Prop}
    {expected wanted : String × String → Payload → Prop} (kept : WellKept setup files.dataSources)
    (exact : Versions.Exact initial (point files.dataSources) files.secrets.get? expected)
    (fresh : request.Fresh setup files) {sync : Bool × Nat}
    {sources : List (DataSource Cursor)} (nonempty : request.sourceId setup ≠ "")
    (replaces : lookup files.dataSources
        (Settings.slug setup.characters (request.sourceId setup)) =
      lookup files.dataSources (request.sourceId setup))
    (placed : Placed setup
      (request.stored setup (lookup files.dataSources (request.sourceId setup)) sync)
      files.dataSources sources)
    (carried : ∀ key, request.form.secretValue = "" ∨ key ≠ (request.savedSecret setup).key →
      ∀ payload, expected key payload → wanted key payload)
    (written : request.form.secretValue ≠ "" → wanted (request.savedSecret setup).key
      (encrypt setup.hmac setup.key request.nonce request.form.secretValue)) :
    Versions.Turned (request.Makes setup)
      (fun ref => ref ∈ request.oldRefs setup (lookup files.dataSources
        (request.sourceId setup)) ∧ ref ≠ "")
      (point files.dataSources) (point sources) files.secrets.get?
      (deleteSecrets (request.oldRefs setup (lookup files.dataSources
        (request.sourceId setup))) (request.drawn setup files.secrets)).get?
      expected wanted := by
  have id := @stored_id Cursor setup request
    (lookup files.dataSources (request.sourceId setup)) sync nonempty
  have secrets := fun name => @get?_stored_secrets Cursor setup request _ kept
    (request.sourceId setup) sync name
  have points := point_placed placed
  simp only [id, secrets] at points
  -- The secrets of the record with the id of the request are pointed at by its keys.
  have own : ∀ {source name descriptor},
      lookup files.dataSources (request.sourceId setup) = some source →
      source.secrets.get? name = some descriptor →
        point files.dataSources
          (Settings.slug setup.characters (request.sourceId setup), name) =
            some descriptor.ref := by
    intro source name descriptor found held
    exact point_eq_some.mpr ⟨source, replaces.trans found, descriptor, held, rfl⟩
  generalize previous : lookup files.dataSources (request.sourceId setup) = replaced at *
  -- What is deleted was pointed at by a key of the data source that gives it up.
  have given_up : ∀ {ref}, ref ∈ request.oldRefs setup replaced ∧ ref ≠ "" →
      ∃ source name, replaced = some source ∧ request.Loses source name ∧
        point files.dataSources
          (Settings.slug setup.characters (request.sourceId setup), name) = some ref := by
    rintro ref ⟨deleted, nonemptyRef⟩
    obtain ⟨source, rfl, name, descriptor, lost, shared, loses⟩ :=
      (mem_oldRefs_iff nonemptyRef).mp deleted
    exact ⟨source, name, rfl, loses, shared ▸ own rfl lost⟩
  have made_spared : ¬ (request.ref setup (request.sourceId setup) ∈
      request.oldRefs setup replaced ∧ request.ref setup (request.sourceId setup) ≠ "") := by
    intro deleted
    obtain ⟨source, name, -, -, pointed⟩ := given_up deleted
    obtain ⟨payload, present, -⟩ := exact.held _ _ pointed
    rw [fresh] at present
    cases present
  constructor
  · intro key ref pointed
    rw [points] at pointed
    split at pointed
    · rename_i same
      obtain ⟨descriptor, found, rfl⟩ := Option.map_eq_some_iff.mp pointed
      rcases nextSecrets_cases found with ⟨given, named, made⟩ | ⟨source, rfl, held, keeps⟩
      · exact .inl ⟨given, Prod.ext same named, made⟩
      · have before := own rfl held
        have keyed : key = (Settings.slug setup.characters (request.sourceId setup), key.2) :=
          Prod.ext same rfl
        refine .inr ⟨keyed ▸ before, ?_, ?_⟩
        · intro deleted
          obtain ⟨other, name, equal, loses, again⟩ := given_up deleted
          cases equal
          have keys := exact.apart _ _ _ before again
          exact keeps (congrArg Prod.snd keys ▸ loses)
        · apply carried
          by_contra both
          rw [not_or, not_not] at both
          exact keeps (.inr ⟨both.1, congrArg Prod.snd both.2⟩)
    · rename_i other
      refine .inr ⟨pointed, ?_, ?_⟩
      · intro deleted
        obtain ⟨source, name, -, -, again⟩ := given_up deleted
        have same := exact.apart _ _ _ pointed again
        rw [same] at other
        exact other rfl
      · apply carried
        right
        rintro rfl
        exact other rfl
  · rintro key ref ⟨given, rfl, rfl⟩
    refine ⟨fresh, ?_, encrypt setup.hmac setup.key request.nonce request.form.secretValue,
      ?_, written given⟩
    · rw [savedSecret_key, points, if_pos rfl, get?_nextSecrets_self given]
      rfl
    · rw [get?_deleteSecrets, if_neg made_spared, SaveRequest.drawn, if_neg given,
        Dictionary.get?_set_self]
  · rintro key other ref ⟨-, rfl, -⟩ ⟨-, same, -⟩
    exact same.symm
  · intro ref payload present spared
    have different : ref ≠ request.ref setup (request.sourceId setup) := by
      rintro rfl
      rw [fresh] at present
      cases present
    rw [get?_deleteSecrets, if_neg spared, get?_drawn_of_ne different, present]
  · intro ref payload present
    rw [get?_deleteSecrets] at present
    split at present
    · cases present
    · rename_i spared
      by_cases given : request.form.secretValue = ""
      · rw [SaveRequest.drawn, if_pos given] at present
        exact .inr ⟨present, spared⟩
      · by_cases made : ref = request.ref setup (request.sourceId setup)
        · exact .inl ⟨_, given, rfl, made⟩
        · rw [get?_drawn_of_ne made] at present
          exact .inr ⟨present, spared⟩
  · intro key ref pointed spared
    rw [points]
    split
    · rename_i same
      obtain ⟨source, found, descriptor, held, rfl⟩ := point_eq_some.mp pointed
      rw [same, replaces] at found
      subst found
      have keeps : ¬ request.Loses source key.2 := by
        intro loses
        have nonemptyRef := kept.ref_ne_empty
          (kept.lookup_eq_some.mp previous).1 held
        exact spared ⟨(mem_oldRefs_iff nonemptyRef).mpr
          ⟨source, rfl, key.2, descriptor, held, rfl, loses⟩, nonemptyRef⟩
      rw [get?_nextSecrets_kept keeps, held]
      rfl
    · exact pointed

theorem expected_carried {saved : List SavedSecret} {key : String × String}
    (other : request.form.secretValue = "" ∨ key ≠ (request.savedSecret setup).key)
    {payload : Payload} (expected : Expected setup saved key payload) :
    Expected setup (request.savedAfter setup (.ok ()) saved) key payload := by
  obtain ⟨last, latest, opened⟩ := expected
  exact ⟨last, by rw [latest_savedAfter other, latest], opened⟩

theorem expected_written {saved : List SavedSecret} (given : request.form.secretValue ≠ "") :
    Expected setup (request.savedAfter setup (.ok ()) saved) (request.savedSecret setup).key
      (encrypt setup.hmac setup.key request.nonce request.form.secretValue) := by
  refine ⟨request.savedSecret setup, ?_, decrypt_encrypt _ _⟩
  rw [SaveRequest.savedAfter]
  simp only [if_neg given, Latest.latest_concat, if_true]

/-- A request leaves the secrets those in use, unless its data source is dropped. -/
theorem Kept.save [DecidableEq Cursor] (kept : Kept setup start admin)
    (fresh : request.Fresh setup admin.files) (apart : ¬ request.Collides setup admin.files) :
    Kept setup start (admin.save setup request) := by
  have effect := saveEffect kept.sources kept.referenced fresh
  rw [Admin.save]
  generalize saveDataSource setup request admin.files = result at effect
  cases effect with
  | refused failure secrets same =>
      have unchanged : secrets.get? = admin.files.secrets.get? := funext same
      exact ⟨kept.sources, by
        change Versions.Exact _ _ secrets.get? _
        rw [unchanged]
        exact kept.exact⟩
  | idle plain =>
      have saved : request.savedAfter setup (.ok ()) admin.saved = admin.saved := if_pos plain
      simp only [saved]
      exact kept
  | dropped secrets nonempty absent taken same =>
      -- Nothing was to be created, or the record would not have been dropped.
      have plain : request.form.secretValue = "" := by
        by_contra given
        refine apart ⟨given, ?_, taken.imp_right fun present => ?_⟩
        · intro stable
          rcases taken with empty | present
          · exact nonempty (stable ▸ empty)
          · rw [stable] at present
            exact present absent
        · by_contra missing
          exact present (lookup_eq_none.mpr missing)
      have saved : request.savedAfter setup (.ok ()) admin.saved = admin.saved := if_pos plain
      have unchanged : secrets.get? = admin.files.secrets.get? := by
        funext ref
        rw [same, SaveRequest.drawn, if_pos plain]
      simp only [saved]
      exact ⟨kept.sources, by
        change Versions.Exact _ _ secrets.get? _
        rw [unchanged]
        exact kept.exact⟩
  | placed sync sources nonempty replaces placed =>
      exact ⟨placed.kept, kept.exact.turned (turned_placed kept.sources kept.exact fresh nonempty
        replaces placed (fun _ other _ => expected_carried other) expected_written)⟩

end

/-- After any sequence of saves whose data sources are not dropped the secrets are those
in use. -/
theorem run_secrets_in_use [DecidableEq Cursor] (setup : Setup) (start : Secrets) (requests : List SaveRequest)
    (along : Execution.Along (Admin.save setup)
      (fun request admin =>
        request.Fresh setup admin.files ∧ ¬ request.Collides setup admin.files)
      (Admin.initial start : Admin Cursor) requests) :
    InUse setup start
      (Execution.run (Admin.save setup) (Admin.initial start : Admin Cursor) requests) := by
  have kept := Execution.along_invariant
    (fun request (admin : Admin Cursor) allowed (holds : Kept setup start admin) =>
      holds.save allowed.1 allowed.2) along kept_initial
  exact kept.inUse

/-- The form of a mailbox. -/
def mailboxForm (id folder password : String) : Form :=
  ((((Dictionary.empty.set "id" id).set "host" "mail").set "username" "user").set
    "folder" folder).set "password" password

def mailboxSave (id password unique : String) : SaveRequest where
  form := mailboxForm id "INBOX" password
  knowledgeBaseId := "default"
  unique := unique
  nonce := []

def twoPasswords : List SaveRequest :=
  [mailboxSave "mail" "first" "1", mailboxSave "mail" "second" "2"]

instance (request : SaveRequest) (files : Files Cursor) :
    Decidable (request.Fresh setup files) := by
  unfold SaveRequest.Fresh
  infer_instance

instance (request : SaveRequest) (files : Files Cursor) :
    Decidable (request.Collides setup files) := by
  unfold SaveRequest.Collides
  infer_instance

theorem run_secrets_in_use_twoPasswords :
    InUse .sample .empty (Execution.run (Admin.save .sample)
      (Admin.initial .empty : Admin Nat) twoPasswords) :=
  run_secrets_in_use .sample .empty twoPasswords
    ⟨⟨by decide +kernel, by decide +kernel⟩, ⟨by decide +kernel, by decide +kernel⟩, trivial⟩

/-- The lower case of the id has a mark that a second slug drops. -/
def collidingSaves : List SaveRequest :=
  [mailboxSave "İ" "first" "1", mailboxSave "İ" "second" "2"]

/-- The reference of the second password. -/
def lostRef : String :=
  (mailboxSave "İ" "second" "2").ref .sample ((mailboxSave "İ" "second" "2").sourceId .sample)

def afterCollision : Admin Nat :=
  Execution.run (Admin.save .sample) (Admin.initial .empty) collidingSaves

/-- The second password is lost, and its secret is never deleted. -/
theorem collidingSaves_not_in_use :
    Execution.Along (Admin.save .sample) (fun request admin => request.Fresh .sample admin.files)
        (Admin.initial .empty : Admin Nat) collidingSaves ∧
      ¬ InUse .sample .empty afterCollision := by
  refine ⟨⟨by decide +kernel, by decide +kernel, trivial⟩, ?_⟩
  intro inUse
  have present : afterCollision.files.secrets.get? lostRef ≠ none := by decide +kernel
  have unreferenced : (afterCollision.files.loaded .sample).all (fun source =>
      source.secrets.entries.all fun entry => entry.2.ref ≠ lostRef) = true := by
    decide +kernel
  obtain ⟨source, listed, name, descriptor, found, same⟩ :=
    inUse.needed lostRef present (Dictionary.get?_empty _)
  have checked := List.all_eq_true.mp (List.all_eq_true.mp unreferenced source listed)
    (name, descriptor) (Dictionary.get?_eq_some.mp found)
  exact of_decide_eq_true checked same

end RAGuardian.Ingestion
