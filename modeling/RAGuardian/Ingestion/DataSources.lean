import RAGuardian.Ingestion.Secrets
import RAGuardian.Ingestion.Service

/-! # Saving data sources

The data sources of the settings, and the admin form that saves one of them together
with its credential. -/

namespace RAGuardian.Ingestion

/-! ## Records -/

/-- A value of a plugin's configuration, as the form gives it. -/
inductive Setting
  | text (value : String)
  | flag (value : Bool)
deriving DecidableEq, Repr

abbrev Config := Dictionary String Setting

/-- The secret of a data source, `{"mode": …, "ref": …}`. -/
structure Descriptor where
  mode : String
  ref : String
deriving DecidableEq, Repr

/-- A data source in the settings. A cursor that is absent is the empty dictionary. -/
structure DataSource (Cursor : Type) where
  id : String
  knowledgeBaseId : String
  name : String
  plugin : String
  enabled : Bool
  syncEnabled : Bool
  syncIntervalSeconds : Nat
  config : Config
  secretsEnv : Dictionary String String
  secrets : Dictionary String Descriptor
  cursor : Option Cursor
  lastSync : String
  lastSyncStatus : String
  nextSyncAt : String
  lastError : String

instance [DecidableEq Key] [DecidableEq Value] : DecidableEq (Dictionary Key Value) :=
  fun left right => decidable_of_iff (left.entries = right.entries) <| by
    cases left
    cases right
    simp

deriving instance DecidableEq for DataSource

/-- `{**base, **extra}` -/
def merge (base extra : Config) : Config :=
  extra.entries.foldl (fun config entry => config.set entry.1 entry.2) base

/-- `{str(key): str(value).strip() for key, value in secrets_env.items()}` -/
def stripValues (texts : Dictionary String String) : Dictionary String String where
  entries := texts.entries.map fun entry => (entry.1, Text.strip entry.2)
  distinct := by
    rw [List.map_map]
    exact texts.distinct

/-- The secrets of the environment, as settings. -/
def asSettings (texts : Dictionary String String) : Config where
  entries := texts.entries.map fun entry => (entry.1, Setting.text entry.2)
  distinct := by
    rw [List.map_map]
    exact texts.distinct

inductive Failure
  | validation (message field : String)
  | other (message : String)
deriving DecidableEq, Repr

/-- What the application takes from the language, from its system and its settings, and
from the services it talks to. -/
structure Setup where
  characters : Settings.Characters
  /-- `int(value)` of a text -/
  integer : String → Option Int
  /-- `value.lower()` -/
  lower : String → String
  hmac : Hmac
  key : List UInt8
  workspaceId : String
  getenv : String → String
  /-- The error of a path that is not an absolute path of a folder. -/
  folderError : String → Option String
  resolve : String → String
  /-- The account a Microsoft Graph token belongs to. -/
  tokenAccount : String → String

/-- `int(value)` of ASCII digits -/
def digits (value : String) : Option Int :=
  if value.toList ≠ [] ∧ value.toList.all Char.isDigit then
    some (value.toList.foldl (fun total digit => 10 * total + (digit.toNat - 48)) 0)
  else none

/-- A system with simple texts, whose folders all exist. -/
def Setup.sample : Setup where
  characters := .sample
  integer := digits
  lower := Text.lower
  hmac := { digest := fun _ _ => List.replicate 32 0, length_digest := by simp }
  key := []
  workspaceId := "w1"
  getenv _ := ""
  folderError _ := none
  resolve path := path
  tokenAccount token := token

variable {Cursor : Type} (setup : Setup)

/-- `normalize_data_source` -/
def normalizeDataSource (source : DataSource Cursor) : DataSource Cursor :=
  let sourceId := Settings.slug setup.characters (orElse source.id source.name)
  { source with
    id := sourceId
    knowledgeBaseId := Text.strip (orElse source.knowledgeBaseId "default")
    name := Text.strip (orElse source.name sourceId)
    plugin := Text.strip source.plugin
    syncIntervalSeconds := min 2592000 source.syncIntervalSeconds
    secretsEnv := stripValues source.secretsEnv
    secrets := source.secrets.removeWhere fun _ descriptor => descriptor.ref == ""
    lastSync := Text.strip source.lastSync
    lastSyncStatus := Text.strip source.lastSyncStatus
    nextSyncAt := Text.strip source.nextSyncAt
    lastError := Text.strip source.lastError }

/-- The loop of `_normalize` over the data sources. -/
def normalizeFrom (seen : List String) : List (DataSource Cursor) → List (DataSource Cursor)
  | [] => []
  | source :: rest =>
      let normalized := normalizeDataSource setup source
      if normalized.id ≠ "" ∧ normalized.id ∉ seen then
        normalized :: normalizeFrom (normalized.id :: seen) rest
      else normalizeFrom seen rest

/-- The data sources of `_normalize`. -/
def normalizeDataSources (sources : List (DataSource Cursor)) : List (DataSource Cursor) :=
  normalizeFrom setup [] sources

/-! ## Plugins -/

/-- `str(config.get(key) or default)` -/
def settingText (config : Config) (key default : String) : String :=
  match config.get? key with
  | some (.text value) => orElse value default
  | some (.flag true) => "True"
  | some (.flag false) | none => default

/-- `value.replace(";", ",").split(",")`, with the extensions that can be indexed. -/
def extensions (value : String) : List String :=
  let parts := (value.toList.map fun character =>
    if character = ';' then ',' else character).splitOn ','
  (parts.map fun part =>
    String.ofList ((setup.lower (Text.strip (String.ofList part))).toList.dropWhile (· = '.'))).filter
      (· ∈ documentIndexExtensions)

/-- A place in a drive. -/
inductive Place
  | item (itemId : String)
  | path (folderPath : String)
deriving DecidableEq, Repr

/-- What a plugin reads: the folder of an account on a server, a place in a drive, or
a folder of the file system. Without the id of a drive it is the drive of the token's
account. -/
inductive Collection
  | mailbox (host username folder : String)
  | drive (driveId : String) (place : Place)
  | accountDrive (account : String) (place : Place)
  | folder (path : String)
deriving DecidableEq, Repr

/-- `EmailIngester.validate_config` -/
def validateEmail (config : Config) : Except Failure Collection :=
  let host := Text.strip (settingText config "host" "")
  let username := Text.strip (settingText config "username" "")
  let passwordEnv := Text.strip (settingText config "password_env" "")
  let password := Text.strip (settingText config "password" "")
  if host = "" then .error (.validation "host IMAP obbligatorio" "host")
  else if username = "" then .error (.validation "username IMAP obbligatorio" "username")
  else if passwordEnv = "" ∧ password = "" then
    .error (.validation "password o password_env obbligatorio" "password")
  else .ok (.mailbox host username
    (orElse (Text.strip (settingText config "folder" "INBOX")) "INBOX"))

/-- `MicrosoftDriveIngester.validate_config`, and where `walk_children` starts. -/
def validateDrive (config : Config) : Except Failure Collection :=
  let tokenEnv := Text.strip (settingText config "token_env" "")
  let token := Text.strip (settingText config "token" "")
  if tokenEnv = "" ∧ token = "" then
    .error (.validation "token o token_env Microsoft Graph obbligatorio" "token")
  else if extensions setup (settingText config "include_extensions" "pdf,txt,md") = [] then
    .error (.validation "Nessuna estensione supportata configurata" "include_extensions")
  else
    let driveId := Text.strip (settingText config "drive_id" "")
    let itemId := Text.strip (settingText config "item_id" "")
    let folderPath := Text.stripList (· = '/')
      (Text.strip (settingText config "folder_path" "")).toList
    let place := if itemId = "" then Place.path (String.ofList folderPath) else .item itemId
    if driveId = "" then
      .ok (.accountDrive (setup.tokenAccount (orElse token (setup.getenv tokenEnv))) place)
    else .ok (.drive driveId place)

/-- `FolderIngester.validate_config` -/
def validateFolder (config : Config) : Except Failure Collection :=
  let folderPath := Text.strip (settingText config "folder_path" "")
  if folderPath = "" then .error (.validation "Percorso cartella obbligatorio" "folder_path")
  else
    match setup.folderError folderPath with
    | some message => .error (.validation message "folder_path")
    | none =>
        if extensions setup (settingText config "include_extensions" "pdf,txt,md,csv") = [] then
          .error (.validation "Nessuna estensione supportata configurata" "include_extensions")
        else .ok (.folder (setup.resolve folderPath))

/-- `get_ingester(plugin).validate_config(config)`, with the collection the plugin then
reads. -/
def validateConfig (plugin : String) (config : Config) : Except Failure Collection :=
  if Text.strip plugin = "email_imap" then validateEmail config
  else if Text.strip plugin = "microsoft_drive" then validateDrive setup config
  else if Text.strip plugin = "folder_watch" then validateFolder setup config
  else .error (.validation "Plugin ingestion non disponibile" "plugin")

/-! ## The form -/

abbrev Form := Dictionary String String

/-- `form.get(key, default)` -/
def Form.text (form : Form) (key default : String) : String :=
  (form.get? key).getD default

/-- `form.get(key) == "on"` -/
def Form.checked (form : Form) (key : String) : Bool :=
  form.get? key = some "on"

/-- `form.get("plugin") or "email_imap"` -/
def Form.plugin (form : Form) : String :=
  orElse (form.text "plugin" "") "email_imap"

/-- `form.get("id") or form.get("name")` -/
def Form.id (form : Form) : String :=
  orElse (form.text "id" "") (form.text "name" "")

/-- `form.get("name") or form.get("id")` -/
def Form.name (form : Form) : String :=
  orElse (form.text "name" "") (form.text "id" "")

/-- `_data_source_sync_fields_from_form` -/
def syncFieldsFromForm (form : Form) : Except Failure (Bool × Nat) :=
  let field := "sync_interval_minutes"
  match setup.integer (form.text field "15") with
  | none => .error (.validation (field ++ " deve essere un numero intero") field)
  | some minutes =>
      if minutes < 1 then .error (.validation (field ++ " deve essere >= 1") field)
      else if 43200 < minutes then
        .error (.validation (field ++ " deve essere <= 43200") field)
      else .ok (form.checked "sync_enabled", minutes.toNat * 60)

def configOf (entries : List (String × Setting)) : Config :=
  entries.foldl (fun config entry => config.set entry.1 entry.2) .empty

/-- The configuration of the form's plugin. -/
def configFromForm (form : Form) : Config :=
  let field (key default : String) : String × Setting := (key, .text (form.text key default))
  let box (key : String) : String × Setting := (key, .flag (form.checked key))
  if form.plugin = "microsoft_drive" then
    configOf [field "drive_id" "", field "folder_path" "", field "item_id" "", box "recursive",
      field "max_files" "50", field "max_file_size_mb" "10",
      field "include_extensions" "pdf,txt,md"]
  else if form.plugin = "folder_watch" then
    configOf [field "folder_path" "", box "recursive",
      field "include_extensions" "pdf,txt,md,csv", field "exclude_patterns" "",
      field "max_files" "100"]
  else
    configOf [field "host" "", field "port" "993", box "use_ssl", field "username" "",
      field "folder" "INBOX", field "from_contains" "", field "subject_contains" "",
      field "since" "", field "max_messages" "25", box "include_body",
      box "include_attachments"]

/-- The secrets of the environment the form names. -/
def secretsEnvFromForm (form : Form) : Dictionary String String :=
  if form.plugin = "microsoft_drive" then
    Dictionary.empty.set "token_env" (form.text "token_env" "")
  else if form.plugin = "folder_watch" then .empty
  else Dictionary.empty.set "password_env" (form.text "password_env" "")

/-- `secret_name` -/
def Form.secretName (form : Form) : String :=
  if form.plugin = "microsoft_drive" then "token"
  else if form.plugin = "folder_watch" then ""
  else "password"

/-- `secret_value` -/
def Form.secretValue (form : Form) : String :=
  if form.plugin = "microsoft_drive" then form.text "token" ""
  else if form.plugin = "folder_watch" then ""
  else form.text "password" ""

/-- The record the form describes. -/
def rawSource (form : Form) (knowledgeBaseId : String) (sync : Bool × Nat) :
    DataSource Cursor where
  id := form.id
  knowledgeBaseId := knowledgeBaseId
  name := form.name
  plugin := form.plugin
  enabled := form.checked "enabled"
  syncEnabled := sync.1
  syncIntervalSeconds := sync.2
  config := configFromForm form
  secretsEnv := secretsEnvFromForm form
  secrets := .empty
  cursor := none
  lastSync := ""
  lastSyncStatus := ""
  nextSyncAt := ""
  lastError := ""

/-! ## Saving -/

/-- A secret to delete when the settings are saved, and one to delete when they are
not. -/
structure SecretChange where
  newRef : String
  oldRef : String
deriving DecidableEq, Repr

/-- The settings and the secrets of a workspace. -/
structure Files (Cursor : Type) where
  dataSources : List (DataSource Cursor)
  secrets : Secrets

/-- A request of the admin form, with what `uuid4` and `urandom` draw for it and the
failures it meets: before anything is done, when the secret is created, and when the
settings are written. -/
structure SaveRequest where
  form : Form
  knowledgeBaseId : String
  unique : String
  nonce : List UInt8
  unavailable : Option String := none
  creation : Option String := none
  writing : Option String := none

/-- The secrets of a data source are decrypted for the validation. -/
def withSecrets (secrets : Secrets) :
    List (String × Descriptor) → Config → Except Failure Config
  | [], config => .ok config
  | (name, descriptor) :: rest, config =>
      match getSecret setup.hmac setup.key secrets descriptor.ref with
      | .error message => .error (.other message)
      | .ok value => withSecrets secrets rest (config.set name (.text value))

/-- `bool(previous and previous.get("plugin") != plugin)` -/
def pluginChanged (form : Form) (previous : Option (DataSource Cursor)) : Bool :=
  previous.any fun source => source.plugin ≠ form.plugin

/-- The secrets that are kept when the form gives none. -/
def keptSecrets (form : Form) (previous : Option (DataSource Cursor)) :
    Dictionary String Descriptor :=
  match previous with
  | none => .empty
  | some source => if source.plugin = form.plugin then source.secrets else .empty

/-- The secrets of the previous record. -/
def previousSecrets (previous : Option (DataSource Cursor)) : Dictionary String Descriptor :=
  match previous with
  | none => .empty
  | some source => source.secrets

/-- `secret_owner` -/
def secretOwner (knowledgeBaseId : String) : String :=
  if knowledgeBaseId = "default" then setup.workspaceId
  else setup.workspaceId ++ ":" ++ knowledgeBaseId

/-- The reference of the secret a request creates. -/
def SaveRequest.ref (request : SaveRequest) (sourceId : String) : String :=
  versionRef setup.characters (secretOwner setup request.knowledgeBaseId)
    (sourceId ++ ":" ++ request.form.secretName) request.unique

/-- The changes of `_data_source_from_form` for the secrets. -/
def secretChanges (request : SaveRequest) (sourceId : String)
    (previous : Option (DataSource Cursor)) : List SecretChange :=
  let form := request.form
  let created :=
    if form.secretValue = "" then []
    else
      [{ newRef := request.ref setup sourceId
         oldRef :=
          if pluginChanged form previous then ""
          else (((previousSecrets previous).get? form.secretName).map (·.ref)).getD "" }]
  let dropped :=
    if pluginChanged form previous then
      (previousSecrets previous).entries.map fun entry => ⟨"", entry.2.ref⟩
    else []
  created ++ dropped

/-- `_data_source_from_form`: the data source, the changes of its secrets, and the
secrets afterwards. -/
def dataSourceFromForm (request : SaveRequest) (previous : Option (DataSource Cursor))
    (secrets : Secrets) :
    Except Failure (DataSource Cursor × List SecretChange × Secrets) := do
  let form := request.form
  let sync ← syncFieldsFromForm setup form
  let source := normalizeDataSource setup (rawSource form request.knowledgeBaseId sync)
  if source.id = "" then throw (.validation "id data source obbligatorio" "id")
  else do
    let kept := keptSecrets form previous
    let environment := merge source.config (asSettings source.secretsEnv)
    let config ← withSecrets setup secrets kept.entries environment
    let _ ← validateConfig setup source.plugin
      (if form.secretValue = "" then config
      else config.set form.secretName (.text form.secretValue))
    let changes := secretChanges setup request source.id previous
    if form.secretValue = "" then
      return ({ source with secrets := kept }, changes, secrets)
    else
      match request.creation with
      | some message => throw (.other message)
      | none =>
          let ref := request.ref setup source.id
          return ({ source with secrets := kept.set form.secretName ⟨"user_secret", ref⟩ },
            changes,
            secrets.set ref (encrypt setup.hmac setup.key request.nonce form.secretValue))

/-- `existing[source["id"]] = source`, where the ids are distinct. -/
def placeSource (source : DataSource Cursor) (sources : List (DataSource Cursor)) :
    List (DataSource Cursor) :=
  if sources.any (·.id == source.id) then
    Table.update (·.id == source.id) (fun _ => source) sources
  else sources ++ [source]

/-- What a save keeps of the previous record. -/
def withPrevious (previous : Option (DataSource Cursor)) (source : DataSource Cursor) :
    DataSource Cursor :=
  { source with
    cursor := previous.bind (·.cursor)
    lastSync := (previous.map (·.lastSync)).getD ""
    lastSyncStatus := (previous.map (·.lastSyncStatus)).getD ""
    nextSyncAt := (previous.map (·.nextSyncAt)).getD ""
    lastError := (previous.map (·.lastError)).getD "" }

/-- The data sources as `SettingsStore.load` returns them. -/
def Files.loaded (files : Files Cursor) : List (DataSource Cursor) :=
  normalizeDataSources setup files.dataSources

/-- `prospective_id` -/
def SaveRequest.sourceId (request : SaveRequest) : String :=
  Settings.slug setup.characters request.form.id

/-- The record a request replaces. -/
def SaveRequest.previous (request : SaveRequest) (files : Files Cursor) :
    Option (DataSource Cursor) :=
  (files.loaded setup).find? (·.id == request.sourceId setup)

variable [DecidableEq Cursor]

/-- The POST of `admin_data_sources`: `mutate_data_sources` in `SettingsStore.mutate`, and
the deletions after it. -/
def saveDataSource (request : SaveRequest) (files : Files Cursor) :
    Except Failure Unit × Files Cursor :=
  match request.unavailable with
  | some message => (.error (.other message), files)
  | none =>
      let current := files.loaded setup
      let previous := request.previous setup files
      if previous.any (fun source =>
          orElse source.knowledgeBaseId "default" ≠ request.knowledgeBaseId) then
        (.error (.validation
          "Una data source non può essere spostata fra knowledge base" "id"), files)
      else
        match dataSourceFromForm setup request previous files.secrets with
        | .error failure => (.error failure, files)
        | .ok (source, changes, secrets) =>
            let mutated := placeSource (withPrevious previous source) current
            if mutated = current then
              (.ok (), { files with secrets := deleteSecrets (changes.map (·.oldRef)) secrets })
            else
              match request.writing with
              | some message =>
                  (.error (.other message),
                    { files with secrets := deleteSecrets (changes.map (·.newRef)) secrets })
              | none =>
                  (.ok (),
                    { dataSources := normalizeDataSources setup mutated
                      secrets := deleteSecrets (changes.map (·.oldRef)) secrets })

/-! ## Normalized records -/

omit [DecidableEq Cursor]

variable {setup}

theorem stripValues_stripValues (texts : Dictionary String String) :
    stripValues (stripValues texts) = stripValues texts := by
  simp [stripValues, Text.strip_strip]

theorem removeWhere_removeWhere {Key Value : Type} (test : Key → Value → Bool)
    (dictionary : Dictionary Key Value) :
    (dictionary.removeWhere test).removeWhere test = dictionary.removeWhere test := by
  simp [Dictionary.removeWhere]

theorem strip_orElse {value default : String} (stripped : Text.strip value = value) :
    Text.strip (orElse (Text.strip (orElse value default)) default) =
      Text.strip (orElse value default) := by
  by_cases blank : value = ""
  · have plain : orElse value default = default := if_pos blank
    rw [plain]
    by_cases empty : Text.strip default = ""
    · rw [orElse, if_pos empty]
    · rw [orElse, if_neg empty, Text.strip_strip]
  · have plain : orElse value default = value := if_neg blank
    rw [plain, stripped, orElse, if_neg blank, stripped]

/-- A record whose id is a slug and whose texts are stripped is normalized by one pass. -/
structure Trimmed (setup : Setup) (source : DataSource Cursor) : Prop where
  id : ∃ value, source.id = Settings.slug setup.characters value
  nonempty : source.id ≠ ""
  name : Text.strip source.name = source.name
  knowledgeBaseId : Text.strip source.knowledgeBaseId = source.knowledgeBaseId

theorem normalized_id {source : DataSource Cursor} (nonempty : source.id ≠ "") :
    (normalizeDataSource setup source).id = Settings.slug setup.characters source.id := by
  simp [normalizeDataSource, orElse, nonempty]

theorem normalized_config (source : DataSource Cursor) :
    (normalizeDataSource setup source).config = source.config := by
  simp only [normalizeDataSource]

theorem normalized_cursor (source : DataSource Cursor) :
    (normalizeDataSource setup source).cursor = source.cursor := by
  simp only [normalizeDataSource]

theorem Trimmed.normalized {source : DataSource Cursor} (trimmed : Trimmed setup source)
    (nonempty : (normalizeDataSource setup source).id ≠ "") :
    normalizeDataSource setup (normalizeDataSource setup source) =
      normalizeDataSource setup source := by
  obtain ⟨value, made⟩ := trimmed.id
  rw [normalized_id trimmed.nonempty] at nonempty
  have stable : Settings.slug setup.characters (Settings.slug setup.characters source.id) =
      Settings.slug setup.characters source.id := by
    rw [made, Settings.slug_slug_slug]
  have first : orElse source.id source.name = source.id := if_neg trimmed.nonempty
  have second : ∀ name, orElse (Settings.slug setup.characters source.id) name =
      Settings.slug setup.characters source.id := fun name => if_neg nonempty
  simp only [normalizeDataSource, first, second, stable, strip_orElse trimmed.name,
    strip_orElse trimmed.knowledgeBaseId, Text.strip_strip, stripValues_stripValues,
    removeWhere_removeWhere]
  simp

/-- The list `_normalize` makes when no record is dropped. -/
theorem normalizeFrom_eq_map {sources : List (DataSource Cursor)} {seen : List String}
    (nonempty : ∀ source ∈ sources, (normalizeDataSource setup source).id ≠ "")
    (unseen : ∀ source ∈ sources, (normalizeDataSource setup source).id ∉ seen)
    (distinct : (sources.map fun source => (normalizeDataSource setup source).id).Nodup) :
    normalizeFrom setup seen sources = sources.map (normalizeDataSource setup) := by
  induction sources generalizing seen with
  | nil => rfl
  | cons source sources induction =>
      rw [List.map_cons, List.nodup_cons] at distinct
      have kept : (normalizeDataSource setup source).id ≠ "" ∧
          (normalizeDataSource setup source).id ∉ seen :=
        ⟨nonempty source List.mem_cons_self, unseen source List.mem_cons_self⟩
      simp only [normalizeFrom, if_pos kept, List.map_cons, List.cons.injEq, true_and]
      apply induction (fun other member => nonempty other (List.mem_cons_of_mem source member))
      · intro other member again
        rcases List.mem_cons.mp again with same | earlier
        · exact distinct.1 (List.mem_map.mpr ⟨other, member, same⟩)
        · exact unseen other (List.mem_cons_of_mem source member) earlier
      · exact distinct.2

/-- A last record whose id is empty or taken is dropped. -/
theorem normalizeFrom_concat_dropped {sources : List (DataSource Cursor)} {seen : List String}
    {source : DataSource Cursor}
    (dropped : (normalizeDataSource setup source).id = "" ∨
      (normalizeDataSource setup source).id ∈ seen ∨
      ∃ other ∈ sources, (normalizeDataSource setup other).id =
        (normalizeDataSource setup source).id) :
    normalizeFrom setup seen (sources ++ [source]) = normalizeFrom setup seen sources := by
  induction sources generalizing seen with
  | nil =>
      have absent : ¬ ((normalizeDataSource setup source).id ≠ "" ∧
          (normalizeDataSource setup source).id ∉ seen) := by
        rintro ⟨nonempty, unseen⟩
        rcases dropped with empty | taken | ⟨other, member, -⟩
        · exact nonempty empty
        · exact unseen taken
        · cases member
      simp [normalizeFrom, if_neg absent]
  | cons first sources induction =>
      simp only [List.cons_append, normalizeFrom]
      split
      · rename_i kept
        rw [induction]
        rcases dropped with empty | taken | ⟨other, member, same⟩
        · exact .inl empty
        · exact .inr (.inl (List.mem_cons_of_mem _ taken))
        · rcases List.mem_cons.mp member with rfl | later
          · rw [same]
            exact .inr (.inl List.mem_cons_self)
          · exact .inr (.inr ⟨other, later, same⟩)
      · rename_i skipped
        rw [induction]
        rcases dropped with empty | taken | ⟨other, member, same⟩
        · exact .inl empty
        · exact .inr (.inl taken)
        · rcases List.mem_cons.mp member with rfl | later
          · rw [same] at skipped
            by_cases empty : (normalizeDataSource setup source).id = ""
            · exact .inl empty
            · exact .inr (.inl (by
                by_contra unseen
                exact skipped ⟨empty, unseen⟩))
          · exact .inr (.inr ⟨other, later, same⟩)

/-! ## The stored list -/

/-- The records are normalized and have ids of their own. -/
structure WellKept (setup : Setup) (sources : List (DataSource Cursor)) : Prop where
  normal : ∀ source ∈ sources, normalizeDataSource setup source = source
  nonempty : ∀ source ∈ sources, source.id ≠ ""
  distinct : (sources.map (·.id)).Nodup

theorem WellKept.nil : WellKept setup ([] : List (DataSource Cursor)) where
  normal := by simp
  nonempty := by simp
  distinct := by simp

theorem WellKept.loaded {sources : List (DataSource Cursor)} (kept : WellKept setup sources) :
    normalizeDataSources setup sources = sources := by
  have same : sources.map (normalizeDataSource setup) = sources := by
    rw [List.map_congr_left kept.normal, List.map_id']
  rw [normalizeDataSources, normalizeFrom_eq_map, same]
  · intro source member
    rw [kept.normal source member]
    exact kept.nonempty source member
  · simp
  · have ids : sources.map (fun source => (normalizeDataSource setup source).id) =
        sources.map (·.id) :=
      List.map_congr_left fun source member => congrArg (·.id) (kept.normal source member)
    rw [ids]
    exact kept.distinct

/-- The record with an id. -/
def lookup (sources : List (DataSource Cursor)) (id : String) : Option (DataSource Cursor) :=
  sources.find? (·.id == id)

theorem WellKept.lookup_eq_some {sources : List (DataSource Cursor)}
    (kept : WellKept setup sources) {id : String} {source : DataSource Cursor} :
    lookup sources id = some source ↔ source ∈ sources ∧ source.id = id :=
  Table.find?_eq_some_iff_of_unique kept.distinct

theorem lookup_eq_none {sources : List (DataSource Cursor)} {id : String} :
    lookup sources id = none ↔ id ∉ sources.map (·.id) := by
  simp [lookup]

/-- The id of a kept record is its own slug. -/
theorem WellKept.slug_id {sources : List (DataSource Cursor)} (kept : WellKept setup sources)
    {source : DataSource Cursor} (member : source ∈ sources) :
    Settings.slug setup.characters source.id = source.id := by
  rw [← normalized_id (kept.nonempty source member), kept.normal source member]

/-- A record that is written under its own id takes the place of the record with that id. -/
theorem WellKept.replaced {current : List (DataSource Cursor)} (kept : WellKept setup current)
    {source : DataSource Cursor} (trimmed : Trimmed setup source)
    (present : source.id ∈ current.map (·.id)) :
    (normalizeDataSource setup source).id = source.id ∧
      normalizeDataSources setup (placeSource source current) =
        Table.update (·.id == source.id) (fun _ => normalizeDataSource setup source) current := by
  obtain ⟨old, member, oldId⟩ := List.mem_map.mp present
  have stable : (normalizeDataSource setup source).id = source.id := by
    rw [normalized_id trimmed.nonempty, ← oldId, kept.slug_id member]
  have found : current.any (·.id == source.id) = true :=
    List.any_eq_true.mpr ⟨old, member, by simpa using oldId⟩
  have mapped : (Table.update (·.id == source.id) (fun _ => source) current).map
      (normalizeDataSource setup) =
      Table.update (·.id == source.id) (fun _ => normalizeDataSource setup source) current := by
    simp only [Table.update, List.map_map]
    apply List.map_congr_left
    intro other listed
    by_cases same : other.id = source.id
    · simp [same]
    · simp [same, kept.normal other listed]
  have ids : (Table.update (·.id == source.id) (fun _ => normalizeDataSource setup source)
      current).map (·.id) = current.map (·.id) := by
    simp only [Table.update, List.map_map]
    apply List.map_congr_left
    intro other _
    by_cases same : other.id = source.id
    · simp [same, stable]
    · simp [same]
  refine ⟨stable, ?_⟩
  rw [placeSource, if_pos found, normalizeDataSources, normalizeFrom_eq_map, mapped]
  · intro other listed
    obtain ⟨original, within, rfl⟩ := Table.mem_update.mp listed
    split
    · rw [stable]
      exact trimmed.nonempty
    · rw [kept.normal original within]
      exact kept.nonempty original within
  · simp
  · have composed := List.map_map (f := normalizeDataSource setup) (g := (·.id))
      (l := Table.update (·.id == source.id) (fun _ => source) current)
    rw [mapped, ids] at composed
    change (List.map ((·.id) ∘ normalizeDataSource setup) _).Nodup
    rw [← composed]
    exact kept.distinct

/-- A record with an id that no other has is added. -/
theorem WellKept.added {current : List (DataSource Cursor)} (kept : WellKept setup current)
    {source : DataSource Cursor} (absent : source.id ∉ current.map (·.id))
    (nonempty : (normalizeDataSource setup source).id ≠ "")
    (untaken : (normalizeDataSource setup source).id ∉ current.map (·.id)) :
    normalizeDataSources setup (placeSource source current) =
      current ++ [normalizeDataSource setup source] := by
  have missing : ¬ current.any (·.id == source.id) = true := by
    simpa using absent
  have same : current.map (normalizeDataSource setup) = current := by
    rw [List.map_congr_left kept.normal, List.map_id']
  have ids : current.map (fun other => (normalizeDataSource setup other).id) =
      current.map (·.id) :=
    List.map_congr_left fun other member => congrArg (·.id) (kept.normal other member)
  rw [placeSource, if_neg missing, normalizeDataSources, normalizeFrom_eq_map, List.map_append,
    same]
  · rfl
  · intro other listed
    rcases List.mem_append.mp listed with member | last
    · rw [kept.normal other member]
      exact kept.nonempty other member
    · rw [List.mem_singleton.mp last]
      exact nonempty
  · simp
  · rw [List.map_append, ids, List.map_singleton, List.nodup_append]
    refine ⟨kept.distinct, by simp, ?_⟩
    rintro id member _ last rfl
    rw [List.mem_singleton] at last
    exact untaken (last ▸ member)

/-- A record whose id is cut to another one's is dropped. -/
theorem WellKept.dropped {current : List (DataSource Cursor)} (kept : WellKept setup current)
    {source : DataSource Cursor} (absent : source.id ∉ current.map (·.id))
    (taken : (normalizeDataSource setup source).id = "" ∨
      (normalizeDataSource setup source).id ∈ current.map (·.id)) :
    normalizeDataSources setup (placeSource source current) = current := by
  have missing : ¬ current.any (·.id == source.id) = true := by
    simpa using absent
  rw [placeSource, if_neg missing, normalizeDataSources, normalizeFrom_concat_dropped,
    ← normalizeDataSources, kept.loaded]
  rcases taken with empty | member
  · exact .inl empty
  · obtain ⟨other, listed, same⟩ := List.mem_map.mp member
    exact .inr (.inr ⟨other, listed, by rw [kept.normal other listed, same]⟩)

/-- The list after a record has been written. -/
structure Placed (setup : Setup) (stored : DataSource Cursor)
    (current sources : List (DataSource Cursor)) : Prop where
  kept : WellKept setup sources
  lookup_eq : ∀ id, lookup sources id = if id = stored.id then some stored else lookup current id

theorem WellKept.placed {current : List (DataSource Cursor)} (kept : WellKept setup current)
    {source : DataSource Cursor} (trimmed : Trimmed setup source)
    (nonempty : (normalizeDataSource setup source).id ≠ "")
    (room : source.id ∈ current.map (·.id) ∨
      (normalizeDataSource setup source).id ∉ current.map (·.id)) :
    Placed setup (normalizeDataSource setup source) current
      (normalizeDataSources setup (placeSource source current)) := by
  have normal := trimmed.normalized nonempty
  have placed : ∀ sources : List (DataSource Cursor), WellKept setup sources →
      (∀ other, other ∈ sources ↔ other = normalizeDataSource setup source ∨
        other ∈ current ∧ other.id ≠ (normalizeDataSource setup source).id) →
      Placed setup (normalizeDataSource setup source) current sources := by
    intro sources sound members
    refine ⟨sound, fun id => Option.ext fun other => ?_⟩
    rw [sound.lookup_eq_some, members]
    split
    · rename_i same
      rw [Option.some.injEq]
      constructor
      · rintro ⟨rfl | ⟨-, different⟩, keyed⟩
        · rfl
        · exact absurd (keyed.trans same) different
      · rintro rfl
        exact ⟨.inl rfl, same.symm⟩
    · rename_i different
      rw [kept.lookup_eq_some]
      constructor
      · rintro ⟨rfl | ⟨member, -⟩, keyed⟩
        · exact absurd keyed.symm different
        · exact ⟨member, keyed⟩
      · rintro ⟨member, keyed⟩
        exact ⟨.inr ⟨member, fun same => different (keyed.symm.trans same)⟩, keyed⟩
  by_cases present : source.id ∈ current.map (·.id)
  · obtain ⟨stable, written⟩ := kept.replaced trimmed present
    obtain ⟨old, member, oldId⟩ := List.mem_map.mp present
    have members : ∀ other, other ∈ Table.update (·.id == source.id)
        (fun _ => normalizeDataSource setup source) current ↔
        other = normalizeDataSource setup source ∨
          other ∈ current ∧ other.id ≠ (normalizeDataSource setup source).id := by
      intro other
      rw [Table.mem_update, stable]
      constructor
      · rintro ⟨original, within, rfl⟩
        split
        · exact .inl rfl
        · rename_i different
          exact .inr ⟨within, by simpa using different⟩
      · rintro (rfl | ⟨within, different⟩)
        · exact ⟨old, member, by simp [oldId]⟩
        · exact ⟨other, within, by simp [different]⟩
    rw [written]
    apply placed _ _ members
    constructor
    · intro other listed
      rcases (members other).mp listed with rfl | ⟨within, -⟩
      · exact normal
      · exact kept.normal other within
    · intro other listed
      rcases (members other).mp listed with rfl | ⟨within, -⟩
      · exact nonempty
      · exact kept.nonempty other within
    · have ids : (Table.update (·.id == source.id) (fun _ => normalizeDataSource setup source)
          current).map (·.id) = current.map (·.id) := by
        simp only [Table.update, List.map_map]
        apply List.map_congr_left
        intro other _
        by_cases same : other.id = source.id
        · simp [same, stable]
        · simp [same]
      rw [ids]
      exact kept.distinct
  · have untaken := room.resolve_left present
    rw [kept.added present nonempty untaken]
    apply placed
    · constructor
      · intro other listed
        rcases List.mem_append.mp listed with within | last
        · exact kept.normal other within
        · rw [List.mem_singleton.mp last]
          exact normal
      · intro other listed
        rcases List.mem_append.mp listed with within | last
        · exact kept.nonempty other within
        · rw [List.mem_singleton.mp last]
          exact nonempty
      · rw [List.map_append, List.map_singleton, List.nodup_append]
        refine ⟨kept.distinct, by simp, ?_⟩
        rintro id member _ last rfl
        rw [List.mem_singleton] at last
        exact untaken (last ▸ member)
    · intro other
      rw [List.mem_append, List.mem_singleton]
      constructor
      · rintro (within | rfl)
        · exact .inr ⟨within, fun same => untaken (same ▸ List.mem_map_of_mem within)⟩
        · exact .inl rfl
      · rintro (rfl | ⟨within, -⟩)
        · exact .inr rfl
        · exact .inl within

end RAGuardian.Ingestion
