import RAGuardian.Foundation.Fallible
import RAGuardian.Foundation.Json
import RAGuardian.Service.ScopeKeys

/-! # The catalog of the knowledge bases

`KnowledgeBaseStore`: the records of a workspace in one file, which is read and validated before
each change and replaced by it. -/

namespace RAGuardian.Catalog

open Fallible Json Text
open Service (isKnowledgeBaseId validateKnowledgeBaseId)

/-! ## Records -/

/-- `KNOWLEDGE_BASE_STATUSES` -/
inductive Status
  | active
  | deleting
  | deleteFailed
deriving DecidableEq, Repr

namespace Status

def text : Status → String
  | .active => "active"
  | .deleting => "deleting"
  | .deleteFailed => "delete_failed"

def ofText (text : String) : Option Status :=
  if text = "active" then some .active
  else if text = "deleting" then some .deleting
  else if text = "delete_failed" then some .deleteFailed
  else none

@[simp] theorem ofText_text (status : Status) : ofText status.text = some status := by
  cases status <;> decide

end Status

structure Record where
  id : String
  name : String
  description : String
  status : Status
  createdAt : String
  updatedAt : String
  deleteError : String
  deleteRequesterApiKeyId : String
deriving DecidableEq, Repr

/-- A record as the file has it, with its keys in order. -/
def Record.entries (record : Record) : List (String × Value) := [
  ("created_at", .str record.createdAt),
  ("delete_error", .str record.deleteError),
  ("delete_requester_api_key_id", .str record.deleteRequesterApiKeyId),
  ("description", .str record.description),
  ("id", .str record.id),
  ("name", .str record.name),
  ("status", .str record.status.text),
  ("updated_at", .str record.updatedAt)]

def Record.value (record : Record) : Value :=
  .dict record.entries

def schemaVersion : Int := 1

def defaultId : String := "default"

def defaultName : String := "General"

/-- The catalog as the file has it -/
def catalogValue (records : List Record) : Value := .dict [
  ("knowledge_bases", .list (records.map Record.value)),
  ("schema_version", .int schemaVersion)]

inductive File
  | absent
  | undecodable
  | document (value : Value)

/-- What `_public_record` leaves of a record -/
structure PublicRecord where
  id : String
  name : String
  description : String
  status : Status
  createdAt : String
  updatedAt : String
  deleteError : String
  isDefault : Bool
deriving DecidableEq, Repr

def Record.public (record : Record) : PublicRecord where
  id := record.id
  name := record.name
  description := record.description
  status := record.status
  createdAt := record.createdAt
  updatedAt := record.updatedAt
  deleteError := record.deleteError
  isDefault := record.id == defaultId

inductive Result
  | catalog (records : List PublicRecord)
  | record (record : PublicRecord)
  | removed (value : Bool)
deriving DecidableEq, Repr

inductive Failure
  | catalog (message : String)
  | validation (message code : String) (statusCode : Nat)
  | typeError
  | osError
deriving DecidableEq, Repr

/-! ## Validation -/

/-- What the catalog asks of the texts it is given. -/
structure Library where
  /-- `str(value)` -/
  str : Value → String
  str_text : ∀ text, str (.str text) = text
  /-- `value.casefold()` -/
  casefold : String → String
  /-- `datetime.fromisoformat`: whether the time has a zone, if the text is one. -/
  fromIsoFormat : String → Option Bool

/-- `str(value or "")` -/
def Library.textOf (library : Library) (value : Value) : String :=
  library.str (value.orElse (.str ""))

@[simp] theorem Library.textOf_text (library : Library) (text : String) :
    library.textOf (.str text) = text := by
  unfold textOf Value.orElse
  split
  · exact library.str_text text
  · rename_i blank
    have empty : text = "" := by simpa [Value.truthy] using blank
    rw [empty, library.str_text]

/-- `validate_knowledge_base_name` -/
def validateName : Value → Except Failure String
  | .str value =>
      let name := strip value
      if 1 ≤ name.length ∧ name.length ≤ 120 then .ok name
      else .error (.validation "Il nome deve contenere da 1 a 120 caratteri"
        "invalid_knowledge_base_name" 400)
  | _ => .error (.validation "Il nome deve essere una stringa" "invalid_knowledge_base_name" 400)

/-- `validate_knowledge_base_description` -/
def validateDescription : Value → Except Failure String
  | .str value =>
      let description := strip value
      if 1000 < description.length then
        .error (.validation "La descrizione non può superare 1000 caratteri"
          "invalid_knowledge_base_description" 400)
      else .ok description
  | _ => .error (.validation "La descrizione deve essere una stringa"
      "invalid_knowledge_base_description" 400)

/-- `timestamp.replace("Z", "+00:00")` -/
def replaceZ (timestamp : String) : String :=
  String.ofList (timestamp.toList.flatMap fun character =>
    if character = 'Z' then ['+', '0', '0', ':', '0', '0'] else [character])

section

variable (library : Library) (path : String)

/-- `_validate_timestamp` -/
def validateTimestamp (field : String) (value : Value) : Except Failure String :=
  let timestamp := strip (library.textOf value)
  if timestamp = "" then
    .error (.catalog ("Timestamp " ++ field ++ " mancante nel catalogo: " ++ path))
  else match library.fromIsoFormat (replaceZ timestamp) with
    | none => .error (.catalog ("Timestamp " ++ field ++ " non valido nel catalogo: " ++ path))
    | some false =>
        .error (.catalog ("Timestamp " ++ field ++ " senza timezone nel catalogo: " ++ path))
    | some true => .ok timestamp

/-- A validation error of a record, as an error of the catalog -/
def ofRecord : Except Failure α → Except Failure α
  | .error (.validation message _ _) =>
      .error (.catalog ("Record knowledge base non valido in " ++ path ++ ": " ++ message))
  | outcome => outcome

/-- `validate_knowledge_base_id` of a text -/
def validateId (value : String) : Except Failure String :=
  match validateKnowledgeBaseId value with
  | some id => .ok id
  | none => .error (.validation "ID knowledge base non valido" "invalid_knowledge_base_id" 400)

/-- One pass of the loop of `_validate_catalog`, with the ids and the folded names before it -/
def validateRecord (ids names : List String) : Value → Except Failure Record
  | .dict raw => do
      let id := library.textOf (Value.lookup raw "id")
      let _ ← ofRecord path (validateId id)
      let name ← ofRecord path (validateName (Value.lookup raw "name"))
      let description ← ofRecord path (validateDescription (Value.lookup raw "description"))
      match Status.ofText (library.textOf (Value.lookup raw "status")) with
      | none => .error (.catalog ("Stato knowledge base non valido in " ++ path))
      | some status =>
          if id ∈ ids ∨ library.casefold name ∈ names then
            .error (.catalog ("Knowledge base duplicate nel catalogo: " ++ path))
          else do
            let createdAt ← validateTimestamp library path "created_at"
              (Value.lookup raw "created_at")
            let updatedAt ← validateTimestamp library path "updated_at"
              (Value.lookup raw "updated_at")
            .ok {
              id := id
              name := name
              description := description
              status := status
              createdAt := createdAt
              updatedAt := updatedAt
              deleteError := truncate 1000 (library.textOf (Value.lookup raw "delete_error"))
              deleteRequesterApiKeyId :=
                library.textOf (Value.lookup raw "delete_requester_api_key_id") }
  | _ => .error (.catalog ("Record knowledge base non valido: " ++ path))

/-- The loop of `_validate_catalog` -/
def validateRecords (ids names : List String) : List Value → Except Failure (List Record)
  | [] => .ok []
  | raw :: rest => do
      let record ← validateRecord library path ids names raw
      let others ← validateRecords (record.id :: ids) (library.casefold record.name :: names) rest
      .ok (record :: others)

/-- `value == KNOWLEDGE_BASE_SCHEMA_VERSION` -/
def isSchemaVersion : Value → Bool
  | .int number => number == schemaVersion
  | .bool value => value
  | .float (.finite representation) => representation == "1.0"
  | _ => false

/-- `_validate_catalog` -/
def validateCatalog : Value → Except Failure (List Record)
  | .dict catalog =>
      if !isSchemaVersion (Value.lookup catalog "schema_version") then
        .error (.catalog ("Versione catalogo knowledge base non supportata: " ++ path))
      else match Value.lookup catalog "knowledge_bases" with
        | .list (raw :: rest) => do
            let records ← validateRecords library path [] [] (raw :: rest)
            if records.countP (·.id == defaultId) ≠ 1 then
              .error (.catalog
                ("Il catalogo deve contenere esattamente una knowledge base default: " ++ path))
            else .ok records
        | _ => .error (.catalog ("Catalogo knowledge base vuoto o non valido: " ++ path))
  | _ => .error (.catalog ("Catalogo knowledge base non valido: " ++ path))

/-- `_load_unlocked` -/
def loadFile : File → Except Failure (List Record)
  | .absent => .error (.catalog ("Catalogo knowledge base mancante: " ++ path))
  | .undecodable => .error (.catalog ("Catalogo knowledge base non leggibile: " ++ path))
  | .document value => validateCatalog library path value

end

/-! ## Operations -/

/-- What a call draws from its surroundings: the time, a random id, and whether the new file
reaches the place of the old one. -/
structure Surroundings (library : Library) where
  now : String
  hex : String
  stored : Bool
  now_written : now ≠ ""
  now_unpadded : strip now = now
  now_aware : library.fromIsoFormat (replaceZ now) = some true
  hex_digits : isKnowledgeBaseId ("kb_" ++ hex) = true

/-- The store of a workspace -/
structure Config where
  path : String
  maxAdditional : Nat

abbrev Action := EStateM Failure File

/-- A step that does not touch the file -/
def attempt (outcome : Except Failure α) : Action α :=
  match outcome with
  | .ok value => pure value
  | .error failure => throw failure

/-- `id == value` -/
def isId (value : Value) (id : String) : Bool :=
  match value with
  | .str text => id == text
  | _ => false

/-- Put another record in the place of the first one that passes. -/
def replaceFirst (test : Record → Bool) (record : Record) : List Record → List Record
  | [] => []
  | first :: rest =>
      if test first then record :: rest else first :: replaceFirst test record rest

section

variable {library : Library} (config : Config) (surroundings : Surroundings library)

def loadUnlocked (library : Library) (config : Config) : Action (List Record) := do
  let file ← get
  attempt (loadFile library config.path file)

/-- `_write_unlocked`: a new file takes the place of the old one, or nothing changes. -/
def writeUnlocked (records : List Record) : Action Unit :=
  if surroundings.stored then modify fun _ => .document (catalogValue records)
  else throw .osError

/-- `_default_record` -/
def defaultRecord : Record where
  id := defaultId
  name := defaultName
  description := ""
  status := .active
  createdAt := surroundings.now
  updatedAt := surroundings.now
  deleteError := ""
  deleteRequesterApiKeyId := ""

def notFound : Failure :=
  .validation "Knowledge base non trovata" "knowledge_base_not_found" 404

def defaultKept : Failure :=
  .validation "La knowledge base default non può essere eliminata" "default_knowledge_base" 409

/-- `_find_record`, with the error of its callers -/
def findRecord (records : List Record) (id : Value) : Except Failure Record :=
  match records.find? fun record => isId id record.id with
  | some record => .ok record
  | none => .error notFound

/-- `_ensure_unique_name` -/
def ensureUniqueName (library : Library) (records : List Record) (name : String)
    (excludeId : Value) : Except Failure Unit :=
  if records.any fun record =>
      !isId excludeId record.id && library.casefold record.name == library.casefold name then
    .error (.validation "Esiste già una knowledge base con questo nome"
      "duplicate_knowledge_base_name" 409)
  else .ok ()

def isAdditional (record : Record) : Bool :=
  record.id != defaultId

def ensureDefault : Action Result := do
  match ← get with
  | .absent =>
      writeUnlocked surroundings [defaultRecord surroundings]
      return .catalog [(defaultRecord surroundings).public]
  | _ =>
      let records ← loadUnlocked library config
      return .catalog (records.map Record.public)

/-- The record `create` appends -/
def newRecord (name description : String) : Record where
  id := "kb_" ++ surroundings.hex
  name := name
  description := description
  status := .active
  createdAt := surroundings.now
  updatedAt := surroundings.now
  deleteError := ""
  deleteRequesterApiKeyId := ""

def create (name description : Value) : Action Result := do
  let normalizedName ← attempt (validateName name)
  let normalizedDescription ← attempt (validateDescription description)
  let records ← loadUnlocked library config
  if config.maxAdditional ≤ records.countP isAdditional then
    throw (.validation ("Limite di " ++ toString config.maxAdditional ++
      " knowledge base aggiuntive raggiunto") "knowledge_base_limit_reached" 409)
  else do
    attempt (ensureUniqueName library records normalizedName .null)
    let record := newRecord surroundings normalizedName normalizedDescription
    writeUnlocked surroundings (records ++ [record])
    return .record record.public

/-- The new name of a record, if one is given: checked against the names of the others -/
def updatedName (library : Library) (records : List Record) (record : Record) (id name : Value) :
    Except Failure String :=
  match name with
  | .null => .ok record.name
  | name => do
      let normalizedName ← validateName name
      ensureUniqueName library records normalizedName id
      .ok normalizedName

def updatedDescription (record : Record) (description : Value) : Except Failure String :=
  match description with
  | .null => .ok record.description
  | description => validateDescription description

def update (id name description : Value) : Action Result := do
  let records ← loadUnlocked library config
  let record ← attempt (findRecord records id)
  if record.status = .deleting then
    throw (.validation "Knowledge base in eliminazione" "knowledge_base_deleting" 409)
  else do
    let newName ← attempt (updatedName library records record id name)
    let newDescription ← attempt (updatedDescription record description)
    let updated := { record with
      name := newName
      description := newDescription
      updatedAt := surroundings.now }
    writeUnlocked surroundings (replaceFirst (fun record => isId id record.id) updated records)
    return .record updated.public

/-- `status not in KNOWLEDGE_BASE_STATUSES`, which fails for a value without a hash. -/
def checkStatus : Value → Except Failure Status
  | .str text =>
      match Status.ofText text with
      | some status => .ok status
      | none => .error (.validation "Stato knowledge base non valido" "invalid_knowledge_base" 400)
  | .list _ | .dict _ => .error .typeError
  | _ => .error (.validation "Stato knowledge base non valido" "invalid_knowledge_base" 400)

def setStatus (id status deleteError : Value) : Action Result := do
  let newStatus ← attempt (checkStatus status)
  let records ← loadUnlocked library config
  let record ← attempt (findRecord records id)
  if isId id defaultId ∧ newStatus ≠ .active then throw defaultKept
  else do
    let updated := { record with
      status := newStatus
      deleteError := truncate 1000 (library.textOf deleteError)
      deleteRequesterApiKeyId :=
        if newStatus = .active then "" else record.deleteRequesterApiKeyId
      updatedAt := surroundings.now }
    writeUnlocked surroundings (replaceFirst (fun record => isId id record.id) updated records)
    return .record updated.public

/-- The record `begin_delete` writes, if it writes one -/
def beginDeletion (record : Record) (requester : Value) : Option Record :=
  if record.status ≠ .deleting then
    some { record with
      status := .deleting
      deleteError := ""
      deleteRequesterApiKeyId := library.textOf requester
      updatedAt := surroundings.now }
  else if requester.truthy ∧ record.deleteRequesterApiKeyId = "" then
    some { record with
      deleteRequesterApiKeyId := library.str requester
      updatedAt := surroundings.now }
  else none

def beginDelete (id requester : Value) : Action Result := do
  if isId id defaultId then throw defaultKept
  else do
    let records ← loadUnlocked library config
    let record ← attempt (findRecord records id)
    match beginDeletion surroundings record requester with
    | some changed =>
        writeUnlocked surroundings (replaceFirst (fun record => isId id record.id) changed records)
        return .record changed.public
    | none => return .record record.public

def remove (id : Value) : Action Result := do
  if isId id defaultId then throw defaultKept
  else do
    let original ← loadUnlocked library config
    let remaining := original.filter fun record => !isId id record.id
    if remaining.length = original.length then return .removed false
    else do
      writeUnlocked surroundings remaining
      return .removed true

end

/-! ## Runs -/

inductive Call
  | create (name description : Value)
  | update (id name description : Value)
  | setStatus (id status deleteError : Value)
  | beginDelete (id requester : Value)
  | remove (id : Value)

variable {library : Library}

def perform (config : Config) (surroundings : Surroundings library) : Call → Action Result
  | .create name description => create config surroundings name description
  | .update id name description => update config surroundings id name description
  | .setStatus id status deleteError => setStatus config surroundings id status deleteError
  | .beginDelete id requester => beginDelete config surroundings id requester
  | .remove id => remove config surroundings id

/-- The file after a call, which may be rejected -/
def fileAfter (outcome : EStateM.Result Failure File Result) : File :=
  match outcome with
  | .ok _ file => file
  | .error _ file => file

/-- The file after calls one after the other -/
def afterCalls (config : Config) : File → List (Surroundings library × Call) → File
  | file, [] => file
  | file, (surroundings, call) :: rest =>
      afterCalls config (fileAfter (perform config surroundings call file)) rest

end RAGuardian.Catalog
