import RAGuardian.KnowledgeBases.Catalog

/-! # Runs of the catalog

Whatever calls reach the catalog, its file reads back as it was written. -/

namespace RAGuardian.Catalog

open Fallible Json Text
open Service (isKnowledgeBaseId validateKnowledgeBaseId)

variable {library : Library}

/-! ## What calls do to the records -/

/-- A valid time, as a record has it -/
structure Timely (library : Library) (timestamp : String) : Prop where
  written : timestamp ≠ ""
  unpadded : strip timestamp = timestamp
  aware : library.fromIsoFormat (replaceZ timestamp) = some true

/-- A record that reads back as it is -/
structure Record.Valid (library : Library) (record : Record) : Prop where
  id : validateId record.id = .ok record.id
  name : validateName (.str record.name) = .ok record.name
  description : validateDescription (.str record.description) = .ok record.description
  created : Timely library record.createdAt
  updated : Timely library record.updatedAt
  deleteError : truncate 1000 record.deleteError = record.deleteError

/-- What a call that writes does to the records -/
inductive Change (library : Library) (config : Config) (surroundings : Surroundings library) :
    List Record → List Record → Prop
  | created {records : List Record} {name description : String}
      (named : validateName (.str name) = .ok name)
      (described : validateDescription (.str description) = .ok description)
      (room : records.countP isAdditional < config.maxAdditional)
      (unused : ∀ other ∈ records, library.casefold other.name ≠ library.casefold name) :
      Change library config surroundings records
        (records ++ [newRecord surroundings name description])
  | renamed {front back : List Record} {old : Record} {name description : String}
      (kept : old.status ≠ .deleting)
      (named : name = old.name ∨ validateName (.str name) = .ok name ∧
        ∀ other ∈ front ++ back, other.id ≠ old.id →
          library.casefold other.name ≠ library.casefold name)
      (described : description = old.description ∨
        validateDescription (.str description) = .ok description) :
      Change library config surroundings (front ++ old :: back)
        (front ++ { old with
          name := name
          description := description
          updatedAt := surroundings.now } :: back)
  | restated {front back : List Record} {old : Record} {status : Status}
      {deleteError deleteRequesterApiKeyId : String}
      (protects : old.id = defaultId → status = .active)
      (short : deleteError = old.deleteError ∨ truncate 1000 deleteError = deleteError) :
      Change library config surroundings (front ++ old :: back)
        (front ++ { old with
          status := status
          deleteError := deleteError
          deleteRequesterApiKeyId := deleteRequesterApiKeyId
          updatedAt := surroundings.now } :: back)
  | removed {records : List Record} {id : String} (additional : id ≠ defaultId) :
      Change library config surroundings records (records.filter fun record => record.id != id)

/-- The file is as it was, or its records are changed. -/
def Changes (config : Config) (surroundings : Surroundings library) (file next : File) : Prop :=
  next = file ∨ ∃ records changed, loadFile library config.path file = .ok records ∧
    Change library config surroundings records changed ∧ next = .document (catalogValue changed)

theorem validateName_again {value : Value} {name : String} (valid : validateName value = .ok name) :
    validateName (.str name) = .ok name := by
  cases value with
  | str text =>
      unfold validateName at valid ⊢
      dsimp only at valid ⊢
      split at valid
      · rename_i fits
        cases valid
        rw [strip_strip, if_pos fits]
      · cases valid
  | _ => cases valid

theorem validateDescription_again {value : Value} {description : String}
    (valid : validateDescription value = .ok description) :
    validateDescription (.str description) = .ok description := by
  cases value with
  | str text =>
      unfold validateDescription at valid ⊢
      dsimp only at valid ⊢
      split at valid
      · cases valid
      · rename_i fits
        cases valid
        rw [strip_strip, if_neg fits]
  | _ => cases valid

theorem attempt_leads {outcome : Except Failure α} {file : File} :
    Leads (· = file) (attempt outcome) (fun value next => outcome = .ok value ∧ next = file)
      (· = file) := by
  cases outcome with
  | ok value => exact Leads.done fun _ same => ⟨rfl, same⟩
  | error failure => exact Leads.fail fun _ same => same

theorem loadUnlocked_leads {config : Config} {file : File} :
    Leads (· = file) (loadUnlocked library config)
      (fun records next => loadFile library config.path file = .ok records ∧ next = file)
      (· = file) :=
  Leads.readAt attempt_leads

section

variable {config : Config} {surroundings : Surroundings library} {file : File}

theorem writeUnlocked_leads {records : List Record} :
    Leads (· = file) (writeUnlocked surroundings records)
      (fun _ next => next = .document (catalogValue records)) (· = file) := by
  unfold writeUnlocked
  split
  · exact Leads.change
  · exact Leads.fail fun _ same => same

/-- Records that are changed are written, and the call returns. -/
theorem write_leads {records changed : List Record} {result : Result}
    (loaded : loadFile library config.path file = .ok records)
    (change : Change library config surroundings records changed) :
    Leads (· = file)
      (do writeUnlocked surroundings changed; return result)
      (fun _ next => Changes config surroundings file next) (· = file) := by
  refine Leads.bind writeUnlocked_leads fun _ => Leads.done ?_
  intro next written
  exact .inr ⟨records, changed, loaded, change, written⟩

theorem ensureUniqueName_ok {records : List Record} {name : String} {excludeId : Value}
    {result : Unit} (unique : ensureUniqueName library records name excludeId = .ok result) :
    ∀ other ∈ records, isId excludeId other.id = false →
      library.casefold other.name ≠ library.casefold name := by
  unfold ensureUniqueName at unique
  split at unique
  · cases unique
  · rename_i none
    intro other member apart same
    refine none (List.any_eq_true.mpr ⟨other, member, ?_⟩)
    simp [apart, same]

theorem isId_iff {value : Value} {id : String} : isId value id = true ↔ value = .str id := by
  cases value with
  | str text =>
      rw [isId, beq_iff_eq, Value.str.injEq]
      exact eq_comm
  | _ => simp [isId]

/-- The record that is found, and where another takes its place -/
theorem findRecord_ok {records : List Record} {id : Value} {record : Record}
    (found : findRecord records id = .ok record) : id = .str record.id ∧
      ∃ front back, records = front ++ record :: back ∧ ∀ changed,
        replaceFirst (fun record => isId id record.id) changed records =
          front ++ changed :: back := by
  unfold findRecord at found
  split at found
  · rename_i first search
    cases found
    obtain ⟨here, front, back, rfl, apart⟩ := List.find?_eq_some_iff_append.mp search
    refine ⟨isId_iff.mp here, front, back, rfl, ?_⟩
    intro changed
    clear search
    induction front with
    | nil => rw [List.nil_append, replaceFirst, if_pos here, List.nil_append]
    | cons other front induction =>
        have skipped : isId id other.id = false := by simpa using apart other List.mem_cons_self
        rw [List.cons_append, replaceFirst, skipped, if_neg Bool.false_ne_true,
          induction fun record member => apart record (List.mem_cons_of_mem _ member)]
        rfl
  · cases found

theorem create_leads (name description : Value) :
    Leads (· = file) (create config surroundings name description)
      (fun _ next => Changes config surroundings file next) (· = file) := by
  refine Leads.bind attempt_leads fun newName => Leads.given fun named => ?_
  refine Leads.bind attempt_leads fun newDescription => Leads.given fun described => ?_
  refine Leads.bind loadUnlocked_leads fun records => Leads.given fun loaded => ?_
  split
  · exact Leads.fail fun _ same => same
  · rename_i room
    refine Leads.bind attempt_leads fun _ => Leads.given fun unique => ?_
    apply write_leads loaded
    refine .created (validateName_again named) (validateDescription_again described) (by omega) ?_
    intro other member
    exact ensureUniqueName_ok unique other member rfl

theorem updatedName_ok {records : List Record} {record : Record} {id name : Value}
    {newName : String} (named : updatedName library records record id name = .ok newName) :
    newName = record.name ∨ validateName (.str newName) = .ok newName ∧
      ∀ other ∈ records, isId id other.id = false →
        library.casefold other.name ≠ library.casefold newName := by
  unfold updatedName at named
  split at named
  · cases named
    exact .inl rfl
  · cases valid : validateName name with
    | error failure =>
        rw [valid] at named
        cases named
    | ok normalized =>
        rw [valid] at named
        cases unique : ensureUniqueName library records normalized id with
        | error failure =>
            change (ensureUniqueName library records normalized id >>= fun _ => _) = _ at named
            rw [unique] at named
            cases named
        | ok result =>
            change (ensureUniqueName library records normalized id >>= fun _ => _) = _ at named
            rw [unique] at named
            cases named
            exact .inr ⟨validateName_again valid, ensureUniqueName_ok unique⟩

theorem updatedDescription_ok {record : Record} {description : Value} {newDescription : String}
    (described : updatedDescription record description = .ok newDescription) :
    newDescription = record.description ∨
      validateDescription (.str newDescription) = .ok newDescription := by
  unfold updatedDescription at described
  split at described
  · cases described
    exact .inl rfl
  · exact .inr (validateDescription_again described)

theorem update_leads (id name description : Value) :
    Leads (· = file) (update config surroundings id name description)
      (fun _ next => Changes config surroundings file next) (· = file) := by
  refine Leads.bind loadUnlocked_leads fun records => Leads.given fun loaded => ?_
  refine Leads.bind attempt_leads fun record => Leads.given fun found => ?_
  split
  · exact Leads.fail fun _ same => same
  · rename_i kept
    refine Leads.bind attempt_leads fun newName => Leads.given fun named => ?_
    refine Leads.bind attempt_leads fun newDescription => Leads.given fun described => ?_
    obtain ⟨rfl, front, back, rfl, replaced⟩ := findRecord_ok found
    dsimp only
    rw [replaced]
    apply write_leads loaded
    refine .renamed kept ?_ (updatedDescription_ok described)
    rcases updatedName_ok named with same | ⟨valid, unique⟩
    · exact .inl same
    · refine .inr ⟨valid, ?_⟩
      intro other member apart
      refine unique other ?_ (by simpa [isId] using apart)
      rcases List.mem_append.mp member with left | right
      · exact List.mem_append_left _ left
      · exact List.mem_append_right _ (List.mem_cons_of_mem _ right)

theorem setStatus_leads (id status deleteError : Value) :
    Leads (· = file) (setStatus config surroundings id status deleteError)
      (fun _ next => Changes config surroundings file next) (· = file) := by
  refine Leads.bind attempt_leads fun newStatus => Leads.given fun _ => ?_
  refine Leads.bind loadUnlocked_leads fun records => Leads.given fun loaded => ?_
  refine Leads.bind attempt_leads fun record => Leads.given fun found => ?_
  split
  · exact Leads.fail fun _ same => same
  · rename_i allowed
    obtain ⟨rfl, front, back, rfl, replaced⟩ := findRecord_ok found
    dsimp only
    rw [replaced]
    apply write_leads loaded
    refine .restated ?_ (.inr (truncate_truncate _ _))
    intro default
    by_contra inactive
    exact allowed ⟨isId_iff.mpr (by rw [default]), inactive⟩

theorem beginDelete_leads (id requester : Value) :
    Leads (· = file) (beginDelete config surroundings id requester)
      (fun _ next => Changes config surroundings file next) (· = file) := by
  unfold beginDelete
  split
  · exact Leads.fail fun _ same => same
  · rename_i additional
    refine Leads.bind loadUnlocked_leads fun records => Leads.given fun loaded => ?_
    refine Leads.bind attempt_leads fun record => Leads.given fun found => ?_
    obtain ⟨rfl, front, back, rfl, replaced⟩ := findRecord_ok found
    have apart : record.id ≠ defaultId := fun default =>
      additional (isId_iff.mpr (by rw [default]))
    split
    · rename_i changed begun
      rw [replaced]
      apply write_leads loaded
      unfold beginDeletion at begun
      split at begun
      · cases begun
        exact .restated (fun default => absurd default apart) (.inr rfl)
      · split at begun
        · cases begun
          exact .restated (fun default => absurd default apart) (.inl rfl)
        · cases begun
    · exact Leads.done fun _ same => .inl same

theorem remove_leads (id : Value) :
    Leads (· = file) (remove config surroundings id)
      (fun _ next => Changes config surroundings file next) (· = file) := by
  unfold remove
  split
  · exact Leads.fail fun _ same => same
  · rename_i additional
    refine Leads.bind loadUnlocked_leads fun records => Leads.given fun loaded => ?_
    dsimp only
    split
    · exact Leads.done fun _ same => .inl same
    · rename_i shorter
      apply write_leads loaded
      cases id with
      | str text =>
          have same : (records.filter fun record => !isId (.str text) record.id) =
              records.filter fun record => record.id != text := rfl
          rw [same]
          refine .removed ?_
          rintro rfl
          exact additional rfl
      | _ => exact absurd (by simp [isId]) shorter

theorem perform_leads (call : Call) :
    Leads (· = file) (perform config surroundings call)
      (fun _ next => Changes config surroundings file next) (· = file) := by
  cases call with
  | create name description => exact create_leads name description
  | update id name description => exact update_leads id name description
  | setStatus id status deleteError => exact setStatus_leads id status deleteError
  | beginDelete id requester => exact beginDelete_leads id requester
  | remove id => exact remove_leads id

end

/-! ## Sound catalogs -/

/-- The records of a catalog that reads back: the default one is active, nothing is there twice,
and there are at most so many further ones. -/
structure Sound (library : Library) (config : Config) (records : List Record) : Prop where
  valid : ∀ record ∈ records, record.Valid library
  ids : (records.map Record.id).Nodup
  names : (records.map fun record => library.casefold record.name).Nodup
  oneDefault : records.countP (·.id == defaultId) = 1
  defaultActive : ∀ record ∈ records, record.id = defaultId → record.status = .active
  limited : records.countP isAdditional ≤ config.maxAdditional

theorem Timely.validates {timestamp : String} (timely : Timely library timestamp)
    (path field : String) :
    validateTimestamp library path field (.str timestamp) = .ok timestamp := by
  unfold validateTimestamp
  rw [Library.textOf_text, timely.unpadded]
  dsimp only
  rw [if_neg timely.written, timely.aware]

/-- A valid record is accepted as it is, if its id and its name are new. -/
theorem validateRecord_value {record : Record} (valid : record.Valid library) {path : String}
    {ids names : List String} (newId : record.id ∉ ids)
    (newName : library.casefold record.name ∉ names) :
    validateRecord library path ids names record.value = .ok record := by
  have id : Value.lookup record.entries "id" = .str record.id := rfl
  have name : Value.lookup record.entries "name" = .str record.name := rfl
  have description : Value.lookup record.entries "description" = .str record.description := rfl
  have status : Value.lookup record.entries "status" = .str record.status.text := rfl
  have created : Value.lookup record.entries "created_at" = .str record.createdAt := rfl
  have updated : Value.lookup record.entries "updated_at" = .str record.updatedAt := rfl
  have deleteError : Value.lookup record.entries "delete_error" = .str record.deleteError := rfl
  have requester : Value.lookup record.entries "delete_requester_api_key_id" =
    .str record.deleteRequesterApiKeyId := rfl
  have unused : ¬(record.id ∈ ids ∨ library.casefold record.name ∈ names) := not_or.mpr
    ⟨newId, newName⟩
  have step {α β : Type} (value : α) (rest : α → Except Failure β) :
      (Except.ok value >>= rest) = rest value := rfl
  unfold Record.value validateRecord
  simp only [id, name, description, status, created, updated, deleteError, requester,
    Library.textOf_text, Status.ofText_text, valid.id, valid.name, valid.description, ofRecord,
    step, if_neg unused, valid.created.validates, valid.updated.validates, valid.deleteError]

theorem validateRecords_value (path : String) (ids names : List String) {records : List Record}
    (valid : ∀ record ∈ records, record.Valid library)
    (distinctIds : (records.map Record.id).Nodup)
    (distinctNames : (records.map fun record => library.casefold record.name).Nodup)
    (newIds : ∀ record ∈ records, record.id ∉ ids)
    (newNames : ∀ record ∈ records, library.casefold record.name ∉ names) :
    validateRecords library path ids names (records.map Record.value) = .ok records := by
  induction records generalizing ids names with
  | nil => rfl
  | cons record records induction =>
      rw [List.map_cons, List.nodup_cons] at distinctIds distinctNames
      have others : validateRecords library path (record.id :: ids)
          (library.casefold record.name :: names) (records.map Record.value) = .ok records := by
        apply induction
        · exact fun other member => valid other (List.mem_cons_of_mem _ member)
        · exact distinctIds.2
        · exact distinctNames.2
        · intro other member
          rw [List.mem_cons, not_or]
          refine ⟨?_, newIds other (List.mem_cons_of_mem _ member)⟩
          intro same
          exact distinctIds.1 (same ▸ List.mem_map_of_mem member)
        · intro other member
          rw [List.mem_cons, not_or]
          refine ⟨?_, newNames other (List.mem_cons_of_mem _ member)⟩
          intro same
          exact distinctNames.1
            (same ▸ List.mem_map_of_mem (f := fun record => library.casefold record.name) member)
      rw [List.map_cons, validateRecords, validateRecord_value (valid record List.mem_cons_self)
        (newIds record List.mem_cons_self) (newNames record List.mem_cons_self)]
      change (validateRecords library path (record.id :: ids)
        (library.casefold record.name :: names) (records.map Record.value) >>= fun _ => _) = _
      rw [others]
      rfl

/-- A sound catalog reads back as it was written. -/
theorem Sound.reads {config : Config} {records : List Record}
    (sound : Sound library config records) (path : String) :
    loadFile library path (.document (catalogValue records)) = .ok records := by
  cases records with
  | nil =>
      have none := sound.oneDefault
      simp at none
  | cons record records =>
      have version (list : Value) : Value.lookup [("knowledge_bases", list),
          ("schema_version", .int schemaVersion)] "schema_version" = .int schemaVersion := rfl
      have entry (list : Value) : Value.lookup [("knowledge_bases", list),
          ("schema_version", .int schemaVersion)] "knowledge_bases" = list := rfl
      have all := validateRecords_value path [] [] sound.valid
        sound.ids sound.names (fun _ _ => List.not_mem_nil) (fun _ _ => List.not_mem_nil)
      rw [List.map_cons] at all
      rw [loadFile, catalogValue, validateCatalog, version, entry, List.map_cons]
      change (validateRecords library path [] [] (record.value :: records.map Record.value) >>=
        fun _ => _) = _
      rw [all]
      change (if (record :: records).countP (·.id == defaultId) ≠ 1 then _ else _) = _
      rw [if_neg (not_not.mpr sound.oneDefault)]

section

variable {config : Config} {surroundings : Surroundings library} {records changed : List Record}

theorem now_timely (surroundings : Surroundings library) : Timely library surroundings.now :=
  ⟨surroundings.now_written, surroundings.now_unpadded, surroundings.now_aware⟩

theorem newId_ne_default (surroundings : Surroundings library) :
    "kb_" ++ surroundings.hex ≠ defaultId := by
  intro same
  have identifier := surroundings.hex_digits
  rw [same] at identifier
  exact absurd identifier (by decide)

theorem newRecord_valid {name description : String} (named : validateName (.str name) = .ok name)
    (described : validateDescription (.str description) = .ok description) :
    (newRecord surroundings name description).Valid library where
  id := by
    unfold validateId newRecord
    rw [Service.validateKnowledgeBaseId_self surroundings.hex_digits]
  name := named
  description := described
  created := now_timely surroundings
  updated := now_timely surroundings
  deleteError := rfl

/-- A record in the place of one with its id leaves the counts by the id as they are. -/
theorem Sound.replace {front back : List Record} {old new : Record}
    (sound : Sound library config (front ++ old :: back)) (sameId : new.id = old.id)
    (valid : new.Valid library) (protects : old.id = defaultId → new.status = .active)
    (named : ∀ other ∈ front ++ back, library.casefold other.name ≠ library.casefold new.name) :
    Sound library config (front ++ new :: back) where
  valid := by
    intro record member
    rcases List.mem_append.mp member with left | right
    · exact sound.valid record (List.mem_append_left _ left)
    · rcases List.mem_cons.mp right with rfl | later
      · exact valid
      · exact sound.valid record (List.mem_append_right _ (List.mem_cons_of_mem _ later))
  ids := by
    have ids := sound.ids
    rw [List.map_append, List.map_cons] at ids ⊢
    rwa [sameId]
  names := by
    have names := sound.names
    rw [List.map_append, List.map_cons, List.nodup_middle, ← List.map_append,
      List.nodup_cons] at names ⊢
    refine ⟨?_, names.2⟩
    intro taken
    obtain ⟨other, member, same⟩ := List.mem_map.mp taken
    exact named other member same
  oneDefault := by
    have oneDefault := sound.oneDefault
    rw [List.countP_append, List.countP_cons] at oneDefault ⊢
    rwa [sameId]
  defaultActive := by
    intro record member default
    rcases List.mem_append.mp member with left | right
    · exact sound.defaultActive record (List.mem_append_left _ left) default
    · rcases List.mem_cons.mp right with rfl | later
      · exact protects (sameId ▸ default)
      · exact sound.defaultActive record
          (List.mem_append_right _ (List.mem_cons_of_mem _ later)) default
  limited := by
    have limited := sound.limited
    rw [List.countP_append, List.countP_cons] at limited ⊢
    unfold isAdditional at limited ⊢
    rwa [sameId]

/-- The names of the other records differ from that of a record. -/
theorem Sound.others {front back : List Record} {old : Record}
    (sound : Sound library config (front ++ old :: back)) :
    (∀ other ∈ front ++ back, other.id ≠ old.id) ∧
      ∀ other ∈ front ++ back, library.casefold other.name ≠ library.casefold old.name := by
  have ids := sound.ids
  have names := sound.names
  rw [List.map_append, List.map_cons, List.nodup_middle, ← List.map_append,
    List.nodup_cons] at ids names
  constructor
  · intro other member same
    exact ids.1 (List.mem_map.mpr ⟨other, member, same⟩)
  · intro other member same
    exact names.1 (List.mem_map.mpr ⟨other, member, same⟩)

/-- A call keeps the catalog sound, if the random id it draws is not in use. -/
theorem Sound.change (sound : Sound library config records)
    (change : Change library config surroundings records changed)
    (unused : ∀ record ∈ records, record.id ≠ "kb_" ++ surroundings.hex) :
    Sound library config changed := by
  cases change with
  | @created _ name description named described room unnamed =>
      exact {
        valid := by
          intro record member
          rcases List.mem_append.mp member with before | last
          · exact sound.valid record before
          · rw [List.mem_singleton.mp last]
            exact newRecord_valid named described
        ids := by
          rw [List.map_append, List.nodup_append]
          refine ⟨sound.ids, List.nodup_singleton _, ?_⟩
          intro id member other last
          obtain ⟨record, listed, rfl⟩ := List.mem_map.mp member
          rw [List.mem_singleton.mp last]
          exact unused record listed
        names := by
          rw [List.map_append, List.nodup_append]
          refine ⟨sound.names, List.nodup_singleton _, ?_⟩
          intro folded member other last
          obtain ⟨record, listed, rfl⟩ := List.mem_map.mp member
          rw [List.mem_singleton.mp last]
          exact unnamed record listed
        oneDefault := by
          have apart : ((newRecord surroundings name description).id == defaultId) = false :=
            beq_eq_false_iff_ne.mpr (newId_ne_default surroundings)
          rw [List.countP_append, List.countP_singleton, apart, sound.oneDefault]
          rfl
        defaultActive := by
          intro record member default
          rcases List.mem_append.mp member with before | last
          · exact sound.defaultActive record before default
          · rw [List.mem_singleton.mp last]
            rfl
        limited := by
          rw [List.countP_append, List.countP_singleton]
          split <;> omega }
  | @renamed front back old name description kept named described =>
      have valid := sound.valid old (by simp)
      apply sound.replace
      · rfl
      · exact {
          id := valid.id
          name := by
            rcases named with rfl | ⟨named, -⟩
            · exact valid.name
            · exact named
          description := by
            rcases described with rfl | described
            · exact valid.description
            · exact described
          created := valid.created
          updated := now_timely surroundings
          deleteError := valid.deleteError }
      · exact sound.defaultActive old (by simp)
      · intro other member
        rcases named with rfl | ⟨-, unnamed⟩
        · exact sound.others.2 other member
        · exact unnamed other member (sound.others.1 other member)
  | @restated front back old status deleteError requester protects short =>
      have valid := sound.valid old (by simp)
      apply sound.replace
      · rfl
      · exact {
          id := valid.id
          name := valid.name
          description := valid.description
          created := valid.created
          updated := now_timely surroundings
          deleteError := by
            rcases short with rfl | short
            · exact valid.deleteError
            · exact short }
      · exact protects
      · exact sound.others.2
  | @removed _ id additional =>
      have rest : (records.filter fun record => record.id != id).Sublist records :=
        List.filter_sublist
      exact {
        valid := fun record member => sound.valid record (rest.mem member)
        ids := (rest.map _).nodup sound.ids
        names := (rest.map _).nodup sound.names
        oneDefault := by
          rw [List.countP_filter, ← sound.oneDefault]
          apply List.countP_congr
          intro record _
          simp only [Bool.and_eq_true, beq_iff_eq, bne_iff_ne, ne_eq, and_iff_left_iff_imp]
          rintro default
          rw [default]
          exact Ne.symm additional
        defaultActive := fun record member => sound.defaultActive record (rest.mem member)
        limited := (List.Sublist.countP_le rest).trans sound.limited }

/-- The ids of the further records are drawn. -/
def Drawn (used : List String) (records : List Record) : Prop :=
  ∀ record ∈ records, record.id = defaultId ∨ ∃ hex ∈ used, record.id = "kb_" ++ hex

theorem Drawn.change {used : List String} (drawn : Drawn used records)
    (change : Change library config surroundings records changed) :
    Drawn (used ++ [surroundings.hex]) changed := by
  have before : ∀ record ∈ records,
      record.id = defaultId ∨ ∃ hex ∈ used ++ [surroundings.hex], record.id = "kb_" ++ hex := by
    intro record member
    rcases drawn record member with default | ⟨hex, known, same⟩
    · exact .inl default
    · exact .inr ⟨hex, List.mem_append_left _ known, same⟩
  have replaced : ∀ front back old new, records = front ++ old :: back → new.id = old.id →
      Drawn (used ++ [surroundings.hex]) (front ++ new :: back) := by
    rintro front back old new rfl sameId record member
    rcases List.mem_append.mp member with left | right
    · exact before record (List.mem_append_left _ left)
    · rcases List.mem_cons.mp right with rfl | right
      · rw [sameId]
        exact before old (List.mem_append_right _ List.mem_cons_self)
      · exact before record (List.mem_append_right _ (List.mem_cons_of_mem _ right))
  cases change with
  | created named described room unnamed =>
      intro record member
      rcases List.mem_append.mp member with earlier | last
      · exact before record earlier
      · rw [List.mem_singleton.mp last]
        exact .inr ⟨surroundings.hex, by simp, rfl⟩
  | renamed kept named described => exact replaced _ _ _ _ rfl rfl
  | restated protects short => exact replaced _ _ _ _ rfl rfl
  | removed additional => exact fun record member => before record (List.mem_filter.mp member).1

theorem Drawn.unused {used : List String} (drawn : Drawn used records)
    (new : surroundings.hex ∉ used) :
    ∀ record ∈ records, record.id ≠ "kb_" ++ surroundings.hex := by
  intro record member same
  rcases drawn record member with default | ⟨hex, known, id⟩
  · exact newId_ne_default surroundings (same.symm.trans default)
  · rw [id] at same
    exact new ((String.append_right_inj "kb_").mp same ▸ known)

/-- A record that is being deleted keeps its name and its description. -/
theorem Change.deleting (change : Change library config surroundings records changed)
    (ids : (records.map Record.id).Nodup)
    (unused : ∀ record ∈ records, record.id ≠ "kb_" ++ surroundings.hex) :
    ∀ old ∈ records, old.status = .deleting → ∀ new ∈ changed, new.id = old.id →
      new.name = old.name ∧ new.description = old.description := by
  have itself : ∀ old ∈ records, ∀ new ∈ records, new.id = old.id →
      new.name = old.name ∧ new.description = old.description := by
    intro old listed new member same
    rw [List.inj_on_of_nodup_map ids member listed same]
    exact ⟨rfl, rfl⟩
  intro old listed deleting new member same
  cases change with
  | created named described room unnamed =>
      rcases List.mem_append.mp member with earlier | last
      · exact itself old listed new earlier same
      · rw [List.mem_singleton.mp last] at same
        exact absurd same.symm (unused old listed)
  | @renamed front back record name description kept named described =>
      rcases List.mem_append.mp member with left | right
      · exact itself old listed new (List.mem_append_left _ left) same
      · rcases List.mem_cons.mp right with rfl | right
        · have here : record = old :=
            List.inj_on_of_nodup_map ids (by simp) listed same
          exact absurd (here ▸ deleting) kept
        · exact itself old listed new
            (List.mem_append_right _ (List.mem_cons_of_mem _ right)) same
  | @restated front back record status deleteError requester protects short =>
      rcases List.mem_append.mp member with left | right
      · exact itself old listed new (List.mem_append_left _ left) same
      · rcases List.mem_cons.mp right with rfl | right
        · exact itself old listed record (by simp) same
        · exact itself old listed new
            (List.mem_append_right _ (List.mem_cons_of_mem _ right)) same
  | removed additional => exact itself old listed new (List.mem_filter.mp member).1 same

end

/-! ## Runs -/

/-- A file that holds a sound catalog, whose further ids are drawn -/
structure Holds (library : Library) (config : Config) (used : List String) (file : File)
    (records : List Record) : Prop where
  written : file = .document (catalogValue records)
  sound : Sound library config records
  drawn : Drawn used records

section

variable {config : Config} {surroundings : Surroundings library} {file : File}
  {records : List Record} {used : List String}

theorem Holds.reads (holds : Holds library config used file records) :
    loadFile library config.path file = .ok records := by
  rw [holds.written]
  exact holds.sound.reads config.path

/-- A call leaves a sound catalog, with the records that are being deleted as they were. -/
theorem Holds.perform (holds : Holds library config used file records)
    (new : surroundings.hex ∉ used) (call : Call) : ∃ changed,
      Holds library config (used ++ [surroundings.hex])
        (fileAfter (perform config surroundings call file)) changed ∧
      (∀ failure next, Catalog.perform config surroundings call file = .error failure next →
        changed = records ∧ next = file) ∧
      ∀ old ∈ records, old.status = .deleting → ∀ new ∈ changed, new.id = old.id →
        new.name = old.name ∧ new.description = old.description := by
  have unused := holds.drawn.unused new
  have still : Holds library config (used ++ [surroundings.hex]) file records := {
    written := holds.written
    sound := holds.sound
    drawn := by
      intro record member
      rcases holds.drawn record member with default | ⟨hex, known, same⟩
      · exact .inl default
      · exact .inr ⟨hex, List.mem_append_left _ known, same⟩ }
  have unchanged : ∀ old ∈ records, old.status = .deleting → ∀ new ∈ records, new.id = old.id →
      new.name = old.name ∧ new.description = old.description := by
    intro old listed _ new member same
    rw [List.inj_on_of_nodup_map holds.sound.ids member listed same]
    exact ⟨rfl, rfl⟩
  have leads : Leads (· = file) (Catalog.perform config surroundings call)
      (fun _ next => Changes config surroundings file next) (· = file) := perform_leads call
  cases outcome : Catalog.perform config surroundings call file with
  | error failure next =>
      obtain rfl := leads.error rfl outcome
      refine ⟨records, still, ?_, unchanged⟩
      intro _ _ same
      cases same
      exact ⟨rfl, rfl⟩
  | ok result next =>
      have accepted : ∀ (failure : Failure) rest,
          EStateM.Result.ok result next ≠ .error failure rest := by
        intro _ _ same
        cases same
      rcases leads.ok rfl outcome with rfl | ⟨loaded, changed, reads, change, rfl⟩
      · exact ⟨records, still, fun _ _ same => absurd same (accepted _ _), unchanged⟩
      · rw [holds.reads] at reads
        cases reads
        exact ⟨changed, ⟨rfl, holds.sound.change change unused, holds.drawn.change change⟩,
          fun _ _ same => absurd same (accepted _ _), change.deleting holds.sound.ids unused⟩

theorem Holds.afterCalls (holds : Holds library config used file records)
    {calls : List (Surroundings library × Call)}
    (own : (used ++ calls.map fun call => call.1.hex).Nodup) : ∃ changed,
      Holds library config (used ++ calls.map fun call => call.1.hex)
        (afterCalls config file calls) changed := by
  induction calls generalizing file records used with
  | nil =>
      rw [List.map_nil, List.append_nil]
      exact ⟨records, holds⟩
  | cons call calls induction =>
      have new : call.1.hex ∉ used := by
        intro known
        rw [List.map_cons, List.nodup_append] at own
        exact own.2.2 _ known _ List.mem_cons_self rfl
      obtain ⟨changed, next, -⟩ := holds.perform new call.2
      rw [List.map_cons, List.append_cons] at own ⊢
      exact induction next own

end

/-- What a reader of a catalog can rely on -/
structure WellKept (library : Library) (config : Config) (records : List Record) (file : File) :
    Prop where
  written : file = .document (catalogValue records)
  reads : loadFile library config.path file = .ok records
  ids : (records.map Record.id).Nodup
  names : (records.map fun record => library.casefold record.name).Nodup
  oneDefault : records.countP (·.id == defaultId) = 1
  defaultActive : ∀ record ∈ records, record.id = defaultId → record.status = .active
  limited : records.countP isAdditional ≤ config.maxAdditional

theorem Holds.wellKept {config : Config} {used : List String} {file : File}
    {records : List Record} (holds : Holds library config used file records) :
    WellKept library config records file where
  written := holds.written
  reads := holds.reads
  ids := holds.sound.ids
  names := holds.sound.names
  oneDefault := holds.sound.oneDefault
  defaultActive := holds.sound.defaultActive
  limited := holds.sound.limited

/-- The catalog a workspace starts with is sound. -/
theorem ensureDefault_holds {config : Config} {surroundings : Surroundings library}
    {result : Result} {file : File}
    (started : ensureDefault config surroundings .absent = .ok result file) :
    Holds library config [] file [defaultRecord surroundings] := by
  have written : file = .document (catalogValue [defaultRecord surroundings]) := by
    change (writeUnlocked surroundings [defaultRecord surroundings] >>= fun _ => _) _ = _ at started
    obtain ⟨_, next, stored, returned⟩ := bind_returns started
    cases returned
    have leads : Leads (· = .absent) (writeUnlocked surroundings [defaultRecord surroundings])
        (fun _ next => next = .document (catalogValue [defaultRecord surroundings]))
        (· = .absent) := writeUnlocked_leads
    exact leads.ok rfl stored
  have id : validateId defaultId = .ok defaultId := by decide
  have name : validateName (.str defaultName) = .ok defaultName := by decide +kernel
  have description : validateDescription (.str "") = .ok "" := by decide
  refine ⟨written, ?_, ?_⟩
  · exact {
      valid := by
        intro record member
        rw [List.mem_singleton.mp member]
        exact {
          id := id
          name := name
          description := description
          created := now_timely surroundings
          updated := now_timely surroundings
          deleteError := rfl }
      ids := List.nodup_singleton _
      names := List.nodup_singleton _
      oneDefault := rfl
      defaultActive := fun record member _ => by rw [List.mem_singleton.mp member]; rfl
      limited := Nat.zero_le _ }
  · intro record member
    rw [List.mem_singleton.mp member]
    exact .inl rfl

theorem afterCalls_append (config : Config) (file : File)
    (calls later : List (Surroundings library × Call)) :
    afterCalls config file (calls ++ later) =
      afterCalls config (afterCalls config file calls) later := by
  induction calls generalizing file with
  | nil => rfl
  | cons call calls induction => exact induction _

theorem Library.sample_text (text : String) : (Value.str text).scalarText.getD "" = text :=
  rfl

/-- A library that knows one time. -/
def Library.sample : Library where
  str value := value.scalarText.getD ""
  str_text := sample_text
  casefold := lower
  fromIsoFormat text := if text = "2025-01-01T00:00:00+00:00" then some true else none

theorem sample_now : ("2025-01-01T00:00:00+00:00" : String) ≠ "" ∧
    strip "2025-01-01T00:00:00+00:00" = "2025-01-01T00:00:00+00:00" ∧
    Library.sample.fromIsoFormat (replaceZ "2025-01-01T00:00:00+00:00") = some true := by
  decide +kernel

theorem sample_hex : isKnowledgeBaseId ("kb_" ++ "0123456789abcdef0123456789abcdef") = true := by
  decide +kernel

def Surroundings.sample : Surroundings .sample where
  now := "2025-01-01T00:00:00+00:00"
  hex := "0123456789abcdef0123456789abcdef"
  stored := true
  now_written := sample_now.1
  now_unpadded := sample_now.2.1
  now_aware := sample_now.2.2
  hex_digits := sample_hex

theorem perform_changes (config : Config) (surroundings : Surroundings library) (call : Call)
    (file : File) :
    Changes config surroundings file (fileAfter (perform config surroundings call file)) := by
  have leads : Leads (· = file) (perform config surroundings call)
      (fun _ next => Changes config surroundings file next) (· = file) := perform_leads call
  cases outcome : perform config surroundings call file with
  | error failure next => exact .inl (leads.error rfl outcome)
  | ok result next => exact leads.ok rfl outcome

/-- No run of calls changes a file that does not load. -/
theorem unreadable_kept {config : Config} {file : File} {failure : Failure}
    (unreadable : loadFile library config.path file = .error failure)
    (calls : List (Surroundings library × Call)) : afterCalls config file calls = file := by
  induction calls with
  | nil => rfl
  | cons call calls induction =>
      rcases perform_changes config call.1 call.2 file with same | ⟨records, changed, loaded, -⟩
      · exact (congrArg (afterCalls config · calls) same).trans induction
      · cases unreadable.symm.trans loaded

theorem unreadable_kept_undecodable :
    afterCalls ⟨"catalog.json", 20⟩ .undecodable
      [(Surroundings.sample, .create (.str "Notes") (.str ""))] = .undecodable :=
  unreadable_kept rfl _

/-! ## Ids -/

/-- The ids a file lists, if it loads. -/
def catalogIds (library : Library) (config : Config) (file : File) : List String :=
  match loadFile library config.path file with
  | .ok records => records.map Record.id
  | .error _ => []

section

variable {config : Config} {file : File} {records changed : List Record} {used : List String}

theorem Change.ids {surroundings : Surroundings library}
    (change : Change library config surroundings records changed) {id : String}
    (listed : id ∈ changed.map Record.id) :
    id ∈ records.map Record.id ∨ id = "kb_" ++ surroundings.hex := by
  cases change with
  | created => simpa [newRecord] using listed
  | removed => exact .inl ((List.filter_sublist.map Record.id).subset listed)
  | _ => exact .inl (by simpa using listed)

/-- Calls add no ids but those they draw. -/
theorem Holds.ids_afterCalls (holds : Holds library config used file records)
    {calls : List (Surroundings library × Call)}
    (own : (used ++ calls.map fun call => call.1.hex).Nodup) {id : String}
    (listed : id ∈ catalogIds library config (Catalog.afterCalls config file calls)) :
    id ∈ records.map Record.id ∨ ∃ call ∈ calls, id = "kb_" ++ call.1.hex := by
  induction calls generalizing file records used with
  | nil =>
      rw [Catalog.afterCalls, catalogIds, holds.reads] at listed
      exact .inl listed
  | cons call calls induction =>
      rw [List.map_cons, List.append_cons] at own
      have new : call.1.hex ∉ used := fun known =>
        List.disjoint_of_nodup_append (List.nodup_append.mp own).1 known List.mem_cons_self
      obtain ⟨changed, next, -⟩ := holds.perform new call.2
      rcases induction next own listed with there | ⟨drawing, member, drawn⟩
      · rcases perform_changes config call.1 call.2 file with
          same | ⟨_, written, reads, change, same⟩
        · rw [same] at next
          cases holds.reads.symm.trans next.reads
          exact .inl there
        · cases holds.reads.symm.trans reads
          have sound := holds.sound.change change (holds.drawn.unused new)
          rw [same] at next
          cases next.reads.symm.trans (sound.reads _)
          exact (change.ids there).imp_right fun drawn => ⟨call, List.mem_cons_self, drawn⟩
      · exact .inr ⟨drawing, List.mem_cons_of_mem _ member, drawn⟩

end

theorem later_hex : isKnowledgeBaseId ("kb_" ++ "fedcba9876543210fedcba9876543210") = true := by
  decide +kernel

end RAGuardian.Catalog
