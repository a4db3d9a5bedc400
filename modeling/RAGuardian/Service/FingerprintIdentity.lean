import RAGuardian.Service.Fingerprint

/-! # What fingerprints identify

Equal fingerprints and equal parameters, up to the order of the keys of dictionaries. -/

namespace RAGuardian.Fingerprint

open Json (FloatText IsJson)

/-! ## Equal arguments -/

/-- A value that a JSON document can hold -/
inductive JsonValued : Argument → Prop
  | none : JsonValued .none
  | flag (value : Bool) : JsonValued (.flag value)
  | integer (value : Int) : JsonValued (.integer value)
  | float {representation : String} (text : FloatText representation) :
      JsonValued (.float (.finite representation))
  | text (value : String) : JsonValued (.text value)
  | list {items : List Argument} (members : ∀ item ∈ items, JsonValued item) :
      JsonValued (.list items)
  | dict {entries : List (Key × Argument)}
      (texts : ∀ entry ∈ entries, ∃ name, entry.1 = .text name)
      (distinct : (entries.map Prod.fst).Nodup)
      (members : ∀ entry ∈ entries, JsonValued entry.2) : JsonValued (.dict entries)

mutual
/-- Equality of values: of dictionaries, whatever the order of their keys. -/
def Same : Argument → Argument → Prop
  | .list items, other => ∃ others, other = .list others ∧ SameItems items others
  | .dict entries, other => ∃ others, other = .dict others ∧
      entries.length = others.length ∧ SameEntries entries others
  | value, other => other = value

def SameItems : List Argument → List Argument → Prop
  | [], others => others = []
  | item :: items, others =>
      ∃ other rest, others = other :: rest ∧ Same item other ∧ SameItems items rest

def SameEntries : List (Key × Argument) → List (Key × Argument) → Prop
  | [], _ => True
  | (key, value) :: entries, others =>
      (∃ other, (key, other) ∈ others ∧ Same value other) ∧ SameEntries entries others
end

/-- Two requests that agree on all that a fingerprint is made of -/
structure Agree (library : Library) (request other : Request) : Prop where
  query : request.query = other.query
  model : request.model.getD "" = other.model.getD ""
  provider : request.provider.getD "" = other.provider.getD ""
  temperature : request.temperature.map library.rounded = other.temperature.map library.rounded
  k : request.k = other.k
  knowledgeBaseIds : (request.knowledgeBaseIds.getD []).Perm (other.knowledgeBaseIds.getD [])
  systemPromptId : request.systemPromptId.getD "" = other.systemPromptId.getD ""
  systemPromptScope : request.systemPromptScope.getD "" = other.systemPromptScope.getD ""
  agentId : request.agentId.getD "" = other.agentId.getD ""
  responseLanguage : request.responseLanguage.getD "" = other.responseLanguage.getD ""
  clientContext : Same (.dict (request.clientContext.getD [])) (.dict (other.clientContext.getD []))
  useCodeInterpreter : request.useCodeInterpreter = other.useCodeInterpreter
  attachments : request.attachments library = other.attachments library
  extra : Same (.dict (request.extra.getD [])) (.dict (other.extra.getD []))

/-! ## JSON values of arguments -/

/-- The JSON value that is written for an argument -/
def Argument.json (value : Argument) : Json.Value :=
  value.toJson.getD .null

/-- The entries of a dictionary as they are written, in the order of the dictionary -/
def written (entries : List (Key × Argument)) : List (String × Json.Value) :=
  entries.map fun entry => (entry.1.spelled, entry.2.json)

theorem toJsonItems_eq {items : List Argument}
    (all : ∀ item ∈ items, item.toJson = some item.json) :
    Argument.toJsonItems items = some (items.map Argument.json) := by
  induction items with
  | nil => rfl
  | cons item items induction =>
      rw [Argument.toJsonItems, all item List.mem_cons_self,
        induction fun item member => all item (List.mem_cons_of_mem _ member)]
      rfl

theorem toJsonEntries_eq {entries : List (Key × Argument)}
    (all : ∀ entry ∈ entries, entry.2.toJson = some entry.2.json) :
    Argument.toJsonEntries entries = some (entries.map fun entry => (entry.1, entry.2.json)) := by
  induction entries with
  | nil => rfl
  | cons entry entries induction =>
      obtain ⟨key, value⟩ := entry
      have own := all (key, value) List.mem_cons_self
      rw [Argument.toJsonEntries, own,
        induction fun entry member => all entry (List.mem_cons_of_mem _ member)]
      rfl

theorem sortedEntries_texts {α : Type} {entries : List (Key × α)}
    (texts : ∀ entry ∈ entries, ∃ name, entry.1 = .text name) :
    sortedEntries entries = some (Keyed.sortBy (fun entry => entry.1.text?.getD "") entries) := by
  have all : entries.all (fun entry => entry.1.text?.isSome) = true := by
    rw [List.all_eq_true]
    intro entry member
    obtain ⟨name, same⟩ := texts entry member
    rw [same]
    rfl
  rw [sortedEntries, if_pos all]

/-- A dictionary with texts as keys is written in the order of these texts. -/
theorem toJson_dict {entries : List (Key × Argument)}
    (texts : ∀ entry ∈ entries, ∃ name, entry.1 = .text name)
    (all : ∀ entry ∈ entries, entry.2.toJson = some entry.2.json) :
    (Argument.dict entries).toJson = some (.dict (Keyed.sortBy Prod.fst (written entries))) := by
  have members : ∀ entry ∈ entries.map (fun entry => (entry.1, entry.2.json)),
      ∃ name, entry.1 = Key.text name := by
    intro entry member
    obtain ⟨original, listed, rfl⟩ := List.mem_map.mp member
    exact texts original listed
  have ordered : (Keyed.sortBy (fun entry => entry.1.text?.getD "")
      (entries.map fun entry => (entry.1, entry.2.json))).map
        (fun entry => (entry.1.spelled, entry.2)) = Keyed.sortBy Prod.fst (written entries) := by
    have spelled : written entries = (entries.map fun entry => (entry.1, entry.2.json)).map
        fun entry => (entry.1.spelled, entry.2) := by
      rw [written, List.map_map]
      rfl
    rw [spelled]
    apply Keyed.map_sortBy
    intro entry member
    obtain ⟨name, same⟩ := members entry member
    rw [same]
    rfl
  rw [Argument.toJson, toJsonEntries_eq all]
  change (sortedEntries _).bind _ = _
  rw [sortedEntries_texts members]
  exact congrArg (fun entries => some (Json.Value.dict entries)) ordered

theorem mem_sorted_written {entries : List (Key × Argument)} {entry : String × Json.Value}
    (member : entry ∈ Keyed.sortBy Prod.fst (written entries)) :
    ∃ original ∈ entries, entry.2 = original.2.json := by
  obtain ⟨original, listed, rfl⟩ :=
    List.mem_map.mp ((Keyed.sortBy_perm Prod.fst _).mem_iff.mp member)
  exact ⟨original, listed, rfl⟩

/-- An argument that a document can hold is written as a JSON value. -/
theorem toJson_eq {value : Argument} (valued : JsonValued value) :
    value.toJson = some value.json ∧ IsJson value.json := by
  induction valued with
  | none => exact ⟨rfl, .null⟩
  | flag value => exact ⟨rfl, .bool value⟩
  | integer value => exact ⟨rfl, .int value⟩
  | float text => exact ⟨rfl, .float text⟩
  | text value => exact ⟨rfl, .str value⟩
  | @list items members all =>
      have json : (Argument.list items).toJson = some (.list (items.map Argument.json)) := by
        rw [Argument.toJson, toJsonItems_eq fun item member => (all item member).1]
        rfl
      rw [Argument.json, json]
      refine ⟨rfl, .list fun item member => ?_⟩
      obtain ⟨original, listed, rfl⟩ := List.mem_map.mp member
      exact (all original listed).2
  | @dict entries texts distinct members all =>
      have json := toJson_dict texts fun entry member => (all entry member).1
      rw [Argument.json, json]
      refine ⟨rfl, .dict fun entry member => ?_⟩
      obtain ⟨original, listed, same⟩ := mem_sorted_written member
      rw [same]
      exact (all original listed).2

theorem json_list {items : List Argument} (members : ∀ item ∈ items, JsonValued item) :
    (Argument.list items).json = .list (items.map Argument.json) := by
  rw [Argument.json, Argument.toJson,
    toJsonItems_eq fun item member => (toJson_eq (members item member)).1]
  rfl

theorem json_dict {entries : List (Key × Argument)}
    (texts : ∀ entry ∈ entries, ∃ name, entry.1 = .text name)
    (members : ∀ entry ∈ entries, JsonValued entry.2) :
    (Argument.dict entries).json = .dict (Keyed.sortBy Prod.fst (written entries)) := by
  rw [Argument.json, toJson_dict texts fun entry member => (toJson_eq (members entry member)).1]
  rfl

/-! ## Equal arguments have equal JSON values -/

section

variable {entries others : List (Key × Argument)}

theorem spelled_inj {key other : Key} (text : ∃ name, key = .text name)
    (otherText : ∃ name, other = .text name) (same : key.spelled = other.spelled) :
    key = other := by
  obtain ⟨name, rfl⟩ := text
  obtain ⟨otherName, rfl⟩ := otherText
  exact congrArg Key.text same

theorem nodup_written (texts : ∀ entry ∈ entries, ∃ name, entry.1 = .text name)
    (distinct : (entries.map Prod.fst).Nodup) : ((written entries).map Prod.fst).Nodup := by
  have spelled : (written entries).map Prod.fst = (entries.map Prod.fst).map Key.spelled := by
    rw [written, List.map_map, List.map_map]
    rfl
  have text : ∀ key ∈ entries.map Prod.fst, ∃ name, key = Key.text name := by
    intro key member
    obtain ⟨entry, listed, rfl⟩ := List.mem_map.mp member
    exact texts entry listed
  rw [spelled]
  exact distinct.map_on fun key member other otherMember =>
    spelled_inj (text key member) (text other otherMember)

theorem sortBy_written_iff (distinct : ((written entries).map Prod.fst).Nodup) :
    Keyed.sortBy Prod.fst (written entries) = Keyed.sortBy Prod.fst (written others) ↔
      (written entries).Perm (written others) := by
  constructor
  · intro same
    have ordered := Keyed.sortBy_perm Prod.fst (written entries)
    rw [same] at ordered
    exact ordered.symm.trans (Keyed.sortBy_perm Prod.fst (written others))
  · intro perm
    apply Keyed.sortBy_eq_of_perm perm
    intro entry member other otherMember same
    exact List.inj_on_of_nodup_map distinct member otherMember same

theorem sameEntries_iff : SameEntries entries others ↔
    ∀ entry ∈ entries, ∃ other, (entry.1, other) ∈ others ∧ Same entry.2 other := by
  induction entries with
  | nil =>
      rw [SameEntries]
      exact ⟨fun _ _ impossible => (List.not_mem_nil impossible).elim, fun _ => trivial⟩
  | cons entry entries induction =>
      obtain ⟨key, value⟩ := entry
      rw [SameEntries, induction, List.forall_mem_cons]

/-- Dictionaries are equal just if they are written with the same members. -/
theorem sameEntries_iff_perm (texts : ∀ entry ∈ entries, ∃ name, entry.1 = .text name)
    (otherTexts : ∀ entry ∈ others, ∃ name, entry.1 = .text name)
    (distinct : (entries.map Prod.fst).Nodup)
    (otherMembers : ∀ entry ∈ others, JsonValued entry.2)
    (agree : ∀ entry ∈ entries, ∀ other, JsonValued other →
      (Same entry.2 other ↔ entry.2.json = other.json)) :
    entries.length = others.length ∧ SameEntries entries others ↔
      (written entries).Perm (written others) := by
  rw [sameEntries_iff]
  constructor
  · rintro ⟨lengths, same⟩
    have members : written entries ⊆ written others := by
      intro entry member
      obtain ⟨⟨key, value⟩, listed, rfl⟩ := List.mem_map.mp member
      obtain ⟨other, held, equal⟩ := same (key, value) listed
      have json := (agree (key, value) listed other (otherMembers (key, other) held)).mp equal
      exact List.mem_map.mpr ⟨(key, other), held, congrArg (Prod.mk key.spelled) json.symm⟩
    have long : (written others).length ≤ (written entries).length := by
      rw [written, written, List.length_map, List.length_map, lengths]
    exact (List.subperm_of_subset (List.Nodup.of_map Prod.fst (nodup_written texts distinct))
      members).perm_of_length_le long
  · intro perm
    refine ⟨?_, fun entry member => ?_⟩
    · have lengths := perm.length_eq
      rwa [written, written, List.length_map, List.length_map] at lengths
    · have listed : (entry.1.spelled, entry.2.json) ∈ written others :=
        perm.mem_iff.mp (List.mem_map.mpr ⟨entry, member, rfl⟩)
      obtain ⟨⟨key, other⟩, held, same⟩ := List.mem_map.mp listed
      have keys := spelled_inj (otherTexts _ held) (texts entry member) (congrArg Prod.fst same)
      obtain rfl : key = entry.1 := keys
      exact ⟨other, held, (agree entry member other (otherMembers _ held)).mpr
        (congrArg Prod.snd same).symm⟩

end

theorem sameItems_iff {items others : List Argument}
    (agree : ∀ item ∈ items, ∀ other, JsonValued other →
      (Same item other ↔ item.json = other.json))
    (members : ∀ other ∈ others, JsonValued other) :
    SameItems items others ↔ items.map Argument.json = others.map Argument.json := by
  induction items generalizing others with
  | nil => simp [SameItems, eq_comm]
  | cons item items induction =>
      rw [SameItems]
      cases others with
      | nil => simp
      | cons other others =>
          have first := agree item List.mem_cons_self other (members other List.mem_cons_self)
          have rest := induction
            (fun item member => agree item (List.mem_cons_of_mem _ member))
            (fun other member => members other (List.mem_cons_of_mem _ member))
          rw [List.map_cons, List.map_cons, List.cons.injEq, ← first, ← rest]
          constructor
          · rintro ⟨_, _, same, equal, equals⟩
            obtain ⟨rfl, rfl⟩ := List.cons.inj same
            exact ⟨equal, equals⟩
          · rintro ⟨equal, equals⟩
            exact ⟨other, others, rfl, equal, equals⟩

/-- What is written alike is one value, unless it is a list or a dictionary. -/
theorem eq_of_json_eq {value other : Argument} (valued : JsonValued value)
    (unlisted : ∀ items, value ≠ .list items) (flat : ∀ entries, value ≠ .dict entries)
    (otherValued : JsonValued other) (same : value.json = other.json) : other = value := by
  cases otherValued with
  | list members =>
      rw [json_list members] at same
      cases valued with
      | list _ => exact absurd rfl (unlisted _)
      | dict _ _ _ => exact absurd rfl (flat _)
      | _ => cases same
  | dict texts distinct members =>
      rw [json_dict texts members] at same
      cases valued with
      | list _ => exact absurd rfl (unlisted _)
      | dict _ _ _ => exact absurd rfl (flat _)
      | _ => cases same
  | _ =>
      cases valued with
      | list _ => exact absurd rfl (unlisted _)
      | dict _ _ _ => exact absurd rfl (flat _)
      | _ => first | cases same; rfl | cases same

theorem same_iff {value other : Argument} (valued : JsonValued value)
    (otherValued : JsonValued other) : Same value other ↔ value.json = other.json := by
  induction valued generalizing other with
  | @list items members agree =>
      rw [Same, json_list members]
      constructor
      · rintro ⟨others, rfl, same⟩
        cases otherValued with
        | list otherMembers =>
            rw [json_list otherMembers, (sameItems_iff
              (fun item member other => agree item member) otherMembers).mp same]
      · intro same
        cases otherValued with
        | @list others otherMembers =>
            rw [json_list otherMembers, Json.Value.list.injEq] at same
            exact ⟨others, rfl, (sameItems_iff
              (fun item member other => agree item member) otherMembers).mpr same⟩
        | dict otherTexts _ otherMembers =>
            rw [json_dict otherTexts otherMembers] at same
            cases same
        | _ => cases same
  | @dict entries texts distinct members agree =>
      rw [Same, json_dict texts members]
      constructor
      · rintro ⟨others, rfl, same⟩
        cases otherValued with
        | dict otherTexts otherDistinct otherMembers =>
            rw [json_dict otherTexts otherMembers, Json.Value.dict.injEq,
              sortBy_written_iff (nodup_written texts distinct)]
            exact (sameEntries_iff_perm texts otherTexts distinct otherMembers
              fun entry member other => agree entry member).mp same
      · intro same
        cases otherValued with
        | @dict others otherTexts otherDistinct otherMembers =>
            rw [json_dict otherTexts otherMembers, Json.Value.dict.injEq,
              sortBy_written_iff (nodup_written texts distinct)] at same
            exact ⟨others, rfl, (sameEntries_iff_perm texts otherTexts distinct otherMembers
              fun entry member other => agree entry member).mpr same⟩
        | list otherMembers =>
            rw [json_list otherMembers] at same
            cases same
        | _ => cases same
  | none =>
      exact ⟨fun same => congrArg Argument.json same.symm,
        eq_of_json_eq .none (by simp) (by simp) otherValued⟩
  | flag value =>
      exact ⟨fun same => congrArg Argument.json same.symm,
        eq_of_json_eq (.flag value) (by simp) (by simp) otherValued⟩
  | integer value =>
      exact ⟨fun same => congrArg Argument.json same.symm,
        eq_of_json_eq (.integer value) (by simp) (by simp) otherValued⟩
  | float text =>
      exact ⟨fun same => congrArg Argument.json same.symm,
        eq_of_json_eq (.float text) (by simp) (by simp) otherValued⟩
  | text value =>
      exact ⟨fun same => congrArg Argument.json same.symm,
        eq_of_json_eq (.text value) (by simp) (by simp) otherValued⟩

/-! ## Records -/

theorem eq_of_perm_of_keys {α : Type} {first second : List (String × α)}
    (perm : first.Perm second) (keys : first.map Prod.fst = second.map Prod.fst)
    (distinct : (first.map Prod.fst).Nodup) : first = second := by
  induction first generalizing second with
  | nil => exact (List.nil_perm.mp perm).symm
  | cons entry first induction =>
      cases second with
      | nil => cases keys
      | cons other second =>
          obtain ⟨own, rest⟩ := List.cons.inj keys
          obtain ⟨absent, others⟩ := List.nodup_cons.mp distinct
          have same : entry = other := by
            rcases List.mem_cons.mp (perm.mem_iff.mp List.mem_cons_self) with same | later
            · exact same
            · rw [rest] at absent
              exact absurd (List.mem_map.mpr ⟨entry, later, rfl⟩) absent
          subst same
          rw [induction perm.cons_inv rest others]

/-- Dictionaries with the same keys in the same order are written alike just if their members
are. -/
theorem json_dict_inj {entries others : List (Key × Argument)}
    (valued : JsonValued (.dict entries)) (otherValued : JsonValued (.dict others))
    (keys : entries.map Prod.fst = others.map Prod.fst) :
    (Argument.dict entries).json = (Argument.dict others).json ↔
      written entries = written others := by
  cases valued with
  | dict texts distinct members =>
      cases otherValued with
      | dict otherTexts otherDistinct otherMembers =>
          rw [json_dict texts members, json_dict otherTexts otherMembers, Json.Value.dict.injEq,
            sortBy_written_iff (nodup_written texts distinct)]
          have spelled : ∀ list : List (Key × Argument),
              (written list).map Prod.fst = (list.map Prod.fst).map Key.spelled := by
            intro list
            rw [written, List.map_map, List.map_map]
            rfl
          refine ⟨fun perm => eq_of_perm_of_keys perm ?_ (nodup_written texts distinct), ?_⟩
          · rw [spelled, spelled, keys]
          · intro same
            rw [same]

@[simp] theorem json_text (value : String) : (Argument.text value).json = .str value :=
  rfl

@[simp] theorem json_flag (value : Bool) : (Argument.flag value).json = .bool value :=
  rfl

theorem attachment_valued (attachment : Attachment) : JsonValued attachment.argument := by
  refine .dict ?_ ?_ ?_
  · simp
  · simp
  · simp [JsonValued.text]

theorem attachment_json_inj {attachment other : Attachment} :
    attachment.argument.json = other.argument.json ↔ attachment = other := by
  rw [Attachment.argument, Attachment.argument,
    json_dict_inj (attachment_valued attachment) (attachment_valued other) rfl]
  cases attachment
  cases other
  simp [written]

/-! ## Requests -/

/-- A request whose dictionaries a JSON document can hold -/
structure Request.JsonValued (request : Request) : Prop where
  clientContext : Fingerprint.JsonValued (.dict (request.clientContext.getD []))
  extra : Fingerprint.JsonValued (.dict (request.extra.getD []))

section

variable {library : Library} {request other : Request}

theorem texts_valued (texts : List String) :
    ∀ item ∈ texts.map Argument.text, JsonValued item := by
  intro item member
  obtain ⟨text, -, rfl⟩ := List.mem_map.mp member
  exact .text text

theorem attachments_valued (attachments : List Attachment) :
    ∀ item ∈ attachments.map Attachment.argument, JsonValued item := by
  intro item member
  obtain ⟨attachment, -, rfl⟩ := List.mem_map.mp member
  exact attachment_valued attachment

theorem payload_valued (library : Library) (valued : request.JsonValued) :
    JsonValued (request.payload library) := by
  have temperature : JsonValued (request.temperature.elim .none fun temperature =>
      .float (.finite (library.rounded temperature))) := by
    cases request.temperature with
    | none => exact .none
    | some temperature => exact .float (library.rounded_text temperature)
  have k : JsonValued (request.k.elim .none .integer) := by
    cases request.k with
    | none => exact .none
    | some k => exact .integer k
  refine .dict ?_ ?_ ?_
  · simp
  · simp
  · simp only [List.forall_mem_cons]
    exact ⟨.text _, .text _, .text _, temperature, k, .list (texts_valued _), .text _, .text _,
      .text _, .text _, valued.clientContext, .flag _, .list (attachments_valued _), valued.extra,
      by simp⟩

theorem temperature_json_iff {first second : Option Number} :
    (first.elim Argument.none fun temperature =>
        .float (.finite (library.rounded temperature))).json =
      (second.elim Argument.none fun temperature =>
        .float (.finite (library.rounded temperature))).json ↔
      first.map library.rounded = second.map library.rounded := by
  cases first <;> cases second <;> simp [Argument.json, Argument.toJson]

theorem k_json_iff {first second : Option Int} :
    (first.elim Argument.none .integer).json = (second.elim Argument.none .integer).json ↔
      first = second := by
  cases first <;> cases second <;> simp [Argument.json, Argument.toJson]

theorem ids_json_iff {first second : List String} :
    (Argument.list ((Keyed.sortBy id first).map .text)).json =
      (Argument.list ((Keyed.sortBy id second).map .text)).json ↔ first.Perm second := by
  have texts : ∀ list : List String, (list.map Argument.text).map Argument.json =
      list.map Json.Value.str := by
    intro list
    rw [List.map_map]
    rfl
  rw [json_list (texts_valued _), json_list (texts_valued _), Json.Value.list.injEq, texts, texts,
    List.map_inj_right fun _ _ same => Json.Value.str.inj same]
  constructor
  · intro same
    have ordered := Keyed.sortBy_perm id first
    rw [same] at ordered
    exact ordered.symm.trans (Keyed.sortBy_perm id second)
  · exact fun perm => Keyed.sortBy_eq_of_perm perm fun _ _ _ _ same => same

theorem attachments_json_iff {first second : List Attachment} :
    (Argument.list (first.map Attachment.argument)).json =
      (Argument.list (second.map Attachment.argument)).json ↔ first = second := by
  rw [json_list (attachments_valued _), json_list (attachments_valued _), Json.Value.list.injEq,
    List.map_map, List.map_map]
  exact List.map_inj_right fun _ _ same => attachment_json_inj.mp same

/-- Two requests have one payload just if they agree. -/
theorem payload_json_iff (valued : request.JsonValued) (otherValued : other.JsonValued) :
    (request.payload library).json = (other.payload library).json ↔
      Agree library request other := by
  have payload := payload_valued library valued
  have otherPayload := payload_valued library otherValued
  rw [Request.payload, Request.payload] at *
  rw [json_dict_inj payload otherPayload rfl]
  simp only [written, List.map_cons, List.map_nil, List.cons.injEq, Prod.mk.injEq, true_and,
    and_true, Key.spelled, json_text, json_flag, textOf, temperature_json_iff, k_json_iff,
    ids_json_iff, attachments_json_iff, ← same_iff valued.clientContext otherValued.clientContext,
    ← same_iff valued.extra otherValued.extra, Json.Value.str.injEq, Json.Value.bool.injEq]
  constructor
  · rintro ⟨query, model, provider, temperature, k, ids, promptId, promptScope, agent, language,
      context, interpreter, attachments, extra⟩
    exact ⟨query, model, provider, temperature, k, ids, promptId, promptScope, agent, language,
      context, interpreter, attachments, extra⟩
  · rintro ⟨query, model, provider, temperature, k, ids, promptId, promptScope, agent, language,
      context, interpreter, attachments, extra⟩
    exact ⟨query, model, provider, temperature, k, ids, promptId, promptScope, agent, language,
      context, interpreter, attachments, extra⟩

/-- The fingerprint of a request is the hash of the text of its payload. -/
theorem computeRequestFingerprint_eq (library : Library) (valued : request.JsonValued) :
    computeRequestFingerprint library request =
      some (library.sha256 (String.ofList (request.payload library).json.spell)) := by
  obtain ⟨converted, json⟩ := toJson_eq (payload_valued library valued)
  have dumps : (request.payload library).dumps =
      some (String.ofList (request.payload library).json.spell) := by
    rw [Argument.dumps, converted, Option.bind_some, Json.dumpsWith_eq_spell json]
  rw [computeRequestFingerprint, dumps, Option.some_or, Option.map_some]

end

/-! ## The fallback -/

/-- A value whose dictionaries have texts as keys -/
inductive TextKeyed : Argument → Prop
  | none : TextKeyed .none
  | flag (value : Bool) : TextKeyed (.flag value)
  | integer (value : Int) : TextKeyed (.integer value)
  | float (value : Json.FloatValue) : TextKeyed (.float value)
  | text (value : String) : TextKeyed (.text value)
  | object (value : String) : TextKeyed (.object value)
  | list {items : List Argument} (members : ∀ item ∈ items, TextKeyed item) :
      TextKeyed (.list items)
  | dict {entries : List (Key × Argument)}
      (texts : ∀ entry ∈ entries, ∃ name, entry.1 = .text name)
      (distinct : (entries.map Prod.fst).Nodup)
      (members : ∀ entry ∈ entries, TextKeyed entry.2) : TextKeyed (.dict entries)

section

variable {entries : List (Key × Argument)}

theorem canonicalItems_eq (items : List Argument) :
    Argument.canonicalItems items = items.map Argument.canonical := by
  induction items with
  | nil => rfl
  | cons item items induction => rw [Argument.canonicalItems, induction, List.map_cons]

theorem canonicalEntries_eq (entries : List (Key × Argument)) :
    Argument.canonicalEntries entries = entries.map fun entry => (entry.1, entry.2.canonical) := by
  induction entries with
  | nil => rfl
  | cons entry entries induction =>
      rw [Argument.canonicalEntries, induction, List.map_cons]

/-- Entries whose keys are distinct texts are only ordered by their strings. -/
theorem byString_perm (texts : ∀ entry ∈ entries, ∃ name, entry.1 = .text name)
    (distinct : (entries.map Prod.fst).Nodup) : (Argument.byString entries).Perm entries := by
  have ordered := Keyed.sortBy_perm (fun entry : Key × Argument => entry.1.str) entries
  have strings : ((Keyed.sortBy (fun entry : Key × Argument => entry.1.str) entries).map
      fun entry => entry.1.str).Nodup := by
    refine (ordered.map _).nodup_iff.mpr ?_
    have names : entries.map (fun entry => entry.1.str) =
        (entries.map Prod.fst).map Key.str := by
      rw [List.map_map]
      rfl
    rw [names]
    refine distinct.map_on ?_
    intro key member other otherMember same
    obtain ⟨entry, listed, rfl⟩ := List.mem_map.mp member
    obtain ⟨otherEntry, otherListed, rfl⟩ := List.mem_map.mp otherMember
    obtain ⟨name, text⟩ := texts entry listed
    obtain ⟨otherName, otherText⟩ := texts otherEntry otherListed
    rw [text, otherText] at same ⊢
    exact congrArg Key.text same
  have collected := (Keyed.perm_collect Prod.snd strings).map
    fun entry => (Key.text entry.1, entry.2)
  refine collected.trans ?_
  rw [List.map_map]
  refine (ordered.map _).trans ?_
  have same : entries.map ((fun entry : String × Argument => (Key.text entry.1, entry.2)) ∘
      fun entry : Key × Argument => (entry.1.str, entry.2)) = entries := by
    refine (List.map_congr_left fun entry member => ?_).trans (List.map_id entries)
    obtain ⟨name, text⟩ := texts entry member
    obtain ⟨key, value⟩ := entry
    subst text
    rfl
  rw [same]

/-- Entries whose values are written alike are written alike in the order of their strings. -/
theorem toJson_byString (texts : ∀ entry ∈ entries, ∃ name, entry.1 = .text name)
    (distinct : (entries.map Prod.fst).Nodup)
    (canonical : ∀ entry ∈ entries, entry.2.canonical.toJson = some entry.2.json) :
    (Argument.dict (Argument.byString
      (entries.map fun entry => (entry.1, entry.2.canonical)))).toJson =
        some (.dict (Keyed.sortBy Prod.fst (written entries))) := by
  have listed : ∀ entry ∈ entries.map (fun entry => (entry.1, entry.2.canonical)),
      (∃ name, entry.1 = Key.text name) ∧ entry.2.toJson = some entry.2.json := by
    intro entry member
    obtain ⟨original, held, rfl⟩ := List.mem_map.mp member
    refine ⟨texts original held, ?_⟩
    rw [Argument.json, canonical original held]
    rfl
  have keys : (entries.map fun entry => (entry.1, entry.2.canonical)).map Prod.fst =
      entries.map Prod.fst := by
    rw [List.map_map]
    rfl
  have perm := byString_perm (fun entry member => (listed entry member).1) (keys ▸ distinct)
  have same : written (entries.map fun entry => (entry.1, entry.2.canonical)) =
      written entries := by
    rw [written, written, List.map_map]
    refine List.map_congr_left fun entry held => ?_
    refine congrArg (Prod.mk entry.1.spelled) ?_
    rw [Argument.json, canonical entry held]
    rfl
  have reordered : (written (Argument.byString
      (entries.map fun entry => (entry.1, entry.2.canonical)))).Perm (written entries) := by
    rw [← same]
    exact perm.map _
  rw [toJson_dict (fun entry member => (listed entry (perm.mem_iff.mp member)).1)
    fun entry member => (listed entry (perm.mem_iff.mp member)).2]
  refine congrArg (fun entries => some (Json.Value.dict entries)) ?_
  refine (Keyed.sortBy_eq_of_perm reordered.symm ?_).symm
  intro entry member other otherMember keys
  exact List.inj_on_of_nodup_map (nodup_written texts distinct) member otherMember keys

theorem toJson_of_items {items : List Argument} {values : List Json.Value}
    (converted : Argument.toJsonItems items = some values) :
    ∀ item ∈ items, item.toJson = some item.json := by
  induction items generalizing values with
  | nil =>
      intro item member
      cases member
  | cons first items induction =>
      rw [Argument.toJsonItems] at converted
      obtain ⟨value, own, converted⟩ := Option.bind_eq_some_iff.mp converted
      obtain ⟨rest, others, -⟩ := Option.bind_eq_some_iff.mp converted
      intro item member
      rcases List.mem_cons.mp member with rfl | later
      · rw [Argument.json, own]
        rfl
      · exact induction others item later

theorem toJson_of_entries {values : List (Key × Json.Value)}
    (converted : Argument.toJsonEntries entries = some values) :
    ∀ entry ∈ entries, entry.2.toJson = some entry.2.json := by
  induction entries generalizing values with
  | nil =>
      intro entry member
      cases member
  | cons first entries induction =>
      obtain ⟨key, argument⟩ := first
      rw [Argument.toJsonEntries] at converted
      obtain ⟨value, own, converted⟩ := Option.bind_eq_some_iff.mp converted
      obtain ⟨rest, others, -⟩ := Option.bind_eq_some_iff.mp converted
      intro entry member
      rcases List.mem_cons.mp member with rfl | later
      · rw [Argument.json, own]
        rfl
      · exact induction others entry later

/-- The fallback writes what can be written as it is written. -/
theorem toJson_canonical {value : Argument} (keyed : TextKeyed value) {json : Json.Value}
    (converted : value.toJson = some json) : value.canonical.toJson = some json := by
  induction keyed generalizing json with
  | object value => cases converted
  | @list items members agree =>
      rw [Argument.toJson] at converted
      obtain ⟨values, found, -⟩ := Option.map_eq_some_iff.mp converted
      have own := toJson_of_items found
      have others : ∀ item ∈ items.map Argument.canonical, item.toJson = some item.json := by
        intro item member
        obtain ⟨original, listed, rfl⟩ := List.mem_map.mp member
        have kept := agree original listed (own original listed)
        rw [Argument.json, kept]
        rfl
      have same : (items.map Argument.canonical).map Argument.json = items.map Argument.json := by
        rw [List.map_map]
        refine List.map_congr_left fun item listed => ?_
        exact Option.some.inj ((others _ (List.mem_map_of_mem listed)).symm.trans
          (agree item listed (own item listed)))
      rw [toJsonItems_eq own] at converted
      rw [Argument.canonical, canonicalItems_eq, Argument.toJson, toJsonItems_eq others, same]
      exact converted
  | @dict entries texts distinct members agree =>
      have own : ∀ entry ∈ entries, entry.2.toJson = some entry.2.json := by
        rw [Argument.toJson] at converted
        obtain ⟨values, found, -⟩ := Option.bind_eq_some_iff.mp converted
        exact toJson_of_entries found
      rw [toJson_dict texts own] at converted
      rw [← converted, Argument.canonical, canonicalEntries_eq]
      exact toJson_byString texts distinct fun entry member =>
        agree entry member (own entry member)
  | _ => exact converted

/-- What can be written is written by the fallback with the same text. -/
theorem dumps_canonical {value : Argument} (keyed : TextKeyed value) {text : String}
    (dumped : value.dumps = some text) : value.canonical.dumps = some text := by
  obtain ⟨json, converted, spelled⟩ := Option.bind_eq_some_iff.mp dumped
  rw [Argument.dumps, toJson_canonical keyed converted]
  exact spelled

end

/-! ## Equal fingerprints -/

theorem floatText_half : FloatText "0.5" where
  characters := by
    simp [Json.isNumberCharacter]
  starts := ⟨'0', ['.', '5'], rfl, .inl rfl⟩
  marked := .inl (by simp)

/-- A library for requests at the temperature 0.5, with texts as their own hashes -/
def Library.sample : Library where
  sha256 := id
  rounded _ := "0.5"
  rounded_text _ := floatText_half
  repr _ := ""

/-- A question with an attachment of a given id -/
def sampleRequest (clientContext : List (Key × Argument)) (id : Argument) : Request where
  query := "why"
  model := some "m"
  provider := none
  temperature := some (.float "0.5")
  k := some 4
  knowledgeBaseIds := some ["docs", "code"]
  systemPromptId := none
  systemPromptScope := none
  agentId := none
  responseLanguage := some "it"
  clientContext := some clientContext
  useCodeInterpreter := false
  attachedFiles := some [.dict [(.text "id", id)]]
  extra := none

theorem sampleRequest_valued {clientContext : List (Key × Argument)}
    (valued : JsonValued (.dict clientContext)) (id : Argument) :
    (sampleRequest clientContext id).JsonValued where
  clientContext := valued
  extra := .dict (by simp [sampleRequest]) (by simp [sampleRequest]) (by simp [sampleRequest])

theorem sampleContext_valued (first second : String) (different : first ≠ second) :
    JsonValued (.dict [(.text first, .integer 1), (.text second, .none)]) :=
  .dict (by simp) (by simp [different]) (by simp [JsonValued.integer, JsonValued.none])

end RAGuardian.Fingerprint
