import RAGuardian.Ranking.PublicNames

/-! # What public metadata reveals

The sources of a document and of its origins, the keys that are published, and what the
publication depends on. -/

namespace RAGuardian.Ranking

open Json Url

section

variable (library : WebLibrary)

/-! ## Sources -/

/-- The source of a dictionary, if it has one -/
def ownSource (metadata : Metadata) : List String :=
  if (metadata.get "source").truthy then
    [library.str ((metadata.get "source").orElse (.str ""))]
  else []

/-- The sources of a document and of its origins -/
def sourcesOf (metadata : Metadata) : List String :=
  ownSource library metadata ++
    (dictionaries (metadata.get "knowledge_base_origins")).flatMap (ownSource library)

/-- The values of the entries with a key -/
def valuesUnder (key : String) (result : Metadata) : List Value :=
  (result.filter fun entry => entry.1 == key).map Prod.snd

/-- The names of sources among the entries, and among those of the origins -/
def shownNames (key : String) (result : Metadata) : List Value :=
  valuesUnder key result ++
    (dictionaries (result.get "knowledge_base_origins")).flatMap (valuesUnder "source")

/-- A name of a source in what is made of a document -/
inductive Produced (doc : Document) (value : Value) : Prop
  | metadata (result : Metadata) (made : publicDocumentMetadata library doc.metadata = some result)
      (shown : value ∈ shownNames "source" result)
  | origins (result : List Metadata)
      (made : publicKnowledgeBaseOrigins library (doc.metadata.get "knowledge_base_origins") =
        some result)
      (shown : value ∈ result.flatMap (valuesUnder "source"))
  | payload (result : Metadata) (made : sourcePayload library doc = some result)
      (shown : value ∈ shownNames "filename" result)

/-- The last part of a source: of the decoded path of a web or file URL, or else of the text -/
def lastComponent (source : String) : Option (List Char) :=
  if normalizedSource source = [] then some []
  else (urlsplit library.accepts (normalizedSource source)).map fun parsed =>
    lastSegment (sourceText library (normalizedSource source) parsed)

/-- The same values under the keys, and sources with the same last part, or none -/
structure AgreeOn (keys : List String) (first second : Metadata) : Prop where
  values : ∀ key ∈ keys, first.get key = second.get key
  source : (ownSource library first).map (lastComponent library) =
    (ownSource library second).map (lastComponent library)

/-- Documents that agree, and whose origins agree -/
structure Agree (first second : Metadata) : Prop where
  document : AgreeOn library publicDocumentMetadataKeys first second
  missing : first.get "knowledge_base_origins" = .null ↔
    second.get "knowledge_base_origins" = .null
  origins : List.Forall₂ (AgreeOn library publicOriginMetadataKeys)
    (dictionaries (first.get "knowledge_base_origins"))
    (dictionaries (second.get "knowledge_base_origins"))

/-- The names of sources show no directory and no hidden part of a URL, nothing else is
published but what is under the keys of the allowlists, and nothing else matters. -/
structure Discreet (doc : Document) : Prop where
  produced : ∀ value, Produced library doc value → ∃ name, value = .str name ∧
    (name = "document" ∨ ∃ source ∈ sourcesOf library doc.metadata,
      publicSourceName library source = some name)
  clean : ∀ source ∈ sourcesOf library doc.metadata, ∀ name,
    publicSourceName library source = some name → Clean name
  conceals : ∀ source ∈ sourcesOf library doc.metadata, ∀ url : Url, url.WellFormed →
    source = String.ofList url.render → Conceals library url
  keys : ∀ result, publicDocumentMetadata library doc.metadata = some result →
    (∀ entry ∈ result, entry.1 = "source" ∨ entry.1 = "knowledge_base_origins" ∨
      entry.1 ∈ publicDocumentMetadataKeys) ∧
    ∀ origin ∈ dictionaries (result.get "knowledge_base_origins"), ∀ entry ∈ origin,
      entry.1 = "source" ∨ entry.1 ∈ publicOriginMetadataKeys
  agreeing : ∀ other, Agree library doc.metadata other →
    publicDocumentMetadata library other = publicDocumentMetadata library doc.metadata

end

section

variable {library : WebLibrary} {metadata : Metadata}

/-! ## Entries -/

theorem publicSourceName_eq (source : String) :
    publicSourceName library source = (lastComponent library source).map nameOf := by
  rw [publicSourceName, lastComponent]
  by_cases empty : normalizedSource source = []
  · rw [if_pos empty, if_pos empty]
    rfl
  · rw [if_neg empty, if_neg empty, Option.map_map]
    rfl

theorem mem_publicEntries {keys : List String} {entry : String × Value}
    (member : entry ∈ publicEntries keys metadata) : entry.1 ∈ keys := by
  obtain ⟨key, listed, result⟩ := List.mem_filterMap.mp member
  split at result
  · cases result
  · cases result
    exact listed

/-- The entry of the source is its public name. -/
theorem publicSource_eq_some {result : Metadata}
    (made : publicSource library metadata = some result) :
    (result = [] ∧ ownSource library metadata = []) ∨
      ∃ source name, ownSource library metadata = [source] ∧
        publicSourceName library source = some name ∧ result = [("source", .str name)] := by
  rw [publicSource] at made
  split at made
  · rename_i present
    obtain ⟨name, named, rfl⟩ := Option.map_eq_some_iff.mp made
    exact .inr ⟨_, name, by rw [ownSource, if_pos present], named, rfl⟩
  · rename_i absent
    cases made
    exact .inl ⟨rfl, by rw [ownSource, if_neg absent]⟩

theorem valuesUnder_append (key : String) (first second : Metadata) :
    valuesUnder key (first ++ second) = valuesUnder key first ++ valuesUnder key second := by
  rw [valuesUnder, List.filter_append, List.map_append]
  rfl

theorem valuesUnder_eq_nil {key : String} {result : Metadata}
    (absent : ∀ entry ∈ result, entry.1 ≠ key) : valuesUnder key result = [] := by
  rw [valuesUnder, List.map_eq_nil_iff, List.filter_eq_nil_iff]
  intro entry member same
  exact absent entry member (by simpa using same)

/-- A name a dictionary shows is that of its source. -/
theorem mem_valuesUnder_publicSource {source : Metadata} {value : Value}
    (made : publicSource library metadata = some source)
    (shown : value ∈ valuesUnder "source" source) :
    ∃ name, value = .str name ∧ ∃ origin ∈ ownSource library metadata,
      publicSourceName library origin = some name := by
  rcases publicSource_eq_some made with ⟨rfl, -⟩ | ⟨origin, name, own, named, rfl⟩
  · cases shown
  · have only : value = .str name := by simpa [valuesUnder] using shown
    exact ⟨name, only, origin, by rw [own]; exact List.mem_singleton.mpr rfl, named⟩

theorem publicOrigin_eq_some {result : Metadata}
    (made : publicOrigin library metadata = some result) :
    (∀ entry ∈ result, entry.1 = "source" ∨ entry.1 ∈ publicOriginMetadataKeys) ∧
      ∀ value ∈ valuesUnder "source" result, ∃ name, value = .str name ∧
        ∃ origin ∈ ownSource library metadata, publicSourceName library origin = some name := by
  obtain ⟨source, sourced, rfl⟩ := Option.map_eq_some_iff.mp made
  constructor
  · intro entry member
    rcases List.mem_append.mp member with own | listed
    · rcases publicSource_eq_some sourced with ⟨rfl, -⟩ | ⟨origin, name, -, -, rfl⟩
      · cases own
      · rw [List.mem_singleton.mp own]
        exact .inl rfl
    · exact .inr (mem_publicEntries listed)
  · intro value shown
    have none : valuesUnder "source" (publicEntries publicOriginMetadataKeys metadata) = [] := by
      apply valuesUnder_eq_nil
      intro entry member same
      exact absurd (same ▸ mem_publicEntries member) (by decide)
    rw [valuesUnder_append, none, List.append_nil] at shown
    exact mem_valuesUnder_publicSource sourced shown

/-- Every origin is made of one of the dictionaries. -/
theorem mem_publicKnowledgeBaseOrigins {value : Value} {result : List Metadata}
    (made : publicKnowledgeBaseOrigins library value = some result) {origin : Metadata}
    (member : origin ∈ result) :
    ∃ raw ∈ dictionaries value, publicOrigin library raw = some origin := by
  rw [publicKnowledgeBaseOrigins] at made
  generalize dictionaries value = raws at made ⊢
  induction raws generalizing result with
  | nil =>
      cases made
      cases member
  | cons raw raws induction =>
      rw [List.mapM_cons] at made
      obtain ⟨first, firstMade, rest⟩ := Option.bind_eq_some_iff.mp made
      obtain ⟨others, othersMade, same⟩ := Option.bind_eq_some_iff.mp rest
      cases same
      rcases List.mem_cons.mp member with rfl | later
      · exact ⟨raw, List.mem_cons_self, firstMade⟩
      · obtain ⟨found, listed, foundMade⟩ := induction later othersMade
        exact ⟨found, List.mem_cons_of_mem raw listed, foundMade⟩

theorem dictionaries_map_dict (origins : List Metadata) :
    dictionaries (.list (origins.map .dict)) = origins := by
  rw [dictionaries, List.filterMap_map]
  exact List.filterMap_some

/-- The entry of the origins, if there is one -/
theorem publicOrigins_eq_some {result : Metadata}
    (made : publicOrigins library metadata = some result) :
    result = [] ∨ ∃ origins,
      publicKnowledgeBaseOrigins library (metadata.get "knowledge_base_origins") = some origins ∧
        result = [("knowledge_base_origins", .list (origins.map .dict))] := by
  rw [publicOrigins] at made
  split at made
  · cases made
    exact .inl rfl
  · obtain ⟨origins, listed, rfl⟩ := Option.map_eq_some_iff.mp made
    exact .inr ⟨origins, listed, rfl⟩

/-! ## Public metadata -/

theorem publicDocumentMetadata_eq_some {result : Metadata}
    (made : publicDocumentMetadata library metadata = some result) :
    ∃ source origins, publicSource library metadata = some source ∧
      publicOrigins library metadata = some origins ∧
      result = source ++ publicEntries publicDocumentMetadataKeys metadata ++ origins := by
  obtain ⟨source, sourced, rest⟩ := Option.bind_eq_some_iff.mp made
  obtain ⟨origins, listed, same⟩ := Option.bind_eq_some_iff.mp rest
  exact ⟨source, origins, sourced, listed, (Option.some_inj.mp same).symm⟩

theorem get_append_of_absent {first second : Metadata} {key : String}
    (absent : ∀ entry ∈ first, entry.1 ≠ key) :
    Metadata.get (first ++ second) key = second.get key := by
  have missing : first.find? (fun entry => entry.1 == key) = none := by
    rw [List.find?_eq_none]
    intro entry member same
    exact absent entry member (by simpa using same)
  unfold Metadata.get Value.lookup
  rw [List.find?_append, missing, Option.none_or]

theorem get_publicOrigins {origins : Metadata}
    (made : publicOrigins library metadata = some origins) :
    origins.get "knowledge_base_origins" = .null ∨ ∃ listed,
      publicKnowledgeBaseOrigins library (metadata.get "knowledge_base_origins") = some listed ∧
        dictionaries (origins.get "knowledge_base_origins") = listed := by
  rcases publicOrigins_eq_some made with rfl | ⟨listed, found, rfl⟩
  · exact .inl rfl
  · exact .inr ⟨listed, found, dictionaries_map_dict listed⟩

/-- A name shown by the origins is that of the source of one of them. -/
theorem mem_nested {value : Value} {result origins : Metadata}
    (made : publicOrigins library metadata = some origins)
    (same : result.get "knowledge_base_origins" = origins.get "knowledge_base_origins")
    (shown : value ∈ (dictionaries (result.get "knowledge_base_origins")).flatMap
      (valuesUnder "source")) :
    ∃ name, value = .str name ∧ ∃ source ∈ sourcesOf library metadata,
      publicSourceName library source = some name := by
  rw [same] at shown
  rcases get_publicOrigins made with missing | ⟨listed, found, same⟩
  · rw [missing] at shown
    cases shown
  · rw [same] at shown
    obtain ⟨origin, member, within⟩ := List.mem_flatMap.mp shown
    obtain ⟨raw, rawMember, rawMade⟩ := mem_publicKnowledgeBaseOrigins found member
    obtain ⟨name, rfl, source, own, named⟩ := (publicOrigin_eq_some rawMade).2 value within
    exact ⟨name, rfl, source,
      List.mem_append_right _ (List.mem_flatMap.mpr ⟨raw, rawMember, own⟩), named⟩

theorem source_not_origins {source : Metadata}
    (made : publicSource library metadata = some source) :
    ∀ entry ∈ source ++ publicEntries publicDocumentMetadataKeys metadata,
      entry.1 = "source" ∨ entry.1 ∈ publicDocumentMetadataKeys := by
  intro entry member
  rcases List.mem_append.mp member with own | listed
  · rcases publicSource_eq_some made with ⟨rfl, -⟩ | ⟨origin, name, -, -, rfl⟩
    · cases own
    · rw [List.mem_singleton.mp own]
      exact .inl rfl
  · exact .inr (mem_publicEntries listed)

theorem get_origins_of_made {result source origins : Metadata}
    (sourced : publicSource library metadata = some source)
    (shape : result = source ++ publicEntries publicDocumentMetadataKeys metadata ++ origins) :
    result.get "knowledge_base_origins" = origins.get "knowledge_base_origins" := by
  rw [shape]
  apply get_append_of_absent
  intro entry member same
  rcases source_not_origins sourced entry member with named | listed
  · exact absurd (same ▸ named) (by decide)
  · exact absurd (same ▸ listed) (by decide)

/-! ## Payloads -/

theorem mem_set {key : String} {value : Value} {entry : String × Value}
    (member : entry ∈ metadata.set key value) : entry.1 = key ∨ entry ∈ metadata := by
  rw [Metadata.set] at member
  split at member
  · obtain ⟨original, listed, same⟩ := List.mem_map.mp member
    split at same
    · exact .inl (congrArg Prod.fst same).symm
    · exact .inr (same ▸ listed)
  · rcases List.mem_append.mp member with listed | added
    · exact .inr listed
    · exact .inl (congrArg Prod.fst (List.mem_singleton.mp added))

theorem valuesUnder_set_of_ne {key other : String} (different : other ≠ key) (value : Value) :
    valuesUnder other (metadata.set key value) = valuesUnder other metadata := by
  have apart : (key == other) = false := by simpa using different.symm
  rw [Metadata.set]
  split
  · rename_i present
    clear present
    induction metadata with
    | nil => rfl
    | cons entry metadata induction =>
        rw [valuesUnder] at induction ⊢
        rw [List.map_cons, valuesUnder]
        rw [valuesUnder] at induction
        by_cases here : (entry.1 == key) = true
        · have skipped : (entry.1 == other) = false := by
            rw [beq_iff_eq.mp here]
            exact apart
          rw [if_pos here, List.filter_cons_of_neg (by simp [apart]),
            List.filter_cons_of_neg (by simp [skipped])]
          exact induction
        · rw [if_neg here]
          by_cases shown : (entry.1 == other) = true
          · simp only [List.filter_cons, if_pos shown, List.map_cons]
            rw [induction]
          · simp only [List.filter_cons, if_neg shown]
            exact induction
  · rw [valuesUnder_append]
    simp [valuesUnder, apart]

theorem setScalar_cases (payload : Metadata) (key : String) (value : Value) :
    setScalar payload key value = payload ∨
      ∃ scalar, setScalar payload key value = payload.set key scalar := by
  rw [setScalar]
  split
  · exact .inl rfl
  · exact .inr ⟨_, rfl⟩

theorem setPresent_cases (payload : Metadata) (key : String) (value : Value) :
    setPresent payload key value = payload ∨
      ∃ scalar, setPresent payload key value = payload.set key scalar := by
  cases value with
  | null => exact .inl rfl
  | _ => exact .inr ⟨_, rfl⟩

/-- What setting a value under one key leaves under another -/
structure Untouched (other : String) (before after : Metadata) : Prop where
  values : valuesUnder other after = valuesUnder other before
  get : after.get other = before.get other

theorem Untouched.of_cases {other key : String} {before after : Metadata}
    (different : other ≠ key)
    (cases : after = before ∨ ∃ scalar, after = before.set key scalar) :
    Untouched other before after := by
  rcases cases with rfl | ⟨scalar, rfl⟩
  · exact ⟨rfl, rfl⟩
  · exact ⟨valuesUnder_set_of_ne different scalar, Metadata.get_set_of_ne before different scalar⟩

theorem Untouched.trans {other : String} {first second third : Metadata}
    (earlier : Untouched other first second) (later : Untouched other second third) :
    Untouched other first third :=
  ⟨later.values.trans earlier.values, later.get.trans earlier.get⟩

theorem payloadName_eq_some {name : String} (named : payloadName library metadata = some name) :
    name = "document" ∨ ∃ source ∈ ownSource library metadata,
      publicSourceName library source = some name := by
  rw [payloadName] at named
  split at named
  · exact .inl (Option.some_inj.mp named).symm
  · rename_i nonempty
    have present : (metadata.get "source").truthy = true := by
      by_contra absent
      apply nonempty
      rw [Value.orElse, if_neg absent, library.str_text]
    exact .inr ⟨_, by rw [ownSource, if_pos present]; exact List.mem_singleton.mpr rfl, named⟩

theorem mem_setPresent {payload : Metadata} {key : String} {value : Value}
    {entry : String × Value} (member : entry ∈ setPresent payload key value) :
    entry.1 = key ∨ entry ∈ payload := by
  rcases setPresent_cases payload key value with kept | ⟨scalar, assigned⟩
  · rw [kept] at member
    exact .inr member
  · rw [assigned] at member
    exact mem_set member

theorem origins_not_mem_payloadFront {doc : Document} {filename : String} :
    ∀ entry ∈ payloadFront library doc filename, entry.1 ≠ "knowledge_base_origins" := by
  intro entry member
  rcases mem_setPresent member with same | member
  · rw [same]
    decide
  · rcases mem_setPresent member with same | member
    · rw [same]
      decide
    · simp only [List.mem_cons, List.not_mem_nil, or_false] at member
      rcases member with rfl | rfl | rfl
      · simp
      · simp
      · simp

theorem untouched_withScalars (payload : Metadata) {other : String}
    (apart : other ∉ ["chunk_id", "page", "score"]) :
    Untouched other payload (withScalars metadata payload) := by
  simp only [List.mem_cons, List.not_mem_nil, or_false, not_or] at apart
  obtain ⟨chunk, page, score⟩ := apart
  exact (((Untouched.of_cases chunk (setScalar_cases _ _ _)).trans
    (.of_cases page (setScalar_cases _ _ _))).trans
    (.of_cases page (setScalar_cases _ _ _))).trans (.of_cases score (setScalar_cases _ _ _))

/-- A payload shows the name of the file and the names of the origins. -/
theorem sourcePayload_eq_some {doc : Document} {payload : Metadata}
    (made : sourcePayload library doc = some payload) :
    ∃ filename origins,
      (filename = "document" ∨ ∃ source ∈ ownSource library doc.metadata,
        publicSourceName library source = some filename) ∧
      publicOrigins library doc.metadata = some origins ∧
      valuesUnder "filename" payload = [.str filename] ∧
      payload.get "knowledge_base_origins" = origins.get "knowledge_base_origins" := by
  obtain ⟨filename, named, rest⟩ := Option.bind_eq_some_iff.mp made
  obtain ⟨origins, listed, result⟩ := Option.bind_eq_some_iff.mp rest
  cases result
  refine ⟨filename, origins, payloadName_eq_some named, listed, ?_, ?_⟩
  · have front : valuesUnder "filename" (payloadFront library doc filename) =
        [.str filename] := by
      rw [payloadFront, ((Untouched.of_cases (by decide) (setPresent_cases _ _ _)).trans
        (.of_cases (by decide) (setPresent_cases _ _ _))).values]
      rfl
    have none : valuesUnder "filename" origins = [] := by
      rcases publicOrigins_eq_some listed with rfl | ⟨found, -, rfl⟩
      · rfl
      · rfl
    rw [(untouched_withScalars _ (by decide)).values, valuesUnder_append, front, none,
      List.append_nil]
  · rw [(untouched_withScalars _ (by decide)).get,
      get_append_of_absent origins_not_mem_payloadFront]

/-! ## Discretion -/

/-- Whatever shows as a name of a source is the public name of one. -/
theorem produced_name {doc : Document} {value : Value} (produced : Produced library doc value) :
    ∃ name, value = .str name ∧ (name = "document" ∨
      ∃ source ∈ sourcesOf library doc.metadata, publicSourceName library source = some name) := by
  have own : ∀ {source}, source ∈ ownSource library doc.metadata →
      source ∈ sourcesOf library doc.metadata :=
    fun member => List.mem_append_left _ member
  cases produced with
  | metadata result made shown =>
      obtain ⟨source, origins, sourced, listed, shape⟩ := publicDocumentMetadata_eq_some made
      have nested := get_origins_of_made sourced shape
      rcases List.mem_append.mp shown with direct | within
      · have others : valuesUnder "source"
            (publicEntries publicDocumentMetadataKeys doc.metadata) = [] := by
          apply valuesUnder_eq_nil
          intro entry member same
          exact absurd (same ▸ mem_publicEntries member) (by decide)
        have none : valuesUnder "source" origins = [] := by
          rcases publicOrigins_eq_some listed with rfl | ⟨found, -, rfl⟩
          · rfl
          · rfl
        rw [shape, valuesUnder_append, valuesUnder_append, others, none, List.append_nil,
          List.append_nil] at direct
        obtain ⟨name, rfl, found, member, named⟩ := mem_valuesUnder_publicSource sourced direct
        exact ⟨name, rfl, .inr ⟨found, own member, named⟩⟩
      · obtain ⟨name, rfl, found⟩ := mem_nested listed nested within
        exact ⟨name, rfl, .inr found⟩
  | origins result made shown =>
      obtain ⟨origin, member, within⟩ := List.mem_flatMap.mp shown
      obtain ⟨raw, rawMember, rawMade⟩ := mem_publicKnowledgeBaseOrigins made member
      obtain ⟨name, rfl, source, from_, named⟩ := (publicOrigin_eq_some rawMade).2 value within
      exact ⟨name, rfl, .inr ⟨source,
        List.mem_append_right _ (List.mem_flatMap.mpr ⟨raw, rawMember, from_⟩), named⟩⟩
  | payload result made shown =>
      obtain ⟨filename, origins, named, listed, values, nested⟩ := sourcePayload_eq_some made
      rcases List.mem_append.mp shown with direct | within
      · rw [values, List.mem_singleton] at direct
        refine ⟨filename, direct, named.imp_right ?_⟩
        rintro ⟨source, member, found⟩
        exact ⟨source, own member, found⟩
      · obtain ⟨name, rfl, found⟩ := mem_nested listed nested within
        exact ⟨name, rfl, .inr found⟩

theorem public_keys {result : Metadata}
    (made : publicDocumentMetadata library metadata = some result) :
    (∀ entry ∈ result, entry.1 = "source" ∨ entry.1 = "knowledge_base_origins" ∨
      entry.1 ∈ publicDocumentMetadataKeys) ∧
    ∀ origin ∈ dictionaries (result.get "knowledge_base_origins"), ∀ entry ∈ origin,
      entry.1 = "source" ∨ entry.1 ∈ publicOriginMetadataKeys := by
  obtain ⟨source, origins, sourced, listed, shape⟩ := publicDocumentMetadata_eq_some made
  constructor
  · intro entry member
    rw [shape] at member
    rcases List.mem_append.mp member with front | nested
    · rcases source_not_origins sourced entry front with named | allowed
      · exact .inl named
      · exact .inr (.inr allowed)
    · rcases publicOrigins_eq_some listed with rfl | ⟨found, -, rfl⟩
      · cases nested
      · rw [List.mem_singleton.mp nested]
        exact .inr (.inl rfl)
  · intro origin member
    rw [get_origins_of_made sourced shape] at member
    rcases get_publicOrigins listed with missing | ⟨found, made, same⟩
    · rw [missing] at member
      cases member
    · rw [same] at member
      obtain ⟨raw, -, rawMade⟩ := mem_publicKnowledgeBaseOrigins made member
      exact (publicOrigin_eq_some rawMade).1

/-! ## Agreement -/

theorem publicEntries_of_agreeOn {keys : List String} {first second : Metadata}
    (values : ∀ key ∈ keys, first.get key = second.get key) :
    publicEntries keys first = publicEntries keys second := by
  unfold publicEntries
  apply List.filterMap_congr
  intro key listed
  rw [values key listed]

theorem publicSource_of_agreeOn {keys : List String} {first second : Metadata}
    (agree : AgreeOn library keys first second) :
    publicSource library first = publicSource library second := by
  have read : ∀ metadata : Metadata, publicSource library metadata =
      match (ownSource library metadata).map (lastComponent library) with
      | [] => some []
      | component :: _ => component.map fun segment => [("source", .str (nameOf segment))] := by
    intro metadata
    rw [publicSource, ownSource]
    split
    · rw [publicSourceReference, publicSourceName_eq, Option.map_map]
      rfl
    · rfl
  rw [read, read, agree.source]

theorem publicDocumentMetadata_of_agree {first second : Metadata}
    (agree : Agree library first second) :
    publicDocumentMetadata library second = publicDocumentMetadata library first := by
  have origin : ∀ raw other : Metadata, AgreeOn library publicOriginMetadataKeys raw other →
      publicOrigin library raw = publicOrigin library other := by
    intro raw other same
    rw [publicOrigin, publicOrigin, publicSource_of_agreeOn same,
      publicEntries_of_agreeOn same.values]
  have listed : ∀ raws others : List Metadata,
      List.Forall₂ (AgreeOn library publicOriginMetadataKeys) raws others →
      raws.mapM (publicOrigin library) = others.mapM (publicOrigin library) := by
    intro raws others same
    induction same with
    | nil => rfl
    | cons head _ induction => rw [List.mapM_cons, List.mapM_cons, origin _ _ head, induction]
  have origins : publicOrigins library first = publicOrigins library second := by
    have same : publicKnowledgeBaseOrigins library (first.get "knowledge_base_origins") =
        publicKnowledgeBaseOrigins library (second.get "knowledge_base_origins") :=
      listed _ _ agree.origins
    have read : ∀ metadata : Metadata, metadata.get "knowledge_base_origins" ≠ .null →
        publicOrigins library metadata =
          (publicKnowledgeBaseOrigins library (metadata.get "knowledge_base_origins")).map
            fun origins => [("knowledge_base_origins", .list (origins.map .dict))] := by
      intro metadata present
      rw [publicOrigins]
      split
      · rename_i missing
        exact absurd missing present
      · rfl
    by_cases missing : first.get "knowledge_base_origins" = .null
    · rw [publicOrigins, publicOrigins, missing, agree.missing.mp missing]
    · rw [read first missing, read second (mt agree.missing.mpr missing), same]
  rw [publicDocumentMetadata, publicDocumentMetadata, publicSource_of_agreeOn agree.document,
    origins, publicEntries_of_agreeOn agree.document.values]

/-- Public metadata are discreet exactly if no source is a URL with a backslash escaped in the
last part of its path, or one of another scheme with hidden parts in the last part of its
text. -/
theorem discreet_iff (library : WebLibrary) (doc : Document) :
    Discreet library doc ↔
      ∀ source ∈ sourcesOf library doc.metadata, Unescaped library source ∧
        ∀ url : Url, url.WellFormed → source = String.ofList url.render →
          Covered library url := by
  constructor
  · intro discreet source member
    refine ⟨(clean_iff source).mp (discreet.clean source member), ?_⟩
    intro url formed same
    exact (conceals_iff formed).mp (discreet.conceals source member url formed same)
  · intro harmless
    refine ⟨fun value produced => produced_name produced, ?_, ?_, fun result made =>
      public_keys made, fun other agree => publicDocumentMetadata_of_agree agree⟩
    · intro source member
      exact (clean_iff source).mpr (harmless source member).1
    · intro source member url formed same
      exact (conceals_iff formed).mpr ((harmless source member).2 url formed same)

end

/-! ## A signed link -/

/-- The value of a hexadecimal digit -/
def hexDigit (character : Char) : Option Nat :=
  if character.isDigit then some (character.toNat - 48)
  else if 'a' ≤ character ∧ character ≤ 'f' then some (character.toNat - 87)
  else if 'A' ≤ character ∧ character ≤ 'F' then some (character.toNat - 55)
  else none

/-- `unquote`, for escaped ASCII characters -/
def unquoteAscii : List Char → List Char
  | '%' :: high :: low :: rest =>
      match hexDigit high, hexDigit low with
      | some high, some low => Char.ofNat (16 * high + low) :: unquoteAscii rest
      | _, _ => '%' :: unquoteAscii (high :: low :: rest)
  | character :: rest => character :: unquoteAscii rest
  | [] => []

/-- The library on ASCII texts without brackets in a network location -/
def asciiLibrary : WebLibrary where
  str
    | .str text => text
    | _ => ""
  str_text := fun _ => rfl
  lower text := text.map Char.toLower
  unquote := unquoteAscii
  accepts _ := true
  accepts_userInfo := by simp

/-- An object in a bucket, with the token that gives access to it -/
def signedUrl (token : List Char) : Url where
  scheme := "s3".toList
  authority := some ⟨none, "bucket".toList⟩
  path := "/report.pdf".toList
  query := some token
  fragment := none

theorem signedUrl_wellFormed (token : List Char)
    (visible : ∀ character ∈ token, Plain character ∧ character ≠ '#') :
    (signedUrl token).WellFormed where
  scheme := by
    change isScheme "s3".toList = true
    decide +kernel
  userInfo := by
    intro authority present userInfo informed
    cases present
    cases informed
  host := by
    intro authority present
    cases present
    simp [Plain, netlocCharacter]
  path := by simp [signedUrl, Plain]
  rooted := fun _ => .inr ⟨"report.pdf".toList, rfl⟩
  single := by
    intro bare
    cases bare
  query := by
    intro query given
    cases given
    exact visible
  fragment := by
    intro fragment given
    cases given

theorem signedUrl_alike (token other : List Char) : Alike (signedUrl token) (signedUrl other) :=
  ⟨rfl, rfl, rfl, rfl, rfl, rfl⟩

theorem mem_sourcesOf_single {source : String} (nonempty : source ≠ "") :
    source ∈ sourcesOf asciiLibrary [("source", .str source)] := by
  have present : (Value.str source).truthy = true := by simpa [Value.truthy] using nonempty
  have found : Metadata.get [("source", Value.str source)] "source" = .str source := by
    simp [Metadata.get, Value.lookup]
  apply List.mem_append_left
  rw [ownSource, found, if_pos present, Value.orElse, if_pos present]
  exact List.mem_singleton.mpr rfl

/-- The token of a signed link is part of the public name, and so is an escaped backslash. -/
theorem signed_link_shown :
    publicSourceName asciiLibrary "s3://bucket/report.pdf?token=secret" =
        some "report.pdf?token=secret" ∧
      ¬Discreet asciiLibrary
        ⟨"text", [("source", .str "s3://bucket/report.pdf?token=secret")]⟩ ∧
      publicSourceName asciiLibrary "https://host/share/C%3A%5Cprivate%5Creport.pdf" =
        some "C:\\private\\report.pdf" ∧
      ¬Discreet asciiLibrary
        ⟨"text", [("source", .str "https://host/share/C%3A%5Cprivate%5Creport.pdf")]⟩ := by
  have visible : ∀ token ∈ ["token=secret".toList, "token=public".toList],
      ∀ character ∈ token, Plain character ∧ character ≠ '#' := by
    simp [Plain]
  have secret := signedUrl_wellFormed "token=secret".toList (visible _ (by simp))
  have replaced := signedUrl_wellFormed "token=public".toList (visible _ (by simp))
  have shown : publicSourceName asciiLibrary "s3://bucket/report.pdf?token=secret" =
      some "report.pdf?token=secret" := by decide +kernel
  have other : publicSourceName asciiLibrary "s3://bucket/report.pdf?token=public" =
      some "report.pdf?token=public" := by decide +kernel
  have escaped : publicSourceName asciiLibrary "https://host/share/C%3A%5Cprivate%5Creport.pdf" =
      some "C:\\private\\report.pdf" := by decide +kernel
  refine ⟨shown, ?_, escaped, ?_⟩
  · intro discreet
    have rendered : "s3://bucket/report.pdf?token=secret" =
        String.ofList (signedUrl "token=secret".toList).render := by decide +kernel
    have otherRendered : "s3://bucket/report.pdf?token=public" =
        String.ofList (signedUrl "token=public".toList).render := by decide +kernel
    have conceals := discreet.conceals "s3://bucket/report.pdf?token=secret"
      (mem_sourcesOf_single (by decide)) (signedUrl "token=secret".toList) secret rendered
    rw [rendered] at shown
    rw [otherRendered] at other
    exact absurd (conceals _ replaced (signedUrl_alike _ _) _ _ shown other) (by decide)
  · intro discreet
    have clean := discreet.clean "https://host/share/C%3A%5Cprivate%5Creport.pdf"
      (mem_sourcesOf_single (by decide)) _ escaped
    exact clean.2.2 (by decide +kernel)

end RAGuardian.Ranking
