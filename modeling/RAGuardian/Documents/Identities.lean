import RAGuardian.Documents.Outcomes

/-! # The identity of a chunk

The documents of a file carry the hashes of its path and of its content, from which the
collection gets the ids of their chunks. -/

namespace RAGuardian.Documents

/-! ## What a document carries -/

/-- Keys under which the indexer stores what it knows of a document itself. -/
def ownKeys : List String :=
  ["source", "document_id", "source_id", "chunk_id", "filename", "path", "chunks", "status"]

/-- Further metadata leave the keys of the indexer alone. -/
def Unclaimed (extra : Metadata) : Prop :=
  ∀ key ∈ ownKeys, extra.get? key = none

/-- What a document of a file carries. -/
structure Identity (parser : Parser) (path : String) (content : Content) (index : Nat)
    (metadata : Metadata) : Prop where
  source : metadata.get? "source" = some (.text path)
  document : metadata.get? "document_id" = some (.text (parser.documentHash content))
  origin : metadata.get? "source_id" = some (.text (parser.sourceHash path))
  place : metadata.get? "chunk_id" = some (.integer index)

/-- Every document carries the identity of its file. -/
def Identified (parser : Parser) (path : String) (content : Content)
    (documents : List Document) : Prop :=
  ∀ document index, (document, index) ∈ documents.zipIdx →
    Identity parser path content index document.metadata

section

variable {parser : Parser} {path : String} {content : Content} {documents : List Document}
  {extra : Metadata}

theorem Identity.merge {index : Nat} {metadata : Metadata}
    (identity : Identity parser path content index metadata) (unclaimed : Unclaimed extra) :
    Identity parser path content index (merge metadata extra) where
  source := (get?_merge (unclaimed _ (by decide))).trans identity.source
  document := (get?_merge (unclaimed _ (by decide))).trans identity.document
  origin := (get?_merge (unclaimed _ (by decide))).trans identity.origin
  place := (get?_merge (unclaimed _ (by decide))).trans identity.place

theorem identified_nil : Identified parser path content [] := by
  intro document index member
  cases member

/-- The documents that a list of texts is made into. -/
theorem identified_map {texts : List String} {make : String × Nat → Document}
    (identity : ∀ pair, Identity parser path content pair.2 (make pair).metadata) :
    Identified parser path content (texts.zipIdx.map make) := by
  intro document index member
  rw [List.mem_zipIdx_iff_getElem?, List.getElem?_map, Option.map_eq_some_iff] at member
  obtain ⟨pair, found, rfl⟩ := member
  rw [List.getElem?_zipIdx, Option.map_eq_some_iff] at found
  obtain ⟨text, -, same⟩ := found
  have place : pair.2 = index := by
    rw [← same]
    exact Nat.zero_add index
  rw [← place]
  exact identity pair

theorem Identified.applyExtraMetadata (identified : Identified parser path content documents)
    (unclaimed : Unclaimed extra) :
    Identified parser path content (applyExtraMetadata documents extra) := by
  intro document index member
  rw [Documents.applyExtraMetadata, List.mem_zipIdx_iff_getElem?, List.getElem?_map,
    Option.map_eq_some_iff] at member
  obtain ⟨plain, found, rfl⟩ := member
  exact (identified plain index (List.mem_zipIdx_iff_getElem?.mpr found)).merge unclaimed

theorem identified_processFile {world : World} {extension : String}
    (stored : world.files.get? path = some content)
    (processed : processFile parser path extension world = .ok documents) :
    Identified parser path content documents := by
  rw [processFile, stored] at processed
  cases texts : parser.texts extension content with
  | error message =>
      simp only [texts] at processed
      cases processed
  | ok texts =>
      simp only [texts] at processed
      cases processed
      apply identified_map
      rintro ⟨text, index⟩
      constructor <;> simp [Dictionary.get?_set]

theorem identified_parseFile {world : World} {extension : String}
    (stored : world.files.get? path = some content) :
    Identified parser path content (parseFile parser path extension world).1 := by
  rw [parseFile]
  cases processed : processFile parser path extension world with
  | ok documents => exact identified_processFile stored processed
  | error message => exact identified_nil

theorem Identified.document (identified : Identified parser path content documents) :
    ∀ document ∈ documents,
      document.metadata.get? "document_id" = some (.text (parser.documentHash content)) := by
  intro document member
  obtain ⟨index, bound, rfl⟩ := List.getElem_of_mem member
  exact (identified documents[index] index
    (List.mem_zipIdx_iff_getElem?.mpr (List.getElem?_eq_getElem bound))).document

theorem Identified.documentIdOf (identified : Identified parser path content documents)
    (nonempty : documents ≠ []) : documentIdOf documents = parser.documentHash content :=
  documentIdOf_eq nonempty identified.document

end

/-! ## The ids of chunks -/

/-- A text of letters and digits. -/
def Alphanumeric (value : String) : Prop :=
  value ≠ "" ∧ ∀ character ∈ value.toList, character.isAlphanum

/-- Hashes are texts of letters and digits. -/
structure Parser.Hashes (parser : Parser) : Prop where
  document : ∀ content, Alphanumeric (parser.documentHash content)
  source : ∀ path, Alphanumeric (parser.sourceHash path)

/-- The id of a chunk. -/
def chunkKey (parser : Parser) (path : String) (content : Content) (index : Nat) : String :=
  parser.sourceHash path ++ ":" ++ parser.documentHash content ++ ":chunk:" ++
    toString (index : Int)

theorem hyphenate_alphanumeric {characters : List Char}
    (plain : ∀ character ∈ characters, character.isAlphanum) :
    hyphenate false characters = characters := by
  induction characters with
  | nil => rfl
  | cons character rest induction =>
      rw [hyphenate, if_pos (.inl (plain character (by simp))),
        induction fun other member => plain other (by simp [member])]

theorem safeId_alphanumeric {value default : String} (plain : Alphanumeric value) :
    safeId value default = value := by
  have hyphens : ∀ character ∈ value.toList, decide (character = '-') = false := by
    intro character member
    rw [decide_eq_false_iff_not]
    rintro rfl
    exact absurd (plain.2 _ member) (by decide)
  rw [safeId, hyphenate_alphanumeric plain.2, Text.stripList_eq_self hyphens, if_neg,
    String.ofList_toList]
  intro empty
  exact plain.1 (String.toList_injective empty)

theorem textOr_alphanumeric {value default : String} (plain : Alphanumeric value) :
    textOr (some (.text value)) default = value := by
  rw [textOr, Scalar.truthy, if_pos (decide_eq_true plain.1), Scalar.render]

theorem colon_not_mem {value : String} (plain : Alphanumeric value) : ':' ∉ value.toList :=
  fun member => absurd (plain.2 _ member) (by decide)

section

variable {parser : Parser} (hashes : parser.Hashes)

include hashes

theorem documentChunkId_eq {path : String} {content : Content} {index place : Nat}
    {metadata : Metadata} (identity : Identity parser path content index metadata) :
    documentChunkId parser.sourceHash metadata place = chunkKey parser path content index := by
  rw [documentChunkId, identity.document, identity.origin, identity.place,
    textOr_alphanumeric (hashes.document content), textOr_alphanumeric (hashes.source path),
    safeId_alphanumeric (hashes.source path), safeId_alphanumeric (hashes.document content)]
  rfl

/-- The id of a chunk tells the hash of its content, and its place. -/
theorem chunkKey_injective {path other : String} {content stored : Content} {index place : Nat}
    (same : chunkKey parser path content index = chunkKey parser other stored place) :
    parser.documentHash content = parser.documentHash stored ∧ index = place := by
  have shape : ∀ path content index, (chunkKey parser path content index).toList =
      (parser.sourceHash path).toList ++ ':' :: ((parser.documentHash content).toList ++
        ':' :: ("chunk:" ++ toString (index : Int)).toList) := by
    intro path content index
    simp only [chunkKey, String.toList_append, List.append_assoc]
    rfl
  have lists := congrArg String.toList same
  rw [shape, shape] at lists
  have first := congrArg (Text.partition ':') lists
  rw [Text.partition_append (colon_not_mem (hashes.source path)),
    Text.partition_append (colon_not_mem (hashes.source other)), Prod.mk.injEq,
    Option.some.injEq] at first
  have second := congrArg (Text.partition ':') first.2
  rw [Text.partition_append (colon_not_mem (hashes.document content)),
    Text.partition_append (colon_not_mem (hashes.document stored)), Prod.mk.injEq,
    Option.some.injEq] at second
  refine ⟨String.toList_injective second.1, Text.toString_natCast_injective ?_⟩
  have numbers := second.2
  rw [String.toList_append, String.toList_append] at numbers
  exact String.toList_injective (List.append_cancel_left numbers)

end

/-! ## Insertions -/

theorem addChunks_entries {world : World} {added : List (String × Chunk)}
    (distinct : (added.map Prod.fst).Nodup)
    (fresh : ∀ entry ∈ added, world.chunks.get? entry.1 = none) :
    (world.addChunks added).chunks.entries = world.chunks.entries ++ added := by
  induction added generalizing world with
  | nil => exact (List.append_nil _).symm
  | cons entry rest induction =>
      rw [List.map_cons, List.nodup_cons] at distinct
      have absent := fresh entry List.mem_cons_self
      have first : (addChunk world.chunks entry).entries = world.chunks.entries ++ [entry] := by
        have unkeyed : ¬ world.chunks.entries.any (·.1 == entry.1) := by
          rw [List.any_eq_true]
          rintro ⟨other, member, same⟩
          rw [beq_iff_eq] at same
          rw [← same, Dictionary.get?_eq_some.mpr member] at absent
          cases absent
        rw [addChunk, absent]
        change (if _ then _ else _) = _
        rw [if_neg unkeyed]
      have later : ∀ other ∈ rest, (addChunk world.chunks entry).get? other.1 = none := by
        intro other member
        have absentOther := fresh other (List.mem_cons_of_mem _ member)
        cases found : (addChunk world.chunks entry).get? other.1 with
        | none => rfl
        | some chunk =>
            rw [Dictionary.get?_eq_some, first, List.mem_append, List.mem_singleton] at found
            rcases found with old | new
            · rw [Dictionary.get?_eq_some.mpr old] at absentOther
              cases absentOther
            · refine absurd (List.mem_map_of_mem (f := Prod.fst) member) ?_
              rw [← new] at distinct
              exact distinct.1
      have rested := @induction { world with chunks := addChunk world.chunks entry }
        distinct.2 later
      change (rest.foldl addChunk (addChunk world.chunks entry)).entries = _
      exact rested.trans (by rw [first, List.append_assoc, List.singleton_append])

/-- The chunks of other sources stay when the ones of a source are deleted. -/
theorem chunksOf_withoutSource_of_ne {world : World} {source other : String}
    (different : other ≠ source) :
    (world.withoutSource source).chunksOf other = world.chunksOf other := by
  change List.filter _ (List.filter _ _) = _
  rw [List.filter_filter, World.chunksOf]
  apply List.filter_congr
  rintro ⟨id, chunk⟩ member
  by_cases own : chunk.source = some (.text other)
  · have kept : id ∉ (world.chunksOf source).map Prod.fst := by
      intro listed
      have source := source_of_mem_chunksOf listed (Dictionary.get?_eq_some.mpr member)
      rw [own] at source
      exact different (Scalar.text.inj (Option.some.inj source))
    change (decide (chunk.source = some (.text other)) &&
      !decide (id ∈ (world.chunksOf source).map Prod.fst)) =
        decide (chunk.source = some (.text other))
    rw [decide_eq_false kept]
    exact Bool.and_true _
  · rw [decide_eq_false own, Bool.false_and]

theorem chunksOf_withoutSource_self {world : World} (source : String) :
    (world.withoutSource source).chunksOf source = [] := by
  rw [List.eq_nil_iff_forall_not_mem]
  rintro ⟨id, chunk⟩ member
  obtain ⟨stored, own⟩ := mem_chunksOf.mp member
  exact (get?_withoutSource.mp stored).2 own

/-- Every chunk is stored under the id that its metadata give it. -/
def Keyed (parser : Parser) (world : World) : Prop :=
  ∀ id chunk, world.chunks.get? id = some chunk → ∃ path content index,
    id = chunkKey parser path content index ∧ Identity parser path content index chunk.metadata

section

variable {parser : Parser} {world : World} {path : String} {content : Content}
  {documents : List Document}

theorem Keyed.withoutSource (keyed : Keyed parser world) (source : String) :
    Keyed parser (world.withoutSource source) :=
  fun id chunk stored => keyed id chunk (get?_withoutSource.mp stored).1

/-- No chunk carries the hash of a content. -/
def Unheld (parser : Parser) (content : Content) (world : World) : Prop :=
  ∀ id chunk, world.chunks.get? id = some chunk →
    chunk.metadata.get? "document_id" ≠ some (.text (parser.documentHash content))

variable (hashes : parser.Hashes) (identified : Identified parser path content documents)

include hashes identified

theorem mem_chunksFor {entry : String × Chunk} (member : entry ∈ chunksFor parser documents) :
    ∃ index, entry.1 = chunkKey parser path content index ∧
      Identity parser path content index entry.2.metadata := by
  obtain ⟨⟨document, index⟩, found, rfl⟩ := List.mem_map.mp member
  have identity := identified document index found
  exact ⟨index, documentChunkId_eq hashes identity, identity⟩

theorem nodup_chunksFor : ((chunksFor parser documents).map Prod.fst).Nodup := by
  have keys : (chunksFor parser documents).map Prod.fst =
      (List.range' 0 documents.length).map (chunkKey parser path content) := by
    rw [chunksFor, List.map_map, ← List.zipIdx_map_snd, List.map_map]
    apply List.map_congr_left
    rintro ⟨document, index⟩ member
    exact documentChunkId_eq hashes (identified document index member)
  have places : (List.range' 0 documents.length).Nodup := List.nodup_range'
  rw [keys]
  exact places.map fun _ _ same => (chunkKey_injective hashes same).2

theorem fresh_chunksFor (keyed : Keyed parser world) (unheld : Unheld parser content world) :
    ∀ entry ∈ chunksFor parser documents, world.chunks.get? entry.1 = none := by
  intro entry member
  obtain ⟨index, key, -⟩ := mem_chunksFor hashes identified member
  cases found : world.chunks.get? entry.1 with
  | none => rfl
  | some chunk =>
      obtain ⟨other, stored, place, otherKey, identity⟩ := keyed _ _ found
      have same := (chunkKey_injective hashes (key.symm.trans otherKey)).1
      exact absurd (identity.document.trans (by rw [same])) (unheld _ _ found)

/-- The documents of a content that no chunk carries are all inserted. -/
theorem addChunks_identified (keyed : Keyed parser world) (unheld : Unheld parser content world) :
    (world.addChunks (chunksFor parser documents)).chunks.entries =
      world.chunks.entries ++ chunksFor parser documents :=
  addChunks_entries (nodup_chunksFor hashes identified)
    (fresh_chunksFor hashes identified keyed unheld)

theorem get?_addChunks_identified (keyed : Keyed parser world)
    (unheld : Unheld parser content world) {id : String} {chunk : Chunk} :
    (world.addChunks (chunksFor parser documents)).chunks.get? id = some chunk ↔
      world.chunks.get? id = some chunk ∨ (id, chunk) ∈ chunksFor parser documents := by
  rw [Dictionary.get?_eq_some, addChunks_identified hashes identified keyed unheld,
    List.mem_append, Dictionary.get?_eq_some]

theorem Keyed.addChunks (keyed : Keyed parser world) (unheld : Unheld parser content world) :
    Keyed parser (world.addChunks (chunksFor parser documents)) := by
  intro id chunk stored
  rcases (get?_addChunks_identified hashes identified keyed unheld).mp stored with old | new
  · exact keyed id chunk old
  · obtain ⟨index, key, identity⟩ := mem_chunksFor hashes identified new
    exact ⟨path, content, index, key, identity⟩

theorem chunksOf_addChunks_self (keyed : Keyed parser world)
    (unheld : Unheld parser content world) (nothing : world.chunksOf path = []) :
    ((world.addChunks (chunksFor parser documents)).chunksOf path).length =
      documents.length := by
  rw [World.chunksOf, addChunks_identified hashes identified keyed unheld, List.filter_append]
  have none : List.filter (fun entry => decide (entry.2.source = some (.text path)))
      world.chunks.entries = [] := nothing
  rw [none, List.nil_append, List.filter_eq_self.mpr]
  · rw [chunksFor, List.length_map, List.length_zipIdx]
  · intro entry member
    obtain ⟨index, -, identity⟩ := mem_chunksFor hashes identified member
    exact decide_eq_true identity.source

theorem chunksOf_addChunks_of_ne (keyed : Keyed parser world)
    (unheld : Unheld parser content world) {other : String} (different : other ≠ path) :
    (world.addChunks (chunksFor parser documents)).chunksOf other = world.chunksOf other := by
  rw [World.chunksOf, addChunks_identified hashes identified keyed unheld, List.filter_append,
    World.chunksOf, List.append_right_eq_self, List.filter_eq_nil_iff]
  intro entry member
  obtain ⟨index, -, identity⟩ := mem_chunksFor hashes identified member
  rw [decide_eq_true_iff]
  intro own
  rw [Chunk.source, identity.source] at own
  exact different (Scalar.text.inj (Option.some.inj own)).symm

end

end RAGuardian.Documents
