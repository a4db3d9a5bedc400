import RAGuardian.Ranking.Federation

/-! # The order of federated results

The collections answer in any order. A candidate is told from every other by its knowledge
base, source and chunk, and so the ranking does not depend on that order. -/

namespace RAGuardian.Ranking

open Json Keyed

section

variable {library : Library} {first second docs duplicates : List Document}

/-! ## Candidates -/

theorem get_candidate {includeEmbeddings : Bool} {target : Target} {embeddings : List Value}
    {doc : Document} {localRank : Nat} {key : String} (other : key ≠ "_rag_embedding") :
    (candidate library includeEmbeddings target embeddings doc localRank).metadata.get key =
      Metadata.get (((((doc.metadata.set "knowledge_base_id" (.str target.knowledgeBaseId)).set
        "knowledge_base_name" (.str target.knowledgeBaseName)).set "knowledge_base_origins"
        (.list [.dict (knowledgeBaseOrigin library target doc.metadata localRank)])).set
        "local_rank" (.int localRank)).set
        "rrf_score" (library.floats.value (localReciprocal localRank))) key := by
  rw [candidate]
  dsimp only
  split
  · exact Metadata.get_set_of_ne _ other _
  · rfl

/-- The metadata of a document is kept under the keys a candidate does not set. -/
theorem get_candidate_of_kept {includeEmbeddings : Bool} {target : Target}
    {embeddings : List Value} {doc : Document} {localRank : Nat} {key : String}
    (kept : key ∉ ["knowledge_base_id", "knowledge_base_name", "knowledge_base_origins",
      "local_rank", "rrf_score", "_rag_embedding"]) :
    (candidate library includeEmbeddings target embeddings doc localRank).metadata.get key =
      doc.metadata.get key := by
  simp only [List.mem_cons, List.not_mem_nil, or_false, not_or] at kept
  obtain ⟨base, name, origins, rank, score, embedding⟩ := kept
  rw [get_candidate embedding, Metadata.get_set_of_ne _ score, Metadata.get_set_of_ne _ rank,
    Metadata.get_set_of_ne _ origins, Metadata.get_set_of_ne _ name,
    Metadata.get_set_of_ne _ base]

/-- The place of a chunk: its knowledge base, source and number -/
def place (library : Library) (doc : Document) : String ×ₗ String ×ₗ String :=
  originKey library doc.metadata

theorem orElse_str (text : String) : (Value.str text).orElse (.str "") = .str text := by
  by_cases blank : text = ""
  · rw [blank]
    rfl
  · simp [Value.orElse, Value.truthy, blank]

theorem place_candidate {includeEmbeddings : Bool} {target : Target} {embeddings : List Value}
    {doc : Document} {localRank : Nat} :
    place library (candidate library includeEmbeddings target embeddings doc localRank) =
      toLex (target.knowledgeBaseId,
        toLex (textOf library doc.metadata "source", textOf library doc.metadata "chunk_id")) := by
  have base : (candidate library includeEmbeddings target embeddings doc localRank).metadata.get
      "knowledge_base_id" = .str target.knowledgeBaseId := by
    rw [get_candidate (by decide), Metadata.get_set_of_ne _ (by decide),
      Metadata.get_set_of_ne _ (by decide), Metadata.get_set_of_ne _ (by decide),
      Metadata.get_set_of_ne _ (by decide), Metadata.get_set_self]
  rw [place, originKey, textOf, textOf, textOf, base, get_candidate_of_kept (by decide),
    get_candidate_of_kept (by decide), orElse_str, library.str_text]
  rfl

theorem originsOf_candidate {includeEmbeddings : Bool} {target : Target}
    {embeddings : List Value} {doc : Document} {localRank : Nat} :
    originsOf (candidate library includeEmbeddings target embeddings doc localRank) =
      [knowledgeBaseOrigin library target doc.metadata localRank] := by
  have origins : (candidate library includeEmbeddings target embeddings doc
      localRank).metadata.get "knowledge_base_origins" =
      .list [.dict (knowledgeBaseOrigin library target doc.metadata localRank)] := by
    rw [get_candidate (by decide), Metadata.get_set_of_ne _ (by decide),
      Metadata.get_set_of_ne _ (by decide), Metadata.get_set_self]
  rw [originsOf, origins]
  rfl

/-- Entries of missing values read as missing ones. -/
theorem lookup_presentEntries (metadata : Metadata) (key : String) (keys : List String) :
    Value.lookup (keys.filterMap (presentEntry metadata)) key =
      if key ∈ keys then metadata.get key else .null := by
  induction keys with
  | nil => rfl
  | cons first keys induction =>
      rw [Value.lookup] at induction ⊢
      by_cases same : first = key
      · subst same
        rw [if_pos List.mem_cons_self, List.filterMap_cons]
        split at induction
        all_goals
          cases present : metadata.get first <;>
            simp_all [presentEntry]
      · have other : (first == key) = false := by simpa using same
        simp only [List.mem_cons, Ne.symm same, false_or]
        rw [← induction, List.filterMap_cons]
        cases present : presentEntry metadata first with
        | none => rfl
        | some entry =>
            have named : entry.1 = first := by
              rw [presentEntry] at present
              split at present
              · cases present
              · cases present
                rfl
            rw [← named] at other
            simp only [List.find?_cons, other]

/-- An origin names the chunk as the candidate does. -/
theorem originKey_knowledgeBaseOrigin (target : Target) (metadata : Metadata) (localRank : Nat) :
    originKey library (knowledgeBaseOrigin library target metadata localRank) =
      toLex (target.knowledgeBaseId,
        toLex (textOf library metadata "source", textOf library metadata "chunk_id")) := by
  have chunk : Metadata.get (knowledgeBaseOrigin library target metadata localRank) "chunk_id" =
      metadata.get "chunk_id" := by
    have kept := lookup_presentEntries metadata "chunk_id"
      ["chunk_id", "page", "page_number", "document_id"]
    rw [if_pos (by decide)] at kept
    rw [← kept]
    rfl
  have base : Metadata.get (knowledgeBaseOrigin library target metadata localRank)
      "knowledge_base_id" = .str target.knowledgeBaseId := rfl
  have source : Metadata.get (knowledgeBaseOrigin library target metadata localRank)
      "source" = .str (textOf library metadata "source") := rfl
  rw [originKey]
  simp only [textOf, base, source, chunk, orElse_str, library.str_text]

/-- Documents in different places, each with one origin that names its place -/
structure Placed (library : Library) (docs : List Document) : Prop where
  distinct : (docs.map (place library)).Nodup
  origin : ∀ doc ∈ docs, ∃ origin, originsOf doc = [origin] ∧
    originKey library origin = place library doc

namespace Placed

theorem sublist (placed : Placed library second) (sub : first.Sublist second) :
    Placed library first where
  distinct := (sub.map (place library)).nodup placed.distinct
  origin doc member := placed.origin doc (sub.mem member)

theorem eq_of_place (placed : Placed library docs) {doc other : Document} (member : doc ∈ docs)
    (otherMember : other ∈ docs) (same : place library doc = place library other) :
    doc = other :=
  List.inj_on_of_nodup_map placed.distinct member otherMember same

/-- The origins are told apart by their keys. -/
theorem origins (placed : Placed library docs) :
    (docs.flatMap originsOf).map (originKey library) = docs.map (place library) := by
  have origin := placed.origin
  clear placed
  induction docs with
  | nil => rfl
  | cons doc docs induction =>
      obtain ⟨single, listed, key⟩ := origin doc List.mem_cons_self
      rw [List.flatMap_cons, listed, List.map_append, List.map_cons, List.map_nil, key,
        induction fun other member => origin other (List.mem_cons_of_mem doc member)]
      rfl

end Placed

/-! ## Fusion -/

theorem place_of_sortKey {doc other : Document}
    (same : candidateSortKey library doc = candidateSortKey library other) :
    place library doc = place library other := by
  simp only [candidateSortKey, EmbeddingLike.apply_eq_iff_eq, Prod.mk.injEq] at same
  obtain ⟨-, -, base, source, chunk⟩ := same
  rw [place, place, originKey, originKey, base, source, chunk]

theorem Placed.apart (placed : Placed library docs) : Apart (candidateSortKey library) docs := by
  intro doc member other otherMember same
  exact placed.eq_of_place member otherMember (place_of_sortKey same)

/-- The best score of each knowledge base, in whatever order they come -/
theorem rrfByKnowledgeBase_sum_of_perm (perm : first.Perm second) :
    ((rrfByKnowledgeBase library first).entries.map Prod.snd).sum =
      ((rrfByKnowledgeBase library second).entries.map Prod.snd).sum := by
  have values : ∀ base, ((rrfByKnowledgeBase library first).get? base).map id =
      ((rrfByKnowledgeBase library second).get? base).map id := by
    intro base
    rw [rrfByKnowledgeBase, rrfByKnowledgeBase, get?_collect, get?_collect]
    have : RightCommutative fun (best : Option ℚ) doc =>
        some (max (best.getD 0) (rrfScore library doc)) :=
      ⟨fun best doc other => by simp [max_right_comm]⟩
    rw [(perm.filter _).foldl_eq]
  have scores := (Dictionary.perm_entries values).map Prod.snd
  simp only [List.map_map, Function.comp_def, id] at scores
  exact scores.sum_eq

theorem mergedOrigins_of_perm (placed : Placed library first) (perm : first.Perm second) :
    mergedOrigins library first = mergedOrigins library second := by
  have distinct : ((first.flatMap originsOf).map (originKey library)).Nodup := by
    rw [placed.origins]
    exact placed.distinct
  have entries := perm_collect_last (perm.flatMap_right originsOf) distinct
  rw [mergedOrigins, mergedOrigins]
  rw [sortBy_eq_of_perm entries]
  intro entry member other otherMember same
  exact List.inj_on_of_nodup_map (Dictionary.distinct _) member otherMember same

/-- The document that stands for a group does not depend on the order of the group. -/
theorem fuse_of_perm (placed : Placed library first) (perm : first.Perm second) :
    fuse library first = fuse library second := by
  rw [fuse, fuse, argmin_eq_of_perm perm placed.apart, rrfByKnowledgeBase_sum_of_perm perm,
    mergedOrigins_of_perm placed perm]

/-- It has the place and the text of one of the group. -/
theorem fuse_eq_some {fused : Document} (result : fuse library duplicates = some fused) :
    ∃ primary ∈ duplicates, place library fused = place library primary ∧
      fused.pageContent = primary.pageContent := by
  rw [fuse, Option.map_eq_some_iff] at result
  obtain ⟨primary, least, rfl⟩ := result
  refine ⟨primary, List.argmin_mem least, ?_, rfl⟩
  simp only [place, originKey, textOf]
  rw [Metadata.get_set_of_ne _ (by decide), Metadata.get_set_of_ne _ (by decide),
    Metadata.get_set_of_ne _ (by decide), Metadata.get_set_of_ne _ (by decide),
    Metadata.get_set_of_ne _ (by decide), Metadata.get_set_of_ne _ (by decide)]

/-! ## Ranking -/

/-- The documents with the same text as others of a list -/
def duplicatesOf (library : Library) (docs : List Document) (key : String) : List Document :=
  docs.filter fun doc => contentKey library doc = key

theorem get?_grouped (docs : List Document) (key : String) :
    (grouped library docs).get? key =
      if duplicatesOf library docs key = [] then none
      else some (duplicatesOf library docs key) :=
  get?_collect_append _ _ _

theorem fused_perm (placed : Placed library first) (perm : first.Perm second) :
    ((grouped library first).entries.filterMap fun group => fuse library group.2).Perm
      ((grouped library second).entries.filterMap fun group => fuse library group.2) := by
  have groups : ∀ key, ((grouped library first).get? key).map (fuse library) =
      ((grouped library second).get? key).map (fuse library) := by
    intro key
    have kept : (duplicatesOf library first key).Perm (duplicatesOf library second key) :=
      perm.filter _
    have both : duplicatesOf library first key = [] ↔ duplicatesOf library second key = [] := by
      rw [← List.length_eq_zero_iff, ← List.length_eq_zero_iff, kept.length_eq]
    rw [get?_grouped, get?_grouped]
    by_cases empty : duplicatesOf library first key = []
    · rw [if_pos empty, if_pos (both.mp empty)]
    · have group : Placed library (duplicatesOf library first key) :=
        placed.sublist List.filter_sublist
      rw [if_neg empty, if_neg (mt both.mpr empty), Option.map_some, Option.map_some,
        fuse_of_perm group kept]
  have fused := (Dictionary.perm_entries groups).filterMap Prod.snd
  simpa only [List.filterMap_map, Function.comp_def] using fused

/-- A fused document stands for the documents with the text of one of them. -/
theorem mem_fused {fused : Document}
    (member : fused ∈ (grouped library docs).entries.filterMap fun group =>
      fuse library group.2) :
    ∃ primary ∈ docs, place library fused = place library primary ∧
      fused.pageContent = primary.pageContent ∧
      fuse library (duplicatesOf library docs (contentKey library primary)) = some fused := by
  obtain ⟨group, listed, result⟩ := List.mem_filterMap.mp member
  have stored := Dictionary.get?_eq_some.mpr listed
  rw [get?_grouped] at stored
  split at stored
  · cases stored
  · rw [Option.some_inj] at stored
    obtain ⟨primary, within, same, text⟩ := fuse_eq_some result
    rw [← stored, duplicatesOf, List.mem_filter] at within
    refine ⟨primary, within.1, same, text, ?_⟩
    rw [of_decide_eq_true within.2, stored, result]

theorem fused_apart (placed : Placed library docs) :
    Apart (candidateSortKey library)
      ((grouped library docs).entries.filterMap fun group => fuse library group.2) := by
  intro fused member other otherMember same
  obtain ⟨primary, listed, samePlace, -, result⟩ := mem_fused member
  obtain ⟨otherPrimary, otherListed, otherPlace, -, otherResult⟩ := mem_fused otherMember
  have primaries := placed.eq_of_place listed otherListed
    (samePlace.symm.trans ((place_of_sortKey same).trans otherPlace))
  rw [primaries, otherResult, Option.some_inj] at result
  exact result.symm

/-- The ranking does not depend on the order of the candidates. -/
theorem rankedCandidates_of_perm (placed : Placed library first) (perm : first.Perm second) :
    rankedCandidates library first = rankedCandidates library second :=
  sortBy_eq_of_perm (fused_perm placed perm) (fused_apart placed)

/-! ## Collections -/

/-- The source and number of a chunk, as the ranking reads them -/
def chunkPair (library : Library) (doc : Document) : String × String :=
  (textOf library doc.metadata "source", textOf library doc.metadata "chunk_id")

variable {includeEmbeddings : Bool} {retrieve : Target → List Document × List Value}
variable {targets : List Target}

theorem map_place_candidatesOf (target : Target) :
    (candidatesOf library includeEmbeddings retrieve target).map (place library) =
      (retrieve target).1.map fun doc =>
        toLex (target.knowledgeBaseId, toLex (chunkPair library doc)) := by
  rw [candidatesOf, List.map_map]
  have names : ∀ ranked : Document × Nat,
      (place library ∘ fun ranked : Document × Nat =>
        candidate library includeEmbeddings target (retrieve target).2 ranked.1 ranked.2) ranked =
        ((fun doc => toLex (target.knowledgeBaseId, toLex (chunkPair library doc))) ∘ Prod.fst)
          ranked :=
    fun _ => place_candidate
  rw [List.map_congr_left fun ranked _ => names ranked, ← List.map_map, List.zipIdx_map_fst]

theorem mem_candidatesOf {target : Target} {doc : Document}
    (member : doc ∈ candidatesOf library includeEmbeddings retrieve target) :
    ∃ original localRank, (original, localRank) ∈ (retrieve target).1.zipIdx 1 ∧
      doc = candidate library includeEmbeddings target (retrieve target).2 original localRank := by
  obtain ⟨⟨original, localRank⟩, listed, rfl⟩ := List.mem_map.mp member
  exact ⟨original, localRank, listed, rfl⟩

/-- The candidates of knowledge bases with different ids are in different places. -/
theorem placed_candidates (ids : (targets.map Target.knowledgeBaseId).Nodup)
    (unique : ∀ target ∈ targets, ((retrieve target).1.map (chunkPair library)).Nodup) :
    Placed library (targets.flatMap (candidatesOf library includeEmbeddings retrieve)) where
  distinct := by
    rw [List.map_flatMap, List.nodup_flatMap]
    constructor
    · intro target member
      have places := (unique target member).map (f := fun pair =>
        toLex (target.knowledgeBaseId, toLex pair)) (by
          intro pair other same
          simpa using same)
      rw [List.map_map] at places
      rw [map_place_candidatesOf]
      exact places
    · have apart := List.pairwise_map.mp ids
      refine apart.imp ?_
      intro target other different
      change List.Disjoint ((candidatesOf library includeEmbeddings retrieve target).map
        (place library)) ((candidatesOf library includeEmbeddings retrieve other).map
        (place library))
      rw [map_place_candidatesOf, map_place_candidatesOf, List.disjoint_left]
      intro found member otherMember
      obtain ⟨doc, -, rfl⟩ := List.mem_map.mp member
      obtain ⟨otherDoc, -, same⟩ := List.mem_map.mp otherMember
      simp only [EmbeddingLike.apply_eq_iff_eq, Prod.mk.injEq] at same
      exact different same.1.symm
  origin := by
    intro doc member
    obtain ⟨target, -, within⟩ := List.mem_flatMap.mp member
    obtain ⟨original, localRank, -, rfl⟩ := mem_candidatesOf within
    exact ⟨_, originsOf_candidate, by rw [originKey_knowledgeBaseOrigin, place_candidate]⟩

end

/-! ## The context -/

section

variable {library : Library} {settings : RagSettings}
variable {rerank : String → List Document → Int → Option (List Document)}
variable {retrieve : Int → Bool → Target → List Document × List Value}
variable {query : String} {k : Int} {targets otherTargets completion otherCompletion : List Target}

/-- What the collections answer in a call -/
abbrev answers (settings : RagSettings)
    (retrieve : Int → Bool → Target → List Document × List Value) (k : Int)
    (targets : List Target) : Target → List Document × List Value :=
  retrieve (settings.perCollection k targets.length) settings.includeEmbeddings

/-- Neither the order of the targets nor that of the answers shows in the context. -/
theorem federatedContext_of_perm (ids : (targets.map Target.knowledgeBaseId).Nodup)
    (unique : ∀ target ∈ targets,
      ((answers settings retrieve k targets target).1.map (chunkPair library)).Nodup)
    (reordered : otherTargets.Perm targets) (completed : completion.Perm targets)
    (otherCompleted : otherCompletion.Perm otherTargets) :
    federatedContext library settings rerank retrieve query k targets completion =
      federatedContext library settings rerank retrieve query k otherTargets otherCompletion := by
  have completions : completion.Perm otherCompletion :=
    completed.trans (reordered.symm.trans otherCompleted.symm)
  have placed : Placed library (completion.flatMap (candidatesOf library
      settings.includeEmbeddings (answers settings retrieve k targets))) := by
    refine placed_candidates ((completed.map _).nodup_iff.mpr ids) ?_
    intro target member
    exact unique target (completed.mem_iff.mp member)
  have none : targets = [] ↔ otherTargets = [] := by
    rw [← List.length_eq_zero_iff, ← List.length_eq_zero_iff, reordered.length_eq]
  have ranked := rankedCandidates_of_perm placed (completions.flatMap_right _)
  unfold answers at ranked
  simp only [federatedContext, reordered.length_eq, ranked, none]

end

end RAGuardian.Ranking
