import RAGuardian.Ranking.FederatedOrder

/-! # What federated results are made of

Each text is in the context once, with the sum of its best scores in the knowledge bases
that have it. -/

namespace RAGuardian.Ranking

open Json Keyed

/-! ## Selections -/

/-- What a reranker leaves of a document -/
def view (doc : Document) : String × Value :=
  (doc.pageContent, doc.metadata.get "rrf_score")

/-- The reranker returns documents it was given, each of them at most once. -/
def Selects (rerank : String → List Document → Int → Option (List Document)) : Prop :=
  ∀ query docs k result, rerank query docs k = some result →
    (result.map view).Subperm (docs.map view)

theorem view_set {doc : Document} {key : String} (other : key ≠ "rrf_score") (value : Value) :
    view { doc with metadata := doc.metadata.set key value } = view doc := by
  rw [view, view, Metadata.get_set_of_ne _ other.symm]

theorem view_withoutEmbedding (doc : Document) : view (withoutEmbedding doc) = view doc := by
  have kept : Metadata.get (doc.metadata.filter fun entry => entry.1 != "_rag_embedding")
      "rrf_score" = doc.metadata.get "rrf_score" := by
    unfold Metadata.get Value.lookup
    induction doc.metadata with
    | nil => rfl
    | cons entry rest induction =>
        by_cases embedding : entry.1 = "_rag_embedding"
        · have skipped : (entry.1 == "rrf_score") = false := by
            rw [embedding]
            rfl
          rw [List.filter_cons_of_neg (by simp [embedding])]
          simp only [List.find?_cons, skipped]
          exact induction
        · rw [List.filter_cons_of_pos (by simpa using embedding)]
          simp only [List.find?_cons]
          split
          · rfl
          · exact induction
  rw [view, view, withoutEmbedding, kept]

theorem subperm_map {first second : List α} (within : first.Subperm second) (image : α → β) :
    (first.map image).Subperm (second.map image) := by
  obtain ⟨reordered, perm, sub⟩ := within
  exact ⟨reordered.map image, perm.map image, sub.map image⟩

theorem upTo_sublist (stop : Int) (items : List α) : (upTo stop items).Sublist items := by
  rw [upTo]
  split
  · exact List.take_sublist _ _
  · exact List.take_sublist _ _

theorem federatedLoop_subperm {Key : Type} [DecidableEq Key] (source : Document → Key)
    (limit maxPerSource : Nat) (docs selected overflow : List Document) (counts : Key → Nat) :
    (federatedLoop source limit maxPerSource docs selected overflow counts).Subperm
      (selected ++ overflow ++ docs) := by
  induction docs generalizing selected overflow counts with
  | nil =>
      rw [federatedLoop, List.append_nil]
      exact (List.take_sublist _ _).subperm
  | cons doc docs induction =>
      rw [federatedLoop]
      by_cases free : counts (source doc) < maxPerSource
      · have moved : (selected ++ [doc] ++ overflow ++ docs).Perm
            (selected ++ overflow ++ doc :: docs) := by
          simp only [List.append_assoc, List.singleton_append]
          exact List.Perm.append_left selected List.perm_middle.symm
        simp only [if_pos free]
        split
        · refine List.Subperm.trans ?_ moved.subperm
          rw [List.append_assoc]
          exact (List.sublist_append_left _ _).subperm
        · exact (induction _ _ _).trans moved.subperm
      · simp only [if_neg free]
        split
        · rw [List.append_assoc]
          exact (List.sublist_append_left _ _).subperm
        · refine (induction _ _ _).trans ?_
          rw [List.append_assoc, List.append_assoc, List.append_assoc, List.singleton_append]

section

variable {library : Library} {settings : RagSettings}

/-- Each turn moves one of the candidates. -/
theorem mmrLoop_subperm {limit : Int} {weight : ℚ} {turns : Nat}
    {selected candidates result : List Document}
    (looped : mmrLoop library limit weight turns selected candidates = some result) :
    (result.map view).Subperm ((selected ++ candidates).map view) := by
  induction turns generalizing selected candidates with
  | zero =>
      rw [mmrLoop, Option.some_inj] at looped
      rw [← looped]
      exact ((List.sublist_append_left selected candidates).map view).subperm
  | succ turns induction =>
      rw [mmrLoop] at looped
      split at looped
      · rw [Option.some_inj] at looped
        rw [← looped]
        exact ((List.sublist_append_left selected candidates).map view).subperm
      · obtain ⟨scores, -, looped⟩ := Option.bind_eq_some_iff.mp looped
        dsimp only at looped
        split at looped
        · rw [Option.some_inj] at looped
          rw [← looped]
          exact ((List.sublist_append_left selected candidates).map view).subperm
        · rename_i score best index found
          refine (induction looped).trans ?_
          have listed := List.mk_mem_zipIdx_iff_getElem?.mp (List.argmax_mem found)
          have inside : candidates[index]? = some best := by
            rw [List.getElem?_zip_eq_some] at listed
            exact listed.2
          obtain ⟨bound, rfl⟩ := List.getElem?_eq_some_iff.mp inside
          have taken := (List.getElem_cons_eraseIdx_perm bound).map view
          rw [List.map_append, List.map_append, List.map_append, List.map_singleton,
            view_set (by decide), List.append_assoc]
          exact (taken.append_left _).subperm

theorem diversified_subperm {k : Int} {candidates result : List Document}
    (diverse : diversified library settings k candidates = some result) :
    (result.map view).Subperm (candidates.map view) := by
  rw [diversified] at diverse
  split at diverse
  · exact mmrLoop_subperm diverse
  · split at diverse
    · rw [Option.some_inj] at diverse
      rw [← diverse]
      exact subperm_map (federatedLoop_subperm _ _ _ candidates [] [] _) view
    · rw [Option.some_inj] at diverse
      rw [← diverse]
      exact ((upTo_sublist _ _).map view).subperm

theorem selected_subperm
    {rerank : String → List Document → Int → Option (List Document)} (selects : Selects rerank)
    {query : String} {k : Int} {candidates result : List Document}
    (chosen : selected library settings rerank query k candidates = some result) :
    (result.map view).Subperm (candidates.map view) := by
  rw [selected] at chosen
  split at chosen
  · obtain ⟨diverse, diversified, chosen⟩ := Option.bind_eq_some_iff.mp chosen
    obtain ⟨reranked, ranked, chosen⟩ := Option.bind_eq_some_iff.mp chosen
    obtain ⟨threshold, -, chosen⟩ := Option.bind_eq_some_iff.mp chosen
    rw [Option.some_inj] at chosen
    have kept : result.Sublist reranked := by
      rw [← chosen, keepRelevant]
      split
      · exact List.filter_sublist
      · exact List.Sublist.refl _
    exact ((kept.map view).subperm.trans (selects _ _ _ _ ranked)).trans
      (diversified_subperm diversified)
  · rw [Option.some_inj] at chosen
    rw [← chosen]
    exact ((upTo_sublist _ _).map view).subperm

end

/-! ## The rerankers -/

section

variable {floats : Floats ℚ}

theorem map_fst_zip_sublist (first : List α) (second : List β) :
    ((first.zip second).map Prod.fst).Sublist first := by
  induction first generalizing second with
  | nil => simp
  | cons item first induction =>
      cases second with
      | nil => simp
      | cons other second => exact (induction second).cons_cons item

theorem bestScored_subperm (docs : List Document) (scores : List ℚ) (topN : Int) :
    ((bestScored floats docs scores topN).map view).Subperm (docs.map view) := by
  rw [bestScored]
  refine List.Subperm.trans (((List.take_sublist _ _).map Prod.fst).map view).subperm ?_
  refine List.Subperm.trans (((List.perm_insertionSort _ _).map Prod.fst).map view).subperm ?_
  have views : (((docs.zip scores).map fun pair =>
      (withRerankerScore floats pair.1 pair.2, pair.2)).map Prod.fst).map view =
      ((docs.zip scores).map Prod.fst).map view := by
    simp only [List.map_map]
    apply List.map_congr_left
    intro pair _
    exact view_set (by decide) _
  rw [views]
  exact ((map_fst_zip_sublist _ _).map view).subperm

/-- The rerankers of the application only select. -/
theorem reranker_selects (service : Service ℚ) (reranker : Reranker) :
    Selects fun query docs k => some (reranker.rerank floats service query docs k) := by
  intro query docs k result reranked
  rw [Option.some_inj] at reranked
  rw [← reranked]
  cases reranker with
  | bge =>
      rw [Reranker.rerank, rerankLocally]
      split
      · exact List.nil_subperm
      · exact bestScored_subperm _ _ _
  | remote useRerankEndpoint =>
      rw [Reranker.rerank, rerankRemotely]
      split
      · exact List.nil_subperm
      · split
        · exact List.Subperm.refl _
        · dsimp only
          split
          · exact bestScored_subperm _ _ _
          · exact ((List.take_sublist _ _).map view).subperm

end

/-! ## Texts -/

section

variable {library : Library} {docs : List Document}

/-- The groups are those of different texts. -/
theorem fused_distinct (docs : List Document) :
    (((grouped library docs).entries.filterMap fun group => fuse library group.2).map
      (contentKey library)).Nodup := by
  have keyed : ∀ group ∈ (grouped library docs).entries, ∀ fused,
      fuse library group.2 = some fused → contentKey library fused = group.1 := by
    intro group listed fused result
    have stored := Dictionary.get?_eq_some.mpr listed
    rw [get?_grouped] at stored
    split at stored
    · cases stored
    · rw [Option.some_inj] at stored
      obtain ⟨primary, within, -, text⟩ := fuse_eq_some result
      rw [← stored, duplicatesOf, List.mem_filter] at within
      rw [contentKey, text]
      exact of_decide_eq_true within.2
  rw [List.Nodup, List.pairwise_map, List.pairwise_filterMap]
  have keys : (grouped library docs).entries.Pairwise fun group other => group.1 ≠ other.1 :=
    List.pairwise_map.mp (grouped library docs).distinct
  refine keys.imp_of_mem ?_
  intro group other listed otherListed different fused result otherFused otherResult same
  rw [keyed group listed fused result, keyed other otherListed otherFused otherResult] at same
  exact different same

theorem rankedCandidates_distinct (docs : List Document) :
    ((rankedCandidates library docs).map (contentKey library)).Nodup :=
  (((sortBy_perm _ _).map _).nodup_iff).mpr (fused_distinct docs)

/-! ## Scores -/

/-- The best score a text has among the documents of one knowledge base, zero if it is not
there -/
def bestReciprocal (docs : List Document) (content : String) : ℚ :=
  (((docs.zipIdx 1).filter fun ranked => normalizedContent ranked.1.pageContent = content).map
    fun ranked => localReciprocal ranked.2).foldl max 0

theorem foldl_best (score : Document → ℚ) (docs : List Document) (best : Option ℚ) :
    (docs.foldl (fun best doc => some (max (best.getD 0) (score doc))) best).getD 0 =
      (docs.map score).foldl max (best.getD 0) := by
  induction docs generalizing best with
  | nil => rfl
  | cons doc docs induction => exact induction _

variable {includeEmbeddings : Bool} {retrieve : Target → List Document × List Value}
variable {targets : List Target}

theorem rrfScore_candidate {target : Target} {embeddings : List Value} {doc : Document}
    {localRank : Nat} :
    rrfScore library (candidate library includeEmbeddings target embeddings doc localRank) =
      localReciprocal localRank := by
  rw [rrfScore, get_candidate (by decide), Metadata.get_set_self, library.floats.read_value]
  rfl

theorem knowledgeBase_candidate {target : Target} {embeddings : List Value} {doc : Document}
    {localRank : Nat} :
    textOf library (candidate library includeEmbeddings target embeddings doc
      localRank).metadata "knowledge_base_id" = target.knowledgeBaseId := by
  have placed := @place_candidate library includeEmbeddings target embeddings doc localRank
  rw [place, originKey] at placed
  exact (Prod.mk.inj placed).1

/-- The candidates of one knowledge base, among those of all -/
theorem filter_candidates (ids : (targets.map Target.knowledgeBaseId).Nodup) {target : Target}
    (member : target ∈ targets) :
    ((targets.flatMap (candidatesOf library includeEmbeddings retrieve)).filter fun doc =>
      textOf library doc.metadata "knowledge_base_id" = target.knowledgeBaseId) =
      candidatesOf library includeEmbeddings retrieve target := by
  have whole : ∀ other : Target, other.knowledgeBaseId = target.knowledgeBaseId →
      ((candidatesOf library includeEmbeddings retrieve other).filter fun doc =>
        textOf library doc.metadata "knowledge_base_id" = target.knowledgeBaseId) =
        candidatesOf library includeEmbeddings retrieve other := by
    intro other same
    rw [List.filter_eq_self]
    intro doc listed
    obtain ⟨original, localRank, -, rfl⟩ := mem_candidatesOf listed
    simpa [knowledgeBase_candidate] using same
  have nothing : ∀ others : List Target, target.knowledgeBaseId ∉
      others.map Target.knowledgeBaseId →
      ((others.flatMap (candidatesOf library includeEmbeddings retrieve)).filter fun doc =>
        textOf library doc.metadata "knowledge_base_id" = target.knowledgeBaseId) = [] := by
    intro others absent
    rw [List.filter_eq_nil_iff]
    intro doc listed
    obtain ⟨other, otherMember, within⟩ := List.mem_flatMap.mp listed
    obtain ⟨original, localRank, -, rfl⟩ := mem_candidatesOf within
    rw [knowledgeBase_candidate]
    intro same
    exact absent (List.mem_map.mpr ⟨other, otherMember, of_decide_eq_true same⟩)
  induction targets with
  | nil => cases member
  | cons first targets induction =>
      rw [List.map_cons, List.nodup_cons] at ids
      rw [List.flatMap_cons, List.filter_append]
      by_cases same : first.knowledgeBaseId = target.knowledgeBaseId
      · have only : first = target := by
          rcases List.mem_cons.mp member with here | later
          · exact here.symm
          · exact absurd (List.mem_map.mpr ⟨target, later, same.symm⟩) ids.1
        rw [whole first same, nothing targets (same ▸ ids.1), List.append_nil, only]
      · have later : target ∈ targets := by
          rcases List.mem_cons.mp member with here | later
          · exact absurd (congrArg Target.knowledgeBaseId here.symm) same
          · exact later
        have none := nothing [first] (by simpa using Ne.symm same)
        rw [List.flatMap_cons, List.flatMap_nil, List.append_nil] at none
        rw [none, List.nil_append, induction ids.2 later]

/-- Different texts have different digests. -/
def DigestsApart (library : Library) (docs : List Document) : Prop :=
  ∀ doc ∈ docs, ∀ other ∈ docs, contentKey library doc = contentKey library other →
    normalizedContent doc.pageContent = normalizedContent other.pageContent

theorem pageContent_candidate {target : Target} {embeddings : List Value} {doc : Document}
    {localRank : Nat} :
    (candidate library includeEmbeddings target embeddings doc localRank).pageContent =
      doc.pageContent :=
  rfl

/-- The scores of a group of duplicates add up over the knowledge bases. -/
theorem rrfByKnowledgeBase_sum (ids : (targets.map Target.knowledgeBaseId).Nodup)
    {primary : Document}
    (member : primary ∈ targets.flatMap (candidatesOf library includeEmbeddings retrieve))
    (digests : DigestsApart library
      (targets.flatMap (candidatesOf library includeEmbeddings retrieve))) :
    ((rrfByKnowledgeBase library (duplicatesOf library
      (targets.flatMap (candidatesOf library includeEmbeddings retrieve))
      (contentKey library primary))).entries.map Prod.snd).sum =
      (targets.map fun target =>
        bestReciprocal (retrieve target).1 (normalizedContent primary.pageContent)).sum := by
  rw [Dictionary.sum_entries _ ids, List.map_map]
  · congr 1
    apply List.map_congr_left
    intro target listed
    rw [Function.comp_apply, rrfByKnowledgeBase, get?_collect, foldl_best, Option.getD_none,
      bestReciprocal]
    congr 1
    rw [duplicatesOf, List.filter_filter, List.filter_congr fun _ _ => Bool.and_comm _ _,
      ← List.filter_filter, filter_candidates ids listed, candidatesOf, List.filter_map,
      List.map_map]
    have sameText : ∀ ranked ∈ (retrieve target).1.zipIdx 1,
        ((fun doc => decide (contentKey library doc = contentKey library primary)) ∘
          fun ranked : Document × Nat => candidate library includeEmbeddings target
            (retrieve target).2 ranked.1 ranked.2) ranked =
          decide (normalizedContent ranked.1.pageContent =
            normalizedContent primary.pageContent) := by
      intro ranked within
      rw [Function.comp_apply, decide_eq_decide]
      constructor
      · intro same
        have here : candidate library includeEmbeddings target (retrieve target).2 ranked.1
            ranked.2 ∈ targets.flatMap (candidatesOf library includeEmbeddings retrieve) :=
          List.mem_flatMap.mpr ⟨target, listed, List.mem_map.mpr ⟨ranked, within, rfl⟩⟩
        exact digests _ here primary member same
      · intro same
        rw [contentKey, contentKey, pageContent_candidate, same]
    rw [List.filter_congr sameText]
    apply List.map_congr_left
    intro ranked _
    exact rrfScore_candidate
  · intro base stored
    by_contra absent
    apply stored
    rw [rrfByKnowledgeBase, get?_collect_eq_none_iff]
    intro doc within same
    obtain ⟨target, listed, from_⟩ := List.mem_flatMap.mp (List.mem_of_mem_filter within)
    obtain ⟨original, localRank, -, rfl⟩ := mem_candidatesOf from_
    rw [knowledgeBase_candidate] at same
    exact absent (List.mem_map.mpr ⟨target, listed, same⟩)

/-- A fused document has the rounded sum of its group. -/
theorem fuse_rrf {duplicates : List Document} {fused : Document}
    (result : fuse library duplicates = some fused) :
    fused.metadata.get "rrf_score" = library.floats.value
      (roundTo 9 ((rrfByKnowledgeBase library duplicates).entries.map Prod.snd).sum) := by
  rw [fuse, Option.map_eq_some_iff] at result
  obtain ⟨primary, -, rfl⟩ := result
  rw [Metadata.get_set_of_ne _ (by decide), Metadata.get_set_self]

/-- Where the context comes from: the documents selected of the ranked candidates, the targets
in any order -/
theorem federatedContext_eq_some {settings : RagSettings}
    {rerank : String → List Document → Int → Option (List Document)}
    {retrieve : Int → Bool → Target → List Document × List Value} {query : String} {k : Int}
    {targets completion : List Target} {docs : List Document}
    (placed : Placed library (targets.flatMap (candidatesOf library settings.includeEmbeddings
      (answers settings retrieve k targets))))
    (completed : completion.Perm targets)
    (context : federatedContext library settings rerank retrieve query k targets completion =
      some docs) :
    docs = [] ∨ ∃ chosen, docs = chosen.map withoutEmbedding ∧
      selected library settings rerank query k (upTo (settings.globalBudget k)
        (rankedCandidates library (targets.flatMap (candidatesOf library
          settings.includeEmbeddings (answers settings retrieve k targets))))) = some chosen := by
  rw [rankedCandidates_of_perm placed (completed.symm.flatMap_right _)]
  rw [federatedContext] at context
  split at context
  · rw [Option.some_inj] at context
    exact .inl context.symm
  · obtain ⟨chosen, result, same⟩ := Option.map_eq_some_iff.mp context
    exact .inr ⟨chosen, same.symm, result⟩

/-- The context does not depend on the order of the targets or of the answers. If the reranker
selects, no text is in it twice, and its documents have the rounded sums of their best scores
in the knowledge bases. -/
theorem federatedContext_stable {settings : RagSettings}
    {rerank : String → List Document → Int → Option (List Document)}
    {retrieve : Int → Bool → Target → List Document × List Value} {query : String} {k : Int}
    {targets : List Target} (ids : (targets.map Target.knowledgeBaseId).Nodup)
    (unique : ∀ target ∈ targets,
      ((answers settings retrieve k targets target).1.map (chunkPair library)).Nodup) :
    (∀ completion otherTargets otherCompletion : List Target, completion.Perm targets →
      otherTargets.Perm targets → otherCompletion.Perm otherTargets →
      federatedContext library settings rerank retrieve query k targets completion =
        federatedContext library settings rerank retrieve query k otherTargets
          otherCompletion) ∧
    (Selects rerank → ∀ completion : List Target, completion.Perm targets → ∀ docs,
      federatedContext library settings rerank retrieve query k targets completion =
        some docs →
      (docs.map fun doc => normalizedContent doc.pageContent).Nodup ∧
      (DigestsApart library (targets.flatMap (candidatesOf library settings.includeEmbeddings
          (answers settings retrieve k targets))) →
        ∀ doc ∈ docs, doc.metadata.get "rrf_score" = library.floats.value
          (roundTo 9 (targets.map fun target =>
            bestReciprocal (answers settings retrieve k targets target).1
              (normalizedContent doc.pageContent)).sum))) := by
  have placed : Placed library (targets.flatMap (candidatesOf library
      settings.includeEmbeddings (answers settings retrieve k targets))) :=
    placed_candidates ids unique
  refine ⟨?_, ?_⟩
  · intro completion otherTargets otherCompletion completed reordered otherCompleted
    exact federatedContext_of_perm ids unique reordered completed otherCompleted
  · intro selects completion completed docs context
    rcases federatedContext_eq_some placed completed context with rfl | ⟨chosen, rfl, result⟩
    · simp
    obtain ⟨kept, perm, sub⟩ := (selected_subperm selects result).trans
      ((upTo_sublist _ _).map view).subperm
    have views : (chosen.map withoutEmbedding).map view = chosen.map view := by
      rw [List.map_map]
      exact List.map_congr_left fun doc _ => view_withoutEmbedding doc
    constructor
    · have distinct : ((rankedCandidates library (targets.flatMap
          (candidatesOf library settings.includeEmbeddings
            (answers settings retrieve k targets)))).map (contentKey library)).Nodup :=
        rankedCandidates_distinct _
      have texts : ∀ docs : List Document, docs.map (contentKey library) =
          (docs.map view).map fun seen => library.digest (normalizedContent seen.1) := by
        intro docs
        rw [List.map_map]
        rfl
      rw [texts] at distinct
      have chosenDistinct := (perm.map _).nodup_iff.mp ((sub.map _).nodup distinct)
      rw [← views, List.map_map] at chosenDistinct
      apply List.Nodup.of_map library.digest
      rw [List.map_map]
      exact chosenDistinct
    · intro digests doc member
      have seen : view doc ∈ (rankedCandidates library (targets.flatMap (candidatesOf library
          settings.includeEmbeddings (answers settings retrieve k targets)))).map view := by
        refine sub.mem (perm.mem_iff.mpr ?_)
        rw [← views]
        exact List.mem_map_of_mem member
      obtain ⟨fused, ranked, same⟩ := List.mem_map.mp seen
      obtain ⟨primary, listed, -, text, fusedResult⟩ :=
        mem_fused ((sortBy_perm _ _).mem_iff.mp ranked)
      obtain ⟨sameText, sameScore⟩ := Prod.mk.inj same
      rw [← sameScore, ← sameText, fuse_rrf fusedResult, text,
        rrfByKnowledgeBase_sum ids listed digests]

end

/-! ## Two knowledge bases -/

/-- Numbers as fractions -/
def fractions : Floats ℚ where
  value number := .list [.int number.num, .int number.den]
  read
    | .list [.int numerator, .int denominator] => some (numerator / denominator)
    | _ => none
  read_value number := by simp [Rat.num_div_den]
  value_ne_null _ := Value.noConfusion

def sampleLibrary : Library where
  floats := fractions
  str value := value.scalarText.getD ""
  str_text _ := rfl
  digest := id
  similarity _ _ := 0

/-- Settings without a threshold, and with or without a reranker -/
def sampleSettings (rerankerEnabled : Bool) : RagSettings where
  rerankerEnabled := rerankerEnabled
  rerankerDiversityMode := "none"
  rerankerTopN := 20
  rerankerMmrCandidatePool := 0
  rerankerMmrLambda := .null
  rerankerThreshold := .null

def legal : Target := ⟨"legal", "Legal", "kb_legal"⟩

def sales : Target := ⟨"sales", "Sales", "kb_sales"⟩

/-- The first chunk of a file, and one without a number -/
def numberedChunk : Document :=
  ⟨"offer", [("source", .str "offer.txt"), ("chunk_id", .int 0)]⟩

def unnumberedChunk : Document :=
  ⟨"terms", [("source", .str "offer.txt")]⟩

/-- The context of a search in both knowledge bases, the answers in the order of
`completion` -/
def sampleContext (rerankerEnabled : Bool) (repeated : Nat) (answered : Target → List Document)
    (k : Int) (completion : List Target) : Option (List Document) :=
  federatedContext sampleLibrary (sampleSettings rerankerEnabled)
    (fun _ docs _ => some (List.replicate repeated docs).flatten)
    (fun _ _ target => (answered target, [])) "offer" k [legal, sales] completion

/-- Both knowledge bases have the offer. -/
theorem federatedContext_stable_offer :
    sampleContext false 1 (fun _ => [numberedChunk]) 5 [legal, sales] =
      sampleContext false 1 (fun _ => [numberedChunk]) 5 [sales, legal] :=
  (federatedContext_stable (by decide) (by simp)).1 [legal, sales] [legal, sales] [sales, legal]
    (.refl _) (.refl _) (.swap _ _ _)

def filler (name : String) (number : Nat) : Document :=
  ⟨name ++ toString number, [("source", .str name), ("chunk_id", .int (number + 1))]⟩

/-- The two chunks are third and twelfth in one knowledge base, and twenty-fourth and twelfth
in the other: their scores add up to the same sum. -/
def tiedAnswers (target : Target) : List Document :=
  if target = legal then
    (List.range 2).map (filler "a") ++ numberedChunk :: (List.range 8).map (filler "b") ++
      [unnumberedChunk]
  else
    (List.range 11).map (filler "c") ++ unnumberedChunk :: (List.range 11).map (filler "d") ++
      [numberedChunk]

/-- The source and number of a chunk in its metadata -/
def metadataPair (doc : Document) : Value × Value :=
  (doc.metadata.get "source", doc.metadata.get "chunk_id")

/-- A chunk numbered zero is taken for one without a number: the order of the answers shows.
The sum of the scores is one of rounded scores, and a reranker that repeats documents has
them repeated. -/
theorem federatedContext_unstable :
    (∀ target ∈ [legal, sales], ((tiedAnswers target).map metadataPair).Nodup) ∧
      sampleContext false 1 tiedAnswers 24 [legal, sales] ≠
        sampleContext false 1 tiedAnswers 24 [sales, legal] ∧
      (sampleContext false 1 (fun _ => [numberedChunk]) 5 [legal, sales]).map
          (List.map (rrfScore sampleLibrary)) = some [32786886 / 1000000000] ∧
      roundTo 9 (1 / 61 + 1 / 61) = 32786885 / 1000000000 ∧
      (sampleContext true 2 (fun _ => [numberedChunk]) 5 [legal, sales]).map
          (List.map fun doc => normalizedContent doc.pageContent) = some ["offer", "offer"] := by
  refine ⟨?_, ?_, by decide +kernel, by decide +kernel, by decide +kernel⟩
  · have texts : ∀ target ∈ [legal, sales], (((tiedAnswers target).map metadataPair).map
        fun pair => (pair.1.scalarText, pair.2.scalarText)).Nodup := by decide +kernel
    intro target member
    exact List.Nodup.of_map _ (texts target member)
  · intro same
    have first := congrArg (Option.map (List.map Document.pageContent)) same
    exact absurd first (by decide +kernel)

end RAGuardian.Ranking
