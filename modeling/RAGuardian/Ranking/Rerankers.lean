import Mathlib.Algebra.Ring.Int.Defs
import Mathlib.Data.List.Sort
import Mathlib.Order.Defs.LinearOrder
import RAGuardian.Ranking.Documents

/-! # Rerankers

The local cross-encoder and the remote service score the candidates of a query. Their
callers drop what is below the relevance threshold. -/

namespace RAGuardian.Ranking

open Json

/-- The scores of a service as metadata values, and `float(value)`. -/
structure Floats (Score : Type) where
  value : Score → Value
  read : Value → Option Score
  read_value : ∀ score, read (value score) = some score
  value_ne_null : ∀ score, value score ≠ .null

variable {Score : Type} [LinearOrder Score] [Zero Score]

/-! ## Services -/

/-- What the services behind the rerankers answer: the cross-encoder to a list of pairs;
`/rerank` to a query with its documents, unless the request fails; and a chat completion
to a query with one document, when it holds a number. -/
structure Service (Score : Type) where
  predict : List (String × String) → List Score
  rerank : String → List String → Option (List (Nat × Option Score))
  complete : String → String → Option Score

/-- `results.get(i, 0.0)`, where `results` keeps the last item of an index -/
def relevanceScore (results : List (Nat × Option Score)) (index : Nat) : Score :=
  match results.reverse.find? fun item => item.1 == index with
  | some (_, some score) => score
  | some (_, none) => 0
  | none => 0

/-- Every request is answered with a score for each of its documents. -/
structure Service.Answers (service : Service Score) (score : String → Score) (query : String)
    (contents : List String) : Prop where
  predict : service.predict (contents.map fun content => (query, content)) = contents.map score
  rerank : ∃ results, service.rerank query contents = some results ∧
    ∀ index content, contents[index]? = some content →
      results.reverse.find? (fun item => item.1 == index) = some (index, some (score content))
  complete : ∀ content ∈ contents, service.complete query content = some (score content)

/-! ## Rerankers -/

/-- `_with_reranker_score` -/
def withRerankerScore (floats : Floats Score) (doc : Document) (score : Score) : Document :=
  { doc with metadata := doc.metadata.set "reranker_score" (floats.value score) }

/-- The documents with their scores, by descending score, and the first `topN` of them -/
def bestScored (floats : Floats Score) (docs : List Document) (scores : List Score)
    (topN : Int) : List Document :=
  let scoredDocs := (docs.zip scores).map fun pair =>
    (withRerankerScore floats pair.1 pair.2, pair.2)
  ((scoredDocs.insertionSort fun left right => right.2 ≤ left.2).take topN.toNat).map Prod.fst

/-- `BGEReranker.rerank` -/
def rerankLocally (floats : Floats Score) (service : Service Score) (query : String)
    (docs : List Document) (topN : Int) : List Document :=
  if docs = [] ∨ topN ≤ 0 then []
  else bestScored floats docs (service.predict (docs.map fun doc => (query, doc.pageContent))) topN

/-- `_rerank_batch`; `none` stands for an exception. -/
def rerankBatch (service : Service Score) (query : String) (docs : List Document) :
    Option (List Score) :=
  (service.rerank query (docs.map (·.pageContent))).map fun results =>
    (List.range docs.length).map (relevanceScore results)

/-- `_rerank_chat` -/
def rerankChat (service : Service Score) (query : String) (docs : List Document) : List Score :=
  docs.map fun doc => (service.complete query doc.pageContent).getD 0

/-- `RemoteReranker.rerank` -/
def rerankRemotely (floats : Floats Score) (service : Service Score) (useRerankEndpoint : Bool)
    (query : String) (docs : List Document) (topN : Int) : List Document :=
  if docs = [] ∨ topN ≤ 0 then []
  else if (docs.length : Int) ≤ topN then docs
  else
    let rawScores :=
      if useRerankEndpoint then rerankBatch service query docs
      else some (rerankChat service query docs)
    match rawScores with
    | some rawScores => bestScored floats docs rawScores topN
    | none => docs.take topN.toNat

inductive Reranker
  | bge
  | remote (useRerankEndpoint : Bool)
  deriving DecidableEq

def Reranker.rerank (floats : Floats Score) (service : Service Score) :
    Reranker → String → List Document → Int → List Document
  | .bge => rerankLocally floats service
  | .remote useRerankEndpoint => rerankRemotely floats service useRerankEndpoint

/-! ## Callers -/

/-- `_document_float` -/
def documentFloat (floats : Floats Score) (doc : Document) (key : String) : Option Score :=
  match doc.metadata.get key with
  | .null => none
  | value => floats.read value

/-- `_reranker_score`, and `_document_float` of the score -/
def rerankerScore (floats : Floats Score) (doc : Document) : Option Score :=
  documentFloat floats doc "reranker_score"

/-- The filter of both callers -/
def keepRelevant (floats : Floats Score) (threshold : Score) (docs : List Document) :
    List Document :=
  if 0 < threshold then
    docs.filter fun doc =>
      match rerankerScore floats doc with
      | none => true
      | some score => threshold ≤ score
  else docs

/-- `query_with_rerank`, from the candidates on -/
def queryWithRerank (floats : Floats Score) (service : Service Score) (reranker : Reranker)
    (query : String) (docs : List Document) (k : Int) (scoreThreshold : Score) : List Document :=
  keepRelevant floats scoreThreshold (reranker.rerank floats service query docs k)

def withoutEmbedding (doc : Document) : Document :=
  { doc with metadata := doc.metadata.filter fun entry => entry.1 != "_rag_embedding" }

/-- The rerank step of `_get_federated_context`, and what follows it -/
def federatedRerank (floats : Floats Score) (service : Service Score) (reranker : Reranker)
    (query : String) (candidates : List Document) (k : Int) (threshold : Score) : List Document :=
  (keepRelevant floats threshold (reranker.rerank floats service query candidates k)).map
    withoutEmbedding

/-! ## Enforcement -/

/-- Every document returned is relevant enough, and they are in the order of their
relevance. -/
structure Enforced (score : String → Score) (threshold : Score) (docs : List Document) : Prop where
  relevant : ∀ doc ∈ docs, threshold ≤ score doc.pageContent
  sorted : docs.Pairwise fun first second => score second.pageContent ≤ score first.pageContent

section

variable {floats : Floats Score} {service : Service Score} {score : String → Score}
variable {query : String} {docs : List Document} {k : Int} {threshold : Score}

/-- Every document carries the score of its text. -/
def Scored (floats : Floats Score) (score : String → Score) (docs : List Document) : Prop :=
  ∀ doc ∈ docs, rerankerScore floats doc = some (score doc.pageContent)

omit [LinearOrder Score] [Zero Score] in
theorem rerankerScore_withRerankerScore (doc : Document) (value : Score) :
    rerankerScore floats (withRerankerScore floats doc value) = some value := by
  rw [rerankerScore, documentFloat, withRerankerScore, Metadata.get_set_self]
  split
  · rename_i null
    exact absurd null (floats.value_ne_null value)
  · exact floats.read_value value

omit [LinearOrder Score] [Zero Score] in
theorem zip_scores (score : Document → Score) (docs : List Document) :
    docs.zip (docs.map score) = docs.map fun doc => (doc, score doc) := by
  induction docs with
  | nil => rfl
  | cons doc docs induction => rw [List.map_cons, List.zip_cons_cons, induction, List.map_cons]

omit [Zero Score] in
/-- The best documents carry their scores, in descending order. -/
theorem bestScored_spec (floats : Floats Score) (score : String → Score) (docs : List Document)
    (topN : Int) :
    Scored floats score (bestScored floats docs (docs.map fun doc => score doc.pageContent) topN) ∧
      (bestScored floats docs (docs.map fun doc => score doc.pageContent) topN).Pairwise
        fun first second => score second.pageContent ≤ score first.pageContent := by
  have carried : ∀ pair ∈ docs.map (fun doc =>
      (withRerankerScore floats doc (score doc.pageContent), score doc.pageContent)),
      rerankerScore floats pair.1 = some (score pair.1.pageContent) ∧
        pair.2 = score pair.1.pageContent := by
    intro pair member
    obtain ⟨doc, -, rfl⟩ := List.mem_map.mp member
    exact ⟨rerankerScore_withRerankerScore doc _, rfl⟩
  have best : bestScored floats docs (docs.map fun doc => score doc.pageContent) topN =
      (((docs.map fun doc =>
        (withRerankerScore floats doc (score doc.pageContent), score doc.pageContent)).insertionSort
          fun left right => right.2 ≤ left.2).take topN.toNat).map Prod.fst := by
    rw [bestScored, zip_scores, List.map_map]
    rfl
  rw [best]
  constructor
  · intro doc member
    obtain ⟨pair, listed, rfl⟩ := List.mem_map.mp member
    exact (carried pair ((List.mem_insertionSort _).mp (List.mem_of_mem_take listed))).1
  · rw [List.pairwise_map]
    refine List.Pairwise.sublist (List.take_sublist _ _) ?_
    refine (List.pairwise_insertionSort (fun left right : Document × Score => right.2 ≤ left.2)
      _).imp_of_mem ?_
    intro first second firstMember secondMember order
    rw [← (carried first ((List.mem_insertionSort _).mp firstMember)).2,
      ← (carried second ((List.mem_insertionSort _).mp secondMember)).2]
    exact order

omit [LinearOrder Score] in
/-- The answer of `/rerank`, read back at the positions of its documents -/
theorem rerankBatch_of_answers
    (answers : service.Answers score query (docs.map (·.pageContent))) :
    rerankBatch service query docs = some (docs.map fun doc => score doc.pageContent) := by
  obtain ⟨results, answered, scored⟩ := answers.rerank
  rw [rerankBatch, answered, Option.map_some, Option.some_inj]
  apply List.ext_getElem
  · simp
  · intro index first second
    have inside : index < docs.length := by simpa using first
    have found := scored index docs[index].pageContent (by simp [inside])
    simp [relevanceScore, found]

omit [LinearOrder Score] in
theorem rerankChat_of_answers
    (answers : service.Answers score query (docs.map (·.pageContent))) :
    rerankChat service query docs = docs.map fun doc => score doc.pageContent := by
  rw [rerankChat]
  apply List.map_congr_left
  intro doc member
  rw [answers.complete doc.pageContent (List.mem_map_of_mem member), Option.getD_some]

/-- Either reranker returns the best documents, or the remote one its input: the list is
no longer than `k`. -/
theorem rerank_of_answers (reranker : Reranker)
    (answers : service.Answers score query (docs.map (·.pageContent))) :
    reranker.rerank floats service query docs k =
      if docs = [] ∨ k ≤ 0 then []
      else if reranker ≠ .bge ∧ (docs.length : Int) ≤ k then docs
      else bestScored floats docs (docs.map fun doc => score doc.pageContent) k := by
  cases reranker with
  | bge =>
      have predicted : service.predict (docs.map fun doc => (query, doc.pageContent)) =
          docs.map fun doc => score doc.pageContent := by
        simpa [List.map_map, Function.comp_def] using answers.predict
      simp [Reranker.rerank, rerankLocally, predicted]
  | remote useRerankEndpoint =>
      cases useRerankEndpoint with
      | true => simp [Reranker.rerank, rerankRemotely, rerankBatch_of_answers answers]
      | false => simp [Reranker.rerank, rerankRemotely, rerankChat_of_answers answers]

/-- A recorded score below the threshold excludes a document. -/
def Excluded (floats : Floats Score) (threshold : Score) (doc : Document) : Prop :=
  ∃ recorded, rerankerScore floats doc = some recorded ∧ recorded < threshold

omit [Zero Score] in
theorem not_excluded_iff (doc : Document) :
    ¬Excluded floats threshold doc ↔
      (match rerankerScore floats doc with
      | none => true
      | some score => decide (threshold ≤ score)) = true := by
  unfold Excluded
  cases rerankerScore floats doc <;> simp

/-- The documents a recorded score does not exclude are relevant, and in the order of their
relevance, before any reranking. -/
structure Ranked (floats : Floats Score) (score : String → Score) (threshold : Score)
    (docs : List Document) : Prop where
  relevant : ∀ doc ∈ docs, ¬Excluded floats threshold doc → threshold ≤ score doc.pageContent
  sorted : docs.Pairwise fun first second =>
    ¬Excluded floats threshold first → ¬Excluded floats threshold second →
      score second.pageContent ≤ score first.pageContent

/-- The filter enforces the threshold exactly on ranked documents. -/
theorem keepRelevant_enforced_iff (positive : 0 < threshold) :
    Enforced score threshold (keepRelevant floats threshold docs) ↔
      Ranked floats score threshold docs := by
  rw [keepRelevant, if_pos positive]
  constructor
  · intro enforced
    refine ⟨?_, ?_⟩
    · intro doc member kept
      exact enforced.relevant doc (List.mem_filter.mpr ⟨member, (not_excluded_iff doc).mp kept⟩)
    · refine (List.pairwise_filter.mp enforced.sorted).imp ?_
      intro first second order firstKept secondKept
      exact order ((not_excluded_iff first).mp firstKept) ((not_excluded_iff second).mp secondKept)
  · intro ranked
    refine ⟨?_, ?_⟩
    · intro doc member
      obtain ⟨listed, kept⟩ := List.mem_filter.mp member
      exact ranked.relevant doc listed ((not_excluded_iff doc).mpr kept)
    · rw [List.pairwise_filter]
      refine ranked.sorted.imp ?_
      intro first second order firstKept secondKept
      exact order ((not_excluded_iff first).mpr firstKept) ((not_excluded_iff second).mpr secondKept)

omit [Zero Score] in
/-- Documents that carry their scores are filtered by them. -/
theorem Ranked.of_scored (scored : Scored floats score docs)
    (sorted : docs.Pairwise fun first second =>
      score second.pageContent ≤ score first.pageContent) :
    Ranked floats score threshold docs := by
  refine ⟨?_, ?_⟩
  · intro doc member kept
    rw [Excluded, scored doc member] at kept
    simpa using kept
  · refine sorted.imp ?_
    intro first second order _ _
    exact order

/-- Dropping the embeddings changes no text. -/
theorem federatedRerank_enforced_iff (reranker : Reranker) :
    Enforced score threshold
        (federatedRerank floats service reranker query docs k threshold) ↔
      Enforced score threshold
        (queryWithRerank floats service reranker query docs k threshold) := by
  rw [federatedRerank, queryWithRerank]
  constructor
  · rintro ⟨relevant, sorted⟩
    refine ⟨?_, List.pairwise_map.mp sorted⟩
    intro doc member
    exact relevant (withoutEmbedding doc) (List.mem_map_of_mem member)
  · rintro ⟨relevant, sorted⟩
    refine ⟨?_, List.pairwise_map.mpr sorted⟩
    intro doc member
    obtain ⟨kept, listed, rfl⟩ := List.mem_map.mp member
    exact relevant kept listed

/-- With a service that answers, the threshold is enforced unless a remote reranker passes on
as many candidates as it may return, unscored. -/
theorem relevance_enforced_iff (reranker : Reranker)
    (answers : service.Answers score query (docs.map (·.pageContent)))
    (positive : 0 < threshold) :
    (Enforced score threshold
        (queryWithRerank floats service reranker query docs k threshold) ∧
      Enforced score threshold
        (federatedRerank floats service reranker query docs k threshold)) ↔
      (reranker = .bge ∨ k < docs.length ∨ Ranked floats score threshold docs) := by
  rw [federatedRerank_enforced_iff, and_self, queryWithRerank, rerank_of_answers reranker answers,
    keepRelevant_enforced_iff positive]
  obtain ⟨scored, sorted⟩ := bestScored_spec floats score docs k
  have nothing : Ranked floats score threshold [] := ⟨by simp, by simp⟩
  split
  · rename_i idle
    refine iff_of_true nothing ?_
    rcases idle with rfl | zero
    · exact .inr (.inr nothing)
    · by_cases empty : docs = []
      · rw [empty]
        exact .inr (.inr nothing)
      · have := List.length_pos_iff.mpr empty
        exact .inr (.inl (by omega))
  · split
    · rename_i passed
      constructor
      · intro ranked
        exact .inr (.inr ranked)
      · rintro (local' | more | ranked)
        · exact absurd local' passed.1
        · omega
        · exact ranked
    · rename_i ranks
      refine iff_of_true (.of_scored scored sorted) ?_
      by_cases local' : reranker = .bge
      · exact .inl local'
      · have : ¬(docs.length : Int) ≤ k := fun few => ranks ⟨local', few⟩
        exact .inr (.inl (by omega))

end

/-! ## A single candidate -/

/-- Scores that are whole numbers -/
def wholeFloats : Floats Int where
  value := .int
  read := fun
    | .int score => some score
    | _ => none
  read_value _ := rfl
  value_ne_null _ := Value.noConfusion

/-- A service that finds every document of relevance one -/
def constantService : Service Int where
  predict pairs := pairs.map fun _ => 1
  rerank _ contents := some ((List.range contents.length).map fun index => (index, some 1))
  complete _ _ := some 1

def singleCandidate : List Document := [⟨"unrelated", [("source", .str "notes.txt")]⟩]

theorem constantService_answers :
    constantService.Answers (fun _ => 1) "question" (singleCandidate.map (·.pageContent)) := by
  refine ⟨rfl, ⟨_, rfl, ?_⟩, ?_⟩
  · rintro (_ | index) content found
    · rfl
    · simp [singleCandidate] at found
  · intro content _
    rfl

/-- The local reranker discards the candidate. -/
theorem relevance_enforced_iff_bge :
    Enforced (fun _ => (1 : Int)) 5
        (queryWithRerank wholeFloats constantService .bge "question" singleCandidate 5 5) ∧
      Enforced (fun _ => (1 : Int)) 5
        (federatedRerank wholeFloats constantService .bge "question" singleCandidate 5 5) :=
  (relevance_enforced_iff .bge constantService_answers (by decide)).mpr (.inl rfl)

/-- The remote one keeps it, below the threshold. -/
theorem remote_keeps_irrelevant :
    constantService.Answers (fun _ => 1) "question" (singleCandidate.map (·.pageContent)) ∧
      ¬Enforced (fun _ => (1 : Int)) 5
        (queryWithRerank wholeFloats constantService (.remote true) "question"
          singleCandidate 5 5) := by
  refine ⟨constantService_answers, ?_⟩
  intro enforced
  have relevant := enforced.relevant ⟨"unrelated", [("source", .str "notes.txt")]⟩ (by
    simp [queryWithRerank, Reranker.rerank, rerankRemotely, keepRelevant, singleCandidate,
      rerankerScore, documentFloat, Metadata.get, Value.lookup])
  exact absurd relevant (by decide)

end RAGuardian.Ranking
