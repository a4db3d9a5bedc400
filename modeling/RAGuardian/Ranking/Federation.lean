import Mathlib.Algebra.Order.Floor.Semiring
import Mathlib.Data.Prod.Lex
import Mathlib.Data.Rat.Floor
import Mathlib.Data.String.Basic
import RAGuardian.Foundation.Keyed
import RAGuardian.Ranking.Diversity
import RAGuardian.Ranking.Rerankers

/-! # Federated retrieval

One ranked context from the collections of several knowledge bases. The collections answer
in any order. Floating-point numbers are exact. -/

namespace RAGuardian.Ranking

open Json Keyed

/-! ## Numbers and texts -/

/-- The nearest whole number, the even one of two -/
def roundHalfEven (number : ℚ) : Int :=
  let low := ⌊number⌋
  if number - low < 1 / 2 then low
  else if 1 / 2 < number - low then low + 1
  else if low % 2 = 0 then low else low + 1

/-- `round(number, digits)` -/
def roundTo (digits : Nat) (number : ℚ) : ℚ :=
  roundHalfEven (number * 10 ^ digits) / 10 ^ digits

/-- What the ranking uses of the language's libraries. -/
structure Library where
  floats : Floats ℚ
  /-- `str(value)` -/
  str : Value → String
  str_text : ∀ text, str (.str text) = text
  /-- `hashlib.sha256(text.encode("utf-8")).hexdigest()` -/
  digest : String → String
  /-- `_cosine_similarity` -/
  similarity : Value → Value → ℚ

/-- `re.sub(r"\s+", " ", value)` -/
def squeezeSpaces (space : Bool) : List Char → List Char
  | [] => []
  | character :: rest =>
      if Text.isSpace character then
        if space then squeezeSpaces true rest else ' ' :: squeezeSpaces true rest
      else character :: squeezeSpaces false rest

/-- `_normalized_document_content` -/
def normalizedContent (value : String) : String :=
  Text.strip (String.ofList (squeezeSpaces false value.toList))

/-- `items[:stop]` -/
def upTo (stop : Int) (items : List α) : List α :=
  if 0 ≤ stop then items.take stop.toNat else items.take (items.length - stop.natAbs)

section

variable (library : Library)

/-- `str(metadata.get(key) or "")` -/
def textOf (metadata : Metadata) (key : String) : String :=
  library.str ((metadata.get key).orElse (.str ""))

/-- `float(metadata.get("rrf_score") or 0.0)` -/
def rrfScore (doc : Document) : ℚ :=
  (library.floats.read (doc.metadata.get "rrf_score")).getD 0

/-! ## Candidates -/

/-- The knowledge base a collection belongs to -/
structure Target where
  knowledgeBaseId : String
  knowledgeBaseName : String
  collectionName : String
deriving DecidableEq

/-- `round(1.0 / (60 + local_rank), 9)` -/
def localReciprocal (localRank : Nat) : ℚ :=
  roundTo 9 (1 / (60 + localRank))

/-- The entry of a key, unless its value is missing -/
def presentEntry (metadata : Metadata) (key : String) : Option (String × Value) :=
  match metadata.get key with
  | .null => none
  | value => some (key, value)

/-- `_knowledge_base_origin` -/
def knowledgeBaseOrigin (target : Target) (metadata : Metadata) (localRank : Nat) : Metadata :=
  [("knowledge_base_id", .str target.knowledgeBaseId),
    ("knowledge_base_name", .str target.knowledgeBaseName),
    ("source", .str (textOf library metadata "source")),
    ("local_rank", .int localRank),
    ("rrf_score", library.floats.value (localReciprocal localRank))] ++
  ["chunk_id", "page", "page_number", "document_id"].filterMap (presentEntry metadata)

/-- The candidate a retrieved document becomes -/
def candidate (includeEmbeddings : Bool) (target : Target) (embeddings : List Value)
    (doc : Document) (localRank : Nat) : Document :=
  let metadata := ((((doc.metadata.set "knowledge_base_id" (.str target.knowledgeBaseId)).set
    "knowledge_base_name" (.str target.knowledgeBaseName)).set "knowledge_base_origins"
    (.list [.dict (knowledgeBaseOrigin library target doc.metadata localRank)])).set
    "local_rank" (.int localRank)).set
    "rrf_score" (library.floats.value (localReciprocal localRank))
  let embedding := if includeEmbeddings then embeddings[localRank - 1]? else none
  { doc with
    metadata :=
      match embedding with
      | some embedding => metadata.set "_rag_embedding" embedding
      | none => metadata }

/-- The candidates of a collection, from rank one on -/
def candidatesOf (includeEmbeddings : Bool) (retrieve : Target → List Document × List Value)
    (target : Target) : List Document :=
  ((retrieve target).1.zipIdx 1).map fun ranked =>
    candidate library includeEmbeddings target (retrieve target).2 ranked.1 ranked.2

/-- The key of `grouped` -/
def contentKey (doc : Document) : String :=
  library.digest (normalizedContent doc.pageContent)

/-- `grouped.setdefault(content_key, []).append(candidate)`, for every candidate -/
def grouped (docs : List Document) : Dictionary String (List Document) :=
  collect (contentKey library) (fun group doc => group.getD [] ++ [doc]) docs

/-! ## Fusion -/

/-- `_federated_candidate_sort_key` -/
def candidateSortKey (doc : Document) : ℚ ×ₗ ℚ ×ₗ String ×ₗ String ×ₗ String :=
  toLex (-rrfScore library doc,
    toLex (-(documentFloat library.floats doc "chroma_score").getD (-1000000000),
      toLex (textOf library doc.metadata "knowledge_base_id",
        toLex (textOf library doc.metadata "source", textOf library doc.metadata "chunk_id"))))

/-- The entries of `metadata.get("knowledge_base_origins", [])` -/
def originsOf (doc : Document) : List Metadata :=
  match doc.metadata.get "knowledge_base_origins" with
  | .list origins => origins.filterMap fun
      | .dict origin => some origin
      | _ => none
  | _ => []

/-- The key of `origins` -/
def originKey (origin : Metadata) : String ×ₗ String ×ₗ String :=
  toLex (textOf library origin "knowledge_base_id",
    toLex (textOf library origin "source", textOf library origin "chunk_id"))

/-- `rrf_scores_by_knowledge_base` -/
def rrfByKnowledgeBase (duplicates : List Document) : Dictionary String ℚ :=
  collect (fun doc => textOf library doc.metadata "knowledge_base_id")
    (fun best doc => max (best.getD 0) (rrfScore library doc)) duplicates

/-- `origins`, by their sorted keys -/
def mergedOrigins (duplicates : List Document) : List Metadata :=
  let origins := collect (originKey library) (fun _ origin => origin)
    (duplicates.flatMap originsOf)
  (sortBy Prod.fst origins.entries).map Prod.snd

/-- The document that stands for a group of duplicates -/
def fuse (duplicates : List Document) : Option Document :=
  (duplicates.argmin (candidateSortKey library)).map fun primary =>
    { primary with
      metadata := (primary.metadata.set "rrf_score" (library.floats.value
        (roundTo 9 ((rrfByKnowledgeBase library duplicates).entries.map Prod.snd).sum))).set
        "knowledge_base_origins"
        (.list ((mergedOrigins library duplicates).map Value.dict)) }

/-- The candidates in the order of their ranking -/
def rankedCandidates (docs : List Document) : List Document :=
  sortBy (candidateSortKey library)
    ((grouped library docs).entries.filterMap fun group => fuse library group.2)

/-! ## Selection -/

/-- `max(numbers, default=default)` -/
def maximum (default : ℚ) : List ℚ → ℚ
  | [] => default
  | number :: numbers => numbers.foldl max number

/-- The score of a candidate in `_federated_mmr`. There is none if `chroma_score` is no
number. -/
def mmrScore (weight : ℚ) (selected : List Document) (doc : Document) : Option ℚ := do
  let chromaScore := doc.metadata.get "chroma_score"
  let relevance ← if chromaScore.truthy then library.floats.read chromaScore else some 0
  let redundancy := maximum 0 (selected.map fun chosen =>
    library.similarity (doc.metadata.get "_rag_embedding") (chosen.metadata.get "_rag_embedding"))
  some (weight * relevance - (1 - weight) * redundancy)

/-- The loop of `_federated_mmr`; every turn takes one of the candidates. -/
def mmrLoop (limit : Int) (weight : ℚ) :
    Nat → List Document → List Document → Option (List Document)
  | 0, selected, _ => some selected
  | turns + 1, selected, candidates =>
      if candidates = [] ∨ limit ≤ selected.length then some selected
      else do
        let scores ← candidates.mapM (mmrScore library weight selected)
        let scored := (scores.zip candidates).zipIdx
        match scored.argmax fun item => toLex (item.1.1, -(item.2 : ℚ)) with
        | none => some selected
        | some ((score, best), index) =>
            let best := { best with
              metadata := best.metadata.set "mmr_score"
                (library.floats.value (roundTo 6 score)) }
            mmrLoop limit weight turns (selected ++ [best]) (candidates.eraseIdx index)

/-- `_federated_mmr` -/
def federatedMmr (docs : List Document) (limit : Int) (mmrLambda : Value) :
    Option (List Document) :=
  let weight := match library.floats.read mmrLambda with
    | some number => max 0 (min 1 number)
    | none => 7 / 10
  mmrLoop library limit weight docs.length [] docs

end

/-- What the retrieval reads of the settings, the candidate pool as a number -/
structure RagSettings where
  rerankerEnabled : Bool
  rerankerDiversityMode : String
  rerankerTopN : Int
  rerankerMmrCandidatePool : Int
  rerankerMmrLambda : Value
  rerankerThreshold : Value

namespace RagSettings

variable (settings : RagSettings) (k : Int)

def diversityMode : String :=
  Text.lower (Text.strip settings.rerankerDiversityMode)

def topN : Int :=
  max k settings.rerankerTopN

def globalBudget : Int :=
  min 200 (if settings.rerankerEnabled then
    max k (max (settings.topN k)
      (if settings.diversityMode = "mmr" then settings.rerankerMmrCandidatePool else 0))
  else max k (k * 2))

/-- `min(50, max(k, math.ceil(global_budget / count)))` -/
def perCollection (count : Nat) : Int :=
  min 50 (max k (-(-settings.globalBudget k / (count : Int))))

def includeEmbeddings : Bool :=
  settings.diversityMode = "mmr"

end RagSettings

section

variable (library : Library) (settings : RagSettings)

/-- The candidates the reranker gets -/
def diversified (k : Int) (candidates : List Document) : Option (List Document) :=
  if settings.diversityMode = "mmr" then
    federatedMmr library candidates (settings.topN k) settings.rerankerMmrLambda
  else if settings.diversityMode = "source_diversity" then
    some (federatedSourceDiversity library.str candidates (settings.topN k).toNat
      (max 1 (min 3 k)).toNat)
  else some (upTo (settings.topN k) candidates)

/-- The documents of the candidates the context has, if no call raises an exception -/
def selected (rerank : String → List Document → Int → Option (List Document)) (query : String)
    (k : Int) (candidates : List Document) : Option (List Document) :=
  if settings.rerankerEnabled then do
    let diverse ← diversified library settings k candidates
    let reranked ← rerank query diverse k
    let threshold ← library.floats.read
      (settings.rerankerThreshold.orElse (library.floats.value 0))
    some (keepRelevant library.floats threshold reranked)
  else some (upTo k candidates)

/-- `_get_federated_context`, for collections that answer in the order of `completion`.
There is no result if a call raises an exception. -/
def federatedContext (rerank : String → List Document → Int → Option (List Document))
    (retrieve : Int → Bool → Target → List Document × List Value) (query : String) (k : Int)
    (targets completion : List Target) : Option (List Document) :=
  if targets = [] then some []
  else
    let candidates := completion.flatMap (candidatesOf library settings.includeEmbeddings
      (retrieve (settings.perCollection k targets.length) settings.includeEmbeddings))
    let ranked := upTo (settings.globalBudget k) (rankedCandidates library candidates)
    (selected library settings rerank query k ranked).map (List.map withoutEmbedding)

end

end RAGuardian.Ranking
