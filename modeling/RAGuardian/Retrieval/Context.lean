import RAGuardian.Foundation.Concurrency
import RAGuardian.Retrieval.Cache

/-! # Cached queries and index mutations

`_get_context` reads the cache, searches the vector store and stores what it found.
A mutation changes a collection and clears its cache. The calls of all threads of a
process interleave between these steps; one that raises takes no further step. -/

namespace RAGuardian.Retrieval

open Concurrency

/-! ## Names -/

/-- `[A-Za-z0-9_-]`, the characters of the names of collections. -/
def nameCharacter (character : Char) : Bool :=
  character.isAlphanum || character == '_' || character == '-'

structure CollectionName where
  value : String
  nonempty : value ≠ ""
  plain : value.toList.all nameCharacter = true
deriving DecidableEq

/-- The collection of a query that names none. -/
def defaultCollection : CollectionName :=
  ⟨"documents", by decide, by decide⟩

/-! ## Calls -/

/-- The arguments of `_get_context`, and `settings["rag"]["enable_cache"]`. The targets of
a federated query are in the order in which their searches are made. -/
structure ContextCall where
  query : String
  k : Int
  model : String
  useCache : Bool := true
  enableCache : Bool := true
  collectionName : Option CollectionName := none
  conversationId : Option String := none
  knowledgeBaseTargets : List CollectionName := []

namespace ContextCall

/-- The collections the call searches. -/
def collections (call : ContextCall) : List CollectionName :=
  if call.knowledgeBaseTargets.isEmpty then [call.collectionName.getD defaultCollection]
  else call.knowledgeBaseTargets

def cacheQuery (call : ContextCall) : CacheQuery where
  query :=
    (if call.knowledgeBaseTargets.isEmpty then
      (call.collectionName.getD defaultCollection).value
    else
      pluralStart ++ "|".intercalate
        ((call.knowledgeBaseTargets.map (·.value)).insertionSort (· ≤ ·))) ++ "\n" ++ call.query
  k := some call.k
  model := some call.model
  namespaceName :=
    match call.conversationId with
    | none => "stateless"
    | some identifier => if identifier = "" then "stateless" else identifier

end ContextCall

/-- A change of the vectors of a collection, in steps, then `clear_cache_for_collection`. -/
structure Mutation (Update : Type) where
  collection : CollectionName
  updates : List Update

inductive IndexCall (Update : Type)
  | query (call : ContextCall)
  | mutate (mutation : Mutation Update)

/-! ## Requests -/

inductive IndexRequest (Update Document : Type)
  | lookup (query : CacheQuery)
  | search (call : ContextCall) (collection : CollectionName)
  | store (query : CacheQuery) (results : List Document)
  | change (collection : CollectionName) (update : Update)
  | clear (collection : CollectionName)

variable {Update Document : Type}

@[reducible] def IndexRequest.Response : IndexRequest Update Document → Type
  | .lookup _ => Option (List Document)
  | .search _ _ => List Document
  | .store _ _ => Unit
  | .change _ _ => Unit
  | .clear _ => Nat

/-- The cache, and every change of the vector store, oldest first. -/
structure IndexState (Update Document : Type) where
  cache : RagCache (List Document)
  changes : List (CollectionName × Update)

def IndexState.empty : IndexState Update Document := ⟨.empty, []⟩

/-- The changes of one collection. -/
def IndexState.contents (collection : CollectionName) (state : IndexState Update Document) :
    List Update :=
  (state.changes.filter fun change => change.1 = collection).map Prod.snd

/-- What a request meets: the settings and the time for the cache, and what a search
finds in the contents of a collection. -/
structure IndexDraw (Update Document : Type) where
  cache : CacheDraw
  found : ContextCall → CollectionName → List Update → List Document

namespace IndexRequest

def execute (config : CacheConfig (List Document)) (draw : IndexDraw Update Document) :
    (request : IndexRequest Update Document) → IndexState Update Document →
      request.Response × IndexState Update Document
  | .lookup query, state =>
      let (cached, cache) := state.cache.get config draw.cache query
      (cached, { state with cache := cache })
  | .search call collection, state =>
      (draw.found call collection (state.contents collection), state)
  | .store query results, state =>
      ((), { state with cache := state.cache.set config draw.cache query results })
  | .change collection update, state =>
      ((), { state with changes := state.changes ++ [(collection, update)] })
  | .clear collection, state =>
      let (deleted, cache) := state.cache.clearCollection config draw.cache collection.value
      (deleted, { state with cache := cache })

end IndexRequest

/-! ## Programs -/

abbrev IndexProgram (Update Document α : Type) :=
  Program (IndexRequest Update Document) IndexRequest.Response α

/-- One search for each collection. -/
def searchEach (call : ContextCall) :
    List CollectionName → IndexProgram Update Document (List (List Document))
  | [] => .done []
  | collection :: rest =>
      .call (.search call collection) fun found =>
        (searchEach call rest).bind fun others => .done (found :: others)

/-- The part of `_get_context` behind the lookup. The ranking makes one list of what
the searches found. -/
def searchAndStore (rank : ContextCall → List (List Document) → List Document)
    (call : ContextCall) : IndexProgram Update Document (List Document) :=
  (searchEach call call.collections).bind fun found =>
    if call.useCache && call.enableCache then
      .call (.store call.cacheQuery (rank call found)) fun _ => .done (rank call found)
    else .done (rank call found)

/-- `_get_context`; an empty list in the cache counts as nothing. -/
def getContext (rank : ContextCall → List (List Document) → List Document)
    (call : ContextCall) : IndexProgram Update Document (List Document) :=
  if call.useCache && call.enableCache then
    .call (.lookup call.cacheQuery) fun
      | some (first :: others) => .done (first :: others)
      | _ => searchAndStore rank call
  else searchAndStore rank call

def mutateCollection (mutation : Mutation Update) : IndexProgram Update Document Nat :=
  (Program.each mutation.updates fun update =>
    .call (.change mutation.collection update) .done).bind fun _ =>
      .call (.clear mutation.collection) .done

@[reducible] def IndexCall.Outcome (Document : Type) : IndexCall Update → Type
  | .query _ => List Document
  | .mutate _ => Nat

/-- The calls of one process over the in-memory cache. -/
def indexSystem (config : CacheConfig (List Document))
    (rank : ContextCall → List (List Document) → List Document) :
    System (IndexRequest Update Document) IndexRequest.Response (IndexDraw Update Document)
      (IndexState Update Document) (IndexCall Update) (IndexCall.Outcome Document) where
  execute := IndexRequest.execute config
  program
    | .query call => getContext rank call
    | .mutate mutation => mutateCollection mutation
  excludes _ _ := false

end RAGuardian.Retrieval
