import Mathlib.Algebra.Order.Ring.Rat
import Mathlib.Data.List.Sort
import RAGuardian.Foundation.Dictionary
import RAGuardian.Foundation.Json

/-! # The retrieval cache

`RAGCache`: results of vector searches, in Redis or in the memory of the process.
With the Redis backend the memory is the fallback of a call whose Redis command
fails. -/

namespace RAGuardian.Retrieval

open Text

abbrev Timestamp := ℚ

/-! ## The cache of the process -/

structure CacheEntry (Results : Type) where
  value : Results
  createdAt : Timestamp
  ttl : Int

/-- `is_expired` -/
def CacheEntry.isExpired {Results : Type} (now : Timestamp) (entry : CacheEntry Results) : Bool :=
  (entry.ttl : ℚ) < now - entry.createdAt

/-- `SimpleLRUCache`, least recently used first. -/
abbrev LruCache (Results : Type) := Dictionary String (CacheEntry Results)

namespace LruCache

variable {Results : Type}

def get (now : Timestamp) (key : String) (cache : LruCache Results) :
    Option Results × LruCache Results :=
  match cache.get? key with
  | none => (none, cache)
  | some entry =>
      if entry.isExpired now then (none, cache.erase key)
      else (some entry.value, cache.moveToEnd key)

def set (maxSize : Nat) (now : Timestamp) (key : String) (value : Results) (ttl : Int)
    (cache : LruCache Results) : LruCache Results :=
  let cache := Dictionary.set key ⟨value, now, ttl⟩ (cache.erase key)
  if maxSize < cache.entries.length then cache.dropOldest else cache

/-- `clear_prefix` and `clear_matching` -/
def clearMatching (test : String → Bool) (cache : LruCache Results) :
    Nat × LruCache Results :=
  (cache.entries.countP fun entry => test entry.1, cache.removeWhere fun key _ => test key)

end LruCache

/-! ## Keys -/

/-- `token in value` -/
def contains (token value : String) : Bool :=
  value.toList.tails.any fun rest => token.toList.isPrefixOf rest

def pluralStart : String := "multi-v2:"

/-- `query.split("\n", 1)[0]` -/
def firstLine (query : String) : String :=
  String.ofList (partition '\n' query.toList).1

/-- The names `_generate_key` finds in the first line of a federated query. -/
def pluralNames (line : String) : List String :=
  ((((line.toList.drop pluralStart.toList.length).splitOn '|').map String.ofList).filter
    (· ≠ "")).insertionSort (· ≤ ·)

/-- The collections a cached query is about. -/
def queryCollections (query : String) : List String :=
  if startsWith pluralStart (firstLine query) then pluralNames (firstLine query)
  else [firstLine query]

/-- The constructor's choice of a backend, the interpreter's `hashlib.sha256` as
hexadecimal digits, and what a result is after a JSON payload: `none` where
`_serialize_documents` raises. -/
structure CacheConfig (Results : Type) where
  redis : Bool
  maxSize : Nat := 100
  keyPrefix : String
  sha256 : String → String
  payload : Results → Option Results

/-- The arguments `get` and `set` share. -/
structure CacheQuery where
  query : String
  k : Option Int := none
  model : Option String := none
  namespaceName : String := "stateless"

/-- The `rag` section of the settings. -/
structure RagSettings where
  enableCache : Bool
  queryK : Int
  defaultModel : String
  cacheTtl : Int

namespace CacheConfig

variable {Results : Type} (config : CacheConfig Results)

def collectionHash (collection : String) : String :=
  truncate 12 (config.sha256 collection)

/-- The mark of one collection in the key of a federated query. -/
def pluralToken (collection : String) : String :=
  "|" ++ config.collectionHash collection ++ "|"

/-- `json.dumps` of the key data, with sorted keys. -/
def keyJson (query : String) (k : Int) (model namespaceName : String) : String :=
  "\x7b\"k\": " ++ toString k ++ ", \"model\": " ++ Json.quoteAscii model ++
    ", \"namespace\": " ++ Json.quoteAscii namespaceName ++ ", \"query\": " ++
    Json.quoteAscii query ++ "\x7d"

/-- `_generate_key` -/
def generateKey (query : String) (k : Int) (model namespaceName : String) : String :=
  let namespaceName := if namespaceName = "" then "stateless" else namespaceName
  let queryHash := truncate 20 (config.sha256 (keyJson query k model namespaceName))
  let collection := firstLine query
  if startsWith pluralStart collection then
    "v2:" ++ String.join ((pluralNames collection).map config.pluralToken) ++ ":" ++ queryHash
  else
    config.collectionHash collection ++ ":" ++ queryHash

/-- The key `get` and `set` work with under the present settings. -/
def cacheKey (settings : RagSettings) (query : CacheQuery) : String :=
  config.generateKey query.query
    (match query.k with
      | none => settings.queryK
      | some k => if k = 0 then settings.queryK else k)
    (match query.model with
      | none => settings.defaultModel
      | some model => if model = "" then settings.defaultModel else model)
    query.namespaceName

/-- `_redis_key` -/
def redisKey (key : String) : String :=
  config.keyPrefix ++ ":cache:" ++ key

/-- The keys of the plain and of the federated queries of a collection. -/
def concerns (collection key : String) : Bool :=
  startsWith (config.collectionHash collection ++ ":") key ||
    (startsWith "v2:" key && contains (config.pluralToken collection) key)

end CacheConfig

/-- Redis patterns whose only special character is the asterisk. -/
def glob : List Char → List Char → Bool
  | [], text => text.isEmpty
  | character :: rest, text =>
      if character == '*' then text.tails.any (glob rest)
      else
        match text with
        | [] => false
        | first :: others => first == character && glob rest others

/-! ## The store -/

structure RagCache (Results : Type) where
  memory : LruCache Results
  redis : Dictionary String Results

def RagCache.empty {Results : Type} : RagCache Results := ⟨.empty, .empty⟩

/-- Whether a Redis operation succeeds. When one of its commands fails, those before
it, and the failing one if only its answer was lost, have dealt with some keys. -/
inductive Connection
  | up
  | down (reached : List String)

/-- What a call meets: the settings, the time, the Redis keys that have expired by
then, and the connection. Only `clear_collection` needs it a second time. -/
structure CacheDraw where
  settings : RagSettings
  now : Timestamp
  expired : List String := []
  connection : Connection := .up
  second : Connection := .up

/-- `collection_name or "documents"` -/
def clearedName (collection : String) : String :=
  if collection = "" then "documents" else collection

namespace RagCache

variable {Results : Type} (config : CacheConfig Results) (draw : CacheDraw)

def without (keys : List String) (cache : RagCache Results) : RagCache Results :=
  { cache with redis := cache.redis.removeWhere fun key _ => keys.contains key }

/-- Read from the memory of the process. -/
def getMemory (key : String) (cache : RagCache Results) : Option Results × RagCache Results :=
  let (value, memory) := LruCache.get draw.now key cache.memory
  (value, { cache with memory := memory })

/-- `get` -/
def get (query : CacheQuery) (cache : RagCache Results) : Option Results × RagCache Results :=
  let cache := cache.without draw.expired
  if draw.settings.enableCache = false then (none, cache)
  else
    let key := config.cacheKey draw.settings query
    if config.redis then
      match draw.connection with
      | .up => (cache.redis.get? (config.redisKey key), cache)
      | .down _ => cache.getMemory draw key
    else cache.getMemory draw key

/-- Store in the memory of the process. -/
def setMemory (key : String) (results : Results) (cache : RagCache Results) :
    RagCache Results :=
  { cache with
    memory := LruCache.set config.maxSize draw.now key results draw.settings.cacheTtl
      cache.memory }

/-- `SETEX` of the payload of a result, which a time to live of zero makes fail. -/
def setex (key : String) (results : Results) (cache : RagCache Results) :
    Bool × RagCache Results :=
  match config.payload results with
  | none => (false, cache)
  | some stored =>
      if draw.settings.cacheTtl ≤ 0 then (false, cache)
      else
        let written := { cache with redis := cache.redis.set (config.redisKey key) stored }
        match draw.connection with
        | .up => (true, written)
        | .down reached =>
            (false, if reached.contains (config.redisKey key) then written else cache)

/-- `set` -/
def set (query : CacheQuery) (results : Results) (cache : RagCache Results) :
    RagCache Results :=
  let cache := cache.without draw.expired
  if draw.settings.enableCache = false then cache
  else
    let key := config.cacheKey draw.settings query
    if config.redis then
      let (stored, cache) := cache.setex config draw key results
      if stored then cache else cache.setMemory config draw key results
    else cache.setMemory config draw key results

/-- `redis_scan_delete`: whether it succeeds, how many keys it counts, and what it
leaves. -/
def scanDelete (connection : Connection) (pattern : String) (cache : RagCache Results) :
    Bool × Nat × RagCache Results :=
  let selects (key : String) : Bool := glob pattern.toList key.toList
  match connection with
  | .up =>
      (true, cache.redis.keys.countP selects,
        { cache with redis := cache.redis.removeWhere fun key _ => selects key })
  | .down reached =>
      (false, 0, { cache with
        redis := cache.redis.removeWhere fun key _ => selects key && reached.contains key })

/-- `clear` -/
def clear (cache : RagCache Results) : RagCache Results :=
  let cache := cache.without draw.expired
  if config.redis then
    match cache.scanDelete draw.connection (config.redisKey "*") with
    | (true, _, cache) => cache
    | (false, _, cache) => { cache with memory := .empty }
  else { cache with memory := .empty }

/-- The part of `clear_collection` on the memory of the process. -/
def clearCollectionMemory (collection : String) (cache : RagCache Results) :
    Nat × RagCache Results :=
  let (deleted, memory) := LruCache.clearMatching (config.concerns collection) cache.memory
  (deleted, { cache with memory := memory })

/-- `clear_collection` -/
def clearCollection (collection : String) (cache : RagCache Results) :
    Nat × RagCache Results :=
  let cache := cache.without draw.expired
  let collection := clearedName collection
  if config.redis then
    match cache.scanDelete draw.connection
        (config.redisKey (config.collectionHash collection ++ ":*")) with
    | (false, _, cache) => cache.clearCollectionMemory config collection
    | (true, single, cache) =>
        let (_, federated, cache) := cache.scanDelete draw.second
          (config.redisKey ("v2:*" ++ config.pluralToken collection ++ "*"))
        let (deleted, cache) := cache.clearCollectionMemory config collection
        (single + federated + deleted, cache)
  else cache.clearCollectionMemory config collection

end RagCache

end RAGuardian.Retrieval
