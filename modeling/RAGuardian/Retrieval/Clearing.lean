import Mathlib.Data.List.Infix
import Mathlib.Data.String.Basic
import RAGuardian.Foundation.Execution
import RAGuardian.Retrieval.Cache

/-! # What a clear leaves

A clear that leaves nothing of its collection in Redis or in the memory of the process
is final: what is read later was stored later. -/

namespace RAGuardian.Retrieval

open Execution Text

/-! ## Patterns -/

theorem glob_cons (character : Char) (rest text : List Char) :
    glob (character :: rest) text =
      if character == '*' then text.tails.any (glob rest)
      else
        match text with
        | [] => false
        | first :: others => first == character && glob rest others :=
  glob.eq_def _ _

theorem glob_append {first second left right : List Char} (leading : glob first left = true)
    (trailing : glob second right = true) : glob (first ++ second) (left ++ right) = true := by
  induction first generalizing left with
  | nil =>
      rw [glob, List.isEmpty_iff] at leading
      rw [leading]
      exact trailing
  | cons character rest induction =>
      rw [List.cons_append, glob_cons]
      rw [glob_cons] at leading
      split
      · rename_i star
        rw [if_pos star, List.any_eq_true] at leading
        rcases leading with ⟨tail, member, matched⟩
        rw [List.mem_tails] at member
        rcases member with ⟨skipped, rfl⟩
        rw [List.any_eq_true]
        refine ⟨tail ++ right, ?_, induction matched⟩
        rw [List.mem_tails, List.append_assoc]
        exact List.suffix_append _ _
      · rename_i plain
        rw [if_neg plain] at leading
        cases left with
        | nil => cases leading
        | cons head tail =>
            rw [Bool.and_eq_true] at leading
            rw [List.cons_append]
            simp only [leading.1, Bool.true_and]
            exact induction leading.2

theorem glob_single (character : Char) : glob [character] [character] = true := by
  rw [glob_cons]
  split
  · simp [List.tails, glob]
  · simp [glob]

/-- A pattern selects its own text. -/
theorem glob_self (text : List Char) : glob text text = true := by
  induction text with
  | nil => rfl
  | cons character rest induction => exact glob_append (glob_single character) induction

theorem glob_star (text : List Char) : glob ['*'] text = true := by
  rw [glob_cons, if_pos (by decide), List.any_eq_true]
  exact ⟨[], (List.mem_tails _ _).mpr (List.nil_suffix), rfl⟩

section

variable {Results : Type} {config : CacheConfig Results}

theorem glob_redisKey {pattern key : String} (selects : glob pattern.toList key.toList = true) :
    glob (config.redisKey pattern).toList (config.redisKey key).toList = true := by
  simp only [CacheConfig.redisKey, String.toList_append]
  exact glob_append (glob_self _) selects

theorem redisKey_injective {left right : String}
    (same : config.redisKey left = config.redisKey right) : left = right := by
  have lists := congrArg String.toList same
  simp only [CacheConfig.redisKey, String.toList_append] at lists
  exact String.toList_inj.mp (List.append_cancel_left lists)

/-! ## Keys of a collection -/

theorem contains_iff {token value : String} :
    contains token value = true ↔ token.toList <:+: value.toList := by
  rw [contains, List.any_eq_true]
  constructor
  · rintro ⟨rest, member, starts⟩
    rw [List.mem_tails] at member
    rw [List.isPrefixOf_iff_prefix] at starts
    exact starts.isInfix.trans member.isInfix
  · rintro ⟨before, after, same⟩
    refine ⟨token.toList ++ after, ?_, ?_⟩
    · rw [List.mem_tails]
      exact ⟨before, by rw [← same, List.append_assoc]⟩
    · rw [List.isPrefixOf_iff_prefix]
      exact List.prefix_append _ _

theorem infix_join {token : String} {tokens : List String} (member : token ∈ tokens) :
    token.toList <:+: (String.join tokens).toList := by
  induction tokens with
  | nil => cases member
  | cons head rest induction =>
      rw [String.join_cons, String.toList_append]
      rcases List.mem_cons.mp member with rfl | later
      · exact (List.prefix_append _ _).isInfix
      · exact (induction later).trans (List.suffix_append _ _).isInfix

/-- The key of a query concerns every collection of the query. -/
theorem concerns_cacheKey (settings : RagSettings) {query : CacheQuery} {collection : String}
    (member : collection ∈ queryCollections query.query) :
    config.concerns collection (config.cacheKey settings query) = true := by
  rw [CacheConfig.cacheKey, CacheConfig.generateKey, CacheConfig.concerns, Bool.or_eq_true]
  rw [queryCollections] at member
  split at member
  · rename_i plural
    right
    rw [if_pos plural, Bool.and_eq_true, startsWith_iff, contains_iff]
    simp only [String.toList_append, List.append_assoc]
    constructor
    · exact List.prefix_append _ _
    · have token := infix_join (List.mem_map_of_mem (f := config.pluralToken) member)
      rcases token with ⟨before, after, same⟩
      rw [← same]
      simp only [List.append_assoc]
      exact ((List.prefix_append _ _).isInfix.trans (List.suffix_append before _).isInfix).trans
        (List.suffix_append _ _).isInfix
  · rename_i single
    left
    rw [if_neg single, List.mem_singleton.mp member, startsWith_iff]
    simp only [String.toList_append]
    exact List.prefix_append _ _

/-- A token starts behind the version mark, which has none of its characters. -/
theorem infix_of_version {collection : String} {before after rest : List Char}
    (found : before ++ (config.pluralToken collection).toList ++ after = "v2:".toList ++ rest) :
    ∃ inner, rest = inner ++ ((config.pluralToken collection).toList ++ after) := by
  have token : (config.pluralToken collection).toList =
      '|' :: (config.collectionHash collection ++ "|").toList := by
    simp only [CacheConfig.pluralToken, String.toList_append]
    rfl
  have version : "v2:".toList = ['v', '2', ':'] := by decide
  rw [version, token] at found
  rw [token]
  match before with
  | [] => simp at found
  | [_] => simp at found
  | [_, _] => simp at found
  | _ :: _ :: _ :: inner =>
      refine ⟨inner, ?_⟩
      simp only [List.cons_append, List.nil_append, List.append_assoc, List.cons.injEq] at found
      rw [← found.2.2.2]
      simp

/-- The first pattern of `clear_collection` selects the keys of plain queries. -/
theorem glob_of_single {collection key : String}
    (single : startsWith (config.collectionHash collection ++ ":") key = true) :
    glob (config.redisKey (config.collectionHash collection ++ ":*")).toList
      (config.redisKey key).toList = true := by
  apply glob_redisKey
  rcases startsWith_iff.mp single with ⟨rest, same⟩
  rw [← same]
  have star : (config.collectionHash collection ++ ":*").toList =
      (config.collectionHash collection ++ ":").toList ++ ['*'] := by
    simp only [String.toList_append, List.append_assoc]
    rfl
  rw [star]
  exact glob_append (glob_self _) (glob_star rest)

/-- The second pattern selects the keys of federated queries. -/
theorem glob_of_federated {collection key : String}
    (federated : (startsWith "v2:" key && contains (config.pluralToken collection) key) = true) :
    glob (config.redisKey ("v2:*" ++ config.pluralToken collection ++ "*")).toList
      (config.redisKey key).toList = true := by
  apply glob_redisKey
  rw [Bool.and_eq_true] at federated
  rcases startsWith_iff.mp federated.1 with ⟨rest, same⟩
  rcases contains_iff.mp federated.2 with ⟨before, after, found⟩
  rw [← same] at found ⊢
  rcases infix_of_version found with ⟨inner, split⟩
  have stars : ("v2:*" ++ config.pluralToken collection ++ "*").toList =
      "v2:".toList ++ (['*'] ++ ((config.pluralToken collection).toList ++ ['*'])) := by
    simp only [String.toList_append, List.append_assoc]
    rfl
  rw [stars, split]
  exact glob_append (glob_self _)
    (glob_append (glob_star inner) (glob_append (glob_self _) (glob_star after)))

/-! ## What calls leave of the entries before them -/

theorem clearCollectionMemory_redis (collection : String) (cache : RagCache Results) :
    (cache.clearCollectionMemory config collection).2.redis = cache.redis :=
  rfl

theorem clearCollectionMemory_memory (collection : String) (cache : RagCache Results) :
    (cache.clearCollectionMemory config collection).2.memory =
      cache.memory.removeWhere fun key _ => config.concerns collection key :=
  rfl

/-- Every entry afterwards was there before. -/
structure RagCache.Within (after before : RagCache Results) : Prop where
  memory : ∀ key entry, after.memory.get? key = some entry → before.memory.get? key = some entry
  redis : ∀ key value, after.redis.get? key = some value → before.redis.get? key = some value

namespace RagCache.Within

variable {first second third : RagCache Results}

theorem refl (cache : RagCache Results) : cache.Within cache :=
  ⟨fun _ _ found => found, fun _ _ found => found⟩

theorem trans (left : first.Within second) (right : second.Within third) :
    first.Within third where
  memory key entry found := right.memory key entry (left.memory key entry found)
  redis key value found := right.redis key value (left.redis key value found)

theorem without (keys : List String) (cache : RagCache Results) :
    (cache.without keys).Within cache where
  memory _ _ found := found
  redis _ _ found := (Dictionary.get?_removeWhere.mp found).1

theorem getMemory (draw : CacheDraw) (key : String) (cache : RagCache Results) :
    (cache.getMemory draw key).2.Within cache where
  memory other entry found := by
    simp only [RagCache.getMemory, LruCache.get] at found
    cases present : cache.memory.get? key with
    | none =>
        rw [present] at found
        exact found
    | some stored =>
        simp only [present] at found
        split at found
        · exact Dictionary.get?_of_erase found
        · exact (Dictionary.get?_moveToEnd _ _ _).symm.trans found
  redis _ _ found := found

theorem get (draw : CacheDraw) (query : CacheQuery) (cache : RagCache Results) :
    (cache.get config draw query).2.Within cache := by
  rw [RagCache.get]
  apply trans _ (without draw.expired cache)
  split
  · exact refl _
  · split
    · split
      · exact refl _
      · exact getMemory draw _ _
    · exact getMemory draw _ _

theorem scanDelete (connection : Connection) (pattern : String) (cache : RagCache Results) :
    (cache.scanDelete connection pattern).2.2.Within cache := by
  cases connection <;>
    exact ⟨fun _ _ found => found, fun _ _ found => (Dictionary.get?_removeWhere.mp found).1⟩

theorem emptied (cache : RagCache Results) :
    RagCache.Within { cache with memory := .empty } cache where
  memory _ _ impossible := by cases impossible
  redis _ _ found := found

theorem clear (draw : CacheDraw) (cache : RagCache Results) :
    (cache.clear config draw).Within cache := by
  rw [RagCache.clear]
  apply trans _ (without draw.expired cache)
  split
  · have scanned := scanDelete draw.connection (config.redisKey "*") (cache.without draw.expired)
    split
    · rename_i matched
      rw [matched] at scanned
      exact scanned
    · rename_i matched
      rw [matched] at scanned
      exact (emptied _).trans scanned
  · exact emptied _

theorem clearCollectionMemory (collection : String) (cache : RagCache Results) :
    (cache.clearCollectionMemory config collection).2.Within cache where
  memory key entry found := by
    rw [clearCollectionMemory_memory] at found
    exact (Dictionary.get?_removeWhere.mp found).1
  redis _ _ found := found

theorem clearCollection (draw : CacheDraw) (collection : String) (cache : RagCache Results) :
    (cache.clearCollection config draw collection).2.Within cache := by
  rw [RagCache.clearCollection]
  apply trans _ (without draw.expired cache)
  dsimp only
  generalize clearedName collection = collection
  split
  · have scanned := scanDelete draw.connection
      (config.redisKey (config.collectionHash collection ++ ":*")) (cache.without draw.expired)
    split
    · rename_i matched
      rw [matched] at scanned
      exact (clearCollectionMemory collection _).trans scanned
    · rename_i matched
      rw [matched] at scanned
      exact (clearCollectionMemory collection _).trans ((scanDelete _ _ _).trans scanned)
  · exact clearCollectionMemory collection _

end RagCache.Within

/-! ## Runs -/

end

inductive CacheCall (Results : Type)
  | get (query : CacheQuery)
  | set (query : CacheQuery) (results : Results)
  | clear
  | clearCollection (collection : String)

structure CacheEvent (Results : Type) where
  draw : CacheDraw
  call : CacheCall Results

section

variable {Results : Type} (config : CacheConfig Results)

def CacheEvent.after (event : CacheEvent Results) (cache : RagCache Results) :
    RagCache Results :=
  match event.call with
  | .get query => (cache.get config event.draw query).2
  | .set query results => cache.set config event.draw query results
  | .clear => cache.clear config event.draw
  | .clearCollection collection => (cache.clearCollection config event.draw collection).2

def cacheRun (events : List (CacheEvent Results)) : RagCache Results :=
  run (CacheEvent.after config) .empty events

/-- One of the events stores the results under the key. -/
def StoredIn (events : List (CacheEvent Results)) (key : String) (results : Results) : Prop :=
  ∃ event ∈ events, ∃ query, event.call = .set query results ∧
    event.draw.settings.enableCache = true ∧ config.cacheKey event.draw.settings query = key

/-- What is stored under the watched keys has been stored by the events. -/
structure StoredSince (watched : String → Prop) (events : List (CacheEvent Results))
    (cache : RagCache Results) : Prop where
  memory : ∀ key entry, watched key → cache.memory.get? key = some entry →
    StoredIn config events key entry.value
  redis : config.redis = true → ∀ key value, watched key →
    cache.redis.get? (config.redisKey key) = some value →
    ∃ results, StoredIn config events key results ∧ config.payload results = some value

end

section

variable {Results : Type} {config : CacheConfig Results} {watched : String → Prop}
  {events : List (CacheEvent Results)} {earlier later : RagCache Results}

theorem StoredIn.concat {key : String} {results : Results}
    (stored : StoredIn config events key results) (event : CacheEvent Results) :
    StoredIn config (events ++ [event]) key results := by
  rcases stored with ⟨earlier, member, rest⟩
  exact ⟨earlier, List.mem_append_left _ member, rest⟩

theorem StoredSince.concat (stored : StoredSince config watched events earlier)
    (event : CacheEvent Results) : StoredSince config watched (events ++ [event]) earlier where
  memory key entry watches found := (stored.memory key entry watches found).concat event
  redis remote key value watches found := by
    rcases stored.redis remote key value watches found with ⟨results, stored, payload⟩
    exact ⟨results, stored.concat event, payload⟩

theorem StoredSince.within (stored : StoredSince config watched events earlier)
    (within : later.Within earlier) : StoredSince config watched events later where
  memory key entry watches found :=
    stored.memory key entry watches (within.memory key entry found)
  redis remote key value watches found :=
    stored.redis remote key value watches (within.redis _ value found)

/-- What `set` puts into the memory of the process, or leaves there. -/
theorem setMemory_cases {draw : CacheDraw} {key other : String} {results : Results}
    {cache : RagCache Results} {entry : CacheEntry Results}
    (found : (cache.setMemory config draw key results).memory.get? other = some entry) :
    other = key ∧ entry.value = results ∨ cache.memory.get? other = some entry := by
  rw [RagCache.setMemory, LruCache.set] at found
  have kept : (Dictionary.set key (⟨results, draw.now, draw.settings.cacheTtl⟩ :
      CacheEntry Results) (cache.memory.erase key)).get? other = some entry := by
    dsimp only at found
    split at found
    · exact Dictionary.get?_of_dropOldest found
    · exact found
  by_cases same : other = key
  · subst same
    rw [Dictionary.get?_set_self] at kept
    cases kept
    exact .inl ⟨rfl, rfl⟩
  · rw [Dictionary.get?_set_of_ne same] at kept
    exact .inr (Dictionary.get?_of_erase kept)

/-- What `SETEX` puts into Redis, or leaves there. -/
theorem setex_cases {draw : CacheDraw} {key other : String} {results value : Results}
    {cache : RagCache Results}
    (found : (cache.setex config draw key results).2.redis.get? (config.redisKey other) =
      some value) :
    other = key ∧ config.payload results = some value ∨
      cache.redis.get? (config.redisKey other) = some value := by
  rw [RagCache.setex] at found
  split at found
  · exact .inr found
  · rename_i stored payload
    have written : (cache.redis.set (config.redisKey key) stored).get? (config.redisKey other) =
        some value → other = key ∧ config.payload results = some value ∨
          cache.redis.get? (config.redisKey other) = some value := by
      intro present
      by_cases same : config.redisKey other = config.redisKey key
      · rw [same, Dictionary.get?_set_self] at present
        cases present
        exact .inl ⟨redisKey_injective same, payload⟩
      · rw [Dictionary.get?_set_of_ne same] at present
        exact .inr present
    split at found
    · exact .inr found
    · dsimp only at found
      split at found
      · exact written found
      · split at found
        · exact written found
        · exact .inr found

theorem setex_memory (config : CacheConfig Results) (draw : CacheDraw) (key : String) (results : Results)
    (cache : RagCache Results) :
    (cache.setex config draw key results).2.memory = cache.memory := by
  rw [RagCache.setex]
  split
  · rfl
  · split
    · rfl
    · dsimp only
      split
      · rfl
      · split <;> rfl

/-- What a `set` leaves in the memory of the process. -/
theorem set_memory {draw : CacheDraw} {query : CacheQuery} {key : String} {results : Results}
    {cache : RagCache Results} {entry : CacheEntry Results}
    (found : (cache.set config draw query results).memory.get? key = some entry) :
    (draw.settings.enableCache = true ∧ config.cacheKey draw.settings query = key ∧
      entry.value = results) ∨ cache.memory.get? key = some entry := by
  rw [RagCache.set] at found
  dsimp only at found
  split at found
  · exact .inr found
  · rename_i disabled
    have enabled := Bool.eq_true_of_not_eq_false disabled
    have inMemory : ∀ other : RagCache Results, other.memory = cache.memory →
        (other.setMemory config draw (config.cacheKey draw.settings query) results).memory.get?
          key = some entry →
        (draw.settings.enableCache = true ∧ config.cacheKey draw.settings query = key ∧
          entry.value = results) ∨ cache.memory.get? key = some entry := by
      intro other same present
      rcases setMemory_cases present with ⟨named, valued⟩ | old
      · exact .inl ⟨enabled, named.symm, valued⟩
      · rw [same] at old
        exact .inr old
    split at found
    · have unchanged := setex_memory config draw
        (config.cacheKey draw.settings query) results (cache.without draw.expired)
      split at found
      · rw [unchanged] at found
        exact .inr found
      · exact inMemory _ unchanged found
    · exact inMemory _ rfl found

/-- What a `set` leaves in Redis. -/
theorem set_redis {draw : CacheDraw} {query : CacheQuery} {key : String} {results value : Results}
    {cache : RagCache Results}
    (found : (cache.set config draw query results).redis.get? (config.redisKey key) =
      some value) :
    (draw.settings.enableCache = true ∧ config.cacheKey draw.settings query = key ∧
      config.payload results = some value) ∨
        cache.redis.get? (config.redisKey key) = some value := by
  have kept : (cache.without draw.expired).redis.get? (config.redisKey key) = some value →
      cache.redis.get? (config.redisKey key) = some value :=
    (RagCache.Within.without draw.expired cache).redis _ _
  rw [RagCache.set] at found
  dsimp only at found
  split at found
  · exact .inr (kept found)
  · rename_i disabled
    have enabled := Bool.eq_true_of_not_eq_false disabled
    split at found
    · have written : ((cache.without draw.expired).setex config draw
          (config.cacheKey draw.settings query) results).2.redis.get? (config.redisKey key) =
            some value := by
        split at found <;> exact found
      rcases setex_cases written with ⟨named, payload⟩ | old
      · exact .inl ⟨enabled, named.symm, payload⟩
      · exact .inr (kept old)
    · exact .inr (kept found)

theorem StoredSince.set (stored : StoredSince config watched events earlier)
    (draw : CacheDraw) (query : CacheQuery) (results : Results) :
    StoredSince config watched (events ++ [⟨draw, .set query results⟩])
      (earlier.set config draw query results) := by
  have now : ∀ key, draw.settings.enableCache = true →
      config.cacheKey draw.settings query = key →
      StoredIn config (events ++ [⟨draw, .set query results⟩]) key results :=
    fun _ enabled named =>
      ⟨_, List.mem_append_right _ List.mem_cons_self, query, rfl, enabled, named⟩
  have kept := stored.concat ⟨draw, .set query results⟩
  constructor
  · intro key entry watches found
    rcases set_memory found with ⟨enabled, named, valued⟩ | old
    · rw [valued]
      exact now key enabled named
    · exact kept.memory key entry watches old
  · intro remote key value watches found
    rcases set_redis found with ⟨enabled, named, payload⟩ | old
    · exact ⟨results, now key enabled named, payload⟩
    · exact kept.redis remote key value watches old

theorem StoredSince.after (stored : StoredSince config watched events earlier)
    (event : CacheEvent Results) :
    StoredSince config watched (events ++ [event]) (event.after config earlier) := by
  rcases event with ⟨draw, call⟩
  cases call with
  | get query => exact (stored.within (.get draw query earlier)).concat _
  | set query results => exact stored.set draw query results
  | clear => exact (stored.within (.clear draw earlier)).concat _
  | clearCollection collection =>
      exact (stored.within (.clearCollection draw collection earlier)).concat _

theorem StoredSince.run (stored : StoredSince config watched [] earlier)
    (events : List (CacheEvent Results)) :
    StoredSince config watched events (run (CacheEvent.after config) earlier events) :=
  run_history (StoredSince config watched) stored
    (fun _ event stored => stored.after event) events

/-! ## Final clears -/

end

/-- The command deals with the key. -/
def Connection.Reaches (key : String) : Connection → Prop
  | .up => True
  | .down reached => key ∈ reached

namespace CacheCall

variable {Results : Type} (config : CacheConfig Results) (draw : CacheDraw)

/-- The cleared keys: all of them, or those of one collection. -/
def Clears (key : String) : CacheCall Results → Prop
  | .get _ => False
  | .set _ _ => False
  | .clear => True
  | .clearCollection collection => config.concerns (clearedName collection) key = true

/-- The queries whose results a clear is about. -/
def Covers (query : CacheQuery) : CacheCall Results → Prop
  | .get _ => False
  | .set _ _ => False
  | .clear => True
  | .clearCollection collection => clearedName collection ∈ queryCollections query.query

/-- With the Redis backend, a clear of everything needs one store to be empty and
reaches the other; a clear of a collection reaches the keys in Redis, those of
federated queries with its second command. -/
def Finishes (cache : RagCache Results) : CacheCall Results → Prop
  | .get _ => False
  | .set _ _ => False
  | .clear => config.redis = true →
      (draw.connection = .up → cache.memory.entries = []) ∧
        ∀ key value, (cache.without draw.expired).redis.get? (config.redisKey key) = some value →
          draw.connection.Reaches (config.redisKey key)
  | .clearCollection collection => config.redis = true → ∀ key value,
      (cache.without draw.expired).redis.get? (config.redisKey key) = some value →
      config.concerns (clearedName collection) key = true →
      if startsWith (config.collectionHash (clearedName collection) ++ ":") key then
        draw.connection.Reaches (config.redisKey key)
      else draw.connection = .up ∧ draw.second.Reaches (config.redisKey key)

theorem clears_of_covers {call : CacheCall Results} {query : CacheQuery}
    (covers : call.Covers query) (settings : RagSettings) :
    call.Clears config (config.cacheKey settings query) := by
  cases call with
  | get query => exact covers
  | set query results => exact covers
  | clear => trivial
  | clearCollection collection => exact concerns_cacheKey settings covers

end CacheCall

section

variable {Results : Type} {config : CacheConfig Results} {draw : CacheDraw}
  {cache : RagCache Results}

/-- A selected key that the command reaches is gone. -/
theorem scanDelete_reached {connection : Connection} {pattern key : String} {value : Results}
    (selected : glob pattern.toList key.toList = true) (reaches : connection.Reaches key) :
    (cache.scanDelete connection pattern).2.2.redis.get? key ≠ some value := by
  intro found
  cases connection with
  | up =>
      have spared := (Dictionary.get?_removeWhere.mp found).2
      dsimp only at spared
      rw [selected] at spared
      cases spared
  | down reached =>
      have spared := (Dictionary.get?_removeWhere.mp found).2
      dsimp only at spared
      rw [selected, Bool.true_and] at spared
      have listed : reached.contains key = true := List.contains_iff_mem.mpr reaches
      rw [listed] at spared
      cases spared

theorem scanDelete_memory (cache : RagCache Results) (connection : Connection)
    (pattern : String) : (cache.scanDelete connection pattern).2.2.memory = cache.memory := by
  cases connection <;> rfl

theorem scanDelete_succeeds (cache : RagCache Results) (connection : Connection)
    (pattern : String) : (cache.scanDelete connection pattern).1 = true ↔ connection = .up := by
  cases connection <;> simp [RagCache.scanDelete]

/-- Both stores are without the watched keys. -/
structure RagCache.Without (config : CacheConfig Results) (watched : String → Prop)
    (cache : RagCache Results) : Prop where
  memory : ∀ key entry, watched key → cache.memory.get? key ≠ some entry
  redis : config.redis = true → ∀ key value, watched key →
    cache.redis.get? (config.redisKey key) ≠ some value

theorem RagCache.Without.storedSince {watched : String → Prop}
    (empty : cache.Without config watched) : StoredSince config watched [] cache where
  memory key entry watches found := absurd found (empty.memory key entry watches)
  redis remote key value watches found := absurd found (empty.redis remote key value watches)

theorem clear_without (finishes : CacheCall.clear.Finishes config draw cache) :
    (cache.clear config draw).Without config fun _ => True := by
  simp only [RagCache.clear]
  split
  · rename_i remote
    have scan := scanDelete_succeeds (cache.without draw.expired) draw.connection
      (config.redisKey "*")
    have memory := scanDelete_memory (cache.without draw.expired) draw.connection
      (config.redisKey "*")
    have gone : ∀ key value, ((cache.without draw.expired).scanDelete draw.connection
        (config.redisKey "*")).2.2.redis.get? (config.redisKey key) ≠ some value := by
      intro key value found
      apply scanDelete_reached _ ((finishes remote).2 key value _) found
      · exact glob_redisKey (glob_star key.toList)
      · exact (RagCache.Within.scanDelete _ _ _).redis _ _ found
    generalize (cache.without draw.expired).scanDelete draw.connection (config.redisKey "*") =
      outcome at scan memory gone
    rcases outcome with ⟨succeeded, count, left⟩
    cases succeeded with
    | true =>
        have empty := (finishes remote).1 (scan.mp rfl)
        refine ⟨?_, fun _ key value _ => gone key value⟩
        intro key entry _ found
        dsimp only at memory found
        rw [memory, Dictionary.get?_eq_some] at found
        rw [RagCache.without, empty] at found
        cases found
    | false =>
        refine ⟨?_, fun _ key value _ => gone key value⟩
        intro key entry _ found
        cases found
  · rename_i memoryOnly
    refine ⟨?_, fun remote => absurd remote memoryOnly⟩
    intro key entry _ found
    cases found

/-- What the memory of the process holds after `clear_collection`. -/
theorem clearCollectionMemory_spares {collection key : String} {entry : CacheEntry Results}
    (concerns : config.concerns collection key = true) :
    (cache.clearCollectionMemory config collection).2.memory.get? key ≠ some entry := by
  intro found
  rw [clearCollectionMemory_memory] at found
  have spared := (Dictionary.get?_removeWhere.mp found).2
  rw [concerns] at spared
  cases spared

/-- What the two commands of `clear_collection` leave in Redis. -/
theorem scanDelete_twice {name key : String} {value : Results}
    (concerns : config.concerns name key = true)
    (reached : if startsWith (config.collectionHash name ++ ":") key then
        draw.connection.Reaches (config.redisKey key)
      else draw.connection = .up ∧ draw.second.Reaches (config.redisKey key))
    {count : Nat} {left : RagCache Results} {succeeded : Bool}
    (first : cache.scanDelete draw.connection
      (config.redisKey (config.collectionHash name ++ ":*")) = (succeeded, count, left)) :
    (succeeded = false → left.redis.get? (config.redisKey key) ≠ some value) ∧
      (left.scanDelete draw.second
        (config.redisKey ("v2:*" ++ config.pluralToken name ++ "*"))).2.2.redis.get?
          (config.redisKey key) ≠ some value := by
  split at reached
  · rename_i single
    have gone : left.redis.get? (config.redisKey key) ≠ some value := by
      have deleted : (cache.scanDelete draw.connection _).2.2.redis.get? _ ≠ some value :=
        scanDelete_reached (glob_of_single single) reached
      rw [first] at deleted
      exact deleted
    exact ⟨fun _ => gone, fun found => gone ((RagCache.Within.scanDelete _ _ _).redis _ _ found)⟩
  · rename_i plural
    constructor
    · intro failed
      have up := (scanDelete_succeeds cache draw.connection
        (config.redisKey (config.collectionHash name ++ ":*"))).mpr reached.1
      rw [first, failed] at up
      cases up
    · apply scanDelete_reached _ reached.2
      rcases Bool.or_eq_true _ _ |>.mp concerns with single | federated
      · exact absurd single plural
      · exact glob_of_federated federated

theorem clearCollection_without {collection : String}
    (finishes : (CacheCall.clearCollection collection).Finishes config draw cache) :
    (cache.clearCollection config draw collection).2.Without config fun key =>
      config.concerns (clearedName collection) key = true := by
  have memory : ∀ left : RagCache Results, ∀ key entry,
      config.concerns (clearedName collection) key = true →
      (left.clearCollectionMemory config (clearedName collection)).2.memory.get? key ≠
        some entry :=
    fun _ _ _ concerns => clearCollectionMemory_spares concerns
  rw [RagCache.clearCollection]
  dsimp only
  split
  · rename_i remote
    have within := RagCache.Within.scanDelete draw.connection
      (config.redisKey (config.collectionHash (clearedName collection) ++ ":*"))
      (cache.without draw.expired)
    split
    · rename_i left first
      rw [first] at within
      refine ⟨memory left, fun _ key value concerns found => ?_⟩
      rw [clearCollectionMemory_redis] at found
      have reached := finishes remote key value (within.redis _ _ found) concerns
      exact (scanDelete_twice concerns reached first).1 rfl found
    · rename_i left first
      rw [first] at within
      refine ⟨memory _, fun _ key value concerns found => ?_⟩
      rw [clearCollectionMemory_redis] at found
      have kept := (RagCache.Within.scanDelete draw.second _ left).redis _ _ found
      have reached := finishes remote key value (within.redis _ _ kept) concerns
      exact (scanDelete_twice concerns reached first).2 found
  · rename_i memoryOnly
    exact ⟨memory _, fun remote => absurd remote memoryOnly⟩

theorem CacheCall.without_after {call : CacheCall Results}
    (finishes : call.Finishes config draw cache) :
    (CacheEvent.after config ⟨draw, call⟩ cache).Without config fun key =>
      call.Clears config key := by
  cases call with
  | get query => cases finishes
  | set query results => cases finishes
  | clear => exact clear_without finishes
  | clearCollection collection => exact clearCollection_without finishes

theorem getMemory_some {key : String} {result : Results}
    (hit : (cache.getMemory draw key).1 = some result) :
    ∃ entry, cache.memory.get? key = some entry ∧ entry.value = result := by
  simp only [RagCache.getMemory, LruCache.get] at hit
  cases present : cache.memory.get? key with
  | none =>
      rw [present] at hit
      cases hit
  | some entry =>
      simp only [present] at hit
      split at hit
      · cases hit
      · exact ⟨entry, rfl, Option.some.inj hit⟩

/-- What a read returns has been stored by the events, as it is or as its payload. -/
theorem StoredSince.get {watched : String → Prop} {events : List (CacheEvent Results)}
    (stored : StoredSince config watched events cache) {query : CacheQuery} {result : Results}
    (watches : watched (config.cacheKey draw.settings query))
    (hit : (cache.get config draw query).1 = some result) :
    ∃ results, StoredIn config events (config.cacheKey draw.settings query) results ∧
      (result = results ∨ config.payload results = some result) := by
  have present := stored.within (.without draw.expired cache)
  have inMemory : ((cache.without draw.expired).getMemory draw
      (config.cacheKey draw.settings query)).1 = some result →
      StoredIn config events (config.cacheKey draw.settings query) result := by
    intro found
    rcases getMemory_some found with ⟨entry, held, rfl⟩
    exact present.memory _ entry watches held
  rw [RagCache.get] at hit
  dsimp only at hit
  split at hit
  · cases hit
  · split at hit
    · rename_i remote
      split at hit
      · rcases present.redis remote _ result watches hit with ⟨results, earlier, payload⟩
        exact ⟨results, earlier, .inr payload⟩
      · exact ⟨result, inMemory hit, .inl rfl⟩
    · exact ⟨result, inMemory hit, .inl rfl⟩

end

/-! ## A clear after an outage -/

/-- The digests of the inputs of one plain query. -/
def sampleDigest (value : String) : String :=
  if value = "documents" then "9b16b44d0e0a5cac4f968befb0b5b5eba913f9ef3dfa1501ed728b6ead72a357"
  else if value = CacheConfig.keyJson "documents\nhours" 4 "small" "stateless" then
    "414e6b5531bc473345bd37b15f8f3e82183712142b3e47019f0439ece0f2ed40"
  else ""

/-- Redis, with results that a payload keeps. -/
def sampleConfig : CacheConfig (List String) where
  redis := true
  keyPrefix := "rag"
  sha256 := sampleDigest
  payload := some

def sampleSettings : RagSettings := ⟨true, 4, "small", 3600⟩

def onlineAt (now : Timestamp) : CacheDraw := { settings := sampleSettings, now := now }

def outageAt (now : Timestamp) : CacheDraw :=
  { onlineAt now with connection := .down [] }

def sampleQuery : CacheQuery := { query := "documents\nhours" }

theorem sampleKey : sampleConfig.cacheKey sampleSettings sampleQuery =
    "9b16b44d0e0a:414e6b5531bc473345bd" := by
  decide +kernel

/-- Results stored in memory during an outage survive a clear of Redis, and results
stored in Redis survive a clear during an outage, of everything as of a collection. -/
theorem clear_not_final :
    ((cacheRun sampleConfig [⟨outageAt 1, .set sampleQuery ["old"]⟩, ⟨onlineAt 2, .clear⟩]).get
        sampleConfig (outageAt 3) sampleQuery).1 = some ["old"] ∧
      ((cacheRun sampleConfig [⟨onlineAt 1, .set sampleQuery ["old"]⟩, ⟨outageAt 2, .clear⟩]).get
        sampleConfig (onlineAt 3) sampleQuery).1 = some ["old"] ∧
      ((cacheRun sampleConfig [⟨onlineAt 1, .set sampleQuery ["old"]⟩,
          ⟨outageAt 2, .clearCollection "documents"⟩]).get
        sampleConfig (onlineAt 3) sampleQuery).1 = some ["old"] := by
  simp only [cacheRun, run_cons, run_nil, CacheEvent.after, RagCache.get, RagCache.set, outageAt,
    onlineAt, sampleKey]
  decide +kernel

/-- Results read after a clear that finishes have been stored after it. -/
theorem run_clear_final {Results : Type} (config : CacheConfig Results)
    (past later : List (CacheEvent Results)) (draw reading : CacheDraw)
    (call : CacheCall Results) (query : CacheQuery) (result : Results)
    (finishes : call.Finishes config draw (cacheRun config past)) (covers : call.Covers query)
    (hit : ((cacheRun config (past ++ ⟨draw, call⟩ :: later)).get config reading query).1 =
      some result) :
    ∃ results, StoredIn config later (config.cacheKey reading.settings query) results ∧
      (result = results ∨ config.payload results = some result) := by
  have cleared := (CacheCall.without_after finishes).storedSince
  have since := cleared.run later
  have state : cacheRun config (past ++ ⟨draw, call⟩ :: later) =
      run (CacheEvent.after config) (CacheEvent.after config ⟨draw, call⟩ (cacheRun config past))
        later := by
    rw [cacheRun, run_append, run_cons]
    rfl
  rw [state] at hit
  exact since.get (call.clears_of_covers config covers reading.settings) hit

/-- A clear with Redis up and an empty memory, then results stored and read. -/
theorem run_clear_final_online :
    ∃ results, StoredIn sampleConfig [⟨onlineAt 3, .set sampleQuery ["new"]⟩]
        (sampleConfig.cacheKey (onlineAt 4).settings sampleQuery) results ∧
      (["new"] = results ∨ sampleConfig.payload results = some ["new"]) := by
  refine run_clear_final sampleConfig [⟨onlineAt 1, .set sampleQuery ["old"]⟩]
    [⟨onlineAt 3, .set sampleQuery ["new"]⟩] (onlineAt 2) (onlineAt 4) .clear sampleQuery ["new"]
    (fun _ => ⟨fun _ => ?_, fun _ _ _ => True.intro⟩) True.intro ?_
  · simp only [cacheRun, run_cons, run_nil, CacheEvent.after, RagCache.set, onlineAt, sampleKey]
    decide +kernel
  · simp only [cacheRun, List.cons_append, List.nil_append, run_cons, run_nil, CacheEvent.after,
      RagCache.get, RagCache.set, onlineAt, sampleKey]
    decide +kernel

end RAGuardian.Retrieval
