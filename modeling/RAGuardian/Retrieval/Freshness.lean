import RAGuardian.Retrieval.Clearing
import RAGuardian.Retrieval.Context

/-! # Fresh results

A query may store what it found before a mutation after that mutation has cleared the
cache. As long as no query does, a cache hit was computed by searches that saw every
mutation finished by then. -/

namespace RAGuardian.Retrieval

open Concurrency Execution Text

/-! ## The collections of a key -/

theorem CollectionName.not_mem (collection : CollectionName) {character : Char}
    (other : nameCharacter character = false) : character ∉ collection.value.toList := by
  intro member
  have allowed := List.all_eq_true.mp collection.plain character member
  rw [other] at allowed
  cases allowed

theorem firstLine_append {line : String} (absent : '\n' ∉ line.toList) (rest : String) :
    firstLine (line ++ "\n" ++ rest) = line := by
  have break_ : "\n".toList = ['\n'] := by decide
  rw [firstLine, String.toList_append, String.toList_append, break_, List.append_assoc]
  rw [List.singleton_append, partition_append absent]
  exact String.ofList_toList

theorem not_plural (collection : CollectionName) :
    startsWith pluralStart collection.value = false := by
  rw [Bool.eq_false_iff]
  intro starts
  rcases startsWith_iff.mp starts with ⟨rest, same⟩
  apply (collection.not_mem (by decide) : ':' ∉ collection.value.toList)
  rw [← same]
  apply List.mem_append_left
  decide

/-- The names in the line of a federated query. -/
theorem pluralNames_join {names : List String} (present : names ≠ [])
    (plain : ∀ name ∈ names, '|' ∉ name.toList ∧ name ≠ "") :
    pluralNames (pluralStart ++ "|".intercalate names) = names.insertionSort (· ≤ ·) := by
  have separator : "|".toList = ['|'] := by decide
  rw [pluralNames, String.toList_append, List.drop_left, String.toList_intercalate, separator]
  rw [List.splitOn_intercalate]
  · rw [List.map_map]
    have kept : (names.map (String.ofList ∘ String.toList)).filter (· ≠ "") = names := by
      have same : names.map (String.ofList ∘ String.toList) = names := by
        simp
      rw [same, List.filter_eq_self]
      intro name member
      simpa using (plain name member).2
    rw [kept]
  · intro characters member
    rcases List.mem_map.mp member with ⟨name, listed, rfl⟩
    exact (plain name listed).1
  · simpa using present

theorem not_mem_intercalate {character : Char} {names : List String}
    (other : character ≠ '|') (absent : ∀ name ∈ names, character ∉ name.toList) :
    character ∉ ("|".intercalate names).toList := by
  have separator : "|".toList = ['|'] := by decide
  induction names with
  | nil => simp
  | cons name names induction =>
      have first := absent name List.mem_cons_self
      have rest := induction fun later member => absent later (List.mem_cons_of_mem _ member)
      cases names with
      | nil => simpa using first
      | cons second names =>
          rw [String.intercalate_cons_cons, String.toList_append, String.toList_append, separator]
          simp only [List.mem_append, List.mem_singleton, not_or]
          exact ⟨⟨first, other⟩, rest⟩

/-- The line of the cached query names the collections the call searches. -/
theorem mem_queryCollections {call : ContextCall} {collection : CollectionName} :
    collection.value ∈ queryCollections call.cacheQuery.query ↔
      collection ∈ call.collections := by
  have inject : ∀ names : List CollectionName,
      collection.value ∈ names.map (·.value) ↔ collection ∈ names := by
    intro names
    rw [List.mem_map]
    constructor
    · rintro ⟨other, member, same⟩
      cases other
      cases collection
      cases same
      exact member
    · intro member
      exact ⟨collection, member, rfl⟩
  rw [ContextCall.cacheQuery, ContextCall.collections]
  split
  · have absent : '\n' ∉ (call.collectionName.getD defaultCollection).value.toList :=
      CollectionName.not_mem _ (by decide)
    have line := firstLine_append absent call.query
    rw [queryCollections, line, if_neg (by simp [not_plural])]
    exact inject [_]
  · rename_i federated
    generalize sorted : (call.knowledgeBaseTargets.map (·.value)).insertionSort (· ≤ ·) = names
    have listed : ∀ name, name ∈ names ↔ name ∈ call.knowledgeBaseTargets.map (·.value) := by
      intro name
      rw [← sorted]
      exact (List.perm_insertionSort _ _).mem_iff
    have plain : ∀ character, nameCharacter character = false →
        ∀ name ∈ names, character ∉ name.toList := by
      intro character other name member
      rcases List.mem_map.mp ((listed name).mp member) with ⟨named, _, rfl⟩
      exact named.not_mem other
    have present : names ≠ [] := by
      intro empty
      rw [← sorted, ← List.length_eq_zero_iff, List.length_insertionSort, List.length_map,
        List.length_eq_zero_iff] at empty
      exact federated (by rw [empty]; rfl)
    have absent : '\n' ∉ (pluralStart ++ "|".intercalate names).toList := by
      rw [String.toList_append, List.mem_append, not_or]
      exact ⟨by decide, not_mem_intercalate (by decide) (plain '\n' (by decide))⟩
    rw [queryCollections, firstLine_append absent, if_pos, pluralNames_join present]
    · rw [(List.perm_insertionSort _ _).mem_iff, listed]
      exact inject _
    · intro name member
      refine ⟨plain '|' (by decide) name member, ?_⟩
      rcases List.mem_map.mp ((listed name).mp member) with ⟨named, _, rfl⟩
      exact named.nonempty
    · rw [startsWith_iff, String.toList_append]
      exact List.prefix_append _ _

/-! ## Trails -/

section

variable {Update Document : Type} {config : CacheConfig (List Document)}
  {rank : ContextCall → List (List Document) → List Document}

abbrev IndexStep (Update Document : Type) :=
  Step (IndexRequest Update Document) (IndexDraw Update Document) (IndexState Update Document)

/-- What a search of the trail found. -/
def found? (step : IndexStep Update Document) : Option (List Document) :=
  match step.request with
  | .search call collection =>
      some (step.draw.found call collection (step.before.contents collection))
  | _ => none

/-- The results were computed from the searches of the trail, one of each collection. -/
structure Computed (rank : ContextCall → List (List Document) → List Document)
    (call : ContextCall) (trail : List (IndexStep Update Document)) (results : List Document) :
    Prop where
  ranked : results = rank call (trail.filterMap found?)
  searched : ∀ collection ∈ call.collections,
    ∃ step ∈ trail, step.request = .search call collection

theorem follows_searchEach {call : ContextCall} {names : List CollectionName}
    {trail : List (IndexStep Update Document)} {found : List (List Document)}
    (follows : Follows (indexSystem config rank) (searchEach call names) trail (.done found)) :
    found = trail.filterMap found? ∧
      ∀ collection ∈ names, ∃ step ∈ trail, step.request = .search call collection := by
  induction names generalizing trail found with
  | nil =>
      cases follows
      exact ⟨rfl, fun collection member => nomatch member⟩
  | cons name names induction =>
      cases follows with
      | call _ _ draw before rest =>
          rcases rest.bind_done with ⟨earlier, later, others, rfl, searches, finished⟩
          cases finished
          rcases induction searches with ⟨rfl, covered⟩
          constructor
          · rw [List.append_nil, List.filterMap_cons]
            rfl
          · intro collection member
            rcases List.mem_cons.mp member with rfl | other
            · exact ⟨_, List.mem_cons_self, rfl⟩
            · rcases covered collection other with ⟨step, inTrail, searches⟩
              exact ⟨step, List.mem_cons_of_mem _ (List.mem_append_left _ inTrail), searches⟩

theorem searchEach_makes (call : ContextCall) (names : List CollectionName) :
    (searchEach call names : IndexProgram Update Document _).Makes fun request =>
      ∃ collection, request = .search call collection := by
  induction names with
  | nil => trivial
  | cons name names induction =>
      refine ⟨⟨name, rfl⟩, fun found => ?_⟩
      exact Program.Always.bind induction fun _ => trivial

/-- A call that is about to store has searched, and stores what it computed. -/
theorem follows_searchAndStore {call : ContextCall} {query : CacheQuery}
    {results : List Document} {trail : List (IndexStep Update Document)}
    {next : Unit → IndexProgram Update Document (List Document)}
    (follows : Follows (indexSystem config rank) (searchAndStore rank call) trail
      (.call (.store query results) next)) :
    query = call.cacheQuery ∧ Computed rank call trail results ∧
      next () = .done results := by
  rcases follows.bind_cases with ⟨rest, searches, same⟩ | ⟨earlier, later, found, rfl, searches, stores⟩
  · cases rest with
    | done found =>
        rcases follows_searchEach searches with ⟨rfl, covered⟩
        rw [Program.done_bind] at same
        split at same
        · cases same
          exact ⟨rfl, ⟨rfl, covered⟩, rfl⟩
        · cases same
    | call request following =>
        have makes := searches.always (searchEach_makes call call.collections)
        rcases makes.1 with ⟨collection, rfl⟩
        cases same
  · rcases follows_searchEach searches with ⟨rfl, covered⟩
    split at stores
    · cases stores with
      | here =>
          rw [List.append_nil]
          exact ⟨rfl, ⟨rfl, covered⟩, rfl⟩
      | call _ _ _ _ rest => cases rest
    · cases stores

theorem follows_getContext {call : ContextCall} {query : CacheQuery}
    {results : List Document} {trail : List (IndexStep Update Document)}
    {next : Unit → IndexProgram Update Document (List Document)}
    (follows : Follows (indexSystem config rank) (getContext rank call) trail
      (.call (.store query results) next)) :
    query = call.cacheQuery ∧ Computed rank call trail results ∧
      next () = .done results := by
  rw [getContext] at follows
  split at follows
  · cases follows with
    | call _ _ draw before rest =>
        dsimp only at rest
        split at rest
        · cases rest
        · rcases follows_searchAndStore rest with ⟨named, ⟨ranked, searched⟩, finishes⟩
          refine ⟨named, ⟨ranked, ?_⟩, finishes⟩
          intro collection member
          rcases searched collection member with ⟨step, inTrail, searches⟩
          exact ⟨step, List.mem_cons_of_mem _ inTrail, searches⟩
  · exact follows_searchAndStore follows

theorem mutateCollection_nil (collection : CollectionName) :
    (mutateCollection ⟨collection, []⟩ : IndexProgram Update Document Nat) =
      .call (.clear collection) .done :=
  rfl

theorem mutateCollection_cons (collection : CollectionName) (update : Update)
    (updates : List Update) :
    (mutateCollection ⟨collection, update :: updates⟩ : IndexProgram Update Document Nat) =
      .call (.change collection update) fun _ => mutateCollection ⟨collection, updates⟩ :=
  rfl

theorem mutateCollection_runs (mutation : Mutation Update) (result : Nat) :
    (mutateCollection mutation : IndexProgram Update Document Nat) ≠ .done result := by
  rcases mutation with ⟨collection, updates⟩
  cases updates with
  | nil =>
      rw [mutateCollection_nil]
      simp
  | cons update updates =>
      rw [mutateCollection_cons]
      simp

/-- A mutation returns from its clear only. -/
theorem mutateCollection_returns (mutation : Mutation Update) :
    (mutateCollection mutation : IndexProgram Update Document Nat).Always fun request next =>
      ∀ response result, next response = .done result →
        request = .clear mutation.collection := by
  rcases mutation with ⟨collection, updates⟩
  induction updates with
  | nil => exact ⟨fun _ _ _ => rfl, fun _ => trivial⟩
  | cons update updates induction =>
      rw [mutateCollection_cons]
      refine ⟨?_, fun _ => induction⟩
      intro response result returns
      exact absurd returns (mutateCollection_runs _ _)

theorem mutateCollection_makes (mutation : Mutation Update) :
    (mutateCollection mutation : IndexProgram Update Document Nat).Makes fun request =>
      (∃ update, request = .change mutation.collection update) ∨
        request = .clear mutation.collection := by
  rcases mutation with ⟨collection, updates⟩
  induction updates with
  | nil => exact ⟨.inr rfl, fun _ => trivial⟩
  | cons update updates induction => exact ⟨.inl ⟨update, rfl⟩, fun _ => induction⟩

/-! ## Entries of the cache -/

/-- What a request leaves in the cache was there before or has just been stored. -/
theorem execute_memory {draw : IndexDraw Update Document}
    {request : IndexRequest Update Document} {state : IndexState Update Document}
    {key : String} {entry : CacheEntry (List Document)}
    (present : (request.execute config draw state).2.cache.memory.get? key = some entry) :
    (∃ query, request = .store query entry.value ∧
      config.cacheKey draw.cache.settings query = key) ∨
      state.cache.memory.get? key = some entry := by
  cases request with
  | lookup query =>
      exact .inr ((RagCache.Within.get draw.cache query state.cache).memory key entry present)
  | search call collection => exact .inr present
  | store query results =>
      rcases set_memory present with ⟨_, named, rfl⟩ | old
      · exact .inl ⟨query, rfl, named⟩
      · exact .inr old
  | change collection update => exact .inr present
  | clear collection =>
      exact .inr ((RagCache.Within.clearCollection draw.cache collection.value
        state.cache).memory key entry present)

/-- A clear leaves nothing that concerns its collection. -/
theorem execute_clear (memoryOnly : config.redis = false) {draw : IndexDraw Update Document}
    {collection : CollectionName} {state : IndexState Update Document} {key : String}
    {entry : CacheEntry (List Document)}
    (present : ((IndexRequest.clear collection).execute config draw state).2.cache.memory.get?
      key = some entry) : config.concerns collection.value key = false := by
  rw [Bool.eq_false_iff]
  intro concerns
  have named : clearedName collection.value = collection.value := if_neg collection.nonempty
  have finishes : (CacheCall.clearCollection collection.value).Finishes config draw.cache
      state.cache := by
    intro remote
    rw [memoryOnly] at remote
    cases remote
  apply (clearCollection_without finishes).memory key entry _ present
  rw [named]
  exact concerns

/-- A hit reads an entry. -/
theorem execute_lookup (memoryOnly : config.redis = false) {draw : IndexDraw Update Document}
    {query : CacheQuery} {state : IndexState Update Document} {results : List Document}
    (hit : ((IndexRequest.lookup query).execute config draw state).1 = some results) :
    ∃ entry, state.cache.memory.get? (config.cacheKey draw.cache.settings query) = some entry ∧
      entry.value = results := by
  change (state.cache.get config draw.cache query).1 = some results at hit
  rw [RagCache.get] at hit
  dsimp only at hit
  split at hit
  · cases hit
  · rw [if_neg (by simp [memoryOnly])] at hit
    exact getMemory_some hit

/-! ## Runs -/

abbrev IndexTask (config : CacheConfig (List Document))
    (rank : ContextCall → List (List Document) → List Document) (Update : Type) :=
  Task (@indexSystem Update Document config rank)

abbrev IndexMachine (config : CacheConfig (List Document))
    (rank : ContextCall → List (List Document) → List Document) (Update : Type) :=
  Machine (@indexSystem Update Document config rank)

/-- Every search of the collection came after every change of the mutation. -/
def Saw (source mutated : IndexTask config rank Update) (collection : CollectionName) : Prop :=
  ∀ search ∈ source.trail, ∀ call, search.request = .search call collection →
    ∀ change ∈ mutated.trail, ∀ update, change.request = .change collection update →
      (change.after (indexSystem config rank)).changes <+: search.before.changes

/-- The mutations of a collection of the query that have returned. -/
def Finished (machine : IndexMachine config rank Update) (query : ContextCall)
    (mutated : IndexTask config rank Update) (collection : CollectionName) : Prop :=
  mutated ∈ machine.tasks ∧ mutated.running = false ∧ collection ∈ query.collections ∧
    ∃ updates, mutated.call = .mutate ⟨collection, updates⟩

/-- A query that is about to store has seen the mutations that have returned. -/
def StoresFresh (machine : IndexMachine config rank Update) (index : Nat) : Prop :=
  ∀ task query results next, machine.tasks[index]? = some task → task.call = .query query →
    task.remaining = .call (.store query.cacheQuery results) next →
    ∀ mutated collection, Finished machine query mutated collection →
      Saw task mutated collection

/-- The settings of the run's requests. -/
def Drawn (events : List (Event (IndexDraw Update Document) (IndexCall Update)))
    (settings : RagSettings) : Prop :=
  ∃ index draw, Event.step index draw ∈ events ∧ draw.cache.settings = settings

/-- The calls of the run whose keys are equal ask the same of the same collections. -/
def KeysTell (config : CacheConfig (List Document))
    (events : List (Event (IndexDraw Update Document) (IndexCall Update))) : Prop :=
  ∀ left right leftSettings rightSettings, .start (.query left) ∈ events →
    .start (.query right) ∈ events → Drawn events leftSettings → Drawn events rightSettings →
    config.cacheKey leftSettings left.cacheQuery =
      config.cacheKey rightSettings right.cacheQuery →
    left.cacheQuery.query = right.cacheQuery.query

/-- The call has stored the results it computed. -/
structure Stored (task : IndexTask config rank Update) (query : ContextCall)
    (results : List Document) : Prop where
  call : task.call = .query query
  returned : task.running = false
  stored : ∃ step ∈ task.trail, step.request = .store query.cacheQuery results
  computed : Computed rank query task.trail results

/-- Every entry was stored by a query that saw the mutations that have returned. -/
def FreshEntries (events : List (Event (IndexDraw Update Document) (IndexCall Update)))
    (machine : IndexMachine config rank Update) : Prop :=
  ∀ key entry, machine.state.cache.memory.get? key = some entry →
    ∃ source ∈ machine.tasks, ∃ query settings, Stored source query entry.value ∧
      Drawn events settings ∧ config.cacheKey settings query.cacheQuery = key ∧
      ∀ mutated collection, Finished machine query mutated collection →
        Saw source mutated collection

/-! ## The step -/

theorem Drawn.mono {events more : List (Event (IndexDraw Update Document) (IndexCall Update))}
    {settings : RagSettings} (drawn : Drawn events settings) :
    Drawn (events ++ more) settings := by
  rcases drawn with ⟨index, draw, member, rfl⟩
  exact ⟨index, draw, List.mem_append_left _ member, rfl⟩

/-- A mutation that has not returned before a step clears with it. -/
theorem finished_of_step {machine : IndexMachine config rank Update}
    (consistent : machine.Consistent) {index : Nat} {draw : IndexDraw Update Document}
    {task : IndexTask config rank Update} {request : IndexRequest Update Document}
    {next : request.Response → IndexProgram Update Document _}
    (found : machine.tasks[index]? = some task) (asks : task.remaining = .call request next)
    {collection : CollectionName} {updates : List Update}
    (call : task.call = .mutate ⟨collection, updates⟩)
    (returned : (task.answered draw machine.state request next).running = false) :
    request = .clear collection := by
  have always : (((@indexSystem Update Document config rank).program task.call).Always
      fun request next => ∀ response result, next response = .done result →
        request = .clear collection) := by
    rw [call]
    exact mutateCollection_returns ⟨collection, updates⟩
  have obligation := consistent.allows (List.mem_of_getElem? found) asks always
  rw [Task.running] at returned
  split at returned
  · rename_i result ends
    exact obligation _ result ends
  · cases returned

/-- A query that stores has computed what it stores, and returns. -/
theorem stored_of_step {machine : IndexMachine config rank Update}
    (consistent : machine.Consistent) {index : Nat} (draw : IndexDraw Update Document)
    {task : IndexTask config rank Update} {query : CacheQuery} {results : List Document}
    {next : Unit → IndexProgram Update Document _}
    (found : machine.tasks[index]? = some task)
    (asks : task.remaining = .call (.store query results) next) :
    ∃ call, query = call.cacheQuery ∧
      Stored (task.answered draw machine.state (.store query results) next) call results := by
  have follows := consistent task (List.mem_of_getElem? found)
  rcases task with ⟨call, trail, remaining⟩
  dsimp only at asks follows next
  subst asks
  cases call with
  | mutate mutation =>
      have makes := follows.always (mutateCollection_makes mutation)
      rcases makes.1 with ⟨update, different⟩ | different
      · cases different
      · cases different
  | query call =>
      rcases follows_getContext follows with ⟨named, ⟨ranked, searched⟩, finishes⟩
      refine ⟨call, named, rfl, ?_, ⟨_, List.mem_append_right _ List.mem_cons_self, ?_⟩, ?_, ?_⟩
      · rw [Task.running, Task.answered]
        dsimp only
        rw [finishes]
      · rw [named]
      · rw [ranked, Task.answered, List.filterMap_append]
        rw [List.filterMap_cons_none rfl, List.filterMap_nil, List.append_nil]
      · intro collection member
        rcases searched collection member with ⟨step, inTrail, searches⟩
        exact ⟨step, List.mem_append_left _ inTrail, searches⟩

/-- What has returned after a step had returned before it, or returns with it. -/
theorem Finished.of_step {machine : IndexMachine config rank Update}
    (consistent : machine.Consistent) {index : Nat} {draw : IndexDraw Update Document}
    {task : IndexTask config rank Update} {request : IndexRequest Update Document}
    {next : request.Response → IndexProgram Update Document _}
    (found : machine.tasks[index]? = some task) (asks : task.remaining = .call request next)
    {state : IndexState Update Document} {query : ContextCall}
    {mutated : IndexTask config rank Update} {collection : CollectionName}
    (finished : Finished ⟨state, machine.tasks.set index
      (task.answered draw machine.state request next)⟩ query mutated collection) :
    Finished machine query mutated collection ∨
      request = .clear collection ∧ collection ∈ query.collections := by
  rcases finished with ⟨member, returned, concerned, updates, call⟩
  rcases Machine.mem_set member with old | rfl
  · exact .inl ⟨old, returned, concerned, updates, call⟩
  · exact .inr ⟨finished_of_step consistent found asks call returned, concerned⟩

/-- A call that has returned is still there after a step. -/
theorem mem_of_step {machine : IndexMachine config rank Update} {index : Nat}
    {task changed source : IndexTask config rank Update}
    (found : machine.tasks[index]? = some task) (running : task.running = true)
    (member : source ∈ machine.tasks) (returned : source.running = false) :
    source ∈ machine.tasks.set index changed := by
  rcases List.mem_iff_getElem?.mp member with ⟨position, held⟩
  have different : position ≠ index := by
    rintro rfl
    rw [found] at held
    cases held
    rw [running] at returned
    cases returned
  apply List.mem_iff_getElem?.mpr
  refine ⟨position, ?_⟩
  rw [List.getElem?_set_ne (Ne.symm different)]
  exact held

theorem FreshEntries.step (memoryOnly : config.redis = false)
    {events : List (Event (IndexDraw Update Document) (IndexCall Update))}
    {before after : IndexMachine config rank Update}
    {event : Event (IndexDraw Update Document) (IndexCall Update)}
    (consistent : before.Consistent) (moves : before.Moves event after)
    (admitted : ∀ index draw, event = .step index draw → StoresFresh before index)
    (fresh : FreshEntries events before) : FreshEntries (events ++ [event]) after := by
  intro key entry present
  cases moves with
  | idle =>
      rcases fresh key entry present with
        ⟨source, member, query, settings, stored, drawn, named, saw⟩
      exact ⟨source, member, query, settings, stored, drawn.mono, named, saw⟩
  | start call free =>
      rcases fresh key entry present with
        ⟨source, member, query, settings, stored, drawn, named, saw⟩
      refine ⟨source, List.mem_append_left _ member, query, settings, stored, drawn.mono, named, ?_⟩
      rintro mutated collection ⟨held, returned, concerned, updates, mutates⟩
      rcases List.mem_append.mp held with old | new
      · exact saw mutated collection ⟨old, returned, concerned, updates, mutates⟩
      · have new := List.mem_singleton.mp new
        subst new
        change call = .mutate ⟨collection, updates⟩ at mutates
        subst mutates
        cases updates with
        | nil => cases returned
        | cons update updates => cases returned
  | step index draw task request next found asks =>
      rcases execute_memory present with ⟨query, rfl, named⟩ | old
      · rcases stored_of_step consistent draw found asks with ⟨call, rfl, stored⟩
        refine ⟨_, List.mem_set (List.getElem?_eq_some_iff.mp found).1 _, call, draw.cache.settings, stored, ?_, named, ?_⟩
        · exact ⟨index, draw, List.mem_append_right _ List.mem_cons_self, rfl⟩
        · intro mutated collection finished
          have queries : task.call = .query call := stored.call
          rcases finished.of_step consistent found asks with earlier | ⟨clears, _⟩
          · intro search inTrail other searches
            rcases List.mem_append.mp inTrail with old | new
            · exact admitted index draw rfl task call entry.value next found queries asks
                mutated collection earlier search old other searches
            · rw [List.mem_singleton.mp new] at searches
              cases searches
          · cases clears
      · rcases fresh key entry old with
          ⟨source, member, query, settings, stored, drawn, named, saw⟩
        refine ⟨source, mem_of_step found (Task.running_of_call asks) member stored.returned,
          query, settings, stored, drawn.mono, named, ?_⟩
        intro mutated collection finished
        rcases finished.of_step consistent found asks with before | ⟨rfl, concerned⟩
        · exact saw mutated collection before
        · have untouched := execute_clear memoryOnly present
          rw [← named, concerns_cacheKey settings (mem_queryCollections.mpr concerned)] at untouched
          cases untouched

/-- The states of a run over an empty cache and an empty store. -/
abbrev indexRun (config : CacheConfig (List Document))
    (rank : ContextCall → List (List Document) → List Document)
    (events : List (Event (IndexDraw Update Document) (IndexCall Update))) :
    IndexMachine config rank Update :=
  run Machine.next (.initial (indexSystem config rank) .empty) events

/-- Every query of the run that stores has seen the mutations that have returned. -/
def AllStoresFresh (config : CacheConfig (List Document))
    (rank : ContextCall → List (List Document) → List Document)
    (events : List (Event (IndexDraw Update Document) (IndexCall Update))) : Prop :=
  ∀ past index draw, past ++ [.step index draw] <+: events →
    StoresFresh (indexRun config rank past) index

/-- The query is about to look up results that are in the cache. -/
def Hits (machine : IndexMachine config rank Update) (index : Nat)
    (draw : IndexDraw Update Document) (call : ContextCall) (results : List Document) : Prop :=
  ∃ task next, machine.tasks[index]? = some task ∧ task.call = .query call ∧
    task.remaining = .call (.lookup call.cacheQuery) next ∧
    ((IndexRequest.lookup call.cacheQuery).execute config draw machine.state).1 = some results

theorem run_fresh (memoryOnly : config.redis = false)
    {events : List (Event (IndexDraw Update Document) (IndexCall Update))}
    (admitted : AllStoresFresh config rank events) :
    FreshEntries events (indexRun config rank events) := by
  induction events using List.reverseRecOn with
  | nil =>
      intro key entry present
      cases present
  | append_singleton past event induction =>
      rw [indexRun, run_concat]
      apply FreshEntries.step memoryOnly (run_trails .empty past) (Machine.moves _ event)
      · rintro index draw rfl
        exact admitted past index draw List.prefix_rfl
      · exact induction fun earlier index draw within =>
          admitted earlier index draw (within.trans (List.prefix_append past [event]))

end

/-- As long as every query that stores has seen the mutations that have returned, a hit
returns what a query computed from searches of the same collections, all of which saw
the mutations of them that have returned. -/
theorem run_hit_fresh {Update Document : Type} (config : CacheConfig (List Document))
    (memoryOnly : config.redis = false)
    (rank : ContextCall → List (List Document) → List Document)
    (events : List (Event (IndexDraw Update Document) (IndexCall Update)))
    (tell : KeysTell config events) (admitted : AllStoresFresh config rank events)
    (past : List (Event (IndexDraw Update Document) (IndexCall Update))) (index : Nat)
    (draw : IndexDraw Update Document) (within : past ++ [.step index draw] <+: events)
    (call : ContextCall) (results : List Document)
    (hits : Hits (indexRun config rank past) index draw call results)
    (mutated : IndexTask config rank Update) (collection : CollectionName)
    (finished : Finished (indexRun config rank past) call mutated collection) :
    ∃ source ∈ (indexRun config rank past).tasks, ∃ query, Stored source query results ∧
      collection ∈ query.collections ∧ Saw source mutated collection := by
  have earlier : past <+: events := (List.prefix_append past _).trans within
  have fresh := run_fresh memoryOnly fun before index draw order =>
    admitted before index draw (order.trans earlier)
  rcases hits with ⟨task, next, found, calls, asks, hit⟩
  rcases execute_lookup memoryOnly hit with ⟨entry, held, rfl⟩
  rcases fresh _ entry held with ⟨source, member, query, settings, stored, drawn, named, saw⟩
  have started : ∀ task ∈ (indexRun config rank past).tasks, Event.start task.call ∈ events :=
    fun task member => earlier.subset (run_started member)
  have queried := started source member
  rw [stored.call] at queried
  have asked := started task (List.mem_of_getElem? found)
  rw [calls] at asked
  have drawnEarlier : Drawn events settings := by
    rcases earlier with ⟨rest, rfl⟩
    exact drawn.mono
  have drawnNow : Drawn events draw.cache.settings :=
    ⟨index, draw, within.subset (List.mem_append_right _ List.mem_cons_self), rfl⟩
  have same := tell query call settings draw.cache.settings queried asked drawnEarlier drawnNow
    named
  have concerned : collection ∈ query.collections := by
    rw [← mem_queryCollections, same, mem_queryCollections]
    exact finished.2.2.1
  refine ⟨source, member, query, stored, concerned, saw mutated collection ?_⟩
  exact ⟨finished.1, finished.2.1, concerned, finished.2.2.2⟩

section

variable {Update Document : Type} [DecidableEq Update] {config : CacheConfig (List Document)}
  {rank : ContextCall → List (List Document) → List Document}

/-- `Saw`, computed. -/
def sees (source mutated : IndexTask config rank Update) (collection : CollectionName) : Bool :=
  source.trail.all fun search =>
    match search.request with
    | .search _ searched => searched ≠ collection || mutated.trail.all fun change =>
        match change.request with
        | .change _ _ =>
            (change.after (indexSystem config rank)).changes.isPrefixOf search.before.changes
        | _ => true
    | _ => true

theorem saw_of_sees {source mutated : IndexTask config rank Update} {collection : CollectionName}
    (sees : sees source mutated collection = true) : Saw source mutated collection := by
  intro search inTrail call searches change changed update changes
  have seen := List.all_eq_true.mp sees search inTrail
  rw [searches] at seen
  simp only [ne_eq, not_true_eq_false, decide_false, Bool.false_or] at seen
  have before := List.all_eq_true.mp seen change changed
  rw [changes] at before
  exact List.isPrefixOf_iff_prefix.mp before

/-- `StoresFresh`, computed. -/
def storesFresh (machine : IndexMachine config rank Update) (index : Nat) : Bool :=
  match machine.tasks[index]? with
  | none => true
  | some task =>
      match task.remaining with
      | .call (.store _ _) _ => machine.tasks.all fun mutated =>
          match mutated.call with
          | .mutate mutation => mutated.running || sees task mutated mutation.collection
          | .query _ => true
      | _ => true

theorem storesFresh_sound {machine : IndexMachine config rank Update} {index : Nat}
    (fresh : storesFresh machine index = true) : StoresFresh machine index := by
  rintro task query results next found calls asks mutated collection
    ⟨member, returned, _, updates, mutates⟩
  rw [storesFresh, found] at fresh
  dsimp only at fresh
  rw [asks] at fresh
  have seen := List.all_eq_true.mp fresh mutated member
  rw [mutates] at seen
  simp only [returned, Bool.false_or] at seen
  exact saw_of_sees seen

/-- `AllStoresFresh`, computed. -/
def allStoresFresh (config : CacheConfig (List Document))
    (rank : ContextCall → List (List Document) → List Document)
    (events : List (Event (IndexDraw Update Document) (IndexCall Update))) : Bool :=
  checkEach (fun past event =>
    match event with
    | .start _ => true
    | .step index _ => storesFresh (indexRun config rank past) index) events

theorem allStoresFresh_sound
    {events : List (Event (IndexDraw Update Document) (IndexCall Update))}
    (fresh : allStoresFresh config rank events = true) : AllStoresFresh config rank events :=
  fun _ _ _ within => storesFresh_sound (checkEach_sound fresh within)

end

/-! ## A query across a mutation -/

/-- The cache in memory only. -/
def sampleMemory : CacheConfig (List String) := { sampleConfig with redis := false }

def sampleRank (_call : ContextCall) (found : List (List String)) : List String := found.flatten

def sampleCall : ContextCall := { query := "hours", k := 4, model := "small" }

def sampleMutation : Mutation Unit := ⟨defaultCollection, [()]⟩

/-- A search finds one document before the first change and another after it. -/
def sampleDraw (now : Timestamp) : IndexDraw Unit String where
  cache := onlineAt now
  found _ _ updates := if updates.isEmpty then ["old"] else ["new"]

/-- A query searches, a mutation changes the collection and clears the cache, and the
query stores what it found. -/
def staleEvents : List (Event (IndexDraw Unit String) (IndexCall Unit)) :=
  [.start (.query sampleCall), .step 0 (sampleDraw 1), .step 0 (sampleDraw 2),
    .start (.mutate sampleMutation), .step 1 (sampleDraw 3), .step 1 (sampleDraw 4),
    .step 0 (sampleDraw 5), .start (.query sampleCall)]

def staleMachine : IndexMachine sampleMemory sampleRank Unit :=
  indexRun sampleMemory sampleRank staleEvents

/-- The searches of the run came before the change. -/
theorem staleMachine_searches : ∀ source ∈ staleMachine.tasks, ∀ search ∈ source.trail,
    ∀ call collection, search.request = .search call collection → search.before.changes = [] := by
  have listed : (staleMachine.tasks.all fun source => source.trail.all fun search =>
      match search.request with
      | .search _ _ => search.before.changes.isEmpty
      | _ => true) = true := by
    decide +kernel
  intro source member search inTrail call collection searches
  have checked := List.all_eq_true.mp (List.all_eq_true.mp listed source member) search inTrail
  rw [searches] at checked
  exact List.isEmpty_iff.mp checked

/-- The mutation has returned, a hit returns the document found before it, and no query
whose results these are saw it. -/
theorem hit_misses_mutation : Hits staleMachine 2 (sampleDraw 6) sampleCall ["old"] ∧
    ∃ mutated, Finished staleMachine sampleCall mutated defaultCollection ∧
      ¬∃ source ∈ staleMachine.tasks, ∃ query, Stored source query ["old"] ∧
        defaultCollection ∈ query.collections ∧ Saw source mutated defaultCollection := by
  refine ⟨⟨_, _, rfl, rfl, rfl, by decide +kernel⟩, _,
    ⟨List.mem_of_getElem? (i := 1) rfl, rfl, by decide, [()], rfl⟩, ?_⟩
  rintro ⟨source, member, query, stored, concerned, saw⟩
  rcases stored.computed.searched _ concerned with ⟨search, inTrail, searches⟩
  have early := staleMachine_searches source member search inTrail query _ searches
  have prior := saw search inTrail query searches _ List.mem_cons_self () rfl
  rw [early] at prior
  exact absurd (List.prefix_nil.mp prior) (by decide)

/-- A mutation, a query that fills the cache, and one that hits. -/
def freshEvents : List (Event (IndexDraw Unit String) (IndexCall Unit)) :=
  [.start (.mutate sampleMutation), .step 0 (sampleDraw 1), .step 0 (sampleDraw 2),
    .start (.query sampleCall), .step 1 (sampleDraw 3), .step 1 (sampleDraw 4),
    .step 1 (sampleDraw 5), .start (.query sampleCall)]

theorem freshEvents_tell (index : Nat) (draw : IndexDraw Unit String) :
    KeysTell sampleMemory (freshEvents ++ [.step index draw]) := by
  have only : ∀ call, Event.start (.query call) ∈ freshEvents ++ [.step index draw] →
      call = sampleCall := by
    intro call member
    simpa [freshEvents] using member
  intro left right _ _ leftMember rightMember _ _ _
  rw [only left leftMember, only right rightMember]

theorem run_hit_fresh_after_mutation :
    ∃ mutated, ∃ source ∈ (indexRun sampleMemory sampleRank freshEvents).tasks, ∃ query,
      Stored source query ["new"] ∧ defaultCollection ∈ query.collections ∧
        Saw source mutated defaultCollection :=
  ⟨_, run_hit_fresh sampleMemory rfl sampleRank (freshEvents ++ [.step 2 (sampleDraw 6)])
    (freshEvents_tell 2 (sampleDraw 6)) (allStoresFresh_sound (by decide +kernel))
    freshEvents 2 (sampleDraw 6) List.prefix_rfl sampleCall ["new"]
    ⟨_, _, rfl, rfl, rfl, by decide +kernel⟩ _ defaultCollection
    ⟨List.mem_of_getElem? (i := 0) rfl, rfl, by decide, [()], rfl⟩⟩

end RAGuardian.Retrieval
