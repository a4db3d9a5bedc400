import RAGuardian.Settings.Providers

/-! # Normalized settings

The part of `SettingsStore._normalize` that settles the retrieval settings: sizes within
bounds, and providers and models that are defined. -/

namespace RAGuardian.Settings

open Json (Value)

/-- An embedding or reranker provider of the configuration file, as it was loaded. -/
structure BuiltinProvider where
  id : String
  models : List String
  defaultModel : String
deriving DecidableEq, Repr

/-- What the settings store finds configured: the configuration file as it is now, the
providers loaded from it at the start, and the values of `DEFAULT_SETTINGS["rag"]`. -/
structure Configuration where
  file : Option Value
  embedding : List BuiltinProvider
  reranker : List BuiltinProvider
  defaultProvider : String
  defaultModel : String
  rerankerType : String
  rerankerModel : String

/-- A configuration file with the one provider `"p"`, whose model is `"m"`. -/
def Configuration.sample : Configuration where
  file := some (.dict [("llm", .list [.dict [("id", .str "p"), ("models", .list [.str "m"])]])])
  embedding := []
  reranker := []
  defaultProvider := "p"
  defaultModel := "m"
  rerankerType := "local"
  rerankerModel := "local/b"

/-- The same when the configuration file cannot be read any more. -/
def Configuration.unreadable : Configuration where
  file := none
  embedding := []
  reranker := []
  defaultProvider := "p"
  defaultModel := "m"
  rerankerType := "local"
  rerankerModel := "local/b"

variable (language : Language) (configuration : Configuration)

/-! ## Language models -/

/-- The enabled providers of the settings take the place of those with the same id. -/
def addCustom (providers : LlmProviders) (custom : List CustomProvider) : LlmProviders :=
  (custom.filter (·.enabled)).foldl
    (fun providers provider => providers.set provider.id provider.models) providers

/-- `_llm_provider_definitions`. Without the definitions of the file those of the settings
are left out too. -/
def llmProviderDefinitions (custom : List CustomProvider) : LlmProviders :=
  match loadBuiltinProviderDefinitions language configuration.file with
  | none => .empty
  | some builtin => addCustom builtin custom

/-- `_find_canonical_model` -/
def findCanonicalModel (providers : LlmProviders) (selectedModel preferredProvider : String) :
    Option (String × String) :=
  let of (providerId : String) (provider : ModelList) : Option (String × String) :=
    (canonicalModelFromList language provider.models selectedModel).map (providerId, ·)
  if selectedModel = "" then none
  else
    (((providers.get? preferredProvider).bind (of preferredProvider)).or
      (providers.entries.findSome? fun entry => of entry.1 entry.2))

/-- `_normalize_llm_default` on a default provider and a default model. -/
def normalizeLlmDefault (custom : List CustomProvider) (defaultProvider defaultModel : String) :
    String × String :=
  let providers := llmProviderDefinitions language configuration custom
  match providers.entries with
  | [] => (defaultProvider, defaultModel)
  | first :: _ =>
      let providerId := Text.strip
        (if defaultProvider = "" then configuration.defaultProvider else defaultProvider)
      match findCanonicalModel language providers defaultModel providerId with
      | some canonical => canonical
      | none =>
          match providers.get? providerId with
          | some provider => (providerId, provider.fallback defaultModel)
          | none =>
              match providers.get? configuration.defaultProvider with
              | some provider =>
                  (configuration.defaultProvider, provider.fallback defaultModel)
              | none => (first.1, first.2.fallback defaultModel)

/-! ## Embeddings -/

/-- `_embedding_builtin_ids` -/
def embeddingBuiltinIds : List String :=
  (configuration.embedding.map (·.id)).filter (· ≠ "")

/-- `_embedding_builtin_model` -/
def embeddingBuiltinModel (providerId : String) : String :=
  ((configuration.embedding.find? (·.id == providerId)).map (·.defaultModel)).getD ""

/-- `_embedding_provider_choice` -/
def embeddingProviderChoice (value : Value) (custom : List EmbeddingProvider) : String :=
  let builtinIds := embeddingBuiltinIds configuration
  let fallback := builtinIds.headD "local"
  let selected :=
    if builtinIds = [] then "local" else textOr language value fallback
  if selected ∈ builtinIds then selected
  else if selected = "local" then selected
  else if (custom.filter (·.provider.enabled)).any (·.provider.id == selected) then selected
  else fallback

/-- `_embedding_model_for_provider` -/
def embeddingModelForProvider (provider : String) (model : Value)
    (custom : List EmbeddingProvider) : String :=
  let selected := textOr language model ""
  let local_model := "sentence-transformers/all-MiniLM-L6-v2"
  if provider = "local" then
    if Text.startsWith "sentence-transformers/" selected then selected else local_model
  else if embeddingBuiltinModel configuration provider ≠ "" then
    embeddingBuiltinModel configuration provider
  else
    match custom.find? fun other => other.provider.id == provider && other.provider.enabled with
    | some other =>
        (canonicalModelFromList language other.provider.models.models selected).getD
          (other.provider.models.fallback selected)
    | none =>
        if embeddingBuiltinModel configuration "local" = "" then local_model
        else embeddingBuiltinModel configuration "local"

/-! ## Rerankers -/

/-- The models of a reranker, of which the default need not be one. -/
structure RerankerModels where
  models : List String
  defaultModel : String
deriving DecidableEq, Repr

/-- `_reranker_provider_definitions` -/
def rerankerProviderDefinitions (custom : List RerankerProvider) :
    Dictionary String RerankerModels :=
  let own := Dictionary.empty.set "local"
    (RerankerModels.mk ["BAAI/bge-reranker-v2-m3"] "BAAI/bge-reranker-v2-m3")
  let builtin := (configuration.reranker.filter fun provider =>
    Text.strip provider.id ≠ "").foldl (fun providers provider =>
      providers.set (Text.strip provider.id) ⟨provider.models, provider.defaultModel⟩) own
  (custom.filter (·.provider.enabled)).foldl (fun providers reranker =>
    providers.set reranker.provider.id
      ⟨reranker.provider.models.models, reranker.provider.models.defaultModel⟩) builtin

/-- `_normalize_reranker_default` on `reranker_model` and `reranker_type`. -/
def normalizeRerankerDefault (custom : List RerankerProvider) (model type : Value) :
    String × String :=
  let providers := rerankerProviderDefinitions configuration custom
  let value := textOr language model configuration.rerankerModel
  let given := textOr language type configuration.rerankerType
  let (selectedType, selectedValue) :=
    match Text.partition '/' value.toList with
    | (_, none) => (given, value)
    | (provider, some rest) =>
        if (providers.get? (String.ofList provider)).isSome then
          (String.ofList provider, String.ofList rest)
        else (given, value)
  let first := (providers.entries.head?.map Prod.fst).getD ""
  let defined :=
    if (providers.get? selectedType).isSome then selectedType
    else if (providers.get? configuration.rerankerType).isSome then configuration.rerankerType
    else first
  let provider := (providers.get? defined).getD ⟨[], ""⟩
  let selectedModel :=
    (canonicalModelFromList language provider.models selectedValue).getD
      (if provider.defaultModel = "" then firstModel provider.models selectedValue
      else provider.defaultModel)
  (defined,
    if defined = "local" then "local/" ++ selectedModel
    else if selectedModel = "" then defined
    else defined ++ "/" ++ selectedModel)

/-! ## The settings -/

/-- `DIVERSITY_MODES` -/
def diversityModes : List String :=
  ["none", "source_diversity", "mmr"]

/-- `_choice` -/
def choice (value : Value) (choices : List String) (default : String) : String :=
  let selected := textOr language value default
  if selected ∈ choices then selected else default

/-- The retrieval settings. -/
structure RagSettings where
  chunkSize : Int
  chunkOverlap : Int
  queryK : Int
  defaultProvider : String
  defaultModel : String
  embeddingProvider : String
  embeddingModel : String
  cacheTtl : Int
  enableCache : Bool
  useInternalKnowledge : Bool
  rerankerEnabled : Bool
  rerankerType : String
  rerankerModel : String
  rerankerTopN : Int
  rerankerDiversityMode : String
  rerankerMmrCandidatePool : Int
  rerankerApiKey : String
  rerankerRegoloApiKey : String

/-- The normalized providers and retrieval settings. -/
structure Normalized where
  customProviders : List CustomProvider
  embeddingProviders : List EmbeddingProvider
  rerankerProviders : List RerankerProvider
  rag : RagSettings

/-- The settings of `rag`, once the providers are normalized. -/
def normalizeRag (custom : List CustomProvider) (embedding : List EmbeddingProvider)
    (reranker : List RerankerProvider) (rag : Entries) : Option RagSettings := do
  let get := Value.lookup rag
  let chunkSize ← intBetween language (get "chunk_size") 100 10000 1000
  let chunkOverlap ← intBetween language (get "chunk_overlap") 0 500 150
  let queryK ← intBetween language (get "query_k") 1 50 5
  let llm := normalizeLlmDefault language configuration custom
    (textOr language (get "default_provider") configuration.defaultProvider)
    (textOr language (get "default_model") configuration.defaultModel)
  let embeddingProvider := embeddingProviderChoice language configuration
    (get "embedding_provider") embedding
  let cacheTtl ← intBetween language (get "cache_ttl") 60 86400 3600
  let selectedReranker := normalizeRerankerDefault language configuration reranker
    (get "reranker_model") (get "reranker_type")
  let topN ← intBetween language (get "reranker_top_n") 1 200 20
  let pool ← intBetween language (get "reranker_mmr_candidate_pool") topN 200
    (min (max topN (topN * 4)) 200)
  return {
    chunkSize := chunkSize
    chunkOverlap := chunkOverlap
    queryK := queryK
    defaultProvider := llm.1
    defaultModel := llm.2
    embeddingProvider := embeddingProvider
    embeddingModel := embeddingModelForProvider language configuration embeddingProvider
      (get "embedding_model") embedding
    cacheTtl := cacheTtl
    enableCache := asBool language (get "enable_cache") true
    useInternalKnowledge := asBool language (get "use_internal_knowledge") false
    rerankerEnabled := asBool language (get "reranker_enabled") false
    rerankerType := selectedReranker.1
    rerankerModel := selectedReranker.2
    rerankerTopN := topN
    rerankerDiversityMode := choice language (get "reranker_diversity_mode") diversityModes "none"
    rerankerMmrCandidatePool := pool
    rerankerApiKey :=
      textOr language ((get "reranker_api_key").orElse (get "reranker_regolo_api_key")) ""
    rerankerRegoloApiKey :=
      Text.strip (language.str (getOr rag "reranker_regolo_api_key" (.str ""))) }

/-- `_normalize`; `none` stands for the errors of a document whose parts are no lists or
dictionaries where these are needed. -/
def normalize (settings : Entries) : Option Normalized := do
  let providers (key : String) : Value := getOr settings key (.list [])
  let custom ← normalizeProviders (normalizeCustomProvider language) (·.id)
    (providers "custom_providers")
  let embedding ← normalizeProviders (normalizeEmbeddingProvider language) (·.provider.id)
    (providers "embedding_providers")
  let reranker ← normalizeProviders (normalizeRerankerProvider language) (·.provider.id)
    (providers "reranker_providers")
  match getOr settings "rag" (.dict []) with
  | .dict rag =>
      let rag ← normalizeRag language configuration custom embedding reranker rag
      return {
        customProviders := custom
        embeddingProviders := embedding
        rerankerProviders := reranker
        rag := rag }
  | _ => none

end RAGuardian.Settings
