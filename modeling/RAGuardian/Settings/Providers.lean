import Mathlib.Algebra.GroupWithZero.Nat
import RAGuardian.Foundation.Dictionary
import RAGuardian.Settings.Values

/-! # Providers

The providers of the settings and those of the configuration file, with their models. -/

namespace RAGuardian.Settings

open Json (Value)

/-- The models of a provider. Its default, if it has one, is one of them. -/
structure ModelList where
  models : List String
  defaultModel : String
  default_known : defaultModel = "" ∨ defaultModel ∈ models

/-- The first of the models. -/
def firstModel (models : List String) (otherwise : String) : String :=
  models.headD otherwise

/-- `str(provider.get("default_model") or (models[0] if models else selected))` -/
def ModelList.fallback (provider : ModelList) (selected : String) : String :=
  if provider.defaultModel = "" then firstModel provider.models selected
  else provider.defaultModel

theorem ModelList.fallback_mem (provider : ModelList) (selected : String)
    (nonempty : provider.models ≠ []) : provider.fallback selected ∈ provider.models := by
  rw [fallback]
  split
  · cases listed : provider.models with
    | nil => exact absurd listed nonempty
    | cons first rest => exact List.mem_cons_self
  · rename_i given
    exact provider.default_known.resolve_left given

variable (language : Language)

/-! ## Providers of the settings -/

/-- The default model among the models: in the spelling of the list if it is there in
another one, and otherwise put in front of them. -/
def withDefault (models : List String) (default : String) : ModelList :=
  match canonical : canonicalModelFromList language models default with
  | some model => ⟨models, model, .inr (canonicalModelFromList_mem canonical)⟩
  | none =>
      if empty : default = "" then ⟨models, default, .inl empty⟩
      else if listed : default ∈ models then ⟨models, default, .inr listed⟩
      else ⟨default :: models, default, .inr List.mem_cons_self⟩

/-- A provider of the settings. -/
structure CustomProvider where
  id : String
  name : String
  type : String
  baseUrl : String
  apiKeyEnv : String
  requiresApiKey : Bool
  apiKey : String
  models : ModelList
  enabled : Bool

/-- `_slug` of a value -/
def slugOf (value : Value) : String :=
  slug language.characters (if value.truthy then language.str value else "")

/-- `value.rstrip("/")` -/
def rstripSlash (value : String) : String :=
  String.ofList (value.toList.reverse.dropWhile (· = '/')).reverse

/-- `normalize_custom_provider`; `none` stands for the `AttributeError` of a provider that
is no dictionary. -/
def normalizeCustomProvider : Value → Option CustomProvider
  | .dict provider =>
      let get := Value.lookup provider
      let providerId := slugOf language ((get "id").orElse (get "name"))
      let models := parseModels language (get "models")
      some {
        id := providerId
        name := textOr language (get "name") providerId
        type := textOr language (get "type") "openai_compatible"
        baseUrl := rstripSlash (textOr language (get "base_url") "")
        apiKeyEnv := textOr language (get "api_key_env") ""
        requiresApiKey := asBool language (get "requires_api_key") false
        apiKey := textOr language (get "api_key") ""
        models := withDefault language models
          (textOr language (get "default_model") (firstModel models ""))
        enabled := asBool language (get "enabled") true }
  | _ => none

/-- An embedding provider of the settings. -/
structure EmbeddingProvider where
  provider : CustomProvider
  dimensions : Int

/-- `normalize_embedding_provider` -/
def normalizeEmbeddingProvider (value : Value) : Option EmbeddingProvider := do
  let provider ← normalizeCustomProvider language value
  match value with
  | .dict entries =>
      let dimensions ← intBetween language (Value.lookup entries "dimensions") 0 1000000 0
      return { provider, dimensions }
  | _ => none

/-- `value.replace("-", "_")` -/
def dashesToUnderscores (value : String) : String :=
  String.ofList (value.toList.map fun character => if character = '-' then '_' else character)

/-- `_reranker_mode` -/
def rerankerMode (value : Value) : String :=
  let selected := dashesToUnderscores (language.lower (textOr language value "chat_completions"))
  if selected ∈ ["chat", "chat_completion", "chat_completions"] then "chat_completions"
  else if selected ∈ ["rerank", "reranker", "rerank_endpoint"] then "rerank"
  else if selected = "auto" then "auto"
  else "chat_completions"

/-- A reranker provider of the settings. -/
structure RerankerProvider where
  provider : CustomProvider
  mode : String

/-- `normalize_reranker_provider` -/
def normalizeRerankerProvider (value : Value) : Option RerankerProvider := do
  let provider ← normalizeCustomProvider language value
  match value with
  | .dict entries =>
      return { provider, mode := rerankerMode language (Value.lookup entries "reranker_mode") }
  | _ => none

/-- A loop of `_normalize` over providers, which keeps those with an id. -/
def normalizeProviders {Provider : Type} (normalize : Value → Option Provider)
    (id : Provider → String) (value : Value) : Option (List Provider) := do
  let items ← iterate value
  let providers ← items.mapM normalize
  return providers.filter fun provider => id provider ≠ ""

/-! ## Providers of the configuration file -/

/-- `_normalize_llm_provider` -/
def normalizeLlmProvider (entry : Entries) : ModelList :=
  let models := parseModels language (Value.lookup entry "models")
  if models = [] then ⟨[], "", .inl rfl⟩
  else
    let default := textOr language (Value.lookup entry "default_model") (firstModel models "")
    if listed : default ∈ models then ⟨models, default, .inr listed⟩
    else ⟨default :: models, default, .inr List.mem_cons_self⟩

abbrev LlmProviders := Dictionary String ModelList

/-- A loop over the providers of the configuration file, which leaves out those that are
no dictionaries. -/
def llmProviders (entries : List (String × Value)) : LlmProviders :=
  entries.foldl
    (fun providers entry =>
      match entry.2 with
      | .dict provider => providers.set entry.1 (normalizeLlmProvider language provider)
      | _ => providers)
    .empty

/-- `ModelConfigurationError` if no model is configured. -/
def requireModels (providers : LlmProviders) : Option LlmProviders :=
  if (providers.entries.map fun entry => entry.2.models.length).sum = 0 then none
  else some providers

/-- `_providers_from_list` -/
def providersFromList (items : List Value) : Option LlmProviders :=
  let identified := items.filterMap fun item =>
    match item with
    | .dict entries =>
        let providerId := language.str (getOr entries "id" (.str ""))
        if providerId = "" then none else some (providerId, item)
    | _ => none
  requireModels (llmProviders language identified)

/-- `load_builtin_provider_definitions` on the document of the configuration file, if
there is one; `none` stands for the error it raises. -/
def loadBuiltinProviderDefinitions (file : Option Value) : Option LlmProviders := do
  let raw ← file
  let entries := match raw with
    | .dict entries => entries
    | _ => []
  match getOr entries "llm" .null with
  | .list items => providersFromList language items
  | _ =>
      match getOr entries "providers" (.dict entries) with
      | .dict providers => requireModels (llmProviders language providers)
      | _ => none

end RAGuardian.Settings
