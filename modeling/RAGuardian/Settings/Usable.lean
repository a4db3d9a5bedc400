import RAGuardian.Settings.Normalize

/-! # Settings that can be used

When the sizes, providers and models of normalized settings fit together. -/

namespace RAGuardian.Settings

open Json (Value)

variable (language : Language) (configuration : Configuration)

/-- The language models that are defined, in the configuration file or the settings. -/
def definedProviders (custom : List CustomProvider) : LlmProviders :=
  addCustom ((loadBuiltinProviderDefinitions language configuration.file).getD .empty) custom

/-- A provider that is defined, with one of its models if it has any. -/
def Selects (providers : LlmProviders) (provider model : String) : Prop :=
  ∃ models, providers.get? provider = some models ∧ (models.models ≠ [] → model ∈ models.models)

/-- The splitter accepts the sizes, the candidates suffice for the results, and providers
and models are defined. -/
structure Usable (normalized : Normalized) : Prop where
  chunks : normalized.rag.chunkOverlap < normalized.rag.chunkSize
  pool : normalized.rag.rerankerTopN ≤ normalized.rag.rerankerMmrCandidatePool
  llm : (definedProviders language configuration normalized.customProviders).entries ≠ [] →
    Selects (definedProviders language configuration normalized.customProviders)
      normalized.rag.defaultProvider normalized.rag.defaultModel
  embedding : normalized.rag.embeddingProvider ∈ embeddingBuiltinIds configuration ∨
    normalized.rag.embeddingProvider = "local" ∨
    ∃ custom ∈ normalized.embeddingProviders, custom.provider.enabled = true ∧
      custom.provider.id = normalized.rag.embeddingProvider
  reranker : (rerankerProviderDefinitions configuration normalized.rerankerProviders).get?
      normalized.rag.rerankerType ≠ none ∧
    normalized.rag.rerankerType.toList <+: normalized.rag.rerankerModel.toList

/-! ## Sizes -/

/-- An overlap and a size within their bounds fit together. -/
def SizesFit (overlap size : Int) : Prop :=
  overlap < 100 ∨ 500 < size ∨ overlap < size

theorem clamp_lt_clamp_iff (overlap size : Int) :
    clamp 0 500 overlap < clamp 100 10000 size ↔ SizesFit overlap size := by
  rw [clamp, clamp, SizesFit]
  omega

/-! ## Language models -/

theorem findCanonicalModel_selects {language : Language} {providers : LlmProviders}
    {selected preferred : String} {canonical : String × String}
    (found : findCanonicalModel language providers selected preferred = some canonical) :
    Selects providers canonical.1 canonical.2 := by
  rw [findCanonicalModel] at found
  split at found
  · cases found
  · rcases Option.or_eq_some_iff.mp found with first | ⟨-, other⟩
    · obtain ⟨provider, present, listed⟩ := Option.bind_eq_some_iff.mp first
      obtain ⟨model, canonicalModel, rfl⟩ := Option.map_eq_some_iff.mp listed
      exact ⟨provider, present, fun _ => canonicalModelFromList_mem canonicalModel⟩
    · obtain ⟨entry, member, listed⟩ := List.exists_of_findSome?_eq_some other
      obtain ⟨model, canonicalModel, rfl⟩ := Option.map_eq_some_iff.mp listed
      exact ⟨entry.2, Dictionary.get?_eq_some.mpr member,
        fun _ => canonicalModelFromList_mem canonicalModel⟩

theorem normalizeLlmDefault_selects {custom : List CustomProvider}
    (defaultProvider defaultModel : String)
    (defined : (llmProviderDefinitions language configuration custom).entries ≠ []) :
    Selects (llmProviderDefinitions language configuration custom)
      (normalizeLlmDefault language configuration custom defaultProvider defaultModel).1
      (normalizeLlmDefault language configuration custom defaultProvider defaultModel).2 := by
  simp only [normalizeLlmDefault]
  generalize llmProviderDefinitions language configuration custom = providers at defined ⊢
  generalize Text.strip
    (if defaultProvider = "" then configuration.defaultProvider else defaultProvider) = providerId
  split
  · rename_i empty
    exact absurd empty defined
  · rename_i first rest listed
    split
    · rename_i found
      exact findCanonicalModel_selects found
    · split
      · rename_i provider present
        exact ⟨provider, present, provider.fallback_mem _⟩
      · split
        · rename_i provider present
          exact ⟨provider, present, provider.fallback_mem _⟩
        · have present : providers.get? first.1 = some first.2 := by
            rw [Dictionary.get?_eq_some, listed]
            exact List.mem_cons_self
          exact ⟨first.2, present, first.2.fallback_mem _⟩

theorem normalizeLlmDefault_undefined {custom : List CustomProvider}
    {defaultProvider defaultModel : String}
    (missing : loadBuiltinProviderDefinitions language configuration.file = none) :
    normalizeLlmDefault language configuration custom defaultProvider defaultModel =
      (defaultProvider, defaultModel) := by
  rw [normalizeLlmDefault, llmProviderDefinitions, missing]
  rfl

/-! ## Embeddings and rerankers -/

theorem embeddingProviderChoice_defined (value : Value) (custom : List EmbeddingProvider) :
    let selected := embeddingProviderChoice language configuration value custom
    selected ∈ embeddingBuiltinIds configuration ∨ selected = "local" ∨
      ∃ other ∈ custom, other.provider.enabled = true ∧ other.provider.id = selected := by
  intro selected
  have chosen : selected = embeddingProviderChoice language configuration value custom := rfl
  simp only [embeddingProviderChoice] at chosen
  generalize (if embeddingBuiltinIds configuration = [] then "local"
    else textOr language value ((embeddingBuiltinIds configuration).headD "local")) = wanted
    at chosen
  split at chosen
  · rename_i builtin
    rw [chosen]
    exact .inl builtin
  · split at chosen
    · rename_i own
      rw [chosen]
      exact .inr (.inl own)
    · split at chosen
      · rename_i other
        rw [chosen]
        obtain ⟨provider, member, same⟩ := List.any_eq_true.mp other
        obtain ⟨listed, enabled⟩ := List.mem_filter.mp member
        exact .inr (.inr ⟨provider, listed, enabled, eq_of_beq same⟩)
      · rw [chosen]
        cases ids : embeddingBuiltinIds configuration with
        | nil => exact .inr (.inl rfl)
        | cons first rest => exact .inl List.mem_cons_self

theorem rerankerProviderDefinitions_nonempty (custom : List RerankerProvider) :
    (rerankerProviderDefinitions configuration custom).get? "local" ≠ none := by
  have keeps : ∀ {α : Type} (items : List α) (key : α → String) (value : α → RerankerModels)
      (start : Dictionary String RerankerModels), start.get? "local" ≠ none →
        (items.foldl (fun providers item => providers.set (key item) (value item)) start).get?
          "local" ≠ none := by
    intro α items key value
    induction items with
    | nil => exact fun _ present => present
    | cons item items induction =>
        intro start present
        rw [List.foldl_cons]
        apply induction
        rw [Dictionary.get?_set]
        split
        · simp
        · exact present
  rw [rerankerProviderDefinitions]
  apply keeps
  apply keeps
  simp

/-- The selected provider, else the configured one, else the first one. -/
theorem get?_selected {providers : Dictionary String RerankerModels}
    (nonempty : providers.get? "local" ≠ none) (selected configured : String) :
    providers.get? (if (providers.get? selected).isSome then selected
      else if (providers.get? configured).isSome then configured
      else (providers.entries.head?.map Prod.fst).getD "") ≠ none := by
  split
  · rename_i present
    exact Option.isSome_iff_ne_none.mp present
  · split
    · rename_i present
      exact Option.isSome_iff_ne_none.mp present
    · cases listed : providers.entries with
      | nil =>
          obtain ⟨models, present⟩ := Option.ne_none_iff_exists'.mp nonempty
          rw [Dictionary.get?_eq_some, listed] at present
          cases present
      | cons first rest =>
          have present : providers.get? first.1 = some first.2 := by
            rw [Dictionary.get?_eq_some, listed]
            exact List.mem_cons_self
          rw [List.head?_cons, Option.map_some, Option.getD_some, present]
          exact Option.some_ne_none _

theorem prefix_rerankerModel (type model : String) :
    type.toList <+: (if type = "local" then "local/" ++ model
      else if model = "" then type
      else type ++ "/" ++ model).toList := by
  split
  · rename_i own
    rw [own, String.toList_append]
    exact (List.prefix_append _ ['/']).trans (List.prefix_append _ _)
  · split
    · exact List.prefix_rfl
    · rw [String.toList_append, String.toList_append, List.append_assoc]
      exact List.prefix_append _ _

/-- The provider of the reranker is defined, and its model names it first. -/
theorem normalizeRerankerDefault_defined (custom : List RerankerProvider) (model type : Value) :
    let selected := normalizeRerankerDefault language configuration custom model type
    (rerankerProviderDefinitions configuration custom).get? selected.1 ≠ none ∧
      selected.1.toList <+: selected.2.toList := by
  intro selected
  constructor
  · simp only [selected, normalizeRerankerDefault]
    apply get?_selected (rerankerProviderDefinitions_nonempty configuration custom)
  · simp only [selected, normalizeRerankerDefault]
    apply prefix_rerankerModel

/-! ## All settings -/

/-- What the document has under a key whose value is a dictionary. -/
def section? (settings : Entries) (key : String) : Entries :=
  match getOr settings key (.dict []) with
  | .dict entries => entries
  | _ => []

/-- The sizes of a document fit together. Without the definitions of the configuration file
no provider of the settings is enabled, or the defaults name one with one of its models. -/
structure Workable (settings : Entries) : Prop where
  sizes : ∀ overlap size,
    parsedInt language (Value.lookup (section? settings "rag") "chunk_overlap") 150 =
      some overlap →
    parsedInt language (Value.lookup (section? settings "rag") "chunk_size") 1000 = some size →
    SizesFit overlap size
  providers : loadBuiltinProviderDefinitions language configuration.file = none →
    ∀ custom, normalizeProviders (normalizeCustomProvider language) (·.id)
        (getOr settings "custom_providers" (.list [])) = some custom →
      (addCustom .empty custom).entries ≠ [] →
        Selects (addCustom .empty custom)
          (textOr language (Value.lookup (section? settings "rag") "default_provider")
            configuration.defaultProvider)
          (textOr language (Value.lookup (section? settings "rag") "default_model")
            configuration.defaultModel)

variable {language configuration}

/-- What the retrieval settings are made of. -/
theorem normalizeRag_spec {custom : List CustomProvider} {embedding : List EmbeddingProvider}
    {reranker : List RerankerProvider} {rag : Entries} {made : RagSettings}
    (normalized : normalizeRag language configuration custom embedding reranker rag = some made) :
    (∃ overlap, parsedInt language (Value.lookup rag "chunk_overlap") 150 = some overlap ∧
      made.chunkOverlap = clamp 0 500 overlap) ∧
    (∃ size, parsedInt language (Value.lookup rag "chunk_size") 1000 = some size ∧
      made.chunkSize = clamp 100 10000 size) ∧
    (made.defaultProvider, made.defaultModel) = normalizeLlmDefault language configuration custom
      (textOr language (Value.lookup rag "default_provider") configuration.defaultProvider)
      (textOr language (Value.lookup rag "default_model") configuration.defaultModel) ∧
    made.embeddingProvider = embeddingProviderChoice language configuration
      (Value.lookup rag "embedding_provider") embedding ∧
    (made.rerankerType, made.rerankerModel) = normalizeRerankerDefault language configuration
      reranker (Value.lookup rag "reranker_model") (Value.lookup rag "reranker_type") ∧
    made.rerankerTopN ≤ made.rerankerMmrCandidatePool := by
  simp only [normalizeRag, Option.bind_eq_bind, Option.bind_eq_some_iff, Option.pure_def] at normalized
  obtain ⟨size, sized, overlap, overlaps, queryK, -, ttl, -, topN, -, pool, pooled, made⟩ :=
    normalized
  obtain ⟨parsedSize, sizeParsed, rfl⟩ := Option.map_eq_some_iff.mp sized
  obtain ⟨parsedOverlap, overlapParsed, rfl⟩ := Option.map_eq_some_iff.mp overlaps
  obtain ⟨parsedPool, -, rfl⟩ := Option.map_eq_some_iff.mp pooled
  generalize normalizeLlmDefault language configuration custom _ _ = llm at made ⊢
  generalize normalizeRerankerDefault language configuration reranker _ _ = chosen at made ⊢
  generalize embeddingProviderChoice language configuration _ _ = provider at made ⊢
  rw [← Option.some.inj made]
  exact ⟨⟨parsedOverlap, overlapParsed, rfl⟩, ⟨parsedSize, sizeParsed, rfl⟩, rfl, rfl,
    rfl, le_clamp topN 200 parsedPool⟩

/-- What the settings are made of. -/
theorem normalize_spec {settings : Entries} {made : Normalized}
    (normalized : normalize language configuration settings = some made) :
    normalizeProviders (normalizeCustomProvider language) (·.id)
        (getOr settings "custom_providers" (.list [])) = some made.customProviders ∧
      normalizeRag language configuration made.customProviders made.embeddingProviders
        made.rerankerProviders (section? settings "rag") = some made.rag := by
  simp only [normalize, Option.bind_eq_bind, Option.bind_eq_some_iff] at normalized
  obtain ⟨custom, providers, embedding, -, reranker, -, made_rag⟩ := normalized
  split at made_rag
  · rename_i rag listed
    have read : section? settings "rag" = rag := by
      rw [section?, listed]
    obtain ⟨retrieval, made_retrieval, same⟩ := Option.bind_eq_some_iff.mp made_rag
    rw [← Option.some.inj same, read]
    exact ⟨providers, made_retrieval⟩
  · cases made_rag

end RAGuardian.Settings
