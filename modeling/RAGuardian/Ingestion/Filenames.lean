import RAGuardian.Ingestion.Storage
import RAGuardian.Settings.Slug

/-! # File names of remote items

The documents of all data sources share one upload folder and one file index. A document
is told from others by a slug of its source, a hash of its remote id, and its name. -/

namespace RAGuardian.Ingestion

open Text (append_separator_inj)

/-! ## Characters of slugs -/

theorem mem_hyphenate {hyphen : Bool} {characters : List Char} {character : Char}
    (member : character ∈ Documents.hyphenate hyphen characters) :
    character.isAlphanum = true ∨ character ∈ ['_', '.', '-'] := by
  induction characters generalizing hyphen with
  | nil => cases member
  | cons first rest induction =>
      rw [Documents.hyphenate] at member
      split at member
      · rename_i kept
        rcases List.mem_cons.mp member with rfl | later
        · exact kept
        · exact induction later
      · split at member
        · exact induction member
        · rcases List.mem_cons.mp member with rfl | later
          · exact .inr (by decide)
          · exact induction later

/-- Hyphens aside, the characters were there before. -/
theorem mem_of_mem_hyphenate {hyphen : Bool} {characters : List Char} {character : Char}
    (member : character ∈ Documents.hyphenate hyphen characters) (other : character ≠ '-') :
    character ∈ characters := by
  induction characters generalizing hyphen with
  | nil => cases member
  | cons first rest induction =>
      rw [Documents.hyphenate] at member
      split at member
      · rcases List.mem_cons.mp member with rfl | later
        · exact List.mem_cons_self
        · exact List.mem_cons_of_mem first (induction later)
      · split at member
        · exact List.mem_cons_of_mem first (induction member)
        · rcases List.mem_cons.mp member with rfl | later
          · exact absurd rfl other
          · exact List.mem_cons_of_mem first (induction later)

section

variable {naming : Naming} {characters : Settings.Characters}

theorem mem_slug {value : String} {character : Char}
    (member : character ∈ (slug naming value).toList) :
    character ∈ Documents.hyphenate false (naming.lower (Text.strip value)).toList := by
  rw [slug, Text.truncate, String.toList_ofList, String.toList_ofList] at member
  exact Text.mem_of_mem_stripList (List.mem_of_mem_take member)

theorem slash_not_mem_slug (value : String) : '/' ∉ (slug naming value).toList := by
  intro member
  rcases mem_hyphenate (mem_slug member) with alphanumeric | listed
  · exact absurd alphanumeric (by decide)
  · exact absurd listed (by decide)

/-- A slug is no name of the folder itself or of its parent. -/
theorem slug_start (value : String) : (slug naming value).toList.head? ≠ some '.' := by
  rw [slug, Text.truncate, String.toList_ofList, String.toList_ofList]
  generalize stripped : Text.stripList _ _ = kept
  cases kept with
  | nil => simp
  | cons first rest =>
      intro dot
      rw [List.take_succ_cons, List.head?_cons, Option.some_inj] at dot
      have outside := Text.stripList_head stripped
      simp [dot] at outside

/-! ## Ids the settings keep -/

/-- What the naming of files and the settings share: no character but the underscore lowers
to one, and it is no letter or digit. The hashes are hexadecimal. -/
structure Naming.Follows (naming : Naming) (characters : Settings.Characters) : Prop where
  hexadecimal : ∀ text, ∀ character ∈ (naming.remoteHash text).toList,
    character.isAlphanum = true
  not_alnum : characters.isAlnum '_' = false
  lower_character : ∀ character, characters.isAlnum character = true →
    '_' ∉ characters.lower character
  lower : ∀ text, '_' ∈ (naming.lower text).toList → '_' ∈ text.toList

/-- An id that `normalize_data_source` gives a data source, and the settings keep. -/
def SettingsId (characters : Settings.Characters) (sourceId : String) : Prop :=
  sourceId ≠ "" ∧ ∃ text, sourceId = Settings.slug characters text

theorem SettingsId.underscore_not_mem {sourceId : String} (kept : SettingsId characters sourceId)
    (follows : naming.Follows characters) : '_' ∉ sourceId.toList := by
  obtain ⟨-, text, rfl⟩ := kept
  intro member
  rw [Settings.slug, String.toList_ofList] at member
  rcases Settings.mem_collapse (List.mem_of_mem_take member) with dash | within
  · exact absurd dash (by decide)
  · obtain ⟨character, -, lowered⟩ := List.mem_flatMap.mp within
    rw [Settings.slugCharacter] at lowered
    split at lowered
    · rename_i alnum
      exact follows.lower_character character alnum lowered
    · exact absurd lowered (by decide)

/-- The slug of such an id has no underscore, which separates it from the hash. -/
theorem underscore_not_mem_slug {sourceId : String} (kept : SettingsId characters sourceId)
    (follows : naming.Follows characters) : '_' ∉ (slug naming sourceId).toList := by
  intro member
  have lowered := mem_of_mem_hyphenate (mem_slug member) (by decide)
  have stripped := follows.lower _ lowered
  rw [Text.strip, String.toList_ofList] at stripped
  exact kept.underscore_not_mem follows (Text.mem_of_mem_stripList stripped)

/-! ## The parts of a file name -/

/-- The slug of the source in the name -/
def Delivery.sourceSlug (naming : Naming) (delivery : Delivery) : String :=
  orElse (slug naming delivery.sourceId) "source"

/-- What the hash is taken of -/
def Delivery.remoteKey (delivery : Delivery) : String :=
  orElse delivery.remoteId delivery.originalName

/-- The name of the document in the name -/
def Delivery.nameSlug (naming : Naming) (delivery : Delivery) : String :=
  orElse (slug naming (stem (orElse delivery.originalName "document"))) "document"

theorem filename_toList (delivery : Delivery) :
    (delivery.filename naming).toList =
      (delivery.sourceSlug naming).toList ++ '_' :: '_' ::
        ((naming.remoteHash delivery.remoteKey).toList ++ '_' :: '_' ::
          ((delivery.nameSlug naming).toList ++ '.' ::
            (safeExtension delivery.extension).toList)) := by
  simp [Delivery.filename, stableFilename, Delivery.sourceSlug, Delivery.remoteKey,
    Delivery.nameSlug, String.toList_append]

theorem mem_safeExtension {extension : String} {character : Char}
    (member : character ∈ (safeExtension extension).toList) :
    character ≠ '.' ∧ character ≠ '/' := by
  rw [safeExtension] at member
  split at member
  · rename_i plain
    rw [String.toList_ofList] at member
    have letter := List.all_eq_true.mp plain.2.2 character member
    constructor
    · rintro rfl
      exact absurd letter (by decide)
    · rintro rfl
      exact absurd letter (by decide)
  · have letters : ∀ letter ∈ "txt".toList, letter ≠ '.' ∧ letter ≠ '/' := by simp
    exact letters character member

theorem mem_orElse {value default : String} {character : Char}
    (member : character ∈ (orElse value default).toList) :
    character ∈ value.toList ∨ character ∈ default.toList := by
  rw [orElse] at member
  split at member
  · exact .inr member
  · exact .inl member

theorem underscore_not_mem_hash (follows : naming.Follows characters) (text : String) :
    '_' ∉ (naming.remoteHash text).toList := by
  intro member
  exact absurd (follows.hexadecimal text '_' member) (by decide)

theorem underscore_not_mem_sourceSlug {delivery : Delivery}
    (kept : SettingsId characters delivery.sourceId) (follows : naming.Follows characters) :
    '_' ∉ (delivery.sourceSlug naming).toList := by
  intro member
  rcases mem_orElse member with within | default
  · exact underscore_not_mem_slug kept follows within
  · exact absurd default (by decide)

/-- The extension is what follows the last dot. -/
theorem append_extension_inj {first second : List Char} {left right : String} :
    first ++ '.' :: (safeExtension left).toList = second ++ '.' :: (safeExtension right).toList ↔
      first = second ∧ safeExtension left = safeExtension right := by
  have free : ∀ extension, '.' ∉ (safeExtension extension).toList.reverse := by
    intro extension member
    exact (mem_safeExtension (List.mem_reverse.mp member)).1 rfl
  rw [← List.reverse_inj]
  simp only [List.reverse_append, List.reverse_cons, List.append_assoc, List.singleton_append]
  rw [append_separator_inj (free left) (free right), List.reverse_inj, List.reverse_inj,
    String.toList_inj, and_comm]

/-- The parts of a file name are determined by it. -/
theorem filename_inj (follows : naming.Follows characters) {first second : Delivery}
    (firstKept : SettingsId characters first.sourceId)
    (secondKept : SettingsId characters second.sourceId) :
    first.filename naming = second.filename naming ↔
      first.sourceSlug naming = second.sourceSlug naming ∧
        naming.remoteHash first.remoteKey = naming.remoteHash second.remoteKey ∧
        first.nameSlug naming = second.nameSlug naming ∧
        safeExtension first.extension = safeExtension second.extension := by
  rw [← String.toList_inj, filename_toList, filename_toList,
    append_separator_inj (underscore_not_mem_sourceSlug firstKept follows)
      (underscore_not_mem_sourceSlug secondKept follows),
    List.cons_inj_right,
    append_separator_inj (underscore_not_mem_hash follows _) (underscore_not_mem_hash follows _),
    List.cons_inj_right, append_extension_inj]
  simp only [String.toList_inj]

/-! ## Paths -/

theorem slash_not_mem_filename (follows : naming.Follows characters) (delivery : Delivery) :
    '/' ∉ (delivery.filename naming).toList := by
  rw [filename_toList]
  intro member
  simp only [List.mem_append, List.mem_cons] at member
  rcases member with source | same | same | hash | same | same | name | same | extension
  · rcases mem_orElse source with within | default
    · exact slash_not_mem_slug _ within
    · exact absurd default (by decide)
  · exact absurd same (by decide)
  · exact absurd same (by decide)
  · exact absurd (follows.hexadecimal _ '/' hash) (by decide)
  · exact absurd same (by decide)
  · exact absurd same (by decide)
  · rcases mem_orElse name with within | default
    · exact slash_not_mem_slug _ within
    · exact absurd default (by decide)
  · exact absurd same (by decide)
  · exact (mem_safeExtension extension).2 rfl

theorem path_toList (uploadFolder : String) (delivery : Delivery) :
    (delivery.path naming uploadFolder).toList =
      (sourceDir naming uploadFolder delivery.sourceId).toList ++
        '/' :: (delivery.filename naming).toList := by
  simp [Delivery.path, String.toList_append]

/-- The file name is what follows the last slash. -/
theorem filename_eq_of_path (follows : naming.Follows characters) {uploadFolder : String}
    {first second : Delivery}
    (same : first.path naming uploadFolder = second.path naming uploadFolder) :
    first.filename naming = second.filename naming := by
  have free : ∀ delivery, '/' ∉ (Delivery.filename naming delivery).toList.reverse := by
    intro delivery member
    exact slash_not_mem_filename follows delivery (List.mem_reverse.mp member)
  rw [← String.toList_inj, path_toList, path_toList, ← List.reverse_inj] at same
  simp only [List.reverse_append, List.reverse_cons, List.append_assoc,
    List.singleton_append] at same
  have parts := (append_separator_inj (free first) (free second)).mp same
  exact String.toList_inj.mp (List.reverse_inj.mp parts.1)

/-- A path below a folder, none of whose steps leads back -/
def Inside (folder path : String) : Prop :=
  ∃ steps : List (List Char), steps ≠ [] ∧
    path.toList = folder.toList ++ steps.flatMap (fun step => '/' :: step) ∧
    ∀ step ∈ steps, '/' ∉ step ∧ step ≠ [] ∧ step ≠ ['.'] ∧ step ≠ ['.', '.']

theorem step_of_start {step : List Char} (nonempty : step ≠ []) (slash : '/' ∉ step)
    (start : step.head? ≠ some '.') :
    '/' ∉ step ∧ step ≠ [] ∧ step ≠ ['.'] ∧ step ≠ ['.', '.'] := by
  refine ⟨slash, nonempty, ?_, ?_⟩
  · rintro rfl
    exact start rfl
  · rintro rfl
    exact start rfl

theorem filename_start (delivery : Delivery) :
    (delivery.filename naming).toList ≠ [] ∧
      (delivery.filename naming).toList.head? ≠ some '.' := by
  rw [filename_toList]
  refine ⟨by simp, ?_⟩
  rw [Delivery.sourceSlug, orElse]
  split
  · change some 's' ≠ some '.'
    decide
  · have start : (slug naming delivery.sourceId).toList.head? ≠ some '.' :=
      slug_start delivery.sourceId
    cases written : (slug naming delivery.sourceId).toList with
    | nil => simp
    | cons first rest =>
        rw [written] at start
        simpa using start

theorem path_inside (follows : naming.Follows characters) (uploadFolder : String)
    (delivery : Delivery) : Inside uploadFolder (delivery.path naming uploadFolder) := by
  obtain ⟨external, spelled, plain⟩ : ∃ external : List Char,
      "/external".toList = '/' :: external ∧
        '/' ∉ external ∧ external ≠ [] ∧ external ≠ ['.'] ∧ external ≠ ['.', '.'] :=
    ⟨"external".toList, rfl, by decide⟩
  have last := step_of_start (filename_start delivery).1 (slash_not_mem_filename follows delivery)
    (filename_start delivery).2
  by_cases bare : slug naming delivery.sourceId = ""
  · refine ⟨[external, (delivery.filename naming).toList], by simp, ?_, ?_⟩
    · rw [path_toList, sourceDir, if_pos bare, String.toList_append, spelled]
      simp
    · intro step member
      simp only [List.mem_cons, List.not_mem_nil, or_false] at member
      rcases member with first | second
      · rw [first]
        exact plain
      · rw [second]
        exact last
  · have nonempty : (slug naming delivery.sourceId).toList ≠ [] := by simpa using bare
    have folder := step_of_start nonempty (slash_not_mem_slug _) (slug_start _)
    refine ⟨[external, (slug naming delivery.sourceId).toList,
      (delivery.filename naming).toList], by simp, ?_, ?_⟩
    · rw [path_toList, sourceDir, if_neg bare, String.toList_append, String.toList_append,
        String.toList_append, spelled]
      simp
    · intro step member
      simp only [List.mem_cons, List.not_mem_nil, or_false] at member
      rcases member with first | second | third
      · rw [first]
        exact plain
      · rw [second]
        exact folder
      · rw [third]
        exact last

/-! ## Collisions -/

/-- The two documents differ in no part of their file names. -/
def Collide (naming : Naming) (first second : Delivery) : Prop :=
  first.sourceSlug naming = second.sourceSlug naming ∧
    first.remoteKey = second.remoteKey ∧
    first.nameSlug naming = second.nameSlug naming ∧
    safeExtension first.extension = safeExtension second.extension

/-- Documents of different remote items are stored and indexed apart unless they collide, and
always below the upload folder. The remote ids have different hashes, if they differ. -/
theorem stored_apart_iff (follows : naming.Follows characters) (uploadFolder : String)
    {first second : Delivery} (firstKept : SettingsId characters first.sourceId)
    (secondKept : SettingsId characters second.sourceId)
    (hashes : naming.remoteHash first.remoteKey = naming.remoteHash second.remoteKey →
      first.remoteKey = second.remoteKey) :
    ((first.item ≠ second.item →
        first.path naming uploadFolder ≠ second.path naming uploadFolder ∧
          first.filename naming ≠ second.filename naming) ∧
      Inside uploadFolder (first.path naming uploadFolder) ∧
      Inside uploadFolder (second.path naming uploadFolder)) ↔
      (first.item = second.item ∨ ¬Collide naming first second) := by
  have same : first.filename naming = second.filename naming ↔ Collide naming first second := by
    rw [filename_inj follows firstKept secondKept, Collide]
    constructor
    · rintro ⟨source, hash, rest⟩
      exact ⟨source, hashes hash, rest⟩
    · rintro ⟨source, key, rest⟩
      exact ⟨source, congrArg naming.remoteHash key, rest⟩
  constructor
  · rintro ⟨apart, -, -⟩
    by_cases item : first.item = second.item
    · exact .inl item
    · exact .inr fun collide => (apart item).2 (same.mpr collide)
  · intro condition
    refine ⟨?_, path_inside follows uploadFolder first, path_inside follows uploadFolder second⟩
    intro different
    have free := condition.resolve_left different
    exact ⟨fun path => free (same.mp (filename_eq_of_path follows path)),
      fun name => free (same.mp name)⟩

end

/-! ## Two sources with the same document -/

theorem toLower_eq_underscore {character : Char} (lowered : character.toLower = '_') :
    character = '_' := by
  rcases Text.toLower_cases character with ⟨-, kept⟩ | ⟨upper, code⟩
  · exact kept.symm.trans lowered
  · obtain ⟨low, high, total⟩ := Settings.toNat_lowered upper
    have underscore : '_'.val.toNat = 95 := by decide
    rw [lowered] at code
    rw [code] at underscore
    omega

/-- The letters and digits of ASCII and the ideographs -/
def ideographs : Settings.Characters where
  isAlnum character := character.isAlphanum ||
    (0x4E00 ≤ character.toNat && character.toNat ≤ 0x9FFF)
  lower character := [character.toLower]
  dash_not_alnum := by decide
  lower_lower := by
    intro character _ lowered member _
    rw [List.mem_singleton.mp member, Settings.toLower_toLower]

/-- The hashes of two remote ids -/
def sampleNaming : Naming where
  lower text := String.ofList (text.toList.map Char.toLower)
  remoteHash text := if text = "1" then "6b86b273ff34fce1" else "d4735e3a265e16ee"

theorem sampleNaming_follows : sampleNaming.Follows ideographs where
  hexadecimal := by
    intro text
    rw [sampleNaming]
    dsimp only
    split <;> simp
  not_alnum := by decide
  lower_character := by
    intro character alnum member
    rw [toLower_eq_underscore (List.mem_singleton.mp member).symm] at alnum
    exact absurd alnum (by decide)
  lower := by
    intro text member
    rw [sampleNaming] at member
    dsimp only at member
    rw [String.toList_ofList] at member
    obtain ⟨character, within, lowered⟩ := List.mem_map.mp member
    rwa [toLower_eq_underscore lowered] at within

/-- A report of a data source -/
def report (sourceId remoteId : String) : Delivery where
  sourceId := sourceId
  remoteId := remoteId
  originalName := "report.pdf"
  extension := "pdf"
  content := []
  metadata := .empty

theorem settingsId_drive : SettingsId ideographs "drive" :=
  ⟨by decide, "Drive", by decide +kernel⟩

theorem settingsId_tokyo : SettingsId ideographs "東京" :=
  ⟨by decide, "東京", by decide +kernel⟩

theorem settingsId_osaka : SettingsId ideographs "大阪" :=
  ⟨by decide, "大阪", by decide +kernel⟩

/-- Two reports of one source are stored apart. -/
theorem stored_apart_iff_reports :
    ((report "drive" "1").item ≠ (report "drive" "2").item →
        (report "drive" "1").path sampleNaming "/uploads" ≠
            (report "drive" "2").path sampleNaming "/uploads" ∧
          (report "drive" "1").filename sampleNaming ≠
            (report "drive" "2").filename sampleNaming) ∧
      Inside "/uploads" ((report "drive" "1").path sampleNaming "/uploads") ∧
      Inside "/uploads" ((report "drive" "2").path sampleNaming "/uploads") :=
  (stored_apart_iff sampleNaming_follows "/uploads" settingsId_drive settingsId_drive
    (fun same => absurd same (by decide))).mpr (.inr fun collide => absurd collide.2.1 (by decide))

/-- The slug of an id without ASCII letters and digits is empty: the reports of two such
sources are stored in one file. -/
theorem ideographs_collide :
    SettingsId ideographs "東京" ∧ SettingsId ideographs "大阪" ∧
      (report "東京" "1").item ≠ (report "大阪" "1").item ∧
      (report "東京" "1").path sampleNaming "/uploads" =
        (report "大阪" "1").path sampleNaming "/uploads" ∧
      (report "東京" "1").filename sampleNaming = (report "大阪" "1").filename sampleNaming :=
  ⟨settingsId_tokyo, settingsId_osaka, by decide, by decide +kernel, by decide +kernel⟩

end RAGuardian.Ingestion
