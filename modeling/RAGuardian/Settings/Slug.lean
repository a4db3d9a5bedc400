import Mathlib.Data.List.Basic
import Mathlib.Data.String.Basic
import RAGuardian.Foundation.Text

/-! # Slugs

The ids of providers and data sources: words joined by dashes, and no more than eighty
characters. -/

namespace RAGuardian.Settings

/-- What the language knows about characters. The lower case of a character may have
several characters, and those of them that are letters or digits are in lower case. -/
structure Characters where
  /-- `character.isalnum()` -/
  isAlnum : Char → Bool
  /-- `character.lower()` -/
  lower : Char → List Char
  dash_not_alnum : isAlnum '-' = false
  lower_lower : ∀ character, isAlnum character = true → ∀ lowered ∈ lower character,
    isAlnum lowered = true → lower lowered = [lowered]

theorem toNat_lowered {character : Char}
    (upper : character.val ≥ 'A'.val ∧ character.val ≤ 'Z'.val) :
    65 ≤ character.val.toNat ∧ character.val.toNat ≤ 90 ∧
      (character.val + ('a'.val - 'A'.val)).toNat = character.val.toNat + 32 := by
  simp only [ge_iff_le, UInt32.le_iff_toNat_le] at upper
  have first : 'A'.val.toNat = 65 := by decide
  have last : 'Z'.val.toNat = 90 := by decide
  have shift : ('a'.val - 'A'.val).toNat = 32 := by decide
  rw [UInt32.toNat_add]
  omega

theorem not_upper_toLower (character : Char) :
    ¬ (character.toLower.val ≥ 'A'.val ∧ character.toLower.val ≤ 'Z'.val) := by
  rcases Text.toLower_cases character with ⟨other, same⟩ | ⟨upper, lowered⟩
  · rw [same]
    exact other
  · obtain ⟨low, high, total⟩ := toNat_lowered upper
    rw [lowered]
    simp only [ge_iff_le, UInt32.le_iff_toNat_le, total]
    have last : 'Z'.val.toNat = 90 := by decide
    omega

theorem toLower_toLower (character : Char) : character.toLower.toLower = character.toLower := by
  rcases Text.toLower_cases character.toLower with ⟨-, same⟩ | ⟨upper, -⟩
  · exact same
  · exact absurd upper (not_upper_toLower character)

/-- The letters and digits of ASCII and the capital I with a dot, which lowers to an i and
a mark that is no letter. -/
def Characters.sample : Characters where
  isAlnum character := character.isAlphanum || character == 'İ'
  lower character := if character = 'İ' then ['i', '\u0307'] else [character.toLower]
  dash_not_alnum := by decide
  lower_lower := by
    intro character _ lowered member alnum
    split at member
    · rcases List.mem_cons.mp member with rfl | mark
      · decide
      · rw [List.mem_singleton.mp mark] at alnum
        exact absurd alnum (by decide)
    · rename_i different
      rw [List.mem_singleton.mp member]
      have plain : character.toLower ≠ 'İ' := by
        intro same
        rcases Text.toLower_cases character with ⟨-, kept⟩ | ⟨upper, lowered⟩
        · exact different (kept.symm.trans same)
        · obtain ⟨-, high, total⟩ := toNat_lowered upper
          have code := congrArg UInt32.toNat lowered
          have dotted : 'İ'.val.toNat = 304 := by decide
          rw [same] at code
          omega
      rw [if_neg plain, toLower_toLower]

/-- `"-".join(part for part in value.split("-") if part)` -/
def collapse (value : List Char) : List Char :=
  ['-'].intercalate ((value.splitOn '-').filter (· ≠ []))

section

variable (characters : Characters)

/-- `character.lower() if character.isalnum() else "-"` -/
def slugCharacter (character : Char) : List Char :=
  if characters.isAlnum character then characters.lower character else ['-']

/-- `_slug` -/
def slug (value : String) : String :=
  String.ofList ((collapse (value.toList.flatMap (slugCharacter characters))).take 80)

end

/-! ## Words and dashes -/

theorem mem_splitOn_cons {separator character : Char} {value part : List Char}
    (member : part ∈ (character :: value).splitOn separator) :
    part ∈ value.splitOn separator ∨ part = [] ∨
      character ≠ separator ∧ ∃ rest ∈ value.splitOn separator, part = character :: rest := by
  rw [List.splitOn_cons_eq_if_modifyHead] at member
  split at member
  · rcases List.mem_cons.mp member with rfl | later
    · exact .inr (.inl rfl)
    · exact .inl later
  · rename_i different
    cases parts : value.splitOn separator with
    | nil => exact absurd parts (List.splitOn_ne_nil _ _)
    | cons head tail =>
        rw [parts, List.modifyHead_cons] at member
        rcases List.mem_cons.mp member with rfl | later
        · exact .inr (.inr ⟨by simpa using different, head, List.mem_cons_self, rfl⟩)
        · exact .inl (List.mem_cons_of_mem head later)

/-- The parts have the characters of the text but for the separator. -/
theorem mem_part {separator : Char} {value part : List Char}
    (member : part ∈ value.splitOn separator) {character : Char} (within : character ∈ part) :
    character ∈ value ∧ character ≠ separator := by
  induction value generalizing part with
  | nil =>
      rw [List.splitOn_nil, List.mem_singleton] at member
      subst member
      cases within
  | cons first value induction =>
      rcases mem_splitOn_cons member with earlier | rfl | ⟨different, rest, earlier, rfl⟩
      · have found := induction earlier within
        exact ⟨List.mem_cons_of_mem first found.1, found.2⟩
      · cases within
      · rcases List.mem_cons.mp within with rfl | later
        · exact ⟨List.mem_cons_self, different⟩
        · have found := induction earlier later
          exact ⟨List.mem_cons_of_mem first found.1, found.2⟩

/-- The words of a text. -/
theorem mem_words {value part : List Char}
    (member : part ∈ (value.splitOn '-').filter (· ≠ [])) :
    part ∈ value.splitOn '-' ∧ part ≠ [] := by
  simpa using member

theorem splitOn_collapse (value : List Char) :
    ((collapse value).splitOn '-').filter (· ≠ []) =
      (value.splitOn '-').filter (· ≠ []) := by
  rw [collapse]
  cases words : (value.splitOn '-').filter (· ≠ []) with
  | nil => simp
  | cons word rest =>
      have member : ∀ part ∈ word :: rest, part ∈ value.splitOn '-' ∧ part ≠ [] := by
        intro part listed
        rw [← words] at listed
        exact mem_words listed
      rw [List.splitOn_intercalate '-'
        (fun part listed dash => (mem_part (member part listed).1 dash).2 rfl) (by simp),
        List.filter_eq_self]
      intro part listed
      simpa using (member part listed).2

theorem collapse_collapse (value : List Char) : collapse (collapse value) = collapse value := by
  rw [collapse, splitOn_collapse, ← collapse]

theorem mem_intercalate {separator : Char} {parts : List (List Char)} {character : Char}
    (member : character ∈ [separator].intercalate parts) :
    character = separator ∨ ∃ part ∈ parts, character ∈ part := by
  induction parts with
  | nil => simp at member
  | cons part parts induction =>
      cases parts with
      | nil => exact .inr ⟨part, List.mem_cons_self, by simpa using member⟩
      | cons next rest =>
          rw [List.intercalate_cons_cons, List.mem_append, List.mem_append,
            List.mem_singleton] at member
          rcases member with (within | rfl) | later
          · exact .inr ⟨part, List.mem_cons_self, within⟩
          · exact .inl rfl
          · rcases induction later with same | ⟨other, listed, within⟩
            · exact .inl same
            · exact .inr ⟨other, List.mem_cons_of_mem part listed, within⟩

theorem mem_collapse {value : List Char} {character : Char}
    (member : character ∈ collapse value) : character = '-' ∨ character ∈ value := by
  rcases mem_intercalate member with same | ⟨part, listed, within⟩
  · exact .inl same
  · exact .inr (mem_part (mem_words listed).1 within).1

/-- Without its empty parts a text is no longer. -/
theorem length_intercalate_sublist {separator : Char} {fewer parts : List (List Char)}
    (within : fewer.Sublist parts) :
    ([separator].intercalate fewer).length ≤ ([separator].intercalate parts).length := by
  have skipped : ∀ (part : List Char) (others : List (List Char)),
      ([separator].intercalate others).length ≤
        ([separator].intercalate (part :: others)).length := by
    intro part others
    cases others with
    | nil => simp
    | cons next rest =>
        rw [List.intercalate_cons_cons, List.length_append]
        omega
  induction within with
  | slnil => exact le_refl _
  | cons part within induction => exact le_trans induction (skipped part _)
  | @cons_cons fewer parts part within induction =>
      cases fewer with
      | nil =>
          cases parts with
          | nil => exact le_refl _
          | cons next rest =>
              rw [List.intercalate_cons_cons]
              simp
      | cons first others =>
          cases parts with
          | nil => cases within
          | cons next rest =>
              simp only [List.intercalate_cons_cons, List.length_append]
              omega

theorem length_collapse_le (value : List Char) : (collapse value).length ≤ value.length := by
  have shorter : (collapse value).length ≤ (['-'].intercalate (value.splitOn '-')).length :=
    length_intercalate_sublist List.filter_sublist
  rwa [List.intercalate_splitOn] at shorter

/-! ## Slugs of slugs -/

section

variable {characters : Characters}

/-- A character that is a dash or what the lower case of a letter or digit is made of. -/
def Lowered (characters : Characters) (character : Char) : Prop :=
  characters.isAlnum character = true → characters.lower character = [character]

theorem slugCharacter_lowered {character lowered : Char}
    (member : lowered ∈ slugCharacter characters character) : Lowered characters lowered := by
  intro alnum
  rw [slugCharacter] at member
  split at member
  · rename_i letter
    exact characters.lower_lower character letter lowered member alnum
  · rw [List.mem_singleton] at member
    rw [member, characters.dash_not_alnum] at alnum
    cases alnum

theorem dash_lowered : Lowered characters '-' := by
  intro alnum
  rw [characters.dash_not_alnum] at alnum
  cases alnum

theorem slug_lowered {value : String} {character : Char}
    (member : character ∈ (slug characters value).toList) : Lowered characters character := by
  rw [slug, String.toList_ofList] at member
  rcases mem_collapse (List.mem_of_mem_take member) with rfl | within
  · exact dash_lowered
  · obtain ⟨original, -, listed⟩ := List.mem_flatMap.mp within
    exact slugCharacter_lowered listed

theorem length_slug_le (value : String) : (slug characters value).toList.length ≤ 80 := by
  rw [slug, String.toList_ofList, List.length_take]
  omega

/-- Characters in lower case are kept or become dashes. -/
theorem flatMap_slugCharacter {value : List Char}
    (lowered : ∀ character ∈ value, Lowered characters character) :
    value.flatMap (slugCharacter characters) =
      value.map fun character => if characters.isAlnum character then character else '-' := by
  induction value with
  | nil => rfl
  | cons character value induction =>
      rw [List.flatMap_cons, List.map_cons,
        induction fun other member => lowered other (List.mem_cons_of_mem character member),
        slugCharacter]
      split
      · rename_i alnum
        rw [lowered character List.mem_cons_self alnum]
        rfl
      · rfl

/-- The slug of a slug has letters, digits and dashes, and no dash too many. -/
theorem slug_slug_spec (value : String) :
    let characterwise := (slug characters value).toList.map fun character =>
      if characters.isAlnum character then character else '-'
    slug characters (slug characters value) = String.ofList (collapse characterwise) := by
  intro characterwise
  rw [slug, flatMap_slugCharacter fun character member => slug_lowered member]
  have short : (collapse characterwise).length ≤ 80 := by
    refine (length_collapse_le _).trans ?_
    rw [List.length_map]
    exact length_slug_le value
  rw [List.take_of_length_le short]

/-- A second slug may differ from the first one, by a dash the length limit left at the end
or by a mark the lower case of a letter left. A third one never differs from the second. -/
theorem slug_slug_slug (value : String) :
    slug characters (slug characters (slug characters value)) =
      slug characters (slug characters value) := by
  have plain : ∀ character ∈ (slug characters (slug characters value)).toList,
      (if characters.isAlnum character then character else '-') = character := by
    intro character member
    rw [slug_slug_spec, String.toList_ofList] at member
    split
    · rfl
    · rename_i other
      rcases mem_collapse member with rfl | within
      · rfl
      · obtain ⟨original, -, same⟩ := List.mem_map.mp within
        split at same
        · rename_i alnum
          rw [same] at alnum
          exact absurd alnum other
        · exact same
  rw [slug_slug_spec (slug characters value), List.map_congr_left plain, List.map_id',
    slug_slug_spec, String.toList_ofList, collapse_collapse]

end

end RAGuardian.Settings
