import RAGuardian.Ranking.PublicMetadata

/-! # What public names reveal

The public name of a source is the last part of its location. For the URLs the function
does not know it is the last part of the text, with all that stands there. -/

namespace RAGuardian.Ranking

open Json Url

section

variable {library : WebLibrary} {url other : Url}

/-! ## Names without separators -/

/-- A name that shows no directories -/
def Clean (name : String) : Prop :=
  name ≠ "" ∧ '/' ∉ name.toList ∧ '\\' ∉ name.toList

theorem slash_not_mem_lastSegment (text : List Char) : '/' ∉ lastSegment text := by
  intro member
  have within := List.mem_rtakeWhile_imp member
  simp at within

theorem nameOf_toList {segment : List Char} {character : Char}
    (member : character ∈ (nameOf segment).toList) :
    character ∈ segment ∨ character ∈ "document".toList := by
  rw [nameOf] at member
  split at member
  · exact .inr member
  · rw [String.toList_ofList] at member
    exact .inl member

theorem nameOf_ne_empty (segment : List Char) : nameOf segment ≠ "" := by
  rw [nameOf]
  split
  · decide
  · rename_i nonempty
    intro empty
    apply nonempty
    have letters := congrArg String.toList empty
    simpa using letters

theorem backslash_not_mem_normalizedSource (value : String) : '\\' ∉ normalizedSource value := by
  intro member
  obtain ⟨character, -, same⟩ := List.mem_map.mp (mem_of_mem_trimSlashes member)
  split at same
  · exact absurd same (by decide)
  · rename_i different
    exact different same

/-- The decoded path of a web or file URL has no backslash after its last slash. -/
def Unescaped (library : WebLibrary) (source : String) : Prop :=
  ∀ parsed, urlsplit library.accepts (normalizedSource source) = some parsed →
    parsed.scheme ∈ webSchemes → '\\' ∉ lastSegment (trimSlashes (library.unquote parsed.path))

/-- Names are clean unless an escaped backslash is decoded. -/
theorem clean_iff (source : String) :
    (∀ name, publicSourceName library source = some name → Clean name) ↔
      Unescaped library source := by
  have document : Clean "document" := by unfold Clean; decide
  by_cases empty : normalizedSource source = []
  · refine iff_of_true ?_ ?_
    · intro name named
      rw [publicSourceName, if_pos empty, Option.some_inj] at named
      rwa [← named]
    · intro parsed split web
      rw [empty] at split
      cases split
      exact absurd web (by decide)
  · have named : ∀ name, publicSourceName library source = some name ↔
        ∃ parsed, urlsplit library.accepts (normalizedSource source) = some parsed ∧
          nameOf (lastSegment (sourceText library (normalizedSource source) parsed)) = name := by
      intro name
      rw [publicSourceName, if_neg empty, Option.map_eq_some_iff]
    constructor
    · intro clean parsed split web member
      obtain ⟨-, -, free⟩ := clean _ ((named _).mpr ⟨parsed, split, rfl⟩)
      rw [sourceText, if_pos web, nameOf, if_neg (List.ne_nil_of_mem member),
        String.toList_ofList] at free
      exact free member
    · intro unescaped name result
      obtain ⟨parsed, split, rfl⟩ := (named name).mp result
      refine ⟨nameOf_ne_empty _, ?_, ?_⟩
      · intro member
        rcases nameOf_toList member with within | within
        · exact slash_not_mem_lastSegment _ within
        · exact document.2.1 within
      · intro member
        rcases nameOf_toList member with within | within
        · rw [sourceText] at within
          split at within
          · rename_i web
            exact unescaped parsed split web within
          · exact backslash_not_mem_normalizedSource source
              ((List.rtakeWhile_suffix _ _).subset within)
        · exact document.2.2 within

/-! ## Hidden parts -/

/-- The URLs differ in what their user info, their query and their fragment are, at most. -/
structure Alike (url other : Url) : Prop where
  scheme : url.scheme = other.scheme
  authority : url.authority.map Authority.host = other.authority.map Authority.host
  userInfo : (url.authority.bind Authority.userInfo).isSome =
    (other.authority.bind Authority.userInfo).isSome
  path : url.path = other.path
  query : url.query.isSome = other.query.isSome
  fragment : url.fragment.isSome = other.fragment.isSome

/-- The name of a URL shows nothing of its user info, its query or its fragment: with any
others it is the same. -/
def Conceals (library : WebLibrary) (url : Url) : Prop :=
  ∀ other : Url, other.WellFormed → Alike url other → ∀ name otherName,
    publicSourceName library (String.ofList url.render) = some name →
    publicSourceName library (String.ofList other.render) = some otherName → name = otherName

/-- A URL whose hidden parts the function knows of, or which has none that could show -/
def Covered (library : WebLibrary) (url : Url) : Prop :=
  url.scheme.map Char.toLower ∈ webSchemes ∨
    (url.query = none ∧ url.fragment = none ∧
      (url.authority.bind Authority.userInfo = none ∨ trimSlashes url.path ≠ [])) ∨
    ∃ authority, url.authority = some authority ∧ authority.host ≠ [] ∧
      library.accepts authority.host = false

theorem Alike.eq_of_not_hides (alike : Alike url other) (open_ : ¬url.Hides) : url = other := by
  obtain ⟨scheme, authority, path, query, fragment⟩ := url
  obtain ⟨otherScheme, otherAuthority, otherPath, otherQuery, otherFragment⟩ := other
  obtain ⟨sameScheme, sameHost, sameInfo, samePath, sameQuery, sameFragment⟩ := alike
  simp only [Hides, not_or, not_exists, not_and, not_not] at open_
  obtain ⟨informed, rfl, rfl⟩ := open_
  simp only [Option.isSome_none] at sameQuery sameFragment
  simp only at sameScheme samePath
  subst sameScheme
  subst samePath
  have noQuery := Option.isSome_eq_false_iff.mp sameQuery.symm
  have noFragment := Option.isSome_eq_false_iff.mp sameFragment.symm
  rw [Option.isNone_iff_eq_none] at noQuery noFragment
  subst noQuery
  subst noFragment
  cases authority with
  | none =>
      cases otherAuthority with
      | none => rfl
      | some otherAuthority => cases sameHost
  | some authority =>
      cases otherAuthority with
      | none => cases sameHost
      | some otherAuthority =>
          obtain ⟨userInfo, host⟩ := authority
          obtain ⟨otherInfo, otherHost⟩ := otherAuthority
          simp only [Option.map_some, Option.some_inj] at sameHost
          subst sameHost
          cases userInfo with
          | some text => exact absurd rfl (informed _ text rfl)
          | none =>
              cases otherInfo with
              | none => rfl
              | some text => cases sameInfo

theorem Alike.hides (alike : Alike url other) : url.Hides ↔ other.Hides := by
  have located : ∀ url : Url, (∃ authority userInfo, url.authority = some authority ∧
      authority.userInfo = some userInfo) ↔
      (url.authority.bind Authority.userInfo).isSome = true := by
    intro url
    rw [Option.isSome_iff_exists]
    constructor
    · rintro ⟨authority, userInfo, present, informed⟩
      exact ⟨userInfo, by rw [present]; exact informed⟩
    · rintro ⟨userInfo, informed⟩
      obtain ⟨authority, present, given⟩ := Option.bind_eq_some_iff.mp informed
      exact ⟨authority, userInfo, present, given⟩
  rw [Hides, Hides, located, located, alike.userInfo, ← Option.isSome_iff_ne_none,
    ← Option.isSome_iff_ne_none, ← Option.isSome_iff_ne_none, ← Option.isSome_iff_ne_none,
    alike.query, alike.fragment]

theorem Alike.trimmed_path (alike : Alike url other) : url.trimmed.path = other.trimmed.path := by
  have sameQuery := alike.query
  have sameFragment := alike.fragment
  rw [trimmed, trimmed]
  cases fragment : url.fragment with
  | some text =>
      cases otherFragment : other.fragment with
      | some otherText => exact alike.path
      | none => simp [fragment, otherFragment] at sameFragment
  | none =>
      cases otherFragment : other.fragment with
      | some otherText => simp [fragment, otherFragment] at sameFragment
      | none =>
          cases query : url.query with
          | some text =>
              cases otherQuery : other.query with
              | some otherText => exact alike.path
              | none => simp [query, otherQuery] at sameQuery
          | none =>
              cases otherQuery : other.query with
              | some otherText => simp [query, otherQuery] at sameQuery
              | none => exact congrArg trimSlashes alike.path

/-- `urlsplit` accepts the network location. -/
def Accepted (library : WebLibrary) (url : Url) : Prop :=
  url.netloc = [] ∨ library.accepts url.netloc = true

/-- It looks at the host. -/
theorem accepted_iff (formed : url.WellFormed) :
    Accepted library url ↔ ∀ authority, url.authority = some authority →
      authority.host = [] ∨ library.accepts authority.host = true := by
  rw [Accepted, netloc]
  cases present : url.authority with
  | none => simp
  | some authority =>
      simp only [Option.some_inj, forall_eq']
      rw [Authority.netloc]
      cases informed : authority.userInfo with
      | none => exact Iff.rfl
      | some userInfo =>
          have outside : ∀ character ∈ userInfo, Plain character ∧ character ∉ ['[', ']'] := by
            intro character member
            obtain ⟨plain, -, apart⟩ := formed.userInfo authority present userInfo informed
              character member
            refine ⟨plain, ?_⟩
            intro bracket
            exact apart (List.mem_cons_of_mem _ bracket)
          have host : ∀ character ∈ authority.host, Plain character :=
            fun character member => (formed.host authority present character member).1
          rw [← library.accepts_userInfo userInfo authority.host outside host]
          simp

theorem Alike.accepted (alike : Alike url other) (formed : url.WellFormed)
    (otherFormed : other.WellFormed) (accepted : Accepted library url) :
    Accepted library other := by
  rw [accepted_iff otherFormed]
  intro otherAuthority otherPresent
  have sameHost := alike.authority
  rw [otherPresent, Option.map_some, Option.map_eq_some_iff] at sameHost
  obtain ⟨authority, present, same⟩ := sameHost
  rw [← same]
  exact (accepted_iff formed).mp accepted authority present

/-! ## Names of URLs -/

theorem normalizedSource_render (formed : url.WellFormed) :
    normalizedSource (String.ofList url.render) = trimSlashes url.render := by
  have visible : ∀ character ∈ url.render, Text.isSpace character = false := by
    intro character member
    obtain ⟨above, below, -⟩ := formed.plain character member
    simp only [Text.isSpace, Bool.or_eq_false_iff, Bool.and_eq_false_iff, beq_eq_false_iff_ne,
      decide_eq_false_iff_not]
    omega
  have bare : ∀ text : List Char, (∀ character ∈ text, Text.isSpace character = false) →
      text.dropWhile Text.isSpace = text := by
    intro text visible
    cases text with
    | nil => rfl
    | cons first rest =>
        rw [List.dropWhile_cons_of_neg]
        simp [visible first List.mem_cons_self]
  have stripped : Text.stripList Text.isSpace url.render = url.render := by
    rw [Text.stripList, bare _ visible, bare, List.reverse_reverse]
    intro character member
    exact visible character (List.mem_reverse.mp member)
  have kept : (url.render.map fun character =>
      if character = '\\' then '/' else character) = url.render := by
    have same : ∀ character ∈ url.render,
        (if character = '\\' then '/' else character) = character := by
      intro character member
      rw [if_neg (formed.plain character member).2.2]
    rw [List.map_congr_left same, List.map_id']
  rw [normalizedSource, String.toList_ofList, stripped, kept]

/-- The name of a URL with hidden parts -/
theorem publicSourceName_render (formed : url.WellFormed) (hides : url.Hides) {name : String} :
    publicSourceName library (String.ofList url.render) = some name ↔
      Accepted library url ∧
        name = nameOf (lastSegment (if url.scheme.map Char.toLower ∈ webSchemes then
          trimSlashes (library.unquote url.trimmed.path) else url.trimmed.render)) := by
  have nonempty : url.trimmed.render ≠ [] := by simp [render]
  rw [publicSourceName, normalizedSource_render formed, trimSlashes_render formed hides,
    if_neg nonempty, urlsplit_render formed.trimmed, netloc_trimmed, scheme_trimmed, Accepted]
  by_cases accepted : url.netloc = [] ∨ library.accepts url.netloc = true
  · rw [if_pos accepted, Option.map_some, Option.some_inj]
    constructor
    · rintro rfl
      exact ⟨accepted, rfl⟩
    · rintro ⟨-, rfl⟩
      rfl
  · rw [if_neg accepted]
    simp [accepted]

/-! ## What shows -/

theorem lastSegment_append_slash (front : List Char) {back : List Char} (free : '/' ∉ back) :
    lastSegment (front ++ '/' :: back) = back := by
  have reversed : ∀ character ∈ back.reverse, decide (character ≠ '/') = true := by
    intro character member
    simp only [decide_eq_true_eq]
    rintro rfl
    exact free (List.mem_reverse.mp member)
  rw [lastSegment, List.rtakeWhile, List.reverse_append, List.reverse_cons, List.append_assoc,
    List.takeWhile_append_of_pos reversed]
  simp

theorem lastSegment_append_of_mem (front : List Char) {back : List Char} (slash : '/' ∈ back) :
    lastSegment (front ++ back) = lastSegment back := by
  obtain ⟨before, after, rfl, free⟩ : ∃ before after, back = before ++ '/' :: after ∧
      '/' ∉ after := by
    induction back with
    | nil => cases slash
    | cons first back induction =>
        by_cases later : '/' ∈ back
        · obtain ⟨before, after, rfl, free⟩ := induction later
          exact ⟨first :: before, after, rfl, free⟩
        · rcases List.mem_cons.mp slash with rfl | within
          · exact ⟨[], back, rfl, later⟩
          · exact absurd within later
  rw [← List.append_assoc, lastSegment_append_slash _ free, lastSegment_append_slash _ free]

theorem lastSegment_concat (front : List Char) {character : Char} (other : character ≠ '/') :
    lastSegment (front ++ [character]) = lastSegment front ++ [character] := by
  rw [lastSegment, lastSegment, List.rtakeWhile_concat_pos]
  simpa using other

theorem nameOf_injective {first second : List Char} (firstNonempty : first ≠ [])
    (secondNonempty : second ≠ []) (same : nameOf first = nameOf second) : first = second := by
  rw [nameOf, nameOf, if_neg firstNonempty, if_neg secondNonempty] at same
  exact String.ofList_injective same

/-- Two URLs that differ in hidden parts only, and whose names differ, show what the names of
a third one hides. -/
theorem not_conceals_of_pair {first second : Url} (formed : url.WellFormed)
    (hides : url.Hides) (accepted : Accepted library url)
    (firstFormed : first.WellFormed) (secondFormed : second.WellFormed)
    (firstAlike : Alike url first) (secondAlike : Alike url second)
    (other : url.scheme.map Char.toLower ∉ webSchemes)
    (apart : nameOf (lastSegment first.trimmed.render) ≠
      nameOf (lastSegment second.trimmed.render)) :
    ¬Conceals library url := by
  intro conceals
  obtain ⟨name, named⟩ : ∃ name,
      publicSourceName library (String.ofList url.render) = some name :=
    ⟨_, (publicSourceName_render formed hides).mpr ⟨accepted, rfl⟩⟩
  have shown : ∀ variant : Url, variant.WellFormed → Alike url variant →
      name = nameOf (lastSegment variant.trimmed.render) := by
    intro variant variantFormed alike
    refine conceals variant variantFormed alike name _ named ?_
    refine (publicSourceName_render variantFormed (alike.hides.mp hides)).mpr
      ⟨alike.accepted formed variantFormed accepted, ?_⟩
    rw [if_neg (alike.scheme ▸ other)]
  exact apart ((shown first firstFormed firstAlike).symm.trans
    (shown second secondFormed secondAlike))

theorem plain_letter : Plain 'a' ∧ Plain 'b' := by
  unfold Plain
  decide

/-- A last character shows. -/
theorem nameOf_concat_ne (front : List Char) :
    nameOf (lastSegment (front ++ ['a'])) ≠ nameOf (lastSegment (front ++ ['b'])) := by
  rw [lastSegment_concat front (by decide), lastSegment_concat front (by decide)]
  intro same
  have texts := nameOf_injective (by simp) (by simp) same
  simp at texts

theorem not_conceals_of_fragment (formed : url.WellFormed) (accepted : Accepted library url)
    (other : url.scheme.map Char.toLower ∉ webSchemes) {fragment : List Char}
    (given : url.fragment = some fragment) : ¬Conceals library url := by
  have variant : ∀ letter, Plain letter →
      Url.WellFormed { url with fragment := some [letter] } := by
    intro letter plain
    refine { formed with fragment := ?_ }
    intro text same character member
    rw [← Option.some_inj.mp same, List.mem_singleton] at member
    rwa [member]
  have alike : ∀ letter, Alike url { url with fragment := some [letter] } :=
    fun _ => ⟨rfl, rfl, rfl, rfl, rfl, by rw [given]; rfl⟩
  refine not_conceals_of_pair formed (.inr (.inr (by simp [given]))) accepted
    (variant 'a' plain_letter.1) (variant 'b' plain_letter.2) (alike 'a') (alike 'b') other ?_
  have shape : ∀ letter, letter ≠ '/' →
      (Url.trimmed { url with fragment := some [letter] }).render =
        (url.scheme ++ ':' :: (url.authorityText ++ (url.path ++
          (marked '?' url.query ++ ['#'])))) ++ [letter] := by
    intro letter different
    have kept : trimSlashes [letter] = [letter] := by
      simp [trimSlashes, List.rdropWhile, different]
    rw [trimmed_of_fragment rfl, kept]
    simp [render, tail, marked, authorityText]
  rw [shape 'a' (by decide), shape 'b' (by decide)]
  exact nameOf_concat_ne _

theorem not_conceals_of_query (formed : url.WellFormed) (accepted : Accepted library url)
    (other : url.scheme.map Char.toLower ∉ webSchemes) (bare : url.fragment = none)
    {query : List Char} (given : url.query = some query) : ¬Conceals library url := by
  have variant : ∀ letter, Plain letter → letter ≠ '#' →
      Url.WellFormed { url with query := some [letter] } := by
    intro letter plain different
    refine { formed with query := ?_ }
    intro text same character member
    rw [← Option.some_inj.mp same, List.mem_singleton] at member
    rw [member]
    exact ⟨plain, different⟩
  have alike : ∀ letter, Alike url { url with query := some [letter] } :=
    fun _ => ⟨rfl, rfl, rfl, rfl, by rw [given]; rfl, rfl⟩
  refine not_conceals_of_pair formed (.inr (.inl (by simp [given]))) accepted
    (variant 'a' plain_letter.1 (by decide)) (variant 'b' plain_letter.2 (by decide))
    (alike 'a') (alike 'b') other ?_
  have shape : ∀ letter, letter ≠ '/' →
      (Url.trimmed { url with query := some [letter] }).render =
        (url.scheme ++ ':' :: (url.authorityText ++ (url.path ++ ['?']))) ++ [letter] := by
    intro letter different
    have kept : trimSlashes [letter] = [letter] := by
      simp [trimSlashes, List.rdropWhile, different]
    rw [@trimmed_of_query { url with query := some [letter] } _ bare rfl, kept]
    simp [render, tail, marked, authorityText, bare]
  rw [shape 'a' (by decide), shape 'b' (by decide)]
  exact nameOf_concat_ne _

theorem not_conceals_of_userInfo (formed : url.WellFormed) (accepted : Accepted library url)
    (other : url.scheme.map Char.toLower ∉ webSchemes) (bare : url.fragment = none)
    (plain : url.query = none) {authority : Authority} (present : url.authority = some authority)
    {userInfo : List Char} (given : authority.userInfo = some userInfo)
    (rootless : trimSlashes url.path = []) : ¬Conceals library url := by
  have variant : ∀ letter, Plain letter → netlocCharacter letter = true →
      letter ∉ ['@', '[', ']'] →
      Url.WellFormed { url with authority := some ⟨some [letter], authority.host⟩ } := by
    intro letter visible within apart
    refine { formed with userInfo := ?_, host := ?_, rooted := ?_, single := ?_ }
    · intro located same text informed character member
      rw [← Option.some_inj.mp same] at informed
      rw [← Option.some_inj.mp informed, List.mem_singleton] at member
      rw [member]
      exact ⟨visible, within, apart⟩
    · intro located same character member
      rw [← Option.some_inj.mp same] at member
      exact formed.host authority present character member
    · intro _
      exact formed.rooted (by simp [present])
    · intro missing
      cases missing
  have alike : ∀ letter, Alike url
      { url with authority := some ⟨some [letter], authority.host⟩ } :=
    fun _ => ⟨rfl, by rw [present]; rfl, by simp [present, given], rfl, rfl, rfl⟩
  refine not_conceals_of_pair formed (.inl ⟨authority, userInfo, present, given⟩) accepted
    (variant 'a' plain_letter.1 (by decide) (by decide))
    (variant 'b' plain_letter.2 (by decide) (by decide)) (alike 'a') (alike 'b') other ?_
  have shape : ∀ letter, letter ≠ '/' → lastSegment (Url.trimmed
      { url with authority := some ⟨some [letter], authority.host⟩ }).render =
      letter :: '@' :: authority.host := by
    intro letter different
    have rendered : (Url.trimmed
        { url with authority := some ⟨some [letter], authority.host⟩ }).render =
        (url.scheme ++ [':', '/']) ++ '/' :: letter :: '@' :: authority.host := by
      rw [@trimmed_of_path
        { url with authority := some ⟨some [letter], authority.host⟩ } bare plain]
      simp [render, tail, marked, authorityText, bare, plain, rootless, Authority.netloc]
    have free : '/' ∉ letter :: '@' :: authority.host := by
      simp only [List.mem_cons, not_or]
      exact ⟨different.symm, by decide, slash_not_mem_host formed present⟩
    rw [rendered, lastSegment_append_slash _ free]
  rw [shape 'a' (by decide), shape 'b' (by decide)]
  intro same
  have texts := nameOf_injective (by simp) (by simp) same
  simp at texts

/-- A URL conceals its hidden parts exactly if it is covered. -/
theorem conceals_iff (formed : url.WellFormed) : Conceals library url ↔ Covered library url := by
  by_cases web : url.scheme.map Char.toLower ∈ webSchemes
  · refine iff_of_true ?_ (.inl web)
    intro other otherFormed alike name otherName named otherNamed
    by_cases hides : url.Hides
    · obtain ⟨-, rfl⟩ := (publicSourceName_render formed hides).mp named
      obtain ⟨-, rfl⟩ := (publicSourceName_render otherFormed (alike.hides.mp hides)).mp otherNamed
      rw [if_pos web, if_pos (alike.scheme ▸ web), alike.trimmed_path]
    · rw [alike.eq_of_not_hides hides, otherNamed] at named
      exact (Option.some_inj.mp named).symm
  by_cases accepted : Accepted library url
  · have located : ¬∃ authority, url.authority = some authority ∧ authority.host ≠ [] ∧
        library.accepts authority.host = false := by
      rintro ⟨authority, present, nonempty, rejected⟩
      rcases (accepted_iff formed).mp accepted authority present with empty | fine
      · exact nonempty empty
      · rw [rejected] at fine
        cases fine
    constructor
    · intro conceals
      cases fragment : url.fragment with
      | some text => exact absurd conceals (not_conceals_of_fragment formed accepted web fragment)
      | none =>
          cases query : url.query with
          | some text =>
              exact absurd conceals (not_conceals_of_query formed accepted web fragment query)
          | none =>
              refine .inr (.inl ⟨query, fragment, ?_⟩)
              by_cases rootless : trimSlashes url.path = []
              · refine .inl ?_
                cases informed : url.authority.bind Authority.userInfo with
                | none => rfl
                | some userInfo =>
                    obtain ⟨authority, present, given⟩ := Option.bind_eq_some_iff.mp informed
                    exact absurd conceals (not_conceals_of_userInfo formed accepted web fragment
                      query present given rootless)
              · exact .inr rootless
    · rintro (known | ⟨query, fragment, shown⟩ | rejected)
      · exact absurd known web
      · intro other otherFormed alike name otherName named otherNamed
        by_cases hides : url.Hides
        · have rooted : trimSlashes url.path ≠ [] := by
            rcases shown with uninformed | rooted
            · rcases hides with ⟨authority, userInfo, present, given⟩ | queried | fragmented
              · rw [present, Option.bind_some, given] at uninformed
                cases uninformed
              · exact absurd query queried
              · exact absurd fragment fragmented
            · exact rooted
          have otherQuery : other.query = none := by
            have same := alike.query
            rw [query] at same
            exact Option.isNone_iff_eq_none.mp (Option.isSome_eq_false_iff.mp same.symm)
          have otherFragment : other.fragment = none := by
            have same := alike.fragment
            rw [fragment] at same
            exact Option.isNone_iff_eq_none.mp (Option.isSome_eq_false_iff.mp same.symm)
          have last : ∀ url : Url, url.WellFormed → url.Hides → url.query = none →
              url.fragment = none → trimSlashes url.path ≠ [] →
              lastSegment url.trimmed.render = lastSegment (trimSlashes url.path) := by
            intro url formed hides query fragment rooted
            have slash : '/' ∈ trimSlashes url.path := by
              rcases hides with ⟨authority, userInfo, present, -⟩ | queried | fragmented
              · have rootedTrim := formed.trimmed.rooted (by
                  rw [authority_trimmed, present]
                  exact Option.some_ne_none _)
                rw [trimmed_of_path fragment query] at rootedTrim
                rcases rootedTrim with empty | ⟨rest, slash⟩
                · exact absurd empty rooted
                · rw [show trimSlashes url.path = '/' :: rest from slash]
                  exact List.mem_cons_self
              · exact absurd query queried
              · exact absurd fragment fragmented
            rw [trimmed_of_path fragment query]
            simp only [render, tail, query, fragment, marked, List.append_nil]
            rw [← List.cons_append, ← List.append_assoc, lastSegment_append_of_mem _ slash]
          obtain ⟨-, rfl⟩ := (publicSourceName_render formed hides).mp named
          obtain ⟨-, rfl⟩ :=
            (publicSourceName_render otherFormed (alike.hides.mp hides)).mp otherNamed
          rw [if_neg web, if_neg (alike.scheme ▸ web), last url formed hides query fragment rooted,
            last other otherFormed (alike.hides.mp hides) otherQuery otherFragment
              (alike.path ▸ rooted), alike.path]
        · rw [alike.eq_of_not_hides hides, otherNamed] at named
          exact (Option.some_inj.mp named).symm
      · exact absurd rejected located
  · have rejected : ∃ authority, url.authority = some authority ∧ authority.host ≠ [] ∧
        library.accepts authority.host = false := by
      rw [accepted_iff formed] at accepted
      push Not at accepted
      obtain ⟨authority, present, nonempty, refused⟩ := accepted
      exact ⟨authority, present, nonempty, by simpa using refused⟩
    refine iff_of_true ?_ (.inr (.inr rejected))
    intro other otherFormed alike name otherName named otherNamed
    by_cases hides : url.Hides
    · exact absurd ((publicSourceName_render formed hides).mp named).1 accepted
    · rw [alike.eq_of_not_hides hides, otherNamed] at named
      exact (Option.some_inj.mp named).symm

end

end RAGuardian.Ranking
