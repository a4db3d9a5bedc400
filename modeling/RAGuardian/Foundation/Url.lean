import Mathlib.Data.List.DropRight
import RAGuardian.Foundation.Text

/-! # URLs

How `urllib.parse.urlsplit` takes a URL apart. -/

namespace RAGuardian

structure Authority where
  userInfo : Option (List Char)
  host : List Char
deriving DecidableEq

/-- A URL by its parts -/
structure Url where
  scheme : List Char
  authority : Option Authority
  path : List Char
  query : Option (List Char)
  fragment : Option (List Char)
deriving DecidableEq

namespace Url

/-! ## Splitting -/

/-- `urllib.parse.SplitResult` -/
structure SplitResult where
  scheme : List Char
  netloc : List Char
  path : List Char
  query : List Char
  fragment : List Char
deriving DecidableEq

def schemeCharacter (character : Char) : Bool :=
  character.isAlphanum || character == '+' || character == '-' || character == '.'

def isScheme : List Char → Bool
  | [] => false
  | first :: rest => first.isAlpha && rest.all schemeCharacter

def netlocCharacter (character : Char) : Bool :=
  character != '/' && character != '?' && character != '#'

/-- Leading spaces and control characters are dropped, tabs and line ends everywhere. -/
def cleaned (url : List Char) : List Char :=
  (url.dropWhile fun character => character.toNat ≤ 0x20).filter fun character =>
    character ∉ ['\t', '\r', '\n']

def splitScheme (url : List Char) : List Char × List Char :=
  match Text.partition ':' url with
  | (scheme, some rest) =>
      if isScheme scheme then (scheme.map Char.toLower, rest) else ([], url)
  | (_, none) => ([], url)

def splitNetloc : List Char → List Char × List Char
  | '/' :: '/' :: rest => (rest.takeWhile netlocCharacter, rest.dropWhile netlocCharacter)
  | url => ([], url)

/-- `urlsplit(url)`, for a test of network locations. It raises a `ValueError` for those that
fail the test. -/
def urlsplit (accepts : List Char → Bool) (url : List Char) : Option SplitResult :=
  let (scheme, rest) := splitScheme (cleaned url)
  let (netloc, rest) := splitNetloc rest
  if netloc = [] ∨ accepts netloc = true then
    let (rest, fragment) := Text.partition '#' rest
    let (path, query) := Text.partition '?' rest
    some ⟨scheme, netloc, path, query.getD [], fragment.getD []⟩
  else none

end Url

/-! ## Rendering -/

def Authority.netloc (authority : Authority) : List Char :=
  match authority.userInfo with
  | some userInfo => userInfo ++ '@' :: authority.host
  | none => authority.host

namespace Url

def netloc (url : Url) : List Char :=
  match url.authority with
  | some authority => authority.netloc
  | none => []

def authorityText (url : Url) : List Char :=
  match url.authority with
  | some authority => '/' :: '/' :: authority.netloc
  | none => []

/-- A part after its mark -/
def marked (mark : Char) : Option (List Char) → List Char
  | some part => mark :: part
  | none => []

/-- What follows the path -/
def tail (url : Url) : List Char :=
  marked '?' url.query ++ marked '#' url.fragment

def render (url : Url) : List Char :=
  url.scheme ++ ':' :: (url.authorityText ++ (url.path ++ url.tail))

/-- A visible ASCII character other than the backslash -/
def Plain (character : Char) : Prop :=
  0x20 < character.toNat ∧ character.toNat < 0x7F ∧ character ≠ '\\'

structure WellFormed (url : Url) : Prop where
  scheme : isScheme url.scheme = true
  userInfo : ∀ authority, url.authority = some authority → ∀ userInfo,
    authority.userInfo = some userInfo → ∀ character ∈ userInfo,
      Plain character ∧ netlocCharacter character = true ∧ character ∉ ['@', '[', ']']
  host : ∀ authority, url.authority = some authority → ∀ character ∈ authority.host,
    Plain character ∧ netlocCharacter character = true ∧ character ≠ '@'
  path : ∀ character ∈ url.path, Plain character ∧ character ≠ '?' ∧ character ≠ '#'
  rooted : url.authority ≠ none → url.path = [] ∨ ∃ rest, url.path = '/' :: rest
  single : url.authority = none → ∀ rest, url.path ≠ '/' :: '/' :: rest
  query : ∀ query, url.query = some query → ∀ character ∈ query,
    Plain character ∧ character ≠ '#'
  fragment : ∀ fragment, url.fragment = some fragment → ∀ character ∈ fragment,
    Plain character

/-! ## Round trip -/

theorem partition_of_not_mem {separator : Char} {text : List Char} (absent : separator ∉ text) :
    Text.partition separator text = (text, none) := by
  induction text with
  | nil => rfl
  | cons character text induction =>
      rw [List.mem_cons, not_or] at absent
      have different : (character == separator) = false := by
        simpa using Ne.symm absent.1
      rw [Text.partition, different, induction absent.2]
      rfl

theorem partition_marked {separator : Char} {text : List Char} (absent : separator ∉ text)
    (part : Option (List Char)) :
    Text.partition separator (text ++ marked separator part) = (text, part) := by
  cases part with
  | some part => exact Text.partition_append absent part
  | none =>
      rw [marked, List.append_nil]
      exact partition_of_not_mem absent

theorem colon_not_mem_scheme {scheme : List Char} (formed : isScheme scheme = true) :
    ':' ∉ scheme := by
  cases scheme with
  | nil => exact List.not_mem_nil
  | cons first rest =>
      rw [isScheme, Bool.and_eq_true, List.all_eq_true] at formed
      intro member
      rcases List.mem_cons.mp member with rfl | later
      · exact absurd formed.1 (by decide)
      · exact absurd (formed.2 ':' later) (by decide)

theorem cleaned_of_plain {text : List Char} (plain : ∀ character ∈ text, Plain character) :
    cleaned text = text := by
  have kept : text.dropWhile (fun character => decide (character.toNat ≤ 0x20)) = text := by
    cases text with
    | nil => rfl
    | cons first rest =>
        have visible := (plain first List.mem_cons_self).1
        rw [List.dropWhile_cons_of_neg]
        simpa using visible
  rw [cleaned, kept, List.filter_eq_self]
  intro character member
  have visible := (plain character member).1
  have blank : ∀ other ∈ ['\t', '\r', '\n'], other.toNat ≤ 0x20 := by simp
  by_contra control
  simp only [decide_eq_true_eq, not_not] at control
  have := blank character control
  omega

/-- What follows the network location begins with no character of it. -/
theorem splitNetloc_append {netloc rest : List Char}
    (within : ∀ character ∈ netloc, netlocCharacter character = true)
    (stops : ∀ character, rest.head? = some character → netlocCharacter character = false) :
    splitNetloc ('/' :: '/' :: (netloc ++ rest)) = (netloc, rest) := by
  have ends : rest.takeWhile netlocCharacter = [] ∧ rest.dropWhile netlocCharacter = rest := by
    cases rest with
    | nil => exact ⟨rfl, rfl⟩
    | cons first rest =>
        have outside := stops first rfl
        simp [outside]
  rw [splitNetloc, List.takeWhile_append_of_pos within, List.dropWhile_append_of_pos within,
    ends.1, ends.2, List.append_nil]

theorem splitNetloc_of_single {text : List Char} (single : ∀ rest, text ≠ '/' :: '/' :: rest) :
    splitNetloc text = ([], text) := by
  rw [splitNetloc]
  exact fun rest same => single rest same

variable {url : Url}

theorem WellFormed.netloc (formed : url.WellFormed) :
    ∀ character ∈ url.netloc, netlocCharacter character = true := by
  intro character member
  rw [Url.netloc] at member
  split at member
  · rename_i authority present
    rw [Authority.netloc] at member
    split at member
    · rename_i userInfo given
      simp only [List.mem_append, List.mem_cons] at member
      rcases member with within | rfl | within
      · exact (formed.userInfo authority present userInfo given character within).2.1
      · rfl
      · exact (formed.host authority present character within).2.1
    · exact (formed.host authority present character member).2.1
  · cases member

theorem head_tail {character : Char} (first : url.tail.head? = some character) :
    character = '?' ∨ character = '#' := by
  rw [tail] at first
  cases query : url.query with
  | some text =>
      rw [query] at first
      exact .inl (Option.some_inj.mp first).symm
  | none =>
      cases fragment : url.fragment with
      | some text =>
          rw [query, fragment] at first
          exact .inr (Option.some_inj.mp first).symm
      | none =>
          rw [query, fragment] at first
          cases first

theorem WellFormed.splitNetloc_eq (formed : url.WellFormed) :
    splitNetloc (url.authorityText ++ (url.path ++ url.tail)) =
      (url.netloc, url.path ++ url.tail) := by
  cases present : url.authority with
  | some authority =>
      have same : url.netloc = authority.netloc := by
        rw [Url.netloc, present]
      rw [authorityText, present, same]
      refine splitNetloc_append (fun character member => formed.netloc character (same ▸ member)) ?_
      intro character first
      rcases formed.rooted (by simp [present]) with empty | ⟨rest, slash⟩
      · rw [empty, List.nil_append] at first
        rcases head_tail first with rfl | rfl
        · rfl
        · rfl
      · rw [slash] at first
        cases first
        rfl
  | none =>
      rw [authorityText, Url.netloc, present]
      refine splitNetloc_of_single ?_
      intro rest same
      rw [List.nil_append] at same
      cases path : url.path with
      | nil =>
          rw [path, List.nil_append] at same
          have first := @head_tail url '/' (by rw [same]; rfl)
          exact absurd first (by decide)
      | cons first more =>
          rw [path, List.cons_append] at same
          obtain ⟨rfl, following⟩ := List.cons.inj same
          cases more with
          | nil =>
              rw [List.nil_append] at following
              have second := @head_tail url '/' (by rw [following]; rfl)
              exact absurd second (by decide)
          | cons second more =>
              obtain ⟨rfl, -⟩ := List.cons.inj following
              exact formed.single present more path

theorem plain_of_schemeCharacter {character : Char} (within : schemeCharacter character = true) :
    Plain character := by
  refine ⟨?_, ?_, ?_⟩
  · simp only [schemeCharacter, Bool.or_eq_true, beq_iff_eq, Text.isAlphanum_iff] at within
    rcases within with ((alphanumeric | rfl) | rfl) | rfl
    · omega
    all_goals decide
  · simp only [schemeCharacter, Bool.or_eq_true, beq_iff_eq, Text.isAlphanum_iff] at within
    rcases within with ((alphanumeric | rfl) | rfl) | rfl
    · omega
    all_goals decide
  · rintro rfl
    revert within
    decide

theorem plain_of_scheme {scheme : List Char} (formed : isScheme scheme = true) :
    ∀ character ∈ scheme, Plain character := by
  cases scheme with
  | nil => simp
  | cons first rest =>
      rw [isScheme, Bool.and_eq_true, List.all_eq_true] at formed
      intro character member
      rcases List.mem_cons.mp member with rfl | later
      · have letter : character.isAlphanum = true := by
          change (character.isAlpha || character.isDigit) = true
          rw [formed.1, Bool.true_or]
        exact plain_of_schemeCharacter (by rw [schemeCharacter, letter]; rfl)
      · exact plain_of_schemeCharacter (formed.2 character later)

theorem mem_marked {mark character : Char} {part : Option (List Char)}
    (member : character ∈ marked mark part) :
    character = mark ∨ ∃ text, part = some text ∧ character ∈ text := by
  cases part with
  | none => cases member
  | some text =>
      rcases List.mem_cons.mp member with same | within
      · exact .inl same
      · exact .inr ⟨text, rfl, within⟩

theorem WellFormed.plain (formed : url.WellFormed) : ∀ character ∈ url.render,
    Plain character := by
  have colon : Plain ':' := by unfold Plain; decide
  have slash : Plain '/' := by unfold Plain; decide
  have question : Plain '?' := by unfold Plain; decide
  have hash : Plain '#' := by unfold Plain; decide
  have location : Plain '@' := by unfold Plain; decide
  intro character member
  simp only [render, tail, List.mem_append, List.mem_cons] at member
  rcases member with scheme | rfl | authority | path | query | fragment
  · exact plain_of_scheme formed.scheme character scheme
  · exact colon
  · rw [authorityText] at authority
    split at authority
    · rename_i given present
      simp only [List.mem_cons, Authority.netloc] at authority
      rcases authority with rfl | rfl | within
      · exact slash
      · exact slash
      · split at within
        · rename_i userInfo informed
          simp only [List.mem_append, List.mem_cons] at within
          rcases within with within | rfl | within
          · exact (formed.userInfo given present userInfo informed character within).1
          · exact location
          · exact (formed.host given present character within).1
        · exact (formed.host given present character within).1
    · cases authority
  · exact (formed.path character path).1
  · rcases mem_marked query with rfl | ⟨text, given, within⟩
    · exact question
    · exact (formed.query text given character within).1
  · rcases mem_marked fragment with rfl | ⟨text, given, within⟩
    · exact hash
    · exact formed.fragment text given character within

/-- Splitting gives the parts back. -/
theorem urlsplit_render (formed : url.WellFormed) (accepts : List Char → Bool) :
    urlsplit accepts url.render =
      if url.netloc = [] ∨ accepts url.netloc = true then
        some ⟨url.scheme.map Char.toLower, url.netloc, url.path, url.query.getD [],
          url.fragment.getD []⟩
      else none := by
  have scheme : splitScheme url.render =
      (url.scheme.map Char.toLower, url.authorityText ++ (url.path ++ url.tail)) := by
    rw [splitScheme, render, Text.partition_append (colon_not_mem_scheme formed.scheme)]
    dsimp only
    rw [if_pos formed.scheme]
  have hashFree : '#' ∉ url.path ++ marked '?' url.query := by
    intro member
    rcases List.mem_append.mp member with within | within
    · exact (formed.path '#' within).2.2 rfl
    · cases query : url.query with
      | none =>
          rw [query] at within
          cases within
      | some text =>
          rw [query] at within
          rcases List.mem_cons.mp within with same | later
          · exact absurd same (by decide)
          · exact (formed.query text query '#' later).2 rfl
  have queryFree : '?' ∉ url.path := fun member => (formed.path '?' member).2.1 rfl
  rw [urlsplit, cleaned_of_plain formed.plain, scheme]
  dsimp only
  rw [formed.splitNetloc_eq]
  dsimp only
  rw [tail, ← List.append_assoc, partition_marked hashFree, partition_marked queryFree]

/-! ## Trailing slashes -/

/-- `text.rstrip("/")` -/
def trimSlashes (text : List Char) : List Char :=
  text.rdropWhile fun character => character = '/'

theorem trimSlashes_append_cons {character : Char} (other : character ≠ '/')
    (front back : List Char) :
    trimSlashes (front ++ character :: back) = front ++ character :: trimSlashes back := by
  induction back using List.reverseRecOn with
  | nil =>
      rw [trimSlashes, List.rdropWhile_concat_neg]
      · rfl
      · simpa using other
  | append_singleton back last induction =>
      rw [trimSlashes, trimSlashes, ← List.cons_append, ← List.append_assoc]
      by_cases slash : last = '/'
      · rw [List.rdropWhile_concat_pos _ _ _ (by simpa using slash),
          List.rdropWhile_concat_pos _ _ _ (by simpa using slash)]
        exact induction
      · rw [List.rdropWhile_concat_neg _ _ _ (by simpa using slash),
          List.rdropWhile_concat_neg _ _ _ (by simpa using slash)]
        simp

theorem trimSlashes_append {front : List Char} (free : '/' ∉ front) (back : List Char) :
    trimSlashes (front ++ back) = front ++ trimSlashes back := by
  induction front using List.reverseRecOn generalizing back with
  | nil => rfl
  | append_singleton front last _ =>
      have other : last ≠ '/' := by
        rintro rfl
        exact free (by simp)
      rw [List.append_assoc, List.singleton_append, trimSlashes_append_cons other]
      simp

theorem mem_of_mem_trimSlashes {text : List Char} {character : Char}
    (member : character ∈ trimSlashes text) : character ∈ text :=
  (List.rdropWhile_prefix _ text).subset member

/-- One of the parts that do not name the document is there. -/
def Hides (url : Url) : Prop :=
  (∃ authority userInfo, url.authority = some authority ∧ authority.userInfo = some userInfo) ∨
    url.query ≠ none ∨ url.fragment ≠ none

/-- The URL without the slashes at its end -/
def trimmed (url : Url) : Url :=
  match url.fragment, url.query with
  | some fragment, _ => { url with fragment := some (trimSlashes fragment) }
  | none, some query => { url with query := some (trimSlashes query) }
  | none, none => { url with path := trimSlashes url.path }

theorem trimmed_of_fragment {fragment : List Char} (given : url.fragment = some fragment) :
    url.trimmed = { url with fragment := some (trimSlashes fragment) } := by
  rw [trimmed, given]

theorem trimmed_of_query {query : List Char} (bare : url.fragment = none)
    (given : url.query = some query) :
    url.trimmed = { url with query := some (trimSlashes query) } := by
  rw [trimmed, bare, given]

theorem trimmed_of_path (bare : url.fragment = none) (plain : url.query = none) :
    url.trimmed = { url with path := trimSlashes url.path } := by
  rw [trimmed, bare, plain]

theorem authority_trimmed (url : Url) : url.trimmed.authority = url.authority := by
  rw [trimmed]
  split <;> rfl

theorem scheme_trimmed (url : Url) : url.trimmed.scheme = url.scheme := by
  rw [trimmed]
  split <;> rfl

theorem netloc_trimmed (url : Url) : url.trimmed.netloc = url.netloc := by
  rw [netloc, netloc, authority_trimmed]

theorem slash_not_mem_host (formed : url.WellFormed) {authority : Authority}
    (present : url.authority = some authority) : '/' ∉ authority.host := by
  intro member
  exact absurd (formed.host authority present '/' member).2.1 (by decide)

/-- The slashes are at the end of one of the parts. -/
theorem trimSlashes_render (formed : url.WellFormed) (hides : url.Hides) :
    trimSlashes url.render = url.trimmed.render := by
  cases fragment : url.fragment with
  | some text =>
      rw [trimmed_of_fragment fragment]
      have shape : url.render = (url.scheme ++ ':' :: (url.authorityText ++
          (url.path ++ marked '?' url.query))) ++ '#' :: text := by
        simp [render, tail, fragment, marked]
      rw [shape, trimSlashes_append_cons (by decide)]
      simp [render, tail, marked, authorityText]
  | none =>
      cases query : url.query with
      | some text =>
          rw [trimmed_of_query fragment query]
          have shape : url.render = (url.scheme ++ ':' :: (url.authorityText ++ url.path)) ++
              '?' :: text := by
            simp [render, tail, fragment, query, marked]
          rw [shape, trimSlashes_append_cons (by decide)]
          simp [render, tail, fragment, marked, authorityText]
      | none =>
          rw [trimmed_of_path fragment query]
          obtain ⟨authority, userInfo, present, informed⟩ : ∃ authority userInfo,
              url.authority = some authority ∧ authority.userInfo = some userInfo := by
            rcases hides with located | queried | fragmented
            · exact located
            · exact absurd query queried
            · exact absurd fragment fragmented
          have shape : url.render = (url.scheme ++ ':' :: '/' :: '/' :: userInfo) ++
              '@' :: (authority.host ++ url.path) := by
            simp [render, tail, fragment, query, marked, authorityText, present,
              Authority.netloc, informed]
          rw [shape, trimSlashes_append_cons (by decide),
            trimSlashes_append (slash_not_mem_host formed present)]
          simp [render, tail, fragment, query, marked, authorityText, present,
            Authority.netloc, informed]

theorem WellFormed.trimmed (formed : url.WellFormed) : url.trimmed.WellFormed := by
  cases fragment : url.fragment with
  | some text =>
      rw [trimmed_of_fragment fragment]
      refine { formed with fragment := ?_ }
      intro kept same character member
      rw [← Option.some_inj.mp same] at member
      exact formed.fragment text fragment character (mem_of_mem_trimSlashes member)
  | none =>
      cases query : url.query with
      | some text =>
          rw [trimmed_of_query fragment query]
          refine { formed with query := ?_ }
          intro kept same character member
          rw [← Option.some_inj.mp same] at member
          exact formed.query text query character (mem_of_mem_trimSlashes member)
      | none =>
          rw [trimmed_of_path fragment query]
          have front := List.rdropWhile_prefix (fun character => decide (character = '/')) url.path
          refine { formed with path := ?_, rooted := ?_, single := ?_ }
          · intro character member
            exact formed.path character (mem_of_mem_trimSlashes member)
          · intro located
            cases kept : trimSlashes url.path with
            | nil => exact .inl rfl
            | cons first rest =>
                obtain ⟨more, whole⟩ := front
                change trimSlashes url.path ++ more = url.path at whole
                rw [kept] at whole
                rcases formed.rooted located with empty | ⟨others, slash⟩
                · rw [empty] at whole
                  cases whole
                · rw [slash] at whole
                  obtain ⟨rfl, -⟩ := List.cons.inj whole
                  exact .inr ⟨rest, rfl⟩
          · intro bare rest kept
            obtain ⟨more, whole⟩ := front
            change trimSlashes url.path ++ more = url.path at whole
            change trimSlashes url.path = _ at kept
            rw [kept] at whole
            exact formed.single bare (rest ++ more) whole.symm

end Url

end RAGuardian
