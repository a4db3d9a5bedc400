import RAGuardian.Documents.Deduplication
import RAGuardian.Foundation.SecureFilename
import RAGuardian.Service.ScopeKeys

/-! # The keys of uploads

The relative path of an upload is cleaned once and kept as the key of the document. Downloads,
deletions and rebuilds clean it again. -/

namespace RAGuardian.Documents

open Fallible

/-! ## Uploads -/

/-- A `ValidationError` by its message and field, or the `IndexError` for a name without a dot. -/
inductive UploadError
  | invalid (message field : String)
  | index
deriving DecidableEq, Repr

def invalidPath : UploadError :=
  .invalid "Path relativo non valido" "relative_path"

def invalidName : UploadError :=
  .invalid "Nome file non valido" "file"

section

variable (names : Names)

/-- `_safe_relative_upload_path` -/
def safeRelativeUploadPath (rawValue : Option String) (fallbackFilename : String) :
    Except UploadError String :=
  let fallback := names.secureFilename fallbackFilename
  let given := rawValue.getD ""
  let raw := slashed (if given ≠ "" then given else fallback)
  if raw = "" then .error invalidName
  else if Text.startsWith "/" raw ∨ Text.startsWith "~" raw ∨ names.hasDrive raw.toList then
    .error invalidPath
  else match names.safeParts (splitOn '/' raw.toList) with
    | none => .error invalidPath
    | some [] => .error invalidName
    | some (first :: rest) =>
        if fallback ≠ "" ∧ (first :: rest).getLast? ≠ some fallback then
          .error (.invalid "Path relativo e nome file non corrispondono" "relative_path")
        else .ok (String.intercalate "/" (first :: rest))

def UploadKind.extensions : UploadKind → List String
  | .file => documentUploadExtensions
  | .audio => audioUploadExtensions

/-- `file.filename.rsplit('.', 1)[1].lower()` -/
def afterLastDot (name : String) : String :=
  Text.lower (String.ofList (name.toList.reverse.takeWhile (· ≠ '.')).reverse)

/-- The checks of `validate_file` on the name -/
def validateFileName (kind : UploadKind) (name : String) : Except UploadError Unit :=
  if name = "" then .error (.invalid "file e' obbligatorio" "file")
  else if '.' ∉ name.toList then .error (.invalid "file deve avere un'estensione" "file")
  else if afterLastDot name ∉ kind.extensions then
    .error (.invalid ("file deve essere un file " ++
      String.intercalate ", " (Text.sorted kind.extensions.toFinset)) "file")
  else .ok ()

/-- `_validate_relative_path_for_config`, in the default knowledge base or another one -/
def validateRelativePath (inDefault : Bool) (relativePath : String) : Except UploadError Unit :=
  if inDefault ∧ (splitOn '/' relativePath.toList).head? = some "__knowledge_bases__".toList then
    .error (.invalid "Segmento path riservato" "relative_path")
  else .ok ()

/-- The key under which an upload is recorded -/
def uploadKey (kind : UploadKind) (inDefault : Bool) (rawName : String)
    (relativePath : Option String) : Except UploadError String := do
  validateFileName kind rawName
  let filename := names.secureFilename rawName
  if filename = "" then throw invalidName
  else if kind = .file ∧ '.' ∉ filename.toList then throw .index
  else do
    let key ← safeRelativeUploadPath names relativePath filename
    validateRelativePath inDefault key
    return key

end

/-! ## Storage -/

/-- The parts of an absolute path that `os.path.normpath` leaves after some others -/
def normalizeFrom (kept : List String) : List String → List String
  | [] => kept
  | part :: rest =>
      if part = "" ∨ part = "." then normalizeFrom kept rest
      else if part = ".." then normalizeFrom kept.dropLast rest
      else normalizeFrom (kept ++ [part]) rest

def absolutePath (parts : List String) : String :=
  "/" ++ String.intercalate "/" parts

/-- A part of a path that leads to an entry of the folder before it -/
structure CleanPart (part : String) : Prop where
  nonempty : part ≠ ""
  not_dot : part ≠ "."
  not_dots : part ≠ ".."
  no_slash : '/' ∉ part.toList

/-- `os.path.abspath` of the upload folder of a workspace, which is not the root itself. -/
structure UploadRoot where
  parts : List String
  nonempty : parts ≠ []
  clean : ∀ part ∈ parts, CleanPart part

def UploadRoot.path (root : UploadRoot) : String :=
  absolutePath root.parts

/-- `_upload_storage_path` -/
def uploadStoragePath (root : UploadRoot) (relativePath : String) : Except UploadError String :=
  let filePath := absolutePath (normalizeFrom [] (root.parts ++
    (splitOn '/' relativePath.toList).map String.ofList))
  if Text.startsWith (root.path ++ "/") filePath then .ok filePath else .error invalidPath

/-- `_download_indexed_file`: the path that is sent and the name it is sent under. -/
def KnowledgeBase.downloadIndexedFile (base : KnowledgeBase) (raw : String) :
    Action (String × String) := do
  let filename := base.names.safeFileIndexKey raw
  if filename = "" then throw (.raised "Nome file non valido")
  else do
    let world ← get
    match world.entry filename with
    | none => throw (.raised "File non trovato")
    | some entry =>
        let source := base.sourceOf entry filename
        if ¬Text.startsWith (base.uploadFolder ++ "/") source then
          throw (.raised "Path non valida")
        else if ¬world.isFile source then throw (.raised "File non trovato")
        else return (source, basename filename)

/-! ## Stable keys -/

/-- `secure_filename` and `str.isalpha` -/
def namesOf (secure : SecureFilename) (isAlpha : Char → Bool) : Names where
  secureFilename := secure
  isAlpha := isAlpha

/-- A key is the same wherever it is read again, and has a place of its own. -/
structure KeyStable (names : Names) (root : UploadRoot) (filename key : String) : Prop where
  indexKey : names.safeFileIndexKey key = key
  again : safeRelativeUploadPath names (some key) filename = .ok key
  nonempty : key ≠ ""
  stored : uploadStoragePath root key = .ok (root.path ++ "/" ++ key)
  apart : ∀ other otherKey relativePath,
    safeRelativeUploadPath names relativePath other = .ok otherKey → otherKey ≠ key →
      uploadStoragePath root otherKey ≠ uploadStoragePath root key

/-- An upload as it is recorded and stored -/
structure StoredUnder (key path : String) (world : World) (entry : Entry) : Prop where
  listed : world.entry key = some entry
  placed : entry.get? "path" = some (.text path)
  present : world.isFile path = true

/-- What is recorded under a key is downloaded, deleted and rebuilt by it. -/
structure Reachable (base : KnowledgeBase) (key path : String) : Prop where
  downloaded : ∀ world entry, StoredUnder key path world entry →
    base.downloadIndexedFile key world = .ok (path, basename key) world
  deleted : ∀ world entry, StoredUnder key path world entry →
    ∃ answer next, base.deleteIndexedFile key world = .ok answer next ∧
      answer.filename = key ∧ answer.source = path ∧ answer.fileDeleted = true ∧
        next.entry key = none ∧ next.isFile path = false
  rebuilt : ∀ world entry, StoredUnder key path world entry →
    base.entryFilename entry = key ∧ base.safeRebuildSourcePath entry world = .ok path world

/-! ## Clean keys -/

theorem splitOn_append {separator : Char} {part : List Char} (absent : separator ∉ part)
    (rest : List Char) :
    splitOn separator (part ++ separator :: rest) = part :: splitOn separator rest := by
  induction part with
  | nil =>
      rw [List.nil_append, splitOn]
      cases more : splitOn separator rest with
      | nil =>
          cases rest with
          | nil => cases more
          | cons character rest =>
              rw [splitOn] at more
              cases inner : splitOn separator rest with
              | nil =>
                  rw [inner] at more
                  cases more
              | cons first others =>
                  rw [inner] at more
                  dsimp only at more
                  split at more <;> cases more
      | cons first others => simp
  | cons character part induction =>
      rw [List.mem_cons, not_or] at absent
      rw [List.cons_append, splitOn, induction absent.2]
      dsimp only
      rw [if_neg (Ne.symm absent.1)]

theorem splitOn_self {separator : Char} {part : List Char} (absent : separator ∉ part) :
    splitOn separator part = [part] := by
  induction part with
  | nil => rfl
  | cons character part induction =>
      rw [List.mem_cons, not_or] at absent
      rw [splitOn, induction absent.2]
      dsimp only
      rw [if_neg (Ne.symm absent.1)]

theorem toList_intercalate_cons (first second : String) (rest : List String) :
    (String.intercalate "/" (first :: second :: rest)).toList =
      first.toList ++ '/' :: (String.intercalate "/" (second :: rest)).toList := by
  rw [String.intercalate_cons_cons]
  simp

/-- A path of parts without slashes is split into these parts. -/
theorem splitOn_intercalate {parts : List String} (nonempty : parts ≠ [])
    (plain : ∀ part ∈ parts, '/' ∉ part.toList) :
    splitOn '/' (String.intercalate "/" parts).toList = parts.map String.toList := by
  induction parts with
  | nil => exact absurd rfl nonempty
  | cons first rest induction =>
      cases rest with
      | nil =>
          have whole : String.intercalate "/" [first] = first := by
            rw [String.intercalate_singleton]
          rw [whole, splitOn_self (plain first List.mem_cons_self)]
          rfl
      | cons second rest =>
          rw [toList_intercalate_cons, splitOn_append (plain first List.mem_cons_self),
            induction (List.cons_ne_nil _ _) fun part member =>
              plain part (List.mem_cons_of_mem _ member)]
          rfl

/-! ## Safe parts -/

section

variable {secure : SecureFilename} {isAlpha : Char → Bool} {part : String} {parts : List String}

/-- A part as `secure_filename` leaves it -/
structure SafePart (secure : SecureFilename) (part : String) : Prop where
  nonempty : part ≠ ""
  kept : secure part = part

theorem SafePart.characters (safe : SafePart secure part) :
    ∀ character ∈ part.toList, isFilenameCharacter character = true := by
  have all := secure.characters part
  rwa [safe.kept] at all

theorem isSpace_of_isFilenameCharacter {character : Char}
    (plain : isFilenameCharacter character = true) : Text.isSpace character = false := by
  apply Service.isSpace_of_isPlain
  simp only [isFilenameCharacter, Bool.or_eq_true, decide_eq_true_eq, List.mem_cons,
    List.not_mem_nil, or_false] at plain
  simp only [Service.isPlain, Service.isWorkspaceCharacter, Bool.or_eq_true, beq_iff_eq]
  tauto

theorem ne_of_isFilenameCharacter {character other : Char}
    (plain : isFilenameCharacter character = true) (odd : isFilenameCharacter other = false) :
    character ≠ other := by
  rintro rfl
  rw [plain] at odd
  cases odd

theorem SafePart.not_mem (safe : SafePart secure part) {other : Char}
    (odd : isFilenameCharacter other = false) : other ∉ part.toList :=
  fun member => ne_of_isFilenameCharacter (safe.characters other member) odd rfl

theorem SafePart.strip (safe : SafePart secure part) : Text.strip part = part :=
  Text.strip_eq_self fun character member =>
    isSpace_of_isFilenameCharacter (safe.characters character member)

theorem SafePart.clean (safe : SafePart secure part) : CleanPart part where
  nonempty := safe.nonempty
  not_dot := by
    have other := secure.not_dot part
    rwa [safe.kept] at other
  not_dots := by
    have other := secure.not_dots part
    rwa [safe.kept] at other
  no_slash := safe.not_mem (by decide)

/-- The parts that a path is cleaned to are safe. -/
theorem safe_of_safeParts {raw : List (List Char)}
    (cleaned : (namesOf secure isAlpha).safeParts raw = some parts) :
    ∀ part ∈ parts, SafePart secure part := by
  induction raw generalizing parts with
  | nil =>
      cases cleaned
      intro part member
      cases member
  | cons first rest induction =>
      rw [Names.safeParts] at cleaned
      split at cleaned
      · exact induction cleaned
      · split at cleaned
        · cases cleaned
        · rename_i valid
          obtain ⟨others, found, rfl⟩ := Option.map_eq_some_iff.mp cleaned
          intro part member
          rcases List.mem_cons.mp member with rfl | later
          · exact ⟨fun empty => valid (.inr empty), secure.apply_apply _⟩
          · exact induction found part later

/-- Safe parts are cleaned to themselves. -/
theorem safeParts_of_safe (safe : ∀ part ∈ parts, SafePart secure part) :
    (namesOf secure isAlpha).safeParts (parts.map String.toList) = some parts := by
  induction parts with
  | nil => rfl
  | cons first rest induction =>
      have own := safe first List.mem_cons_self
      have clean := own.clean
      have kept : (namesOf secure isAlpha).secureFilename first = first := own.kept
      rw [List.map_cons, Names.safeParts, String.ofList_toList, own.strip, kept, if_neg, if_neg,
        induction fun part member => safe part (List.mem_cons_of_mem _ member)]
      · rfl
      · rintro (dots | empty)
        · exact clean.not_dots dots
        · exact clean.nonempty empty
      · rintro (empty | dot)
        · exact clean.nonempty empty
        · exact clean.not_dot dot

/-! ## Safe keys -/

/-- A key made of safe parts -/
structure CleanKey (secure : SecureFilename) (key : String) (parts : List String) : Prop where
  nonempty : parts ≠ []
  safe : ∀ part ∈ parts, SafePart secure part
  joined : key = String.intercalate "/" parts

variable {key : String}

theorem CleanKey.splitOn (made : CleanKey secure key parts) :
    splitOn '/' key.toList = parts.map String.toList := by
  rw [made.joined]
  exact splitOn_intercalate made.nonempty fun part member => (made.safe part member).clean.no_slash

theorem mem_intercalate {character : Char}
    (member : character ∈ (String.intercalate "/" parts).toList) :
    character = '/' ∨ ∃ part ∈ parts, character ∈ part.toList := by
  induction parts with
  | nil => cases member
  | cons first rest induction =>
      cases rest with
      | nil =>
          rw [String.intercalate_singleton] at member
          exact .inr ⟨first, List.mem_cons_self, member⟩
      | cons second rest =>
          rw [toList_intercalate_cons, List.mem_append, List.mem_cons] at member
          rcases member with own | separator | later
          · exact .inr ⟨first, List.mem_cons_self, own⟩
          · exact .inl separator
          · rcases induction later with separator | ⟨part, listed, held⟩
            · exact .inl separator
            · exact .inr ⟨part, List.mem_cons_of_mem _ listed, held⟩

theorem CleanKey.characters (made : CleanKey secure key parts) :
    ∀ character ∈ key.toList, character = '/' ∨ isFilenameCharacter character = true := by
  intro character member
  rw [made.joined] at member
  rcases mem_intercalate member with separator | ⟨part, listed, held⟩
  · exact .inl separator
  · exact .inr ((made.safe part listed).characters character held)

/-- A key starts with a character of its first part. -/
theorem CleanKey.first (made : CleanKey secure key parts) :
    ∃ character rest, key.toList = character :: rest ∧ isFilenameCharacter character = true := by
  cases parts with
  | nil => exact absurd rfl made.nonempty
  | cons first others =>
      have safe := made.safe first List.mem_cons_self
      cases spelled : first.toList with
      | nil => exact absurd (String.toList_inj.mp (spelled.trans rfl)) safe.nonempty
      | cons character rest =>
          have plain := safe.characters character (spelled ▸ List.mem_cons_self)
          cases others with
          | nil =>
              refine ⟨character, rest, ?_, plain⟩
              rw [made.joined, String.intercalate_singleton, spelled]
          | cons second more =>
              refine ⟨character, rest ++ '/' :: (String.intercalate "/" (second :: more)).toList,
                ?_, plain⟩
              rw [made.joined, toList_intercalate_cons, spelled]
              rfl

theorem CleanKey.ne_empty (made : CleanKey secure key parts) : key ≠ "" := by
  rintro rfl
  obtain ⟨character, rest, spelled, -⟩ := made.first
  cases spelled

theorem CleanKey.slashed (made : CleanKey secure key parts) : slashed key = key := by
  have kept : (key.toList.map fun character => if character = '\\' then '/' else character) =
      key.toList := by
    refine (List.map_congr_left fun character member => ?_).trans (List.map_id key.toList)
    rw [if_neg]
    · rfl
    · rcases made.characters character member with rfl | plain
      · decide
      · exact ne_of_isFilenameCharacter plain (by decide)
  rw [Documents.slashed, kept, String.ofList_toList]
  refine Text.strip_eq_self fun character member => ?_
  rcases made.characters character member with rfl | plain
  · rfl
  · exact isSpace_of_isFilenameCharacter plain

theorem CleanKey.not_startsWith (made : CleanKey secure key parts) {start : String} {other : Char}
    (spelled : start.toList = [other]) (odd : isFilenameCharacter other = false) :
    Text.startsWith start key = false := by
  obtain ⟨character, rest, key_eq, plain⟩ := made.first
  rw [← Bool.not_eq_true, Text.startsWith_iff, spelled, key_eq, List.cons_prefix_cons]
  exact fun starts => ne_of_isFilenameCharacter plain odd starts.1.symm

theorem CleanKey.hasDrive (made : CleanKey secure key parts) (names : Names) :
    names.hasDrive key.toList = false := by
  have colonless : ':' ∉ key.toList := by
    intro member
    rcases made.characters ':' member with separator | plain
    · exact absurd separator (by decide)
    · exact absurd plain (by decide)
  rw [Names.hasDrive.eq_def]
  split
  · rename_i spelled
    rw [spelled] at colonless
    exact absurd (List.mem_cons_of_mem _ List.mem_cons_self) colonless
  · rfl

/-- What the two sanitisers see of a safe key -/
theorem CleanKey.cleaned (made : CleanKey secure key parts) (isAlpha : Char → Bool) :
    (namesOf secure isAlpha).safeParts (Documents.splitOn '/' key.toList) = some parts := by
  rw [made.splitOn, safeParts_of_safe made.safe]

theorem CleanKey.indexKey (made : CleanKey secure key parts) :
    (namesOf secure isAlpha).safeFileIndexKey key = key := by
  rw [Names.safeFileIndexKey, made.slashed, made.cleaned, made.hasDrive, if_neg,
    if_neg Bool.false_ne_true, Option.getD_some,
    made.joined]
  rw [made.not_startsWith rfl (by decide), made.not_startsWith rfl (by decide)]
  rintro (empty | impossible | impossible)
  · exact made.ne_empty empty
  · cases impossible
  · cases impossible

theorem CleanKey.again (made : CleanKey secure key parts) {filename : String}
    (last : secure filename ≠ "" → parts.getLast? = some (secure filename)) :
    safeRelativeUploadPath (namesOf secure isAlpha) (some key) filename = .ok key := by
  have cleaned := made.cleaned isAlpha
  cases parts with
  | nil => exact absurd rfl made.nonempty
  | cons first rest =>
      rw [safeRelativeUploadPath, Option.getD_some, if_pos made.ne_empty, made.slashed,
        if_neg made.ne_empty,
        made.hasDrive, made.not_startsWith rfl (by decide), made.not_startsWith rfl (by decide),
        if_neg (by simp), cleaned]
      dsimp only
      rw [if_neg, made.joined]
      rintro ⟨named, other⟩
      exact other (last named)

/-- An accepted path is made of safe parts, of which the last is the name of the file. -/
theorem cleanKey_of_accepted {rawValue : Option String} {filename : String}
    (accepted : safeRelativeUploadPath (namesOf secure isAlpha) rawValue filename = .ok key) :
    ∃ parts, CleanKey secure key parts ∧
      (secure filename ≠ "" → parts.getLast? = some (secure filename)) := by
  rw [safeRelativeUploadPath] at accepted
  generalize slashed _ = raw at accepted
  split at accepted
  · cases accepted
  · split at accepted
    · cases accepted
    · split at accepted
      · cases accepted
      · cases accepted
      · rename_i first rest cleaned
        split at accepted
        · cases accepted
        · rename_i matching
          rw [Except.ok.injEq] at accepted
          refine ⟨first :: rest, ⟨List.cons_ne_nil _ _, safe_of_safeParts cleaned,
            accepted.symm⟩, fun named => ?_⟩
          by_contra other
          exact matching ⟨named, other⟩

/-! ## Places of keys -/

theorem normalizeFrom_clean {kept parts : List String} (clean : ∀ part ∈ parts, CleanPart part) :
    normalizeFrom kept parts = kept ++ parts := by
  induction parts generalizing kept with
  | nil => exact (List.append_nil kept).symm
  | cons first rest induction =>
      have own := clean first List.mem_cons_self
      have none : ¬(first = "" ∨ first = ".") := by
        rintro (empty | dot)
        · exact own.nonempty empty
        · exact own.not_dot dot
      rw [normalizeFrom, if_neg none, if_neg own.not_dots,
        induction fun part member => clean part (List.mem_cons_of_mem _ member),
        List.append_assoc, List.singleton_append]

/-- The place of a safe key is below the upload folder, and has its name. -/
theorem CleanKey.stored (made : CleanKey secure key parts) (root : UploadRoot) :
    uploadStoragePath root key = .ok (root.path ++ "/" ++ key) := by
  have spelled : (Documents.splitOn '/' key.toList).map String.ofList = parts := by
    rw [made.splitOn, List.map_map]
    exact List.map_id'' (fun _ => String.ofList_toList) parts
  have clean : ∀ part ∈ root.parts ++ parts, CleanPart part := by
    intro part member
    rcases List.mem_append.mp member with above | below
    · exact root.clean part above
    · exact (made.safe part below).clean
  have place : absolutePath (root.parts ++ parts) = root.path ++ "/" ++ key := by
    rw [absolutePath, String.intercalate_append_of_ne_nil root.nonempty made.nonempty,
      ← made.joined, UploadRoot.path, absolutePath]
    simp only [String.append_assoc]
  rw [uploadStoragePath, spelled, normalizeFrom_clean clean, List.nil_append, place,
    if_pos (Text.startsWith_append _ _)]

theorem keyStable {rawValue : Option String} {filename : String} (root : UploadRoot)
    (accepted : safeRelativeUploadPath (namesOf secure isAlpha) rawValue filename = .ok key) :
    KeyStable (namesOf secure isAlpha) root filename key := by
  obtain ⟨parts, made, last⟩ := cleanKey_of_accepted accepted
  refine ⟨made.indexKey, made.again last, made.ne_empty, made.stored root, ?_⟩
  intro other otherKey relativePath taken different same
  obtain ⟨otherParts, otherMade, -⟩ := cleanKey_of_accepted taken
  rw [otherMade.stored root, made.stored root, Except.ok.injEq, String.append_right_inj] at same
  exact different same

/-! ## Extensions -/

theorem basename_append {path : String} {head name : List Char}
    (spelled : path.toList = head ++ '/' :: name) (plain : '/' ∉ name) :
    basename path = String.ofList name := by
  have ends : ∀ character ∈ name.reverse, decide (character ≠ '/') = true := by
    intro character member
    rw [decide_eq_true_eq]
    rintro rfl
    exact plain (List.mem_reverse.mp member)
  have front : pathHead path = head ++ ['/'] := by
    rw [pathHead, spelled, List.reverse_append, List.reverse_cons, List.append_assoc,
      List.dropWhile_append_of_pos ends]
    simp
  have whole : head ++ '/' :: name = (head ++ ['/']) ++ name := List.append_cons head '/' name
  rw [basename, front, spelled, whole, List.drop_left]

theorem basename_self {path : String} (plain : '/' ∉ path.toList) : basename path = path := by
  have front : pathHead path = [] := by
    rw [pathHead, List.reverse_eq_nil_iff, List.dropWhile_eq_nil_iff]
    intro character member
    rw [decide_eq_true_eq]
    rintro rfl
    exact plain (List.mem_reverse.mp member)
  rw [basename, front, List.length_nil, List.drop_zero, String.ofList_toList]

theorem slash_of_toLower {character : Char} (slash : character.toLower = '/') :
    character = '/' := by
  rcases Text.toLower_cases character with ⟨-, kept⟩ | ⟨upper, moved⟩
  · exact kept.symm.trans slash
  · rw [slash] at moved
    have codes := congrArg UInt32.toNat moved
    rw [UInt32.toNat_add] at codes
    rw [ge_iff_le, UInt32.le_iff_toNat_le, UInt32.le_iff_toNat_le] at upper
    have first : 'A'.val.toNat = 65 := rfl
    have last : 'Z'.val.toNat = 90 := rfl
    have shift : ('a'.val - 'A'.val).toNat = 32 := rfl
    have slashCode : '/'.val.toNat = 47 := rfl
    omega

/-- The extension of a path is the one of its last part. -/
theorem pathExtension_append (head name : String) (plain : '/' ∉ name.toList) :
    pathExtension (head ++ "/" ++ name) = pathExtension name := by
  have lowered : '/' ∉ (Text.lower name).toList := by
    rw [Text.lower, String.toList_ofList, List.mem_map]
    rintro ⟨character, member, slash⟩
    exact plain (slash_of_toLower slash ▸ member)
  have spelled : (Text.lower (head ++ "/" ++ name)).toList =
      (Text.lower head).toList ++ '/' :: (Text.lower name).toList := by
    simp [Text.lower]
  rw [pathExtension, basename_append spelled lowered, String.ofList_toList, pathExtension,
    basename_self lowered]

/-- A path is below the folder before its last part. -/
theorem CleanKey.below_last (made : CleanKey secure key parts) (root : UploadRoot)
    (last : parts.getLast? = some part) :
    ∃ head, root.path ++ "/" ++ key = head ++ "/" ++ part := by
  obtain ⟨above, rfl⟩ := List.getLast?_eq_some_iff.mp last
  by_cases single : above = []
  · subst single
    refine ⟨root.path, ?_⟩
    rw [made.joined, List.nil_append, String.intercalate_singleton]
  · refine ⟨root.path ++ "/" ++ String.intercalate "/" above, ?_⟩
    rw [made.joined, String.intercalate_append_of_ne_nil single (List.cons_ne_nil _ _),
      String.intercalate_singleton]
    simp only [String.append_assoc]

theorem CleanKey.pathExtension (made : CleanKey secure key parts) (root : UploadRoot)
    (last : parts.getLast? = some part) :
    pathExtension (root.path ++ "/" ++ key) = Documents.pathExtension part := by
  obtain ⟨head, same⟩ := made.below_last root last
  rw [same, pathExtension_append head part
    (made.safe part (List.mem_of_getLast? last)).clean.no_slash]

end

/-! ## Uploads under their keys -/

section

variable {key path : String} {world : World} {entry : Entry}

theorem get_bind {α : Type} (next : World → Action α) : (get >>= next) world = next world world :=
  rfl

theorem textOr_of_ne {value default : String} (nonempty : value ≠ "") :
    textOr (some (.text value)) default = value := by
  rw [textOr, Scalar.truthy, if_pos (decide_eq_true nonempty), Scalar.render]

theorem StoredUnder.sourceOf (under : StoredUnder key path world entry) (nonempty : path ≠ "")
    (base : KnowledgeBase) (filename : String) : base.sourceOf entry filename = path := by
  rw [KnowledgeBase.sourceOf, under.placed, textOr_of_ne nonempty]

theorem StoredUnder.named (under : StoredUnder key path world entry) :
    entry.get? "filename" = some (.text key) :=
  isFor_iff.mp (List.find?_some under.listed)

variable (base : KnowledgeBase) (indexKey : base.names.safeFileIndexKey key = key)
  (nonempty : key ≠ "")
  (inside : Text.startsWith (base.uploadFolder ++ "/") path = true)

include indexKey nonempty inside

theorem downloadIndexedFile_eq (under : StoredUnder key path world entry) :
    base.downloadIndexedFile key world = .ok (path, basename key) world := by
  rw [KnowledgeBase.downloadIndexedFile]
  dsimp only
  rw [indexKey, if_neg nonempty, get_bind, under.listed]
  dsimp only
  rw [under.sourceOf (ne_empty_of_startsWith inside), if_neg (not_not.mpr inside),
    if_neg (not_not.mpr under.present)]
  rfl

theorem deleteIndexedFile_eq (under : StoredUnder key path world entry) :
    ∃ answer next, base.deleteIndexedFile key world = .ok answer next ∧
      answer.filename = key ∧ answer.source = path ∧ answer.fileDeleted = true ∧
        next.entry key = none ∧ next.isFile path = false := by
  have source := under.sourceOf (ne_empty_of_startsWith inside) base key
  have deletes : base.deletesFile path world = true := by
    rw [KnowledgeBase.deletesFile, inside, under.present, Bool.true_and]
  rw [KnowledgeBase.deleteIndexedFile, indexKey, if_neg nonempty, under.listed]
  refine ⟨_, _, rfl, rfl, source, ?_, ?_, ?_⟩
  · rw [source]
    exact deletes
  · rw [entry_removed deleted_entries, if_pos rfl]
  · rw [← Bool.not_eq_true]
    intro kept
    obtain ⟨content, stored⟩ := Option.isSome_iff_exists.mp kept
    obtain ⟨-, apart⟩ := get?_deleted stored
    rw [source] at apart
    exact apart deletes rfl

theorem safeRebuildSourcePath_iff (under : StoredUnder key path world entry) :
    (base.entryFilename entry = key ∧ base.safeRebuildSourcePath entry world = .ok path world) ↔
      pathExtension path ∈ documentUploadExtensions ++ audioUploadExtensions := by
  have named : base.entryFilename entry = key := by
    rw [KnowledgeBase.entryFilename, under.named, textOr_text, indexKey, if_pos nonempty]
  have source := under.sourceOf (ne_empty_of_startsWith inside) base key
  rw [KnowledgeBase.safeRebuildSourcePath, get_bind, named, source,
    if_neg (not_not.mpr inside)]
  by_cases supported : pathExtension path ∈ documentUploadExtensions ++ audioUploadExtensions
  · rw [if_neg (not_not.mpr supported), if_neg (not_not.mpr under.present)]
    exact ⟨fun _ => supported, fun _ => ⟨rfl, rfl⟩⟩
  · rw [if_pos supported]
    constructor
    · rintro ⟨-, impossible⟩
      cases impossible
    · exact fun impossible => absurd impossible supported

omit indexKey nonempty inside in
/-- A knowledge base that holds one upload -/
theorem exists_storedUnder (key path : String) :
    ∃ world entry, StoredUnder key path world entry := by
  have named : Dictionary.get? ((Dictionary.empty.set "filename" (Scalar.text key)).set "path"
      (.text path)) "filename" = some (.text key) := by
    rw [Dictionary.get?_set_of_ne (by decide), Dictionary.get?_set_self]
  refine ⟨⟨Dictionary.empty.set path [], .empty,
    [(Dictionary.empty.set "filename" (.text key)).set "path" (.text path)]⟩, _,
    List.find?_cons_of_pos (isFor_iff.mpr named), Dictionary.get?_set_self .., ?_⟩
  rw [World.isFile, Dictionary.get?_set_self]
  rfl

/-- A document is reachable by its key just if a rebuild supports its extension. -/
theorem reachable_iff :
    Reachable base key path ↔
      pathExtension path ∈ documentUploadExtensions ++ audioUploadExtensions := by
  constructor
  · intro reachable
    obtain ⟨world, entry, under⟩ := exists_storedUnder key path
    exact (safeRebuildSourcePath_iff base indexKey nonempty inside under).mp
      (reachable.rebuilt world entry under)
  · intro supported
    exact ⟨fun world entry under => downloadIndexedFile_eq base indexKey nonempty inside under,
      fun world entry under => deleteIndexedFile_eq base indexKey nonempty inside under,
      fun world entry under =>
        (safeRebuildSourcePath_iff base indexKey nonempty inside under).mpr supported⟩

end

section

variable {secure : SecureFilename} {isAlpha : Char → Bool} {kind : UploadKind}
  {inDefault : Bool} {rawName key : String} {relativePath : Option String}

/-- A recorded upload has an accepted path for a name that is not empty. -/
theorem accepted_of_uploadKey
    (recorded : uploadKey (namesOf secure isAlpha) kind inDefault rawName relativePath = .ok key) :
    secure rawName ≠ "" ∧
      safeRelativeUploadPath (namesOf secure isAlpha) relativePath (secure rawName) = .ok key := by
  rw [uploadKey] at recorded
  obtain ⟨-, -, recorded⟩ := bind_ok recorded
  by_cases unnamed : secure rawName = ""
  · have same : (namesOf secure isAlpha).secureFilename rawName = "" := unnamed
    rw [same, if_pos rfl] at recorded
    cases recorded
  · have same : (namesOf secure isAlpha).secureFilename rawName = secure rawName := rfl
    rw [same, if_neg unnamed] at recorded
    split at recorded
    · cases recorded
    · obtain ⟨found, accepted, recorded⟩ := bind_ok recorded
      obtain ⟨-, -, recorded⟩ := bind_ok recorded
      cases recorded
      exact ⟨unnamed, accepted⟩

/-- The path of an upload is the same key wherever it is cleaned again, and its place is its
own. The upload is downloaded, deleted and rebuilt by its key just if its secure name has an
extension that rebuilds support: a name such as `запись.mp3` loses its extension. -/
theorem uploadKeys_iff (secure : SecureFilename) (isAlpha : Char → Bool) (root : UploadRoot) :
    (∀ relativePath filename key,
      safeRelativeUploadPath (namesOf secure isAlpha) relativePath filename = .ok key →
        KeyStable (namesOf secure isAlpha) root filename key) ∧
    ∀ kind inDefault rawName relativePath key,
      uploadKey (namesOf secure isAlpha) kind inDefault rawName relativePath = .ok key →
        (Reachable ⟨namesOf secure isAlpha, root.path⟩ key (root.path ++ "/" ++ key) ↔
          pathExtension (secure rawName) ∈ documentUploadExtensions ++ audioUploadExtensions) := by
  refine ⟨fun _ _ _ => keyStable root, ?_⟩
  intro kind inDefault rawName relativePath key recorded
  obtain ⟨named, accepted⟩ := accepted_of_uploadKey recorded
  obtain ⟨parts, made, last⟩ := cleanKey_of_accepted accepted
  rw [secure.apply_apply] at last
  have inside := Text.startsWith_append (root.path ++ "/") key
  have reachable := reachable_iff ⟨namesOf secure isAlpha, root.path⟩ made.indexKey made.ne_empty
    inside
  rw [reachable, made.pathExtension root (last named)]

theorem sampleRoot_clean : ∀ part ∈ ["data", "uploads"], CleanPart part := by
  intro part member
  rcases List.mem_cons.mp member with rfl | member
  · exact ⟨by decide, by decide, by decide, by decide⟩
  · rw [List.mem_singleton.mp member]
    exact ⟨by decide, by decide, by decide, by decide⟩

/-- `/data/uploads` -/
def sampleRoot : UploadRoot where
  parts := ["data", "uploads"]
  nonempty := List.cons_ne_nil _ _
  clean := sampleRoot_clean

theorem report_reachable :
    uploadKey (namesOf SecureFilename.sample Char.isAlpha) .file true "Report.pdf"
        (some "archive/Report.pdf") = .ok "archive/Report.pdf" ∧
      (Reachable ⟨namesOf SecureFilename.sample Char.isAlpha, sampleRoot.path⟩
          "archive/Report.pdf" (sampleRoot.path ++ "/" ++ "archive/Report.pdf") ↔
        pathExtension (SecureFilename.sample "Report.pdf") ∈
          documentUploadExtensions ++ audioUploadExtensions) := by
  have recorded : uploadKey (namesOf SecureFilename.sample Char.isAlpha) .file true "Report.pdf"
      (some "archive/Report.pdf") = .ok "archive/Report.pdf" := by
    decide +kernel
  exact ⟨recorded, (uploadKeys_iff SecureFilename.sample Char.isAlpha sampleRoot).2 _ _ _ _ _
    recorded⟩

/-- A recording whose name is left without a dot is stored, and refused by every rebuild. -/
theorem nameless_recording_unreachable :
    uploadKey (namesOf SecureFilename.sample Char.isAlpha) .audio true "запись.mp3" none =
        .ok "mp3" ∧
      ¬Reachable ⟨namesOf SecureFilename.sample Char.isAlpha, sampleRoot.path⟩ "mp3"
        (sampleRoot.path ++ "/" ++ "mp3") := by
  have recorded : uploadKey (namesOf SecureFilename.sample Char.isAlpha) .audio true
      "запись.mp3" none = .ok "mp3" := by
    decide +kernel
  refine ⟨recorded, fun reachable => ?_⟩
  have unsupported : pathExtension (sampleRoot.path ++ "/" ++ "mp3") ∉
      documentUploadExtensions ++ audioUploadExtensions := by
    decide +kernel
  have indexKey : (namesOf SecureFilename.sample Char.isAlpha).safeFileIndexKey "mp3" = "mp3" := by
    decide +kernel
  have inside := Text.startsWith_append (sampleRoot.path ++ "/") "mp3"
  exact unsupported ((reachable_iff ⟨namesOf SecureFilename.sample Char.isAlpha, sampleRoot.path⟩
    indexKey (by decide) inside).mp reachable)

end

end RAGuardian.Documents
