import RAGuardian.Interpreter.Confinement

/-! # Copies of regular outputs

What becomes of each image when a run leaves only regular files. The order of the images
matters only for where an error ends the loops. -/

namespace RAGuardian.Interpreter

open Json (Value)

/-- Every entry is a file, and its name is none that a directory could not hold. -/
structure Regular (folder : Folder (List UInt8)) : Prop where
  solid : ∀ name target, folder.entries.get? name ≠ some (.link target)
  short : ∀ name ∈ folder.entries.keys, name.utf8ByteSize ≤ 255

/-- A name that leads to the directory itself or to the one above, or one that is too long. -/
def Unreadable (name : String) : Prop :=
  (name = "" ∨ name = "." ∨ name = "..") ∨ 255 < name.utf8ByteSize

instance (name : String) : Decidable (Unreadable name) :=
  inferInstanceAs (Decidable (_ ∨ _))

/-- What becomes of an image: an error, nothing, or a copy of that name. -/
inductive Fate
  | failing
  | absent
  | copied (name : String)
deriving DecidableEq, Repr

section

variable (library : Library) (runId : String) (folder : Folder (List UInt8))

/-- The name of a copy that can be written. -/
def savedAs (name : String) : Fate :=
  if (library.saveError (runId ++ "_" ++ name)).isSome then .failing else .copied name

def Image.fate : Image → Fate
  | .named (.str reference) =>
      let name := sanitizeFilename (String.ofList (Ingestion.pathName reference))
      if Unreadable name then .failing
      else if name ∈ folder.entries.keys then savedAs library runId name
      else .absent
  | .named _ => .failing
  | .scanned name =>
      if sanitizeFilename name = "" then .absent
      else savedAs library runId (sanitizeFilename name)

/-- A file found by its suffix is one of the folder. -/
def Image.Listed : Image → Prop
  | .named _ => True
  | .scanned name => name ∈ folder.entries.keys ∧ ".png".toList.isSuffixOf name.toList = true

/-- A copy of that name was made, or could be. -/
structure Sound (name : String) : Prop where
  readable : ¬ Unreadable name
  saved : library.saveError (runId ++ "_" ++ name) = none

end

variable {library : Library} {runId : String} {folder : Folder (List UInt8)}

theorem wantedImages_listed {references : List Value} {image : Image}
    (member : image ∈ wantedImages folder references) : image.Listed folder := by
  rcases List.mem_append.mp member with named | scanned
  · obtain ⟨reference, -, rfl⟩ := List.mem_map.mp named
    trivial
  · obtain ⟨entry, listed, rfl⟩ := List.mem_map.mp scanned
    exact ⟨List.mem_of_mem_filter listed, (List.mem_filter.mp listed).2⟩

/-! ## Names of copies -/

theorem utf8ByteSize_filter_le (test : Char → Bool) (characters : List Char) :
    (String.ofList (characters.filter test)).utf8ByteSize ≤
      (String.ofList characters).utf8ByteSize := by
  induction characters with
  | nil => simp
  | cons character rest induction =>
      rw [List.filter_cons]
      split
      · simp only [String.ofList_cons, String.utf8ByteSize_append]
        omega
      · simp only [String.ofList_cons, String.utf8ByteSize_append]
        omega

theorem sanitizeFilename_size_le (name : String) :
    (sanitizeFilename name).utf8ByteSize ≤ name.utf8ByteSize := by
  have shorter := utf8ByteSize_filter_le
    (fun character => character.isAlphanum || character ∈ ['.', '_', '-']) name.toList
  rwa [String.ofList_toList] at shorter

/-- The filter keeps the suffix of a picture. -/
theorem sanitizeFilename_suffix {name : String}
    (suffix : ".png".toList.isSuffixOf name.toList = true) :
    ".png".toList.isSuffixOf (sanitizeFilename name).toList = true := by
  have filtered : (sanitizeFilename name).toList = name.toList.filter fun character =>
      character.isAlphanum || character ∈ ['.', '_', '-'] := String.toList_ofList
  have whole : (".png".toList.filter fun character =>
      character.isAlphanum || character ∈ ['.', '_', '-']) = ".png".toList := by
    decide
  rw [List.isSuffixOf_iff_suffix] at suffix ⊢
  rw [filtered, ← whole]
  exact suffix.filter _

theorem sanitizeFilename_readable {name : String} (short : name.utf8ByteSize ≤ 255)
    (suffix : ".png".toList.isSuffixOf name.toList = true) :
    ¬ Unreadable (sanitizeFilename name) := by
  have ends := (List.isSuffixOf_iff_suffix.mp (sanitizeFilename_suffix suffix)).length_le
  rintro ((empty | dot | dots) | long)
  · rw [empty] at ends
    exact absurd ends (by decide)
  · rw [dot] at ends
    exact absurd ends (by decide)
  · rw [dots] at ends
    exact absurd ends (by decide)
  · have bound := sanitizeFilename_size_le name
    omega

theorem savedAs_cases (library : Library) (runId name : String) :
    (savedAs library runId name = .failing ∧
      ∃ error, library.saveError (runId ++ "_" ++ name) = some error) ∨
    (savedAs library runId name = .copied name ∧
      library.saveError (runId ++ "_" ++ name) = none) := by
  unfold savedAs
  cases library.saveError (runId ++ "_" ++ name) with
  | none => exact .inr ⟨rfl, rfl⟩
  | some error => exact .inl ⟨rfl, error, rfl⟩

/-! ## One image -/

theorem find_failing (library : Library) (folder : Folder (List UInt8))
    (host : Host (List UInt8)) {name : String} (simple : '/' ∉ name.toList)
    (unreadable : Unreadable name) :
    ∃ error, folder.find library.openError host name = .failing error := by
  rw [Folder.find, Folder.lead_name simple]
  by_cases special : name = "" ∨ name = "." ∨ name = ".."
  · exact ⟨_, by rw [if_pos special]⟩
  · exact ⟨_, by rw [if_neg special, if_pos (unreadable.resolve_left special)]⟩

theorem find_file (library : Library) (regular : Regular folder) (host : Host (List UInt8))
    {name : String} (simple : '/' ∉ name.toList) (readable : ¬ Unreadable name)
    (stored : name ∈ folder.entries.keys) :
    ∃ content, folder.find library.openError host name = .file content := by
  obtain ⟨special, short⟩ := not_or.mp readable
  obtain ⟨entry, found⟩ := Dictionary.mem_keys.mp stored
  rw [Folder.find, Folder.lead_name simple, if_neg special, if_neg short, found]
  cases entry with
  | file content => exact ⟨content, rfl⟩
  | link target => exact absurd found (regular.solid name target)

theorem find_missing (library : Library) (folder : Folder (List UInt8))
    (host : Host (List UInt8)) {name : String} (simple : '/' ∉ name.toList)
    (readable : ¬ Unreadable name) (unknown : name ∉ folder.entries.keys) :
    ∃ error, folder.find library.openError host name = .missing error := by
  obtain ⟨special, short⟩ := not_or.mp readable
  rw [Folder.find, Folder.lead_name simple, if_neg special, if_neg short]
  cases found : folder.entries.get? name with
  | none => exact ⟨_, rfl⟩
  | some entry => exact absurd (Dictionary.mem_keys.mpr ⟨entry, found⟩) unknown

/-- A copy under a new name: it is written unless the name cannot be saved. -/
theorem copyImage_new {image : Image} {copies : Copies} {path name : String}
    (source : image.source library = .ok (path, name))
    (unskipped : image.skipped copies name = false) {host : Host (List UInt8)}
    {content : List UInt8} (found : folder.find library.openError host path = .file content) :
    copyImage library runId folder host image copies =
      match library.saveError (runId ++ "_" ++ name) with
      | some error => (copies, some error)
      | none => (copies ++ [(name, content)], none) := by
  rw [copyImage, source]
  simp only [unskipped, found]
  rfl

/-! ## One round -/

/-- What a round returns for an image of that fate. -/
def Fate.Round (library : Library) (runId : String) (copies : Copies)
    (round : Copies × Option String) : Fate → Prop
  | .failing => ∃ error, round = (copies, some error)
  | .absent => round = (copies, none)
  | .copied name => Sound library runId name ∧
      ((name ∈ copies.map Prod.fst ∧ round = (copies, none)) ∨
        (name ∉ copies.map Prod.fst ∧ ∃ content, round = (copies ++ [(name, content)], none)))

section

variable {image : Image} {copies : Copies}

/-- A file that is there is skipped, or copied if the copy can be saved. -/
theorem savedAs_round {path name : String} (source : image.source library = .ok (path, name))
    (readable : ¬ Unreadable name) {host : Host (List UInt8)} {content : List UInt8}
    (found : folder.find library.openError host path = .file content)
    (sound : ∀ other ∈ copies.map Prod.fst, Sound library runId other)
    (skipped : image.skipped copies name = decide (name ∈ copies.map Prod.fst)) :
    (savedAs library runId name).Round library runId copies
      (copyImage library runId folder host image copies) := by
  by_cases known : name ∈ copies.map Prod.fst
  · have idle : copyImage library runId folder host image copies = (copies, none) := by
      rw [copyImage, source]
      simp only [skipped, known, decide_true]
      rfl
    rw [savedAs, (sound name known).saved]
    exact ⟨sound name known, .inl ⟨known, idle⟩⟩
  · have written : copyImage library runId folder host image copies = _ :=
      copyImage_new source (skipped.trans (decide_eq_false known)) found
    rcases savedAs_cases library runId name with ⟨failed, error, raised⟩ | ⟨copied, saved⟩
    · rw [raised] at written
      rw [failed]
      exact ⟨error, written⟩
    · rw [saved] at written
      rw [copied]
      exact ⟨⟨readable, saved⟩, .inr ⟨known, content, written⟩⟩

/-- The round of an image that the result names. -/
theorem copyImage_named (regular : Regular folder) (host : Host (List UInt8)) (reference : Value)
    (sound : ∀ other ∈ copies.map Prod.fst, Sound library runId other) :
    ((Image.named reference).fate library runId folder).Round library runId copies
      (copyImage library runId folder host (.named reference) copies) := by
  cases reference with
  | str reference =>
      have simple := slash_not_mem_sanitizeFilename (String.ofList (Ingestion.pathName reference))
      have source : (Image.named (.str reference)).source library =
          .ok (sanitizeFilename (String.ofList (Ingestion.pathName reference)),
            sanitizeFilename (String.ofList (Ingestion.pathName reference))) := rfl
      rw [Image.fate]
      generalize sanitizeFilename (String.ofList (Ingestion.pathName reference)) = name
        at simple source ⊢
      by_cases unreadable : Unreadable name
      · obtain ⟨error, failed⟩ := find_failing library folder host simple unreadable
        have unknown : name ∉ copies.map Prod.fst := fun known =>
          (sound name known).readable unreadable
        rw [if_pos unreadable]
        refine ⟨error, ?_⟩
        rw [copyImage, source]
        simp [Image.skipped, unknown, failed]
      · rw [if_neg unreadable]
        by_cases stored : name ∈ folder.entries.keys
        · obtain ⟨content, found⟩ := find_file library regular host simple unreadable stored
          rw [if_pos stored]
          exact savedAs_round source unreadable found sound (Bool.or_false _)
        · obtain ⟨error, missing⟩ := find_missing library folder host simple unreadable stored
          rw [if_neg stored, Fate.Round, copyImage, source]
          simp only [missing]
          split
          · rfl
          · rfl
  | _ => exact ⟨_, rfl⟩

/-- The round of a picture found by its suffix. -/
theorem copyImage_scanned (regular : Regular folder) (host : Host (List UInt8)) {name : String}
    (listed : (Image.scanned name).Listed folder)
    (sound : ∀ other ∈ copies.map Prod.fst, Sound library runId other) :
    ((Image.scanned name).fate library runId folder).Round library runId copies
      (copyImage library runId folder host (.scanned name) copies) := by
  obtain ⟨stored, suffix⟩ := listed
  have short := regular.short name stored
  have long := (List.isSuffixOf_iff_suffix.mp suffix).length_le
  have itself : ¬ Unreadable name := by
    rintro ((rfl | rfl | rfl) | longer)
    · exact absurd long (by decide)
    · exact absurd long (by decide)
    · exact absurd long (by decide)
    · omega
  obtain ⟨content, found⟩ := find_file library regular host (folder.plain name stored) itself stored
  have readable := sanitizeFilename_readable short suffix
  have named : sanitizeFilename name ≠ "" := fun empty => readable (.inl (.inl empty))
  rw [Image.fate, if_neg named]
  exact savedAs_round rfl readable found sound (by simp [Image.skipped, named])

theorem copyImage_round (regular : Regular folder) (host : Host (List UInt8))
    (listed : image.Listed folder)
    (sound : ∀ other ∈ copies.map Prod.fst, Sound library runId other) :
    (image.fate library runId folder).Round library runId copies
      (copyImage library runId folder host image copies) := by
  cases image with
  | named reference => exact copyImage_named regular host reference sound
  | scanned name => exact copyImage_scanned regular host listed sound

end

/-! ## The loops -/

/-- The copies have different names, and each of them was saved. -/
structure Saved (library : Library) (runId : String) (copies : Copies) : Prop where
  distinct : (copies.map Prod.fst).Nodup
  sound : ∀ name ∈ copies.map Prod.fst, Sound library runId name

theorem Saved.empty : Saved library runId [] where
  distinct := List.nodup_nil
  sound := by simp

theorem Saved.append {copies : Copies} (saved : Saved library runId copies) {name : String}
    (sound : Sound library runId name) (unknown : name ∉ copies.map Prod.fst)
    (content : List UInt8) : Saved library runId (copies ++ [(name, content)]) where
  distinct := by
    rw [List.map_append, List.nodup_append]
    refine ⟨saved.distinct, List.nodup_singleton name, ?_⟩
    rintro other member _ appended rfl
    rw [List.mem_singleton.mp appended] at member
    exact unknown member
  sound := by
    intro other member
    rw [List.map_append, List.mem_append] at member
    rcases member with earlier | appended
    · exact saved.sound other earlier
    · rw [List.mem_singleton.mp appended]
      exact sound

section

variable (library) (runId) (folder)

/-- What becomes of the images. -/
def fates (images : List Image) : List Fate :=
  images.map (Image.fate library runId folder)

end

/-- Without an error the loops copy every image that is there, each name once. -/
theorem copyImages_ok (regular : Regular folder) (host : Host (List UInt8))
    {images : List Image} (listed : ∀ image ∈ images, image.Listed folder)
    (succeed : Fate.failing ∉ fates library runId folder images) {copies : Copies}
    (saved : Saved library runId copies) :
    ∃ reached, copyImages library runId folder host images copies = (reached, none) ∧
      Saved library runId reached ∧
      ∀ name, name ∈ reached.map Prod.fst ↔
        name ∈ copies.map Prod.fst ∨ Fate.copied name ∈ fates library runId folder images := by
  induction images generalizing copies with
  | nil => exact ⟨copies, rfl, saved, by simp [fates]⟩
  | cons image rest induction =>
      obtain ⟨here, later⟩ := List.forall_mem_cons.mp listed
      have round := copyImage_round regular host here saved.sound
      rw [fates, List.map_cons, List.mem_cons, not_or] at succeed
      cases fate : image.fate library runId folder with
      | failing => exact absurd fate.symm succeed.1
      | absent =>
          rw [fate] at round
          obtain ⟨reached, copied, kept, names⟩ := induction later succeed.2 saved
          refine ⟨reached, ?_, kept, ?_⟩
          · rw [copyImages, show copyImage library runId folder host image copies = _ from round]
            exact copied
          · intro name
            rw [names, fates, fates, List.map_cons, fate, List.mem_cons]
            simp
      | copied added =>
          rw [fate] at round
          rcases round with ⟨sound, ⟨known, idle⟩ | ⟨unknown, content, written⟩⟩
          · obtain ⟨reached, copied, kept, names⟩ := induction later succeed.2 saved
            refine ⟨reached, ?_, kept, ?_⟩
            · rw [copyImages, idle]
              exact copied
            · intro name
              rw [names, fates, fates, List.map_cons, fate, List.mem_cons, Fate.copied.injEq]
              constructor
              · rintro (earlier | copied)
                · exact .inl earlier
                · exact .inr (.inr copied)
              · rintro (earlier | rfl | copied)
                · exact .inl earlier
                · exact .inl known
                · exact .inr copied
          · obtain ⟨reached, copied, kept, names⟩ := induction later succeed.2
              (saved.append sound unknown content)
            refine ⟨reached, ?_, kept, ?_⟩
            · rw [copyImages, written]
              exact copied
            · intro name
              rw [names, fates, fates, List.map_cons, fate, List.mem_cons, Fate.copied.injEq,
                List.map_append, List.mem_append, List.map_singleton, List.mem_singleton, or_assoc]

/-- The first image that is not absent is an error. -/
def StopsAtOnce (fates : List Fate) : Prop :=
  fates.find? (· ≠ .absent) = some .failing

instance (fates : List Fate) : Decidable (StopsAtOnce fates) :=
  inferInstanceAs (Decidable (_ = _))

/-- With an error the loops end, and nothing was copied only if it came first. -/
theorem copyImages_failing (regular : Regular folder) (host : Host (List UInt8))
    {images : List Image} (listed : ∀ image ∈ images, image.Listed folder)
    (fails : Fate.failing ∈ fates library runId folder images) {copies : Copies}
    (saved : Saved library runId copies) :
    ∃ reached error, copyImages library runId folder host images copies = (reached, some error) ∧
      (reached = [] ↔ copies = [] ∧ StopsAtOnce (fates library runId folder images)) := by
  induction images generalizing copies with
  | nil => cases fails
  | cons image rest induction =>
      obtain ⟨here, later⟩ := List.forall_mem_cons.mp listed
      have round := copyImage_round regular host here saved.sound
      rw [fates, List.map_cons, List.mem_cons] at fails
      cases fate : image.fate library runId folder with
      | failing =>
          rw [fate] at round
          obtain ⟨error, raised⟩ := round
          refine ⟨copies, error, by rw [copyImages, raised], ?_⟩
          simp [StopsAtOnce, fates, fate]
      | absent =>
          rw [fate] at round fails
          obtain ⟨reached, error, raised, nothing⟩ := induction later
            (fails.resolve_left Fate.noConfusion) saved
          refine ⟨reached, error, ?_, ?_⟩
          · rw [copyImages, show copyImage library runId folder host image copies = _ from round]
            exact raised
          · rw [nothing]
            simp [StopsAtOnce, fates, fate]
      | copied added =>
          rw [fate] at round fails
          have goesOn : ¬ StopsAtOnce (fates library runId folder (image :: rest)) := by
            simp [StopsAtOnce, fates, fate]
          rcases round with ⟨sound, ⟨known, idle⟩ | ⟨unknown, content, written⟩⟩
          · obtain ⟨reached, error, raised, nothing⟩ := induction later
              (fails.resolve_left Fate.noConfusion) saved
            refine ⟨reached, error, by rw [copyImages, idle]; exact raised, ?_⟩
            have some : copies ≠ [] := by
              rintro rfl
              cases known
            simp [nothing, goesOn, some]
          · obtain ⟨reached, error, raised, nothing⟩ := induction later
              (fails.resolve_left Fate.noConfusion) (saved.append sound unknown content)
            refine ⟨reached, error, by rw [copyImages, written]; exact raised, ?_⟩
            simp [nothing, goesOn]

end RAGuardian.Interpreter
