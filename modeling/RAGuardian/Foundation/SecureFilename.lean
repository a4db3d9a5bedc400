import RAGuardian.Foundation.Text

/-! # Secure file names

What `werkzeug.utils.secure_filename` promises of the names it returns. -/

namespace RAGuardian

/-- `[A-Za-z0-9_.-]` -/
def isFilenameCharacter (character : Char) : Bool :=
  character.isAlphanum || character ∈ ['.', '_', '-']

structure SecureFilename where
  /-- `secure_filename(name)` -/
  apply : String → String
  characters : ∀ name, ∀ character ∈ (apply name).toList, isFilenameCharacter character = true
  apply_apply : ∀ name, apply (apply name) = apply name
  not_dot : ∀ name, apply name ≠ "."
  not_dots : ∀ name, apply name ≠ ".."

namespace SecureFilename

instance : CoeFun SecureFilename fun _ => String → String :=
  ⟨apply⟩

/-! ## Names in ASCII -/

/-- Dots and underscores, which no name begins or ends with -/
def isEdge (character : Char) : Bool :=
  character == '.' || character == '_'

/-- The name that is left of one in ASCII without white space -/
def ascii (name : String) : String :=
  String.ofList (Text.stripList isEdge (name.toList.filter isFilenameCharacter))

theorem ascii_characters (name : String) :
    ∀ character ∈ (ascii name).toList, isFilenameCharacter character = true := by
  intro character member
  rw [ascii, String.toList_ofList] at member
  exact (List.mem_filter.mp (Text.mem_of_mem_stripList member)).2

theorem ascii_ascii (name : String) : ascii (ascii name) = ascii name := by
  have kept : (ascii name).toList.filter isFilenameCharacter = (ascii name).toList :=
    List.filter_eq_self.mpr (ascii_characters name)
  have stripped : Text.stripList isEdge (ascii name).toList = (ascii name).toList := by
    rw [ascii, String.toList_ofList, Text.stripList_stripList]
  rw [ascii, kept, stripped, String.ofList_toList]

theorem ascii_ne_edge {name edge : String} {character : Char} {rest : List Char}
    (starts : edge.toList = character :: rest) (dropped : isEdge character = true) :
    ascii name ≠ edge := by
  rintro rfl
  rw [ascii, String.toList_ofList] at starts
  have kept := Text.stripList_head starts
  rw [dropped] at kept
  cases kept

theorem ascii_ne_dot (name : String) : ascii name ≠ "." :=
  ascii_ne_edge rfl rfl

theorem ascii_ne_dots (name : String) : ascii name ≠ ".." :=
  ascii_ne_edge rfl rfl

def sample : SecureFilename where
  apply := ascii
  characters := ascii_characters
  apply_apply := ascii_ascii
  not_dot := ascii_ne_dot
  not_dots := ascii_ne_dots

end SecureFilename

end RAGuardian
