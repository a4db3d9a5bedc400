import RAGuardian.Foundation.Dictionary
import RAGuardian.Foundation.Text

/-! # A folder with links

A folder of files and symbolic links, and what the paths that start in it lead to. A path
may leave the folder, and then the rest of the file system decides. -/

namespace RAGuardian

variable {Content : Type}

inductive FolderEntry (Content : Type)
  | file (content : Content)
  | link (target : String)

/-- A folder at a fixed place, given by the names on the way from the root, and its
entries in the order in which they are listed. -/
structure Folder (Content : Type) where
  place : List String
  entries : Dictionary String (FolderEntry Content)
  plain : ∀ name ∈ entries.keys, '/' ∉ name.toList

inductive PathError
  | noEntry
  | notDirectory
  | isDirectory
  | nameTooLong
  | tooManyLinks
deriving DecidableEq, Repr

/-- Where a path leads: to a file of the folder, nowhere, or out of the folder by some
path from the root. -/
inductive Lead (Content : Type)
  | file (content : Content)
  | error (error : PathError)
  | outside (path : List String)

namespace Folder

def parts (path : String) : List String :=
  (path.toList.splitOn '/').map String.ofList

/-- Follow the parts of a path from the folder, or from one of those that contain it, which
`depth` counts from the root. A link is left to `next`. -/
def walk (folder : Folder Content) (next : Nat → List String → Lead Content) :
    Nat → List String → Lead Content
  | _, [] => .error .isDirectory
  | depth, part :: rest =>
      if part = "" ∨ part = "." then walk folder next depth rest
      else if part = ".." then walk folder next (depth - 1) rest
      else if depth < folder.place.length then
        if folder.place[depth]? = some part then walk folder next (depth + 1) rest
        else .outside (folder.place.take depth ++ part :: rest)
      else if 255 < part.utf8ByteSize then .error .nameTooLong
      else
        match folder.entries.get? part with
        | none => .error .noEntry
        | some (.file content) => if rest = [] then .file content else .error .notDirectory
        | some (.link target) =>
            next (if Text.startsWith "/" target then 0 else folder.place.length)
              (parts target ++ rest)

/-- Follow a path over at most so many links. -/
def follow (folder : Folder Content) : Nat → Nat → List String → Lead Content
  | 0, _, _ => .error .tooManyLinks
  | links + 1, depth, path => folder.walk (folder.follow links) depth path

/-- Where a path from the folder leads, over at most forty links. -/
def lead (folder : Folder Content) (path : String) : Lead Content :=
  folder.follow 41 folder.place.length (parts path)

end Folder

/-- What is found at the end of a path: a file, nothing, or something that cannot be
opened; with the error of opening it. -/
inductive Found (Content : Type)
  | file (content : Content)
  | missing (error : String)
  | failing (error : String)

/-- What else is on a host: what the paths out of a folder lead to. -/
abbrev Host (Content : Type) := List String → Found Content

/-- The result of a program that reads a folder does not depend on the host. -/
def Independent {Result : Type} (program : Host Content → Result) : Prop :=
  ∀ host other, program host = program other

section

variable (folder : Folder Content) (errorText : PathError → String → String)

/-- What is found at a path from the folder. Only a directory and a name that is too long
are errors for a check that it exists. -/
def Folder.find (host : Host Content) (path : String) : Found Content :=
  match folder.lead path with
  | .file content => .file content
  | .error .isDirectory => .failing (errorText .isDirectory path)
  | .error .nameTooLong => .failing (errorText .nameTooLong path)
  | .error error => .missing (errorText error path)
  | .outside path => host path

/-- The path leads out of the folder. -/
def Folder.Leaves (path : String) : Prop :=
  ∃ outside, folder.lead path = .outside outside

variable {folder errorText}

theorem Folder.find_of_stays {path : String} (stays : ¬ folder.Leaves path)
    (host other : Host Content) :
    folder.find errorText host path = folder.find errorText other path := by
  rw [find, find]
  cases destination : folder.lead path with
  | file content => rfl
  | error error => cases error <;> rfl
  | outside outside => exact absurd ⟨outside, destination⟩ stays

theorem Folder.find_of_leaves {path : String} (leaves : folder.Leaves path)
    (found : Found Content) : folder.find errorText (fun _ => found) path = found := by
  obtain ⟨outside, destination⟩ := leaves
  rw [find, destination]

/-- Where a name without a slash leads. -/
theorem Folder.lead_name {name : String} (simple : '/' ∉ name.toList) :
    folder.lead name =
      if name = "" ∨ name = "." ∨ name = ".." then .error .isDirectory
      else if 255 < name.utf8ByteSize then .error .nameTooLong
      else
        match folder.entries.get? name with
        | none => .error .noEntry
        | some (.file content) => .file content
        | some (.link target) =>
            folder.follow 40 (if Text.startsWith "/" target then 0 else folder.place.length)
              (parts target ++ []) := by
  have single : parts name = [name] := by
    rw [parts, List.splitOn_eq_singleton simple]
    exact congrArg (fun text => [text]) String.ofList_toList
  rw [lead, single, follow, walk]
  by_cases here : name = "" ∨ name = "."
  · have directory : name = "" ∨ name = "." ∨ name = ".." :=
      here.elim .inl fun dot => .inr (.inl dot)
    rw [if_pos here, if_pos directory, walk]
  · rw [if_neg here]
    by_cases above : name = ".."
    · rw [if_pos above, if_pos (.inr (.inr above)), walk]
    · have named : ¬ (name = "" ∨ name = "." ∨ name = "..") := by
        rintro (empty | dot | dots)
        · exact here (.inl empty)
        · exact here (.inr dot)
        · exact above dots
      rw [if_neg above, if_neg (lt_irrefl _), if_neg named]
      split
      · rfl
      · cases folder.entries.get? name with
        | none => rfl
        | some entry => cases entry <;> rfl

end

end RAGuardian
