import Mathlib.Data.List.Infix

/-! # The check of generated code

`check_code_safety`: a walk through the syntax tree of a program that notes the imports and calls
which are not allowed. -/

namespace RAGuardian.Interpreter

/-! ## Syntax trees -/

/-- `ast.alias`: what is imported, and the name it is given. -/
structure Alias where
  name : String
  asname : Option String := none
deriving DecidableEq, Repr

/-- A node of a syntax tree. Those the check does not look at only have their children. -/
inductive Node
  | importNames (names : List Alias)
  | importFrom (module : Option String) (names : List Alias) (level : Nat)
  | call (func : Node) (arguments : List Node)
  | attributeOf (value : Node) (attr : String)
  | name (id : String)
  | other (children : List Node)

namespace Node

/-- `ast.iter_child_nodes` -/
def children : Node → List Node
  | .importNames _ | .importFrom .. | .name _ => []
  | .call func arguments => func :: arguments
  | .attributeOf value _ => [value]
  | .other children => children

theorem sizeOf_append (left right : List Node) :
    sizeOf (left ++ right) + 1 = sizeOf left + sizeOf right := by
  induction left with
  | nil =>
      simp
      omega
  | cons node left induction =>
      simp only [List.cons_append, List.cons.sizeOf_spec]
      omega

theorem sizeOf_children (node : Node) : sizeOf node.children ≤ sizeOf node + 1 := by
  cases node <;> simp [children]
  omega

end Node

/-- `ast.walk`: breadth first, from the nodes that wait. -/
def walk : List Node → List Node
  | [] => []
  | node :: todo => node :: walk (todo ++ node.children)
termination_by todo => sizeOf todo
decreasing_by
  have joined := Node.sizeOf_append todo node.children
  have smaller := node.sizeOf_children
  simp only [List.cons.sizeOf_spec]
  omega

/-- A node is part of a tree, at any depth. -/
inductive Within (node : Node) : Node → Prop
  | root : Within node node
  | inside {tree child : Node} (member : child ∈ tree.children) (within : Within node child) :
      Within node tree

theorem mem_walk {node : Node} {todo : List Node} :
    node ∈ walk todo ↔ ∃ tree ∈ todo, Within node tree := by
  induction todo using walk.induct with
  | case1 => simp [walk]
  | case2 first todo induction =>
      rw [walk, List.mem_cons, induction]
      constructor
      · rintro (rfl | ⟨tree, member, within⟩)
        · exact ⟨node, List.mem_cons_self, .root⟩
        · rcases List.mem_append.mp member with waiting | child
          · exact ⟨tree, List.mem_cons_of_mem _ waiting, within⟩
          · exact ⟨first, List.mem_cons_self, .inside child within⟩
      · rintro ⟨tree, member, within⟩
        rcases List.mem_cons.mp member with rfl | waiting
        · cases within with
          | root => exact .inl rfl
          | inside child within => exact .inr ⟨_, List.mem_append_right _ child, within⟩
        · exact .inr ⟨tree, List.mem_append_left _ waiting, within⟩

/-! ## The check -/

/-- `ALLOWED_IMPORTS` -/
def allowedImports : List String :=
  ["pandas", "numpy", "matplotlib", "matplotlib.pyplot", "matplotlib.figure",
    "scipy", "scipy.stats", "scipy.sparse", "seaborn",
    "json", "csv", "math", "statistics", "datetime",
    "collections", "typing", "itertools", "functools",
    "io", "re", "os", "warnings", "base64", "hashlib"]

/-- `FORBIDDEN_PATTERNS` -/
def forbiddenPatterns : List String :=
  ["__import__", "exec(", "eval(", "compile(",
    "subprocess", "socket", "requests.", "urllib",
    "os.system", "os.popen", "os.remove", "os.unlink",
    "shutil", "ctypes", "mmap", "pickle", "_pickle",
    "marshal", "site", "sys.modules", "importlib"]

/-- `DANGEROUS_CALL_NAMES` -/
def dangerousCallNames : List String :=
  ["system", "popen", "remove", "unlink", "rmdir", "removedirs",
    "rename", "renames", "replace", "spawnl", "spawnle", "spawnlp",
    "spawnlpe", "spawnv", "spawnve", "spawnvp", "spawnvpe"]

/-- `name.split(".")[0]` -/
def topLevel (name : String) : String :=
  String.ofList (name.toList.takeWhile (· ≠ '.'))

/-- `ALLOWED_TOP_LEVEL_IMPORTS` -/
def allowedTopLevelImports : List String :=
  allowedImports.map topLevel

/-- The issues so far, and the names that dangerous functions were imported under -/
structure Findings where
  issues : List String
  importedDangerousNames : List String

/-- The name an import gives -/
def Alias.bound (entry : Alias) : String :=
  entry.asname.getD entry.name

def notAllowed (what : String) : String :=
  what ++ " non consentito"

/-- The loop of `check_code_safety`, for one node -/
def visit (findings : Findings) : Node → Findings
  | .importNames names =>
      { findings with
        issues := findings.issues ++
          (names.filter fun entry => topLevel entry.name ∉ allowedTopLevelImports).map fun entry =>
            notAllowed ("import " ++ entry.name) }
  | .importFrom module names _ =>
      let top := topLevel (module.getD "")
      let outside :=
        if top ∈ allowedTopLevelImports then [] else [notAllowed ("import da " ++ module.getD "")]
      let dangerous := if top = "os" then names.filter (·.name ∈ dangerousCallNames) else []
      { issues := findings.issues ++ outside ++
          dangerous.map fun entry => notAllowed ("os." ++ entry.name)
        importedDangerousNames :=
          findings.importedDangerousNames ++ dangerous.map Alias.bound }
  | .call (.attributeOf (.name id) attr) _ =>
      if id = "os" ∧ attr ∈ dangerousCallNames then
        { findings with issues := findings.issues ++ [notAllowed ("os." ++ attr)] }
      else findings
  | .call (.name id) _ =>
      if id ∈ findings.importedDangerousNames then
        { findings with issues := findings.issues ++ [notAllowed id] }
      else findings
  | _ => findings

/-- `pattern in code` -/
def occursIn (pattern code : String) : Bool :=
  decide (pattern.toList <:+: code.toList)

/-- `check_code_safety`, with what `ast.parse` makes of the code: its tree, or the message of a
syntax error. -/
def checkCodeSafety (code : String) (parsed : Except String Node) : List String :=
  match parsed with
  | .error message => ["Codice Python non valido: " ++ message]
  | .ok tree =>
      let patterns := (forbiddenPatterns.filter fun pattern => occursIn pattern code).map
        ("Pattern proibito: " ++ ·)
      ((walk [tree]).foldl visit ⟨patterns, []⟩).issues

/-! ## Safety -/

/-- Every import names modules that are allowed. -/
def ImportsAllowed (tree : Node) : Prop :=
  (∀ names, Within (.importNames names) tree →
    ∀ entry ∈ names, topLevel entry.name ∈ allowedTopLevelImports) ∧
  ∀ module names level, Within (.importFrom module names level) tree →
    topLevel (module.getD "") ∈ allowedTopLevelImports

/-- An import gives the module `os` a name: `import os`, `import os.path` or `import os as id`. -/
inductive BindsOs (tree : Node) : String → Prop
  | plain {names : List Alias} {entry : Alias} (within : Within (.importNames names) tree)
      (member : entry ∈ names) (unnamed : entry.asname = none) (os : topLevel entry.name = "os") :
      BindsOs tree "os"
  | named {names : List Alias} {id : String} (within : Within (.importNames names) tree)
      (member : ⟨"os", some id⟩ ∈ names) : BindsOs tree id

/-- A callee is a function of `os`, by the names the imports give. -/
inductive Denotes (tree : Node) : Node → String → Prop
  | ofModule {id f : String} (binds : BindsOs tree id) : Denotes tree (.attributeOf (.name id) f) f
  | imported {names : List Alias} {entry : Alias}
      (within : Within (.importFrom (some "os") names 0) tree) (member : entry ∈ names) :
      Denotes tree (.name entry.bound) entry.name
  | star {names : List Alias} {entry : Alias} {f : String}
      (within : Within (.importFrom (some "os") names 0) tree) (member : entry ∈ names)
      (all : entry.name = "*") : Denotes tree (.name f) f

/-- The code imports what is allowed, and calls no dangerous function of `os`. -/
def Safe (tree : Node) : Prop :=
  ImportsAllowed tree ∧ ∀ func arguments, Within (.call func arguments) tree →
    ∀ f ∈ dangerousCallNames, ¬Denotes tree func f

/-- A dangerous function is called through another name of `os`. -/
def CallsThroughAlias (tree : Node) : Prop :=
  ∃ names id f arguments, Within (.importNames names) tree ∧ (⟨"os", some id⟩ : Alias) ∈ names ∧
    id ≠ "os" ∧ f ∈ dangerousCallNames ∧
      Within (.call (.attributeOf (.name id) f) arguments) tree

/-- A dangerous function is called by a name that everything in `os` is imported with. -/
def CallsThroughStar (tree : Node) : Prop :=
  ∃ names entry f arguments, Within (.importFrom (some "os") names 0) tree ∧ entry ∈ names ∧
    Alias.name entry = "*" ∧ f ∈ dangerousCallNames ∧ Within (.call (.name f) arguments) tree

/-! ## What the check finds -/

/-- The issues of a node alone, without regard to the names of earlier imports -/
def Node.clean : Node → Prop
  | .importNames names => ∀ entry ∈ names, topLevel entry.name ∈ allowedTopLevelImports
  | .importFrom module names _ => topLevel (module.getD "") ∈ allowedTopLevelImports ∧
      (topLevel (module.getD "") = "os" → ∀ entry ∈ names, entry.name ∉ dangerousCallNames)
  | .call (.attributeOf (.name id) attr) _ => id = "os" → attr ∉ dangerousCallNames
  | _ => True

theorem issues_visit (findings : Findings) (node : Node) :
    findings.issues <+: (visit findings node).issues := by
  unfold visit
  split
  · exact List.prefix_append _ _
  · simp only [List.append_assoc]
    exact List.prefix_append _ _
  · split
    · exact List.prefix_append _ _
    · exact List.prefix_rfl
  · split
    · exact List.prefix_append _ _
    · exact List.prefix_rfl
  · exact List.prefix_rfl

/-- A node without issues is clean. -/
theorem clean_of_visit {findings : Findings} {node : Node}
    (none : (visit findings node).issues = []) : node.clean := by
  cases node with
  | importNames names =>
      intro entry member
      by_contra outside
      have empty := (List.append_eq_nil_iff.mp none).2
      rw [List.map_eq_nil_iff, List.filter_eq_nil_iff] at empty
      exact empty entry member (by simpa using outside)
  | importFrom module names level =>
      obtain ⟨earlier, empty⟩ := List.append_eq_nil_iff.mp none
      constructor
      · by_contra outside
        have foreign := (List.append_eq_nil_iff.mp earlier).2
        rw [if_neg outside] at foreign
        cases foreign
      · intro os entry member dangerous
        rw [if_pos os, List.map_eq_nil_iff, List.filter_eq_nil_iff] at empty
        exact empty entry member (by simpa using dangerous)
  | call func arguments =>
      cases func with
      | attributeOf value attr =>
          cases value with
          | name id =>
              intro os dangerous
              rw [visit, if_pos ⟨os, dangerous⟩] at none
              exact absurd (List.append_eq_nil_iff.mp none).2 (List.cons_ne_nil _ _)
          | _ => trivial
      | _ => trivial
  | _ => trivial

theorem clean_of_issues {nodes : List Node} {findings : Findings}
    (none : (nodes.foldl visit findings).issues = []) : ∀ node ∈ nodes, node.clean := by
  induction nodes generalizing findings with
  | nil => simp
  | cons first nodes induction =>
      have grows : ∀ (nodes : List Node) (findings : Findings),
          findings.issues <+: (nodes.foldl visit findings).issues := by
        intro nodes
        induction nodes with
        | nil => exact fun _ => List.prefix_rfl
        | cons node nodes induction =>
            exact fun findings => (issues_visit findings node).trans (induction _)
      intro node member
      rcases List.mem_cons.mp member with rfl | later
      · have before := grows nodes (visit findings node)
        rw [← List.foldl_cons, none] at before
        exact clean_of_visit (List.prefix_nil.mp before)
      · exact induction none node later

/-- Every node of a tree that passes is clean. -/
theorem clean_of_checked {code : String} {tree node : Node}
    (passed : checkCodeSafety code (.ok tree) = []) (within : Within node tree) : node.clean :=
  clean_of_issues passed node (mem_walk.mpr ⟨tree, List.mem_singleton_self _, within⟩)

theorem topLevel_os : topLevel "os" = "os" := by
  decide +kernel

/-- In a tree that passes, all imports are allowed. -/
theorem importsAllowed_of_checked {code : String} {tree : Node}
    (passed : checkCodeSafety code (.ok tree) = []) : ImportsAllowed tree := by
  constructor
  · intro names within
    exact clean_of_checked passed within
  · intro module names level within
    exact (clean_of_checked passed within).1

/-- A program that passes is safe exactly if it calls dangerous functions neither through another
name of `os` nor by names that everything in `os` is imported with. -/
theorem safe_iff {code : String} {tree : Node} (passed : checkCodeSafety code (.ok tree) = []) :
    Safe tree ↔ ¬CallsThroughAlias tree ∧ ¬CallsThroughStar tree := by
  constructor
  · rintro ⟨-, safe⟩
    constructor
    · rintro ⟨names, id, f, arguments, within, member, -, dangerous, call⟩
      exact safe _ arguments call f dangerous (.ofModule (.named within member))
    · rintro ⟨names, entry, f, arguments, within, member, all, dangerous, call⟩
      exact safe _ arguments call f dangerous (.star within member all)
  · rintro ⟨noAlias, noStar⟩
    refine ⟨importsAllowed_of_checked passed, ?_⟩
    intro func arguments call f dangerous denotes
    have clean := clean_of_checked passed call
    cases denotes with
    | @ofModule id _ binds =>
        cases binds with
        | plain => exact clean rfl dangerous
        | @named names _ within member =>
            by_cases plain : id = "os"
            · exact clean plain dangerous
            · exact noAlias ⟨names, id, f, arguments, within, member, plain, dangerous, call⟩
    | imported within member =>
        exact (clean_of_checked passed within).2 topLevel_os _ member dangerous
    | star within member all =>
        exact noStar ⟨_, _, f, arguments, within, member, all, dangerous, call⟩

/-! ## A renamed module -/

/-- `import os as a` and `a.system("ls")` -/
def renamedTree : Node := .other [
  .importNames [⟨"os", some "a"⟩],
  .other [.call (.attributeOf (.name "a") "system") [.other []]]]

def renamedCode : String := "import os as a\na.system(\"ls\")\n"

theorem renamed_passes : checkCodeSafety renamedCode (.ok renamedTree) = [] := by
  have walked : walk [renamedTree] = [renamedTree, .importNames [⟨"os", some "a"⟩],
      .other [.call (.attributeOf (.name "a") "system") [.other []]],
      .call (.attributeOf (.name "a") "system") [.other []],
      .attributeOf (.name "a") "system", .other [], .name "a"] := by
    simp [walk, renamedTree, Node.children]
  have patterns : (forbiddenPatterns.filter fun pattern => occursIn pattern renamedCode) = [] := by
    decide +kernel
  rw [checkCodeSafety, walked, patterns]
  decide +kernel

/-- The check passes a program that imports `os` under another name and calls `system` by it. -/
theorem renamed_os_passes :
    checkCodeSafety renamedCode (.ok renamedTree) = [] ∧ ¬Safe renamedTree := by
  refine ⟨renamed_passes, ?_⟩
  rintro ⟨-, safe⟩
  have imports : Within (.importNames [⟨"os", some "a"⟩]) renamedTree :=
    .inside (by simp [renamedTree, Node.children]) .root
  have callMember : Node.call (.attributeOf (.name "a") "system") [.other []] ∈
      (Node.other [.call (.attributeOf (.name "a") "system") [.other []]]).children := by
    simp [Node.children]
  have calls : Within (.call (.attributeOf (.name "a") "system") [.other []]) renamedTree :=
    .inside (by simp [renamedTree, Node.children]) (.inside callMember .root)
  exact safe _ _ calls "system" (by decide +kernel)
    (.ofModule (.named imports List.mem_cons_self))

/-- `import os` and `os.getcwd()` -/
def plainTree : Node := .other [
  .importNames [⟨"os", none⟩],
  .other [.call (.attributeOf (.name "os") "getcwd") []]]

theorem plain_passes : checkCodeSafety "import os\nos.getcwd()\n" (.ok plainTree) = [] := by
  have walked : walk [plainTree] = [plainTree, .importNames [⟨"os", none⟩],
      .other [.call (.attributeOf (.name "os") "getcwd") []],
      .call (.attributeOf (.name "os") "getcwd") [],
      .attributeOf (.name "os") "getcwd", .name "os"] := by
    simp [walk, plainTree, Node.children]
  have patterns : (forbiddenPatterns.filter fun pattern =>
      occursIn pattern "import os\nos.getcwd()\n") = [] := by
    decide +kernel
  rw [checkCodeSafety, walked, patterns]
  decide +kernel

theorem plain_safe_iff :
    Safe plainTree ↔ ¬CallsThroughAlias plainTree ∧ ¬CallsThroughStar plainTree :=
  safe_iff plain_passes

end RAGuardian.Interpreter
