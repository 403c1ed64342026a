import Handover.Failure

namespace Handover

/-- The content of an archive: its members in order, each with a text. -/
abbrev Archive := List (String × String)

/-- What lies at a path. -/
inductive Node where
  | folder
  | text (content : String)
  | archive (members : Archive)
  deriving DecidableEq, Repr

namespace Node

def isFolder : Node → Bool
  | folder => true
  | _ => false

end Node

/-- A path from the root. -/
abbrev Path := List String

/-- A tree; the root is always a folder. -/
structure FileTree where
  nodes : List (Path × Node)
  deriving DecidableEq, Repr

namespace FileTree

/-- The tree with nothing but one folder. -/
def withFolder (path : Path) : FileTree :=
  ⟨[(path, .folder)]⟩

def node? (t : FileTree) (path : Path) : Option Node :=
  if path.isEmpty then some .folder else t.nodes.lookup path

def put (t : FileTree) (path : Path) (node : Node) : FileTree :=
  if (t.node? path).isSome then
    ⟨t.nodes.map fun entry => if entry.1 = path then (path, node) else entry⟩
  else ⟨t.nodes ++ [(path, node)]⟩

def makeFolders (t : FileTree) (path : Path) : FileTree :=
  (List.range path.length).foldl (fun t n =>
    let above := path.take (n + 1)
    if (t.node? above).isSome then t else t.put above .folder) t

def removeTree (t : FileTree) (path : Path) : FileTree :=
  ⟨t.nodes.filter fun entry => !path.isPrefixOf entry.1⟩

def childNames (t : FileTree) (path : Path) : List String :=
  t.nodes.filterMap fun entry =>
    if !entry.1.isEmpty && entry.1.dropLast = path then entry.1.getLast? else none

/-- The path that a walk from a folder reaches. Its last step may lead to nothing. -/
def walk (t : FileTree) : Path → List String → Except FileFault Path
  | here, [] => .ok here
  | here, step :: rest =>
    match t.node? here with
    | none => .error .noEntry
    | some .folder => walk t (if step = ".." then here.dropLast else here ++ [step]) rest
    | some _ => .error .notDirectory

def find (t : FileTree) (steps : List String) : Except FileFault (Path × Node) := do
  let path ← t.walk [] steps
  match t.node? path with
  | some node => pure (path, node)
  | none => .error .noEntry

def exists? (t : FileTree) (steps : List String) : Bool :=
  match t.find steps with
  | .ok _ => true
  | .error _ => false

def write (t : FileTree) (steps : List String) (node : Node) : Except FileFault FileTree := do
  let path ← t.walk [] steps
  match t.node? path with
  | some .folder => .error .isDirectory
  | _ => pure (t.put path node)

/-- The path that a walk from the root seems to lead to when nothing is looked up. -/
def lexical (steps : List String) : Path :=
  steps.foldl (fun here step => if step = ".." then here.dropLast else here ++ [step]) []

/-- The files below a path and the folders there that hold nothing, which end in a slash; sorted
by their texts. -/
def listing (t : FileTree) (root : Path) : List String :=
  let below := t.nodes.filter fun entry => root.isPrefixOf entry.1 && entry.1 ≠ root
  let texts := below.filterMap fun (path, node) =>
    let text := "/".intercalate (path.drop root.length)
    if node.isFolder then
      if (t.childNames path).isEmpty then some (text ++ "/") else none
    else some text
  texts.mergeSort fun a b => a ≤ b

end FileTree

end Handover
