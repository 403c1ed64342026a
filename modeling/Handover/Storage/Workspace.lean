import Handover.Act
import Handover.Json.Line
import Handover.Storage.FileTree
import Handover.Text.Encoding

namespace Handover

/-- Storage below a folder. A file to which records have been saved stays open until its tenant's
files are closed. What is written to an open file that has been removed is lost. -/
structure Workspace where
  base : Path
  archiveName : String
  tree : FileTree
  opened : List (Uuid × RecordType)
  lost : List (Uuid × RecordType)
  deriving Repr

namespace Workspace

/-- Storage below the folder `exports` of an existing folder. -/
def new (archiveName : String) : Workspace :=
  ⟨["<base>", "exports"], archiveName, .withFolder ["<base>"], [], []⟩

def tenantPath (w : Workspace) (tenant : Uuid) : Path :=
  w.base ++ [tenant.text]

def dataPath (w : Workspace) (tenant : Uuid) : Path :=
  w.tenantPath tenant ++ ["data"]

def fileName (type : RecordType) : String :=
  type.text ++ ".jsonl"

def filePath (w : Workspace) (tenant : Uuid) (type : RecordType) : Path :=
  w.dataPath tenant ++ [fileName type]

def isAbsolute (name : String) : Bool :=
  name.toList.head? = some '/'

/-- The steps that a name denotes: its parts between slashes, without those that stay in place. -/
def stepsOf (name : String) : List String :=
  (Text.parts '/' name).filter fun part => part ≠ "" && part ≠ "."

/-- The steps from the root to the archive of a tenant. A name that starts at the root leads away
from the tenant's folder. -/
def archiveSteps (w : Workspace) (tenant : Uuid) : List String :=
  let steps := stepsOf w.archiveName
  if !isAbsolute w.archiveName then w.tenantPath tenant ++ steps
  else if steps.isEmpty then []
  else "/" :: steps

def archiveText (w : Workspace) (tenant : Uuid) : String :=
  if isAbsolute w.archiveName then "/" ++ "/".intercalate (stepsOf w.archiveName)
  else "/".intercalate (w.archiveSteps tenant)

def closed (w : Workspace) (tenant : Uuid) : Workspace :=
  { w with
    opened := w.opened.filter fun key => key.1 ≠ tenant
    lost := w.lost.filter fun key => key.1 ≠ tenant }

/-- Removes what lies at and below a path, also from under the open files. -/
def removed (w : Workspace) (path : Path) : Workspace :=
  { w with
    tree := w.tree.removeTree path
    lost := w.opened.filter fun key =>
      w.lost.contains key || path.isPrefixOf (w.filePath key.1 key.2) }

def prepare (tenant : Uuid) : Act Workspace Unit :=
  modify fun w =>
    let w := (w.closed tenant).removed (w.tenantPath tenant)
    { w with tree := w.tree.makeFolders (w.dataPath tenant) }

def textAt (t : FileTree) (path : Path) : String :=
  match t.node? path with
  | some (.text content) => content
  | _ => ""

/-- Opens the file of a type, which is looked up only if it is not open. -/
def openFile (tenant : Uuid) (type : RecordType) : Act Workspace Unit := do
  let w ← get
  let path := w.filePath tenant type
  if w.opened.contains (tenant, type) then pure ()
  else match w.tree.write path (.text (textAt w.tree path)) with
    | .ok tree => set { w with tree, opened := w.opened ++ [(tenant, type)] }
    | .error fault => throw (.file fault)

def append (tenant : Uuid) (type : RecordType) (text : String) : Act Workspace Unit :=
  modify fun w =>
    let path := w.filePath tenant type
    if w.lost.contains (tenant, type) then w
    else { w with tree := w.tree.put path (.text (textAt w.tree path ++ text)) }

/-- Appends a line to the file of a type. A line without bytes is refused by the open file. -/
def saveLine (tenant : Uuid) (type : RecordType) (line : List CodePoint) : Act Workspace Unit := do
  openFile tenant type
  let text ← Act.settle (Text.encoded line)
  append tenant type (text ++ "\n")

/-- Appends a record to the file of its type. The line may be labelled with another type. -/
def save (tenant : Uuid) (type lineType : RecordType) (record : Value) : Act Workspace Unit := do
  let line ← Act.settle (Json.line lineType record)
  saveLine tenant type (Text.codePoints line)

def close (tenant : Uuid) : Act Workspace Unit :=
  modify fun w => w.closed tenant

/-- The members of an archive of a folder: its files of lines sorted by name, the archive itself
left out. -/
def membersOf (t : FileTree) (folder : Path) (archivePath : Path) : Archive :=
  let names := (t.childNames folder).filter fun name => name.endsWith ".jsonl"
  (names.mergeSort fun a b => a ≤ b).filterMap fun name =>
    if folder ++ [name] = archivePath then none else some (name, textAt t (folder ++ [name]))

/-- Packs the files of a tenant into its archive and removes them. -/
def pack (tenant : Uuid) : Act Workspace Unit := do
  modify fun w => w.closed tenant
  let w ← get
  let steps := w.archiveSteps tenant
  match w.tree.write steps (.archive []) with
  | .error fault => throw (.file fault)
  | .ok begun =>
    let members := membersOf begun (w.dataPath tenant) (FileTree.lexical steps)
    match begun.write steps (.archive members) with
    | .error fault => throw (.file fault)
    | .ok written =>
      let w := { w with tree := written }.removed (w.dataPath tenant)
      set w
      match w.tree.find steps with
      | .ok _ => pure ()
      | .error fault => throw (.file fault)

def archiveAt (w : Workspace) (tenant : Uuid) : Except FileFault Archive := do
  match (← w.tree.find (w.archiveSteps tenant)).2 with
  | .folder => .error .isDirectory
  | .archive members => pure members
  | .text _ => pure []

def fetch (tenant : Uuid) : Act Workspace Archive := do
  let w ← get
  if w.tree.exists? (w.archiveSteps tenant) then
    match w.archiveAt tenant with
    | .ok members => pure members
    | .error fault => throw (.file fault)
  else throw (.archiveNotFound (.uuid tenant) (.str (w.archiveText tenant)))

def cleanUp (tenant : Uuid) : Act Workspace Unit :=
  modify fun w => (w.closed tenant).removed (w.tenantPath tenant)

def files (w : Workspace) : List String :=
  w.tree.listing w.base

def openFiles (w : Workspace) : List String :=
  (w.opened.map fun key => key.1.text ++ "/" ++ key.2.text).mergeSort fun a b => a ≤ b

/-- The lines of a file of a tenant; nothing while it is open. -/
def lines (w : Workspace) (tenant : Uuid) (type : RecordType) :
    Except Failure (Option (List String)) :=
  if w.opened.contains (tenant, type) then .ok none
  else match w.tree.find (w.filePath tenant type) with
    | .ok (_, .text content) => .ok (some (Text.parts '\n' content))
    | .ok (_, .folder) => .error (.file .isDirectory)
    | .ok (_, .archive _) => .ok (some [])
    | .error fault => .error (.file fault)

/-- The files of a tenant that its jobs have left, with their lines. -/
def leftovers (w : Workspace) (tenant : Uuid) : List (String × List String) :=
  let names := (w.tree.childNames (w.dataPath tenant)).mergeSort fun a b => a ≤ b
  names.map fun name => (name, Text.parts '\n' (textAt w.tree (w.dataPath tenant ++ [name])))

def place (tenant : Uuid) (name content : String) : Act Workspace Unit := do
  let w ← get
  match w.tree.write (w.dataPath tenant ++ stepsOf name) (.text content) with
  | .ok tree => set { w with tree }
  | .error fault => throw (.file fault)

end Workspace

end Handover
