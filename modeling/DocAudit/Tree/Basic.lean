import DocAudit.Fault
import DocAudit.Tree.Path

/-!
A file system as a value. A folder lists its entries in some order, as a directory does; what a
reader makes of a folder must not depend on that order, so readers sort what they list.

Access goes from the top part by part. Two dots lead to the folder above, but only where what
stands before them is a folder, so `a/../b` is missing when `a` is.
-/

namespace DocAudit

inductive Node where
  | file (content : ByteArray)
  | folder (entries : List (String × Node))
  deriving Inhabited

namespace Node

def isFolder : Node → Bool
  | .file _ => false
  | .folder _ => true

def isFile (node : Node) : Bool :=
  !node.isFolder

def entries : Node → List (String × Node)
  | .file _ => []
  | .folder entries => entries

mutual

/-- Every file at or below a node, with the parts of its path. -/
def files : Node → List (List String × ByteArray)
  | .file content => [([], content)]
  | .folder entries => filesOf entries

def filesOf : List (String × Node) → List (List String × ByteArray)
  | [] => []
  | (name, node) :: rest =>
    (files node).map (fun (parts, content) => (name :: parts, content)) ++ filesOf rest

end

def setEntry (entries : List (String × Node)) (name : String) (node : Node) :
    List (String × Node) :=
  if entries.any (·.1 == name) then
    entries.map fun entry => if entry.1 == name then (name, node) else entry
  else entries ++ [(name, node)]

/-- Puts a node at a path. Folders that are missing on the way are made; nothing is put below a
file. -/
def put : Node → List String → Node → Node
  | _, [], new => new
  | .file content, _ :: _, _ => .file content
  | .folder entries, name :: rest, new =>
    let child := (entries.lookup name).getD (.folder [])
    .folder (setEntry entries name (put child rest new))

/-- Takes away what stands at a path. -/
def erase : List String → Node → Node
  | _, .file content => .file content
  | [], .folder entries => .folder entries
  | [name], .folder entries => .folder (entries.filter (·.1 != name))
  | name :: rest, .folder entries =>
    match entries.lookup name with
    | none => .folder entries
    | some child => .folder (setEntry entries name (erase rest child))

/-- The longest name that an entry may have, in bytes. -/
def longestName : Nat := 255

/-- Follows parts down from a node. `above` holds the way down to it, nearest first: names with
the folders that hold them. The result is the way to the end and the node there. -/
def follow (above : List (String × Node)) (node : Node) :
    List String → Except Refusal (List (String × Node) × Node)
  | [] => .ok (above, node)
  | part :: rest =>
    match node with
    | .file _ => .error .notFolder
    | .folder entries =>
      if part = ".." then
        match above with
        | [] => follow [] node rest
        | (_, outer) :: further => follow further outer rest
      else if longestName < part.utf8ByteSize then .error .nameTooLong
      else match entries.lookup part with
        | none => .error .noEntry
        | some child => follow ((part, node) :: above) child rest

end Node

/-- A file system with the folder that relative paths start from. -/
structure Disk where
  root : Node
  workingFolder : List String

/-- Whether anything stands at a path, and if not, why. -/
inductive Lookup where
  | found (parts : List String) (node : Node)
  | refused (refusal : Refusal)
  | unnameable

namespace Disk

/-- Paths this long, in bytes, are refused whatever they name. -/
def pathLimit : Nat := 4096

def absoluteParts (disk : Disk) (path : FilePath) : List String :=
  if path.isAbsolute then path.parts else disk.workingFolder ++ path.parts

def lookup (disk : Disk) (path : FilePath) : Lookup :=
  let text := path.toString
  if text.contains '\x00' then .unnameable
  else if pathLimit ≤ text.utf8ByteSize then .refused .nameTooLong
  else match disk.root.follow [] (disk.absoluteParts path) with
    | .ok (above, node) => .found (above.reverse.map (·.1)) node
    | .error refusal => .refused refusal

/-- What stands at a path, if anything does. Only a name that is too long is a fault. -/
def node? (disk : Disk) (path : FilePath) : Except Fault (Option Node) :=
  match disk.lookup path with
  | .found _ node => .ok (some node)
  | .refused .nameTooLong => .error (.refused .nameTooLong path.toString)
  | .refused _ => .ok none
  | .unnameable => .ok none

def isPresent (disk : Disk) (path : FilePath) : Except Fault Bool :=
  return (← disk.node? path).isSome

def isFolder (disk : Disk) (path : FilePath) : Except Fault Bool :=
  return (← disk.node? path).any Node.isFolder

/-- Whether a path leads to a folder, where no fault keeps one from telling. -/
def hasFolder (disk : Disk) (path : FilePath) : Bool :=
  match disk.lookup path with
  | .found _ node => node.isFolder
  | _ => false

def isFile (disk : Disk) (path : FilePath) : Except Fault Bool :=
  return (← disk.node? path).any Node.isFile

def readBytes (disk : Disk) (path : FilePath) : Except Fault ByteArray :=
  match disk.lookup path with
  | .found _ (.file content) => .ok content
  | .found _ (.folder _) => .error (.refused .isFolder path.toString)
  | .refused refusal => .error (.refused refusal path.toString)
  | .unnameable => .error .nulInName

/-- The text of a file, with line feeds for all line ends. -/
def readText (disk : Disk) (path : FilePath) : Except Fault (List Char) := do
  match Text.decode (← disk.readBytes path) with
  | .ok text => return Text.unifyNewlines text
  | .error fault => throw (.undecodable fault)

def entries (disk : Disk) (path : FilePath) : Except Fault (List (String × Node)) :=
  match disk.lookup path with
  | .found _ (.folder entries) => .ok entries
  | .found _ (.file _) => .error (.refused .notFolder path.toString)
  | .refused refusal => .error (.refused refusal path.toString)
  | .unnameable => .error .nulInName

def lessOrEqual (left right : String) : Bool :=
  left ≤ right

def sortedNames (names : List String) : List String :=
  names.mergeSort lessOrEqual

/-- Names of the folders in a folder, hidden ones left out, in order. -/
def visibleFolders (disk : Disk) (path : FilePath) : Except Fault (List String) := do
  let folders := (← disk.entries path).filter fun (name, node) =>
    node.isFolder && name.toList.head? != some '.'
  return sortedNames (folders.map (·.1))

/-- Where a new entry of this path would stand: in a folder that exists, under its own name. -/
def newPlace (disk : Disk) (path : FilePath) : Except Refusal (List String) := do
  let parts := disk.absoluteParts path
  let (above, folder) ← disk.root.follow [] parts.dropLast
  if folder.isFile then throw .notFolder
  let name := parts.getLast?.getD ""
  if Node.longestName < name.utf8ByteSize then throw .nameTooLong
  return above.reverse.map (·.1) ++ [name]

/-- Writes a whole file, which is made if its folder exists. -/
def writeBytes (disk : Disk) (path : FilePath) (content : ByteArray) : Except Fault Disk :=
  match disk.lookup path with
  | .found parts (.file _) => .ok { disk with root := disk.root.put parts (.file content) }
  | .found _ (.folder _) => .error (.refused .isFolder path.toString)
  | .unnameable => .error .nulInName
  | .refused .noEntry =>
    match disk.newPlace path with
    | .ok parts => .ok { disk with root := disk.root.put parts (.file content) }
    | .error refusal => .error (.refused refusal path.toString)
  | .refused refusal => .error (.refused refusal path.toString)

def writeText (disk : Disk) (path : FilePath) (text : List Char) : Except Fault Disk :=
  disk.writeBytes path (Text.encode text)

/-- Makes a folder in a folder that exists. -/
def makeFolder (disk : Disk) (path : FilePath) : Except Refusal Disk :=
  match disk.lookup path with
  | .found .. => .error .exists
  | .unnameable => .error .noEntry
  | .refused .noEntry => do
    let parts ← disk.newPlace path
    return { disk with root := disk.root.put parts (.folder []) }
  | .refused refusal => .error refusal

/-- A folder that cannot be made will do if it is there. -/
def acceptFolder (disk : Disk) (path : FilePath) (refusal : Refusal) : Except Fault Unit := do
  if ← disk.isFolder path then return ()
  throw (.refused refusal path.toString)

/-- Makes a folder and the folders above it that are missing, at most `depth` of them. What has
been made stays when a later one is refused. -/
def makeFoldersUpTo : (depth : Nat) → Disk → FilePath → Disk × Except Fault Unit
  | depth, disk, path =>
    match disk.makeFolder path, depth with
    | .ok made, _ => (made, .ok ())
    | .error .noEntry, depth + 1 =>
      match makeFoldersUpTo depth disk path.parent with
      | (made, .error fault) => (made, .error fault)
      | (made, .ok ()) =>
        match made.makeFolder path with
        | .ok finished => (finished, .ok ())
        | .error refusal => (made, made.acceptFolder path refusal)
    | .error refusal, _ => (disk, disk.acceptFolder path refusal)

def makeFolders (disk : Disk) (path : FilePath) : Disk × Except Fault Unit :=
  if path.toString.contains '\x00' then (disk, .error .nulInNewFolder)
  else disk.makeFoldersUpTo path.parts.length path

end Disk

end DocAudit
