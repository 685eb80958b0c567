import DocAudit.Bundled
import DocAudit.CommandLine.Commands

/-!
The program on a real disk. What a run may look at is read beforehand: the working folder and
whatever else the arguments, the environment and the configuration name. Then the run is worked
out, and the files that it changes are written.
-/

namespace DocAudit.Main

def variableNames : List String := ["DOCS_LINT_CONFIG", "DOCS_LINT_DOCS_DIR", "LOG_LEVEL"]

def readEnvironment : IO Environment := do
  let values ← variableNames.mapM fun name => return (name, ← IO.getEnv name)
  return values.filterMap fun (name, value) => value.map (name, ·)

/-- Reads a file or a folder with everything in it; what cannot be read counts as missing. -/
partial def readNode? (path : String) : IO (Option Node) := do
  let here ← IO.currentDir
  try
    if ← (here / path).isDir then
      let entries ← (here / path).readDir
      let nodes ← entries.toList.mapM fun entry =>
        return (entry.fileName, ← readNode? s!"{path}/{entry.fileName}")
      return some (.folder (nodes.filterMap fun (name, node) => node.map (name, ·)))
    else return some (.file (← IO.FS.readBinFile path))
  catch _ => return none

def absolute (disk : Disk) (path : FilePath) : FilePath :=
  (FilePath.fromTop (disk.absoluteParts path)).collapsed

/-- A disk with what the real one holds at a path, unless it has been read already. -/
def addPath (disk : Disk) (path : FilePath) : IO Disk := do
  let path := absolute disk path
  match disk.root.follow [] path.parts with
  | .ok _ => return disk
  | .error _ =>
    match ← readNode? path.toString with
    | some node => return { disk with root := disk.root.put path.parts node }
    | none => return disk

def templates : FilePath := .ofString "/usr/share/doc-audit/templates"

def workingFolder : IO (List String) := do
  return (FilePath.ofString (← IO.currentDir).toString).parts

def startDisk : IO Disk := do
  let parts ← workingFolder
  let empty : Disk := ⟨(Node.folder []).put templates.parts Bundled.templates, parts⟩
  addPath empty (.fromTop parts)

/-- Values of arguments that may be paths. -/
def pathArguments (arguments : List String) : List FilePath :=
  arguments.map fun argument =>
    .ofString <| match CommandLine.splitEquals argument with
      | (_, some value) => String.ofList value
      | (plain, none) => plain

/-- The folder of the docs as the configuration gives it. -/
def configuredDocs (place : CommandLine.Place) (arguments : List String) : List FilePath :=
  let config? : Option String := match CommandLine.parse arguments with
    | .ok (.lint arguments) => arguments.config
    | .ok (.checkStructure arguments) => arguments.config
    | .ok (.sync arguments) => arguments.config
    | .ok (.fix arguments) => arguments.config
    | .error _ => none
  match (CommandLine.loadConfig place config? none).outcome with
  | .ok config => [.ofString config.docsDir]
  | .error _ => []

def readDisk (environment : Environment) (arguments : List String) : IO Disk := do
  let named := pathArguments arguments ++ environment.map fun (_, value) => .ofString value
  let disk ← named.foldlM addPath (← startDisk)
  (configuredDocs ⟨environment, disk, templates⟩ arguments).foldlM addPath disk

/-- Writes the files in which two disks differ. -/
def writeChanges (before after : Disk) : IO Unit := do
  let old := before.root.files
  for (parts, content) in after.root.files do
    if old.lookup parts != some content then
      let path := FilePath.fromTop parts
      IO.FS.createDirAll path.parent.toString
      IO.FS.writeBinFile path.toString content

end DocAudit.Main

open DocAudit in
def main (arguments : List String) : IO UInt32 := do
  let environment ← Main.readEnvironment
  let disk ← Main.readDisk environment arguments
  let (terminal, exit) := CommandLine.run ⟨environment, disk, Main.templates⟩ arguments
  Main.writeChanges disk terminal.disk
  IO.print terminal.out
  IO.eprint terminal.err
  match exit with
  | .ok code => return code.toUInt32
  | .error fault =>
    IO.eprintln fault.message
    return 1
