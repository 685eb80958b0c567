import DocAudit.Config.Basic
import DocAudit.Logged

/-!
Finding and loading the configuration. A path that is named has to be there; else the standard
names are looked for in the working folder, and without a file everything is as standard.
-/

namespace DocAudit.Config

def fileNames : List String := ["docs-lint.config.json", ".docs-lintrc.json"]

/-- A path that is given comes before one in the environment; an empty one counts as none. -/
def explicitPath? (environment : Environment) (path : Option String) : Option FilePath :=
  ((path.filter (· ≠ "")).or environment.configPath?).map FilePath.ofString

def workingFolder (disk : Disk) : FilePath :=
  .fromTop disk.workingFolder

def findStandard? (disk : Disk) : List String → Except Fault (Option FilePath)
  | [] => .ok none
  | name :: rest => do
    let candidate := (workingFolder disk).child name
    if ← disk.isFile candidate then return some candidate
    findStandard? disk rest

def find? (environment : Environment) (disk : Disk) (path : Option String) :
    Except Fault (Option FilePath) :=
  match explicitPath? environment path with
  | some explicit => do
    if ← disk.isFile explicit then return some explicit
    throw (.configMissing explicit.toString)
  | none => findStandard? disk fileNames

def ofValue (environment : Environment) (value : Value) : Logged Config :=
  match value with
  | .table entries =>
    let unknown := unknownKeys entries
    { log :=
        if unknown.isEmpty then []
        else [s!"Ignoring unknown config keys: {Fault.commaList unknown}"]
      outcome := ofEntries environment entries }
  | _ => .ofOutcome (.error .objectExpected)

def readFile (disk : Disk) (path : FilePath) : Except Fault Value := do
  let text ← disk.readText path
  match Json.parse text with
  | .ok value => return value
  | .error stop => throw (.badJson path.toString stop text)

def ofFile (environment : Environment) (disk : Disk) (path : FilePath) : Logged Config :=
  Logged.andThen
    { log := [s!"Loading config from {path.toString}"], outcome := readFile disk path }
    (ofValue environment)

/-- Loads the configuration; a docs folder that is given replaces the one in it. -/
def load (environment : Environment) (disk : Disk) (path docsDir : Option String) :
    Logged Config :=
  let found := Logged.ofOutcome (find? environment disk path)
  let config := found.andThen fun
    | some path => ofFile environment disk path
    | none => .ofOutcome (.ok (standard environment))
  config.andThen fun config =>
    .ofOutcome <| .ok <| match docsDir.filter (· ≠ "") with
      | some docsDir => { config with docsDir := docsDir }
      | none => config

end DocAudit.Config
