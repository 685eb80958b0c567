import DocAudit.Console.Terminal
import DocAudit.Environment
import DocAudit.Text.Lines

/-!
Loggers by name. A logger that has been asked for shows messages on the console; the root logger,
which is above all others, may write them to a file. A message goes to the handlers of its logger
and of every logger above it, so it is shown once for each of them that has one.

A name is above another if the other goes on with a dot behind it. The loggers form a tree by their
names, in which a name that nobody has asked for has no place yet.
-/

namespace DocAudit.Logging

inductive Handler where
  | console
  | file (path : FilePath)
  deriving DecidableEq, Repr

def rootName : String := "root"

structure Logger where
  name : String
  level : Level := .unset
  handlers : List Handler := []
  /-- The name of the next logger above. -/
  above : String := rootName
  deriving DecidableEq, Repr

/-- The modules of the program that have loggers from the start. -/
def programName : String := "docs_lint"

def programLoggers : List String :=
  ["docs_lint.config", "docs_lint.linter", "docs_lint.fixer", "docs_lint.reporters"]

/-- Whether a name is that of the program or below it. -/
def isOfProgram (name : String) : Bool :=
  name == programName || (programName ++ ".").toList.isPrefixOf name.toList

def isRoot (name : String) : Bool :=
  name == "" || name == rootName

/-- What stands before each dot of a name, all of them backwards. A dot at the start has nothing
before it, and of two dots side by side the first one does not count. -/
def beginnings : List Char → List (List Char)
  | '.' :: c :: rest => (c :: rest) :: beginnings rest
  | _ :: rest => beginnings rest
  | [] => []

/-- Names above a name, nearest first. -/
def namesAbove (name : String) : List String :=
  (beginnings name.toList.reverse).map fun above => String.ofList above.reverse

example : namesAbove "a.b.c" = ["a.b", "a"] := by decide +kernel

/-- Where the file of a log is, by its name. -/
def logPath (disk : Disk) (file : String) : FilePath :=
  (FilePath.fromTop (disk.absoluteParts (.ofString file))).collapsed

/-- A logger beside a new one, which comes above it if it is nearer than the one above it so far.
What counts for nearer is that the name so far does not begin with the new one. -/
def Logger.beside (name : String) (logger : Logger) : Logger :=
  if (namesAbove logger.name).contains name && !name.toList.isPrefixOf logger.above.toList then
    { logger with above := name }
  else logger

structure Registry where
  environment : Environment
  terminal : Terminal
  root : Logger := { name := rootName, level := .warning }
  /-- All names that have been met, in order: those of the loggers, and those above them. -/
  names : List String := []
  loggers : List Logger := []

namespace Registry

def logger? (registry : Registry) (name : String) : Option Logger :=
  if isRoot name then some registry.root else registry.loggers.find? (·.name == name)

def isTaken (registry : Registry) (name : String) : Bool :=
  registry.loggers.any (·.name == name)

/-- A new logger goes between those below it and the nearest one above it. The names on the way to
that one have been met now. -/
def register (registry : Registry) (name : String) : Registry :=
  if (registry.logger? name).isSome then registry
  else
    let above := namesAbove name
    let nearest := (above.find? registry.isTaken).getD rootName
    { registry with
      names := (registry.names ++ name :: above.takeWhile (!registry.isTaken ·)).eraseDups
      loggers := registry.loggers.map (·.beside name) ++ [{ name := name, above := nearest }] }

/-- The registry with a logger of this name, and the logger. -/
def ensure (registry : Registry) (name : String) : Registry × Logger :=
  let registry := registry.register name
  (registry, (registry.logger? name).getD { name := name })

def update (registry : Registry) (name : String) (change : Logger → Logger) : Registry :=
  if isRoot name then { registry with root := change registry.root }
  else { registry with
    loggers := registry.loggers.map fun logger =>
      if logger.name == name then change logger else logger }

/-- The logger of a name. One that has handlers stays as it is; else it gets a level and shows
its messages on the console. -/
def get (registry : Registry) (name : String) (level : Option String) :
    Registry × Except Fault Logger :=
  let (registry, logger) := registry.ensure name
  if !logger.handlers.isEmpty then (registry, .ok logger)
  else
    let wanted := (level.filter (· ≠ "")).getD registry.environment.logLevel
    match Level.ofName wanted with
    | .error fault => (registry, .error fault)
    | .ok level =>
      let ready (logger : Logger) : Logger :=
        { logger with level := level, handlers := logger.handlers ++ [.console] }
      (registry.update name ready, .ok (ready logger))

/-- Sets the level of the loggers of some names, up to the first fault. A name that has only been
met gets its logger for that. -/
def setLevels (registry : Registry) (level : String) : List String → Registry × Except Fault Unit
  | [] => (registry, .ok ())
  | name :: rest =>
    let registry := registry.register name
    match Level.ofName level with
    | .error fault => (registry, .error fault)
    | .ok wanted =>
      (registry.update name fun logger => { logger with level := wanted }).setLevels level rest

/-- Changes the level of every logger of the program. -/
def setLevel (registry : Registry) (level : String) : Registry × Except Fault Unit :=
  registry.setLevels level (registry.names.filter isOfProgram)

/-- A registry without any loggers but the root logger. -/
def blank (environment : Environment) (disk : Disk) : Registry where
  environment := environment
  terminal := { disk := disk }

/-- The registry once the modules of the program have got their loggers. -/
def initial (environment : Environment) (disk : Disk) : Registry :=
  let started := programLoggers.foldl (fun registry name => (registry.get name none).1)
    (blank [] disk)
  { started with environment := environment }

/-- The file of a log, which is made if it is missing. -/
def openFile (registry : Registry) (path : FilePath) : Except Fault Disk := do
  let disk := registry.terminal.disk
  match disk.readBytes path with
  | .ok _ => return disk
  | .error (.refused .noEntry _) => disk.writeBytes path .empty
  | .error fault => throw fault

/-- Starts logging anew: the level of the environment wins over the one given, and the root logger
keeps no handler but one for the file. -/
def setup (registry : Registry) (level : String) (file : Option String) :
    Registry × Except Fault Logger :=
  let name := registry.environment.logLevel level
  match Level.ofName name with
  | .error fault => (registry, .error fault)
  | .ok level =>
    let bare : Logger := { registry.root with level := level, handlers := [] }
    let (registry, _) := ({ registry with root := bare }).setLevel name
    match file.filter (· ≠ "") with
    | none => (registry, .ok bare)
    | some file =>
      let path := logPath registry.terminal.disk file
      match registry.openFile path with
      | .error fault => (registry, .error fault)
      | .ok disk =>
        let ready := { bare with handlers := [.file path] }
        ({ registry with root := ready, terminal := { registry.terminal with disk := disk } },
          .ok ready)

/-! ## Messages -/

/-- The logger of a name and those above it, nearest first and without the root logger. Each has a
shorter name than the one before it, so the steps suffice that a name has characters. -/
def climb (registry : Registry) : Nat → String → List Logger
  | 0, _ => []
  | steps + 1, name =>
    match registry.loggers.find? (·.name == name) with
    | some logger => logger :: registry.climb steps logger.above
    | none => []

/-- A logger and those above it, nearest first, the root logger last. -/
def chain (registry : Registry) (name : String) : List Logger :=
  registry.climb name.length name ++ [registry.root]

/-- The level of the nearest logger that has one. -/
def threshold (registry : Registry) (name : String) : Level :=
  (((registry.chain name).map (·.level)).find? (· ≠ .unset)).getD .unset

/-- What stands for the time of a message. -/
def timeMark : String := "<TIME>"

def fileLine (name : String) (level : Level) (text : String) : String :=
  s!"{timeMark} - {name} - {level.name} - {text}\n"

def appendText (disk : Disk) (path : FilePath) (text : String) : Except Fault Disk := do
  disk.writeBytes path ((← disk.readBytes path) ++ text.toUTF8)

def handle (name : String) (level : Level) (text : String) (terminal : Terminal)
    (handler : Handler) : Except Fault Terminal :=
  match handler with
  | .console => terminal.log level text
  | .file path => do
    return { terminal with disk := ← appendText terminal.disk path (fileLine name level text) }

/-- Hands a message to handlers up to the first fault; what has been written stays. -/
def handleAll (name : String) (level : Level) (text : String) (terminal : Terminal) :
    List Handler → Terminal × Except Fault Unit
  | [] => (terminal, .ok ())
  | handler :: rest =>
    match handle name level text terminal handler with
    | .ok next => handleAll name level text next rest
    | .error fault => (terminal, .error fault)

/-- Without any handler, warnings and worse are written as they are. -/
def writeBare (level : Level) (text : String) (terminal : Terminal) : Terminal :=
  if Level.warning.shows level then terminal.printError (text ++ "\n") else terminal

/-- A message without a level is never shown. -/
def isEnabled (registry : Registry) (name : String) (level : Level) : Bool :=
  level ≠ .unset && (registry.threshold name).shows level

def log (registry : Registry) (name : String) (level : Level) (text : String) :
    Registry × Except Fault Unit :=
  let (registry, logger) := registry.ensure name
  if registry.isEnabled name level then
    match (registry.chain name).flatMap (·.handlers) with
    | [] => ({ registry with terminal := writeBare level text registry.terminal }, .ok ())
    | handlers =>
      let (terminal, outcome) := handleAll logger.name level text registry.terminal handlers
      ({ registry with terminal := terminal }, outcome)
  else (registry, .ok ())

end Registry

end DocAudit.Logging
