import DocAudit.CommandLine.Arguments
import DocAudit.CommandLine.Script
import DocAudit.Config.Load
import DocAudit.FixSession
import DocAudit.Audit
import DocAudit.Report.Console
import DocAudit.Report.Json
import DocAudit.Sync

/-!
What each command does, and the program as a whole: from an environment, a disk and arguments to
what is written and the exit code.
-/

namespace DocAudit.CommandLine

/-- Where a run takes place. -/
structure Place where
  environment : Environment
  disk : Disk
  templates : FilePath

def loadConfig (place : Place) (config docsDir : Option String) : Logged Config :=
  Config.load place.environment place.disk config docsDir

/-- Goes on with a value, after the messages on the way to it. -/
def Script.ofLogged {α : Type} (logged : Logged α) (script : α → Script) : Script :=
  .after (Script.debug logged.log) <|
    match logged.outcome with
    | .ok value => script value
    | .error fault => .ofFault fault

/-! ## Linting -/

namespace Lint

/-- Names between commas; blanks around them and empty ones do not count. -/
def ruleNames (text : Option String) : Except Fault (List String) :=
  let pieces := ((text.getD "").toList.splitOn ',').map Text.strip
  let names := (pieces.filter (!·.isEmpty)).map String.ofList
  let unknown := names.eraseDups.filter (!Rule.names.contains ·)
  if unknown.isEmpty then .ok names else .error (.unknownRules (Disk.sortedNames unknown))

def selection (arguments : LintArguments) : Except Fault Audit.Selection :=
  return { only := ← ruleNames arguments.only, skip := ← ruleNames arguments.skip }

/-- The file to write to, if one is named. -/
def outputFile? (arguments : LintArguments) : Option FilePath :=
  (arguments.output.filter (· ≠ "")).map .ofString

/-- A report that goes to the output stream as JSON has it for itself. -/
def threshold (arguments : LintArguments) (standard : Level) : Level :=
  if arguments.format = .json ∧ (outputFile? arguments).isNone then .error
  else if arguments.verbose then .debug
  else standard

def run (place : Place) (arguments : LintArguments) : Logged Report :=
  (loadConfig place arguments.config arguments.docsDir).andThen fun config =>
    (Logged.ofOutcome (selection arguments)).andThen fun selection =>
      Audit.run place.disk place.templates config selection

def jsonScript (place : Place) (output : Option FilePath) (report : Report) : Script :=
  match output with
  | none => ⟨[.print (report.json ++ "\n")], .ok report.exitCode⟩
  | some path =>
    match place.disk.writeText path report.json.toList with
    | .error fault => ⟨[], .error fault⟩
    | .ok written =>
      ⟨[.save written, .print s!"Lint results written to {path.toString}\n"],
        .ok report.exitCode⟩

def consoleScript (place : Place) (threshold : Level) (arguments : LintArguments)
    (report : Report) : Script :=
  let shown := Script.ofMessages report.exitCode (report.messages arguments.verbose)
  match outputFile? arguments with
  | none => shown
  | some path =>
    match shown.capture threshold place.disk with
    | .error fault => ⟨[], .error fault⟩
    | .ok (text, exit) =>
      match place.disk.writeText path text.toList with
      | .error fault => ⟨[], .error fault⟩
      | .ok written =>
        ⟨[.save written, .print text,
          .print s!"\nLint results also written to {path.toString}\n"], .ok exit⟩

def script (place : Place) (threshold : Level) (arguments : LintArguments) : Script :=
  .ofLogged (run place arguments) fun report =>
    match arguments.format with
    | .json => jsonScript place (outputFile? arguments) report
    | .console => consoleScript place threshold arguments report

end Lint

/-! ## The layout alone -/

def layoutScript (place : Place) (arguments : LayoutArguments) : Script :=
  let run := (loadConfig place arguments.config arguments.docsDir).andThen fun config =>
    Audit.runLayout place.disk place.templates config
      { numbered := arguments.numbered, upperCase := arguments.upperCase }
  .ofLogged run fun results => .ofMessages (structureExitCode results) (structureMessages results)

/-! ## Copying templates -/

namespace Copying

def checkScript (category : String) (report : Sync.Report) : Script :=
  if report.different.isEmpty then
    ⟨[.display (Notice.success s!"{category} is in sync with the templates")], .ok 0⟩
  else
    let differences := report.different.map fun name =>
      Event.display <|
        Notice.warning s!"{category}/{name} is missing or differs from the template"
    ⟨differences ++ [.display "Run \"docs-lint sync --force\" to update"], .ok 1⟩

def copyScript (category : String) (report : Sync.Report) : Script :=
  let told (verb : String) (names : List String) : List Event :=
    names.map fun name => .display (Notice.success s!"{verb} {category}/{name}")
  let skipped := report.skipped.length
  let hint := s!"Skipped {skipped} existing file(s); use --force to overwrite"
  ⟨told "Created" report.created ++ told "Updated" report.updated
    ++ (if skipped = 0 then [] else [.display hint]), .ok 0⟩

def script (place : Place) (arguments : SyncArguments) : Script :=
  .ofLogged (loadConfig place arguments.config arguments.docsDir) fun config =>
    let mode := Sync.Mode.ofFlags arguments.force arguments.check
    let (disk, outcome) :=
      Sync.run place.disk (.ofString config.docsDir) place.templates arguments.category mode
    .after [.save disk] <|
      match outcome with
      | .error fault => .ofFault fault
      | .ok report =>
        if arguments.check then checkScript arguments.category report
        else copyScript arguments.category report

end Copying

/-! ## Fixing -/

namespace Fixing

def fixEvents (fix : FixedFile) : List Event :=
  [.save fix.after, .log .debug s!"Fixed {fix.path.toString}"]

/-- The path of a file from the folder of the docs. -/
def nameIn (docs path : FilePath) : String :=
  FilePath.joinSlashes (path.parts.drop docs.parts.length)

def summary (docs : FilePath) (dryRun : Bool) (session : FixSession) (fixed total : Nat) :
    List Event :=
  let verb := if dryRun then "Would fix" else "Fixed"
  (session.modifiedInOrder.map fun path => .display s!"  {verb} {nameIn docs path}")
    ++ [.display (Notice.success s!"{verb} {fixed} of {total} file(s)")]

def fixScript (disk : Disk) (docs : FilePath) (files : List String) (dryRun : Bool) : Script :=
  let start : FixSession := { disk := disk, dryRun := dryRun }
  let (session, outcome) := start.fixFiles (files.map docs.child)
  .after (session.fixes.flatMap fixEvents) <|
    match outcome with
    | .error fault => ⟨[], .error fault⟩
    | .ok fixed => ⟨summary docs dryRun session fixed files.length, .ok 0⟩

def docsScript (disk : Disk) (config : Config) (dryRun : Bool) : Script :=
  let docs := FilePath.ofString config.docsDir
  match disk.isFolder docs with
  | .error fault => ⟨[], .error fault⟩
  | .ok false =>
    ⟨[.displayError (Notice.error s!"Documentation directory not found: {docs.toString}")], .ok 1⟩
  | .ok true =>
    let included := Value.ofTexts config.included
    match Docs.discover ⟨disk, docs⟩ included (.ofTexts config.excluded) with
    | .error fault => ⟨[], .error fault⟩
    | .ok files => fixScript disk docs files dryRun

def script (place : Place) (arguments : FixArguments) : Script :=
  .ofLogged (loadConfig place arguments.config arguments.docsDir) fun config =>
    docsScript place.disk config arguments.dryRun

end Fixing

/-! ## The program -/

def haltScript : Halt → Script
  | .help text => ⟨[.print text], .ok 0⟩
  | .misuse usage program message => ⟨[.printError s!"{usage}{program}: error: {message}\n"], .ok 2⟩

/-- The level from which messages are shown, and what is done. -/
def invocationScript (place : Place) (standard : Level) : Invocation → Level × Script
  | .lint arguments =>
    let threshold := Lint.threshold arguments standard
    (threshold, Lint.script place threshold arguments)
  | .checkStructure arguments => (standard, layoutScript place arguments)
  | .sync arguments => (standard, Copying.script place arguments)
  | .fix arguments => (standard, Fixing.script place arguments)

/-- Runs the program. The level of the environment is read before the arguments are. -/
def run (place : Place) (arguments : List String) : Terminal × Except Fault Nat :=
  let terminal : Terminal := { disk := place.disk }
  match Level.ofName place.environment.logLevel with
  | .error fault => (terminal, .error fault)
  | .ok standard =>
    let (threshold, script) := match parse arguments with
      | .error halt => (standard, haltScript halt)
      | .ok invocation => invocationScript place standard invocation
    script.perform threshold terminal

end DocAudit.CommandLine
