import DocAudit.CommandLine.Usage

/-!
The commands of the program and their arguments.
-/

namespace DocAudit.CommandLine

inductive Command where
  | lint
  | checkStructure
  | sync
  | fix
  deriving DecidableEq, Repr

namespace Command

def all : List Command := [lint, checkStructure, sync, fix]

def word : Command → String
  | lint => "lint"
  | checkStructure => "check-structure"
  | sync => "sync"
  | fix => "fix"

def ofWord? (word : String) : Option Command :=
  all.find? (·.word == word)

theorem ofWord?_word (command : Command) : ofWord? command.word = some command := by
  cases command <;> decide +kernel

def summary : Command → String
  | lint => "Run documentation lint rules"
  | checkStructure => "Check folder layout and file naming"
  | sync => "Copy standards templates into docs"
  | fix => "Apply formatting fixes to markdown files"

def helpSwitch : Switch :=
  ⟨["-h", "--help"], .help, "show this help message and exit"⟩

def valueSwitch (name summary : String) : Switch :=
  ⟨[name], .value [], summary⟩

def flagSwitch (name summary : String) : Switch :=
  ⟨[name], .flag, summary⟩

def configSwitch : Switch := valueSwitch "--config" "Path to config JSON file"

def docsSwitch : Switch := valueSwitch "--docs-dir" "Documentation root"

def formatNames : List String := ["console", "json"]

def switches : Command → List Switch
  | lint =>
    [helpSwitch,
      valueSwitch "--docs-dir"
        "Documentation root (default: config file, DOCS_LINT_DOCS_DIR or ./docs)",
      configSwitch,
      valueSwitch "--only" "Comma-separated rules to run",
      valueSwitch "--skip" "Comma-separated rules to skip",
      ⟨["-v", "--verbose"], .flag, "Show every issue with suggestions, and debug logging"⟩,
      ⟨["--format"], .value formatNames, "Output format"⟩,
      valueSwitch "--output"
        "Write lint results to file (in addition to console for console format)"]
  | checkStructure =>
    [helpSwitch, docsSwitch, configSwitch,
      flagSwitch "--numbered" "Require NN-name folder numbering",
      flagSwitch "--upper-case" "Require UPPER-CASE.md file names"]
  | sync =>
    [helpSwitch, docsSwitch, configSwitch,
      valueSwitch "--category" "Template category to sync (default: 04-development)",
      flagSwitch "--force" "Overwrite files that differ from the template",
      flagSwitch "--check" "Only report missing or different files"]
  | fix =>
    [helpSwitch, docsSwitch, configSwitch,
      flagSwitch "--dry-run" "Report files that would change without writing"]

def fullName (command : Command) : String :=
  s!"{programName} {command.word}"

def usage (command : Command) : String :=
  usageLine (command.fullName :: command.switches.map Switch.usage)

def help (command : Command) : String :=
  command.usage ++ helpLists [("options", command.switches.map Switch.helpEntry)]

end Command

/-! ## The program as a whole -/

def commandWords : List String := Command.all.map Command.word

def topSwitches : List Switch := [Command.helpSwitch]

def topUsage : String :=
  usageLine (programName :: topSwitches.map Switch.usage ++ [braced commandWords, "..."])

def topHelp : String :=
  let commands := Command.all.map fun command => ⟨4, command.word, command.summary⟩
  topUsage ++ "\nLint markdown documentation trees\n"
    ++ helpLists
      [("positional arguments", ⟨2, braced commandWords, ""⟩ :: commands),
        ("options", topSwitches.map Switch.helpEntry)]

/-! ## Arguments of each command -/

inductive Format where
  | console
  | json
  deriving DecidableEq, Repr

structure LintArguments where
  docsDir : Option String
  config : Option String
  only : Option String
  skip : Option String
  verbose : Bool
  format : Format
  output : Option String

structure LayoutArguments where
  docsDir : Option String
  config : Option String
  numbered : Bool
  upperCase : Bool

structure SyncArguments where
  docsDir : Option String
  config : Option String
  category : String
  force : Bool
  check : Bool

structure FixArguments where
  docsDir : Option String
  config : Option String
  dryRun : Bool

inductive Invocation where
  | lint (arguments : LintArguments)
  | checkStructure (arguments : LayoutArguments)
  | sync (arguments : SyncArguments)
  | fix (arguments : FixArguments)

def Command.invocation (reading : Reading) : Command → Invocation
  | lint => .lint {
      docsDir := reading.value? "--docs-dir"
      config := reading.value? "--config"
      only := reading.value? "--only"
      skip := reading.value? "--skip"
      verbose := reading.isSet "--verbose"
      format := if reading.value? "--format" = some "json" then .json else .console
      output := reading.value? "--output" }
  | checkStructure => .checkStructure {
      docsDir := reading.value? "--docs-dir"
      config := reading.value? "--config"
      numbered := reading.isSet "--numbered"
      upperCase := reading.isSet "--upper-case" }
  | sync => .sync {
      docsDir := reading.value? "--docs-dir"
      config := reading.value? "--config"
      category := (reading.value? "--category").getD "04-development"
      force := reading.isSet "--force"
      check := reading.isSet "--check" }
  | fix => .fix {
      docsDir := reading.value? "--docs-dir"
      config := reading.value? "--config"
      dryRun := reading.isSet "--dry-run" }

/-! ## Reading a command line -/

/-- Why a command line runs no command: help is asked for, or the arguments make no sense. -/
inductive Halt where
  | help (text : String)
  | misuse (usage program message : String)
  deriving DecidableEq, Repr

/-- A stop with the texts of the command that it belongs to. -/
def haltAt (help usage program : String) : Stop → Halt
  | .help => .help help
  | .misuse message => .misuse usage program message

/-- A command with the arguments before it that mean nothing and those behind it. -/
structure Split where
  before : List String
  command : String
  behind : List String
  deriving DecidableEq, Repr

def missingCommand : Stop :=
  .misuse "the following arguments are required: command"

/-- Looks for the command. Everything behind it belongs to it, whatever it looks like. -/
def splitCommand (before : List String) : List (String × Word) → Except Stop Split
  | [] => .error missingCommand
  | (argument, .plain) :: rest => .ok ⟨before, argument, rest.map (·.1)⟩
  | (argument, .separator) :: rest =>
    if rest.isEmpty then .error missingCommand else .ok ⟨before, argument, rest.map (·.1)⟩
  | (argument, .mention none) :: rest => splitCommand (before ++ [argument]) rest
  | (_, .mention (some mention)) :: _ => do
    let _ ← unfoldMention topSwitches mention.switch mention.spelling mention.explicit
    throw .help

def findCommand (arguments : List String) : Except Stop (Command × Split) := do
  let split ← splitCommand [] (← readWords topSwitches arguments)
  match Command.ofWord? split.command with
  | some command => return (command, split)
  | none => throw (invalidChoice "command" split.command commandWords)

def readArguments (command : Command) (arguments : List String) : Except Stop Reading := do
  readSettings command.switches {} (← readWords command.switches arguments)

def topHalt : Stop → Halt :=
  haltAt topHelp topUsage programName

/-- Reads a command line. Arguments that no one takes are told of last. -/
def parse (arguments : List String) : Except Halt Invocation := do
  let (command, split) ← (findCommand arguments).mapError topHalt
  let reading ← (readArguments command split.behind).mapError
    (haltAt command.help command.usage command.fullName)
  match split.before ++ reading.leftOver with
  | [] => return command.invocation reading
  | unknown => throw (topHalt (.misuse ("unrecognized arguments: " ++ " ".intercalate unknown)))

end DocAudit.CommandLine
