import DocAudit.CommandLine.Switch
import DocAudit.Text.Case

/-!
Usage lines and help texts of commands.
-/

namespace DocAudit.CommandLine

def braced (words : List String) : String :=
  "\x7b" ++ ",".intercalate words ++ "\x7d"

/-- The name of a value: that of its switch in upper case, with underscores. -/
def valueName (switch : Switch) : String :=
  let letters := switch.name.toList.dropWhile (· == '-')
  String.ofList (Text.toUpper (letters.map fun c => if c == '-' then '_' else c))

/-- What follows a switch: nothing, or its value, shown by its choices or by its name. -/
def Switch.valueText (switch : Switch) : String :=
  match switch.arity with
  | .value [] => " " ++ valueName switch
  | .value choices => " " ++ braced choices
  | _ => ""

/-- A switch in a usage line, in its shortest spelling. -/
def Switch.usage (switch : Switch) : String :=
  s!"[{switch.spellings.head?.getD switch.name}{switch.valueText}]"

/-- A switch in the list of switches, in all spellings. -/
def Switch.heading (switch : Switch) : String :=
  ", ".intercalate (switch.spellings.map (· ++ switch.valueText))

/-- An entry of a list in a help text: what it is called, and what that means. -/
structure HelpEntry where
  indent : Nat
  heading : String
  summary : String

namespace HelpEntry

def width (entry : HelpEntry) : Nat :=
  entry.indent + entry.heading.length

/-- The column in which summaries begin: behind the longest heading, but no further than this. -/
def lastColumn : Nat := 24

def summaryColumn (entries : List HelpEntry) : Nat :=
  min (((entries.map width).max?.getD 0) + 2) lastColumn

def blanks (count : Nat) : String :=
  String.ofList (List.replicate count ' ')

/-- A summary stands beside its heading, or below it where the heading is too long. -/
def text (column : Nat) (entry : HelpEntry) : String :=
  let start := blanks entry.indent ++ entry.heading
  if entry.summary.isEmpty then start ++ "\n"
  else if entry.width + 2 ≤ column then
    start ++ blanks (column - entry.width) ++ entry.summary ++ "\n"
  else start ++ "\n" ++ blanks column ++ entry.summary ++ "\n"

end HelpEntry

def Switch.helpEntry (switch : Switch) : HelpEntry :=
  ⟨2, switch.heading, switch.summary⟩

def programName : String := "docs-lint"

def usageLine (words : List String) : String :=
  " ".intercalate ("usage:" :: words) ++ "\n"

/-- Lists of entries under their titles. -/
def helpLists (lists : List (String × List HelpEntry)) : String :=
  let column := HelpEntry.summaryColumn (lists.flatMap (·.2))
  String.join <| lists.map fun (title, entries) =>
    s!"\n{title}:\n" ++ String.join (entries.map (HelpEntry.text column))

example : Switch.usage ⟨["--docs-dir"], .value [], ""⟩ = "[--docs-dir DOCS_DIR]" := by
  decide +kernel

end DocAudit.CommandLine
