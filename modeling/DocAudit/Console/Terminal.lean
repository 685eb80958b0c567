import DocAudit.Console.Markup
import DocAudit.Logging.Level
import DocAudit.Tree.Basic

/-!
What a program run has written so far: the disk as it has left it, and the texts on the two
output streams. Styled lines are rendered before they are written, so a line whose markup is
faulty leaves no trace.
-/

namespace DocAudit

def tabWidth : Nat := 8

/-- A line with blanks up to the next stop for each tab; `column` characters stand before it. -/
def expandTabs (column : Nat) : List Char → List Char
  | [] => []
  | '\t' :: rest =>
    let width := tabWidth - column % tabWidth
    List.replicate width ' ' ++ expandTabs (column + width) rest
  | c :: rest => c :: expandTabs (column + 1) rest

/-- The lines that a message is shown in. -/
def shownLines (markup : String) : Except Fault (List (List Char)) :=
  return (Text.lines (← Markup.render markup.toList)).map (expandTabs 0)

def levelWidth : Nat := 8

/-- The level of a message, as wide as the longest one. -/
def Level.column (level : Level) : List Char :=
  let name := level.name.toList
  name ++ List.replicate (levelWidth - name.length) ' '

/-- A logged message: the level in front of its first line, blanks in front of the others. -/
def recordText (level : Level) (markup : String) : Except Fault String := do
  let beside (front line : List Char) : List Char := Text.stripRight (front ++ ' ' :: line)
  let lines := match ← shownLines markup with
    | [] => []
    | first :: rest =>
      beside level.column first :: rest.map (beside (List.replicate levelWidth ' '))
  return String.ofList (Text.unlines lines ++ ['\n'])

/-- A message that is shown without a level. -/
def styledText (markup : String) : Except Fault String :=
  return String.ofList (Text.unlines (← shownLines markup) ++ ['\n'])

structure Terminal where
  disk : Disk
  out : String := ""
  err : String := ""

namespace Terminal

def print (terminal : Terminal) (text : String) : Terminal :=
  { terminal with out := terminal.out ++ text }

def printError (terminal : Terminal) (text : String) : Terminal :=
  { terminal with err := terminal.err ++ text }

def log (terminal : Terminal) (level : Level) (markup : String) : Except Fault Terminal :=
  return terminal.print (← recordText level markup)

def display (terminal : Terminal) (markup : String) : Except Fault Terminal :=
  return terminal.print (← styledText markup)

def displayError (terminal : Terminal) (markup : String) : Except Fault Terminal :=
  return terminal.printError (← styledText markup)

end Terminal

/-! Messages of the program that are no findings have a sign in front of them. -/

namespace Notice

def success (message : String) : String := s!"[green]✓[/green] {message}"

def warning (message : String) : String := s!"[yellow]⚠[/yellow] {message}"

def error (message : String) : String := s!"[red]✗[/red] {message}"

end Notice

end DocAudit
