import DocAudit.Document.Scan
import DocAudit.Report.Basic
import DocAudit.Tree.Basic
import DocAudit.Value.Access

/-!
The docs: a folder on a disk, and what rules read of it. Rules name a file by its path from the
docs folder.
-/

namespace DocAudit

structure Docs where
  disk : Disk
  root : FilePath

namespace Docs

def path (docs : Docs) (file : String) : FilePath :=
  docs.root.child file

def text (docs : Docs) (file : String) : Except Fault (List Char) :=
  docs.disk.readText (docs.path file)

def document (docs : Docs) (file : String) : Except Fault Document :=
  return .ofText file (← docs.text file)

def isPresent (docs : Docs) (file : String) : Except Fault Bool :=
  docs.disk.isPresent (docs.path file)

/-- Findings in each of some files, in the order of the files. -/
def inEach (files : List String) (findings : String → Except Fault (List Issue)) :
    Except Fault (List Issue) :=
  return (← files.mapM findings).flatten

/-- Findings in each of some files that depend on nothing but their documents. -/
def inEachDocument (docs : Docs) (files : List String) (findings : Document → List Issue) :
    Except Fault (List Issue) :=
  inEach files fun file => return findings (← docs.document file)

end Docs

/-! Discovery: the files below the docs folder that some glob takes in and none leaves out. -/

namespace Discovery

def isHidden (name : String) : Bool :=
  name.toList.head? == some '.'

/-- Every file at or below a folder that no hidden name leads to, as a path from there. -/
def visibleFiles (node : Node) : List String :=
  (node.files.filter fun (parts, _) => !parts.any isHidden).map fun (parts, _) =>
    FilePath.joinSlashes parts

def isSelected (included excluded : Value) (file : String) : Except Fault Bool := do
  if ← included.anyGlobMatches file then return !(← excluded.anyGlobMatches file)
  return false

/-- The selected files of a folder in order, each once. -/
def select (included excluded : Value) (node : Node) : Except Fault (List String) :=
  return Disk.sortedNames (← (visibleFiles node).filterM (isSelected included excluded)).eraseDups

def defaultIncluded : List String := ["**/*.md"]

def defaultExcluded : List String := ["**/_*/**", "**/_*.md"]

end Discovery

/-- The files to check. A docs folder that is missing has none. -/
def Docs.discover (docs : Docs) (included excluded : Value) : Except Fault (List String) := do
  match ← docs.disk.node? docs.root with
  | some (.folder entries) => Discovery.select included excluded (.folder entries)
  | _ => return []

def Docs.discoverDefault (docs : Docs) : Except Fault (List String) :=
  docs.discover (.ofTexts Discovery.defaultIncluded) (.ofTexts Discovery.defaultExcluded)

end DocAudit
