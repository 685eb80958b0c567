import DocAudit.Docs
import DocAudit.Rules.Options
import DocAudit.Text.Case

/-!
Names that call for another layout: files whose name says that they hold details of another one,
and files that serve the same purpose side by side in one folder.
-/

namespace DocAudit.StandardFileNames

/-- Names that exclude one another in a folder, and the one to keep. -/
structure Conflict where
  files : List Value
  preferred : Value
  message : Value

namespace Conflict

def ofValue (value : Value) : Except Fault Conflict := do
  return {
    files := ← (← value.field "files").items
    preferred := ← value.field "preferred"
    message := ← value.fieldD "message" (.text "") }

def standard : Conflict where
  files := [.text "UI.md", .text "SCREEN.md"]
  preferred := .text "SCREEN.md"
  message := .text "UI.md and SCREEN.md both exist; merge them into SCREEN.md"

def toValue (conflict : Conflict) : Value :=
  .table
    [("files", .tuple conflict.files),
      ("preferred", conflict.preferred),
      ("message", conflict.message)]

end Conflict

structure Options where
  warnDetailFiles : Value := .bool true
  warnConflicts : Value := .bool true
  conflicts : List Conflict := [.standard]
  detailPatterns : Value := .ofTexts ["-DETAIL.md", "-DETAILS.md"]

namespace Options

def toEntries (options : Options) : Entries :=
  [("warn_detail_files", options.warnDetailFiles),
    ("warn_conflicts", options.warnConflicts),
    ("conflicts", .tuple (options.conflicts.map Conflict.toValue)),
    ("detail_patterns", options.detailPatterns)]

/-- Conflicts are read before names of options are checked. -/
def ofEntries (given : Entries) : Except Fault Options := do
  let standard : Options := {}
  let conflicts ← match given.lookup "conflicts" with
    | some value => (← value.items).mapM Conflict.ofValue
    | none => pure standard.conflicts
  given.requireKnown standard.toEntries.keys
  return {
    warnDetailFiles := given.option "warn_detail_files" standard.warnDetailFiles
    warnConflicts := given.option "warn_conflicts" standard.warnConflicts
    conflicts := conflicts
    detailPatterns := given.option "detail_patterns" standard.detailPatterns }

end Options

def detailFinding (file name : String) (suffix : List Char) : Issue where
  file := file
  message := .text s!"Detail file should be split into a folder: {name}"
  suggestion :=
    let folder := Text.toLower (name.toList.take (name.length - suffix.length))
    some s!"Move its sections into a {String.ofList folder}/ folder of smaller files"

/-- The first of some endings that a name has. -/
def suffix? (name : String) : List Value → Except Fault (Option (List Char))
  | [] => .ok none
  | .text ending :: rest =>
    if Text.endsWith name.toList ending.toList then .ok (some ending.toList)
    else suffix? name rest
  | value :: _ => .error (.badSuffix value.shape)

/-- An empty ending is one that every name has, and says nothing of details. -/
def detailFindings (options : Options) (file : String) : Except Fault (List Issue) := do
  let name := fileName file
  match ← suffix? name (← options.detailPatterns.items) with
  | some (c :: suffix) => return [detailFinding file name (c :: suffix)]
  | _ => return []

def folderName (file : String) : String :=
  (FilePath.ofString file).parent.toString

/-- The folders that hold files, in order, with the names of those. -/
def folders (files : List String) : List (String × List String) :=
  (Disk.sortedNames (files.map folderName).eraseDups).map fun folder =>
    (folder, (files.filter (folderName · == folder)).map fileName)

/-- Whether a value is one of the names of a folder. -/
def isAmong (names : List String) (value : Value) : Except Fault Bool :=
  match value.unhashable? with
  | some shape => .error (.unhashable shape)
  | none => .ok (names.any (value.isText ·))

def pathIn (folder name : String) : String :=
  if folder == "." then name else s!"{folder}/{name}"

def conflictFinding (folder : String) (conflict : Conflict) (name : String) : Issue where
  file := pathIn folder name
  message :=
    if conflict.message.truthy then conflict.message
    else .text s!"{name} conflicts with {conflict.preferred.plain}"
  suggestion := some s!"Merge {name} into {conflict.preferred.plain}"

/-- Every name of a conflict but the preferred one is reported where the folder has them all. -/
def conflictFindings (folder : String) (names : List String) (conflict : Conflict) :
    Except Fault (List Issue) := do
  if ← conflict.files.allM (isAmong names) then
    return (conflict.files.filterMap otherName?).map (conflictFinding folder conflict)
  return []
where
  otherName? : Value → Option String
    | .text name => if conflict.preferred.isText name then none else some name
    | _ => none

def folderFindings (options : Options) (folder : String) (names : List String) :
    Except Fault (List Issue) :=
  return (← options.conflicts.mapM (conflictFindings folder names)).flatten

def check (files : List String) (options : Options := {}) : Except Fault (List Issue) := do
  let details ←
    if options.warnDetailFiles.truthy then Docs.inEach files (detailFindings options) else pure []
  let conflicts ←
    if options.warnConflicts.truthy then
      (folders files).mapM fun (folder, names) => folderFindings options folder names
    else pure []
  return details ++ conflicts.flatten

end DocAudit.StandardFileNames
