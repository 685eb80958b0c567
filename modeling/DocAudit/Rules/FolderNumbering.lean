import DocAudit.Rules.FolderStructure
import DocAudit.Rules.Options
import DocAudit.Text.Digit

/-!
Numbers in front of the names of folders. Where one folder is numbered, its neighbours should be
too, and the numbers should follow one another without a gap.
-/

namespace DocAudit.FolderNumbering

structure Options where
  /-- Folders whose folders are checked; an empty path is the docs folder. -/
  strictPaths : Value := .ofTexts ["", "02-spec"]
  checkSequence : Value := .bool true

namespace Options

def toEntries (options : Options) : Entries :=
  [("strict_paths", options.strictPaths), ("check_sequence", options.checkSequence)]

def ofEntries (given : Entries) : Except Fault Options := do
  let standard : Options := {}
  given.requireKnown standard.toEntries.keys
  return {
    strictPaths := given.option "strict_paths" standard.strictPaths
    checkSequence := given.option "check_sequence" standard.checkSequence }

end Options

/-- The number of a folder: two digits before a hyphen, and at least one character of the same
line behind it; a line feed may end the name. -/
def number? (name : String) : Option Nat :=
  match name.toList with
  | tens :: units :: '-' :: c :: rest =>
    if c ≠ '\n' ∧ ¬ rest.dropLast.contains '\n' then
      match Text.digitValue? tens, Text.digitValue? units with
      | some tens, some units => some (10 * tens + units)
      | _, _ => none
    else none
  | _ => none

/-- The number that should stand where numbers in order, counted from `expected`, first differ
from it. -/
def firstGap? (expected : Nat) : List Nat → Option Nat
  | [] => none
  | number :: rest =>
    if number = expected then firstGap? (expected + 1) rest else some expected

def gap? (numbers : List Nat) : Option Nat :=
  let ordered := numbers.mergeSort (· ≤ ·)
  ordered.head?.bind (firstGap? · ordered)

def twoDigits (number : Nat) : String :=
  if number < 10 then s!"0{number}" else toString number

def label (path : String) : String :=
  if path = "" then "(top-level)" else path

def unnumberedFinding (path name : String) : Issue where
  file := if path = "" then name else s!"{path}/{name}"
  message := .text s!"Folder not numbered in {label path}: {name}"
  suggestion := some s!"Rename to follow pattern: XX-{name}"

def gapFinding (path : String) (number : Nat) : Issue where
  file := if path = "" then "." else path
  message := .text s!"Gap in folder numbering at {label path}: missing {twoDigits number}-*"
  suggestion := some "Renumber folders to be sequential"

/-- Findings for the names of the folders in one folder. -/
def findings (path : String) (checkSequence : Bool) (names : List String) : List Issue :=
  let names := names.filter (!isSetAside ·)
  let numbers := names.filterMap number?
  let unnumbered := names.filter fun name => (number? name).isNone
  if numbers.isEmpty then []
  else unnumbered.map (unnumberedFinding path)
    ++ if checkSequence then ((gap? numbers).map (gapFinding path)).toList else []

/-- A value as the path of a folder to check. Everything that counts as false is the docs
folder. -/
def strictPath (value : Value) : Except Fault String :=
  if value.truthy then value.pathPart else .ok ""

def pathFindings (docs : Docs) (checkSequence : Bool) (value : Value) :
    Except Fault (List Issue) := do
  let path ← strictPath value
  let folder := docs.path path
  if ← docs.disk.isFolder folder then
    return findings path checkSequence (← docs.disk.visibleFolders folder)
  return []

def check (docs : Docs) (options : Options := {}) : Except Fault (List Issue) := do
  let values ← options.strictPaths.items
  return (← values.mapM (pathFindings docs options.checkSequence.truthy)).flatten

example : number? "04-testing" = some 4 := by decide +kernel

example : firstGap? 1 [1, 2, 3, 5] = some 4 := by decide

end DocAudit.FolderNumbering
