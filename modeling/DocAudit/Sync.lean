import DocAudit.Templates

/-!
Copying the templates of a category into the docs. What is there already stays as it is, unless
overwriting is asked for; a check changes nothing and says what a copy would change.
-/

namespace DocAudit.Sync

inductive Mode where
  | add
  | overwrite
  | check
  deriving DecidableEq, Repr

/-- A check stays one where overwriting is asked for, too. -/
def Mode.ofFlags (force check : Bool) : Mode :=
  if check then .check else if force then .overwrite else .add

/-- What has become of a template. -/
inductive Outcome where
  | created
  | updated
  | skipped
  | different
  | same
  deriving DecidableEq, Repr

structure Report where
  created : List String := []
  updated : List String := []
  skipped : List String := []
  different : List String := []
  deriving DecidableEq, Repr

def Report.record (report : Report) (name : String) : Outcome → Report
  | .created => { report with created := report.created ++ [name] }
  | .updated => { report with updated := report.updated ++ [name] }
  | .skipped => { report with skipped := report.skipped ++ [name] }
  | .different => { report with different := report.different ++ [name] }
  | .same => report

/-- What is to become of a template, by the copy that there is. -/
def plan (disk : Disk) (mode : Mode) (template copy : FilePath) : Except Fault Outcome := do
  if ← disk.isPresent copy then
    let differ ← disk.differ copy template
    match mode with
    | .check => return if differ then .different else .same
    | .overwrite => return if differ then .updated else .skipped
    | .add => return .skipped
  return if mode = .check then .different else .created

/-- Whether two paths lead to one place. -/
def leadTogether (disk : Disk) (left right : FilePath) : Bool :=
  match disk.lookup left, disk.lookup right with
  | .found parts _, .found parts' _ => parts == parts'
  | _, _ => false

/-- Copies a file. No file is copied onto itself. -/
def copyFile (disk : Disk) (template copy : FilePath) : Disk × Except Fault Unit :=
  if leadTogether disk template copy then
    (disk, .error (.sameFile template.toString copy.toString))
  else match disk.readBytes template >>= disk.writeBytes copy with
    | .ok written => (written, .ok ())
    | .error fault => (disk, .error fault)

/-- Does what has been planned. A new copy gets its folder, too. -/
def perform (disk : Disk) (outcome : Outcome) (template copy : FilePath) :
    Disk × Except Fault Unit :=
  match outcome with
  | .created =>
    match disk.makeFolders copy.parent with
    | (made, .ok ()) => copyFile made template copy
    | (made, .error fault) => (made, .error fault)
  | .updated => copyFile disk template copy
  | _ => (disk, .ok ())

/-- Copies from folder to folder, name by name, up to the first fault. -/
def copyNames (mode : Mode) (source target : FilePath) :
    Disk → Report → List String → Disk × Except Fault Report
  | disk, report, [] => (disk, .ok report)
  | disk, report, name :: rest =>
    let template := source.child name
    let copy := target.child name
    match plan disk mode template copy with
    | .error fault => (disk, .error fault)
    | .ok outcome =>
      match perform disk outcome template copy with
      | (next, .ok ()) => copyNames mode source target next (report.record name outcome) rest
      | (next, .error fault) => (next, .error fault)

/-- The names of the templates of a category, if there is one of that name. -/
def templateNames (disk : Disk) (templates : FilePath) (category : String) :
    Except Fault (List String) := do
  if ← Templates.hasCategory disk templates category then Templates.names disk templates category
  else throw (.templateMissing category)

def run (disk : Disk) (docs templates : FilePath) (category : String) (mode : Mode) :
    Disk × Except Fault Report :=
  match templateNames disk templates category with
  | .error fault => (disk, .error fault)
  | .ok names =>
    copyNames mode (templates.child category) (docs.child category) disk {} names

end DocAudit.Sync
