import DocAudit.Document.Fix
import DocAudit.Docs

/-!
Fixing files, one after another. A session remembers each fix that it has made; a dry run makes
the same fixes and leaves the disk as it is.
-/

namespace DocAudit

/-- A file that needed changes, with the disk as it is after them. -/
structure FixedFile where
  path : FilePath
  after : Disk

structure FixSession where
  disk : Disk
  dryRun : Bool
  fixes : List FixedFile := []

namespace FixSession

def store (session : FixSession) (path : FilePath) (text : List Char) : Except Fault Disk :=
  if session.dryRun then .ok session.disk else session.disk.writeText path text

def record (session : FixSession) (fix : FixedFile) : FixSession :=
  { session with disk := fix.after, fixes := session.fixes ++ [fix] }

/-- Fixes a file; the answer says whether it needed changes. -/
def fixFile (session : FixSession) (path : FilePath) : FixSession × Except Fault Bool :=
  match session.disk.readText path with
  | .error fault => (session, .error fault)
  | .ok text =>
    let fixed := Fix.fixText text
    if fixed = text then (session, .ok false)
    else match session.store path fixed with
      | .error fault => (session, .error fault)
      | .ok disk => (session.record ⟨path, disk⟩, .ok true)

/-- Fixes files up to the first fault; the answer counts those that needed changes. -/
def fixFiles (session : FixSession) : List FilePath → FixSession × Except Fault Nat
  | [] => (session, .ok 0)
  | path :: rest =>
    match session.fixFile path with
    | (session, .error fault) => (session, .error fault)
    | (session, .ok changed) =>
      match fixFiles session rest with
      | (session, .error fault) => (session, .error fault)
      | (session, .ok count) => (session, .ok (count + changed.toNat))

/-- The files that needed changes, each once. -/
def modified (session : FixSession) : List FilePath :=
  (session.fixes.map (·.path)).eraseDups

/-- The files that needed changes, ordered by the parts of their paths. -/
def modifiedInOrder (session : FixSession) : List FilePath :=
  session.modified.mergeSort FilePath.lessOrEqual

end FixSession

end DocAudit
