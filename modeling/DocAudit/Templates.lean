import DocAudit.Docs

/-!
Templates: folders of Markdown files, one for each category, of which the docs keep copies. The
copies of a category lie in a folder of the same name in the docs.
-/

namespace DocAudit

namespace Templates

def hasCategory (disk : Disk) (templates : FilePath) (category : String) : Except Fault Bool :=
  disk.isFolder (templates.child category)

def categories (disk : Disk) (templates : FilePath) : Except Fault (List String) := do
  let folders := (← disk.entries templates).filter fun (_, node) => node.isFolder
  return Disk.sortedNames (folders.map (·.1))

/-- The names of the templates of a category, in order. -/
def names (disk : Disk) (templates : FilePath) (category : String) :
    Except Fault (List String) := do
  let files := (← disk.entries (templates.child category)).filter fun (name, node) =>
    node.isFile && FilePath.suffix name == ".md"
  return Disk.sortedNames (files.map (·.1))

def pathOf (templates : FilePath) (category name : String) : FilePath :=
  (templates.child category).child name

end Templates

/-- Where the docs keep the copy of a template. -/
def Docs.copyPath (docs : Docs) (category name : String) : FilePath :=
  (docs.path category).child name

/-- Whether a copy and its template differ in any byte. -/
def Disk.differ (disk : Disk) (copy template : FilePath) : Except Fault Bool :=
  return (← disk.readBytes copy) != (← disk.readBytes template)

end DocAudit
