import DocAudit.Docs
import DocAudit.Rules.Options

/-!
The graph of references between documents, and two rules on it: every document but a `README.md`
should be referenced by another one, and a reference should be answered by one that goes back.
-/

namespace DocAudit

/-- The files that each file refers to. A target need not be among the files. -/
abbrev ReferenceGraph := List (String × List String)

namespace ReferenceGraph

/-- What a document refers to, itself left out. -/
def targets (document : Document) : List String :=
  (document.relativeLinks.map (·.resolve document.file)).eraseDups.filter (· != document.file)

def targetsOf (graph : ReferenceGraph) (file : String) : List String :=
  (graph.lookup file).getD []

def refersTo (graph : ReferenceGraph) (source target : String) : Bool :=
  (graph.targetsOf source).contains target

def isReferenced (graph : ReferenceGraph) (file : String) : Bool :=
  graph.any fun (_, targets) => targets.contains file

end ReferenceGraph

def Docs.references (docs : Docs) (files : List String) : Except Fault ReferenceGraph :=
  files.mapM fun file => return (file, ReferenceGraph.targets (← docs.document file))

namespace OrphanDocuments

structure Options where
  /-- Loose patterns of files that are never reported. -/
  exclude : Value := .ofTexts []

namespace Options

def toEntries (options : Options) : Entries :=
  [("exclude", options.exclude)]

def ofEntries (given : Entries) : Except Fault Options := do
  let standard : Options := {}
  given.requireKnown standard.toEntries.keys
  return { exclude := given.option "exclude" standard.exclude }

end Options

def entryPoint : String := "README.md"

def finding (file : String) : Issue where
  file := file
  message := .text "Document not referenced anywhere"
  suggestion := some "Add a link from another document or README.md"

def isExcluded (options : Options) (file : String) : Except Fault Bool :=
  if options.exclude.truthy then options.exclude.anyMatchesLoosely file else .ok false

def isOrphan (graph : ReferenceGraph) (options : Options) (file : String) :
    Except Fault Bool := do
  if fileName file == entryPoint then return false
  if ← isExcluded options file then return false
  return !graph.isReferenced file

def check (docs : Docs) (files : List String) (options : Options := {}) :
    Except Fault (List Issue) := do
  let graph ← docs.references files
  return (← files.filterM (isOrphan graph options)).map finding

end OrphanDocuments

namespace BackReferences

def finding (file target : String) : Issue where
  file := file
  message := .text s!"References \"{target}\" but no back-reference exists"
  suggestion := some s!"Add a link back from \"{target}\""

/-- The checked files that a file refers to and that do not refer to it. -/
def unanswered (graph : ReferenceGraph) (files : List String) (file : String) : List String :=
  Disk.sortedNames <| (graph.targetsOf file).filter fun target =>
    files.contains target && !graph.refersTo target file

def check (docs : Docs) (files : List String) : Except Fault (List Issue) := do
  let graph ← docs.references files
  return files.flatMap fun file => (unanswered graph files file).map (finding file)

end BackReferences

end DocAudit
