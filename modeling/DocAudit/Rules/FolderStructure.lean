import DocAudit.Docs

/-!
The layout of the docs: folders that have to be there, the files that belong in them, and folders
at the top that the layout does not know.
-/

namespace DocAudit

/-- Folders at the top that every layout tolerates. -/
def specialFolders : List String := ["translations", "drafts", "images", "assets"]

/-- Whether a folder stands outside of the layout: one of the special ones, or set aside by the
underscore that its name starts with. -/
def isSetAside (name : String) : Bool :=
  specialFolders.contains name || name.toList.head? == some '_'

/-- A folder of a layout. Optional files are known and never reported. -/
structure Folder where
  path : String
  required : Bool := false
  description : Option String := none
  files : List String := []
  optionalFiles : List String := []

namespace FolderStructure

def standard : List Folder :=
  [{ path := "01-plan", required := true, description := some "Planning and proposals"
     files := ["PROPOSAL.md"], optionalFiles := ["MVP.md", "ROADMAP.md"] },
   { path := "02-spec", required := true, description := some "Specifications" },
   { path := "02-spec/01-requirements", required := true, description := some "Requirements"
     files := ["REQUIREMENTS.md"] },
   { path := "02-spec/02-design", required := true, description := some "Design"
     files := ["ARCHITECTURE.md"]
     optionalFiles :=
       ["CLASS.md", "ERROR-HANDLING.md", "API.md", "DATABASE.md", "SCREEN.md", "UML.md"] },
   { path := "02-spec/03-infrastructure", description := some "Infrastructure"
     optionalFiles := ["INFRASTRUCTURE.md", "DEPLOYMENT.md", "SECURITY.md"] },
   { path := "02-spec/04-testing", required := true, description := some "Test specifications"
     files := ["TEST-CASES.md"], optionalFiles := ["TEST.md", "E2E.md"] },
   { path := "03-guide", required := true
     description := some "Guides and operations manuals"
     optionalFiles := ["OPERATION-GUIDE.md", "DEPLOYMENT-GUIDE.md"] },
   { path := "04-development", required := true, description := some "Development standards"
     files := ["SETUP.md"]
     optionalFiles := ["CODING-STANDARDS.md", "TESTING.md", "GIT-WORKFLOW.md", "CI-CD.md"] },
   { path := "05-business", description := some "Business strategy" },
   { path := "06-reference", description := some "Research and references" }]

def missingFolder (folder : Folder) : Issue where
  file := folder.path
  message := .text s!"Required folder missing: {folder.path}"
  suggestion :=
    match folder.description.filter (· ≠ "") with
    | some description => some s!"Create folder for: {description}"
    | none => some "Create the folder"

def missingFile (folder : Folder) (name : String) : Issue where
  file := s!"{folder.path}/{name}"
  message := .text "Expected file missing"
  suggestion := some s!"Create {name} in {folder.path}"

def unknownFolder (name : String) : Issue where
  file := name
  message := .text s!"Unknown top-level folder: {name}"
  suggestion := some "Move its contents into a standard folder or rename it"

def folderFindings (docs : Docs) (folder : Folder) : Except Fault (List Issue) := do
  let path := docs.path folder.path
  if ← docs.disk.isFolder path then
    let missing ← folder.files.filterM fun name =>
      return !(← docs.disk.isPresent (path.child name))
    return missing.map (missingFile folder)
  return if folder.required then [missingFolder folder] else []

/-- The folder at the top in which a folder of the layout lies. -/
def topFolder? (folder : Folder) : Option String :=
  let path := FilePath.ofString folder.path
  if path.isAbsolute then some "/" else path.parts.head?

def unknownFindings (docs : Docs) (folders : List Folder) : Except Fault (List Issue) := do
  let known := folders.filterMap topFolder?
  let unknown := (← docs.disk.visibleFolders docs.root).filter fun name =>
    !(known.contains name || isSetAside name)
  return unknown.map unknownFolder

/-- An empty layout stands for the standard one. -/
def check (docs : Docs) (folders : List Folder := []) (checkUnknown : Bool := true) :
    Except Fault (List Issue) := do
  let folders := if folders.isEmpty then standard else folders
  let findings ← folders.mapM (folderFindings docs)
  let unknown ← if checkUnknown then unknownFindings docs folders else pure []
  return findings.flatten ++ unknown

end FolderStructure

end DocAudit
