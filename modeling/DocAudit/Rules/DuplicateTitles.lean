import DocAudit.Docs

/-!
Documents with one title. The title of a document is its first heading of level one, if that has
text.
-/

namespace DocAudit.DuplicateTitles

def title? (document : Document) : Option (List Char) :=
  ((document.firstHeading? 1).map (·.text)).filter (!·.isEmpty)

/-- Titles with the files that they belong to. -/
abbrev Titles := List (List Char × String)

def titles (docs : Docs) (files : List String) : Except Fault Titles :=
  return (← files.mapM docs.document).filterMap fun document =>
    (title? document).map fun title => (title, document.file)

def owners (titles : Titles) (title : List Char) : List String :=
  (titles.filter (·.1 == title)).map (·.2)

def finding (title : List Char) (owners : List String) (file : String) : Issue where
  file := file
  message := .text s!"Duplicate title \"{String.ofList title}\" found in {owners.length} files"
  suggestion := some s!"Consider consolidating or renaming: {Fault.commaList owners}"

def titleFindings (titles : Titles) (title : List Char) : List Issue :=
  let owners := owners titles title
  if owners.length < 2 then [] else owners.map (finding title owners)

/-- Titles come in the order in which they are first met. -/
def check (docs : Docs) (files : List String) : Except Fault (List Issue) := do
  let titles ← titles docs files
  return (titles.map (·.1)).eraseDups.flatMap (titleFindings titles)

end DocAudit.DuplicateTitles
