import DocAudit.Docs

/-!
Files that the docs have to hold, as files or as folders.
-/

namespace DocAudit.RequiredFiles

def finding (file : String) : Issue where
  file := file
  message := .text "Required file missing"
  suggestion := some s!"Create the file at {file}"

def check (docs : Docs) (required : List String) : Except Fault (List Issue) := do
  let missing ← required.filterM fun file => return !(← docs.isPresent file)
  return missing.map finding

end DocAudit.RequiredFiles
