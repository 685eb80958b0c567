import DocAudit.Docs
import DocAudit.Rules.Options

/-!
Markers that every document should hold somewhere, in code or not. Two rules look for markers: one
for the version of a document, one for its section on related documents.
-/

namespace DocAudit.Markers

structure Options where
  /-- The texts of which one is enough. -/
  patterns : Value
  /-- Loose patterns of the files to check; nothing means every file. -/
  included : Value := .ofTexts []

namespace Options

def version : Options where
  patterns := .ofTexts ["**バージョン**:", "**Version**:"]

def related : Options where
  patterns := .ofTexts ["関連ドキュメント", "Related Documents"]

def toEntries (options : Options) : Entries :=
  [("patterns", options.patterns), ("include", options.included)]

def ofEntries (standard : Options) (given : Entries) : Except Fault Options := do
  given.requireKnown standard.toEntries.keys
  return {
    patterns := given.option "patterns" standard.patterns
    included := given.option "include" standard.included }

end Options

def targets (files : List String) (options : Options) : Except Fault (List String) :=
  if options.included.truthy then files.filterM (options.included.anyMatchesLoosely ·)
  else .ok files

def lacksMarker (docs : Docs) (patterns : Value) (file : String) : Except Fault Bool := do
  let text ← docs.text file
  return !(← (← patterns.items).anyM (·.occursIn text))

/-- The files to check that hold none of the markers. -/
def missing (docs : Docs) (files : List String) (options : Options) :
    Except Fault (List String) := do
  (← targets files options).filterM (lacksMarker docs options.patterns)

def versionFinding (file : String) : Issue where
  file := file
  message := .text "Missing version info"
  suggestion := some "Add \"**Version**: X.X\" near the top of the document"

def checkVersion (docs : Docs) (files : List String) (options : Options := .version) :
    Except Fault (List Issue) :=
  return (← missing docs files options).map versionFinding

def relatedFinding (file : String) : Issue where
  file := file
  message := .text "Missing related documents section"
  suggestion := some "Add a \"Related Documents\" section"

def checkRelated (docs : Docs) (files : List String) (options : Options := .related) :
    Except Fault (List Issue) :=
  return (← missing docs files options).map relatedFinding

end DocAudit.Markers
