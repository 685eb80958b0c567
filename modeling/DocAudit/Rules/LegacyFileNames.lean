import DocAudit.Docs
import DocAudit.Document.InlineCode
import DocAudit.Rules.Options

/-!
Names of files in an old style, looked for by a regular expression in prose.
-/

namespace DocAudit.LegacyFileNames

structure Options where
  pattern : Value := .text "\\d\x7b2\x7d-[A-Z][A-Z0-9-]+\\.md"
  /-- Pieces of the paths of files that are not checked. -/
  exclude : Value := .ofTexts []

namespace Options

def toEntries (options : Options) : Entries :=
  [("pattern", options.pattern), ("exclude", options.exclude)]

def ofEntries (given : Entries) : Except Fault Options := do
  let standard : Options := {}
  given.requireKnown standard.toEntries.keys
  return {
    pattern := given.option "pattern" standard.pattern
    exclude := given.option "exclude" standard.exclude }

end Options

def finding (file : String) (line : Line) (found : Pattern.Found) : Issue where
  file := file
  line := some line.number
  message := .text s!"Legacy file reference \"{String.ofList found.text}\""
  suggestion := some "Update to new file naming convention"

def findings (pattern : Pattern) (document : Document) : List Issue :=
  document.proseLines.flatMap fun line =>
    (pattern.findAll (InlineCode.blank line.text)).map (finding document.file line)

def isExcluded (options : Options) (file : String) : Except Fault Bool := do
  (← options.exclude.items).anyM (·.occursIn file.toList)

def check (docs : Docs) (files : List String) (options : Options := {}) :
    Except Fault (List Issue) := do
  let pattern ← options.pattern.pattern
  Docs.inEach files fun file => do
    if ← isExcluded options file then return []
    return findings pattern (← docs.document file)

end DocAudit.LegacyFileNames
