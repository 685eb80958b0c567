import DocAudit.Rules.Options
import DocAudit.Templates

/-!
Templates that the docs have no copy of, or one that has been changed.
-/

namespace DocAudit.StandardsDrift

structure Options where
  categories : Value := .ofTexts ["04-development"]
  reportMissing : Value := .bool true
  reportDifferent : Value := .bool true

namespace Options

def toEntries (options : Options) : Entries :=
  [("categories", options.categories),
    ("report_missing", options.reportMissing),
    ("report_different", options.reportDifferent)]

def ofEntries (given : Entries) : Except Fault Options := do
  let standard : Options := {}
  given.requireKnown standard.toEntries.keys
  return {
    categories := given.option "categories" standard.categories
    reportMissing := given.option "report_missing" standard.reportMissing
    reportDifferent := given.option "report_different" standard.reportDifferent }

end Options

def missingFinding (category name : String) : Issue where
  file := s!"{category}/{name}"
  message := .text "Missing standards file from template"
  suggestion := some "Run \"docs-lint sync\" to add this file"

def differentFinding (category name : String) : Issue where
  file := s!"{category}/{name}"
  message := .text "File differs from template"
  suggestion := some <|
    "Run \"docs-lint sync --check\" to see differences "
      ++ "or \"docs-lint sync --force\" to update"

def findings (docs : Docs) (templates : FilePath) (options : Options)
    (category name : String) : Except Fault (List Issue) := do
  let copy := docs.copyPath category name
  if !(← docs.disk.isPresent copy) then
    return if options.reportMissing.truthy then [missingFinding category name] else []
  if options.reportDifferent.truthy then
    if ← docs.disk.differ copy (Templates.pathOf templates category name) then
      return [differentFinding category name]
  return []

/-- A category without templates is passed over. -/
def categoryFindings (docs : Docs) (templates : FilePath) (options : Options)
    (category : String) : Except Fault (List Issue) := do
  if ← Templates.hasCategory docs.disk templates category then
    let names ← Templates.names docs.disk templates category
    return (← names.mapM (findings docs templates options category)).flatten
  return []

def check (docs : Docs) (templates : FilePath) (options : Options := {}) :
    Except Fault (List Issue) := do
  let categories ← options.categories.items
  let found ← categories.mapM fun value => do
    categoryFindings docs templates options (← value.pathPart)
  return found.flatten

end DocAudit.StandardsDrift
