import DocAudit.Docs
import DocAudit.Rules.Options
import DocAudit.Text.Case

/-!
Names of files: either all in upper case, or after one of some regular expressions.
-/

namespace DocAudit.FileNaming

structure Options where
  upperCase : Value := .bool false
  /-- Regular expressions of names; nothing means the standard ones. -/
  allowedPatterns : Value := .ofTexts []

namespace Options

def toEntries (options : Options) : Entries :=
  [("upper_case", options.upperCase), ("allowed_patterns", options.allowedPatterns)]

def ofEntries (given : Entries) : Except Fault Options := do
  let standard : Options := {}
  given.requireKnown standard.toEntries.keys
  return {
    upperCase := given.option "upper_case" standard.upperCase
    allowedPatterns := given.option "allowed_patterns" standard.allowedPatterns }

end Options

def standardPatterns : List String :=
  ["^[A-Z][A-Z0-9-]*\\.md$", "^README\\.md$", "^CHANGELOG\\.md$", "^[a-z][a-z0-9-]*\\.md$"]

def extension : List Char := ['.', 'm', 'd']

def withoutFinalNewline (name : List Char) : List Char :=
  if name.getLast? = some '\n' then name.dropLast else name

/-- An upper-case letter, then upper-case letters, digits and hyphens, then the extension; all of
them ASCII. One line feed at the end does not count. -/
def isUpperCase (name : String) : Bool :=
  let name := withoutFinalNewline name.toList
  let stem := name.take (name.length - extension.length)
  extension.isSuffixOf name
    && stem.head?.any Char.isUpper
    && stem.all fun c => c.isUpper || c.isDigit || c == '-'

def upperCaseFinding (file name : String) : Issue where
  file := file
  message := .text s!"File name should be UPPER-CASE: {name}"
  suggestion :=
    some s!"Rename to {String.ofList (Text.toUpper (FilePath.stem name).toList)}.md"

def patternFinding (file name : String) : Issue where
  file := file
  message := .text s!"File name doesn't match naming convention: {name}"
  suggestion := some "Use UPPER-CASE.md or lower-case.md format"

def patterns (options : Options) : Except Fault (List Pattern) := do
  let allowed := options.allowedPatterns
  let given := if allowed.truthy then allowed else .ofTexts standardPatterns
  (← given.items).mapM (·.pattern)

def finding? (options : Options) (patterns : List Pattern) (file : String) : Option Issue :=
  let name := fileName file
  if options.upperCase.truthy then
    if isUpperCase name || name == "README.md" then none else some (upperCaseFinding file name)
  else if patterns.any fun pattern => (pattern.matchStart? name.toList).isSome then none
  else some (patternFinding file name)

def check (files : List String) (options : Options := {}) : Except Fault (List Issue) :=
  return files.filterMap (finding? options (← patterns options))

example : isUpperCase "API-2.md" = true := by decide +kernel

example : isUpperCase "2-API.md" = false := by decide +kernel

end DocAudit.FileNaming
