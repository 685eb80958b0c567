import DocAudit.Docs
import DocAudit.Rules.Options

/-!
From requirements to test cases. Requirements are named by identifiers in the files that state
them; one is covered when a file of test cases names it too.
-/

namespace DocAudit.Traceability

structure Options where
  requirementPattern : Value := .text "FR-([A-Z]+-)*\\d\x7b3\x7d"
  testCasePattern : Value := .text "TC-[UIEPSDX]\\d\x7b3\x7d"
  requirementFiles : Value := .ofTexts ["**/REQUIREMENTS.md", "**/01-requirements/**/*.md"]
  testCaseFiles : Value :=
    .ofTexts
      ["**/TEST-CASES.md", "**/TEST.md", "**/05-testing/**/*.md", "**/*-TESTS.md",
        "**/DEFERRED-TESTS.md"]
  requiredCoverage : Value := .int 100
  requireTestFile : Value := .bool true
  requireRequirementIds : Value := .bool true
  requireTestCaseIds : Value := .bool true

namespace Options

def toEntries (options : Options) : Entries :=
  [("requirement_pattern", options.requirementPattern),
    ("test_case_pattern", options.testCasePattern),
    ("requirement_files", options.requirementFiles),
    ("test_case_files", options.testCaseFiles),
    ("required_coverage", options.requiredCoverage),
    ("require_test_file", options.requireTestFile),
    ("require_requirement_ids", options.requireRequirementIds),
    ("require_test_case_ids", options.requireTestCaseIds)]

def ofEntries (given : Entries) : Except Fault Options := do
  let standard : Options := {}
  given.requireKnown standard.toEntries.keys
  return {
    requirementPattern := given.option "requirement_pattern" standard.requirementPattern
    testCasePattern := given.option "test_case_pattern" standard.testCasePattern
    requirementFiles := given.option "requirement_files" standard.requirementFiles
    testCaseFiles := given.option "test_case_files" standard.testCaseFiles
    requiredCoverage := given.option "required_coverage" standard.requiredCoverage
    requireTestFile := given.option "require_test_file" standard.requireTestFile
    requireRequirementIds :=
      given.option "require_requirement_ids" standard.requireRequirementIds
    requireTestCaseIds := given.option "require_test_case_ids" standard.requireTestCaseIds }

end Options

/-- A requirement with the line on which it is first named. -/
structure Requirement where
  id : List Char
  file : String
  line : Nat
  description : List Char
  deriving DecidableEq, Repr

structure Coverage where
  requirements : List Requirement
  /-- Everything that the test cases name. -/
  covered : List (List Char)
  requirementFiles : List String
  testCaseFiles : List String

namespace Coverage

def uncovered (coverage : Coverage) : List Requirement :=
  coverage.requirements.filter fun requirement => !coverage.covered.contains requirement.id

def percent (coverage : Coverage) : Float :=
  let total := coverage.requirements.length
  if total = 0 then 100
  else Float.ofNat (total - coverage.uncovered.length) / Float.ofNat total * 100

end Coverage

/-- The regular expression of a requirement alone, and of one that follows a test case on the same
line, perhaps in brackets. -/
structure IdPatterns where
  requirement : Pattern
  paired : Pattern

def pairedName : List Char := ['r', 'e', 'q']

def pairedText (options : Options) : String :=
  s!"(?P<tc>{options.testCasePattern.plain}).*?\\[?(?P<req>{options.requirementPattern.plain})\\]?"

def IdPatterns.ofOptions (options : Options) : Except Fault IdPatterns :=
  return {
    requirement := ← options.requirementPattern.pattern
    paired := ← (Value.text (pairedText options)).pattern }

def descriptionLength : Nat := 100

/-- Every place where a line of a document names a requirement. -/
def sightings (pattern : Pattern) (document : Document) : List Requirement :=
  document.lines.flatMap fun line =>
    (pattern.findAll line.text).map fun found =>
      ⟨found.text, document.file, line.number, line.text.take descriptionLength⟩

/-- Of the sightings of each requirement, the first one. -/
def firstSightings (sightings : List Requirement) : List Requirement :=
  (sightings.foldl keepFirst []).reverse
where
  keepFirst (kept : List Requirement) (sighting : Requirement) : List Requirement :=
    if kept.any (·.id == sighting.id) then kept else sighting :: kept

/-- What a line of a test case names. -/
def namedOn (patterns : IdPatterns) (line : Line) : List (List Char) :=
  (patterns.paired.findAll line.text).filterMap (patterns.paired.named? · pairedName)
    ++ (patterns.requirement.findAll line.text).map (·.text)

def namedIn (patterns : IdPatterns) (document : Document) : List (List Char) :=
  document.lines.flatMap (namedOn patterns)

def coverage (docs : Docs) (files : List String) (options : Options := {}) :
    Except Fault Coverage := do
  let patterns ← IdPatterns.ofOptions options
  let requirementFiles ← selectFiles files options.requirementFiles
  let testCaseFiles ← selectFiles files options.testCaseFiles
  let stated ← requirementFiles.mapM docs.document
  let tested ← testCaseFiles.mapM docs.document
  return {
    requirements := firstSightings (stated.flatMap (sightings patterns.requirement))
    covered := (tested.flatMap (namedIn patterns)).eraseDups
    requirementFiles := requirementFiles
    testCaseFiles := testCaseFiles }

/-- Whether a regular expression is found in one of some files, taken whole. -/
def isFoundIn (docs : Docs) (files : List String) (value : Value) : Except Fault Bool := do
  let pattern ← value.pattern
  files.anyM fun file => return pattern.occursIn (← docs.text file)

def docsLabel : String := "."

def noTestFiles : Issue where
  file := docsLabel
  message := .text "No test case files found"
  suggestion := some "Create TEST-CASES.md or add test cases under a 05-testing/ folder"

def noRequirements (file : String) : Issue where
  file := file
  message := .text "No requirement IDs found"
  suggestion := some "Give each functional requirement an ID such as FR-001, FR-002"

def noTestCases (file : String) : Issue where
  file := file
  message := .text "No test case IDs found"
  suggestion := some <|
    "Give each test case an ID such as TC-U001 (unit), TC-I001 (integration), "
      ++ "TC-E001 (E2E)"

def untested (requirement : Requirement) : Issue :=
  let id := String.ofList requirement.id
  { file := requirement.file
    line := some requirement.line
    message := .text s!"Requirement {id} has no test case"
    suggestion := some s!"Add a test case covering {id} to TEST-CASES.md" }

/-- The finding for files in which nothing is found, if one is asked for. -/
def absence (docs : Docs) (required : Value) (files : List String) (pattern : Value)
    (finding : String → Issue) : Except Fault (List Issue) := do
  match files with
  | [] => return []
  | first :: _ =>
    if !required.truthy then return []
    return if ← isFoundIn docs files pattern then [] else [finding first]

/-- Whether a number lies below a bound that is one too. -/
def isBelow (number : Float) (bound : Value) : Except Fault Bool :=
  match bound with
  | .int bound => .ok (Decimal.lessThanInt number bound)
  | .float bound => .ok (number < bound)
  | .bool bound => .ok (number < if bound then 1 else 0)
  | value => .error (.notOrdered value.shape)

/-- A bound as a message shows it. -/
def boundText (bound : Value) : Except Fault String :=
  match bound with
  | .int bound =>
    let number := Float.ofInt bound
    if number.isInf then .error .numberTooLarge
    else .ok (String.ofList (Decimal.generalText number))
  | .float bound => .ok (String.ofList (Decimal.generalText bound))
  | .bool bound => .ok (if bound then "1" else "0")
  | value => .error (.notOrdered value.shape)

/-- The finding for all requirements together, where too few of them are covered. -/
def rollup (options : Options) (coverage : Coverage) : Except Fault (List Issue) := do
  if coverage.requirements.isEmpty then return []
  if !(← isBelow coverage.percent options.requiredCoverage) then return []
  let percent := String.ofList (Decimal.fixedText 1 coverage.percent)
  let bound ← boundText options.requiredCoverage
  let ids := coverage.uncovered.map fun requirement => String.ofList requirement.id
  return [{
    file := docsLabel
    message := .text s!"Requirement coverage is {percent}% (required: {bound}%)"
    suggestion := some s!"Uncovered requirements: {Fault.commaList ids}" }]

def check (docs : Docs) (files : List String) (options : Options := {}) :
    Except Fault (List Issue) := do
  let coverage ← coverage docs files options
  let missing :=
    if options.requireTestFile.truthy && coverage.testCaseFiles.isEmpty
        && !coverage.requirementFiles.isEmpty then [noTestFiles]
    else []
  let unnamed ← absence docs options.requireRequirementIds coverage.requirementFiles
    options.requirementPattern noRequirements
  let untried ← absence docs options.requireTestCaseIds coverage.testCaseFiles
    options.testCasePattern noTestCases
  let total ← rollup options coverage
  return missing ++ unnamed ++ untried ++ coverage.uncovered.map untested ++ total

end DocAudit.Traceability
