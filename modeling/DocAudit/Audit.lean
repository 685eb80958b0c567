import DocAudit.Config.Basic
import DocAudit.Logged

/-!
Running the rules. A run first discovers the files, which can fail; a rule that fails after that
is a finding of its own and stops no other rule.
-/

namespace DocAudit.Audit

/-- The folder of the docs from the top of the disk. Dots in its path are taken back by name,
whatever the disk holds. -/
def docsRoot (disk : Disk) (docsDir : String) : Except Fault FilePath :=
  if docsDir.contains '\x00' then .error .nulInLookup
  else .ok (FilePath.fromTop (disk.absoluteParts (.ofString docsDir))).collapsed

/-- The docs of a configuration, which have to be there. -/
def docsOf (disk : Disk) (config : Config) : Except Fault Docs := do
  let root ← docsRoot disk config.docsDir
  if ← disk.isFolder root then return ⟨disk, root⟩
  throw (.docsMissing root.toString)

def discover (docs : Docs) (config : Config) : Logged (List String) :=
  match docs.discover (.ofTexts config.included) (.ofTexts config.excluded) with
  | .ok files =>
    { log := [s!"Discovered {files.length} files in {docs.root.toString}"]
      outcome := .ok files }
  | .error fault => .ofOutcome (.error fault)

def inputOf (docs : Docs) (files : List String) (templates : FilePath) (config : Config) :
    Input where
  docs := docs
  files := files
  templates := templates
  terms := config.terms
  requiredFiles := config.requiredFiles
  languages := config.languages

/-! ## Single rules -/

/-- A fault is told of in one finding that belongs to no file. -/
def issuesOf (found : Except Fault (List Issue)) : List Issue :=
  match found with
  | .ok issues => issues
  | .error fault => [{ file := "", message := .text s!"Rule error: {fault.message}" }]

/-- A rule that has run, with what it has found. -/
structure Visit where
  name : String
  severity : Severity
  found : Except Fault (List Issue)

namespace Visit

def result (visit : Visit) : RuleResult where
  rule := visit.name
  severity := visit.severity
  issues := issuesOf visit.found

def log (visit : Visit) : List String :=
  s!"Running {visit.name}" ::
    match visit.found with
    | .ok _ => []
    | .error fault => [s!"Rule {visit.name} failed: {fault.message}"]

end Visit

/-! ## Runs -/

/-- The rules that are asked for by name; an empty `only` means every rule. -/
structure Selection where
  only : List String := []
  skip : List String := []

def shouldRun (config : Config) (selection : Selection) (rule : Rule) : Bool :=
  config.severity rule != .off
    && !selection.skip.contains rule.name
    && (selection.only.isEmpty || selection.only.contains rule.name)

/-- What becomes of a rule that is to run: without anything to look at it is skipped. -/
inductive Step where
  | skipped (rule : Rule)
  | visited (visit : Visit)

namespace Step

def log : Step → List String
  | skipped rule => [s!"Skipping {rule.name}: nothing to check"]
  | visited visit => visit.log

def result? : Step → Option RuleResult
  | skipped _ => none
  | visited visit => some visit.result

end Step

def ruleVisit (config : Config) (rule : Rule) (options : rule.Options) (input : Input) : Visit :=
  ⟨rule.name, config.severity rule, rule.check options input⟩

def step (config : Config) (input : Input) (rule : Rule) : Step :=
  if rule.applies input then
    .visited (ruleVisit config rule (config.settings rule).options input)
  else .skipped rule

def runRules (config : Config) (selection : Selection) (input : Input) : Logged Report :=
  let steps := (Rule.all.filter (shouldRun config selection)).map (step config input)
  { log := steps.flatMap Step.log
    outcome := .ok (.ofResults input.files.length (steps.filterMap Step.result?)) }

def requireFiles (docs : Docs) (files : List String) : Except Fault (List String) :=
  if files.isEmpty then .error (.noDocuments docs.root.toString) else .ok files

def run (disk : Disk) (templates : FilePath) (config : Config) (selection : Selection := {}) :
    Logged Report :=
  (Logged.ofOutcome (docsOf disk config)).andThen fun docs =>
    ((discover docs config).andThen fun files => .ofOutcome (requireFiles docs files)).andThen
      fun files => runRules config selection (inputOf docs files templates config)

/-! ## The layout alone -/

/-- What a check of the layout asks for; an empty layout stands for the standard one. -/
structure Layout where
  folders : List Folder := []
  numbered : Bool := false
  upperCase : Bool := false

def layoutName : String := "folderStructure"

def layoutVisit (config : Config) (docs : Docs) (layout : Layout) : Visit :=
  ⟨layoutName, (config.named layoutName).severity, FolderStructure.check docs layout.folders⟩

/-- The options for names of files, with the case that the layout asks for. -/
def namingOptions (config : Config) (layout : Layout) : FileNaming.Options :=
  let options : FileNaming.Options := (config.settings .fileNaming).options
  { options with upperCase := .bool layout.upperCase }

def layoutVisits (config : Config) (layout : Layout) (input : Input) : List Visit :=
  let numbering :=
    if layout.numbered then
      [ruleVisit config .folderNumbering (config.settings .folderNumbering).options input]
    else []
  layoutVisit config input.docs layout :: numbering
    ++ [ruleVisit config .fileNaming (namingOptions config layout) input,
      ruleVisit config .duplicateContent (config.settings .duplicateContent).options input]

def runLayout (disk : Disk) (templates : FilePath) (config : Config) (layout : Layout) :
    Logged (List RuleResult) :=
  (Logged.ofOutcome (docsOf disk config)).andThen fun docs =>
    (discover docs config).andThen fun files =>
      let visits := layoutVisits config layout (inputOf docs files templates config)
      { log := visits.flatMap Visit.log
        outcome := .ok (visits.map Visit.result) }

end DocAudit.Audit
