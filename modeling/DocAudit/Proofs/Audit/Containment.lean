import DocAudit.Proofs.Audit.Results
import DocAudit.Proofs.Tree.Acceptance
import DocAudit.Proofs.Tree.StandardDiscovery

/-!
How a run ends. It gives up only where there are no docs or nothing in them to check, and then
before any rule has run. Else every rule that is asked for has its result, and a rule that fails is
one finding among them.
-/

namespace DocAudit.Audit

/-- What a rule needs so that there is anything to look at. Most rules need nothing. -/
def HasWork (disk : Disk) (templates : FilePath) (config : Config) : Rule → Prop
  | .terminology => config.terms ≠ []
  | .requiredFiles => config.requiredFiles ≠ []
  | .standardsDrift => disk.hasFolder templates = true
  | _ => True

structure IsEnabled (disk : Disk) (templates : FilePath) (config : Config) (selection : Selection)
    (rule : Rule) : Prop where
  severity : (config.settings rule).severity ≠ .off
  notSkipped : rule.name ∉ selection.skip
  asked : selection.only ≠ [] → rule.name ∈ selection.only
  work : HasWork disk templates config rule

/-- A result that tells of a rule what its check has found, or the one fault that has stopped it. -/
structure IsResultOf (config : Config) (input : Input) (rule : Rule) (result : RuleResult) :
    Prop where
  named : result.rule = rule.name
  severity : result.severity = (config.settings rule).severity
  found : ∀ issues, rule.check (config.settings rule).options input = .ok issues →
    result.issues = issues
  failed : ∀ fault, rule.check (config.settings rule).options input = .error fault →
    result.issues = [{ file := "", message := .text s!"Rule error: {fault.message}" }]

/-- The rules that have run on some files are the enabled ones in the order of all rules, once
each, and every one of them has its result. -/
structure Finished (disk : Disk) (templates : FilePath) (config : Config) (selection : Selection)
    (input : Input) (ran : List Rule) (results : List RuleResult) : Prop where
  ordered : ran.Sublist Rule.all
  once : ran.Nodup
  enabled : ∀ rule, rule ∈ ran ↔ IsEnabled disk templates config selection rule
  results : List.Forall₂ (IsResultOf config input) ran results

/-- The ways in which a run can end. Messages of rules are there only in the last one. -/
inductive Ending (disk : Disk) (templates : FilePath) (config : Config) (selection : Selection)
    (ended : Logged Report) : Prop where
  | docsMissing
      (missing : disk.isFolder (disk.resolved config.docsDir) = .ok false)
      (outcome : ended.outcome = .error (.docsMissing (disk.resolved config.docsDir).toString))
      (log : ended.log = [])
  | noDocuments
      (present : disk.isFolder (disk.resolved config.docsDir) = .ok true)
      (discovered : Docs.discover ⟨disk, disk.resolved config.docsDir⟩ (.ofTexts config.included)
        (.ofTexts config.excluded) = .ok [])
      (outcome : ended.outcome = .error (.noDocuments (disk.resolved config.docsDir).toString))
      (log : ended.log =
        [s!"Discovered 0 files in {(disk.resolved config.docsDir).toString}"])
  | finished (files : List String) (ran : List Rule) (results : List RuleResult)
      (present : disk.isFolder (disk.resolved config.docsDir) = .ok true)
      (discovered : Docs.discover ⟨disk, disk.resolved config.docsDir⟩ (.ofTexts config.included)
        (.ofTexts config.excluded) = .ok files)
      (nonempty : files ≠ [])
      (outcome : ended.outcome = .ok (.ofResults files.length results))
      (finished : Finished disk templates config selection
        (inputOf ⟨disk, disk.resolved config.docsDir⟩ files templates config) ran results)

/-! ## Rules -/

theorem applies_inputOf {docs : Docs} {files : List String} {templates : FilePath}
    {config : Config} {rule : Rule} :
    rule.applies (inputOf docs files templates config) = true ↔
      HasWork docs.disk templates config rule := by
  cases rule <;> simp [Rule.applies, HasWork, inputOf]

theorem shouldRun_iff {config : Config} {selection : Selection} {rule : Rule} :
    shouldRun config selection rule = true ↔
      (config.settings rule).severity ≠ .off ∧ rule.name ∉ selection.skip ∧
        (selection.only ≠ [] → rule.name ∈ selection.only) := by
  simp [shouldRun, Config.severity, and_assoc, or_iff_not_imp_left]

theorem comesToRun_inputOf {docs : Docs} {files : List String} {templates : FilePath}
    {config : Config} {selection : Selection} {rule : Rule} :
    comesToRun config selection (inputOf docs files templates config) rule = true ↔
      IsEnabled docs.disk templates config selection rule := by
  rw [comesToRun, Bool.and_eq_true, shouldRun_iff, applies_inputOf]
  constructor
  · rintro ⟨⟨severity, notSkipped, asked⟩, work⟩
    exact ⟨severity, notSkipped, asked, work⟩
  · rintro ⟨severity, notSkipped, asked, work⟩
    exact ⟨⟨severity, notSkipped, asked⟩, work⟩

theorem isResultOf_resultOf (config : Config) (input : Input) (rule : Rule) :
    IsResultOf config input rule (resultOf config input rule) where
  named := rfl
  severity := rfl
  found := by
    intro issues found
    rw [resultOf, ruleVisit, found]
    rfl
  failed := by
    intro fault failed
    rw [resultOf, ruleVisit, failed]
    rfl

theorem finished_ranRules (docs : Docs) (files : List String) (templates : FilePath)
    (config : Config) (selection : Selection) :
    Finished docs.disk templates config selection (inputOf docs files templates config)
      (ranRules config selection (inputOf docs files templates config))
      ((ranRules config selection (inputOf docs files templates config)).map
        (resultOf config (inputOf docs files templates config))) where
  ordered := List.filter_sublist
  once := nodup_ranRules ..
  enabled _ := mem_ranRules.trans comesToRun_inputOf
  results := by
    rw [List.forall₂_map_right_iff, List.forall₂_same]
    exact fun rule _ => isResultOf_resultOf config _ rule

/-! ## Docs -/

theorem isFolder_of_accepts {disk : Disk} {path : String} (accepted : disk.Accepts path) :
    ∃ answer, disk.isFolder (disk.resolved path) = .ok answer := by
  obtain ⟨found, reached⟩ := Disk.node?_of_accepts accepted
  rw [Disk.isFolder, reached]
  exact ⟨_, rfl⟩

theorem docsOf_of_accepts {disk : Disk} {config : Config} {answer : Bool}
    (accepted : disk.Accepts config.docsDir)
    (answered : disk.isFolder (disk.resolved config.docsDir) = .ok answer) :
    docsOf disk config =
      if answer then .ok ⟨disk, disk.resolved config.docsDir⟩
      else .error (.docsMissing (disk.resolved config.docsDir).toString) := by
  rw [docsOf, docsRoot_of_accepts accepted]
  simp only [bind, Except.bind, answered]
  rfl

theorem discover_of_isFolder (docs : Docs) (present : docs.disk.isFolder docs.root = .ok true)
    (included excluded : List String) :
    ∃ files, docs.discover (.ofTexts included) (.ofTexts excluded) = .ok files := by
  rw [Disk.isFolder] at present
  cases reached : docs.disk.node? docs.root with
  | error fault =>
    rw [reached] at present
    cases present
  | ok found =>
    rw [Docs.discover, reached]
    simp only [bind, Except.bind]
    split
    · exact ⟨_, Discovery.select_ofTexts included excluded _⟩
    · exact ⟨[], rfl⟩

theorem discover_ok {docs : Docs} {config : Config} {files : List String}
    (discovered : docs.discover (.ofTexts config.included) (.ofTexts config.excluded) =
      .ok files) :
    discover docs config =
      { log := [s!"Discovered {files.length} files in {docs.root.toString}"]
        outcome := .ok files } := by
  rw [discover, discovered]

end DocAudit.Audit
