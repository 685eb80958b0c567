import DocAudit.Audit
import DocAudit.Proofs.Fixing.FixedCoverage

/-!
What fixing does to the verdict of a run: nothing. Each rule that can fail a run in the standard
configuration finds in fixed docs what it found in them before, so a run passes, fails or stops
with a fault as it did.
-/

namespace DocAudit

open DocAudit.Fix Pattern StandardPatterns

/-! ## Single rules -/

/-- A rule that reads the documents of the files it does not leave out finds in fixed docs what it
found before, if it does so in each document. -/
theorem inEach_fixedAt (docs : Docs) (places : List (List String)) (files : List String)
    (leavesOut : String → Except Fault Bool)
    {findings findingsAfter : String → Document → Except Fault (List Issue)}
    (same : ∀ file before after, Document.FixedOrSame before after →
      findingsAfter file after = findings file before) :
    Docs.inEach files (fun file => do
        if ← leavesOut file then return []
        findingsAfter file (← (docs.fixedAt places).document file)) =
      Docs.inEach files (fun file => do
        if ← leavesOut file then return []
        findings file (← docs.document file)) := by
  refine congrArg (Docs.inEach files) (funext fun file => Eq.symm (Agree.eq ?_))
  apply Agree.bind_same
  intro leftOut _
  cases leftOut with
  | true => exact .ok rfl
  | false =>
    apply (docs.agree_document places file).bind
    intro before after related
    rw [same file before after related]
    exact .refl (fun _ => rfl) _

namespace BrokenLinks

theorem isBroken_fixedAt (docs : Docs) (places : List (List String)) (file : String) :
    isBroken (docs.fixedAt places) file = isBroken docs file := by
  funext link
  rw [isBroken, docs.isPresent_fixedAt, isBroken]
  rfl

theorem check_fixedAt (docs : Docs) (places : List (List String)) (files : List String)
    (options : Options) :
    check (docs.fixedAt places) files options = check docs files options := by
  apply inEach_fixedAt docs places files options.excludePaths.anyGlobMatches
  intro file before after related
  rw [isBroken_fixedAt, Document.relativeLinks, Document.relativeLinks, related.links]

end BrokenLinks

namespace LegacyFileNames

/-- A finding from the text of a match. -/
def findingOf (file : String) (number : Nat) (text : List Char) : Issue where
  file := file
  line := some number
  message := .text s!"Legacy file reference \"{String.ofList text}\""
  suggestion := some "Update to new file naming convention"

theorem findings_eq (document : Document) :
    findings legacy document =
      document.lines.flatMap fun line =>
        if line.kind = .prose then
          (legacy.seen (InlineCode.blank line.text)).map fun view =>
            findingOf document.file line.number view.1
        else [] := by
  rw [findings, Document.proseLines, flatMap_filter]
  congr 1
  funext line
  by_cases prose : line.kind = .prose
  · rw [if_pos prose, prose, ← map_view_findAll solid_legacy, List.map_map]
    rfl
  · rw [if_neg prose]
    exact if_neg fun same => prose (eq_of_beq same)

theorem findings_fixed {before after : Document}
    (related : Document.FixedOrSame before after) :
    findings legacy after = findings legacy before := by
  rw [findings_eq, findings_eq, related.file]
  apply related.flatMap_lines
  · intro line line' fixed
    rw [fixed.kind, fixed.number, fixed.view ignoresSpacing_legacy]
  · intro line empty
    rw [empty.text]
    exact ite_self []

theorem check_fixedAt (docs : Docs) (places : List (List String)) (files : List String) :
    check (docs.fixedAt places) files = check docs files := by
  have read : Value.pattern ({} : Options).pattern = .ok legacy :=
    Traceability.pattern_of_parse parse_legacy
  rw [check, read, check, read]
  apply inEach_fixedAt docs places files (isExcluded {})
  intro file before after related
  rw [findings_fixed related]

end LegacyFileNames

namespace FolderStructure

theorem folderFindings_fixedAt (docs : Docs) (places : List (List String)) :
    folderFindings (docs.fixedAt places) = folderFindings docs := by
  funext folder
  simp only [folderFindings, docs.isFolder_fixedAt, docs.isPresent_fixedAt]
  rfl

theorem check_fixedAt (docs : Docs) (places : List (List String)) (folders : List Folder)
    (checkUnknown : Bool) :
    check (docs.fixedAt places) folders checkUnknown = check docs folders checkUnknown := by
  have sameUnknown (folders : List Folder) :
      unknownFindings (docs.fixedAt places) folders = unknownFindings docs folders := by
    simp only [unknownFindings, docs.visibleFolders_fixedAt]
    rfl
  simp only [check, folderFindings_fixedAt, sameUnknown]

end FolderStructure

def Input.fixedAt (input : Input) (places : List (List String)) : Input :=
  { input with docs := input.docs.fixedAt places }

theorem check_standardOptions_fixedAt {rule : Rule} (severe : rule.standardSeverity = .error)
    (input : Input) (places : List (List String)) :
    rule.check rule.standardOptions (input.fixedAt places) =
      rule.check rule.standardOptions input := by
  cases rule with
  | brokenLinks => exact BrokenLinks.check_fixedAt input.docs places input.files {}
  | legacyFileNames => exact LegacyFileNames.check_fixedAt input.docs places input.files
  | standardFolderStructure => exact FolderStructure.check_fixedAt input.docs places _ true
  | requirementTestMapping => exact Traceability.check_fixedAt input.docs places input.files
  | _ => cases severe

/-! ## Whole runs -/

namespace Audit

theorem agree_docsOf (disk : Disk) (places : List (List String)) (config : Config) :
    Agree (fun before after => after = before.fixedAt places) (docsOf disk config)
      (docsOf (disk.fixedAt places) config) := by
  apply Agree.bind_same
  intro root _
  rw [Disk.fixedAt, disk.isFolder_overwrite]
  apply Agree.bind_same
  intro isFolder _
  cases isFolder with
  | true => exact .ok rfl
  | false => exact .error _

theorem discover_fixedAt (docs : Docs) (places : List (List String)) (config : Config) :
    (discover (docs.fixedAt places) config).outcome = (discover docs config).outcome := by
  rw [discover, docs.discover_fixedAt, discover]
  cases docs.discover (.ofTexts config.included) (.ofTexts config.excluded) <;> rfl

/-- The result of a rule that can fail a run in the standard configuration; other rules have none
that counts. -/
theorem filter_result?_step (environment : Environment) (input : Input) (rule : Rule) :
    ((step (.standard environment) input rule).result?.filter (·.severity == .error)) =
      if rule.standardSeverity = .error then
        some ⟨rule.name, .error, issuesOf (rule.check rule.standardOptions input)⟩
      else none := by
  rw [step]
  split
  · next applies =>
    simp only [Step.result?, Visit.result, ruleVisit, Option.filter_some]
    change (if (rule.standardSeverity == Severity.error) = true then _ else none) = _
    by_cases severe : rule.standardSeverity = .error
    · have severity : (Config.standard environment).severity rule = .error := severe
      rw [if_pos severe, if_pos (beq_iff_eq.mpr severe), severity]
      rfl
    · rw [if_neg severe, if_neg (fun same => severe (eq_of_beq same))]
  · next idle =>
    have mild : rule.standardSeverity ≠ .error := by
      intro severe
      cases rule <;> first | exact idle rfl | cases severe
    rw [if_neg mild]
    rfl

theorem passed_runRules_fixedAt (environment : Environment) (selection : Selection)
    (docs : Docs) (places : List (List String)) (files : List String) (templates : FilePath) :
    Agree (fun before after => after.passed = before.passed)
      (runRules (.standard environment) selection
        (inputOf docs files templates (.standard environment))).outcome
      (runRules (.standard environment) selection
        (inputOf (docs.fixedAt places) files templates (.standard environment))).outcome := by
  apply Agree.ok
  simp only [Report.ofResults, List.filterMap_map, List.filter_filterMap]
  congr 1
  apply List.filterMap_congr
  intro rule _
  have before := filter_result?_step environment
    (inputOf docs files templates (.standard environment)) rule
  have after := filter_result?_step environment
    (inputOf (docs.fixedAt places) files templates (.standard environment)) rule
  refine after.trans (Eq.trans ?_ before.symm)
  by_cases severe : rule.standardSeverity = .error
  · have sameFindings := check_standardOptions_fixedAt severe
      (inputOf docs files templates (.standard environment)) places
    rw [if_pos severe, if_pos severe, ← sameFindings]
    rfl
  · rw [if_neg severe, if_neg severe]

theorem agree_run_fixedAt (environment : Environment) (disk : Disk)
    (places : List (List String)) (templates : FilePath) (selection : Selection) :
    Agree (fun before after => after.passed = before.passed)
      (run disk templates (.standard environment) selection).outcome
      (run (disk.fixedAt places) templates (.standard environment) selection).outcome := by
  simp only [run, Logged.outcome_andThen]
  apply (agree_docsOf disk places (.standard environment)).bind
  rintro docs after rfl
  rw [discover_fixedAt]
  apply Agree.bind_same
  intro files _
  exact passed_runRules_fixedAt environment selection docs places files templates

end Audit

/-- Two disks between which a run in the standard configuration makes no difference: it takes in the
same files, every rule that can fail it finds the same, and it passes, fails or stops with a fault
alike. -/
structure SameVerdict (environment : Environment) (templates : FilePath) (before after : Disk) :
    Prop where
  discovered : ∀ root, Docs.discoverDefault ⟨after, root⟩ = Docs.discoverDefault ⟨before, root⟩
  findings : ∀ rule : Rule, rule.standardSeverity = .error → ∀ root files,
    rule.check rule.standardOptions
        (Audit.inputOf ⟨after, root⟩ files templates (.standard environment)) =
      rule.check rule.standardOptions
        (Audit.inputOf ⟨before, root⟩ files templates (.standard environment))
  passed : (Audit.run after templates (.standard environment)).outcome.map (·.passed) =
    (Audit.run before templates (.standard environment)).outcome.map (·.passed)

/-- Fixing files never changes the verdict, whichever files are fixed and whether or not all of them
can be read. A folder of a file system holds no two entries of one name. -/
theorem fixFiles_preserves_verdict (disk : Disk) (distinct : disk.root.HasDistinctNames)
    (paths : List FilePath) (environment : Environment) (templates : FilePath) :
    SameVerdict environment templates disk
      (FixSession.fixFiles { disk := disk, dryRun := false } paths).1.disk := by
  rcases fixFiles_disk { disk := disk, dryRun := false } paths distinct with
    ⟨places, -, fixedDisk⟩
  rw [fixedDisk]
  refine ⟨?_, ?_, ?_⟩
  · intro root
    exact Docs.discover_fixedAt ⟨disk, root⟩ places _ _
  · intro rule severe root files
    exact check_standardOptions_fixedAt severe
      (Audit.inputOf ⟨disk, root⟩ files templates (.standard environment)) places
  · exact (Audit.agree_run_fixedAt environment disk places templates {}).map_eq

theorem fixFiles_preserves_verdict_unspaced :
    let disk : Disk :=
      { root := .folder [("docs", .folder [("a.md", .file (Text.encode ['#', 'A', ' ']))])]
        workingFolder := [] }
    disk.root.HasDistinctNames ∧ SameVerdict [] (.fromTop ["templates"]) disk
      (FixSession.fixFiles { disk := disk, dryRun := false }
        [.fromTop ["docs", "a.md"]]).1.disk := by
  have distinct : Node.HasDistinctNames
      (.folder [("docs", .folder [("a.md", .file (Text.encode ['#', 'A', ' ']))])]) := by
    simp [Node.HasDistinctNames, Node.EachHasDistinctNames]
  exact ⟨distinct, fixFiles_preserves_verdict _ distinct _ _ _⟩

example : Rule.all.filter (·.standardSeverity == .error) =
    [.brokenLinks, .legacyFileNames, .standardFolderStructure, .requirementTestMapping] := by
  decide

end DocAudit
