import DocAudit.Proofs.Audit.Isolation
import DocAudit.Proofs.Faults

/-!
A check of the layout beside a run. Both look at the same docs and share three rules; for two of
them, and for names of files where no upper case is asked for, they come to the same result. The
case of names is up to the layout, whatever the configuration says of it.
-/

namespace DocAudit

/-- Of the case of names only one thing counts: whether it has to be the upper one. -/
theorem FileNaming.check_congr {left right : FileNaming.Options}
    (case : left.upperCase.truthy = right.upperCase.truthy)
    (allowed : left.allowedPatterns = right.allowedPatterns) (files : List String) :
    FileNaming.check files left = FileNaming.check files right := by
  have finding (patterns : List Pattern) :
      FileNaming.finding? left patterns = FileNaming.finding? right patterns := by
    funext file
    rw [FileNaming.finding?, FileNaming.finding?, case]
  simp only [FileNaming.check, FileNaming.patterns, allowed, finding]

namespace Audit

/-- What a check of the layout looks at. Unlike a run it does not need any files. -/
def layoutInput (disk : Disk) (templates : FilePath) (config : Config) : Except Fault Input := do
  let docs ← docsOf disk config
  let files ← docs.discover (.ofTexts config.included) (.ofTexts config.excluded)
  return inputOf docs files templates config

theorem outcome_runLayout (disk : Disk) (templates : FilePath) (config : Config)
    (layout : Layout) :
    (runLayout disk templates config layout).outcome =
      (layoutInput disk templates config).map fun input =>
        (layoutVisits config layout input).map Visit.result := by
  simp only [runLayout, layoutInput, Logged.outcome_andThen, Logged.ofOutcome, outcome_discover]
  cases docsOf disk config with
  | error fault => rfl
  | ok docs =>
    simp only [bind, Except.bind]
    cases docs.discover (.ofTexts config.included) (.ofTexts config.excluded) <;> rfl

theorem exists_layoutInput_of_finished {disk : Disk} {templates : FilePath} {config : Config}
    {layout : Layout} {results : List RuleResult}
    (finished : (runLayout disk templates config layout).outcome = .ok results) :
    ∃ input, layoutInput disk templates config = .ok input ∧
      results = (layoutVisits config layout input).map Visit.result := by
  rw [outcome_runLayout] at finished
  cases found : layoutInput disk templates config with
  | error fault =>
    rw [found] at finished
    cases finished
  | ok input =>
    rw [found] at finished
    exact ⟨input, rfl, (Except.ok.inj finished).symm⟩

/-- Where a run finds something to look at, a check of the layout looks at the same. -/
theorem layoutInput_of_findInput {disk : Disk} {templates : FilePath} {config : Config}
    {input : Input} (found : findInput disk templates config = .ok input) :
    layoutInput disk templates config = .ok input := by
  rw [findInput] at found
  obtain ⟨docs, isDocs, found⟩ := exists_of_bind_eq_ok found
  obtain ⟨files, discovered, found⟩ := exists_of_bind_eq_ok found
  obtain ⟨required, requires, found⟩ := exists_of_bind_eq_ok found
  have same : required = files := by
    rw [requireFiles] at requires
    split at requires
    · cases requires
    · exact (Except.ok.inj requires).symm
  rw [layoutInput, isDocs]
  simp only [bind, Except.bind, discovered]
  rw [← same]
  exact found

/-- The rules that runs and checks of the layout share. -/
def sharedRules : List Rule :=
  [.folderNumbering, .fileNaming, .duplicateContent]

/-- The options for names of files as they are configured. -/
def configuredNaming (config : Config) : FileNaming.Options :=
  (config.settings .fileNaming).options

/-- The configuration in which names of files need not be in upper case. -/
def inAnyCase (config : Config) : Config :=
  config.set .fileNaming ⟨config.severity .fileNaming, namingOptions config {}⟩

/-- Results of a check of the layout beside the report of a run in one configuration and the report
of a run in which names of files may be in any case. -/
structure SharesResults (config : Config) (results : List RuleResult) (report anyCase : Report) :
    Prop where
  /-- Shared rules have one result in both, that for names where they may be in any case anyhow. -/
  same : ∀ rule ∈ sharedRules,
    (rule = .fileNaming → (configuredNaming config).upperCase.truthy = false) →
    ∀ result ∈ report.results, result.rule = rule.name →
      results.filter (·.rule == rule.name) = [result]
  sameInAnyCase : ∀ rule ∈ sharedRules, ∀ result ∈ anyCase.results, result.rule = rule.name →
    results.filter (·.rule == rule.name) = [result]

theorem agreeFor_inAnyCase (config : Config) (rule : Rule) (other : rule ≠ .fileNaming) :
    (inAnyCase config).AgreeFor rule config where
  docsDir := rfl
  included := rfl
  excluded := rfl
  terms := rfl
  requiredFiles := rfl
  languages := rfl
  setting := Config.set_other _ _ _ _ (Ne.symm other)

theorem resultOf_inAnyCase_fileNaming (config : Config) (folders : List Folder) (input : Input) :
    resultOf (inAnyCase config) input .fileNaming =
      (ruleVisit config .fileNaming (namingOptions config { folders := folders }) input).result := by
  rw [resultOf, ruleVisit, Config.severity, inAnyCase, Config.set_same]
  rfl

/-- Allowing names in any case makes no difference to other rules, nor where they are allowed. -/
theorem resultOf_inAnyCase {config : Config} {rule : Rule} (input : Input)
    (anyCase : rule = .fileNaming → (configuredNaming config).upperCase.truthy = false) :
    resultOf (inAnyCase config) input rule = resultOf config input rule := by
  by_cases naming : rule = .fileNaming
  · subst naming
    rw [resultOf_inAnyCase_fileNaming config []]
    have checked : FileNaming.check input.files (namingOptions config {}) =
        FileNaming.check input.files (configuredNaming config) := by
      apply FileNaming.check_congr
      · exact (anyCase rfl).symm
      · rfl
    exact congrArg (fun found => (Visit.mk _ _ found).result) checked
  · exact resultOf_of_agree (agreeFor_inAnyCase config rule naming) input

/-! ## The layout and a run -/

theorem filter_layoutVisits (config : Config) (folders : List Folder) (input : Input) {rule : Rule}
    (shared : rule ∈ sharedRules) :
    ((layoutVisits config { folders := folders, numbered := true } input).map
        Visit.result).filter (·.rule == rule.name) = [resultOf (inAnyCase config) input rule] := by
  simp only [sharedRules, List.mem_cons, List.not_mem_nil, or_false] at shared
  rcases shared with rfl | rfl | rfl
  · rw [resultOf_of_agree (agreeFor_inAnyCase config .folderNumbering nofun)]
    rfl
  · rw [resultOf_inAnyCase_fileNaming config folders]
    rfl
  · rw [resultOf_of_agree (agreeFor_inAnyCase config .duplicateContent nofun)]
    rfl

theorem eq_resultOf_of_mem {config : Config} {selection : Selection} {input : Input} {rule : Rule}
    {result : RuleResult}
    (member : result ∈ (ranRules config selection input).map (resultOf config input))
    (named : result.rule = rule.name) : result = resultOf config input rule := by
  obtain ⟨other, -, rfl⟩ := List.mem_map.mp member
  rw [Rule.name_inj.mp (named : other.name = rule.name)]

theorem findInput_inAnyCase (disk : Disk) (templates : FilePath) (config : Config) :
    findInput disk templates (inAnyCase config) = findInput disk templates config :=
  findInput_of_agree (agreeFor_inAnyCase config .brokenLinks nofun) disk templates

/-- What a run has found for a rule that it shares with a check of the layout, the latter finds,
too. Only whether names of files have to be in upper case is not taken from the configuration: the
layout decides it, so its check finds what a run finds where names may be in any case. -/
theorem runLayout_agrees_with_run {disk : Disk} {templates : FilePath} {config : Config}
    {selection : Selection} {report : Report} (folders : List Folder)
    (finished : (run disk templates config selection).outcome = .ok report) :
    ∃ results anyCase,
      (runLayout disk templates config { folders := folders, numbered := true }).outcome =
          .ok results ∧
        (run disk templates (inAnyCase config) selection).outcome = .ok anyCase ∧
        SharesResults config results report anyCase := by
  obtain ⟨input, found, rfl⟩ := exists_input_of_finished finished
  rw [outcome_runLayout, layoutInput_of_findInput found, outcome_run, findInput_inAnyCase, found]
  refine ⟨_, _, rfl, rfl, { same := ?_, sameInAnyCase := ?_ }⟩
  · intro rule shared anyCase result member named
    rw [filter_layoutVisits config folders input shared, resultOf_inAnyCase input anyCase,
      eq_resultOf_of_mem member named]
  · intro rule shared result member named
    rw [filter_layoutVisits config folders input shared, eq_resultOf_of_mem member named]

theorem runLayout_agrees_with_run_docs :
    let disk : Disk :=
      { root := .folder [("docs", .folder [("a.md", .file (Text.encode ['#', ' ', 'A', '\n']))])]
        workingFolder := [] }
    let config : Config := { docsDir := "docs" }
    let input := inputOf ⟨disk, .fromTop ["docs"]⟩ ["a.md"] (.fromTop ["templates"]) config
    let report := Report.ofResults 1 ((ranRules config {} input).map (resultOf config input))
    (run disk (.fromTop ["templates"]) config).outcome = .ok report ∧
      ∃ results anyCase,
        (runLayout disk (.fromTop ["templates"]) config { numbered := true }).outcome =
            .ok results ∧
          (run disk (.fromTop ["templates"]) (inAnyCase config)).outcome = .ok anyCase ∧
          SharesResults config results report anyCase := by
  intro disk config input report
  have found : findInput disk (.fromTop ["templates"]) config = .ok input := by
    cbv
  have finished : (run disk (.fromTop ["templates"]) config).outcome = .ok report := by
    rw [outcome_run, found]
    rfl
  exact ⟨finished, runLayout_agrees_with_run [] finished⟩

/-- A file in lower case, where the configuration asks for upper case and the layout does not. -/
theorem run_fileNaming_ne_runLayout :
    let disk : Disk :=
      { root := .folder [("docs", .folder [("a.md", .file (Text.encode ['#', ' ', 'A', '\n']))])]
        workingFolder := [] }
    let naming : FileNaming.Options := { upperCase := .bool true }
    let config := Config.set { docsDir := "docs" } .fileNaming ⟨.warn, naming⟩
    (run disk (.fromTop ["templates"]) config).outcome.map
        (fun report => (report.results.filter (·.rule == "fileNaming")).map (·.issues.length)) =
      .ok [1] ∧
    (runLayout disk (.fromTop ["templates"]) config { numbered := true }).outcome.map
        (fun results => (results.filter (·.rule == "fileNaming")).map (·.issues.length)) =
      .ok [0] := by
  intro disk naming config
  let input := inputOf ⟨disk, .fromTop ["docs"]⟩ ["a.md"] (.fromTop ["templates"]) config
  have found : findInput disk (.fromTop ["templates"]) config = .ok input := by
    cbv
  have asked : (issuesOf (FileNaming.check ["a.md"] naming)).length = 1 := by
    decide +kernel
  have unasked : (issuesOf (FileNaming.check ["a.md"] {})).length = 0 := by
    decide +kernel
  rw [outcome_run, found, outcome_runLayout, layoutInput_of_findInput found]
  constructor
  · have runs := filter_results config {} input .fileNaming
    rw [if_pos (by decide +kernel)] at runs
    refine congrArg (fun results : List RuleResult => Except.ok (results.map (·.issues.length)))
      runs |>.trans ?_
    exact congrArg (fun count => Except.ok [count]) asked
  · exact congrArg (fun count => Except.ok [count]) unasked

end Audit

end DocAudit
