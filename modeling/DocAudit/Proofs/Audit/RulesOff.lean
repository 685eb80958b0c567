import DocAudit.Proofs.Audit.Containment
import DocAudit.Proofs.Audit.Layout

/-!
Rules that are off. A run keeps clear of them: they have no result, their checks do not begin, and
what else is set for them makes no difference. A check of the layout does not ask for severities:
the rules that it consists of have begun and have results even where they are off.
-/

namespace DocAudit.Audit

/-- The message with which the check of a rule begins. -/
def beginning (rule : String) : String :=
  s!"Running {rule}"

/-- A run in which rules that are off have no part. The log says of exactly the rules that have a
result that their checks have begun. -/
structure RespectsOff (disk : Disk) (templates : FilePath) (config : Config)
    (selection : Selection) : Prop where
  results : ∀ report, (run disk templates config selection).outcome = .ok report →
    ∀ result ∈ report.results, result.severity ≠ .off
  begun : ∀ report, (run disk templates config selection).outcome = .ok report →
    ∀ name, beginning name ∈ (run disk templates config selection).log ↔
      ∃ result ∈ report.results, result.rule = name
  notBegun : ∀ rule, config.severity rule = .off →
    beginning rule.name ∉ (run disk templates config selection).log
  notRead : ∀ settings : (rule : Rule) → RuleSetting rule,
    (∀ rule, (settings rule).severity = config.severity rule) →
    (∀ rule, config.severity rule ≠ .off → settings rule = config.settings rule) →
    run disk templates { config with settings := settings } selection =
      run disk templates config selection

/-- The rules that a check of the layout consists of, with what they are set to. -/
def layoutRules (config : Config) (layout : Layout) : List (String × Severity) :=
  let numbering := if layout.numbered then [Rule.folderNumbering] else []
  let rules := numbering ++ [Rule.fileNaming, Rule.duplicateContent]
  (layoutName, (config.named layoutName).severity) ::
    rules.map fun rule => (rule.name, config.severity rule)

/-- A check of the layout that runs each of its rules, whatever that is set to. -/
structure IgnoresOff (disk : Disk) (templates : FilePath) (config : Config) (layout : Layout) :
    Prop where
  results : ∀ results, (runLayout disk templates config layout).outcome = .ok results →
    results.map (fun result => (result.rule, result.severity)) = layoutRules config layout
  begun : ∀ results, (runLayout disk templates config layout).outcome = .ok results →
    ∀ name, beginning name ∈ (runLayout disk templates config layout).log ↔
      ∃ severity, (name, severity) ∈ layoutRules config layout

/-! ## Messages -/

theorem beginning_inj {rule other : String} : beginning rule = beginning other ↔ rule = other := by
  simp [beginning, toString]

theorem beginning_mem_visit {name : String} {visit : Visit} :
    beginning name ∈ visit.log ↔ name = visit.name := by
  rw [Visit.log, List.mem_cons]
  constructor
  · rintro (same | member)
    · exact beginning_inj.mp same
    · split at member
      · cases member
      · have letters := congrArg (fun text : String => text.toList[2]?)
          (List.mem_singleton.mp member)
        simp [beginning, toString] at letters
  · rintro rfl
    exact .inl rfl

theorem beginning_mem_step {name : String} {config : Config} {input : Input} {rule : Rule} :
    beginning name ∈ (step config input rule).log ↔
      rule.applies input = true ∧ name = rule.name := by
  rw [step]
  split
  · next applies =>
    exact beginning_mem_visit.trans (and_iff_right applies).symm
  · next idle =>
    refine iff_of_false (fun member => ?_) fun both => idle both.1
    have letters := congrArg (fun text : String => text.toList.head?)
      (List.mem_singleton.mp member)
    simp [beginning, toString] at letters

/-- Discovery tells of no rule. -/
theorem beginning_not_mem_discover (name : String) (docs : Docs) (config : Config) :
    beginning name ∉ (discover docs config).log := by
  rw [discover]
  split
  · intro member
    have letters := congrArg (fun text : String => text.toList.head?)
      (List.mem_singleton.mp member)
    simp [beginning, toString] at letters
  · exact List.not_mem_nil

theorem mem_log_andThen {α β : Type} {first : Logged α} {second : α → Logged β}
    {message : String} :
    message ∈ (first.andThen second).log ↔
      message ∈ first.log ∨ ∃ value, first.outcome = .ok value ∧ message ∈ (second value).log := by
  rw [Logged.andThen]
  cases outcome : first.outcome with
  | error fault => simp
  | ok value => simp

theorem beginning_mem_runRules {name : String} {config : Config} {selection : Selection}
    {input : Input} :
    beginning name ∈ (runRules config selection input).log ↔
      ∃ rule ∈ ranRules config selection input, name = rule.name := by
  simp only [runRules, List.flatMap_map, List.mem_flatMap, List.mem_filter, beginning_mem_step,
    ranRules, comesToRun, Bool.and_eq_true, and_assoc]

theorem beginning_mem_run {name : String} {disk : Disk} {templates : FilePath} {config : Config}
    {selection : Selection} :
    beginning name ∈ (run disk templates config selection).log ↔
      ∃ input, findInput disk templates config = .ok input ∧
        ∃ rule ∈ ranRules config selection input, name = rule.name := by
  simp only [run, mem_log_andThen, Logged.ofOutcome, Logged.outcome_andThen, outcome_discover,
    beginning_not_mem_discover, beginning_mem_runRules, findInput]
  cases docsOf disk config with
  | error fault => simp [bind, Except.bind]
  | ok docs =>
    simp only [List.not_mem_nil, Except.ok.injEq, exists_eq_left', false_or, and_false,
      exists_false, bind, Except.bind]
    cases docs.discover (.ofTexts config.included) (.ofTexts config.excluded) with
    | error fault => simp
    | ok files =>
      dsimp only
      cases requireFiles docs files with
      | error fault => simp
      | ok files => simp [pure, Except.pure]

theorem beginning_mem_runLayout {name : String} {disk : Disk} {templates : FilePath}
    {config : Config} {layout : Layout} :
    beginning name ∈ (runLayout disk templates config layout).log ↔
      ∃ input, layoutInput disk templates config = .ok input ∧
        ∃ visit ∈ layoutVisits config layout input, name = visit.name := by
  simp only [runLayout, mem_log_andThen, Logged.ofOutcome, outcome_discover,
    beginning_not_mem_discover, List.mem_flatMap, beginning_mem_visit, layoutInput]
  cases docsOf disk config with
  | error fault => simp [bind, Except.bind]
  | ok docs =>
    simp only [List.not_mem_nil, Except.ok.injEq, exists_eq_left', false_or, bind, Except.bind]
    cases docs.discover (.ofTexts config.included) (.ofTexts config.excluded) with
    | error fault => simp
    | ok files => simp [pure, Except.pure]

/-! ## Runs -/

theorem step_of_settings {config : Config} {settings : (rule : Rule) → RuleSetting rule}
    {rule : Rule} (same : settings rule = config.settings rule) (input : Input) :
    step { config with settings := settings } input rule = step config input rule := by
  simp only [step, ruleVisit, Config.severity, same]

theorem run_of_settings (disk : Disk) (templates : FilePath) {config : Config}
    (selection : Selection) {settings : (rule : Rule) → RuleSetting rule}
    (severities : ∀ rule, (settings rule).severity = config.severity rule)
    (others : ∀ rule, config.severity rule ≠ .off → settings rule = config.settings rule) :
    run disk templates { config with settings := settings } selection =
      run disk templates config selection := by
  have sameRules : shouldRun { config with settings := settings } selection =
      shouldRun config selection := by
    funext rule
    simp only [shouldRun, Config.severity] at severities ⊢
    rw [severities rule]
  have ranSame (input : Input) : runRules { config with settings := settings } selection input =
      runRules config selection input := by
    have sameSteps : (Rule.all.filter (shouldRun config selection)).map
          (step { config with settings := settings } input) =
        (Rule.all.filter (shouldRun config selection)).map (step config input) := by
      apply List.map_congr_left
      intro rule member
      have runs := shouldRun_iff.mp (List.mem_filter.mp member).2
      exact step_of_settings (others rule runs.1) input
    simp only [runRules, sameRules, sameSteps]
  have sameInput (docs : Docs) (files : List String) :
      inputOf docs files templates { config with settings := settings } =
        inputOf docs files templates config := rfl
  simp only [run, ranSame, sameInput]
  rfl

theorem severity_ne_off_of_mem {config : Config} {selection : Selection} {input : Input}
    {rule : Rule} (ran : rule ∈ ranRules config selection input) : config.severity rule ≠ .off := by
  have runs := mem_ranRules.mp ran
  rw [comesToRun, Bool.and_eq_true] at runs
  exact (shouldRun_iff.mp runs.1).1

theorem respectsOff_run (disk : Disk) (templates : FilePath) (config : Config)
    (selection : Selection) : RespectsOff disk templates config selection where
  results := by
    intro report finished result member
    obtain ⟨input, -, rfl⟩ := exists_input_of_finished finished
    obtain ⟨rule, ran, rfl⟩ := List.mem_map.mp member
    exact severity_ne_off_of_mem ran
  begun := by
    intro report finished name
    obtain ⟨input, found, rfl⟩ := exists_input_of_finished finished
    simp only [beginning_mem_run, found, Except.ok.injEq, exists_eq_left', Report.ofResults,
      List.mem_map]
    constructor
    · rintro ⟨rule, ran, rfl⟩
      exact ⟨_, ⟨rule, ran, rfl⟩, rfl⟩
    · rintro ⟨_, ⟨rule, ran, rfl⟩, rfl⟩
      exact ⟨rule, ran, rfl⟩
  notBegun := by
    intro rule off begun
    obtain ⟨input, -, other, ran, named⟩ := beginning_mem_run.mp begun
    rw [← Rule.name_inj.mp named] at ran
    exact severity_ne_off_of_mem ran off
  notRead := fun _ => run_of_settings disk templates selection

/-! ## Checks of the layout -/

theorem map_layoutVisits (config : Config) (layout : Layout) (input : Input) :
    (layoutVisits config layout input).map (fun visit => (visit.name, visit.severity)) =
      layoutRules config layout := by
  rw [layoutVisits, layoutRules]
  cases layout.numbered <;> rfl

theorem ignoresOff_runLayout (disk : Disk) (templates : FilePath) (config : Config)
    (layout : Layout) : IgnoresOff disk templates config layout where
  results := by
    intro results finished
    obtain ⟨input, -, rfl⟩ := exists_layoutInput_of_finished finished
    rw [List.map_map]
    exact map_layoutVisits config layout input
  begun := by
    intro results finished name
    obtain ⟨input, found, -⟩ := exists_layoutInput_of_finished finished
    simp only [beginning_mem_runLayout, found, Except.ok.injEq, exists_eq_left',
      ← map_layoutVisits config layout input, List.mem_map]
    constructor
    · rintro ⟨visit, visited, rfl⟩
      exact ⟨visit.severity, visit, visited, rfl⟩
    · rintro ⟨severity, visit, visited, same⟩
      exact ⟨visit, visited, (congrArg Prod.fst same).symm⟩

/-- Runs respect that a rule is off, and checks of the layout do not: all rules of those have begun
and have their results. -/
theorem run_respects_off (disk : Disk) (templates : FilePath) (config : Config)
    (selection : Selection) (layout : Layout) :
    RespectsOff disk templates config selection ∧ IgnoresOff disk templates config layout :=
  ⟨respectsOff_run disk templates config selection,
    ignoresOff_runLayout disk templates config layout⟩

/-- A check of the layout that has a result for a rule that is off. -/
theorem runLayout_result_off :
    let disk : Disk :=
      { root := .folder [("docs", .folder [("a.md", .file (Text.encode ['#', ' ', 'A', '\n']))])]
        workingFolder := [] }
    let config := Config.set { docsDir := "docs" } .duplicateContent ⟨.off, ()⟩
    ∃ results, (runLayout disk (.fromTop ["templates"]) config {}).outcome = .ok results ∧
      ∃ result ∈ results, result.rule = "duplicateContent" ∧ result.severity = .off := by
  intro disk config
  have found : layoutInput disk (.fromTop ["templates"]) config =
      .ok (inputOf ⟨disk, .fromTop ["docs"]⟩ ["a.md"] (.fromTop ["templates"]) config) := by
    cbv
  rw [outcome_runLayout, found]
  refine ⟨_, rfl, _, .tail _ (.tail _ (.head _)), rfl, ?_⟩
  exact congrArg RuleSetting.severity (Config.set_same _ .duplicateContent _)

end DocAudit.Audit
