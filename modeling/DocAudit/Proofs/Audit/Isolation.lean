import DocAudit.Proofs.Audit.Results
import Mathlib

/-!
Rules keep to themselves. What a rule gives in a run depends on the docs, on what all rules share
and on its own setting; the settings of other rules, their faults and whether they run at all make
no difference to it.
-/

namespace DocAudit

/-- Configurations that agree in what all rules share and in the setting of one rule. -/
structure Config.AgreeFor (rule : Rule) (left right : Config) : Prop where
  docsDir : left.docsDir = right.docsDir
  included : left.included = right.included
  excluded : left.excluded = right.excluded
  terms : left.terms = right.terms
  requiredFiles : left.requiredFiles = right.requiredFiles
  languages : left.languages = right.languages
  setting : left.settings rule = right.settings rule

namespace Audit

theorem findInput_of_agree {rule : Rule} {left right : Config} (agree : left.AgreeFor rule right)
    (disk : Disk) (templates : FilePath) :
    findInput disk templates left = findInput disk templates right := by
  simp only [findInput, docsOf, inputOf, agree.docsDir, agree.included, agree.excluded,
    agree.terms, agree.requiredFiles, agree.languages]

theorem resultOf_of_agree {rule : Rule} {left right : Config} (agree : left.AgreeFor rule right)
    (input : Input) : resultOf left input rule = resultOf right input rule := by
  simp only [resultOf, ruleVisit, Config.severity, agree.setting]

/-- A run gives one result under the name of a rule that comes to run, and else none. -/
theorem filter_results (config : Config) (selection : Selection) (input : Input) (rule : Rule) :
    ((ranRules config selection input).map (resultOf config input)).filter
        (·.rule == rule.name) =
      if comesToRun config selection input rule then [resultOf config input rule] else [] := by
  have named : ((fun result : RuleResult => result.rule == rule.name) ∘ resultOf config input) =
      fun other => decide (other = rule) := by
    funext other
    exact decide_eq_decide.mpr Rule.name_inj
  rw [List.filter_map, named, List.filter_eq, (nodup_ranRules config selection input).count]
  by_cases runs : comesToRun config selection input rule = true
  · rw [if_pos (mem_ranRules.mpr runs), if_pos runs]
    rfl
  · rw [if_neg (fun member => runs (mem_ranRules.mp member)), if_neg runs]
    rfl

theorem shouldRun_only (config : Config) (only skip : List String) (rule : Rule) :
    shouldRun config { only := only, skip := skip } rule =
      ((only.isEmpty || only.contains rule.name) && shouldRun config { skip := skip } rule) := by
  simp [shouldRun, Bool.and_comm, Bool.and_left_comm]

/-- Asking for some rules leaves out the results of the others and changes nothing else. -/
theorem map_resultOf_ranRules_only (config : Config) (only skip : List String) (input : Input) :
    (ranRules config { only := only, skip := skip } input).map (resultOf config input) =
      ((ranRules config { skip := skip } input).map (resultOf config input)).filter
        fun result => only.isEmpty || only.contains result.rule := by
  rw [List.filter_map, ranRules, ranRules, List.filter_filter]
  congr 1
  apply List.filter_congr
  intro rule _
  rw [comesToRun, shouldRun_only, Bool.and_assoc]
  rfl

/-- A rule that runs in two configurations that agree for it gives the same result in both, whatever
the other rules are set to and do and whichever of them run. So a run of some rules only gives what
a run of all rules gives for them, where naming no rule at all means every rule. -/
theorem run_isolates_rules (disk : Disk) (templates : FilePath) :
    (∀ (rule : Rule) (left right : Config) (selection selection' : Selection),
      left.AgreeFor rule right → shouldRun left selection rule = true →
      shouldRun right selection' rule = true →
      (run disk templates left selection).outcome.map
          (fun report => report.results.filter (·.rule == rule.name)) =
        (run disk templates right selection').outcome.map
          (fun report => report.results.filter (·.rule == rule.name))) ∧
    ∀ (config : Config) (only skip : List String),
      (run disk templates config { only := only, skip := skip }).outcome.map (·.results) =
        (run disk templates config { skip := skip }).outcome.map fun report =>
          report.results.filter fun result => only.isEmpty || only.contains result.rule := by
  constructor
  · intro rule left right selection selection' agree runs runs'
    rw [outcome_run, outcome_run, findInput_of_agree agree]
    cases findInput disk templates right with
    | error fault => rfl
    | ok input =>
      have one := filter_results left selection input rule
      have other := filter_results right selection' input rule
      rw [comesToRun, runs, resultOf_of_agree agree] at one
      rw [comesToRun, runs'] at other
      exact congrArg Except.ok (one.trans other.symm)
  · intro config only skip
    rw [outcome_run, outcome_run]
    cases findInput disk templates config with
    | error fault => rfl
    | ok input => exact congrArg Except.ok (map_resultOf_ranRules_only config only skip input)

theorem run_isolates_rules_fault :
    let disk : Disk :=
      { root := .folder [("docs", .folder [("a.md", .file (Text.encode ['#', ' ', 'A', '\n']))])]
        workingFolder := [] }
    let left : Config := { docsDir := "docs" }
    let right := left.set .legacyFileNames
      ⟨.error, ({ pattern := .text "(" } : LegacyFileNames.Options)⟩
    let chosen : Selection := { only := ["brokenLinks"] }
    left.AgreeFor .brokenLinks right ∧ shouldRun left {} .brokenLinks = true ∧
      shouldRun right chosen .brokenLinks = true ∧
      (run disk (.fromTop ["templates"]) left).outcome.map
          (fun report => report.results.filter (·.rule == Rule.brokenLinks.name)) =
        (run disk (.fromTop ["templates"]) right chosen).outcome.map
          (fun report => report.results.filter (·.rule == Rule.brokenLinks.name)) := by
  intro disk left right chosen
  have agree : left.AgreeFor .brokenLinks right := by constructor <;> rfl
  have runs : shouldRun left {} .brokenLinks = true := by decide +kernel
  have runs' : shouldRun right chosen .brokenLinks = true := by decide +kernel
  exact ⟨agree, runs, runs',
    (run_isolates_rules disk _).1 .brokenLinks left right {} chosen agree runs runs'⟩

/-- Naming no rule does not leave a run without results. -/
theorem run_only_nothing :
    let disk : Disk :=
      { root := .folder [("docs", .folder [("a.md", .file (Text.encode ['#', ' ', 'A', '\n']))])]
        workingFolder := [] }
    let config : Config := { docsDir := "docs" }
    (run disk (.fromTop ["templates"]) config { only := [] }).outcome.map (·.results) ≠
      (run disk (.fromTop ["templates"]) config).outcome.map fun report =>
        report.results.filter fun result => ([] : List String).contains result.rule := by
  intro disk config same
  have found : findInput disk (.fromTop ["templates"]) config =
      .ok (inputOf ⟨disk, .fromTop ["docs"]⟩ ["a.md"] (.fromTop ["templates"]) config) := by
    cbv
  -- Links are checked in any docs, so there is a result whose name the empty list leaves out.
  have ran : Rule.brokenLinks ∈ ranRules config {}
      (inputOf ⟨disk, .fromTop ["docs"]⟩ ["a.md"] (.fromTop ["templates"]) config) :=
    mem_ranRules.mpr (by decide +kernel)
  rw [outcome_run, found] at same
  have none := Except.ok.inj same
  simp only [List.contains_nil, List.filter_false, Report.ofResults, List.map_eq_nil_iff] at none
  rw [none] at ran
  exact List.not_mem_nil ran

end Audit

end DocAudit
