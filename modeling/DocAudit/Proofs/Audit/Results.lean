import DocAudit.Audit
import DocAudit.Proofs.Outcome
import Mathlib.Data.List.Nodup

/-!
What a run comes to. Either it finds no docs to look at, or each rule that is to run and has
something to look at gives one result, which no other rule has a part in.
-/

namespace DocAudit

namespace Audit

/-- What the rules of a run look at. Without docs or files there is nothing. -/
def findInput (disk : Disk) (templates : FilePath) (config : Config) : Except Fault Input := do
  let docs ← docsOf disk config
  let files ← docs.discover (.ofTexts config.included) (.ofTexts config.excluded)
  return inputOf docs (← requireFiles docs files) templates config

/-- The result of a rule that has something to look at. -/
def resultOf (config : Config) (input : Input) (rule : Rule) : RuleResult :=
  (ruleVisit config rule (config.settings rule).options input).result

def comesToRun (config : Config) (selection : Selection) (input : Input) (rule : Rule) : Bool :=
  shouldRun config selection rule && rule.applies input

/-- The rules that come to run, in the order of all rules. -/
def ranRules (config : Config) (selection : Selection) (input : Input) : List Rule :=
  Rule.all.filter (comesToRun config selection input)

theorem filterMap_result?_step (config : Config) (input : Input) (rules : List Rule) :
    (rules.map (step config input)).filterMap Step.result? =
      (rules.filter (·.applies input)).map (resultOf config input) := by
  rw [List.filterMap_map, ← List.filterMap_eq_map, ← List.filterMap_eq_filter,
    List.filterMap_filterMap]
  apply List.filterMap_congr
  intro rule _
  rw [Function.comp_apply, step]
  by_cases applies : rule.applies input = true
  · rw [if_pos applies, Option.guard, if_pos applies]
    rfl
  · rw [if_neg applies, Option.guard, if_neg applies]
    rfl

theorem outcome_runRules (config : Config) (selection : Selection) (input : Input) :
    (runRules config selection input).outcome =
      .ok (.ofResults input.files.length
        ((ranRules config selection input).map (resultOf config input))) := by
  have ran : (Rule.all.filter (shouldRun config selection)).filter (·.applies input) =
      ranRules config selection input := by
    rw [List.filter_filter]
    apply List.filter_congr
    intro rule _
    exact Bool.and_comm _ _
  rw [runRules, filterMap_result?_step, ran]

theorem outcome_discover (docs : Docs) (config : Config) :
    (discover docs config).outcome =
      docs.discover (.ofTexts config.included) (.ofTexts config.excluded) := by
  rw [discover]
  cases docs.discover (.ofTexts config.included) (.ofTexts config.excluded) <;> rfl

theorem outcome_run (disk : Disk) (templates : FilePath) (config : Config)
    (selection : Selection) :
    (run disk templates config selection).outcome =
      (findInput disk templates config).map fun input =>
        .ofResults input.files.length
          ((ranRules config selection input).map (resultOf config input)) := by
  simp only [run, findInput, Logged.outcome_andThen, Logged.ofOutcome, outcome_discover,
    outcome_runRules]
  cases docsOf disk config with
  | error fault => rfl
  | ok docs =>
    simp only [bind, Except.bind]
    cases docs.discover (.ofTexts config.included) (.ofTexts config.excluded) with
    | error fault => rfl
    | ok files =>
      dsimp only
      cases requireFiles docs files <;> rfl

/-- A report tells of the rules that came to run on what the run has found to look at. -/
theorem exists_input_of_finished {disk : Disk} {templates : FilePath} {config : Config}
    {selection : Selection} {report : Report}
    (finished : (run disk templates config selection).outcome = .ok report) :
    ∃ input, findInput disk templates config = .ok input ∧
      report = .ofResults input.files.length
        ((ranRules config selection input).map (resultOf config input)) := by
  rw [outcome_run] at finished
  cases found : findInput disk templates config with
  | error fault =>
    rw [found] at finished
    cases finished
  | ok input =>
    rw [found] at finished
    exact ⟨input, rfl, (Except.ok.inj finished).symm⟩

theorem nodup_ranRules (config : Config) (selection : Selection) (input : Input) :
    (ranRules config selection input).Nodup :=
  Rule.nodup_all.filter _

theorem mem_ranRules {config : Config} {selection : Selection} {input : Input} {rule : Rule} :
    rule ∈ ranRules config selection input ↔ comesToRun config selection input rule = true := by
  rw [ranRules, List.mem_filter]
  exact and_iff_right (Rule.mem_all rule)

end Audit

end DocAudit
