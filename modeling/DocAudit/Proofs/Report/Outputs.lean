import DocAudit.Proofs.CommandLine.Exit
import DocAudit.Report.Console
import Mathlib

/-!
Every output of a report tells whether the run has passed, and all of them tell the same: the
totals, the exit codes of the console, the JSON text and the exit code of the command. The totals do
not depend on the order of the results, and results of rules that are off count for nothing but as
passed.
-/

namespace DocAudit

/-! ## Totals -/

theorem countIssues_append (front rest : List RuleResult) (severity : Severity) :
    countIssues (front ++ rest) severity =
      countIssues front severity + countIssues rest severity := by
  rw [countIssues, List.filter_append, List.flatMap_append, List.length_append]
  rfl

theorem countIssues_perm {before after : List RuleResult} (perm : before.Perm after)
    (severity : Severity) : countIssues before severity = countIssues after severity :=
  ((perm.filter _).flatMap_right _).length_eq

theorem countIssues_of_off {results : List RuleResult}
    (off : ∀ result ∈ results, result.severity = .off) {severity : Severity}
    (counts : severity ≠ .off) : countIssues results severity = 0 := by
  have none : results.filter (·.severity == severity) = [] := by
    rw [List.filter_eq_nil_iff]
    intro result member same
    rw [off result member] at same
    exact counts (eq_of_beq same).symm
  rw [countIssues, none]
  rfl

theorem countIssues_eq_zero_iff {results : List RuleResult} {severity : Severity} :
    countIssues results severity = 0 ↔
      ∀ result ∈ results, result.severity = severity → result.passed = true := by
  rw [countIssues, List.length_eq_zero_iff, List.flatMap_eq_nil_iff]
  simp [RuleResult.passed]

namespace Report

theorem passed_iff (filesChecked : Nat) (results : List RuleResult) :
    (ofResults filesChecked results).passed = true ↔
      ∀ result ∈ results, result.severity = .error → result.passed = true := by
  simp [ofResults, or_iff_not_imp_left]

theorem passed_iff_errors (filesChecked : Nat) (results : List RuleResult) :
    (ofResults filesChecked results).passed = true ↔
      (ofResults filesChecked results).summary.errors = 0 :=
  (passed_iff filesChecked results).trans countIssues_eq_zero_iff.symm

theorem passed_congr {filesChecked : Nat} {before after : List RuleResult}
    (same : (Summary.ofResults before).errors = (Summary.ofResults after).errors) :
    (ofResults filesChecked before).passed = (ofResults filesChecked after).passed := by
  rw [Bool.eq_iff_iff, passed_iff_errors, passed_iff_errors]
  exact Eq.congr_left same

end Report

theorem Summary.ofResults_perm {before after : List RuleResult} (perm : before.Perm after) :
    Summary.ofResults before = Summary.ofResults after := by
  rw [ofResults, ofResults, countIssues_perm perm, countIssues_perm perm, perm.countP_eq]

theorem Summary.ofResults_append_of_off {results silent : List RuleResult}
    (off : ∀ result ∈ silent, result.severity = .off) :
    Summary.ofResults (results ++ silent) =
      { Summary.ofResults results with
        passed := (Summary.ofResults results).passed + silent.countP (·.passed) } := by
  rw [ofResults, ofResults, countIssues_append, countIssues_append,
    countIssues_of_off off (by simp), countIssues_of_off off (by simp), List.countP_append,
    Nat.add_zero, Nat.add_zero]

theorem structureExitCode_eq_zero_iff {results : List RuleResult} :
    structureExitCode results = 0 ↔
      ∀ result ∈ results, result.severity = .error → result.passed = true := by
  simp [structureExitCode]

theorem Report.exitCode_eq_zero_iff (report : Report) :
    report.exitCode = 0 ↔ report.passed = true := by
  simp [Report.exitCode]

/-! ## Outputs -/

open CommandLine (Place LintArguments Script)

/-- All outputs of some results tell alike whether they pass. A report on the console comes to an
end where every message is a text, and never ends with a wrong code. -/
structure OutputsAgree (results : List RuleResult) (report : Report) : Prop where
  totals : report.passed = true ↔ report.summary.errors = 0
  console : HaveTexts results → ∀ verbose,
    (Script.ofMessages report.exitCode (report.messages verbose)).exit = .ok 0 ↔
      report.passed = true
  consoleCode : ∀ verbose code,
    (Script.ofMessages report.exitCode (report.messages verbose)).exit = .ok code →
      (code = 0 ↔ report.passed = true)
  layout : HaveTexts results →
    ((Script.ofMessages (structureExitCode results) (structureMessages results)).exit = .ok 0 ↔
      report.passed = true)
  layoutCode : ∀ code,
    (Script.ofMessages (structureExitCode results) (structureMessages results)).exit = .ok code →
      (code = 0 ↔ report.passed = true)
  json : ∃ members, report.json = Json.indentedText (.table members) ∧
    members.lookup "passed" = some (.bool report.passed) ∧
    (HaveTexts results → Json.parse report.json.toList = .ok (.table members))

theorem Report.outputsAgree (filesChecked : Nat) (results : List RuleResult) :
    OutputsAgree results (.ofResults filesChecked results) where
  totals := passed_iff_errors filesChecked results
  console := by
    intro haveTexts verbose
    rw [Script.exit_ofMessages_of_areWritable (areWritable_messages _ verbose haveTexts),
      Except.ok.injEq]
    exact exitCode_eq_zero_iff _
  consoleCode := by
    intro verbose code ended
    rw [Script.exit_ofMessages ended]
    exact exitCode_eq_zero_iff _
  layout := by
    intro haveTexts
    rw [Script.exit_ofMessages_of_areWritable (areWritable_structureMessages haveTexts),
      Except.ok.injEq, structureExitCode_eq_zero_iff, passed_iff]
  layoutCode := by
    intro code ended
    rw [Script.exit_ofMessages ended, structureExitCode_eq_zero_iff, passed_iff]
  json := ⟨_, rfl, rfl, parse_json (ofResults filesChecked results)⟩

/-- All outputs agree on whether a run has passed: those of a report among themselves, and the exit
code of the command with the report that it gives, in every format. The order of the results makes
no difference, and results of rules that are off only count where they have found nothing. -/
theorem outputs_agree_on_passing :
    (∀ filesChecked results, OutputsAgree results (.ofResults filesChecked results)) ∧
    (∀ (place : Place) (arguments : LintArguments) (report : Report)
      (threshold shown : Level) (terminal after : Terminal) (code : Nat),
      (CommandLine.Lint.run place arguments).outcome = .ok report →
      (CommandLine.Lint.script place threshold arguments).perform shown terminal =
        (after, .ok code) →
      (code = 0 ↔ report.passed = true)) ∧
    (∀ (filesChecked : Nat) (before after : List RuleResult), before.Perm after →
      (Report.ofResults filesChecked before).passed =
          (Report.ofResults filesChecked after).passed ∧
        Summary.ofResults before = Summary.ofResults after) ∧
    ∀ (filesChecked : Nat) (results silent mixed : List RuleResult),
      (∀ result ∈ silent, result.severity = .off) → mixed.Perm (results ++ silent) →
      (Report.ofResults filesChecked mixed).passed =
          (Report.ofResults filesChecked results).passed ∧
        Summary.ofResults mixed =
          { Summary.ofResults results with
            passed := (Summary.ofResults results).passed + silent.countP (·.issues.isEmpty) } := by
  refine ⟨Report.outputsAgree, ?_, ?_, ?_⟩
  · intro place arguments report threshold shown terminal after code linted ended
    rw [CommandLine.Lint.exit_script linted (Script.exit_of_perform ended)]
    exact report.exitCode_eq_zero_iff
  · intro filesChecked before after perm
    have same := Summary.ofResults_perm perm
    exact ⟨Report.passed_congr (congrArg Summary.errors same), same⟩
  · intro filesChecked results silent mixed off perm
    have same := (Summary.ofResults_perm perm).trans (Summary.ofResults_append_of_off off)
    have errors : (Summary.ofResults mixed).errors = (Summary.ofResults results).errors := by
      rw [same]
    exact ⟨Report.passed_congr errors, same⟩

theorem outputs_agree_on_passing_json :
    let place : Place :=
      { environment := []
        disk :=
          { root :=
              .folder [("docs", .folder [("a.md", .file (Text.encode ['#', ' ', 'A', '\n']))])]
            workingFolder := [] }
        templates := .fromTop ["templates"] }
    let arguments : LintArguments :=
      { docsDir := none, config := none, only := some "headingHierarchy", skip := none
        verbose := false, format := .json, output := none }
    let found : RuleResult := ⟨"brokenLinks", .error, [{ file := "a.md", message := .text "m" }]⟩
    let clean : RuleResult := ⟨"headingHierarchy", .warn, []⟩
    let silent : RuleResult := ⟨"i18nStructure", .off, [{ file := "b.md", message := .text "m" }]⟩
    let terminal : Terminal := { disk := place.disk }
    let report := Report.ofResults 1 [clean]
    (CommandLine.Lint.run place arguments).outcome = .ok report ∧
      (CommandLine.Lint.script place .error arguments).perform .error terminal =
        (terminal.print (report.json ++ "\n"), .ok 0) ∧
      (0 = 0 ↔ report.passed = true) ∧
      (Report.ofResults 1 [found, clean]).passed = (Report.ofResults 1 [clean, found]).passed ∧
      (Report.ofResults 1 [silent, clean]).passed = (Report.ofResults 1 [clean]).passed := by
  intro place arguments found clean silent terminal report
  have loaded : CommandLine.loadConfig place none none = { outcome := .ok (.standard []) } := by
    have noFile : Config.find? [] place.disk none = .ok none := by cbv
    simp only [CommandLine.loadConfig, Config.load, show place.environment = [] from rfl, noFile]
    rfl
  have selected : CommandLine.Lint.selection arguments = .ok { only := ["headingHierarchy"] } := by
    cbv
  have linted : (CommandLine.Lint.run place arguments).outcome = .ok report := by
    have noConfig : arguments.config = none := rfl
    have noDocsDir : arguments.docsDir = none := rfl
    simp only [CommandLine.Lint.run, noConfig, noDocsDir, loaded, selected]
    cbv
  have hidden : Level.error.shows .debug = false := rfl
  have performed := CommandLine.Lint.perform_script_json linted rfl rfl hidden terminal
  exact ⟨linted, performed,
    outputs_agree_on_passing.2.1 place arguments report .error .error terminal _ 0 linted performed,
    (outputs_agree_on_passing.2.2.1 1 [found, clean] [clean, found] (.swap ..)).1,
    (outputs_agree_on_passing.2.2.2 1 [clean] [silent] [silent, clean] (by simp [silent])
      (.swap ..)).1⟩

end DocAudit
