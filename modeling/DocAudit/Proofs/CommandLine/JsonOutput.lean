import DocAudit.Proofs.CommandLine.Exit
import DocAudit.Proofs.CommandLine.Settings
import DocAudit.Proofs.Config.ParseFaults
import Mathlib

/-!
JSON on the output stream. A run that prints its report as JSON writes that and nothing else, or one
line about what keeps it from doing so. Log messages would have to share the stream, but the level
from which they are shown is above all of theirs, whatever is asked for.
-/

namespace DocAudit

/-! ## What a run depends on -/

/-- Environments that differ in nothing but the level of log messages. -/
def Environment.AgreeButForLevel (environment other : Environment) : Prop :=
  ∀ name, name ≠ "LOG_LEVEL" → other.value? name = environment.value? name

namespace Environment.AgreeButForLevel

variable {environment other : Environment}

theorem configPath? (agree : environment.AgreeButForLevel other) :
    other.configPath? = environment.configPath? := by
  rw [Environment.configPath?, Environment.configPath?, agree "DOCS_LINT_CONFIG" (by decide)]

theorem docsDir (agree : environment.AgreeButForLevel other) :
    other.docsDir = environment.docsDir := by
  rw [Environment.docsDir, Environment.docsDir, agree "DOCS_LINT_DOCS_DIR" (by decide)]

theorem load (agree : environment.AgreeButForLevel other) (disk : Disk)
    (path docsDir : Option String) :
    Config.load other disk path docsDir = Config.load environment disk path docsDir := by
  have sameStandard : Config.standard other = Config.standard environment := by
    rw [Config.standard, Config.standard, agree.docsDir]
  have sameValue : Config.ofValue other = Config.ofValue environment := by
    funext value
    cases value <;> simp only [Config.ofValue, Config.ofEntries, sameStandard]
  have sameFound : Config.find? other disk path = Config.find? environment disk path := by
    rw [Config.find?, Config.find?, Config.explicitPath?, Config.explicitPath?,
      agree.configPath?]
  have sameFile : Config.ofFile other disk = Config.ofFile environment disk := by
    funext file
    rw [Config.ofFile, Config.ofFile, sameValue]
  rw [Config.load, Config.load, sameFound, sameFile, sameStandard]

end Environment.AgreeButForLevel

namespace CommandLine

namespace Lint

/-- The report is printed as JSON, and not written to a file. -/
structure PrintsJson (arguments : LintArguments) : Prop where
  json : arguments.format = .json
  noFile : outputFile? arguments = none

theorem run_congr {place : Place} {environment : Environment}
    (agree : place.environment.AgreeButForLevel environment) (arguments : LintArguments)
    (verbose : Bool) :
    run { place with environment := environment } { arguments with verbose := verbose } =
      run place arguments := by
  have loaded := agree.load place.disk arguments.config arguments.docsDir
  rw [run, run, loadConfig, loadConfig]
  simp only [loaded]
  rfl

/-- Nothing but an error would be shown beside the report. -/
theorem PrintsJson.threshold {arguments : LintArguments} (prints : PrintsJson arguments)
    (standard : Level) : threshold arguments standard = .error := by
  rw [Lint.threshold, if_pos]
  rw [prints.noFile]
  exact ⟨prints.json, rfl⟩

theorem PrintsJson.with_verbose {arguments : LintArguments} (prints : PrintsJson arguments)
    (verbose : Bool) : PrintsJson { arguments with verbose := verbose } where
  json := prints.json
  noFile := by
    rw [outputFile?]
    exact prints.noFile

theorem PrintsJson.script_eq {arguments : LintArguments} (prints : PrintsJson arguments)
    (place : Place) (threshold : Level) :
    script place threshold arguments =
      .ofLogged (run place arguments) fun report =>
        ⟨[.print (report.json ++ "\n")], .ok report.exitCode⟩ := by
  rw [script, prints.json, prints.noFile]
  rfl

theorem PrintsJson.script_congr {place : Place} {arguments : LintArguments}
    (prints : PrintsJson arguments) {environment : Environment}
    (agree : place.environment.AgreeButForLevel environment) (verbose : Bool)
    (threshold : Level) :
    script { place with environment := environment } threshold
        { arguments with verbose := verbose } =
      script place threshold arguments := by
  rw [(prints.with_verbose verbose).script_eq, prints.script_eq, run_congr agree]

theorem perform_script_reported {place : Place} {arguments : LintArguments} {fault : Fault}
    (failed : (run place arguments).outcome = .error fault)
    (reported : Script.isReported fault = true) {threshold : Level}
    (hidden : threshold.shows .debug = false) (terminal : Terminal) :
    (script place threshold arguments).perform threshold terminal =
      (terminal.print s!"Error: {fault.message}\n", .ok 1) := by
  rw [script, Script.ofLogged, failed]
  simp only [Script.ofFault, reported, if_true]
  rw [Script.perform, Script.after, performAll_debug hidden]
  rfl

end Lint

/-! ## Command lines -/

/-- The level of log messages is one of the standard names, or not set at all. -/
def HasLevel (environment : Environment) : Prop :=
  Succeeds (Level.ofName environment.logLevel)

theorem run_of_printsJson {place : Place} {arguments : List String} {lint : LintArguments}
    (parsed : parse arguments = .ok (.lint lint)) (prints : Lint.PrintsJson lint)
    (level : HasLevel place.environment) :
    run place arguments =
      (Lint.script place .error lint).perform .error { disk := place.disk } := by
  obtain ⟨standard, known⟩ := level
  rw [run, known]
  simp only [parsed, invocationScript, prints.threshold]

end CommandLine

/-! ## Faults of linting -/

/-- What the program itself has to say against linting: faults of the configuration, of the docs
and of the templates. -/
inductive Fault.IsLintFault : Fault → Prop
  | config {fault : Fault} : fault.isConfigFault = true → IsLintFault fault
  | docsMissing (path : String) : IsLintFault (.docsMissing path)
  | noDocuments (path : String) : IsLintFault (.noDocuments path)
  | templateMissing (category : String) : IsLintFault (.templateMissing category)

theorem Fault.IsLintFault.isReported {fault : Fault} (lintFault : fault.IsLintFault) :
    CommandLine.Script.isReported fault = true := by
  cases lintFault with
  | config tells => cases fault <;> first | rfl | cases tells
  | _ => rfl

namespace CommandLine

/-- All that can be told of a run that prints its report as JSON. -/
structure PrintsPureJson (place : Place) (arguments : List String) (lint : LintArguments) :
    Prop where
  report : ∀ report, (Lint.run place lint).outcome = .ok report →
    run place arguments =
      ({ disk := place.disk, out := report.json ++ "\n" }, .ok report.exitCode)
  fault : ∀ fault, (Lint.run place lint).outcome = .error fault → fault.IsLintFault →
    run place arguments =
      ({ disk := place.disk, out := "Error: " ++ fault.message ++ "\n" }, .ok 1)
  independent : ∀ environment others verbose,
    place.environment.AgreeButForLevel environment → HasLevel environment →
    parse others = .ok (.lint { lint with verbose := verbose }) →
      run { place with environment := environment } others = run place arguments
  verbose : ∀ rest, arguments = "lint" :: rest →
    run place ("lint" :: "--verbose" :: rest) = run place arguments

end CommandLine

end DocAudit
