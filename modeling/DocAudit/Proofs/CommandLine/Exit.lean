import DocAudit.CommandLine.Commands
import DocAudit.Proofs.Report.Readable

/-!
Exit codes. Performing a script, capturing it and writing it to a file change nothing in the code
that it ends with, if it ends with one.
-/

namespace DocAudit

namespace CommandLine

namespace Script

theorem exit_ofMessages {exit code : Nat} {messages : List (Except Fault String)}
    (ended : (ofMessages exit messages).exit = .ok code) : code = exit := by
  induction messages with
  | nil => exact (Except.ok.inj ended).symm
  | cons message rest induction =>
    cases message with
    | error fault => cases ended
    | ok text => exact induction ended

theorem exit_ofMessages_of_areWritable {messages : List (Except Fault String)}
    (writable : AreWritable messages) (exit : Nat) :
    (ofMessages exit messages).exit = .ok exit := by
  induction messages with
  | nil => rfl
  | cons message rest induction =>
    obtain ⟨⟨text, rfl⟩, restWritable⟩ := List.forall_mem_cons.mp writable
    exact induction restWritable

theorem exit_of_perform {script : Script} {threshold : Level} {terminal after : Terminal}
    {code : Nat} (ended : script.perform threshold terminal = (after, .ok code)) :
    script.exit = .ok code := by
  rw [perform] at ended
  split at ended
  · exact congrArg Prod.snd ended
  · cases congrArg Prod.snd ended

theorem exit_of_capture {script : Script} {threshold : Level} {disk : Disk} {text : String}
    {code : Nat} (captured : script.capture threshold disk = .ok (text, code)) :
    script.exit = .ok code := by
  rw [capture] at captured
  cases ended : script.perform threshold { disk := disk } with
  | mk terminal exit =>
    rw [ended] at captured
    cases exit with
    | error fault => cases captured
    | ok value =>
      obtain ⟨-, rfl⟩ := Prod.mk.inj (Except.ok.inj captured)
      exact exit_of_perform ended

end Script

/-- Debug messages leave no trace where their level is not shown. -/
theorem performAll_debug {threshold : Level} (hidden : threshold.shows .debug = false)
    (terminal : Terminal) (messages : List String) (rest : List Event) :
    performAll threshold terminal (Script.debug messages ++ rest) =
      performAll threshold terminal rest := by
  induction messages with
  | nil => rfl
  | cons message further induction =>
    change performAll threshold terminal (.log .debug message :: (Script.debug further ++ rest)) = _
    rw [performAll, Event.perform, hidden, if_neg Bool.false_ne_true]
    exact induction

namespace Lint

theorem exit_jsonScript {place : Place} {output : Option FilePath} {report : Report} {code : Nat}
    (ended : (jsonScript place output report).exit = .ok code) : code = report.exitCode := by
  cases output with
  | none => exact (Except.ok.inj ended).symm
  | some path =>
    rw [jsonScript] at ended
    split at ended
    · cases ended
    · exact (Except.ok.inj ended).symm

theorem exit_consoleScript {place : Place} {threshold : Level} {arguments : LintArguments}
    {report : Report} {code : Nat}
    (ended : (consoleScript place threshold arguments report).exit = .ok code) :
    code = report.exitCode := by
  rw [consoleScript] at ended
  split at ended
  · exact Script.exit_ofMessages ended
  · split at ended
    · cases ended
    · next captured =>
      split at ended
      · cases ended
      · have shown := Script.exit_of_capture captured
        cases Except.ok.inj ended
        exact Script.exit_ofMessages shown

theorem exit_script {place : Place} {threshold : Level} {arguments : LintArguments}
    {report : Report} {code : Nat} (linted : (run place arguments).outcome = .ok report)
    (ended : (script place threshold arguments).exit = .ok code) : code = report.exitCode := by
  rw [script, Script.ofLogged, linted] at ended
  cases format : arguments.format with
  | json =>
    simp only [format] at ended
    exact exit_jsonScript ended
  | console =>
    simp only [format] at ended
    exact exit_consoleScript ended

theorem perform_script_json {place : Place} {arguments : LintArguments} {report : Report}
    (linted : (run place arguments).outcome = .ok report) (json : arguments.format = .json)
    (noFile : outputFile? arguments = none) {threshold : Level}
    (hidden : threshold.shows .debug = false) (terminal : Terminal) :
    (script place threshold arguments).perform threshold terminal =
      (terminal.print (report.json ++ "\n"), .ok report.exitCode) := by
  rw [script, Script.ofLogged, linted]
  simp only [json, noFile]
  rw [Script.perform, Script.after, performAll_debug hidden]
  rfl

end Lint

end CommandLine

end DocAudit
