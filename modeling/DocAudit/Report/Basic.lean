import DocAudit.Fault

/-!
Findings, results of rules and the summary of a run. A run passes when no rule of severity `error`
has found anything.
-/

namespace DocAudit

/-- Severity of a whole rule: off, it does not run; on warn, its findings never fail a run. -/
inductive Severity where
  | off
  | warn
  | error
  deriving DecidableEq, Repr

namespace Severity

def word : Severity → String
  | .off => "off"
  | .warn => "warn"
  | .error => "error"

def ofWord? : String → Option Severity
  | "off" => some .off
  | "warn" => some .warn
  | "error" => some .error
  | _ => none

def ofValue (value : Value) : Except Fault Severity :=
  match value with
  | .text word => (ofWord? word).elim (.error (.notARuleSeverity value)) .ok
  | value => .error (.notARuleSeverity value)

theorem ofWord?_word (severity : Severity) : ofWord? severity.word = some severity := by
  cases severity <;> rfl

end Severity

/-- Severity of a single finding, for rules that tell findings apart. -/
inductive IssueSeverity where
  | info
  | warn
  | error
  deriving DecidableEq, Repr

namespace IssueSeverity

def word : IssueSeverity → String
  | .info => "info"
  | .warn => "warn"
  | .error => "error"

def ofWord? : String → Option IssueSeverity
  | "info" => some .info
  | "warn" => some .warn
  | "error" => some .error
  | _ => none

def ofValue (value : Value) : Except Fault IssueSeverity :=
  match value with
  | .text word => (ofWord? word).elim (.error (.notAnIssueSeverity value)) .ok
  | value => .error (.notAnIssueSeverity value)

theorem ofWord?_word (severity : IssueSeverity) : ofWord? severity.word = some severity := by
  cases severity <;> rfl

end IssueSeverity

/-- A finding. The message is a text unless a configured message of another shape takes its
place. -/
structure Issue where
  file : String
  message : Value
  line : Option Nat := none
  suggestion : Option String := none
  severity : Option IssueSeverity := none

structure RuleResult where
  rule : String
  severity : Severity
  issues : List Issue

def RuleResult.passed (result : RuleResult) : Bool :=
  result.issues.isEmpty

structure Summary where
  errors : Nat
  warnings : Nat
  passed : Nat
  deriving DecidableEq, Repr

/-- How many findings the results of one severity hold. -/
def countIssues (results : List RuleResult) (severity : Severity) : Nat :=
  ((results.filter (·.severity == severity)).flatMap (·.issues)).length

def Summary.ofResults (results : List RuleResult) : Summary where
  errors := countIssues results .error
  warnings := countIssues results .warn
  passed := results.countP (·.passed)

structure Report where
  filesChecked : Nat
  results : List RuleResult
  passed : Bool
  summary : Summary

namespace Report

def ofResults (filesChecked : Nat) (results : List RuleResult) : Report where
  filesChecked := filesChecked
  results := results
  passed := (results.filter (·.severity == .error)).all (·.passed)
  summary := .ofResults results

def rule? (report : Report) (name : String) : Option RuleResult :=
  report.results.find? (·.rule == name)

end Report

end DocAudit
