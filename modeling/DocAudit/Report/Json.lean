import DocAudit.Json.Printer
import DocAudit.Report.Basic

/-!
Reports as JSON.
-/

namespace DocAudit

def optionalEntry {α : Type} (key : String) (toValue : α → Value) (given : Option α) : Entries :=
  match given with
  | some found => [(key, toValue found)]
  | none => []

/-- What is absent in a finding is absent in its table. -/
def Issue.toValue (issue : Issue) : Value :=
  .table <|
    [("file", .text issue.file)]
      ++ optionalEntry "line" (fun line => .int line) issue.line
      ++ [("message", issue.message)]
      ++ optionalEntry "suggestion" .text issue.suggestion
      ++ optionalEntry "severity" (fun severity => .text severity.word) issue.severity

def RuleResult.toValue (result : RuleResult) : Value :=
  .table
    [("rule", .text result.rule),
      ("severity", .text result.severity.word),
      ("issues", .list (result.issues.map Issue.toValue)),
      ("passed", .bool result.passed)]

def Summary.toValue (summary : Summary) : Value :=
  .table
    [("errors", .int summary.errors),
      ("warnings", .int summary.warnings),
      ("passed", .int summary.passed)]

def Report.toValue (report : Report) : Value :=
  .table
    [("filesChecked", .int report.filesChecked),
      ("ruleResults", .list (report.results.map RuleResult.toValue)),
      ("passed", .bool report.passed),
      ("summary", report.summary.toValue)]

def Report.json (report : Report) : String :=
  Json.indentedText report.toValue

end DocAudit
