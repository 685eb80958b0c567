import DocAudit.Console.Markup
import DocAudit.Report.Basic

/-!
Reports for a console, message by message, with styles as markup. What comes from the documents
is escaped, so that it is shown as it is. Only a message that is no text cannot be shown.
-/

namespace DocAudit

/-- Findings shown of each rule unless everything is shown. -/
def previewLimit : Nat := 3

namespace RuleResult

def icon (result : RuleResult) : String :=
  if result.passed then "[green]✓[/green]"
  else if result.severity = .error then "[red]✗[/red]"
  else "[yellow]⚠[/yellow]"

def label (result : RuleResult) : String :=
  match result.severity with
  | .error => s!"[red]{result.rule}[/red]"
  | .warn => s!"[yellow]{result.rule}[/yellow]"
  | .off => result.rule

end RuleResult

def escapeMarkup (text : String) : String :=
  String.ofList (Markup.escape text.toList)

namespace Issue

def location (issue : Issue) : String :=
  match issue.line with
  | some line => s!"{issue.file}:{line}"
  | none => issue.file

def severityTag (issue : Issue) : String :=
  match issue.severity with
  | none => ""
  | some .error => "[red](error)[/red] "
  | some .warn => "[yellow](warn)[/yellow] "
  | some .info => "[cyan](info)[/cyan] "

def findingMessage (issue : Issue) : Except Fault String :=
  match issue.message with
  | .text message =>
    .ok s!"    [dim]{escapeMarkup issue.location}[/dim] {issue.severityTag}{escapeMarkup message}"
  | value => .error (.notAText value.shape)

/-- The finding and, where everything is shown, its suggestion. -/
def messages (verbose : Bool) (issue : Issue) : List (Except Fault String) :=
  issue.findingMessage ::
    match issue.suggestion with
    | some suggestion =>
      if verbose && suggestion ≠ "" then
        [.ok s!"      [blue]→[/blue] {escapeMarkup suggestion}"]
      else []
    | none => []

end Issue

/-- A rule that has found nothing is told of only where everything is shown. -/
def RuleResult.messages (verbose : Bool) (result : RuleResult) : List (Except Fault String) :=
  if result.passed then
    if verbose then [.ok s!"{result.icon} {result.label}"] else []
  else
    let shown := if verbose then result.issues else result.issues.take previewLimit
    let hidden := result.issues.length - shown.length
    [.ok s!"{result.icon} {result.label} ({result.issues.length} issues)"]
      ++ shown.flatMap (·.messages verbose)
      ++ if 0 < hidden then [.ok s!"    [dim]... and {hidden} more[/dim]"] else []

namespace Report

def heading (report : Report) : List String :=
  let status := if report.passed then "[green]PASSED[/green]" else "[red]FAILED[/red]"
  ["\n[bold]📄 Documentation Lint Results[/bold]\n",
    s!"Files checked: {report.filesChecked}",
    s!"Status: {status}\n",
    "[bold]Summary:[/bold]",
    s!"  [red]Errors:[/red] {report.summary.errors}",
    s!"  [yellow]Warnings:[/yellow] {report.summary.warnings}",
    s!"  [green]Passed:[/green] {report.summary.passed}\n"]

def messages (report : Report) (verbose : Bool) : List (Except Fault String) :=
  report.heading.map .ok ++ report.results.flatMap (·.messages verbose)

def exitCode (report : Report) : Nat :=
  if report.passed then 0 else 1

end Report

/-- Results of the checks of the layout, always with everything. -/
def structureMessages (results : List RuleResult) : List (Except Fault String) :=
  let total := (results.flatMap (·.issues)).length
  let line := String.ofList (List.replicate 60 '=')
  [.ok "\n[bold]📁 Structure Check Results[/bold]\n"]
    ++ results.flatMap (·.messages true)
    ++ [.ok s!"\n{line}",
      .ok s!"Total: [bold]{total}[/bold] issues in [bold]{results.length}[/bold] checks"]

def structureExitCode (results : List RuleResult) : Nat :=
  if results.any fun result => result.severity = .error && !result.passed then 1 else 0

end DocAudit
