import DocAudit.Rule

/-!
Settings of single rules: a severity, with options for the rules that take any. A setting is
written as the word of its severity, or as a table with the severity and the options.
-/

namespace DocAudit

/-! Options are written with humps in a configuration and with underscores in a rule. -/

def breakHumps : List Char → List Char
  | [] => []
  | first :: rest => first :: rest.flatMap fun c => if c.isUpper then ['_', c] else [c]

def snakeCase (key : String) : String :=
  String.ofList (Text.toLower (breakHumps key.toList))

def snakeEntries (entries : Entries) : Entries :=
  .ofList (entries.map fun (key, value) => (snakeCase key, value))

structure RuleSetting (rule : Rule) where
  severity : Severity
  options : rule.Options

def standardSetting (rule : Rule) : RuleSetting rule where
  severity := rule.standardSeverity
  options := rule.standardOptions

/-- The severity that a setting has when it names none. -/
def impliedSeverity : Severity := .warn

def severityOf (name : String) (value : Value) : Except Fault Severity :=
  match Severity.ofValue value with
  | .ok severity => .ok severity
  | .error _ => .error (.badSeverity name value)

/-- The severity of a setting, and everything else in it. -/
def splitSetting (name : String) (raw : Value) : Except Fault (Severity × Entries) :=
  match raw with
  | .text _ => return (← severityOf name raw, [])
  | .table entries => do
    let severity ← severityOf name ((entries.lookup "severity").getD (.text impliedSeverity.word))
    return (severity, Entries.erase entries "severity")
  | _ => throw (.ruleShape name)

def requireNoOptions (name : String) (rest : Entries) : Except Fault Unit :=
  if rest.isEmpty then .ok () else .error (.optionsNotTaken name (Disk.sortedNames rest.keys))

/-- Tags without a severity follow that of their rule, which counts as `warn` when it is off. -/
def withTagSeverity (rule : Rule) (severity : Severity) (given : Entries) : Entries :=
  if rule = .todoComments ∧ ¬ given.hasKey "default_severity" then
    let word := if severity = .off then Severity.warn.word else severity.word
    given.insert "default_severity" (.text word)
  else given

/-- A fault in the options names the rule, except where a value of another shape was asked for
something that it does not have. -/
def optionFault (name : String) (fault : Fault) : Fault :=
  match fault with
  | .noAttribute .. => fault
  | fault => .badOptions name fault

def RuleSetting.ofValue (rule : Rule) (raw : Value) : Except Fault (RuleSetting rule) := do
  let (severity, rest) ← splitSetting rule.name raw
  if !rule.takesOptions then requireNoOptions rule.name rest
  let given := withTagSeverity rule severity (snakeEntries rest)
  match rule.readOptions given with
  | .ok options => return ⟨severity, options⟩
  | .error fault => throw (optionFault rule.name fault)

/-- The setting of a name that is no rule's: a severity without options. -/
def unknownSetting (name : String) (raw : Value) : Except Fault Severity := do
  let (severity, rest) ← splitSetting name raw
  requireNoOptions name rest
  return severity

/-- A setting by the name that it stands under. -/
inductive NamedSetting where
  | known (rule : Rule) (setting : RuleSetting rule)
  | unknown (name : String) (severity : Severity)

namespace NamedSetting

def ofValue (name : String) (raw : Value) : Except Fault NamedSetting :=
  match Rule.ofName? name with
  | some rule => return .known rule (← RuleSetting.ofValue rule raw)
  | none => return .unknown name (← unknownSetting name raw)

def severity : NamedSetting → Severity
  | known _ setting => setting.severity
  | unknown _ severity => severity

def optionEntries? : NamedSetting → Option Entries
  | known rule setting => rule.optionEntries? setting.options
  | unknown _ _ => none

end NamedSetting

example : snakeCase "excludePaths" = "exclude_paths" := by decide +kernel

end DocAudit
