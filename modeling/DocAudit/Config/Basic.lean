import DocAudit.Config.Setting
import DocAudit.Environment

/-!
Configurations: where the docs are, which files count, and a setting for every rule. What is given
replaces the standard configuration entry by entry and rule by rule.
-/

namespace DocAudit

structure Config where
  docsDir : String
  included : List String := Discovery.defaultIncluded
  excluded : List String := Discovery.defaultExcluded
  settings : (rule : Rule) → RuleSetting rule := standardSetting
  /-- Severities under names that are no rule's. -/
  others : List (String × Severity) := []
  terms : List Terminology.Term := []
  requiredFiles : List String := []
  languages : Option LanguageFolders.Languages := none

namespace Config

def standard (environment : Environment) : Config where
  docsDir := environment.docsDir

def set (config : Config) (rule : Rule) (setting : RuleSetting rule) : Config :=
  { config with
    settings := fun other => if same : rule = other then same ▸ setting else config.settings other }

@[simp] theorem set_same (config : Config) (rule : Rule) (setting : RuleSetting rule) :
    (config.set rule setting).settings rule = setting := by
  simp [set]

theorem set_other (config : Config) (rule other : Rule) (setting : RuleSetting rule)
    (different : rule ≠ other) :
    (config.set rule setting).settings other = config.settings other := by
  simp [set, different]

def setOther (config : Config) (name : String) (severity : Severity) : Config :=
  { config with
    others :=
      if config.others.any (·.1 == name) then
        config.others.map fun entry => if entry.1 == name then (name, severity) else entry
      else config.others ++ [(name, severity)] }

def setNamed (config : Config) : NamedSetting → Config
  | .known rule setting => config.set rule setting
  | .unknown name severity => config.setOther name severity

/-- The setting under a name. A name that nothing is set under counts as a rule on `warn`. -/
def named (config : Config) (name : String) : NamedSetting :=
  match Rule.ofName? name with
  | some rule => .known rule (config.settings rule)
  | none => .unknown name ((config.others.lookup name).getD impliedSeverity)

def severity (config : Config) (rule : Rule) : Severity :=
  (config.settings rule).severity

/-- Everything that is set, under its name. -/
def allSettings (config : Config) : List (String × NamedSetting) :=
  (Rule.all.map fun rule => (rule.name, .known rule (config.settings rule)))
    ++ config.others.map fun (name, severity) => (name, .unknown name severity)

end Config

/-! ## Reading -/

namespace Config

def knownKeys : List String :=
  ["docsDir", "include", "exclude", "rules", "terminology", "requiredFiles", "i18n"]

/-- Keys that mean nothing, in order. -/
def unknownKeys (entries : Entries) : List String :=
  Disk.sortedNames (entries.keys.filter (!knownKeys.contains ·))

/-- A list of texts; items of other shapes are written out. -/
def readTexts (entries : Entries) (key : String) (standard : List String) :
    Except Fault (List String) :=
  match entries.lookup key with
  | none => .ok standard
  | some (.list items) => .ok (items.map Value.plain)
  | some _ => .error (.listExpected key)

def readRule (config : Config) (entry : String × Value) : Except Fault Config :=
  return config.setNamed (← NamedSetting.ofValue entry.1 entry.2)

def readRules (config : Config) (value : Value) : Except Fault Config :=
  if !value.truthy then .ok config
  else match value with
    | .table entries => entries.foldlM readRule config
    | _ => .error .rulesExpected

/-- Refuses a term whose variants or exceptions are no list. -/
def requireLists (value : Value) : Except Fault Unit :=
  match value with
  | .table entries =>
    ["variants", "exceptions"].forM fun key =>
      match entries.lookup key with
      | none | some (.list _) => .ok ()
      | some _ => .error (.terminologyListExpected key)
  | _ => .ok ()

def readTerm (value : Value) : Except Fault Terminology.Term := do
  return {
    preferred := ← value.field "preferred"
    variants := ← (← value.field "variants").items
    exceptions := ← (← value.fieldD "exceptions" (.tuple [])).items
    wordBoundary := (← value.fieldD "wordBoundary" (.bool false)).truthy }

def readTerms (value : Value) : Except Fault (List Terminology.Term) :=
  match value with
  | .list items => do
    items.forM requireLists
    (items.mapM readTerm).mapError .badTerminology
  | _ => throw .terminologyExpected

def readLanguages (value : Value) : Except Fault LanguageFolders.Languages :=
  match value with
  | .table entries =>
    match entries.lookup "sourceLanguage" with
    | some source => do
      return {
        source := source
        targets := ← (← value.fieldD "targetLanguages" (.tuple [])).items
        folder := ← value.fieldD "translationsFolder" (.text "translations")
        checkSync := (← value.fieldD "checkSync" (.bool false)).truthy }
    | none => throw .languagesExpected
  | _ => throw .languagesExpected

def readOptionalLanguages : Option Value → Except Fault (Option LanguageFolders.Languages)
  | none | some .null => .ok none
  | some value => return some (← readLanguages value)

/-- Reads a configuration. Where there are several faults, the first one in this order counts:
lists of files, rules in the order given, terms, languages. -/
def ofEntries (environment : Environment) (entries : Entries) : Except Fault Config := do
  let standard := Config.standard environment
  let included ← readTexts entries "include" standard.included
  let excluded ← readTexts entries "exclude" standard.excluded
  let requiredFiles ← readTexts entries "requiredFiles" standard.requiredFiles
  let config ← readRules standard ((entries.lookup "rules").getD .null)
  let terms ← match entries.lookup "terminology" with
    | some value => readTerms value
    | none => pure []
  let languages ← readOptionalLanguages (entries.lookup "i18n")
  return { config with
    docsDir := ((entries.lookup "docsDir").map Value.plain).getD standard.docsDir
    included := included
    excluded := excluded
    requiredFiles := requiredFiles
    terms := terms
    languages := languages }

end Config

end DocAudit
