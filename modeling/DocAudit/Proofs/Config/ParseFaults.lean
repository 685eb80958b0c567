import DocAudit.Config.Load
import DocAudit.Proofs.Config.Keys
import DocAudit.Proofs.Config.OptionFaults
import DocAudit.Proofs.Value.Entries
import Mathlib

/-!
Which faults can come out of reading a configuration. Almost all of them tell what is wrong with
it. The others come from two places where a value is used before its shape has been looked at:
settings of tags, and the languages to translate into.
-/

namespace DocAudit

/-- Faults that tell what is wrong with a configuration. -/
def Fault.isConfigFault : Fault → Bool
  | .badSeverity .. | .ruleShape .. | .optionsNotTaken .. | .badOptions .. | .listExpected ..
  | .rulesExpected | .terminologyExpected | .terminologyListExpected .. | .badTerminology ..
  | .languagesExpected | .objectExpected | .configMissing .. | .badJson .. => true
  | _ => false

abbrev TellsOfConfig {α : Type} (outcome : Except Fault α) : Prop :=
  FailsOnly (fun fault => fault.isConfigFault = true) outcome

/-! ## Rules -/

/-- The setting of a rule under a name, with tags that fit where the rule takes any. -/
def Value.SettingFits (name : String) (raw : Value) : Prop :=
  name = Rule.todoComments.name → ∀ setting, raw = .table setting →
    (snakeEntries (Entries.erase setting "severity")).TagsFit

/-- Faults of settings: a fault of the configuration, or one that settings of tags give rise to. -/
def IsSettingFault (fits : Prop) (fault : Fault) : Prop :=
  fault.isConfigFault = true ∨ fault.IsMissingAttribute ∧ ¬ fits

theorem Entries.TagsFit.withTagSeverity {given : Entries} (fits : given.TagsFit) (rule : Rule)
    (severity : Severity) : (withTagSeverity rule severity given).TagsFit := by
  intro tags found
  rw [DocAudit.withTagSeverity] at found
  split at found
  · rw [lookup_insert_of_ne _ _ (by decide)] at found
    exact fits tags found
  · exact fits tags found

theorem tellsOfConfig_severityOf (name : String) (value : Value) :
    TellsOfConfig (severityOf name value) := by
  rw [severityOf]
  split
  · exact .ok _
  · exact .error rfl

theorem tellsOfConfig_splitSetting (name : String) (raw : Value) :
    TellsOfConfig (splitSetting name raw) := by
  cases raw with
  | text word => exact (tellsOfConfig_severityOf name _).bind fun _ _ => .ok _
  | table entries => exact (tellsOfConfig_severityOf name _).bind fun _ _ => .ok _
  | _ => exact .error rfl

theorem tellsOfConfig_requireNoOptions (name : String) (rest : Entries) :
    TellsOfConfig (requireNoOptions name rest) := by
  rw [requireNoOptions]
  split
  · exact .ok ()
  · exact .error rfl

/-- What is left of a setting beside its severity. -/
theorem splitSetting_rest {name : String} {raw : Value} {severity : Severity} {rest : Entries}
    (parted : splitSetting name raw = .ok (severity, rest)) :
    rest = [] ∨ ∃ setting, raw = .table setting ∧ rest = Entries.erase setting "severity" := by
  cases raw with
  | text word =>
    obtain ⟨_, -, parted⟩ := exists_of_bind_eq_ok parted
    exact .inl (congrArg Prod.snd (Except.ok.inj parted)).symm
  | table entries =>
    obtain ⟨_, -, parted⟩ := exists_of_bind_eq_ok parted
    exact .inr ⟨entries, rfl, (congrArg Prod.snd (Except.ok.inj parted)).symm⟩
  | _ => cases parted

/-- Tags fit in the options that a rule is given, where they fit in its setting. -/
theorem tagsFit_of_settingFits {rule : Rule} {raw : Value} {severity : Severity} {rest : Entries}
    (parted : splitSetting rule.name raw = .ok (severity, rest)) (fits : raw.SettingFits rule.name)
    (takesTags : rule = .todoComments) :
    (withTagSeverity rule severity (snakeEntries rest)).TagsFit := by
  apply Entries.TagsFit.withTagSeverity
  rcases splitSetting_rest parted with rfl | ⟨setting, isTable, rfl⟩
  · rintro tags ⟨⟩
  · exact fits (congrArg Rule.name takesTags) setting isTable

/-- The setting that options make up, or the fault of a rule that cannot read them. -/
def RuleSetting.ofRead (rule : Rule) (severity : Severity) (outcome : Except Fault rule.Options) :
    Except Fault (RuleSetting rule) :=
  match outcome with
  | .ok options => .ok ⟨severity, options⟩
  | .error fault => .error (optionFault rule.name fault)

theorem failsOnly_ruleSetting (rule : Rule) (raw : Value) :
    FailsOnly (IsSettingFault (raw.SettingFits rule.name)) (RuleSetting.ofValue rule raw) := by
  refine ((tellsOfConfig_splitSetting rule.name raw).mono fun _ tells => .inl tells).bind ?_
  rintro ⟨severity, rest⟩ parted
  have read : FailsOnly (IsSettingFault (raw.SettingFits rule.name)) (RuleSetting.ofRead rule
      severity (rule.readOptions (withTagSeverity rule severity (snakeEntries rest)))) := by
    unfold RuleSetting.ofRead
    split
    · exact .ok _
    · next fault failed =>
      apply FailsOnly.error
      by_cases missing : fault.IsMissingAttribute
      · obtain ⟨shape, name, rfl⟩ := missing
        refine .inr ⟨⟨shape, name, rfl⟩, fun fits => ?_⟩
        exact Rule.noAttributeMissed_readOptions (tagsFit_of_settingFits parted fits) _ failed
          ⟨shape, name, rfl⟩
      · left
        unfold optionFault
        split
        · next shape name => exact absurd ⟨shape, name, rfl⟩ missing
        · rfl
  dsimp only
  split
  · exact ((tellsOfConfig_requireNoOptions rule.name rest).mono fun _ tells => .inl tells).bind
      fun _ _ => read
  · exact read

theorem failsOnly_namedSetting (name : String) (raw : Value) :
    FailsOnly (IsSettingFault (raw.SettingFits name)) (NamedSetting.ofValue name raw) := by
  rw [NamedSetting.ofValue]
  split
  · next rule found =>
    rw [← Rule.name_of_ofName? found]
    exact (failsOnly_ruleSetting rule raw).bind fun _ _ => .ok _
  · have tells : TellsOfConfig (unknownSetting name raw) :=
      (tellsOfConfig_splitSetting name raw).bind fun (_, rest) _ =>
        (tellsOfConfig_requireNoOptions name rest).bind fun _ _ => .ok _
    exact (tells.mono fun _ tells => .inl tells).bind fun _ _ => .ok _

/-! ## Configurations -/

/-- Rules in whose settings tags fit. -/
def Value.RulesFit (value : Value) : Prop :=
  ∀ entries rules, value = .table entries → entries.lookup "rules" = some (.table rules) →
    ∀ entry ∈ rules, entry.2.SettingFits entry.1

/-- A value that can be gone through item by item. -/
def Value.HasItems : Value → Prop
  | .text _ | .list _ | .tuple _ | .table _ => True
  | _ => False

/-- Languages to translate into that can be gone through, where there are any. -/
def Value.TargetsFit (value : Value) : Prop :=
  ∀ entries languages targets, value = .table entries →
    entries.lookup "i18n" = some (.table languages) →
    languages.lookup "targetLanguages" = some targets → targets.HasItems

/-- Faults of reading a configuration: one that tells of the configuration, or one of the two that
values of another shape give rise to. -/
def IsParseFault (value : Value) (fault : Fault) : Prop :=
  fault.isConfigFault = true ∨
    fault.IsMissingAttribute ∧ ¬ value.RulesFit ∨
    (∃ shape, fault = .notIterable shape) ∧ ¬ value.TargetsFit

namespace Config

theorem tellsOfConfig_textsGiven (key : String) (standard : List String)
    (given : Option Value) : TellsOfConfig (textsGiven key standard given) := by
  rw [textsGiven.eq_def]
  split
  · exact .ok _
  · exact .ok _
  · exact .error rfl

theorem failsOnly_readRules {value rules : Value} {entries : Entries} (config : Config)
    (isTable : value = .table entries) (given : (entries.lookup "rules").getD .null = rules) :
    FailsOnly (IsParseFault value) (config.readRules rules) := by
  rw [readRules.eq_def]
  split
  · exact .ok config
  · next truthy =>
    split
    · next settings =>
      have found : entries.lookup "rules" = some (.table settings) := by
        cases looked : entries.lookup "rules" with
        | none =>
          rw [looked] at given
          cases given
        | some other =>
          rw [looked] at given
          exact congrArg some given
      refine FailsOnly.foldlM (fun entry member config => ?_) config
      refine FailsOnly.bind ?_ fun _ _ => .ok _
      refine (failsOnly_namedSetting entry.1 entry.2).mono ?_
      rintro fault (tells | ⟨missing, loose⟩)
      · exact .inl tells
      · exact .inr (.inl ⟨missing, fun fits =>
          loose (fits entries settings isTable found entry member)⟩)
    · exact .error (.inl rfl)

theorem tellsOfConfig_requireLists (value : Value) : TellsOfConfig (requireLists value) := by
  cases value with
  | table entries =>
    refine FailsOnly.forM fun key _ => ?_
    split
    · exact .ok ()
    · exact .ok ()
    · exact .error rfl
  | _ => exact .ok ()

theorem tellsOfConfig_readTerms (value : Value) : TellsOfConfig (readTerms value) := by
  cases value with
  | list items =>
    refine (FailsOnly.forM fun item _ => tellsOfConfig_requireLists item).bind fun _ _ => ?_
    exact FailsOnly.mapError fun _ _ => rfl
  | _ => exact .error rfl

theorem tellsOfConfig_termsGiven (given : Option Value) : TellsOfConfig (termsGiven given) := by
  cases given with
  | none => exact .ok _
  | some value => exact tellsOfConfig_readTerms value

theorem failsOnly_items (value : Value) :
    FailsOnly (fun fault => (∃ shape, fault = .notIterable shape) ∧ ¬ value.HasItems)
      value.items := by
  cases value with
  | text _ | list _ | tuple _ | table _ => exact .ok _
  | _ => exact .error ⟨⟨_, rfl⟩, id⟩

theorem failsOnly_readOptionalLanguages {value : Value} {entries : Entries}
    (isTable : value = .table entries) :
    FailsOnly (IsParseFault value) (readOptionalLanguages (entries.lookup "i18n")) := by
  rw [readOptionalLanguages.eq_def]
  split
  · exact .ok none
  · exact .ok none
  · next given _ found =>
    refine FailsOnly.bind ?_ fun _ _ => .ok _
    cases given with
    | table languages =>
      rw [readLanguages]
      split
      · refine FailsOnly.bind (.ok _) fun targets taken => FailsOnly.bind ?_ fun _ _ =>
          FailsOnly.bind (.ok _) fun _ _ => FailsOnly.bind (.ok _) fun _ _ => .ok _
        refine (failsOnly_items targets).mono fun fault failed => .inr (.inr ⟨failed.1, ?_⟩)
        intro fits
        cases targetsGiven : languages.lookup "targetLanguages" with
        | none =>
          rw [Value.fieldD, targetsGiven] at taken
          cases taken
          exact failed.2 trivial
        | some given =>
          rw [Value.fieldD, targetsGiven] at taken
          cases taken
          exact failed.2 (fits entries languages _ isTable found targetsGiven)
      · exact .error (.inl rfl)
    | _ => exact .error (.inl rfl)

theorem failsOnly_ofEntries (environment : Environment) (entries : Entries) :
    FailsOnly (IsParseFault (.table entries)) (ofEntries environment entries) := by
  have texts (key : String) (standard : List String) (given : Option Value) :
      FailsOnly (IsParseFault (.table entries)) (textsGiven key standard given) :=
    (tellsOfConfig_textsGiven key standard given).mono fun _ tells => .inl tells
  have terms : FailsOnly (IsParseFault (.table entries))
      (termsGiven (entries.lookup "terminology")) :=
    (tellsOfConfig_termsGiven _).mono fun _ tells => .inl tells
  rw [ofEntries_eq]
  refine (texts _ _ _).bind fun _ _ => (texts _ _ _).bind fun _ _ => (texts _ _ _).bind fun _ _ => ?_
  refine (failsOnly_readRules _ rfl rfl).bind fun _ _ => terms.bind fun _ _ => ?_
  exact (failsOnly_readOptionalLanguages rfl).bind fun _ _ => .ok _

/-- Reading any value as a configuration gives one or tells of a fault in it, except where settings
of tags or the languages to translate into are of a shape that nobody has looked at. -/
theorem outcome_ofValue (environment : Environment) (value : Value) :
    (∃ config, (ofValue environment value).outcome = .ok config) ∨
      ∃ fault, (ofValue environment value).outcome = .error fault ∧ IsParseFault value fault := by
  have fails : FailsOnly (IsParseFault value) (ofValue environment value).outcome := by
    cases value with
    | table entries => exact failsOnly_ofEntries environment entries
    | _ => exact .error (.inl rfl)
  cases outcome : (ofValue environment value).outcome with
  | ok config => exact .inl ⟨config, rfl⟩
  | error fault => exact .inr ⟨fault, rfl, fails fault outcome⟩

theorem readLanguages_of_not_hasItems {languages : Entries} {source targets : Value}
    (sourceGiven : languages.lookup "sourceLanguage" = some source)
    (targetsGiven : languages.lookup "targetLanguages" = some targets)
    (noItems : ¬ targets.HasItems) :
    readLanguages (.table languages) = .error (.notIterable targets.shape) := by
  rw [readLanguages, sourceGiven]
  simp only [Value.fieldD, targetsGiven, bind, Except.bind, Option.getD_some]
  cases targets with
  | text _ | list _ | tuple _ | table _ => exact absurd trivial noItems
  | _ => rfl

/-- The gap is open wherever everything else can be read. -/
theorem ofEntries_of_not_hasItems {environment : Environment} {entries languages : Entries}
    {source targets : Value} {config : Config}
    (others : ofEntries environment (entries.erase "i18n") = .ok config)
    (given : entries.lookup "i18n" = some (.table languages))
    (sourceGiven : languages.lookup "sourceLanguage" = some source)
    (targetsGiven : languages.lookup "targetLanguages" = some targets)
    (noItems : ¬ targets.HasItems) :
    ofEntries environment entries = .error (.notIterable targets.shape) := by
  have kept (key : String) (different : key ≠ "i18n") :
      (entries.erase "i18n").lookup key = entries.lookup key := entries.lookup_erase_of_ne different
  have failed : readOptionalLanguages (some (.table languages)) =
      .error (.notIterable targets.shape) := by
    simp only [readOptionalLanguages,
      readLanguages_of_not_hasItems sourceGiven targetsGiven noItems]
    rfl
  obtain ⟨-, included, excluded, required, ⟨rules, readRules, -⟩, terms, -⟩ :=
    ofEntries_eq_ok_iff.mp others
  rw [kept _ (by decide)] at included excluded required readRules terms
  rw [ofEntries_eq, included, excluded, required, readRules, terms, given, failed]
  rfl

theorem outcome_ofValue_number_of_targets :
    (ofValue [] (.table [("i18n", .table [("sourceLanguage", .text "ja"),
      ("targetLanguages", .int 5)])])).outcome = .error (.notIterable .int) ∧
    (Fault.notIterable .int).isConfigFault = false := by
  constructor
  · cbv
  · rfl

example : (ofValue [] (.table [("rules", .table [("todoComments", .table [("tags",
    .list [.int 1])])])])).outcome = .error (.noAttribute .list "items") := by
  cbv

end Config

end DocAudit
