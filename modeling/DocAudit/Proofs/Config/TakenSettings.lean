import DocAudit.Proofs.Config.ParseFaults
import DocAudit.Proofs.Config.ReadOptions

/-!
Which settings are taken under a name, and with which fields. A setting has a severity, named or
implied; what stands beside it has to be options that the rule of that name can read.
-/

namespace DocAudit

namespace Value

/-- The severity that a setting has, named in it or implied. -/
def SetsSeverity (raw : Value) (severity : Severity) : Prop :=
  match raw with
  | .text _ => Severity.ofValue raw = .ok severity
  | .table entries =>
    Severity.ofValue ((entries.lookup "severity").getD (.text impliedSeverity.word)) = .ok severity
  | _ => False

def besideSeverity : Value → Entries
  | .table entries => Entries.erase entries "severity"
  | _ => []

/-- What a setting gives for options, by their names. -/
def givenOptions (raw : Value) : Entries :=
  snakeEntries raw.besideSeverity

end Value

/-- The word for the severity of a rule that its tags follow. -/
def tagWord (severity : Severity) : String :=
  if severity = .off then Severity.warn.word else severity.word

/-- The severity of tags that have none of their own. -/
def Value.tagDefault (raw : Value) (severity : Severity) : Value :=
  (raw.givenOptions.lookup "default_severity").getD (.text (tagWord severity))

/-- The options that there are under a name, which may be that of no rule. -/
def optionKinds (name : String) : List (String × OptionKind) :=
  ((Rule.ofName? name).map Rule.optionKinds).getD []

theorem severityOf_eq_ok_iff {name : String} {value : Value} {severity : Severity} :
    severityOf name value = .ok severity ↔ Severity.ofValue value = .ok severity := by
  rw [severityOf]
  cases Severity.ofValue value with
  | ok found => rfl
  | error fault => exact iff_of_false error_ne_ok error_ne_ok

theorem splitSetting_eq_ok_iff {name : String} {raw : Value} {severity : Severity}
    {rest : Entries} :
    splitSetting name raw = .ok (severity, rest) ↔
      raw.SetsSeverity severity ∧ rest = raw.besideSeverity := by
  have split {found : Except Fault Severity} {beside : Entries} :
      (found >>= fun severity => (.ok (severity, beside) : Except Fault _)) = .ok (severity, rest) ↔
        found = .ok severity ∧ rest = beside := by
    cases found with
    | ok found => simp [bind, Except.bind, eq_comm]
    | error fault => exact iff_of_false error_ne_ok fun both => error_ne_ok both.1
  cases raw with
  | text word =>
    rw [Value.SetsSeverity, ← severityOf_eq_ok_iff]
    exact split
  | table entries =>
    rw [Value.SetsSeverity, ← severityOf_eq_ok_iff]
    exact split
  | _ => exact iff_of_false error_ne_ok fun sets => sets.1

theorem requireNoOptions_eq_ok_iff {name : String} {rest : Entries} :
    requireNoOptions name rest = .ok () ↔ rest = [] := by
  rw [requireNoOptions]
  cases rest with
  | nil => exact iff_of_true rfl rfl
  | cons entry rest => exact iff_of_false error_ne_ok (List.cons_ne_nil _ _)

theorem RuleSetting.ofRead_eq_ok_iff {rule : Rule} {severity : Severity}
    {outcome : Except Fault rule.Options} {setting : RuleSetting rule} :
    ofRead rule severity outcome = .ok setting ↔
      severity = setting.severity ∧ outcome = .ok setting.options := by
  cases outcome with
  | ok options =>
    constructor
    · rintro ⟨⟩
      exact ⟨rfl, rfl⟩
    · rintro ⟨rfl, ⟨⟩⟩
      rfl
  | error fault => exact iff_of_false error_ne_ok fun both => error_ne_ok both.2

/-- What the setting of a rule comes from. -/
theorem RuleSetting.ofValue_eq_ok_iff {rule : Rule} {raw : Value} {setting : RuleSetting rule} :
    RuleSetting.ofValue rule raw = .ok setting ↔
      raw.SetsSeverity setting.severity ∧
        (rule.takesOptions = false → raw.besideSeverity = []) ∧
        rule.readOptions (withTagSeverity rule setting.severity raw.givenOptions) =
          .ok setting.options := by
  constructor
  · intro accepted
    obtain ⟨⟨severity, rest⟩, parted, accepted⟩ := exists_of_bind_eq_ok accepted
    obtain ⟨sets, rfl⟩ := splitSetting_eq_ok_iff.mp parted
    dsimp only at accepted
    split at accepted
    · obtain ⟨_, noOptions, accepted⟩ := exists_of_bind_eq_ok accepted
      obtain ⟨rfl, read⟩ := ofRead_eq_ok_iff.mp accepted
      exact ⟨sets, fun _ => requireNoOptions_eq_ok_iff.mp noOptions, read⟩
    · next takes =>
      obtain ⟨rfl, read⟩ := ofRead_eq_ok_iff.mp accepted
      exact ⟨sets, fun takesNone => absurd (by simp [takesNone]) takes, read⟩
  · rintro ⟨sets, noOptions, read⟩
    rw [RuleSetting.ofValue, splitSetting_eq_ok_iff.mpr ⟨sets, rfl⟩]
    have accepted := ofRead_eq_ok_iff.mpr ⟨rfl, read⟩
    cases takes : rule.takesOptions with
    | true => exact accepted
    | false =>
      rw [← accepted, Value.givenOptions, noOptions takes]
      rfl

theorem unknownSetting_eq_ok_iff {name : String} {raw : Value} {severity : Severity} :
    unknownSetting name raw = .ok severity ↔
      raw.SetsSeverity severity ∧ raw.besideSeverity = [] := by
  constructor
  · intro accepted
    obtain ⟨⟨found, rest⟩, parted, accepted⟩ := exists_of_bind_eq_ok accepted
    obtain ⟨_, noOptions, ⟨⟩⟩ := exists_of_bind_eq_ok accepted
    obtain ⟨sets, rfl⟩ := splitSetting_eq_ok_iff.mp parted
    exact ⟨sets, requireNoOptions_eq_ok_iff.mp noOptions⟩
  · rintro ⟨sets, noOptions⟩
    rw [unknownSetting, splitSetting_eq_ok_iff.mpr ⟨sets, rfl⟩, noOptions]
    rfl

/-- Tags have a default severity wherever they are read. -/
theorem lookup_withTagSeverity (rule : Rule) (severity : Severity) (given : Entries)
    (name : String) :
    (withTagSeverity rule severity given).lookup name =
      if rule = .todoComments ∧ name = "default_severity" then
        some ((given.lookup name).getD (.text (tagWord severity)))
      else given.lookup name := by
  by_cases inserts : rule = .todoComments ∧ ¬ given.hasKey "default_severity" = true
  · have new := Bool.eq_false_iff.mpr inserts.2
    rw [withTagSeverity, if_pos inserts]
    change (given.insert "default_severity" (.text (tagWord severity))).lookup name = _
    by_cases same : name = "default_severity"
    · rw [if_pos ⟨inserts.1, same⟩, same, Entries.lookup_insert, if_pos rfl,
        Entries.hasKey_eq_false_iff.mp new]
      rfl
    · rw [if_neg fun both => same both.2, Entries.lookup_insert_of_ne _ _ same]
  · rw [withTagSeverity, if_neg inserts]
    split
    · next both =>
      obtain ⟨isTodo, rfl⟩ := both
      have some := fun missing => inserts ⟨isTodo, Bool.eq_false_iff.mp missing⟩
      cases looked : given.lookup "default_severity" with
      | none => exact absurd (Entries.hasKey_eq_false_iff.mpr looked) some
      | some value => rfl
    · rfl

theorem lookup_withTagSeverity_of_ne (rule : Rule) (severity : Severity) (given : Entries)
    {name : String} (other : name ≠ "default_severity") :
    (withTagSeverity rule severity given).lookup name = given.lookup name := by
  rw [lookup_withTagSeverity, if_neg fun both => other both.2]

theorem withTagSeverity_of_ne {rule : Rule} (other : rule ≠ .todoComments) (severity : Severity)
    (given : Entries) : withTagSeverity rule severity given = given :=
  if_neg fun inserts => other inserts.1

/-- The default severity of tags is an option like any other. -/
theorem text_of_default_severity : ∀ declared ∈ Rule.todoComments.optionKinds,
    declared.1 = "default_severity" → declared.2 = .text := by
  decide

theorem canBeRead_withTagSeverity_iff {rule : Rule} {severity : Severity} {given : Entries}
    {defaultSeverity : Value} :
    (withTagSeverity rule severity given).CanBeRead rule.optionKinds defaultSeverity ↔
      given.CanBeRead rule.optionKinds defaultSeverity := by
  by_cases isTodo : rule = .todoComments
  · subst isTodo
    -- The one name that can be new is known, and of a plain option nothing is asked.
    have names : (∀ name ∈ (withTagSeverity .todoComments severity given).keys,
          name ∈ Rule.todoComments.optionKinds.map (·.1)) ↔
        ∀ name ∈ given.keys, name ∈ Rule.todoComments.optionKinds.map (·.1) := by
      refine forall_congr' fun name => ?_
      by_cases isDefault : name = "default_severity"
      · subst isDefault
        exact iff_of_true (fun _ => by decide) fun _ => by decide
      · rw [Entries.mem_keys_iff, lookup_withTagSeverity_of_ne _ _ _ isDefault,
          ← Entries.mem_keys_iff]
    have options : (∀ declared ∈ Rule.todoComments.optionKinds, ∀ found,
          (withTagSeverity .todoComments severity given).lookup declared.1 = some found →
            declared.2.Reads defaultSeverity found) ↔
        ∀ declared ∈ Rule.todoComments.optionKinds, ∀ found,
          given.lookup declared.1 = some found → declared.2.Reads defaultSeverity found := by
      refine forall₂_congr fun declared member => ?_
      by_cases isDefault : declared.1 = "default_severity"
      · rw [text_of_default_severity declared member isDefault]
        exact iff_of_true (fun _ _ => trivial) fun _ _ => trivial
      · rw [lookup_withTagSeverity_of_ne _ _ _ isDefault]
    exact ⟨fun ⟨known, read⟩ => ⟨names.mp known, options.mp read⟩,
      fun ⟨known, read⟩ => ⟨names.mpr known, options.mpr read⟩⟩
  · rw [withTagSeverity_of_ne isTodo]

theorem FieldsKeep.of_withTagSeverity {rule : Rule} {severity : Severity} {given fields : Entries}
    (keep : FieldsKeep rule.optionKinds (withTagSeverity rule severity given) fields) :
    FieldsKeep rule.optionKinds given fields := by
  refine keep.imp fun declared member value keeps => ?_
  rw [lookup_withTagSeverity] at keeps
  split at keeps
  · next both =>
    obtain ⟨rfl, isDefault⟩ := both
    rw [text_of_default_severity declared member isDefault] at keeps ⊢
    cases looked : given.lookup declared.1 with
    | none =>
      rw [looked] at keeps
      refine { typed := fun _ => keeps.typed ?_, plain := nofun }
      rintro _ ⟨⟩
      rfl
    | some found =>
      rw [looked] at keeps
      exact keeps
  · exact keeps

/-! Rules without options, and names of no rule, have no option that could be given. -/

theorem canBeRead_nil_iff {raw : Value} {defaultSeverity : Value} :
    raw.givenOptions.CanBeRead [] defaultSeverity ↔ raw.besideSeverity = [] := by
  have noNames : (∀ name ∈ raw.givenOptions.keys, name ∈ ([] : List String)) ↔
      raw.givenOptions = [] := by
    rw [← List.map_eq_nil_iff, List.eq_nil_iff_forall_not_mem]
    exact forall₂_congr fun _ _ => iff_false_intro List.not_mem_nil
  rw [Entries.CanBeRead.iff_of_plain (List.forall_mem_nil _)]
  refine noNames.trans (Entries.ofList_eq_nil_iff.trans ?_)
  exact List.map_eq_nil_iff

theorem Rule.optionKinds_of_not_takesOptions {rule : Rule} (takesNone : rule.takesOptions = false) :
    rule.optionKinds = [] := by
  cases rule with
  | headingHierarchy | codeBlockLanguage | terminology | bidirectionalRefs | i18nStructure
  | requiredFiles | standardFolderStructure | duplicateContent => rfl
  | _ => cases takesNone

theorem Rule.readOptions_of_not_takesOptions {rule : Rule} (takesNone : rule.takesOptions = false)
    (given : Entries) :
    ∃ options, rule.readOptions given = .ok options ∧ rule.optionEntries? options = none := by
  cases rule with
  | headingHierarchy | codeBlockLanguage | terminology | bidirectionalRefs | i18nStructure
  | requiredFiles | standardFolderStructure | duplicateContent => exact ⟨(), rfl, rfl⟩
  | _ => cases takesNone

namespace RuleSetting

variable {rule : Rule} {raw : Value}

/-- How a rule reads the options of a setting. -/
theorem readsOptions (raw : Value) (severity : Severity) (takes : rule.takesOptions = true) :
    ReadsOptions rule.optionKinds (raw.tagDefault severity)
      (withTagSeverity rule severity raw.givenOptions)
      (fun options => (rule.optionEntries? options).getD [])
      (rule.readOptions (withTagSeverity rule severity raw.givenOptions)) := by
  refine Rule.readsOptions (fun isTodo => ?_) takes
  rw [lookup_withTagSeverity, if_pos ⟨isTodo, rfl⟩]
  rfl

theorem succeeds_readOptions_iff {severity : Severity} :
    (rule.takesOptions = false → raw.besideSeverity = []) ∧
      Succeeds (rule.readOptions (withTagSeverity rule severity raw.givenOptions)) ↔
    raw.givenOptions.CanBeRead rule.optionKinds (raw.tagDefault severity) := by
  cases takes : rule.takesOptions with
  | true =>
    rw [(readsOptions raw severity takes).succeeds_iff, canBeRead_withTagSeverity_iff]
    exact and_iff_right nofun
  | false =>
    obtain ⟨options, read, -⟩ := Rule.readOptions_of_not_takesOptions takes
      (withTagSeverity rule severity raw.givenOptions)
    rw [Rule.optionKinds_of_not_takesOptions takes, canBeRead_nil_iff]
    exact ⟨fun both => both.1 rfl, fun none => ⟨fun _ => none, options, read⟩⟩

theorem taken_iff {severity : Severity} :
    (∃ setting : RuleSetting rule, ofValue rule raw = .ok setting ∧ setting.severity = severity) ↔
      raw.SetsSeverity severity ∧
        raw.givenOptions.CanBeRead rule.optionKinds (raw.tagDefault severity) := by
  rw [← succeeds_readOptions_iff]
  constructor
  · rintro ⟨setting, accepted, rfl⟩
    obtain ⟨sets, noOptions, read⟩ := ofValue_eq_ok_iff.mp accepted
    exact ⟨sets, noOptions, _, read⟩
  · rintro ⟨sets, noOptions, options, read⟩
    exact ⟨⟨severity, options⟩, ofValue_eq_ok_iff.mpr ⟨sets, noOptions, read⟩, rfl⟩

theorem fieldsKeep {setting : RuleSetting rule} {fields : Entries}
    (accepted : ofValue rule raw = .ok setting)
    (given : rule.optionEntries? setting.options = some fields) :
    FieldsKeep rule.optionKinds raw.givenOptions fields := by
  obtain ⟨-, -, read⟩ := ofValue_eq_ok_iff.mp accepted
  cases takes : rule.takesOptions with
  | true =>
    have keep := (readsOptions raw setting.severity takes).keeps _ read
    rw [given] at keep
    exact keep.of_withTagSeverity
  | false =>
    obtain ⟨options, readNone, hasNone⟩ := Rule.readOptions_of_not_takesOptions takes
      (withTagSeverity rule setting.severity raw.givenOptions)
    cases readNone.symm.trans read
    cases hasNone.symm.trans given

end RuleSetting

/-- A setting is taken where it has a severity and options that can be read, of which plain ones
need to be nothing but known. The fields are then the declared ones in order. Those of plain options
hold what was given for them; all of them are of their kind where what was given is. -/
theorem NamedSetting.taken_with_fields_kept (name : String) (raw : Value) :
    (∀ severity, (∃ setting, ofValue name raw = .ok setting ∧ setting.severity = severity) ↔
      raw.SetsSeverity severity ∧
        raw.givenOptions.CanBeRead (optionKinds name) (raw.tagDefault severity)) ∧
    (∀ setting fields, ofValue name raw = .ok setting → setting.optionEntries? = some fields →
      FieldsKeep (optionKinds name) raw.givenOptions fields) ∧
    ∀ fault, ofValue name raw = .error fault →
      fault.isConfigFault = true ∨ fault.IsMissingAttribute ∧ ¬ raw.SettingFits name := by
  refine ⟨fun wanted => ?_, fun setting fields accepted given => ?_,
    failsOnly_namedSetting name raw⟩
  · rw [ofValue, optionKinds]
    cases Rule.ofName? name with
    | some rule => exact exists_bind_ok_iff.trans RuleSetting.taken_iff
    | none =>
      refine exists_bind_ok_iff.trans ?_
      simp only [unknownSetting_eq_ok_iff, severity, exists_eq_right]
      exact and_congr_right fun _ => canBeRead_nil_iff.symm
  · rw [ofValue] at accepted
    rw [optionKinds]
    cases found : Rule.ofName? name with
    | some rule =>
      rw [found] at accepted
      obtain ⟨known, read, ⟨⟩⟩ := exists_of_bind_eq_ok accepted
      exact RuleSetting.fieldsKeep read given
    | none =>
      rw [found] at accepted
      obtain ⟨severity, -, ⟨⟩⟩ := exists_of_bind_eq_ok accepted
      cases given

/-- A text is taken in the place of a list of texts. -/
theorem NamedSetting.text_taken_for_paths :
    (∃ setting, ofValue "brokenLinks" (.table [("excludePaths", .text "docs")]) = .ok setting ∧
      setting.optionEntries? = some [("exclude_paths", .text "docs")]) ∧
    ("exclude_paths", OptionKind.texts) ∈ optionKinds "brokenLinks" ∧
    OptionKind.texts.holds (.text "docs") = false := by
  have isRule : Rule.ofName? "brokenLinks" = some .brokenLinks := Rule.ofName?_name .brokenLinks
  have given : (Value.table [("excludePaths", .text "docs")]).givenOptions =
      [("exclude_paths", .text "docs")] := by
    have name : snakeCase "excludePaths" = "exclude_paths" := by decide +kernel
    exact congrArg (fun name => [(name, Value.text "docs")]) name
  have taken : RuleSetting.ofValue .brokenLinks (.table [("excludePaths", .text "docs")]) =
      .ok ⟨.warn, ({ excludePaths := .text "docs" } : BrokenLinks.Options)⟩ := by
    refine RuleSetting.ofValue_eq_ok_iff.mpr ⟨rfl, fun takesNone => ?_, ?_⟩
    · cases takesNone
    · rw [given]
      rfl
  rw [ofValue, optionKinds, isRule]
  dsimp only
  rw [taken]
  exact ⟨⟨_, rfl, rfl⟩, by decide, rfl⟩

end DocAudit
