import DocAudit.Proofs.Config.OptionNames
import DocAudit.Proofs.Config.TakenSettings

/-!
Which of the options that a setting gives are kept. Keys are converted before anyone looks at them,
so two keys may write one option. The last of them is read; what stands under the others is lost.
-/

namespace DocAudit

/-! ## Keys of a setting -/

theorem forall_optionKinds {Holds : String × OptionKind → Prop}
    (each : ∀ rule : Rule, ∀ declared ∈ rule.optionKinds, Holds declared) (name : String) :
    ∀ declared ∈ optionKinds name, Holds declared := by
  rw [optionKinds]
  cases Rule.ofName? name with
  | none => exact List.forall_mem_nil Holds
  | some rule => exact each rule

theorem Rule.ascii_optionKinds (rule : Rule) :
    ∀ declared ∈ rule.optionKinds, ∀ c ∈ declared.1.toList, c.toNat < 128 := by
  have each : ∀ declared ∈ rule.optionKinds,
      declared.1.toList.all (fun c => c.toNat < 128) = true := by
    cases rule <;> decide
  simpa only [List.all_eq_true, decide_eq_true_eq] using each

theorem Rule.optionKinds_ne_severity (rule : Rule) :
    ∀ declared ∈ rule.optionKinds, declared.1 ≠ "severity" := by
  cases rule <;> decide

theorem keys_converted (entries : Entries) :
    Entries.keys (entries.map fun (key, value) => (snakeCase key, value)) =
      entries.keys.map snakeCase := by
  rw [Entries.keys, Entries.keys, List.map_map, List.map_map]
  rfl

namespace Value

variable {before after entries : Entries} {key : String}

theorem snakeCase_mem_givenOptions (member : key ∈ entries.keys) (notSeverity : key ≠ "severity") :
    snakeCase key ∈ (table entries).givenOptions.keys := by
  rw [givenOptions, snakeEntries, Entries.mem_keys_ofList_iff, keys_converted]
  exact List.mem_map_of_mem (Entries.mem_keys_erase_iff.mpr ⟨member, notSeverity⟩)

theorem givenOptions_append (notSeverity : key ≠ "severity") (value : Value) :
    (table (before ++ (key, value) :: after)).givenOptions =
      .ofList ((before.erase "severity").map (fun (key, value) => (snakeCase key, value)) ++
        (snakeCase key, value) ::
          (after.erase "severity").map fun (key, value) => (snakeCase key, value)) := by
  have kept : Entries.erase ((key, value) :: after) "severity" =
      (key, value) :: after.erase "severity" :=
    List.filter_cons_of_pos (by simpa using notSeverity)
  rw [givenOptions, besideSeverity, Entries.erase_append, kept, snakeEntries, List.map_append,
    List.map_cons]

theorem lookup_givenOptions_of_last (before : Entries) (notSeverity : key ≠ "severity")
    (last : snakeCase key ∉ after.keys.map snakeCase) (value : Value) :
    (table (before ++ (key, value) :: after)).givenOptions.lookup (snakeCase key) = some value := by
  rw [givenOptions_append notSeverity]
  refine Entries.lookup_ofList_of_last (fun member => last ?_) value
  rw [keys_converted] at member
  obtain ⟨other, among, same⟩ := List.mem_map.mp member
  exact List.mem_map.mpr ⟨other, (Entries.mem_keys_erase_iff.mp among).1, same⟩

theorem lookup_givenOptions_of_later (notSeverity : snakeCase key ≠ "severity")
    (later : snakeCase key ∈ after.keys.map snakeCase) (value : Value) (name : String) :
    (table (before ++ (key, value) :: after)).givenOptions.lookup name =
      (table (before ++ after)).givenOptions.lookup name := by
  have severityKept : snakeCase "severity" = "severity" := by decide +kernel
  have keyNotSeverity : key ≠ "severity" := fun same => notSeverity (same ▸ severityKept)
  obtain ⟨other, among, same⟩ := List.mem_map.mp later
  have otherNotSeverity : other ≠ "severity" := by
    rintro rfl
    exact notSeverity (same ▸ severityKept)
  rw [givenOptions_append keyNotSeverity, Entries.lookup_ofList_of_later, givenOptions,
    besideSeverity, Entries.erase_append, snakeEntries, List.map_append]
  · rw [keys_converted, ← same]
    exact List.mem_map_of_mem (Entries.mem_keys_erase_iff.mpr ⟨among, otherNotSeverity⟩)

theorem SetsSeverity.without {severity : Severity} {value : Value} (notSeverity : key ≠ "severity")
    (sets : (table (before ++ (key, value) :: after)).SetsSeverity severity) :
    (table (before ++ after)).SetsSeverity severity := by
  rw [SetsSeverity, Entries.lookup_append_cons_of_ne (Ne.symm notSeverity)] at sets
  exact sets

end Value

/-! ## Settings that are taken -/

namespace NamedSetting

variable {name : String} {raw : Value} {setting : NamedSetting}

theorem exists_rule_of_taken (taken : ofValue name raw = .ok setting)
    (given : raw.besideSeverity ≠ []) :
    ∃ rule known, Rule.ofName? name = some rule ∧ rule.takesOptions = true ∧
      RuleSetting.ofValue rule raw = .ok known ∧ setting = .known rule known := by
  rw [ofValue] at taken
  cases found : Rule.ofName? name with
  | some rule =>
    rw [found] at taken
    obtain ⟨known, read, ⟨⟩⟩ := exists_of_bind_eq_ok taken
    obtain ⟨-, noOptions, -⟩ := RuleSetting.ofValue_eq_ok_iff.mp read
    have takes : rule.takesOptions = true := by
      by_contra takesNone
      exact given (noOptions (Bool.eq_false_iff.mpr takesNone))
    exact ⟨rule, known, rfl, takes, read, rfl⟩
  | none =>
    rw [found] at taken
    obtain ⟨severity, read, -⟩ := exists_of_bind_eq_ok taken
    exact absurd (unknownSetting_eq_ok_iff.mp read).2 given

theorem taken_of_readOptions {rule : Rule} {known : RuleSetting rule}
    (found : Rule.ofName? name = some rule) (takes : rule.takesOptions = true)
    (sets : raw.SetsSeverity known.severity)
    (read : rule.readOptions (withTagSeverity rule known.severity raw.givenOptions) =
      .ok known.options) :
    ofValue name raw = .ok (.known rule known) := by
  have accepted : RuleSetting.ofValue rule raw = .ok known := by
    refine RuleSetting.ofValue_eq_ok_iff.mpr ⟨sets, fun takesNone => ?_, read⟩
    rw [takes] at takesNone
    cases takesNone
  rw [ofValue, found]
  exact congrArg (· >>= fun known => .ok (NamedSetting.known rule known)) accepted

theorem canBeRead_of_taken (taken : ofValue name raw = .ok setting) :
    raw.givenOptions.CanBeRead (optionKinds name) (raw.tagDefault setting.severity) := by
  rw [ofValue] at taken
  rw [optionKinds]
  cases found : Rule.ofName? name with
  | some rule =>
    rw [found] at taken
    obtain ⟨known, read, ⟨⟩⟩ := exists_of_bind_eq_ok taken
    exact (RuleSetting.taken_iff.mp ⟨known, read, rfl⟩).2
  | none =>
    rw [found] at taken
    obtain ⟨severity, read, ⟨⟩⟩ := exists_of_bind_eq_ok taken
    exact canBeRead_nil_iff.mpr (unknownSetting_eq_ok_iff.mp read).2

/-- A value that the field of the option under its key has been read from. -/
def Holds (setting : NamedSetting) (name : String) (raw : Value) (key : String) (value : Value) :
    Prop :=
  ∃ kind fields field, (snakeCase key, kind) ∈ optionKinds name ∧
    setting.optionEntries? = some fields ∧ fields.lookup (snakeCase key) = some field ∧
    kind.Stores (raw.tagDefault setting.severity) value field

/-- What becomes of the entries of a setting that is taken. -/
structure IsTakenFrom (name : String) (entries : Entries) (setting : NamedSetting) : Prop where
  /-- Every key but that of the severity is converted to the name of an option. -/
  declared : ∀ key ∈ entries.keys, key ≠ "severity" →
    snakeCase key ∈ (optionKinds name).map (·.1)
  /-- Keys are converted alike where they are spellings of one option. -/
  clash : ∀ key ∈ entries.keys, ∀ other ∈ entries.keys, snakeCase key = snakeCase other ↔
    key = other ∨ ∃ declared ∈ optionKinds name, Spells key declared.1 ∧ Spells other declared.1
  /-- A value is held where no later key is converted alike. -/
  kept : ∀ (before : Entries) (key : String) (value : Value) (after : Entries),
    entries = before ++ (key, value) :: after → key ≠ "severity" →
    snakeCase key ∉ after.keys.map snakeCase → setting.Holds name (.table entries) key value
  /-- Else it is lost: the setting is the same without it. -/
  lost : ∀ (before : Entries) (key : String) (value : Value) (after : Entries),
    entries = before ++ (key, value) :: after → key ≠ "severity" →
    snakeCase key ∈ after.keys.map snakeCase →
    ofValue name (.table (before ++ after)) = .ok setting
  /-- So nothing is lost where all keys are told apart. -/
  apart : entries.keys.Nodup → Set.InjOn snakeCase {key | key ∈ entries.keys} →
    ∀ entry ∈ entries, entry.1 ≠ "severity" →
      setting.Holds name (.table entries) entry.1 entry.2

section

variable {entries before after : Entries} {key : String} {value : Value}

theorem isDeclared_of_taken (taken : ofValue name (.table entries) = .ok setting)
    (member : key ∈ entries.keys) (notSeverity : key ≠ "severity") :
    ∃ declared ∈ optionKinds name, declared.1 = snakeCase key :=
  List.mem_map.mp ((canBeRead_of_taken taken).known _
    (Value.snakeCase_mem_givenOptions member notSeverity))

theorem spell_alike_of_taken (taken : ofValue name (.table entries) = .ok setting)
    (member : key ∈ entries.keys) (notSeverity : key ≠ "severity") {other : String}
    (alike : snakeCase key = snakeCase other) :
    ∃ declared ∈ optionKinds name, Spells key declared.1 ∧ Spells other declared.1 := by
  obtain ⟨declared, isDeclared, same⟩ := isDeclared_of_taken taken member notSeverity
  have ascii := forall_optionKinds Rule.ascii_optionKinds name declared isDeclared
  exact ⟨declared, isDeclared, (snakeCase_eq_iff ascii).mp same.symm,
    (snakeCase_eq_iff ascii).mp (alike.symm.trans same.symm)⟩

theorem converted_alike_iff (taken : ofValue name (.table entries) = .ok setting)
    {other : String} (member : key ∈ entries.keys) (otherMember : other ∈ entries.keys) :
    snakeCase key = snakeCase other ↔ key = other ∨
      ∃ declared ∈ optionKinds name, Spells key declared.1 ∧ Spells other declared.1 := by
  constructor
  · intro alike
    -- Only the key of the severity may be converted to what is no option.
    by_cases keySevere : key = "severity"
    · by_cases otherSevere : other = "severity"
      · exact .inl (keySevere.trans otherSevere.symm)
      · obtain ⟨declared, isDeclared, otherSpells, keySpells⟩ :=
          spell_alike_of_taken taken otherMember otherSevere alike.symm
        exact .inr ⟨declared, isDeclared, keySpells, otherSpells⟩
    · exact .inr (spell_alike_of_taken taken member keySevere alike)
  · rintro (rfl | ⟨declared, isDeclared, keySpells, otherSpells⟩)
    · rfl
    · have ascii := forall_optionKinds Rule.ascii_optionKinds name declared isDeclared
      rw [(snakeCase_eq_iff ascii).mpr keySpells, (snakeCase_eq_iff ascii).mpr otherSpells]

theorem mem_keys_append_cons (before after : Entries) :
    key ∈ Entries.keys (before ++ (key, value) :: after) :=
  List.mem_map_of_mem (List.mem_append_right before List.mem_cons_self)

theorem besideSeverity_ne_nil (notSeverity : key ≠ "severity") :
    (Value.table (before ++ (key, value) :: after)).besideSeverity ≠ [] := by
  have member : (key, value) ∈ before ++ (key, value) :: after :=
    List.mem_append_right before List.mem_cons_self
  exact List.ne_nil_of_mem (List.mem_filter.mpr ⟨member, by simpa using notSeverity⟩)

theorem holds_of_last
    (taken : ofValue name (.table (before ++ (key, value) :: after)) = .ok setting)
    (notSeverity : key ≠ "severity") (last : snakeCase key ∉ after.keys.map snakeCase) :
    setting.Holds name (.table (before ++ (key, value) :: after)) key value := by
  obtain ⟨rule, known, found, takes, read, rfl⟩ :=
    exists_rule_of_taken taken (besideSeverity_ne_nil notSeverity)
  obtain ⟨⟨_, kind⟩, isDeclared, rfl⟩ :=
    isDeclared_of_taken taken (mem_keys_append_cons before after) notSeverity
  have isOfRule := isDeclared
  rw [optionKinds, found] at isOfRule
  obtain ⟨-, -, readOptions⟩ := RuleSetting.ofValue_eq_ok_iff.mp read
  have looked := Value.lookup_givenOptions_of_last before notSeverity last value
  have given : (withTagSeverity rule known.severity
      (Value.table (before ++ (key, value) :: after)).givenOptions).lookup (snakeCase key) =
        some value := by
    rw [lookup_withTagSeverity, looked]
    split <;> rfl
  obtain ⟨field, stored, stores⟩ := Rule.exists_stored (fun isTodo => by
    rw [lookup_withTagSeverity, if_pos ⟨isTodo, rfl⟩, Option.getD_some]) takes readOptions
      isOfRule given
  cases shown : rule.optionEntries? known.options with
  | none =>
    rw [shown] at stored
    cases stored
  | some fields =>
    rw [shown] at stored
    exact ⟨kind, fields, field, isDeclared, shown, stored, stores⟩

theorem taken_of_lost
    (taken : ofValue name (.table (before ++ (key, value) :: after)) = .ok setting)
    (notSeverity : key ≠ "severity") (later : snakeCase key ∈ after.keys.map snakeCase) :
    ofValue name (.table (before ++ after)) = .ok setting := by
  obtain ⟨rule, known, found, takes, read, rfl⟩ :=
    exists_rule_of_taken taken (besideSeverity_ne_nil notSeverity)
  obtain ⟨declared, isDeclared, same⟩ :=
    isDeclared_of_taken taken (mem_keys_append_cons before after) notSeverity
  have convertedNotSeverity : snakeCase key ≠ "severity" :=
    same ▸ forall_optionKinds Rule.optionKinds_ne_severity name declared isDeclared
  obtain ⟨sets, -, readOptions⟩ := RuleSetting.ofValue_eq_ok_iff.mp read
  have sameOptions (other : String) :
      (withTagSeverity rule known.severity (Value.table (before ++ after)).givenOptions).lookup
          other =
        (withTagSeverity rule known.severity
          (Value.table (before ++ (key, value) :: after)).givenOptions).lookup other := by
    rw [lookup_withTagSeverity, lookup_withTagSeverity,
      Value.lookup_givenOptions_of_later convertedNotSeverity later value]
  exact taken_of_readOptions found takes (sets.without notSeverity)
    (Rule.readOptions_of_lookup sameOptions readOptions)

theorem holds_of_injOn (taken : ofValue name (.table entries) = .ok setting)
    (distinct : entries.keys.Nodup)
    (injective : Set.InjOn snakeCase {key | key ∈ entries.keys}) {entry : String × Value}
    (member : entry ∈ entries) (notSeverity : entry.1 ≠ "severity") :
    setting.Holds name (.table entries) entry.1 entry.2 := by
  obtain ⟨before, after, rfl⟩ := List.append_of_mem member
  refine holds_of_last taken notSeverity fun later => ?_
  obtain ⟨other, among, alike⟩ := List.mem_map.mp later
  have inAll : other ∈ Entries.keys (before ++ entry :: after) := by
    rw [Entries.keys, List.map_append]
    exact List.mem_append_right _ (List.mem_cons_of_mem _ among)
  have same : other = entry.1 := injective inAll (mem_keys_append_cons before after) alike
  rw [Entries.keys, List.map_append, List.map_cons] at distinct
  exact (List.nodup_cons.mp (List.nodup_append.mp distinct).2.1).1 (same ▸ among)

end

/-- Humps can be undone, so that keys as the format has them never go to one name. Other keys that a
setting may hold can: every spelling of an option is taken, and the last one counts. -/
theorem options_go_by_last_spelling (name : String) (entries : Entries) :
    (Set.InjOn snakeCase {key | IsHumped key} ∧
      ∀ key, IsHumped key → snakeCase (snakeCase key) = snakeCase key ∧
        ∀ c ∈ (snakeCase key).toList, c.toNat < 128 ∧ c.isUpper = false) ∧
    ∀ setting, ofValue name (.table entries) = .ok setting →
      IsTakenFrom name entries setting := by
  refine ⟨⟨injOn_snakeCase, fun key humped => ?_⟩, fun setting taken => ?_⟩
  · exact ⟨snakeCase_snakeCase humped.ascii, isLowerCase_snakeCase humped.ascii⟩
  · constructor
    case declared =>
      intro key member notSeverity
      exact List.mem_map.mpr (isDeclared_of_taken taken member notSeverity)
    case clash =>
      intro key member other otherMember
      exact converted_alike_iff taken member otherMember
    case kept =>
      rintro before key value after rfl notSeverity last
      exact holds_of_last taken notSeverity last
    case lost =>
      rintro before key value after rfl notSeverity later
      exact taken_of_lost taken notSeverity later
    case apart =>
      intro distinct injective entry member notSeverity
      exact holds_of_injOn taken distinct injective member notSeverity

theorem options_go_by_last_spelling_with_kelvin :
    let after : Entries :=
      [("severity", .text "error"), ("strictPaths", .list [.text "docs"]),
        ("chec\u212ASequence", .bool false)]
    let entries : Entries := ("checkSequence", .bool true) :: after
    let setting : NamedSetting := .known .folderNumbering
      ⟨.error, ({ strictPaths := .tuple [.text "docs"], checkSequence := .bool false } :
        FolderNumbering.Options)⟩
    ofValue "folderNumbering" (.table entries) = .ok setting ∧ IsHumped "checkSequence" ∧
      snakeCase (snakeCase "checkSequence") = snakeCase "checkSequence" ∧
      (∃ declared ∈ optionKinds "folderNumbering",
        Spells "checkSequence" declared.1 ∧ Spells "chec\u212ASequence" declared.1) ∧
      ofValue "folderNumbering" (.table after) = .ok setting ∧
      setting.Holds "folderNumbering" (.table entries) "chec\u212ASequence" (.bool false) := by
  intro after entries setting
  have check : snakeCase "checkSequence" = "check_sequence" := by decide +kernel
  have kelvinCheck : snakeCase "chec\u212ASequence" = "check_sequence" := by decide +kernel
  have strict : snakeCase "strictPaths" = "strict_paths" := by decide +kernel
  have gives : (Value.table entries).givenOptions =
      [("check_sequence", .bool false), ("strict_paths", .list [.text "docs"])] := by
    change Entries.ofList [(snakeCase "checkSequence", .bool true),
      (snakeCase "strictPaths", .list [.text "docs"]),
      (snakeCase "chec\u212ASequence", .bool false)] = _
    rw [check, strict, kelvinCheck]
    rfl
  have taken : ofValue "folderNumbering" (.table entries) = .ok setting := by
    refine taken_of_readOptions (Rule.ofName?_name .folderNumbering) rfl rfl ?_
    rw [gives]
    rfl
  have humped : IsHumped "checkSequence" := by decide
  obtain ⟨⟨-, telling⟩, takenFrom⟩ := options_go_by_last_spelling "folderNumbering" entries
  have isTaken := takenFrom setting taken
  have alike := check.trans kelvinCheck.symm
  have spelled := (isTaken.clash "checkSequence" (by decide) "chec\u212ASequence" (by decide)).mp
    alike
  have later : snakeCase "checkSequence" ∈ after.keys.map snakeCase := by
    rw [alike]
    exact List.mem_map_of_mem (by decide)
  have lost := isTaken.lost [] "checkSequence" (.bool true) after rfl (by decide) later
  have kept := isTaken.kept (entries.take 3) "chec\u212ASequence" (.bool false) [] rfl (by decide)
    List.not_mem_nil
  exact ⟨taken, humped, (telling _ humped).1, spelled.resolve_left (by decide), lost, kept⟩

/-- Paths that are given are lost where the option is given once more, with an underscore. -/
theorem given_paths_are_lost :
    let entries : Entries :=
      [("excludePaths", .list [.text "a"]), ("exclude_paths", .list [.text "b"])]
    (∃ setting, ofValue "brokenLinks" (.table entries) = .ok setting ∧
      setting.optionEntries? = some [("exclude_paths", .tuple [.text "b"])]) ∧
    ¬ Set.InjOn snakeCase {key | key ∈ entries.keys} := by
  intro entries
  have humped : snakeCase "excludePaths" = "exclude_paths" := by decide +kernel
  have plain : snakeCase "exclude_paths" = "exclude_paths" := by decide +kernel
  have gives : (Value.table entries).givenOptions = [("exclude_paths", .list [.text "b"])] := by
    change Entries.ofList [(snakeCase "excludePaths", .list [.text "a"]),
      (snakeCase "exclude_paths", .list [.text "b"])] = _
    rw [humped, plain]
    rfl
  have taken : ofValue "brokenLinks" (.table entries) =
      .ok (.known .brokenLinks ⟨.warn, ({ excludePaths := .tuple [.text "b"] } :
        BrokenLinks.Options)⟩) := by
    refine taken_of_readOptions (Rule.ofName?_name .brokenLinks) rfl rfl ?_
    rw [gives]
    rfl
  refine ⟨⟨_, taken, rfl⟩, fun injective => ?_⟩
  have given : "excludePaths" ∈ entries.keys := by decide
  have givenAgain : "exclude_paths" ∈ entries.keys := by decide
  exact absurd (injective given givenAgain (humped.trans plain.symm)) (by decide)

end NamedSetting

end DocAudit
