import DocAudit.Proofs.Config.Keys
import DocAudit.Proofs.Config.RulesInTurn
import Mathlib

/-!
A configuration as the standard one with single entries replaced. Every key is read by itself, and
so is every rule. What is read under one of them is the same whatever stands under the others.
-/

namespace DocAudit

namespace Config

/-! ## Keys alone -/

/-- What each key asks of the value that is given under it. -/
def demands (environment : Environment) : List (String × (Option Value → Prop)) :=
  [("include", fun given => Succeeds (textsGiven "include" Discovery.defaultIncluded given)),
    ("exclude", fun given => Succeeds (textsGiven "exclude" Discovery.defaultExcluded given)),
    ("requiredFiles", fun given => Succeeds (textsGiven "requiredFiles" [] given)),
    ("rules", fun given => Succeeds ((standard environment).readRules (given.getD .null))),
    ("terminology", fun given => Succeeds (termsGiven given)),
    ("i18n", fun given => Succeeds (readOptionalLanguages given))]

theorem demands_of_none (environment : Environment) :
    ∀ demand ∈ demands environment, demand.2 none := by
  simp only [demands, List.forall_mem_cons]
  exact ⟨⟨_, rfl⟩, ⟨_, rfl⟩, ⟨_, rfl⟩, ⟨_, rfl⟩, ⟨_, rfl⟩, ⟨_, rfl⟩, nofun⟩

theorem succeeds_iff {environment : Environment} {entries : Entries} :
    Succeeds (ofEntries environment entries) ↔
      ∀ demand ∈ demands environment, demand.2 (entries.lookup demand.1) := by
  simp only [demands, List.forall_mem_cons]
  constructor
  · rintro ⟨config, read⟩
    have reads := ofEntries_eq_ok_iff.mp read
    exact ⟨⟨_, reads.included⟩, ⟨_, reads.excluded⟩, ⟨_, reads.requiredFiles⟩,
      reads.rules.imp fun _ => And.left, ⟨_, reads.terms⟩, ⟨_, reads.languages⟩, nofun⟩
  · rintro ⟨⟨included, readIncluded⟩, ⟨excluded, readExcluded⟩, ⟨required, readRequired⟩,
      ⟨rules, readRules⟩, ⟨terms, readTerms⟩, ⟨languages, readLanguages⟩, -⟩
    exact ⟨assemble environment (entries.lookup ·) included excluded required rules terms languages,
      ofEntries_eq_ok_iff.mpr ⟨rfl, readIncluded, readExcluded, readRequired,
        ⟨rules, readRules, rfl, rfl⟩, readTerms, readLanguages⟩⟩

theorem succeeds_iff_alone {environment : Environment} {entries : Entries}
    (distinct : entries.keys.Nodup) :
    Succeeds (ofEntries environment entries) ↔
      ∀ entry ∈ entries, Succeeds (ofEntries environment [entry]) := by
  simp only [succeeds_iff]
  calc (∀ demand ∈ demands environment, demand.2 (entries.lookup demand.1))
    _ ↔ ∀ demand ∈ demands environment, ∀ entry ∈ entries,
          demand.2 (List.lookup demand.1 [entry]) :=
      forall₂_congr fun demand member =>
        Entries.holds_lookup_iff (demands_of_none environment demand member) distinct demand.1
    _ ↔ ∀ entry ∈ entries, ∀ demand ∈ demands environment,
          demand.2 (List.lookup demand.1 [entry]) :=
      ⟨fun each entry entryMember demand member => each demand member entry entryMember,
        fun each demand member entry entryMember => each entry entryMember demand member⟩

theorem readRules_table (config : Config) (rules : Entries) :
    config.readRules (.table rules) = rules.foldlM readRule config := by
  rw [readRules.eq_def]
  cases rules <;> rfl

theorem succeeds_rules_iff {environment : Environment} {rules : Entries} :
    Succeeds (ofEntries environment [("rules", .table rules)]) ↔
      ∀ rule ∈ rules, Succeeds (NamedSetting.ofValue rule.1 rule.2) := by
  rw [← Succeeds.foldlM_iff succeeds_readRule_iff (standard environment), ← readRules_table,
    succeeds_iff]
  simp only [demands, List.forall_mem_cons]
  refine ⟨fun ⟨_, _, _, rules, _⟩ => rules, fun rules => ?_⟩
  exact ⟨⟨_, rfl⟩, ⟨_, rfl⟩, ⟨_, rfl⟩, rules, ⟨_, rfl⟩, ⟨_, rfl⟩, nofun⟩

end Config

/-! ## Parts of a configuration -/

namespace Entries

/-- The rules that a configuration gives settings for. -/
def givenRules (entries : Entries) : Entries :=
  match entries.lookup "rules" with
  | some (.table rules) => rules
  | _ => []

/-- A configuration with one of the keys alone, or one of the rules. -/
inductive Restriction (entries : Entries) : Entries → Prop
  | key {entry : String × Value} (given : entry ∈ entries)
      (single : ∀ rules, entry ≠ ("rules", .table rules)) : Restriction entries [entry]
  | rule {rule : String × Value} (given : rule ∈ entries.givenRules) :
    Restriction entries [("rules", .table [rule])]

theorem givenRules_of_lookup {entries rules : Entries}
    (found : entries.lookup "rules" = some (.table rules)) : entries.givenRules = rules := by
  rw [givenRules, found]

theorem lookup_of_mem_givenRules {entries : Entries} {rule : String × Value}
    (member : rule ∈ entries.givenRules) :
    entries.lookup "rules" = some (.table entries.givenRules) := by
  rw [givenRules] at member ⊢
  split at member
  · next found => rw [found]
  · cases member

end Entries

namespace Config

variable {environment : Environment} {entries : Entries} {config : Config}

theorem succeeds_iff_restrictions (distinct : entries.keys.Nodup) :
    Succeeds (ofEntries environment entries) ↔
      ∀ part, entries.Restriction part → Succeeds (ofEntries environment part) := by
  rw [succeeds_iff_alone distinct]
  constructor
  · intro each part restriction
    cases restriction with
    | key given single => exact each _ given
    | rule given =>
      have rules := mem_of_lookup (Entries.lookup_of_mem_givenRules given)
      have succeeds := succeeds_rules_iff.mp (each _ rules)
      exact succeeds_rules_iff.mpr fun other member =>
        succeeds other (List.mem_singleton.mp member ▸ given)
  · intro parts entry member
    by_cases table : ∃ rules, entry = ("rules", .table rules)
    · obtain ⟨rules, rfl⟩ := table
      have given := Entries.givenRules_of_lookup ((lookup_iff_mem distinct).mpr member)
      refine succeeds_rules_iff.mpr fun rule ruleMember => ?_
      have alone := parts _ (.rule (given ▸ ruleMember))
      exact succeeds_rules_iff.mp alone rule (List.mem_singleton_self rule)
    · exact parts _ (.key member fun rules same => table ⟨rules, same⟩)

theorem named_congr {other : Config} (settings : config.settings = other.settings)
    (others : config.others = other.others) (name : String) :
    config.named name = other.named name := by
  rw [named, named, settings, others]

/-- Whatever stands for the rules, it is read as the rules that are given. -/
theorem foldlM_givenRules {read : Config}
    (accepted : config.readRules ((entries.lookup "rules").getD .null) = .ok read) :
    entries.givenRules.foldlM readRule config = .ok read := by
  rw [Entries.givenRules]
  cases found : entries.lookup "rules" with
  | none =>
    rw [found] at accepted
    exact accepted
  | some value =>
    rw [found, Option.getD_some] at accepted
    cases value with
    | table rules =>
      rw [readRules_table] at accepted
      exact accepted
    | _ =>
      -- What is no table gives no rules, if it is accepted at all.
      rw [readRules.eq_def] at accepted
      split at accepted
      · exact accepted
      · cases accepted

theorem named_of_ofEntries (distinct : entries.givenRules.keys.Nodup)
    (read : ofEntries environment entries = .ok config) (name : String) :
    (∀ value, entries.givenRules.lookup name = some value →
      NamedSetting.ofValue name value = .ok (config.named name)) ∧
    (entries.givenRules.lookup name = none →
      config.named name = (standard environment).named name) := by
  obtain ⟨rules, accepted, settings, others⟩ := (ofEntries_eq_ok_iff.mp read).rules
  rw [named_congr settings others]
  exact named_of_foldlM distinct (foldlM_givenRules accepted) name

/-- What stands under a key that is not known plays no part. -/
theorem ofEntries_congr {others : Entries}
    (same : ∀ key ∈ knownKeys, others.lookup key = entries.lookup key) :
    ofEntries environment others = ofEntries environment entries := by
  simp only [knownKeys, List.forall_mem_cons] at same
  obtain ⟨docsDir, included, excluded, rules, terms, required, languages, -⟩ := same
  simp only [ofEntries_eq, assemble, docsDir, included, excluded, rules, terms, required, languages]

/-- The same configurations, except that names of no rule may come in another order. -/
structure SameUpToOrder (config other : Config) : Prop where
  named : ∀ name, config.named name = other.named name
  others : config.others.Perm other.others
  rest : { config with others := other.others } = other

/-- A field that one key alone decides on. -/
structure FieldOf {Content : Type} (environment : Environment) (entries : Entries) (key : String)
    (field : Config → Content) : Prop where
  own : ∀ others config other, ofEntries environment entries = .ok config →
    ofEntries environment others = .ok other → others.lookup key = entries.lookup key →
      field other = field config
  absent : ∀ config, ofEntries environment entries = .ok config → entries.lookup key = none →
    field config = field (standard environment)

theorem FieldOf.of_reads {Content : Type} {key : String} {field : Config → Content}
    {read : Option Value → Except Fault Content}
    (reads : ∀ entries config, ofEntries environment entries = .ok config →
      read (entries.lookup key) = .ok (field config))
    (absent : read none = .ok (field (standard environment))) :
    FieldOf environment entries key field where
  own others config other readConfig readOther same := by
    have given := reads entries config readConfig
    rw [← same, reads others other readOther] at given
    exact Except.ok.inj given
  absent config readConfig missing := by
    have given := reads entries config readConfig
    rw [missing, absent] at given
    exact (Except.ok.inj given).symm

theorem exists_reordered {rules : Entries} (distinct : entries.givenRules.keys.Nodup)
    (same : entries.givenRules.Perm rules) (read : ofEntries environment entries = .ok config) :
    ∃ other, ofEntries environment (entries.insert "rules" (.table rules)) = .ok other ∧
      config.SameUpToOrder other := by
  have reads := ofEntries_eq_ok_iff.mp read
  obtain ⟨final, accepted, settings, others⟩ := reads.rules
  obtain ⟨reordered, readReordered, sameNamed, perm⟩ :=
    foldlM_readRule_of_perm distinct same (foldlM_givenRules accepted)
  have kept {key : String} (different : key ≠ "rules") :
      (entries.insert "rules" (.table rules)).lookup key = entries.lookup key :=
    entries.lookup_insert_of_ne _ different
  have replaced :
      (entries.insert "rules" (.table rules)).lookup "rules" = some (.table rules) := by
    rw [Entries.lookup_insert, if_pos rfl]
  have sameSettings := settings.trans (settings_eq_of_named sameNamed)
  refine ⟨{ config with others := reordered.others }, ofEntries_eq_ok_iff.mpr ?_, fun name => ?_,
    ?_, rfl⟩
  · constructor
    case docsDir => rw [kept (by decide)]; exact reads.docsDir
    case included => rw [kept (by decide)]; exact reads.included
    case excluded => rw [kept (by decide)]; exact reads.excluded
    case requiredFiles => rw [kept (by decide)]; exact reads.requiredFiles
    case rules =>
      rw [replaced, Option.getD_some, readRules_table]
      exact ⟨reordered, readReordered, sameSettings, rfl⟩
    case terms => rw [kept (by decide)]; exact reads.terms
    case languages => rw [kept (by decide)]; exact reads.languages
  · rw [named_congr settings others, sameNamed]
    refine Eq.symm (named_congr ?_ ?_ name)
    · exact sameSettings
    · rfl
  · rw [others]
    exact perm

/-- Every rule is set as the word of its severity alone sets it. -/
theorem named_standard (environment : Environment) (rule : Rule) :
    NamedSetting.ofValue rule.name (.text rule.standardSeverity.word) =
      .ok ((standard environment).named rule.name) := by
  have word : RuleSetting.ofValue rule (.text rule.standardSeverity.word) =
      .ok (standardSetting rule) := by
    cases rule <;> rfl
  rw [NamedSetting.ofValue, Rule.ofName?_name, named_of_known (Rule.ofName?_name rule)]
  simp only [word]
  rfl

/-! ## The whole -/

/-- All that a configuration replaces in the standard one, entry by entry. -/
structure OverridesStandard (environment : Environment) (entries : Entries) : Prop where
  standardSettings : ∀ rule : Rule,
    NamedSetting.ofValue rule.name (.text rule.standardSeverity.word) =
      .ok ((standard environment).named rule.name)
  succeeds : Succeeds (ofEntries environment entries) ↔
    ∀ part, entries.Restriction part → Succeeds (ofEntries environment part)
  given : ∀ config name value, ofEntries environment entries = .ok config →
    entries.givenRules.lookup name = some value →
      NamedSetting.ofValue name value = .ok (config.named name)
  notGiven : ∀ config name, ofEntries environment entries = .ok config →
    entries.givenRules.lookup name = none →
      config.named name = (standard environment).named name
  unknownName : ∀ config name, ofEntries environment entries = .ok config →
    entries.givenRules.lookup name = none → Rule.ofName? name = none →
      config.named name = .unknown name .warn
  docsDir : FieldOf environment entries "docsDir" Config.docsDir
  included : FieldOf environment entries "include" Config.included
  excluded : FieldOf environment entries "exclude" Config.excluded
  requiredFiles : FieldOf environment entries "requiredFiles" Config.requiredFiles
  terms : FieldOf environment entries "terminology" Config.terms
  languages : FieldOf environment entries "i18n" Config.languages
  noLanguages : ∀ config, ofEntries environment entries = .ok config →
    entries.lookup "i18n" = some .null → config.languages = (standard environment).languages
  unknownKeys : ∀ others, (∀ key ∈ knownKeys, others.lookup key = entries.lookup key) →
    ofEntries environment others = ofEntries environment entries
  keyOrder : ∀ others, entries.Perm others →
    ofEntries environment others = ofEntries environment entries
  ruleOrder : ∀ rules config, entries.givenRules.Perm rules →
    ofEntries environment entries = .ok config →
      ∃ other, ofEntries environment (entries.insert "rules" (.table rules)) = .ok other ∧
        config.SameUpToOrder other

end Config

end DocAudit
