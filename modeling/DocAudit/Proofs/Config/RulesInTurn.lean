import DocAudit.Config.Basic
import DocAudit.Proofs.Faults
import DocAudit.Proofs.Pairs
import DocAudit.Proofs.Value.Entries
import Mathlib

/-!
Rules read in turn. Each one sets what stands under its name and leaves the rest, so it does not
matter which comes first as long as their names are distinct.
-/

namespace DocAudit

namespace Config

variable {config final : Config} {setting : NamedSetting} {name : String} {value : Value}

/-! ## Settings by name -/

theorem named_of_known {rule : Rule} (known : Rule.ofName? name = some rule) :
    config.named name = .known rule (config.settings rule) := by
  rw [named, known]

theorem named_of_unknown (unknown : Rule.ofName? name = none) :
    config.named name = .unknown name ((config.others.lookup name).getD impliedSeverity) := by
  rw [named, unknown]

theorem named_set (config : Config) (rule : Rule) (setting : RuleSetting rule) (other : String) :
    (config.set rule setting).named other =
      if other = rule.name then .known rule setting else config.named other := by
  cases found : Rule.ofName? other with
  | some rule' =>
    rw [named_of_known found, named_of_known found]
    by_cases same : rule = rule'
    · subst same
      rw [if_pos (Rule.name_of_ofName? found).symm, set_same]
    · have different : other ≠ rule.name := by
        rintro rfl
        exact same (Option.some.inj ((Rule.ofName?_name rule).symm.trans found))
      rw [if_neg different, set_other _ _ _ _ same]
  | none =>
    have different : other ≠ rule.name := by
      rintro rfl
      cases (Rule.ofName?_name rule).symm.trans found
    rw [if_neg different, named_of_unknown found, named_of_unknown found]
    rfl

theorem lookup_setOther (config : Config) (name : String) (severity : Severity) (other : String) :
    (config.setOther name severity).others.lookup other =
      if other = name then some severity else config.others.lookup other :=
  lookup_replace config.others name severity other

theorem named_setOther (unknown : Rule.ofName? name = none) (config : Config)
    (severity : Severity) (other : String) :
    (config.setOther name severity).named other =
      if other = name then .unknown name severity else config.named other := by
  by_cases same : other = name
  · subst same
    rw [if_pos rfl, named_of_unknown unknown, lookup_setOther, if_pos rfl]
    rfl
  · rw [if_neg same]
    cases found : Rule.ofName? other with
    | some rule =>
      rw [named_of_known found, named_of_known found]
      rfl
    | none =>
      rw [named_of_unknown found, named_of_unknown found, lookup_setOther, if_neg same]

/-- A setting that has been read is found under its name, and the others are as they were. -/
theorem named_setNamed (read : NamedSetting.ofValue name value = .ok setting) (config : Config)
    (other : String) :
    (config.setNamed setting).named other =
      if other = name then setting else config.named other := by
  rw [NamedSetting.ofValue] at read
  cases asked : Rule.ofName? name with
  | some rule =>
    rw [asked] at read
    obtain ⟨known, -, ⟨⟩⟩ := exists_of_bind_eq_ok read
    rw [setNamed, named_set, Rule.name_of_ofName? asked]
  | none =>
    rw [asked] at read
    obtain ⟨severity, -, ⟨⟩⟩ := exists_of_bind_eq_ok read
    exact named_setOther asked config severity other

/-! ## Rules one after another -/

theorem succeeds_readRule_iff (config : Config) (entry : String × Value) :
    Succeeds (config.readRule entry) ↔ Succeeds (NamedSetting.ofValue entry.1 entry.2) :=
  Succeeds.bind_ok_iff

theorem named_of_foldlM {rules : Entries} (distinct : rules.keys.Nodup)
    (read : rules.foldlM readRule config = .ok final) (name : String) :
    (∀ value, rules.lookup name = some value →
      NamedSetting.ofValue name value = .ok (final.named name)) ∧
    (rules.lookup name = none → final.named name = config.named name) := by
  induction rules generalizing config with
  | nil =>
    cases read
    refine ⟨fun value found => ?_, fun _ => rfl⟩
    cases found
  | cons entry rest induction =>
    rw [Entries.keys, List.map_cons, List.nodup_cons] at distinct
    rw [List.foldlM_cons] at read
    obtain ⟨next, stepped, read⟩ := exists_of_bind_eq_ok read
    obtain ⟨setting, first, ⟨⟩⟩ := exists_of_bind_eq_ok stepped
    obtain ⟨given, standard⟩ := induction distinct.2 read
    rw [named_setNamed first] at standard
    rw [lookup_cons_eq]
    by_cases here : name = entry.1
    · subst here
      rw [if_pos rfl] at standard ⊢
      rw [standard (lookup_eq_none_iff.mpr distinct.1)]
      refine ⟨fun value found => ?_, fun missing => ?_⟩
      · cases found
        exact first
      · cases missing
    · rw [if_neg here] at standard ⊢
      exact ⟨given, standard⟩

/-- The severity that an entry sets under a name that is no rule's. -/
def otherGiven? (entry : String × Value) : Option (String × Severity) :=
  match Rule.ofName? entry.1 with
  | some _ => none
  | none => (unknownSetting entry.1 entry.2).toOption.map (entry.1, ·)

theorem others_of_foldlM {rules : Entries} (distinct : rules.keys.Nodup)
    (fresh : ∀ entry ∈ rules, config.others.lookup entry.1 = none)
    (read : rules.foldlM readRule config = .ok final) :
    final.others = config.others ++ rules.filterMap otherGiven? := by
  induction rules generalizing config with
  | nil =>
    cases read
    exact (List.append_nil _).symm
  | cons entry rest induction =>
    rw [Entries.keys, List.map_cons, List.nodup_cons] at distinct
    rw [List.foldlM_cons] at read
    obtain ⟨next, stepped, read⟩ := exists_of_bind_eq_ok read
    obtain ⟨setting, first, ⟨⟩⟩ := exists_of_bind_eq_ok stepped
    obtain ⟨freshHere, freshBehind⟩ := List.forall_mem_cons.mp fresh
    rw [NamedSetting.ofValue] at first
    rw [List.filterMap_cons, otherGiven?]
    cases asked : Rule.ofName? entry.1 with
    | some rule =>
      rw [asked] at first
      obtain ⟨known, -, ⟨⟩⟩ := exists_of_bind_eq_ok first
      refine (induction distinct.2 ?_ read).trans rfl
      exact freshBehind
    | none =>
      rw [asked] at first
      obtain ⟨severity, unknown, ⟨⟩⟩ := exists_of_bind_eq_ok first
      have stillFresh : ∀ other ∈ rest,
          (config.setOther entry.1 severity).others.lookup other.1 = none := by
        intro other member
        have different : other.1 ≠ entry.1 := fun same =>
          distinct.1 (same ▸ List.mem_map_of_mem member)
        rw [lookup_setOther, if_neg different, freshBehind other member]
      have added : (config.setOther entry.1 severity).others =
          config.others ++ [(entry.1, severity)] := by
        rw [setOther]
        exact if_neg (by rw [any_name_iff, freshHere]; exact Bool.false_ne_true)
      rw [induction distinct.2 stillFresh read]
      change (config.setOther entry.1 severity).others ++ _ = _
      rw [added, unknown, List.append_assoc]
      rfl

theorem settings_eq_of_named {other : Config}
    (same : ∀ name, config.named name = other.named name) : config.settings = other.settings := by
  funext rule
  have known := Rule.ofName?_name rule
  have settled := same rule.name
  rw [named_of_known known, named_of_known known] at settled
  injection settled

/-- Rules in another order are read as well, to the same settings. -/
theorem foldlM_readRule_of_perm {environment : Environment} {rules reordered : Entries}
    (distinct : rules.keys.Nodup) (same : rules.Perm reordered)
    (read : rules.foldlM readRule (standard environment) = .ok final) :
    ∃ other, reordered.foldlM readRule (standard environment) = .ok other ∧
      (∀ name, final.named name = other.named name) ∧ final.others.Perm other.others := by
  have distinct' : reordered.keys.Nodup := (same.map _).nodup_iff.mp distinct
  have each := (Succeeds.foldlM_iff succeeds_readRule_iff _).mp ⟨final, read⟩
  obtain ⟨other, readOther⟩ := (Succeeds.foldlM_iff succeeds_readRule_iff
    (standard environment)).mpr fun entry member => each entry (same.mem_iff.mpr member)
  refine ⟨other, readOther, fun name => ?_, ?_⟩
  · obtain ⟨given, notGiven⟩ := named_of_foldlM distinct read name
    obtain ⟨given', notGiven'⟩ := named_of_foldlM distinct' readOther name
    rw [lookup_eq_of_perm distinct same] at given' notGiven'
    cases found : rules.lookup name with
    | some value => exact Except.ok.inj ((given value found).symm.trans (given' value found))
    | none => rw [notGiven found, notGiven' found]
  · have noneFresh (entries : Entries) (entry : String × Value) (_ : entry ∈ entries) :
        (standard environment).others.lookup entry.1 = none := rfl
    rw [others_of_foldlM distinct (noneFresh rules) read,
      others_of_foldlM distinct' (noneFresh reordered) readOther]
    exact (same.filterMap otherGiven?).append_left _

end Config

end DocAudit
