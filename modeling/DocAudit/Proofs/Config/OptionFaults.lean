import DocAudit.Proofs.Faults
import DocAudit.Rule

/-!
Which faults can come out of reading the options of a rule. Names and shapes of values are told of,
with one gap: settings of tags are asked for what only tables and texts have.
-/

namespace DocAudit

/-- A value has been asked for something that values of its shape do not have. -/
def Fault.IsMissingAttribute (fault : Fault) : Prop :=
  ∃ shape name, fault = .noAttribute shape name

/-- A tag is set by the word of its severity or by a table. -/
def Value.SetsTag (value : Value) : Prop :=
  (∃ word, value = .text word) ∨ ∃ entries, value = .table entries

/-- Options in which the tags, if there are any, are a table of settings of tags. -/
def Entries.TagsFit (given : Entries) : Prop :=
  ∀ tags, given.lookup "tags" = some tags → tags.truthy = true →
    ∃ entries, tags = .table entries ∧ ∀ entry ∈ entries, entry.2.SetsTag

abbrev NoAttributeMissed {α : Type} (outcome : Except Fault α) : Prop :=
  FailsOnly (fun fault => ¬ fault.IsMissingAttribute) outcome

theorem Entries.noAttributeMissed_requireKnown (known : List String) (given : Entries) :
    NoAttributeMissed (given.requireKnown known) := by
  rw [requireKnown]
  split
  · exact .ok ()
  · exact .error (by rintro ⟨shape, name, ⟨⟩⟩)

/-- Options that are taken as they are fail only where a name is unknown. -/
theorem Entries.noAttributeMissed_ofKnown {α : Type} (known : List String) (given : Entries)
    (options : α) : NoAttributeMissed (given.requireKnown known >>= fun _ => .ok options) :=
  (given.noAttributeMissed_requireKnown known).bind fun _ _ => .ok options

namespace Value

theorem noAttributeMissed_items (value : Value) : NoAttributeMissed value.items := by
  cases value with
  | null | bool _ | int _ | float _ => exact .error (by rintro ⟨shape, name, ⟨⟩⟩)
  | list items | tuple items | text content | table entries => exact .ok _

theorem noAttributeMissed_field (value : Value) (key : String) :
    NoAttributeMissed (value.field key) := by
  cases value with
  | table entries =>
    rw [field]
    split
    · exact .ok _
    · exact .error (by rintro ⟨shape, name, ⟨⟩⟩)
  | _ => exact .error (by rintro ⟨shape, name, ⟨⟩⟩)

/-- What has one entry is a table, which answers for every other key, too. -/
theorem noAttributeMissed_fieldD {value found : Value} {key : String}
    (isTable : value.field key = .ok found) (other : String) (default : Value) :
    NoAttributeMissed (value.fieldD other default) := by
  cases value with
  | table entries => exact .ok _
  | _ => cases isTable

end Value

theorem StandardFileNames.noAttributeMissed_conflict (value : Value) :
    NoAttributeMissed (Conflict.ofValue value) := by
  refine (value.noAttributeMissed_field "files").bind fun files isTable => ?_
  refine files.noAttributeMissed_items.bind fun _ _ => ?_
  refine (value.noAttributeMissed_field "preferred").bind fun _ _ => ?_
  exact (Value.noAttributeMissed_fieldD isTable "message" _).bind fun _ _ => .ok _

theorem StandardFileNames.noAttributeMissed_ofEntries (given : Entries) :
    NoAttributeMissed (Options.ofEntries given) := by
  unfold Options.ofEntries
  split
  · next value found =>
    refine value.noAttributeMissed_items.bind fun items _ => ?_
    refine (FailsOnly.mapM fun item _ => noAttributeMissed_conflict item).bind fun _ _ => ?_
    exact given.noAttributeMissed_ofKnown _ _
  · exact given.noAttributeMissed_ofKnown _ _

namespace TodoComments

theorem noAttributeMissed_severity (value : Value) :
    NoAttributeMissed (TagSeverity.ofValue value) := by
  cases value with
  | text word =>
    rw [TagSeverity.ofValue]
    cases TagSeverity.ofWord? word with
    | some severity => exact .ok severity
    | none => exact .error (by rintro ⟨shape, name, ⟨⟩⟩)
  | _ => exact .error (by rintro ⟨shape, name, ⟨⟩⟩)

theorem noAttributeMissed_tagSetting {value : Value} (setsTag : value.SetsTag)
    (defaultSeverity : Value) : NoAttributeMissed (TagSetting.ofValue defaultSeverity value) := by
  rcases setsTag with ⟨word, rfl⟩ | ⟨entries, rfl⟩
  · exact (noAttributeMissed_severity _).bind fun _ _ => .ok _
  · exact (FailsOnly.ok _).bind fun _ _ => (FailsOnly.ok _).bind fun _ _ =>
      (noAttributeMissed_severity _).bind fun _ _ => .ok _

theorem noAttributeMissed_tags {value : Value} (defaultSeverity : Value)
    (fits : value.truthy = true →
      ∃ entries, value = .table entries ∧ ∀ entry ∈ entries, entry.2.SetsTag) :
    NoAttributeMissed (Tags.ofValue defaultSeverity value) := by
  by_cases truthy : value.truthy = true
  · obtain ⟨entries, rfl, setTags⟩ := fits truthy
    rw [Tags.ofValue, if_neg (by simp [truthy])]
    exact FailsOnly.foldlM (fun entry member tags =>
      (noAttributeMissed_tagSetting (setTags entry member) _).bind fun _ _ => .ok _) _
  · rw [Tags.ofValue.eq_def, if_pos (by simp [truthy])]
    exact .ok _

theorem noAttributeMissed_ofEntries {given : Entries} (fits : given.TagsFit) :
    NoAttributeMissed (Options.ofEntries given) := by
  refine FailsOnly.bind (noAttributeMissed_tags _ ?_) fun _ _ => given.noAttributeMissed_ofKnown _ _
  intro truthy
  cases found : given.lookup "tags" with
  | none =>
    rw [found] at truthy
    cases truthy
  | some tags =>
    rw [found] at truthy
    exact fits tags found truthy

end TodoComments

theorem Rule.noAttributeMissed_readOptions {rule : Rule} {given : Entries}
    (fits : rule = .todoComments → given.TagsFit) : NoAttributeMissed (rule.readOptions given) := by
  cases rule with
  | todoComments => exact TodoComments.noAttributeMissed_ofEntries (fits rfl)
  | standardFileNames => exact StandardFileNames.noAttributeMissed_ofEntries given
  | brokenLinks | legacyFileNames | versionInfo | relatedDocuments | orphanDocuments
  | standardsDrift | folderNumbering | fileNaming | requirementTestMapping =>
    exact given.noAttributeMissed_ofKnown _ _
  | headingHierarchy | codeBlockLanguage | terminology | bidirectionalRefs | i18nStructure
  | requiredFiles | standardFolderStructure | duplicateContent => exact .ok ()

end DocAudit
