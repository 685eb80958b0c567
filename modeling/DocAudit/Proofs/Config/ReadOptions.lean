import DocAudit.Proofs.Config.OptionKinds
import DocAudit.Proofs.Value.Entries

/-!
Which options of rules can be read, and what they then hold. A name has to be known, a tag needs a
severity and a conflict its files; beyond that a value of any shape is let through.
-/

namespace DocAudit

theorem Entries.succeeds_requireKnown {known : List String} {given : Entries} :
    Succeeds (given.requireKnown known) ↔ ∀ name ∈ given.keys, name ∈ known := by
  have allKnown : (given.keys.filter fun name => !known.contains name).isEmpty = true ↔
      ∀ name ∈ given.keys, name ∈ known := by
    simp
  rw [requireKnown]
  split
  · next empty => exact iff_of_true (.ok ()) (allKnown.mp empty)
  · next some => exact iff_of_false Succeeds.error_iff.mp fun known => some (allKnown.mpr known)

theorem Succeeds.field_iff {α : Type} {entries : Entries} {key : String}
    {next : Value → Except Fault α} :
    Succeeds ((Value.table entries).field key >>= next) ↔
      ∃ found, entries.lookup key = some found ∧ Succeeds (next found) := by
  rw [Value.field]
  cases entries.lookup key with
  | none =>
    refine iff_of_false Succeeds.error_iff.mp ?_
    rintro ⟨_, ⟨⟩, -⟩
  | some found => simp [bind, Except.bind]

/-- Options that are known and of which each can be read. -/
structure Entries.CanBeRead (kinds : List (String × OptionKind)) (defaultSeverity : Value)
    (given : Entries) : Prop where
  known : ∀ name ∈ given.keys, name ∈ kinds.map (·.1)
  read : ∀ declared ∈ kinds, ∀ found, given.lookup declared.1 = some found →
    declared.2.Reads defaultSeverity found

namespace Entries.CanBeRead

variable {kinds : List (String × OptionKind)} {defaultSeverity : Value} {given : Entries}

theorem iff_of_plain (plain : ∀ declared ∈ kinds, declared.2.isPlain = true) :
    given.CanBeRead kinds defaultSeverity ↔ ∀ name ∈ given.keys, name ∈ kinds.map (·.1) :=
  ⟨known, fun known => ⟨known, fun declared member found _ =>
    OptionKind.reads_of_isPlain (plain declared member) defaultSeverity found⟩⟩

/-- Where one option alone is not plain, only that one has to be looked at. -/
theorem iff_of_mem {name : String} {kind : OptionKind} (member : (name, kind) ∈ kinds)
    (others : ∀ declared ∈ kinds, declared = (name, kind) ∨ declared.2.isPlain = true) :
    given.CanBeRead kinds defaultSeverity ↔
      (∀ found, given.lookup name = some found → kind.Reads defaultSeverity found) ∧
        ∀ name ∈ given.keys, name ∈ kinds.map (·.1) := by
  constructor
  · rintro ⟨known, read⟩
    exact ⟨read _ member, known⟩
  · rintro ⟨read, known⟩
    refine ⟨known, fun declared member found looked => ?_⟩
    rcases others declared member with rfl | plain
    · exact read found looked
    · exact OptionKind.reads_of_isPlain plain defaultSeverity found

end Entries.CanBeRead

/-- Options are read where they can be, and then kept. -/
structure ReadsOptions {α : Type} (kinds : List (String × OptionKind)) (defaultSeverity : Value)
    (given : Entries) (toEntries : α → Entries) (outcome : Except Fault α) : Prop where
  succeeds_iff : Succeeds outcome ↔ given.CanBeRead kinds defaultSeverity
  keeps : ∀ options, outcome = .ok options → FieldsKeep kinds given (toEntries options)

theorem AreStandard.names_eq {kinds : List (String × OptionKind)} {standard : Entries}
    (areStandard : AreStandard kinds standard) : standard.keys = kinds.map (·.1) := by
  induction areStandard with
  | nil => rfl
  | cons first _ induction => exact congrArg₂ List.cons first.1 induction

theorem AreStandard.isPlain {kinds : List (String × OptionKind)} {standard : Entries}
    (areStandard : AreStandard kinds standard) :
    ∀ declared ∈ kinds, declared.2.isPlain = true := by
  induction areStandard with
  | nil => nofun
  | cons first _ induction => exact List.forall_mem_cons.mpr ⟨first.2.1, induction⟩

/-- Options that are all plain are taken as they are once their names are known. -/
theorem readsOptions_of_areStandard {α : Type} {kinds : List (String × OptionKind)}
    {standard given : Entries} {toEntries : α → Entries} {options : α}
    (areStandard : AreStandard kinds standard)
    (overlaid : toEntries options = standard.overlaid given) (defaultSeverity : Value) :
    ReadsOptions kinds defaultSeverity given toEntries
      (given.requireKnown standard.keys >>= fun _ => .ok options) where
  succeeds_iff := by
    rw [Entries.CanBeRead.iff_of_plain areStandard.isPlain, ← areStandard.names_eq]
    exact Succeeds.bind_ok_iff.trans Entries.succeeds_requireKnown
  keeps := by
    intro read succeeds
    obtain ⟨_, -, ⟨⟩⟩ := exists_of_bind_eq_ok succeeds
    rw [overlaid]
    exact fieldsKeep_overlaid areStandard given

/-- Options of which one part is read by itself, before their names are checked. -/
theorem readsOptions_of_part {α β : Type} {kinds : List (String × OptionKind)}
    {defaultSeverity : Value} {given : Entries} {toEntries : α → Entries} {name : String}
    {kind : OptionKind} {part : Except Fault β} {whole : β → α}
    (member : (name, kind) ∈ kinds)
    (others : ∀ declared ∈ kinds, declared = (name, kind) ∨ declared.2.isPlain = true)
    (partRead : Succeeds part ↔
      ∀ found, given.lookup name = some found → kind.Reads defaultSeverity found)
    (keeps : ∀ value, part = .ok value → FieldsKeep kinds given (toEntries (whole value))) :
    ReadsOptions kinds defaultSeverity given toEntries (part >>= fun value =>
      given.requireKnown (kinds.map (·.1)) >>= fun _ => .ok (whole value)) where
  succeeds_iff := by
    rw [Entries.CanBeRead.iff_of_mem member others, ← partRead, Succeeds.bind_iff]
    simp only [Succeeds.bind_ok_iff, Entries.succeeds_requireKnown]
    exact exists_and_right
  keeps := by
    intro options succeeds
    obtain ⟨value, read, succeeds⟩ := exists_of_bind_eq_ok succeeds
    obtain ⟨_, -, ⟨⟩⟩ := exists_of_bind_eq_ok succeeds
    exact keeps value read

/-! ## Conflicts -/

namespace StandardFileNames

theorem succeeds_conflict {value : Value} :
    Succeeds (Conflict.ofValue value) ↔ value.ReadsConflict := by
  cases value with
  | table entries =>
    rw [Conflict.ofValue, Succeeds.field_iff]
    constructor
    · rintro ⟨files, given, further⟩
      obtain ⟨items, gone, further⟩ := Succeeds.bind_iff.mp further
      obtain ⟨preferred, givenPreferred, -⟩ := Succeeds.field_iff.mp further
      exact ⟨⟨files, given, items, gone⟩, preferred, givenPreferred⟩
    · rintro ⟨⟨files, given, items, gone⟩, preferred, givenPreferred⟩
      refine ⟨files, given, Succeeds.bind_iff.mpr ⟨items, gone, ?_⟩⟩
      exact Succeeds.field_iff.mpr ⟨preferred, givenPreferred, _, rfl⟩
  | _ => exact iff_of_false (fun ⟨_, read⟩ => nomatch read) id

theorem items_of_areTexts {value : Value} (texts : value.fixed.areTexts = true) :
    ∃ items, value.items = .ok items ∧ (Value.tuple items).areTexts = true := by
  cases value with
  | list items | tuple items => exact ⟨items, rfl, texts⟩
  | _ => cases texts

theorem isConflict_of_fits {value : Value} {conflict : Conflict}
    (read : Conflict.ofValue value = .ok conflict) (fits : value.fitsConflict = true) :
    conflict.toValue.isConflict = true := by
  cases value with
  | table entries =>
    rw [Value.fitsConflict, Bool.and_eq_true, Bool.and_eq_true, Option.any_eq_true,
      Option.any_eq_true] at fits
    obtain ⟨⟨⟨files, givenFiles, texts⟩, preferred, givenPreferred, isText⟩, message⟩ := fits
    obtain ⟨items, gone, areTexts⟩ := items_of_areTexts texts
    rw [Conflict.ofValue, Value.field, givenFiles, Value.field, givenPreferred] at read
    simp only [bind, Except.bind, gone] at read
    cases read
    simp [Conflict.toValue, Value.isConflict, areTexts, isText, message, List.lookup_cons]
  | _ => cases fits

/-- The conflicts that are given, or else the standard one. -/
def readConflicts (given : Entries) : Except Fault (List Conflict) :=
  match given.lookup "conflicts" with
  | some value => value.items >>= fun items => items.mapM Conflict.ofValue
  | none => .ok [.standard]

/-- The options with these conflicts. -/
def optionsWith (given : Entries) (conflicts : List Conflict) : Options :=
  let standard : Options := {}
  { warnDetailFiles := given.option "warn_detail_files" standard.warnDetailFiles
    warnConflicts := given.option "warn_conflicts" standard.warnConflicts
    conflicts := conflicts
    detailPatterns := given.option "detail_patterns" standard.detailPatterns }

theorem ofEntries_eq (given : Entries) :
    Options.ofEntries given = readConflicts given >>= fun conflicts =>
      given.requireKnown (Rule.standardFileNames.optionKinds.map (·.1)) >>= fun _ =>
        .ok (optionsWith given conflicts) := by
  unfold Options.ofEntries readConflicts
  dsimp only
  cases given.lookup "conflicts" with
  | none => rfl
  | some value => exact (bind_assoc value.items _ _).symm

theorem succeeds_readConflicts {given : Entries} (defaultSeverity : Value) :
    Succeeds (readConflicts given) ↔ ∀ found, given.lookup "conflicts" = some found →
      OptionKind.conflicts.Reads defaultSeverity found := by
  rw [readConflicts]
  cases given.lookup "conflicts" with
  | none => exact iff_of_true (.ok _) nofun
  | some value =>
    simp only [Succeeds.bind_iff, Succeeds.mapM_iff, succeeds_conflict, Option.some.injEq,
      forall_eq']
    rfl

theorem areConflicts_of_fits {given : Entries} {conflicts : List Conflict}
    (read : readConflicts given = .ok conflicts)
    (fits : ∀ found, given.lookup "conflicts" = some found →
      OptionKind.conflicts.fits found = true) :
    OptionKind.conflicts.holds (.tuple (conflicts.map Conflict.toValue)) = true := by
  rw [readConflicts] at read
  cases looked : given.lookup "conflicts" with
  | none =>
    rw [looked] at read
    cases read
    decide
  | some value =>
    rw [looked] at read
    have itemsFit := fits value looked
    cases value with
    | list items =>
      obtain ⟨_, ⟨⟩, read⟩ := exists_of_bind_eq_ok read
      rw [OptionKind.holds, List.all_map, List.all_eq_true]
      intro conflict member
      obtain ⟨item, among, read⟩ := exists_of_mem_mapM read member
      exact isConflict_of_fits read (List.all_eq_true.mp itemsFit item among)
    | _ => cases itemsFit

theorem readsOptions (given : Entries) (defaultSeverity : Value) :
    ReadsOptions Rule.standardFileNames.optionKinds defaultSeverity given Options.toEntries
      (Options.ofEntries given) := by
  rw [ofEntries_eq]
  refine readsOptions_of_part (by decide) (by decide) (succeeds_readConflicts defaultSeverity) ?_
  intro conflicts read
  have plain {kind : OptionKind} {default : Value} (name : String) (isPlain : kind.isPlain = true)
      (holds : kind.holds default = true) :=
    OptionKind.keeps_option given name isPlain holds
  refine .cons ⟨rfl, plain _ rfl rfl⟩ (.cons ⟨rfl, plain _ rfl rfl⟩ (.cons ⟨rfl, ?_⟩
    (.cons ⟨rfl, plain _ rfl rfl⟩ .nil)))
  exact { typed := areConflicts_of_fits read, plain := nofun }

end StandardFileNames

/-! ## Tags -/

namespace TodoComments

theorem succeeds_severity {value : Value} :
    Succeeds (TagSeverity.ofValue value) ↔ value.isTagSeverity = true := by
  cases value with
  | text word =>
    rw [TagSeverity.ofValue, Value.isTagSeverity]
    cases TagSeverity.ofWord? word with
    | none => exact iff_of_false Succeeds.error_iff.mp Bool.false_ne_true
    | some severity => exact iff_of_true (.ok severity) rfl
  | _ => exact iff_of_false Succeeds.error_iff.mp Bool.false_ne_true

theorem succeeds_tagSetting {defaultSeverity value : Value} :
    Succeeds (TagSetting.ofValue defaultSeverity value) ↔ value.ReadsTag defaultSeverity := by
  cases value with
  | text word => exact Succeeds.bind_ok_iff.trans succeeds_severity
  | table entries => exact Succeeds.bind_ok_iff.trans succeeds_severity
  | _ => exact iff_of_false (fun ⟨_, read⟩ => nomatch read) id

theorem Tags.ofValue_of_not_truthy (defaultSeverity : Value) {value : Value}
    (nothing : ¬ value.truthy = true) :
    Tags.ofValue defaultSeverity value = .ok standardTags := by
  rw [Tags.ofValue.eq_def, if_pos (by simp [nothing])]

theorem succeeds_tags {defaultSeverity value : Value} :
    Succeeds (Tags.ofValue defaultSeverity value) ↔
      OptionKind.tags.Reads defaultSeverity value := by
  by_cases truthy : value.truthy = true
  · rw [Tags.ofValue.eq_def, if_neg (by simp [truthy])]
    cases value with
    | table entries =>
      have step (tags : Tags) (entry : String × Value) :
          Succeeds (TagSetting.ofValue defaultSeverity entry.2 >>= fun setting =>
            Except.ok (tags.set (upper entry.1) setting)) ↔ entry.2.ReadsTag defaultSeverity :=
        Succeeds.bind_ok_iff.trans succeeds_tagSetting
      refine (Succeeds.foldlM_iff step standardTags).trans ⟨?_, ?_⟩
      · exact fun reads _ => ⟨entries, rfl, reads⟩
      · intro reads
        obtain ⟨_, ⟨⟩, each⟩ := reads truthy
        exact each
    | _ =>
      refine iff_of_false Succeeds.error_iff.mp fun reads => ?_
      obtain ⟨_, ⟨⟩, -⟩ := reads truthy
  · rw [Tags.ofValue_of_not_truthy defaultSeverity truthy]
    exact iff_of_true (.ok _) fun isTruthy => absurd isTruthy truthy

/-- Tags that all have a label, or none. -/
def Tags.HaveLabels (tags : Tags) : Prop :=
  ∀ entry ∈ tags, entry.2.label.isLabel = true

theorem haveLabels_standardTags : Tags.HaveLabels standardTags := by
  intro entry member
  exact List.all_eq_true.mp (by decide : standardTags.all (·.2.label.isLabel) = true) entry member

theorem Tags.mem_set {tags : Tags} {name : String} {setting : TagSetting}
    {entry : String × TagSetting} (member : entry ∈ tags.set name setting) :
    entry = (name, setting) ∨ entry ∈ tags := by
  rw [Tags.set] at member
  split at member
  · obtain ⟨former, among, rfl⟩ := List.mem_map.mp member
    split
    · exact .inl rfl
    · exact .inr among
  · exact (List.mem_append.mp member).symm.imp_left List.mem_singleton.mp

theorem Tags.HaveLabels.set {tags : Tags} (labels : tags.HaveLabels) (name : String)
    {setting : TagSetting} (isLabel : setting.label.isLabel = true) :
    (tags.set name setting).HaveLabels := by
  intro entry member
  rcases Tags.mem_set member with rfl | among
  · exact isLabel
  · exact labels entry among

theorem isLabel_tagSetting {defaultSeverity value : Value} {setting : TagSetting}
    (read : TagSetting.ofValue defaultSeverity value = .ok setting)
    (fits : value.fitsTag = true) : setting.label.isLabel = true := by
  cases value with
  | text word =>
    obtain ⟨_, -, ⟨⟩⟩ := exists_of_bind_eq_ok read
    rfl
  | table entries =>
    obtain ⟨severity, given, read⟩ := exists_of_bind_eq_ok read
    obtain ⟨label, labelGiven, read⟩ := exists_of_bind_eq_ok read
    obtain ⟨_, -, ⟨⟩⟩ := exists_of_bind_eq_ok read
    cases labelGiven
    exact fits
  | _ => cases fits

theorem haveLabels_of_fits {defaultSeverity value : Value} {tags : Tags}
    (read : Tags.ofValue defaultSeverity value = .ok tags)
    (fits : OptionKind.tags.fits value = true) : tags.HaveLabels := by
  by_cases truthy : value.truthy = true
  · cases value with
    | table entries =>
      rw [Tags.ofValue, if_neg (by simp [truthy])] at read
      refine foldlM_invariant (fun entry member state next labels read => ?_)
        haveLabels_standardTags read
      obtain ⟨setting, readSetting, ⟨⟩⟩ := exists_of_bind_eq_ok read
      exact labels.set _ (isLabel_tagSetting readSetting (List.all_eq_true.mp fits entry member))
    | _ => simp [OptionKind.fits, Value.fitsTags, truthy] at fits
  · cases (Tags.ofValue_of_not_truthy defaultSeverity truthy).symm.trans read
    exact haveLabels_standardTags

theorem isTagSetting_toValue {setting : TagSetting} (isLabel : setting.label.isLabel = true) :
    setting.toValue.isTagSetting = true := by
  simp [TagSetting.toValue, Value.isTagSetting, Value.isTagSeverity, isLabel, List.lookup_cons,
    TagSeverity.ofWord?_word]

/-- The options with these tags. -/
def optionsWith (given : Entries) (tags : Tags) : Options :=
  let standard : Options := {}
  { tags := tags
    customTags := given.option "custom_tags" standard.customTags
    ignoreInlineCode := given.option "ignore_inline_code" standard.ignoreInlineCode
    ignoreCodeBlocks := given.option "ignore_code_blocks" standard.ignoreCodeBlocks
    ignoreInTables := given.option "ignore_in_tables" standard.ignoreInTables
    excludePatterns := given.option "exclude_patterns" standard.excludePatterns
    exclude := given.option "exclude" standard.exclude
    defaultSeverity := given.option "default_severity" standard.defaultSeverity }

theorem ofEntries_eq (given : Entries) :
    Options.ofEntries given =
      Tags.ofValue ((given.lookup "default_severity").getD (.text "warn"))
          ((given.lookup "tags").getD .null) >>= fun tags =>
        given.requireKnown (Rule.todoComments.optionKinds.map (·.1)) >>= fun _ =>
          .ok (optionsWith given tags) :=
  rfl

theorem succeeds_givenTags {given : Entries} {defaultSeverity : Value} :
    Succeeds (Tags.ofValue defaultSeverity ((given.lookup "tags").getD .null)) ↔
      ∀ found, given.lookup "tags" = some found →
        OptionKind.tags.Reads defaultSeverity found := by
  rw [succeeds_tags]
  cases given.lookup "tags" with
  | none => exact iff_of_true nofun nofun
  | some value => simp

theorem areTags_of_fits {given : Entries} {defaultSeverity : Value} {tags : Tags}
    (read : Tags.ofValue defaultSeverity ((given.lookup "tags").getD .null) = .ok tags)
    (fits : ∀ found, given.lookup "tags" = some found → OptionKind.tags.fits found = true) :
    OptionKind.tags.holds (.table (tags.map fun (name, setting) => (name, setting.toValue))) =
      true := by
  have labels : tags.HaveLabels := by
    cases looked : given.lookup "tags" with
    | none =>
      rw [looked] at read
      cases read
      exact haveLabels_standardTags
    | some value =>
      rw [looked] at read
      exact haveLabels_of_fits read (fits value looked)
  rw [OptionKind.holds, List.all_map, List.all_eq_true]
  exact fun entry member => isTagSetting_toValue (labels entry member)

theorem readsOptions (given : Entries) :
    ReadsOptions Rule.todoComments.optionKinds
      ((given.lookup "default_severity").getD (.text "warn")) given Options.toEntries
      (Options.ofEntries given) := by
  rw [ofEntries_eq]
  refine readsOptions_of_part (by decide) (by decide) succeeds_givenTags ?_
  intro tags read
  refine .cons ⟨rfl, { typed := areTags_of_fits read, plain := nofun }⟩ ?_
  have areStandard : AreStandard Rule.todoComments.optionKinds.tail
      (Options.toEntries {}).tail := by
    decide
  exact fieldsKeep_overlaid areStandard given

end TodoComments

/-! ## Rules -/

theorem Rule.readsOptions {rule : Rule} {given : Entries} {defaultSeverity : Value}
    (ofTags : rule = .todoComments →
      (given.lookup "default_severity").getD (.text "warn") = defaultSeverity)
    (takes : rule.takesOptions = true) :
    ReadsOptions rule.optionKinds defaultSeverity given
      (fun options => (rule.optionEntries? options).getD []) (rule.readOptions given) := by
  cases rule with
  | todoComments =>
    rw [← ofTags rfl]
    exact TodoComments.readsOptions given
  | standardFileNames => exact StandardFileNames.readsOptions given defaultSeverity
  | brokenLinks | legacyFileNames | versionInfo | relatedDocuments | orphanDocuments
  | standardsDrift | folderNumbering | fileNaming | requirementTestMapping =>
    refine readsOptions_of_areStandard ?_ ?_ defaultSeverity
    · decide
    · rfl
  | headingHierarchy | codeBlockLanguage | terminology | bidirectionalRefs | i18nStructure
  | requiredFiles | standardFolderStructure | duplicateContent => cases takes

/-! ## What is stored -/

/-- What the field of an option holds once a value has been read for it. -/
def OptionKind.Stores (defaultSeverity : Value) : OptionKind → Value → Value → Prop
  | tags, given, field => ∃ read, TodoComments.Tags.ofValue defaultSeverity given = .ok read ∧
    field = .table (read.map fun (name, setting) => (name, setting.toValue))
  | conflicts, given, field => ∃ items read, given.items = .ok items ∧
    items.mapM StandardFileNames.Conflict.ofValue = .ok read ∧
    field = .tuple (read.map StandardFileNames.Conflict.toValue)
  | _, given, field => field = given.fixed

theorem OptionKind.stores_of_isPlain {kind : OptionKind} (plain : kind.isPlain = true)
    (defaultSeverity given : Value) : kind.Stores defaultSeverity given given.fixed := by
  cases kind with
  | tags | conflicts => cases plain
  | _ => rfl

theorem TodoComments.stores_tags {given : Entries} {options : Options} {value : Value}
    (read : Options.ofEntries given = .ok options) (looked : given.lookup "tags" = some value) :
    OptionKind.tags.Stores ((given.lookup "default_severity").getD (.text "warn")) value
      (.table (options.tags.map fun (name, setting) => (name, setting.toValue))) := by
  rw [ofEntries_eq, looked] at read
  obtain ⟨tags, readTags, read⟩ := exists_of_bind_eq_ok read
  obtain ⟨_, -, ⟨⟩⟩ := exists_of_bind_eq_ok read
  exact ⟨tags, readTags, rfl⟩

theorem StandardFileNames.stores_conflicts {given : Entries} {options : Options} {value : Value}
    (defaultSeverity : Value) (read : Options.ofEntries given = .ok options)
    (looked : given.lookup "conflicts" = some value) :
    OptionKind.conflicts.Stores defaultSeverity value
      (.tuple (options.conflicts.map Conflict.toValue)) := by
  rw [ofEntries_eq, readConflicts, looked] at read
  obtain ⟨conflicts, readConflicts, read⟩ := exists_of_bind_eq_ok read
  obtain ⟨items, gone, readItems⟩ := exists_of_bind_eq_ok readConflicts
  obtain ⟨_, -, ⟨⟩⟩ := exists_of_bind_eq_ok read
  exact ⟨items, conflicts, gone, readItems, rfl⟩

theorem FieldsKeep.exists_field {kinds : List (String × OptionKind)} {given fields : Entries}
    (keep : FieldsKeep kinds given fields) (distinct : (kinds.map (·.1)).Nodup)
    {declared : String × OptionKind} (member : declared ∈ kinds) :
    ∃ field, fields.lookup declared.1 = some field ∧
      declared.2.Keeps (given.lookup declared.1) field := by
  rw [FieldsKeep] at keep
  induction keep with
  | nil => cases member
  | @cons first field kinds fields keeps _ induction =>
    obtain ⟨notLater, distinct⟩ := List.nodup_cons.mp distinct
    rw [lookup_cons_eq, keeps.1]
    rcases List.mem_cons.mp member with rfl | member
    · exact ⟨field.2, if_pos rfl, keeps.2⟩
    · have different : declared.1 ≠ first.1 := fun same =>
        notLater (List.mem_map.mpr ⟨declared, member, same⟩)
      rw [if_neg different]
      exact induction distinct member

namespace Rule

theorem nodup_optionKinds (rule : Rule) : (rule.optionKinds.map (·.1)).Nodup := by
  cases rule <;> decide

theorem isPlain_or (rule : Rule) : ∀ declared ∈ rule.optionKinds, declared.2.isPlain = true ∨
    rule = .todoComments ∧ declared = ("tags", .tags) ∨
    rule = .standardFileNames ∧ declared = ("conflicts", .conflicts) := by
  cases rule <;> decide

theorem exists_stored {rule : Rule} {given : Entries} {options : rule.Options}
    {defaultSeverity : Value}
    (ofTags : rule = .todoComments →
      (given.lookup "default_severity").getD (.text "warn") = defaultSeverity)
    (takes : rule.takesOptions = true) (read : rule.readOptions given = .ok options)
    {declared : String × OptionKind} (member : declared ∈ rule.optionKinds) {value : Value}
    (looked : given.lookup declared.1 = some value) :
    ∃ field, ((rule.optionEntries? options).getD []).lookup declared.1 = some field ∧
      declared.2.Stores defaultSeverity value field := by
  rcases rule.isPlain_or declared member with plain | ⟨rfl, rfl⟩ | ⟨rfl, rfl⟩
  · have keep := (Rule.readsOptions ofTags takes).keeps options read
    obtain ⟨field, found, keeps⟩ := keep.exists_field rule.nodup_optionKinds member
    refine ⟨field, found, ?_⟩
    rw [keeps.plain plain value looked]
    exact OptionKind.stores_of_isPlain plain _ value
  · rw [← ofTags rfl]
    exact ⟨_, rfl, TodoComments.stores_tags read looked⟩
  · exact ⟨_, rfl, StandardFileNames.stores_conflicts _ read looked⟩

end Rule

/-! ## Options that are read alike -/

theorem Entries.requireKnown_of_lookup {known : List String} {given other : Entries}
    (same : ∀ name, other.lookup name = given.lookup name)
    (isKnown : given.requireKnown known = .ok ()) : other.requireKnown known = .ok () := by
  obtain ⟨_, known⟩ := Entries.succeeds_requireKnown.mpr fun name member => by
    refine Entries.succeeds_requireKnown.mp ⟨(), isKnown⟩ name ?_
    rwa [Entries.mem_keys_iff, same, ← Entries.mem_keys_iff] at member
  exact known

theorem Entries.option_congr {given other : Entries}
    (same : ∀ name, other.lookup name = given.lookup name) : other.option = given.option := by
  funext name default
  rw [option, option, same]

/-- Options are read by their names, wherever they stand. -/
theorem Rule.readOptions_of_lookup {rule : Rule} {given other : Entries} {options : rule.Options}
    (same : ∀ name, other.lookup name = given.lookup name)
    (read : rule.readOptions given = .ok options) : rule.readOptions other = .ok options := by
  cases rule with
  | todoComments =>
    change TodoComments.Options.ofEntries given = .ok options at read
    change TodoComments.Options.ofEntries other = .ok options
    rw [TodoComments.ofEntries_eq] at read ⊢
    obtain ⟨tags, readTags, read⟩ := exists_of_bind_eq_ok read
    obtain ⟨_, known, ⟨⟩⟩ := exists_of_bind_eq_ok read
    rw [same, same, readTags, TodoComments.optionsWith, ← Entries.option_congr same]
    exact congrArg (· >>= fun _ => _) (Entries.requireKnown_of_lookup same known)
  | standardFileNames =>
    change StandardFileNames.Options.ofEntries given = .ok options at read
    change StandardFileNames.Options.ofEntries other = .ok options
    rw [StandardFileNames.ofEntries_eq] at read ⊢
    obtain ⟨conflicts, readConflicts, read⟩ := exists_of_bind_eq_ok read
    obtain ⟨_, known, ⟨⟩⟩ := exists_of_bind_eq_ok read
    rw [StandardFileNames.readConflicts, ← same] at readConflicts
    rw [StandardFileNames.readConflicts, readConflicts, StandardFileNames.optionsWith,
      ← Entries.option_congr same]
    exact congrArg (· >>= fun _ => _) (Entries.requireKnown_of_lookup same known)
  | brokenLinks | legacyFileNames | versionInfo | relatedDocuments | orphanDocuments
  | standardsDrift | folderNumbering | fileNaming | requirementTestMapping =>
    obtain ⟨_, known, ⟨⟩⟩ := exists_of_bind_eq_ok read
    rw [← Entries.option_congr same]
    exact congrArg (· >>= fun _ => _) (Entries.requireKnown_of_lookup same known)
  | headingHierarchy | codeBlockLanguage | terminology | bidirectionalRefs | i18nStructure
  | requiredFiles | standardFolderStructure | duplicateContent => exact read

end DocAudit
