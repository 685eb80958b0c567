import DocAudit.Proofs.Config.OptionFaults
import Mathlib.Data.List.Forall2

/-!
What the options of rules are meant to be, and what becomes of those that are given. A plain option
is taken as it is, so its field is of the declared kind only where what was given is. Tags and
conflicts are read piece by piece; what is asked of a piece is less than what its kind says.
-/

namespace DocAudit

/-- What the value of an option is meant to be. -/
inductive OptionKind where
  | texts
  | text
  | truth
  | number
  | tags
  | conflicts
  deriving DecidableEq, Repr

namespace Value

def isText? : Value → Bool
  | .text _ => true
  | _ => false

def areTexts : Value → Bool
  | .tuple items => items.all isText?
  | _ => false

/-- A label is a text, or there is none. -/
def isLabel : Value → Bool
  | .text _ | .null => true
  | _ => false

def isTagSeverity : Value → Bool
  | .text word => (TodoComments.TagSeverity.ofWord? word).isSome
  | _ => false

def isTagSetting : Value → Bool
  | .table entries =>
    (entries.lookup "severity").any isTagSeverity && (entries.lookup "label").any isLabel
  | _ => false

def isConflict : Value → Bool
  | .table entries =>
    (entries.lookup "files").any areTexts && (entries.lookup "preferred").any isText?
      && (entries.lookup "message").any isText?
  | _ => false

end Value

namespace OptionKind

/-- Whether the value of a field is of a kind. -/
def holds : OptionKind → Value → Bool
  | texts, value => value.areTexts
  | text, value => value.isText?
  | truth, .bool _ => true
  | number, .int _ => true
  | number, .float _ => true
  | tags, .table entries => entries.all (·.2.isTagSetting)
  | conflicts, .tuple items => items.all Value.isConflict
  | _, _ => false

def isPlain : OptionKind → Bool
  | tags | conflicts => false
  | _ => true

end OptionKind

def Rule.optionKinds : Rule → List (String × OptionKind)
  | brokenLinks => [("exclude_paths", .texts)]
  | legacyFileNames => [("pattern", .text), ("exclude", .texts)]
  | versionInfo | relatedDocuments => [("patterns", .texts), ("include", .texts)]
  | todoComments =>
    [("tags", .tags), ("custom_tags", .texts), ("ignore_inline_code", .truth),
      ("ignore_code_blocks", .truth), ("ignore_in_tables", .truth), ("exclude_patterns", .texts),
      ("exclude", .texts), ("default_severity", .text)]
  | orphanDocuments => [("exclude", .texts)]
  | standardsDrift =>
    [("categories", .texts), ("report_missing", .truth), ("report_different", .truth)]
  | folderNumbering => [("strict_paths", .texts), ("check_sequence", .truth)]
  | fileNaming => [("upper_case", .truth), ("allowed_patterns", .texts)]
  | standardFileNames =>
    [("warn_detail_files", .truth), ("warn_conflicts", .truth), ("conflicts", .conflicts),
      ("detail_patterns", .texts)]
  | requirementTestMapping =>
    [("requirement_pattern", .text), ("test_case_pattern", .text), ("requirement_files", .texts),
      ("test_case_files", .texts), ("required_coverage", .number), ("require_test_file", .truth),
      ("require_requirement_ids", .truth), ("require_test_case_ids", .truth)]
  | _ => []

/-! ## What is given -/

namespace Value

/-- A setting of a tag as it is given, with a label that is one. -/
def fitsTag : Value → Bool
  | .text _ => true
  | .table entries => ((entries.lookup "message").getD .null).isLabel
  | _ => false

/-- Settings of tags by their names. What counts as false sets none. -/
def fitsTags : Value → Bool
  | .table entries => entries.all (·.2.fitsTag)
  | value => !value.truthy

def fitsConflict : Value → Bool
  | .table entries =>
    (entries.lookup "files").any (·.fixed.areTexts) && (entries.lookup "preferred").any isText?
      && ((entries.lookup "message").getD (.text "")).isText?
  | _ => false

/-- A setting of a tag that can be read: its severity has to be one. -/
def ReadsTag (value defaultSeverity : Value) : Prop :=
  match value with
  | .text word => isTagSeverity (.text word) = true
  | .table entries => ((entries.lookup "severity").getD defaultSeverity).isTagSeverity = true
  | _ => False

/-- A conflict that can be read: it has files that can be gone through and a preferred one. -/
def ReadsConflict : Value → Prop
  | .table entries =>
    (∃ files, entries.lookup "files" = some files ∧ Succeeds files.items) ∧
      ∃ preferred, entries.lookup "preferred" = some preferred
  | _ => False

end Value

namespace OptionKind

/-- Whether what is given for an option is of its kind. -/
def fits : OptionKind → Value → Bool
  | tags, given => given.fitsTags
  | conflicts, .list items => items.all Value.fitsConflict
  | conflicts, _ => false
  | kind, given => kind.holds given.fixed

/-- What has to be given for an option so that it is read. Of a plain one nothing is asked. -/
def Reads (defaultSeverity : Value) : OptionKind → Value → Prop
  | tags, given => given.truthy = true →
    ∃ entries, given = .table entries ∧ ∀ entry ∈ entries, entry.2.ReadsTag defaultSeverity
  | conflicts, given => ∃ items, given.items = .ok items ∧ ∀ item ∈ items, item.ReadsConflict
  | _, _ => True

/-- What the field of an option holds, by what was given for it. -/
structure Keeps (kind : OptionKind) (given : Option Value) (value : Value) : Prop where
  /-- A field is of its kind where nothing was given, or something of that kind. -/
  typed : (∀ found, given = some found → kind.fits found = true) → kind.holds value = true
  /-- A plain option keeps whatever was given. -/
  plain : kind.isPlain = true → ∀ found, given = some found → value = found.fixed

theorem fits_of_isPlain {kind : OptionKind} (plain : kind.isPlain = true) (given : Value) :
    kind.fits given = kind.holds given.fixed := by
  cases kind with
  | tags | conflicts => cases plain
  | _ => rfl

theorem reads_of_isPlain {kind : OptionKind} (plain : kind.isPlain = true)
    (defaultSeverity given : Value) : kind.Reads defaultSeverity given := by
  cases kind with
  | tags | conflicts => cases plain
  | _ => trivial

end OptionKind

/-- Fields that are the declared ones in their order, each with what was given for it. -/
def FieldsKeep (kinds : List (String × OptionKind)) (given fields : Entries) : Prop :=
  List.Forall₂ (fun declared field => field.1 = declared.1 ∧
    declared.2.Keeps (given.lookup declared.1) field.2) kinds fields

theorem FieldsKeep.imp {kinds : List (String × OptionKind)} {given other fields : Entries}
    (each : ∀ declared ∈ kinds, ∀ value, declared.2.Keeps (given.lookup declared.1) value →
      declared.2.Keeps (other.lookup declared.1) value) (keep : FieldsKeep kinds given fields) :
    FieldsKeep kinds other fields := by
  rw [FieldsKeep] at keep ⊢
  induction keep with
  | nil => exact .nil
  | cons first _ induction =>
    obtain ⟨keeps, others⟩ := List.forall_mem_cons.mp each
    exact .cons ⟨first.1, keeps _ first.2⟩ (induction others)

/-! ## Plain options -/

/-- Options in whose place others are taken where some are given. -/
def Entries.overlaid (standard given : Entries) : Entries :=
  standard.map fun (name, default) => (name, given.option name default)

theorem OptionKind.keeps_option {kind : OptionKind} {default : Value} (given : Entries)
    (name : String) (plain : kind.isPlain = true) (standard : kind.holds default = true) :
    kind.Keeps (given.lookup name) (given.option name default) := by
  rw [Entries.option]
  cases found : given.lookup name with
  | none => exact { typed := fun _ => standard, plain := nofun }
  | some value =>
    refine { typed := fun fits => ?_, plain := ?_ }
    · rw [← OptionKind.fits_of_isPlain plain]
      exact fits value rfl
    · rintro _ other ⟨⟩
      rfl

/-- Standard fields, all of them plain and of the declared kinds. -/
def AreStandard (kinds : List (String × OptionKind)) (standard : Entries) : Prop :=
  List.Forall₂ (fun declared field => field.1 = declared.1 ∧ declared.2.isPlain = true ∧
    declared.2.holds field.2 = true) kinds standard

instance (kinds : List (String × OptionKind)) (standard : Entries) :
    Decidable (AreStandard kinds standard) :=
  inferInstanceAs (Decidable (List.Forall₂ _ kinds standard))

theorem fieldsKeep_overlaid {kinds : List (String × OptionKind)} {standard : Entries}
    (areStandard : AreStandard kinds standard) (given : Entries) :
    FieldsKeep kinds given (standard.overlaid given) := by
  rw [FieldsKeep, Entries.overlaid, List.forall₂_map_right_iff]
  refine areStandard.imp ?_
  rintro ⟨name, kind⟩ ⟨_, default⟩ ⟨rfl, plain, holds⟩
  exact ⟨rfl, OptionKind.keeps_option given _ plain holds⟩

end DocAudit
