import DocAudit.Rules.BrokenLinks
import DocAudit.Rules.DuplicateTitles
import DocAudit.Rules.FileNaming
import DocAudit.Rules.FolderNumbering
import DocAudit.Rules.LegacyFileNames
import DocAudit.Rules.Markers
import DocAudit.Rules.Outline
import DocAudit.Rules.References
import DocAudit.Rules.RequiredFiles
import DocAudit.Rules.StandardFileNames
import DocAudit.Rules.StandardsDrift
import DocAudit.Rules.Terminology
import DocAudit.Rules.TodoComments
import DocAudit.Rules.Traceability
import DocAudit.Rules.LanguageFolders

/-!
The rules, each with its name, its standard severity, the type of its options and its check. A
rule without options has the one value of `Unit` for them.
-/

namespace DocAudit

inductive Rule where
  | brokenLinks
  | legacyFileNames
  | versionInfo
  | relatedDocuments
  | headingHierarchy
  | todoComments
  | codeBlockLanguage
  | orphanDocuments
  | terminology
  | bidirectionalRefs
  | i18nStructure
  | standardsDrift
  | requiredFiles
  | standardFolderStructure
  | folderNumbering
  | fileNaming
  | duplicateContent
  | standardFileNames
  | requirementTestMapping
  deriving DecidableEq, Repr

/-- What rules look at. -/
structure Input where
  docs : Docs
  files : List String
  templates : FilePath
  terms : List Terminology.Term := []
  requiredFiles : List String := []
  languages : Option LanguageFolders.Languages := none

namespace Rule

/-- Every rule, in the order in which they run. -/
def all : List Rule :=
  [.brokenLinks, .legacyFileNames, .versionInfo, .relatedDocuments, .headingHierarchy,
    .todoComments, .codeBlockLanguage, .orphanDocuments, .terminology, .bidirectionalRefs,
    .i18nStructure, .standardsDrift, .requiredFiles, .standardFolderStructure, .folderNumbering,
    .fileNaming, .duplicateContent, .standardFileNames, .requirementTestMapping]

theorem mem_all (rule : Rule) : rule ∈ all := by
  cases rule <;> decide

def name : Rule → String
  | brokenLinks => "brokenLinks"
  | legacyFileNames => "legacyFileNames"
  | versionInfo => "versionInfo"
  | relatedDocuments => "relatedDocuments"
  | headingHierarchy => "headingHierarchy"
  | todoComments => "todoComments"
  | codeBlockLanguage => "codeBlockLanguage"
  | orphanDocuments => "orphanDocuments"
  | terminology => "terminology"
  | bidirectionalRefs => "bidirectionalRefs"
  | i18nStructure => "i18nStructure"
  | standardsDrift => "standardsDrift"
  | requiredFiles => "requiredFiles"
  | standardFolderStructure => "standardFolderStructure"
  | folderNumbering => "folderNumbering"
  | fileNaming => "fileNaming"
  | duplicateContent => "duplicateContent"
  | standardFileNames => "standardFileNames"
  | requirementTestMapping => "requirementTestMapping"

def ofName? (name : String) : Option Rule :=
  all.find? (·.name == name)

def names : List String :=
  all.map name

/-! Each rule has a name of its own, by which it is found again. -/

theorem nodup_all : all.Nodup := by
  decide

theorem ofName?_name (rule : Rule) : ofName? rule.name = some rule := by
  cases rule <;> decide +kernel

theorem name_of_ofName? {name : String} {rule : Rule} (found : ofName? name = some rule) :
    rule.name = name := by
  have named := List.find?_some found
  exact eq_of_beq named

theorem name_inj {left right : Rule} : left.name = right.name ↔ left = right := by
  constructor
  · intro same
    have found := ofName?_name left
    rw [same, ofName?_name] at found
    exact (Option.some.inj found).symm
  · rintro rfl
    rfl

def standardSeverity : Rule → Severity
  | brokenLinks | legacyFileNames | standardFolderStructure | requirementTestMapping => .error
  | bidirectionalRefs | i18nStructure => .off
  | _ => .warn

def Options : Rule → Type
  | brokenLinks => BrokenLinks.Options
  | legacyFileNames => LegacyFileNames.Options
  | versionInfo => Markers.Options
  | relatedDocuments => Markers.Options
  | todoComments => TodoComments.Options
  | orphanDocuments => OrphanDocuments.Options
  | standardsDrift => StandardsDrift.Options
  | folderNumbering => FolderNumbering.Options
  | fileNaming => FileNaming.Options
  | standardFileNames => StandardFileNames.Options
  | requirementTestMapping => Traceability.Options
  | _ => Unit

def standardOptions : (rule : Rule) → rule.Options
  | brokenLinks => ({} : BrokenLinks.Options)
  | legacyFileNames => ({} : LegacyFileNames.Options)
  | versionInfo => Markers.Options.version
  | relatedDocuments => Markers.Options.related
  | headingHierarchy => ()
  | todoComments => ({} : TodoComments.Options)
  | codeBlockLanguage => ()
  | orphanDocuments => ({} : OrphanDocuments.Options)
  | terminology => ()
  | bidirectionalRefs => ()
  | i18nStructure => ()
  | standardsDrift => ({} : StandardsDrift.Options)
  | requiredFiles => ()
  | standardFolderStructure => ()
  | folderNumbering => ({} : FolderNumbering.Options)
  | fileNaming => ({} : FileNaming.Options)
  | duplicateContent => ()
  | standardFileNames => ({} : StandardFileNames.Options)
  | requirementTestMapping => ({} : Traceability.Options)

/-- Reads the options of a rule. A rule without options has nothing to read. -/
def readOptions : (rule : Rule) → Entries → Except Fault rule.Options
  | brokenLinks, given => BrokenLinks.Options.ofEntries given
  | legacyFileNames, given => LegacyFileNames.Options.ofEntries given
  | versionInfo, given => Markers.Options.ofEntries .version given
  | relatedDocuments, given => Markers.Options.ofEntries .related given
  | headingHierarchy, _ => .ok ()
  | todoComments, given => TodoComments.Options.ofEntries given
  | codeBlockLanguage, _ => .ok ()
  | orphanDocuments, given => OrphanDocuments.Options.ofEntries given
  | terminology, _ => .ok ()
  | bidirectionalRefs, _ => .ok ()
  | i18nStructure, _ => .ok ()
  | standardsDrift, given => StandardsDrift.Options.ofEntries given
  | requiredFiles, _ => .ok ()
  | standardFolderStructure, _ => .ok ()
  | folderNumbering, given => FolderNumbering.Options.ofEntries given
  | fileNaming, given => FileNaming.Options.ofEntries given
  | duplicateContent, _ => .ok ()
  | standardFileNames, given => StandardFileNames.Options.ofEntries given
  | requirementTestMapping, given => Traceability.Options.ofEntries given

/-- The options of a rule by name, if it takes any. -/
def optionEntries? : (rule : Rule) → rule.Options → Option Entries
  | brokenLinks, options => some (BrokenLinks.Options.toEntries options)
  | legacyFileNames, options => some (LegacyFileNames.Options.toEntries options)
  | versionInfo, options => some (Markers.Options.toEntries options)
  | relatedDocuments, options => some (Markers.Options.toEntries options)
  | headingHierarchy, _ => none
  | todoComments, options => some (TodoComments.Options.toEntries options)
  | codeBlockLanguage, _ => none
  | orphanDocuments, options => some (OrphanDocuments.Options.toEntries options)
  | terminology, _ => none
  | bidirectionalRefs, _ => none
  | i18nStructure, _ => none
  | standardsDrift, options => some (StandardsDrift.Options.toEntries options)
  | requiredFiles, _ => none
  | standardFolderStructure, _ => none
  | folderNumbering, options => some (FolderNumbering.Options.toEntries options)
  | fileNaming, options => some (FileNaming.Options.toEntries options)
  | duplicateContent, _ => none
  | standardFileNames, options => some (StandardFileNames.Options.toEntries options)
  | requirementTestMapping, options => some (Traceability.Options.toEntries options)

def takesOptions (rule : Rule) : Bool :=
  (rule.optionEntries? rule.standardOptions).isSome

/-- What a rule finds. -/
def check : (rule : Rule) → rule.Options → Input → Except Fault (List Issue)
  | brokenLinks, options, input => BrokenLinks.check input.docs input.files options
  | legacyFileNames, options, input => LegacyFileNames.check input.docs input.files options
  | versionInfo, options, input => Markers.checkVersion input.docs input.files options
  | relatedDocuments, options, input => Markers.checkRelated input.docs input.files options
  | headingHierarchy, _, input => Outline.checkHeadings input.docs input.files
  | todoComments, options, input => TodoComments.check input.docs input.files options
  | codeBlockLanguage, _, input => Outline.checkCode input.docs input.files
  | orphanDocuments, options, input => OrphanDocuments.check input.docs input.files options
  | terminology, _, input => Terminology.check input.docs input.files input.terms
  | bidirectionalRefs, _, input => BackReferences.check input.docs input.files
  | i18nStructure, _, input => LanguageFolders.check input.docs input.languages
  | standardsDrift, options, input => StandardsDrift.check input.docs input.templates options
  | requiredFiles, _, input => RequiredFiles.check input.docs input.requiredFiles
  | standardFolderStructure, _, input => FolderStructure.check input.docs FolderStructure.standard
  | folderNumbering, options, input => FolderNumbering.check input.docs options
  | fileNaming, options, input => FileNaming.check input.files options
  | duplicateContent, _, input => DuplicateTitles.check input.docs input.files
  | standardFileNames, options, input => StandardFileNames.check input.files options
  | requirementTestMapping, options, input => Traceability.check input.docs input.files options

/-- Whether there is anything for a rule to look at. -/
def applies (input : Input) : Rule → Bool
  | terminology => !input.terms.isEmpty
  | requiredFiles => !input.requiredFiles.isEmpty
  | standardsDrift => input.docs.disk.hasFolder input.templates
  | _ => true

example : ofName? "fileNaming" = some fileNaming := by decide +kernel

end Rule

end DocAudit
