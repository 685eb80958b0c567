import DocAudit.Proofs.Tree.RelistedDisk
import DocAudit.Rule

/-!
No rule depends on the order in which folders list their entries. Rules ask for what stands at a
path, or for names that have been sorted, so they find the same on two disks that hold one tree.
-/

namespace DocAudit

/-- The docs of two disks that hold one tree. -/
structure Docs.Relisted (docs docs' : Docs) : Prop where
  disk : docs.disk.Relisted docs'.disk
  root : docs'.root = docs.root

variable {docs docs' : Docs} {files : List String}

namespace Docs.Relisted

theorem path (relisted : docs.Relisted docs') : docs'.path = docs.path := by
  funext file
  rw [Docs.path, Docs.path, relisted.root]

theorem text (relisted : docs.Relisted docs') : docs'.text = docs.text := by
  funext file
  rw [Docs.text, Docs.text, relisted.path, relisted.disk.readText]

theorem document (relisted : docs.Relisted docs') : docs'.document = docs.document := by
  funext file
  rw [Docs.document, Docs.document, relisted.text]

theorem isPresent (relisted : docs.Relisted docs') : docs'.isPresent = docs.isPresent := by
  funext file
  rw [Docs.isPresent, Docs.isPresent, relisted.path, relisted.disk.isPresent]

theorem inEachDocument (relisted : docs.Relisted docs') (files : List String)
    (findings : Document → List Issue) :
    docs'.inEachDocument files findings = docs.inEachDocument files findings := by
  rw [Docs.inEachDocument, Docs.inEachDocument, relisted.document]

theorem references (relisted : docs.Relisted docs') (files : List String) :
    docs'.references files = docs.references files := by
  rw [Docs.references, Docs.references, relisted.document]

end Docs.Relisted

/-! ## Rules on documents -/

theorem BrokenLinks.check_relisted (relisted : docs.Relisted docs') (options : Options) :
    check docs' files options = check docs files options := by
  have sameLinks : isBroken docs' = isBroken docs := by
    funext file link
    rw [isBroken, isBroken, relisted.path, relisted.disk.isPresent]
  rw [check, check, relisted.document, sameLinks]

theorem LegacyFileNames.check_relisted (relisted : docs.Relisted docs') (options : Options) :
    check docs' files options = check docs files options := by
  rw [check, check, relisted.document]

theorem Markers.missing_relisted (relisted : docs.Relisted docs') (options : Options) :
    missing docs' files options = missing docs files options := by
  have sameMarkers : lacksMarker docs' = lacksMarker docs := by
    funext patterns file
    rw [lacksMarker, lacksMarker, relisted.text]
  rw [missing, missing, sameMarkers]

theorem TodoComments.check_relisted (relisted : docs.Relisted docs') (options : Options) :
    check docs' files options = check docs files options := by
  rw [check, check, relisted.document]

theorem OrphanDocuments.check_relisted (relisted : docs.Relisted docs') (options : Options) :
    check docs' files options = check docs files options := by
  rw [check, check, relisted.references]

theorem Terminology.check_relisted (relisted : docs.Relisted docs') (terms : List Term) :
    check docs' files terms = check docs files terms := by
  rw [check, check, relisted.document]

theorem BackReferences.check_relisted (relisted : docs.Relisted docs') :
    check docs' files = check docs files := by
  rw [check, check, relisted.references]

theorem DuplicateTitles.check_relisted (relisted : docs.Relisted docs') :
    check docs' files = check docs files := by
  rw [check, check, titles, titles, relisted.document]

namespace Traceability

theorem coverage_relisted (relisted : docs.Relisted docs') (options : Options) :
    coverage docs' files options = coverage docs files options := by
  rw [coverage, coverage, relisted.document]

theorem absence_relisted (relisted : docs.Relisted docs') : absence docs' = absence docs := by
  have sameText : isFoundIn docs' = isFoundIn docs := by
    funext files value
    rw [isFoundIn, isFoundIn, relisted.text]
  funext required files pattern finding
  rw [absence.eq_def, absence.eq_def, sameText]

theorem check_relisted (relisted : docs.Relisted docs') (options : Options) :
    check docs' files options = check docs files options := by
  rw [check, check, coverage_relisted relisted, absence_relisted relisted]

end Traceability

/-! ## Rules on folders -/

theorem RequiredFiles.check_relisted (relisted : docs.Relisted docs') (required : List String) :
    check docs' required = check docs required := by
  rw [check, check, relisted.isPresent]

namespace FolderStructure

theorem check_relisted (relisted : docs.Relisted docs') (folders : List Folder) :
    check docs' folders = check docs folders := by
  have sameFolders : folderFindings docs' = folderFindings docs := by
    funext folder
    rw [folderFindings, folderFindings, relisted.path, relisted.disk.isFolder,
      relisted.disk.isPresent]
  have sameUnknown : unknownFindings docs' = unknownFindings docs := by
    funext folders
    rw [unknownFindings, unknownFindings, relisted.disk.visibleFolders, relisted.root]
  rw [check, check, sameFolders, sameUnknown]

end FolderStructure

theorem FolderNumbering.check_relisted (relisted : docs.Relisted docs') (options : Options) :
    check docs' options = check docs options := by
  have samePath : pathFindings docs' = pathFindings docs := by
    funext checkSequence value
    rw [pathFindings, pathFindings, relisted.path, relisted.disk.isFolder,
      relisted.disk.visibleFolders]
  rw [check, check, samePath]

theorem Templates.hasCategory_relisted {disk disk' : Disk} (relisted : disk.Relisted disk')
    (templates : FilePath) (category : String) :
    hasCategory disk' templates category = hasCategory disk templates category := by
  rw [hasCategory, hasCategory, relisted.isFolder]

theorem StandardsDrift.check_relisted (relisted : docs.Relisted docs') (templates : FilePath)
    (options : Options) : check docs' templates options = check docs templates options := by
  have sameFindings : findings docs' = findings docs := by
    funext templates options category name
    rw [findings, findings, Docs.copyPath, Docs.copyPath, relisted.path, relisted.disk.isPresent,
      relisted.disk.differ]
  have sameCategory : categoryFindings docs' = categoryFindings docs := by
    funext templates options category
    rw [categoryFindings, categoryFindings, Templates.hasCategory_relisted relisted.disk,
      relisted.disk.templateNames, sameFindings]
  rw [check, check, sameCategory]

namespace LanguageFolders

variable {folder : String} {path : FilePath} {languages : List String}

theorem filesOf_relisted (relisted : docs.Relisted docs') :
    Layout.filesOf ⟨docs', folder, path, languages⟩ =
      Layout.filesOf ⟨docs, folder, path, languages⟩ := by
  funext language
  rw [Layout.filesOf, Layout.filesOf]
  refine (Agree.eq ((relisted.disk.node? _).bind ?_)).symm
  rintro _ _ (same | _)
  · exact .ok (markdownFiles_relisted same).symm
  · exact .ok rfl

theorem isStale_relisted (relisted : docs.Relisted docs') :
    Layout.isStale ⟨docs', folder, path, languages⟩ =
      Layout.isStale ⟨docs, folder, path, languages⟩ := by
  funext source file
  rw [Layout.isStale, Layout.isStale, relisted.path, relisted.disk.readBytes]
  refine (Agree.eq ((relisted.disk.node? _).bind ?_)).symm
  rintro _ _ (⟨same⟩ | _)
  · rename_i node node'
    have standing := same.standing
    cases node <;> cases node' <;> cases standing <;> exact .refl (fun _ => rfl) _
  · exact .ok rfl

theorem findings_relisted (relisted : docs.Relisted docs') :
    Layout.findings ⟨docs', folder, path, languages⟩ =
      Layout.findings ⟨docs, folder, path, languages⟩ := by
  have sameCoverage : Layout.coverage ⟨docs', folder, path, languages⟩ =
      Layout.coverage ⟨docs, folder, path, languages⟩ := by
    funext source files target
    rw [Layout.coverage, Layout.coverage, filesOf_relisted relisted]
    rfl
  have sameComparisons : Layout.comparisons ⟨docs', folder, path, languages⟩ =
      Layout.comparisons ⟨docs, folder, path, languages⟩ := by
    funext source files language
    simp only [Layout.comparisons, Layout.languagePath, relisted.disk.isPresent,
      relisted.disk.readText]
  funext languages source
  rw [Layout.findings, Layout.findings, filesOf_relisted relisted, isStale_relisted relisted,
    sameCoverage, sameComparisons]
  rfl

theorem check_relisted (relisted : docs.Relisted docs') (languages : Option Languages) :
    check docs' languages = check docs languages := by
  cases languages with
  | none => rfl
  | some languages =>
    change checkLanguages docs' languages = checkLanguages docs languages
    rw [checkLanguages, checkLanguages, relisted.path, relisted.disk.isPresent,
      relisted.disk.visibleFolders]
    simp only [findings_relisted relisted]
    rfl

end LanguageFolders

/-! ## Every rule -/

namespace Rule

variable {input : Input} {templates : FilePath}

theorem applies_relisted (relisted : input.docs.Relisted docs') (rule : Rule) :
    rule.applies { input with docs := docs' } = rule.applies input := by
  cases rule <;> first | rfl | exact congrFun relisted.disk.hasFolder input.templates

theorem check_relisted (relisted : input.docs.Relisted docs') (rule : Rule)
    (options : rule.Options) :
    rule.check options { input with docs := docs' } = rule.check options input := by
  cases rule with
  | brokenLinks => exact BrokenLinks.check_relisted relisted options
  | legacyFileNames => exact LegacyFileNames.check_relisted relisted options
  | versionInfo =>
    exact congrArg (· >>= _) (Markers.missing_relisted relisted options)
  | relatedDocuments =>
    exact congrArg (· >>= _) (Markers.missing_relisted relisted options)
  | headingHierarchy => exact relisted.inEachDocument _ _
  | todoComments => exact TodoComments.check_relisted relisted options
  | codeBlockLanguage => exact relisted.inEachDocument _ _
  | orphanDocuments => exact OrphanDocuments.check_relisted relisted options
  | terminology => exact Terminology.check_relisted relisted input.terms
  | bidirectionalRefs => exact BackReferences.check_relisted relisted
  | i18nStructure => exact LanguageFolders.check_relisted relisted input.languages
  | standardsDrift => exact StandardsDrift.check_relisted relisted input.templates options
  | requiredFiles => exact RequiredFiles.check_relisted relisted input.requiredFiles
  | standardFolderStructure => exact FolderStructure.check_relisted relisted _
  | folderNumbering => exact FolderNumbering.check_relisted relisted options
  | fileNaming => rfl
  | duplicateContent => exact DuplicateTitles.check_relisted relisted
  | standardFileNames => rfl
  | requirementTestMapping => exact Traceability.check_relisted relisted options

end Rule

end DocAudit
