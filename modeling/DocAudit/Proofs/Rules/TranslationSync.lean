import DocAudit.Proofs.Tree.BelowFolder
import DocAudit.Rules.LanguageFolders

/-!
What is told of a target language when its folder is compared with that of the source. The files of
the two folders fall into three classes: those that only the source has are missing, those that only
the target has are stray, and those that both have are compared. Missing and stray ones are told by
listing both folders, the others are found by their paths, and the two ways agree.
-/

namespace DocAudit

namespace LanguageFolders

open Discovery (isHidden)
open Glob (EndsInMd)

variable {entries : List (String × Node)} {node inSource inTarget : Node}
  {parts files : List String}
  {file folder language source : String} {content : ByteArray} {text : List Char}

/-! ## Listings -/

/-- A visible Markdown file at or below a node, by its path from there. -/
def IsMarkdown (node : Node) (file : String) (content : ByteArray) : Prop :=
  ∃ parts, (parts, content) ∈ node.files ∧ (∀ part ∈ parts, isHidden part = false) ∧
    file = FilePath.joinSlashes parts ∧ EndsInMd file

/-- All visible Markdown files, in their order and each of them once. -/
structure ListsMarkdown (node : Node) (files : List String) : Prop where
  inOrder : files.Pairwise (· < ·)
  complete : ∀ file, file ∈ files ↔ ∃ content, IsMarkdown node file content

/-- The text of a visible Markdown file. -/
def HasText (node : Node) (file : String) (text : List Char) : Prop :=
  ∃ content decoded, IsMarkdown node file content ∧ Text.decode content = .ok decoded ∧
    text = Text.unifyNewlines decoded

theorem mem_markdownFiles_iff :
    file ∈ markdownFiles node ↔ ∃ content, IsMarkdown node file content := by
  rw [markdownFiles, Disk.sortedNames, List.mem_mergeSort, List.mem_filter,
    Discovery.mem_visibleFiles, Text.endsWith, List.isSuffixOf_iff_suffix]
  constructor
  · rintro ⟨⟨parts, content, inside, visible, written⟩, markdown⟩
    exact ⟨content, parts, inside, visible, written, markdown⟩
  · rintro ⟨content, parts, inside, visible, written, markdown⟩
    exact ⟨⟨parts, content, inside, visible, written⟩, markdown⟩

theorem eq_of_joinSlashes_eq (named : (Node.folder entries).IsNamed) {parts parts' : List String}
    {content content' : ByteArray} (member : (parts, content) ∈ (Node.folder entries).files)
    (member' : (parts', content') ∈ (Node.folder entries).files)
    (same : FilePath.joinSlashes parts = FilePath.joinSlashes parts') : parts = parts' := by
  have slashless {parts : List String} {content : ByteArray}
      (member : (parts, content) ∈ (Node.folder entries).files) :
      parts ≠ [] ∧ ∀ part ∈ parts, '/' ∉ part.toList := by
    obtain ⟨folders, name, rfl⟩ := Discovery.exists_eq_append_of_mem_files member
    exact ⟨by simp, fun part among =>
      (named.plain _ _ (named.of_mem_files member) part among).slashless⟩
  exact Discovery.joinSlashes_inj (slashless member).1 (slashless member').1 (slashless member).2
    (slashless member').2 same

theorem listsMarkdown_markdownFiles (named : (Node.folder entries).IsNamed) :
    ListsMarkdown (.folder entries) (markdownFiles (.folder entries)) where
  inOrder := by
    refine Disk.pairwise_lt_sortedNames (List.Nodup.filter _ ?_)
    refine List.Nodup.map_on ?_ ((Node.nodup_files _ named.distinct).filter _)
    rintro ⟨parts, content⟩ member ⟨parts', content'⟩ member' same
    have inside := List.mem_of_mem_filter member
    have inside' := List.mem_of_mem_filter member'
    obtain rfl := eq_of_joinSlashes_eq named inside inside' same
    have found := (named.of_mem_files inside).symm.trans (named.of_mem_files inside')
    rw [Option.some.injEq, Node.file.injEq] at found
    rw [found]
  complete _ := mem_markdownFiles_iff

/-- The parts of a path to a visible Markdown file. -/
structure LeadsToMarkdown (file : String) (parts : List String) : Prop where
  nonempty : parts ≠ []
  written : file = FilePath.joinSlashes parts
  plain : ∀ part ∈ parts, IsPlainPart part
  withoutNul : ∀ part ∈ parts, '\x00' ∉ part.toList
  visible : ∀ part ∈ parts, isHidden part = false
  markdown : EndsInMd file

theorem exists_leadsToMarkdown (named : (Node.folder entries).IsNamed)
    (isMarkdown : IsMarkdown (.folder entries) file content) :
    ∃ parts, LeadsToMarkdown file parts := by
  obtain ⟨parts, inside, visible, rfl, markdown⟩ := isMarkdown
  have found := named.of_mem_files inside
  obtain ⟨folders, name, rfl⟩ := Discovery.exists_eq_append_of_mem_files inside
  exact ⟨_, by simp, rfl, named.plain _ _ found, named.withoutNul _ _ found, visible, markdown⟩

/-- Such a path tells whether there is a file, and which one. -/
theorem LeadsToMarkdown.isMarkdown_iff (leads : LeadsToMarkdown file parts)
    (named : (Node.folder entries).IsNamed) :
    IsMarkdown (.folder entries) file content ↔
      (Node.folder entries).descend parts = some (.file content) := by
  constructor
  · rintro ⟨parts', inside, -, written, -⟩
    have slashless : ∀ part ∈ parts', '/' ∉ part.toList := fun part member =>
      (named.plain _ _ (named.of_mem_files inside) part member).slashless
    obtain ⟨folders, name, rfl⟩ := Discovery.exists_eq_append_of_mem_files inside
    have same := Discovery.joinSlashes_inj leads.nonempty (by simp)
      (fun part member => (leads.plain part member).slashless) slashless
      (leads.written.symm.trans written)
    rw [same]
    exact named.of_mem_files inside
  · intro found
    exact ⟨parts, Node.mem_files_of_descend found, leads.visible, leads.written, leads.markdown⟩

/-! ## Languages -/

/-- The folder of a language. -/
structure IsLanguage (entries : List (String × Node)) (language : String) (node : Node) : Prop where
  listed : (language, node) ∈ entries
  isFolder : node.isFolder = true
  visible : isHidden language = false

/-- What is told of a target language that has a folder. -/
structure SyncReport (folder source language : String) (inSource inTarget : Node)
    (covered compared : List Issue) : Prop where
  partition : ∃ (files present : List String) (left right : String → List Char),
    ListsMarkdown inSource files ∧ ListsMarkdown inTarget present ∧
    (∀ file ∈ files, file ∈ present →
      HasText inSource file (left file) ∧ HasText inTarget file (right file)) ∧
    covered = (files.filter (· ∉ present)).map (missingCopy folder source language) ++
      (present.filter (· ∉ files)).map (strayCopy folder source language) ∧
    compared = (files.filter (· ∈ present)).flatMap fun file =>
      comparison s!"{folder}/{language}/{file}" (left file) (right file)
  inSync : (∀ file content, IsMarkdown inSource file content ↔ IsMarkdown inTarget file content) →
    covered = [] ∧ compared = []

/-- What is told of a target, as it is compared with the source. -/
structure TargetReport (folder source : String) (entries : List (String × Node)) (inSource : Node)
    (target : Value) (covered compared : List Issue) : Prop where
  withoutFolder : (∀ language inTarget, IsLanguage entries language inTarget →
    target ≠ .text language) → covered = [missingTarget folder target.plain] ∧ compared = []
  withFolder : ∀ language inTarget, target = .text language →
    IsLanguage entries language inTarget →
      SyncReport folder source language inSource inTarget covered compared

/-- All that is told: of invalid names, of each target, and of outdated files. -/
def ReportsSync (languages : Languages) (folder source : String)
    (entries : List (String × Node)) (inSource : Node) (issues : List Issue) : Prop :=
  ∃ (invalid outdated : List String) (covered compared : Value → List Issue),
    issues = invalid.map (invalidFolder folder) ++ (languages.targets.flatMap covered ++
      outdated.map (staleCopy folder source) ++ languages.targets.flatMap compared) ∧
    (∀ name, name ∈ invalid ↔
      isLanguageFolder name = false ∧ ∃ node, IsLanguage entries name node) ∧
    (∀ file ∈ outdated, ∃ content, IsMarkdown inSource file content) ∧
    ∀ target ∈ languages.targets,
      TargetReport folder source entries inSource target (covered target) (compared target)

namespace Layout

variable {layout : Layout}

/-- The languages of a layout are those that have a folder. -/
structure Stands (layout : Layout) (entries : List (String × Node)) : Prop where
  reached : layout.docs.disk.node? layout.path = .ok (some (.folder entries))
  named : (Node.folder entries).IsNamed
  languages : layout.docs.disk.visibleFolders layout.path = .ok layout.languages

namespace Stands

theorem mem_languages_iff (stands : layout.Stands entries) :
    language ∈ layout.languages ↔ ∃ node, IsLanguage entries language node := by
  obtain ⟨place, found⟩ := Disk.node?_eq_some_iff.mp stands.reached
  have read : layout.docs.disk.entries layout.path = .ok entries := by rw [Disk.entries, found]
  have listed := stands.languages
  rw [Disk.visibleFolders, read] at listed
  rw [← Except.ok.inj listed, Disk.sortedNames, List.mem_mergeSort]
  simp only [List.mem_map, List.mem_filter, Prod.exists, exists_eq_right, exists_and_right,
    Bool.and_eq_true]
  constructor
  · rintro ⟨node, listed, isFolder, visible⟩
    exact ⟨node, listed, isFolder, Bool.not_eq_true' _ ▸ visible⟩
  · rintro ⟨node, listed, isFolder, visible⟩
    exact ⟨node, listed, isFolder, by rw [bne, ← isHidden, visible]; rfl⟩

theorem language?_eq_some_iff (stands : layout.Stands entries) {value : Value} :
    layout.language? value = some language ↔
      value = .text language ∧ ∃ node, IsLanguage entries language node := by
  rw [← stands.mem_languages_iff, language?]
  constructor
  · intro found
    exact ⟨Value.isText_iff.mp (List.find?_some found), List.mem_of_find?_eq_some found⟩
  · rintro ⟨rfl, member⟩
    have known : (layout.languages.find? ((Value.text language).isText ·)).isSome = true :=
      List.find?_isSome.mpr ⟨language, member, Value.isText_iff.mpr rfl⟩
    obtain ⟨other, found⟩ := Option.isSome_iff_exists.mp known
    rw [found, Value.text.inj (Value.isText_iff.mp (List.find?_some found))]

theorem descend (stands : layout.Stands entries) (isLanguage : IsLanguage entries language node)
    (parts : List String) :
    (Node.folder entries).descend (language :: parts) = node.descend parts := by
  have distinct := stands.named.distinct
  rw [Node.HasDistinctNames] at distinct
  rw [Node.descend, (lookup_iff_mem distinct.1).mpr isLanguage.listed, Option.bind_some]

theorem isNamed (stands : layout.Stands entries) (isLanguage : IsLanguage entries language node) :
    node.IsNamed :=
  stands.named.descend (stands.descend isLanguage [])

/-- What a path from the folder of a language finds is what stands in it. -/
theorem eq_descend (stands : layout.Stands entries) (isLanguage : IsLanguage entries language node)
    (plain : ∀ part ∈ parts, IsPlainPart part) (withoutNul : ∀ part ∈ parts, '\x00' ∉ part.toList)
    {result : Option Node}
    (found : layout.docs.disk.node? ((layout.languagePath language).extend parts) = .ok result) :
    result = node.descend parts := by
  have descended := stands.descend isLanguage []
  have isPlain := stands.named.plain _ _ descended
  have path : layout.languagePath language = layout.path.extend [language] := by
    have child := FilePath.child_joinSlashes isPlain layout.path
    rwa [FilePath.joinSlashes, String.intercalate_singleton] at child
  rw [path, FilePath.extend_extend] at found
  rw [← stands.descend isLanguage]
  refine Disk.eq_descend_of_node? stands.reached ?_ ?_ found
  · rw [List.mem_cons, not_or]
    exact ⟨(isPlain language (List.mem_singleton_self language)).notAbove.symm,
      fun above => (plain _ above).notAbove rfl⟩
  · rw [List.forall_mem_cons]
    exact ⟨stands.named.withoutNul _ _ descended language (List.mem_singleton_self language),
      withoutNul⟩

theorem filesOf_eq (stands : layout.Stands entries) (isLanguage : IsLanguage entries language node)
    (listed : layout.filesOf language = .ok files) : files = markdownFiles node := by
  obtain ⟨result, found, listed⟩ := exists_of_bind_eq_ok listed
  rw [← FilePath.extend_nil (layout.languagePath language)] at found
  obtain rfl := stands.eq_descend isLanguage (List.forall_mem_nil _) (List.forall_mem_nil _) found
  exact (Except.ok.inj listed).symm

theorem hasText_of_readText {inner : List (String × Node)} (stands : layout.Stands entries)
    (isLanguage : IsLanguage entries language (.folder inner)) (leads : LeadsToMarkdown file parts)
    (read : layout.docs.disk.readText ((layout.languagePath language).child file) = .ok text) :
    HasText (.folder inner) file text := by
  rw [leads.written, FilePath.child_joinSlashes leads.plain] at read
  obtain ⟨content, decoded, found, isDecoded, isText⟩ := Disk.exists_of_readText read
  have below := stands.eq_descend isLanguage leads.plain leads.withoutNul found
  exact ⟨content, decoded, (leads.isMarkdown_iff (stands.isNamed isLanguage)).mpr below.symm,
    isDecoded, isText⟩

/-- A file that is listed is found by its path. -/
theorem isPresent_of_isMarkdown {inner : List (String × Node)} (stands : layout.Stands entries)
    (isLanguage : IsLanguage entries language (.folder inner)) (leads : LeadsToMarkdown file parts)
    (isMarkdown : IsMarkdown (.folder inner) file content) {answer : Bool}
    (asked : layout.docs.disk.isPresent ((layout.languagePath language).child file) = .ok answer) :
    answer = true := by
  rw [leads.written, FilePath.child_joinSlashes leads.plain] at asked
  obtain ⟨result, found, answered⟩ := exists_of_bind_eq_ok asked
  have below := stands.eq_descend isLanguage leads.plain leads.withoutNul found
  rw [(leads.isMarkdown_iff (stands.isNamed isLanguage)).mp isMarkdown] at below
  rw [← Except.ok.inj answered, below]
  rfl

end Stands

/-! ## Comparisons -/

/-- The text of a document of a language, and nothing if it cannot be read. -/
def textOf (layout : Layout) (language file : String) : List Char :=
  (layout.docs.disk.readText ((layout.languagePath language).child file)).toOption.getD []

theorem textOf_eq
    (read : layout.docs.disk.readText ((layout.languagePath language).child file) = .ok text) :
    layout.textOf language file = text := by
  rw [textOf, read]
  rfl

/-- Differences between one document of the source language and its copy. -/
def differences (layout : Layout) (source language file : String) : Except Fault (List Issue) := do
  let disk := layout.docs.disk
  let copy := (layout.languagePath language).child file
  if ← disk.isPresent copy then
    let text ← disk.readText ((layout.languagePath source).child file)
    return comparison s!"{layout.folder}/{language}/{file}" text (← disk.readText copy)
  return []

theorem comparisons_eq (layout : Layout) (source : String) (files : List String)
    (language : String) :
    layout.comparisons source files language =
      Docs.inEach files (layout.differences source language) :=
  rfl

/-- A document is compared with its copy exactly if the copy is a Markdown file of the target. -/
theorem Stands.differences_eq {inner below : List (String × Node)} (stands : layout.Stands entries)
    (isSource : IsLanguage entries source (.folder inner))
    (isTarget : IsLanguage entries language (.folder below)) (leads : LeadsToMarkdown file parts)
    {found : List Issue} (returned : layout.differences source language file = .ok found) :
    (file ∈ markdownFiles (.folder below) →
      HasText (.folder inner) file (layout.textOf source file) ∧
        HasText (.folder below) file (layout.textOf language file)) ∧
    found = if file ∈ markdownFiles (.folder below) then
      comparison s!"{layout.folder}/{language}/{file}" (layout.textOf source file)
        (layout.textOf language file) else [] := by
  obtain ⟨answer, asked, returned⟩ := exists_of_bind_eq_ok returned
  cases answer with
  | false =>
    have absent : file ∉ markdownFiles (.folder below) := by
      rw [mem_markdownFiles_iff]
      rintro ⟨content, isMarkdown⟩
      cases stands.isPresent_of_isMarkdown isTarget leads isMarkdown asked
    rw [if_neg absent]
    exact ⟨fun present => absurd present absent, (Except.ok.inj returned).symm⟩
  | true =>
    obtain ⟨left, readLeft, returned⟩ := exists_of_bind_eq_ok returned
    obtain ⟨right, readRight, returned⟩ := exists_of_bind_eq_ok returned
    have hasLeft := stands.hasText_of_readText isSource leads readLeft
    have hasRight := stands.hasText_of_readText isTarget leads readRight
    have present : file ∈ markdownFiles (.folder below) := by
      obtain ⟨content, -, isMarkdown, -⟩ := hasRight
      exact mem_markdownFiles_iff.mpr ⟨content, isMarkdown⟩
    rw [if_pos present, textOf_eq readLeft, textOf_eq readRight]
    exact ⟨fun _ => ⟨hasLeft, hasRight⟩, (Except.ok.inj returned).symm⟩

section target

variable {inner below : List (String × Node)} {found covered compared : List Issue} {target : Value}

theorem Stands.comparisons_eq (stands : layout.Stands entries)
    (isSource : IsLanguage entries source (.folder inner))
    (isTarget : IsLanguage entries language (.folder below))
    (returned : layout.comparisons source (markdownFiles (.folder inner)) language = .ok found) :
    (∀ file ∈ markdownFiles (.folder inner), file ∈ markdownFiles (.folder below) →
      HasText (.folder inner) file (layout.textOf source file) ∧
        HasText (.folder below) file (layout.textOf language file)) ∧
    found = ((markdownFiles (.folder inner)).filter (· ∈ markdownFiles (.folder below))).flatMap
      fun file => comparison s!"{layout.folder}/{language}/{file}" (layout.textOf source file)
        (layout.textOf language file) := by
  rw [Layout.comparisons_eq] at returned
  obtain ⟨all, rfl⟩ := flatten_mapM_foundBy.mp returned
  have each (file : String) (member : file ∈ markdownFiles (.folder inner)) :=
    show _ ∧ foundBy (layout.differences source language) file = _ from by
      obtain ⟨content, isMarkdown⟩ := mem_markdownFiles_iff.mp member
      obtain ⟨parts, leads⟩ := exists_leadsToMarkdown (stands.isNamed isSource) isMarkdown
      obtain ⟨result, succeeds⟩ := all file member
      rw [foundBy_of_ok succeeds]
      exact stands.differences_eq isSource isTarget leads succeeds
  refine ⟨fun file member => (each file member).1, ?_⟩
  rw [flatMap_filter]
  refine List.flatMap_congr fun file member => ?_
  simpa using (each file member).2

theorem Stands.coverage_eq (stands : layout.Stands entries)
    (isTarget : IsLanguage entries language node)
    (returned : layout.coverage source files (.text language) = .ok found) :
    found = (files.filter (· ∉ markdownFiles node)).map
        (missingCopy layout.folder source language) ++
      ((markdownFiles node).filter (· ∉ files)).map (strayCopy layout.folder source language) := by
  have isLanguage : layout.language? (.text language) = some language :=
    stands.language?_eq_some_iff.mpr ⟨rfl, node, isTarget⟩
  rw [coverage, isLanguage] at returned
  obtain ⟨present, listed, returned⟩ := exists_of_bind_eq_ok returned
  obtain rfl := stands.filesOf_eq isTarget listed
  rw [← Except.ok.inj returned]
  simp

end target

end Layout

/-! ## Reports -/

theorem comparison_self (label : String) (text : List Char) : comparison label text text = [] := by
  rw [comparison]
  cases version? text <;> simp

/-- Folders that hold the same documents, byte for byte, hold the same texts. -/
theorem HasText.eq_of_same {inner below : List (String × Node)} {other : List Char}
    (named : (Node.folder below).IsNamed)
    (same : ∀ file content, IsMarkdown (.folder inner) file content ↔
      IsMarkdown (.folder below) file content)
    (hasText : HasText (.folder inner) file text) (hasOther : HasText (.folder below) file other) :
    text = other := by
  obtain ⟨content, decoded, isMarkdown, isDecoded, rfl⟩ := hasText
  obtain ⟨content', decoded', isMarkdown', isDecoded', rfl⟩ := hasOther
  have copied := (same file content).mp isMarkdown
  obtain ⟨parts, leads⟩ := exists_leadsToMarkdown named copied
  have found := (leads.isMarkdown_iff named).mp copied
  rw [(leads.isMarkdown_iff named).mp isMarkdown', Option.some.injEq, Node.file.injEq] at found
  rw [found, isDecoded, Except.ok.injEq] at isDecoded'
  rw [isDecoded']

theorem syncReport_of_partition {inner below : List (String × Node)} {covered compared : List Issue}
    {left right : String → List Char} (named : (Node.folder inner).IsNamed)
    (named' : (Node.folder below).IsNamed)
    (texts : ∀ file ∈ markdownFiles (.folder inner), file ∈ markdownFiles (.folder below) →
      HasText (.folder inner) file (left file) ∧ HasText (.folder below) file (right file))
    (covers : covered =
      ((markdownFiles (.folder inner)).filter (· ∉ markdownFiles (.folder below))).map
          (missingCopy folder source language) ++
        ((markdownFiles (.folder below)).filter (· ∉ markdownFiles (.folder inner))).map
          (strayCopy folder source language))
    (compares : compared =
      ((markdownFiles (.folder inner)).filter (· ∈ markdownFiles (.folder below))).flatMap fun file =>
        comparison s!"{folder}/{language}/{file}" (left file) (right file)) :
    SyncReport folder source language (.folder inner) (.folder below) covered compared where
  partition := ⟨_, _, left, right, listsMarkdown_markdownFiles named,
    listsMarkdown_markdownFiles named', texts, covers, compares⟩
  inSync same := by
    have sameFiles : markdownFiles (.folder inner) = markdownFiles (.folder below) := by
      refine (listsMarkdown_markdownFiles named).inOrder.eq_of_mem_iff
        (listsMarkdown_markdownFiles named').inOrder fun file => ?_
      simp only [mem_markdownFiles_iff, same]
    constructor
    · rw [covers, sameFiles]
      simp
    · rw [compares, List.flatMap_eq_nil_iff]
      intro file member
      obtain ⟨inFirst, inSecond⟩ := List.mem_filter.mp member
      obtain ⟨hasLeft, hasRight⟩ := texts file inFirst (of_decide_eq_true inSecond)
      rw [hasLeft.eq_of_same named' same hasRight, comparison_self]

theorem IsLanguage.exists_eq_folder (isLanguage : IsLanguage entries language node) :
    ∃ inner, node = .folder inner := by
  cases node with
  | file content => cases isLanguage.isFolder
  | folder inner => exact ⟨inner, rfl⟩

/-- What is found of a target when its documents are compared, and nothing without a folder. -/
def Layout.comparedWith (layout : Layout) (source : String) (files : List String) (target : Value) :
    List Issue :=
  ((layout.language? target).map (foundBy (layout.comparisons source files))).getD []

theorem Layout.Stands.targetReport {layout : Layout} (stands : layout.Stands entries)
    (isSource : IsLanguage entries source inSource) {target : Value}
    (covers : Succeeds (layout.coverage source (markdownFiles inSource) target))
    (compares : ∀ language, layout.language? target = some language →
      Succeeds (layout.comparisons source (markdownFiles inSource) language)) :
    TargetReport layout.folder source entries inSource target
      (foundBy (layout.coverage source (markdownFiles inSource)) target)
      (layout.comparedWith source (markdownFiles inSource) target) where
  withoutFolder absent := by
    have noLanguage : layout.language? target = none := by
      rw [Option.eq_none_iff_forall_ne_some]
      intro language found
      obtain ⟨same, inTarget, isTarget⟩ := stands.language?_eq_some_iff.mp found
      exact absent language inTarget isTarget same
    have told : layout.coverage source (markdownFiles inSource) target =
        .ok [missingTarget layout.folder target.plain] := by
      rw [coverage, noLanguage]
      rfl
    rw [foundBy_of_ok told, comparedWith, noLanguage]
    exact ⟨rfl, rfl⟩
  withFolder := by
    rintro language inTarget rfl isTarget
    obtain ⟨inner, rfl⟩ := isSource.exists_eq_folder
    obtain ⟨below, rfl⟩ := isTarget.exists_eq_folder
    have isLanguage : layout.language? (.text language) = some language :=
      stands.language?_eq_some_iff.mpr ⟨rfl, _, isTarget⟩
    obtain ⟨covered, isCovered⟩ := covers
    obtain ⟨compared, isCompared⟩ := compares language isLanguage
    obtain ⟨texts, differences⟩ := stands.comparisons_eq isSource isTarget isCompared
    rw [foundBy_of_ok isCovered, comparedWith, isLanguage, Option.map_some, Option.getD_some,
      foundBy_of_ok isCompared]
    exact syncReport_of_partition (stands.isNamed isSource) (stands.isNamed isTarget) texts
      (stands.coverage_eq isTarget isCovered) differences

theorem Layout.findings_eq {layout : Layout} {languages : Languages}
    (asked : languages.checkSync = true)
    {issues : List Issue} (returned : layout.findings languages source = .ok issues) :
    ∃ files outdated : List String, layout.filesOf source = .ok files ∧ outdated.Sublist files ∧
      (∀ target ∈ languages.targets, Succeeds (layout.coverage source files target)) ∧
      (∀ target ∈ languages.targets, ∀ language, layout.language? target = some language →
        Succeeds (layout.comparisons source files language)) ∧
      issues = languages.targets.flatMap (foundBy (layout.coverage source files)) ++
        outdated.map (staleCopy layout.folder source) ++
          languages.targets.flatMap (layout.comparedWith source files) := by
  have steps : layout.findings languages source =
      layout.filesOf source >>= fun files =>
        languages.targets.mapM (layout.coverage source files) >>= fun covered =>
          files.filterM (layout.isStale source) >>= fun stale =>
            (languages.targets.filterMap layout.language?).mapM (layout.comparisons source files) >>=
              fun compared => .ok (covered.flatten ++ stale.map (staleCopy layout.folder source) ++
                compared.flatten) := by
    simp only [findings, asked, if_true]
    rfl
  rw [steps] at returned
  obtain ⟨files, listed, returned⟩ := exists_of_bind_eq_ok returned
  obtain ⟨covered, isCovered, returned⟩ := exists_of_bind_eq_ok returned
  obtain ⟨stale, isStale, returned⟩ := exists_of_bind_eq_ok returned
  obtain ⟨compared, isCompared, returned⟩ := exists_of_bind_eq_ok returned
  have among : stale.Sublist files := by
    rw [(filterM_eq_ok_iff.mp isStale).2]
    exact List.filter_sublist
  have both {α : Type} {run : α → Except Fault (List Issue)} {items : List α}
      {results : List (List Issue)} (read : items.mapM run = .ok results) :
      (∀ item ∈ items, Succeeds (run item)) ∧ results.flatten = items.flatMap (foundBy run) :=
    flatten_mapM_foundBy.mp (by rw [read]; rfl)
  obtain ⟨covers, sameCovered⟩ := both isCovered
  obtain ⟨compares, sameCompared⟩ := both isCompared
  refine ⟨files, stale, listed, among, covers, fun target member language found => ?_, ?_⟩
  · exact compares language (List.mem_filterMap.mpr ⟨target, member, found⟩)
  · rw [← Except.ok.inj returned, sameCovered, sameCompared, flatMap_filterMap]
    rfl

end LanguageFolders

end DocAudit
