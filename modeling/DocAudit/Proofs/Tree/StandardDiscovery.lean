import DocAudit.Docs
import DocAudit.Proofs.Faults
import DocAudit.Proofs.Glob.Parts
import Mathlib

/-!
What discovery lists. Globs that are texts select files without a fault. With the standard globs,
where no name holds a line feed, these are the documents that neither a hidden name nor one that
sets aside leads to. Globs do not see folders over a line feed, so such names make exceptions in
both directions.
-/

namespace DocAudit

/-! ## Selection by globs -/

theorem Value.anyGlobMatches_ofTexts (globs : List String) (path : String) :
    (Value.ofTexts globs).anyGlobMatches path = .ok (globs.any (Glob.matchesPath · path)) := by
  have asMapped : (Value.ofTexts globs).anyGlobMatches path =
      (globs.map Value.text).anyM (·.matchesGlob path) := rfl
  rw [asMapped]
  apply anyM_map_eq_ok_any
  exact fun _ => rfl

namespace Discovery

/-- Whether a file is taken in by some glob and left out by none. -/
def IsChosen (included excluded : List String) (file : String) : Bool :=
  included.any (Glob.matchesPath · file) && !excluded.any (Glob.matchesPath · file)

/-- The visible files that are taken in and not left out, in order and each once. -/
def chosen (included excluded : List String) (node : Node) : List String :=
  Disk.sortedNames ((visibleFiles node).filter (IsChosen included excluded)).eraseDups

theorem isSelected_ofTexts (included excluded : List String) (file : String) :
    isSelected (.ofTexts included) (.ofTexts excluded) file =
      .ok (IsChosen included excluded file) := by
  rw [isSelected, Value.anyGlobMatches_ofTexts, Value.anyGlobMatches_ofTexts, IsChosen]
  cases included.any (Glob.matchesPath · file) <;> rfl

theorem select_ofTexts (included excluded : List String) (node : Node) :
    select (.ofTexts included) (.ofTexts excluded) node = .ok (chosen included excluded node) := by
  rw [select, funext (isSelected_ofTexts included excluded),
    filterM_eq_ok_iff.mpr ⟨fun _ _ => .ok _, rfl⟩]
  rfl

end Discovery

/-! ## Files in order -/

theorem nodup_eraseDups {α : Type} [BEq α] [LawfulBEq α] (items : List α) :
    items.eraseDups.Nodup := by
  induction length : items.length using Nat.strong_induction_on generalizing items with
  | _ count induction =>
    subst length
    cases items with
    | nil => simp
    | cons item rest =>
      rw [List.eraseDups_cons, List.nodup_cons, List.mem_eraseDups]
      refine ⟨by simp, induction _ ?_ _ rfl⟩
      exact Nat.lt_succ_of_le (List.length_filter_le _ rest)

theorem Disk.pairwise_le_sortedNames (names : List String) :
    (sortedNames names).Pairwise (· ≤ ·) := by
  have ordered : (sortedNames names).Pairwise fun left right => lessOrEqual left right = true := by
    apply List.pairwise_mergeSort
    · simp only [lessOrEqual, decide_eq_true_eq]
      exact fun _ _ _ => String.le_trans
    · simp only [lessOrEqual, Bool.or_eq_true, decide_eq_true_eq]
      exact String.le_total
  exact ordered.imp of_decide_eq_true

theorem Disk.pairwise_lt_sortedNames {names : List String} (distinct : names.Nodup) :
    (sortedNames names).Pairwise (· < ·) := by
  have unequal : (sortedNames names).Pairwise (· ≠ ·) :=
    distinct.perm (List.mergeSort_perm names lessOrEqual).symm
  exact (pairwise_le_sortedNames names).imp₂ (fun _ _ => lt_of_le_of_ne) unequal

/-- Names are single parts of a path, as every file system has them. -/
def Node.HasSlashlessNames (node : Node) : Prop :=
  ∀ file ∈ node.files, ∀ part ∈ file.1, '/' ∉ part.toList

namespace Discovery

open Glob FilePath

/-- A document that no name hides or sets aside, its own name included. -/
structure IsOpenDocument (folders : List String) (name : String) : Prop where
  markdown : EndsInMd name
  visible : ∀ part ∈ folders ++ [name], isHidden part = false
  current : ∀ part ∈ folders ++ [name], ¬ IsSetAside part

/-- What the standard globs make of this: they do not reach a document below a folder whose name has
two lines, and folders that are set aside do not count for one whose own name has. -/
structure IsListed (folders : List String) (name : String) : Prop where
  markdown : EndsInMd name
  visible : ∀ part ∈ folders ++ [name], isHidden part = false
  reached : ∀ folder ∈ folders, '\n' ∉ folder.toList
  current : ¬ IsSetAside name
  currentFolders : ∀ folder ∈ folders, IsSetAside folder → '\n' ∈ name.toList

theorem isListed_iff_of_inLine {folders : List String} {name : String}
    (inLine : ∀ part ∈ folders ++ [name], '\n' ∉ part.toList) :
    IsListed folders name ↔ IsOpenDocument folders name := by
  rw [List.forall_mem_append, List.forall_mem_singleton] at inLine
  constructor
  · intro listed
    refine ⟨listed.markdown, listed.visible, ?_⟩
    rw [List.forall_mem_append, List.forall_mem_singleton]
    exact ⟨fun folder member aside => inLine.2 (listed.currentFolders folder member aside),
      listed.current⟩
  · intro isOpen
    have current := isOpen.current
    rw [List.forall_mem_append, List.forall_mem_singleton] at current
    exact ⟨isOpen.markdown, isOpen.visible, inLine.1, current.2,
      fun folder member aside => absurd aside (current.1 folder member)⟩

theorem isChosen_iff {folders : List String} {name : String}
    (slashless : ∀ part ∈ folders ++ [name], '/' ∉ part.toList) :
    IsChosen defaultIncluded defaultExcluded (joinSlashes (folders ++ [name])) = true ↔
      EndsInMd name ∧ (∀ folder ∈ folders, '\n' ∉ folder.toList) ∧ ¬ IsSetAside name ∧
        ∀ folder ∈ folders, IsSetAside folder → '\n' ∈ name.toList := by
  have nonempty : folders ++ [name] ≠ [] := by simp
  simp only [IsChosen, defaultIncluded, defaultExcluded, List.any_cons, List.any_nil, Bool.or_false,
    Bool.and_eq_true, Bool.not_eq_true', ← Bool.not_eq_true, Bool.or_eq_true, not_or,
    matchesPath_markdown_iff nonempty slashless, matchesPath_setAsideFolder_iff nonempty slashless,
    matchesPath_setAsideFile_iff nonempty slashless]
  constructor
  · rintro ⟨⟨others, other, same, markdown, inLine⟩, noFolder, noFile⟩
    obtain ⟨rfl, rfl⟩ : folders = others ∧ name = other := by simpa using same
    refine ⟨markdown, inLine, fun aside => noFile ⟨_, _, rfl, aside, markdown, inLine⟩, ?_⟩
    intro folder member aside
    obtain ⟨above, below, rfl⟩ := List.append_of_mem member
    by_contra onLine
    refine noFolder ⟨above, folder, below ++ [name], by simp, by simp, aside, ?_⟩
    intro part among
    simp only [List.mem_append, List.mem_singleton] at among
    rcases among with above' | below' | rfl
    · exact inLine part (by simp [above'])
    · exact inLine part (by simp [below'])
    · exact onLine
  · rintro ⟨markdown, inLine, current, currentFolders⟩
    refine ⟨⟨folders, name, rfl, markdown, inLine⟩, ?_, ?_⟩
    · rintro ⟨above, folder, below, same, someBelow, aside, onLine⟩
      obtain ⟨further, last, rfl⟩ := List.eq_nil_or_concat below |>.resolve_left someBelow
      have cut : folders ++ [name] = (above ++ folder :: further) ++ [last] := by simpa using same
      obtain ⟨rfl, sameName⟩ := List.append_inj' cut rfl
      obtain rfl := List.singleton_injective sameName
      exact onLine _ (by simp) (currentFolders folder (by simp) aside)
    · rintro ⟨others, other, same, aside, -⟩
      obtain ⟨rfl, rfl⟩ : folders = others ∧ name = other := by simpa using same
      exact current aside

/-- What a list of discovered files is made of. -/
structure ListsDocuments (node : Node) (files : List String) : Prop where
  increasing : files.Pairwise (· < ·)
  exactly : ∀ file, file ∈ files ↔ ∃ folders name content,
    (folders ++ [name], content) ∈ node.files ∧ file = joinSlashes (folders ++ [name]) ∧
      IsListed folders name
  inLine : ∀ folders name content, (folders ++ [name], content) ∈ node.files →
    (∀ part ∈ folders ++ [name], '\n' ∉ part.toList) →
      (joinSlashes (folders ++ [name]) ∈ files ↔ IsOpenDocument folders name)

variable {node : Node}

theorem mem_visibleFiles {file : String} :
    file ∈ visibleFiles node ↔ ∃ parts content, (parts, content) ∈ node.files ∧
      (∀ part ∈ parts, isHidden part = false) ∧ file = joinSlashes parts := by
  simp only [visibleFiles, List.mem_map, List.mem_filter, Bool.not_eq_true', List.any_eq_false,
    Bool.not_eq_true, Prod.exists, and_assoc, eq_comm (a := file)]

theorem mem_chosen {included excluded : List String} {file : String} :
    file ∈ chosen included excluded node ↔
      file ∈ visibleFiles node ∧ IsChosen included excluded file = true := by
  rw [chosen, Disk.sortedNames, List.mem_mergeSort, List.mem_eraseDups, List.mem_filter]

/-- Only what is no folder has a path without parts. -/
theorem exists_eq_append_of_mem_files {entries : List (String × Node)} {parts : List String}
    {content : ByteArray} (member : (parts, content) ∈ (Node.folder entries).files) :
    ∃ folders name, parts = folders ++ [name] := by
  have nonempty : parts ≠ [] := by
    rw [Node.files] at member
    induction entries with
    | nil => cases member
    | cons entry rest induction =>
      rw [Node.filesOf, List.mem_append] at member
      rcases member with first | later
      · obtain ⟨below, -, same⟩ := List.mem_map.mp first
        rw [← (Prod.mk.inj same).1]
        exact List.cons_ne_nil _ _
      · exact induction later
  exact ⟨parts.dropLast, parts.getLast nonempty, (List.dropLast_append_getLast nonempty).symm⟩

/-- A path tells its parts. -/
theorem joinSlashes_inj {parts others : List String} (nonempty : parts ≠ [])
    (othersNonempty : others ≠ []) (slashless : ∀ part ∈ parts, '/' ∉ part.toList)
    (othersSlashless : ∀ part ∈ others, '/' ∉ part.toList)
    (same : joinSlashes parts = joinSlashes others) : parts = others := by
  have texts := congrArg String.toList same
  simp only [joinSlashes, String.toList_intercalate] at texts
  have cut := congrArg (List.splitOn '/') texts
  rw [show "/".toList = ['/'] from rfl, List.splitOn_intercalate, List.splitOn_intercalate] at cut
  · exact List.map_injective_iff.mpr (fun _ _ => String.toList_inj.mp) cut
  all_goals simpa

theorem listsDocuments_chosen {entries : List (String × Node)}
    (named : (Node.folder entries).HasSlashlessNames) :
    ListsDocuments (.folder entries)
      (chosen defaultIncluded defaultExcluded (.folder entries)) := by
  have listed (file : String) : file ∈ chosen defaultIncluded defaultExcluded (.folder entries) ↔
      ∃ folders name content, (folders ++ [name], content) ∈ (Node.folder entries).files ∧
        file = joinSlashes (folders ++ [name]) ∧ IsListed folders name := by
    rw [mem_chosen, mem_visibleFiles]
    constructor
    · rintro ⟨⟨parts, content, member, visible, rfl⟩, isChosen⟩
      obtain ⟨folders, name, rfl⟩ := exists_eq_append_of_mem_files member
      obtain ⟨markdown, reached, current, currentFolders⟩ :=
        (isChosen_iff (named _ member)).mp isChosen
      exact ⟨folders, name, content, member, rfl, markdown, visible, reached, current,
        currentFolders⟩
    · rintro ⟨folders, name, content, member, rfl, listed⟩
      exact ⟨⟨_, content, member, listed.visible, rfl⟩, (isChosen_iff (named _ member)).mpr
        ⟨listed.markdown, listed.reached, listed.current, listed.currentFolders⟩⟩
  refine ⟨Disk.pairwise_lt_sortedNames (nodup_eraseDups _), listed, ?_⟩
  intro folders name content member inLine
  rw [listed, ← isListed_iff_of_inLine inLine]
  constructor
  · rintro ⟨others, other, _, otherMember, same, listed⟩
    have sameParts :=
        joinSlashes_inj (by simp) (by simp) (named _ member) (named _ otherMember) same
    obtain ⟨rfl, rfl⟩ : folders = others ∧ name = other := by simpa using sameParts
    exact listed
  · exact fun listed => ⟨folders, name, content, member, rfl, listed⟩

/-- Below a docs folder, discovery with the standard globs lists each open document once and in
order. Names of two lines are the only exceptions, and it is told which. -/
theorem discoverDefault_lists_documents {docs : Docs} {entries : List (String × Node)}
    (found : docs.disk.node? docs.root = .ok (some (.folder entries)))
    (named : (Node.folder entries).HasSlashlessNames) :
    ∃ files, docs.discoverDefault = .ok files ∧ ListsDocuments (.folder entries) files := by
  refine ⟨_, ?_, listsDocuments_chosen named⟩
  rw [Docs.discoverDefault, Docs.discover, found]
  exact select_ofTexts defaultIncluded defaultExcluded (.folder entries)

theorem discoverDefault_lists_documents_guide :
    let entries : List (String × Node) :=
      [("guide", .folder
          [("a.md", .file (Text.encode ['A'])), ("_b.md", .file (Text.encode ['B']))]),
        ("_old", .folder [("c.md", .file (Text.encode ['C']))])]
    let docs : Docs := ⟨⟨.folder [("docs", .folder entries)], []⟩, .fromTop ["docs"]⟩
    docs.disk.node? docs.root = .ok (some (.folder entries)) ∧
      (Node.folder entries).HasSlashlessNames ∧
      ∃ files, docs.discoverDefault = .ok files ∧ ListsDocuments (.folder entries) files := by
  intro entries docs
  have found : docs.disk.node? docs.root = .ok (some (.folder entries)) := by cbv
  have named : (Node.folder entries).HasSlashlessNames := by
    simp [Node.HasSlashlessNames, entries, Node.files, Node.filesOf]
  exact ⟨found, named, discoverDefault_lists_documents found named⟩

/-- A draft with a name of two lines is listed, and a document below a folder with one is not. -/
theorem discoverDefault_names_of_two_lines :
    let docs : Docs :=
      { disk :=
          { root := .folder
              [("docs", .folder
                [("_drafts", .folder [("a\nb.md", .file (Text.encode ['#', ' ', 'A', '\n']))]),
                  ("c\nd", .folder [("e.md", .file (Text.encode ['#', ' ', 'E', '\n']))])])]
            workingFolder := [] }
        root := .fromTop ["docs"] }
    docs.discoverDefault = .ok ["_drafts/a\nb.md"] ∧
      IsOpenDocument ["c\nd"] "e.md" ∧ ¬ IsOpenDocument ["_drafts"] "a\nb.md" := by
  intro docs
  refine ⟨by cbv, ⟨⟨['e'], rfl⟩, by decide, ?_⟩, fun isOpen => ?_⟩
  · simp [IsSetAside]
  · exact isOpen.current "_drafts" (by simp) rfl

end Discovery

end DocAudit
