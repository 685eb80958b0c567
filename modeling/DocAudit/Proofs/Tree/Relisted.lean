import DocAudit.Proofs.Outcome
import DocAudit.Proofs.Tree.Contents
import DocAudit.Rules.LanguageFolders
import DocAudit.Templates
import Mathlib

/-!
The same tree, listed in another order. A folder lists its entries in no order that could be relied
on, so disks are told apart by what stands where and by nothing else. What is asked by path has the
same answer on both disks, and what is listed has the same names, so it is the same once it has
been sorted.
-/

namespace DocAudit

namespace Node

variable {root root' node node' : Node} {entries entries' : List (String × Node)}

/-! ## Nodes -/

/-- The same stands at each place in both nodes. -/
structure Relisted (node node' : Node) : Prop where
  stands : node'.stands = node.stands
  distinct : node.HasDistinctNames
  distinct' : node'.HasDistinctNames

theorem stands_append (root : Node) (place rest : List String) :
    root.stands (place ++ rest) = (root.descend place).bind (·.stands rest) := by
  induction place generalizing root with
  | nil => rfl
  | cons name place induction =>
    cases root with
    | file content => rfl
    | folder entries =>
      rw [List.cons_append, stands_cons_folder, descend, Option.bind_assoc]
      exact congrArg _ (funext induction)

theorem mem_names_iff {name : String} :
    name ∈ entries.map (·.1) ↔ (entries.lookup name).isSome = true := by
  rw [← any_name_iff, List.any_eq_true, List.mem_map]
  simp only [beq_iff_eq]

namespace Relisted

theorem standing (relisted : Relisted node node') : node'.standing = node.standing :=
  Option.some.inj (congrFun relisted.stands [])

theorem isFolder (relisted : Relisted node node') : node'.isFolder = node.isFolder := by
  have same := relisted.standing
  cases node <;> cases node' <;> first | rfl | cases same

theorem isFile (relisted : Relisted node node') : node'.isFile = node.isFile := by
  rw [Node.isFile, relisted.isFolder, Node.isFile]

theorem descend (relisted : Relisted root root') (place : List String) :
    Option.Rel Relisted (root.descend place) (root'.descend place) := by
  have same := congrFun relisted.stands place
  rw [Node.stands, Node.stands] at same
  cases found : root.descend place with
  | none =>
    cases found' : root'.descend place with
    | none => exact .none
    | some node' => rw [found, found'] at same; cases same
  | some node =>
    cases found' : root'.descend place with
    | none => rw [found, found'] at same; cases same
    | some node' =>
      refine .some ⟨?_, relisted.distinct.descend found, relisted.distinct'.descend found'⟩
      funext rest
      have below := congrFun relisted.stands (place ++ rest)
      rw [stands_append, stands_append, found, found'] at below
      exact below

theorem lookup (relisted : Relisted (.folder entries) (.folder entries')) (name : String) :
    Option.Rel Relisted (entries.lookup name) (entries'.lookup name) := by
  have below := relisted.descend [name]
  simpa only [Node.descend, Option.bind_fun_some] using below

theorem names (relisted : Relisted (.folder entries) (.folder entries')) {name : String} :
    name ∈ entries'.map (·.1) ↔ name ∈ entries.map (·.1) := by
  rw [mem_names_iff, mem_names_iff]
  have both := relisted.lookup name
  generalize entries.lookup name = known, entries'.lookup name = known' at both ⊢
  cases both with
  | none => exact Iff.rfl
  | some _ => exact iff_of_true rfl rfl

end Relisted

/-- Two folders are one listed in two orders when they list the same names and each of them, too,
stands for a tree listed in two orders. -/
theorem relisted_folder_iff (distinct : (folder entries).HasDistinctNames)
    (distinct' : (folder entries').HasDistinctNames) :
    (folder entries).Relisted (folder entries') ↔
      (entries'.map (·.1)).Perm (entries.map (·.1)) ∧
        ∀ name child child', (name, child) ∈ entries → (name, child') ∈ entries' →
          child.Relisted child' := by
  have each := distinct
  have each' := distinct'
  rw [HasDistinctNames] at each each'
  constructor
  · intro relisted
    refine ⟨(List.perm_ext_iff_of_nodup each'.1 each.1).mpr fun _ => relisted.names, ?_⟩
    intro name child child' member member'
    have both := relisted.lookup name
    rw [(lookup_iff_mem each.1).mpr member, (lookup_iff_mem each'.1).mpr member'] at both
    cases both with
    | some same => exact same
  · rintro ⟨sameNames, sameTrees⟩
    refine ⟨funext fun place => ?_, distinct, distinct'⟩
    cases place with
    | nil => rfl
    | cons name rest =>
      have known : (entries'.lookup name).isSome = (entries.lookup name).isSome := by
        rw [Bool.eq_iff_iff, ← mem_names_iff, ← mem_names_iff]
        exact sameNames.mem_iff
      rw [stands_cons_folder, stands_cons_folder]
      cases found : entries.lookup name with
      | none =>
        rw [found, Option.isSome_none, Option.isSome_eq_false_iff, Option.isNone_iff_eq_none]
          at known
        rw [known]
      | some child =>
        rw [found, Option.isSome_some, Option.isSome_iff_exists] at known
        obtain ⟨child', found'⟩ := known
        rw [found']
        have relisted := sameTrees name child child' ((lookup_iff_mem each.1).mp found)
          ((lookup_iff_mem each'.1).mp found')
        exact congrFun relisted.stands rest

theorem Relisted.refl (distinct : node.HasDistinctNames) : node.Relisted node :=
  ⟨rfl, distinct, distinct⟩

theorem Relisted.of_perm (distinct : (folder entries).HasDistinctNames)
    (distinct' : (folder entries').HasDistinctNames) (same : entries'.Perm entries) :
    (folder entries).Relisted (folder entries') := by
  rw [relisted_folder_iff distinct distinct']
  refine ⟨same.map _, ?_⟩
  intro name child child' member member'
  rw [HasDistinctNames] at distinct
  have found := (lookup_iff_mem distinct.1).mpr member
  rw [(lookup_iff_mem distinct.1).mpr (same.mem_iff.mp member')] at found
  cases found
  exact .refl (distinct.2.lookup ((lookup_iff_mem distinct.1).mpr member))

/-! ## Listings -/

/-- Names of entries that are chosen by name and kind. -/
theorem Relisted.filter_names (relisted : Relisted (.folder entries) (.folder entries'))
    (test : String → Bool → Bool) :
    ((entries'.filter fun entry => test entry.1 entry.2.isFolder).map (·.1)).Perm
      ((entries.filter fun entry => test entry.1 entry.2.isFolder).map (·.1)) := by
  have distinct := relisted.distinct
  have distinct' := relisted.distinct'
  rw [HasDistinctNames] at distinct distinct'
  have chosen {entries : List (String × Node)} (distinct : (entries.map (·.1)).Nodup)
      (name : String) :
      name ∈ (entries.filter fun entry => test entry.1 entry.2.isFolder).map (·.1) ↔
        ∃ child, entries.lookup name = some child ∧ test name child.isFolder = true := by
    simp only [List.mem_map, List.mem_filter, Prod.exists, exists_and_right, exists_eq_right,
      lookup_iff_mem distinct]
  rw [List.perm_ext_iff_of_nodup (distinct'.1.sublist (List.filter_sublist.map _))
    (distinct.1.sublist (List.filter_sublist.map _))]
  intro name
  rw [chosen distinct.1, chosen distinct'.1]
  have both := relisted.lookup name
  generalize entries.lookup name = known, entries'.lookup name = known' at both ⊢
  cases both with
  | none => exact Iff.rfl
  | some same => simp only [Option.some.injEq, exists_eq_left', same.isFolder]

mutual

theorem descend_of_mem_files {parts : List String} {content : ByteArray} :
    (node : Node) → node.HasDistinctNames → (parts, content) ∈ node.files →
      node.descend parts = some (.file content)
  | .file _, _, member => by
    rw [files, List.mem_singleton] at member
    cases member
    rfl
  | .folder entries, distinct, member => by
    rw [HasDistinctNames] at distinct
    rw [files] at member
    exact descend_of_mem_filesOf entries distinct.1 distinct.2 member

theorem descend_of_mem_filesOf {parts : List String} {content : ByteArray} :
    (entries : List (String × Node)) → (entries.map (·.1)).Nodup → EachHasDistinctNames entries →
      (parts, content) ∈ filesOf entries → (folder entries).descend parts = some (.file content)
  | [], _, _, member => by cases member
  | (name, node) :: rest, distinct, each, member => by
    rw [EachHasDistinctNames] at each
    rw [List.map_cons, List.nodup_cons] at distinct
    rw [filesOf, List.mem_append] at member
    rcases member with here | later
    · obtain ⟨⟨below, _⟩, inside, same⟩ := List.mem_map.mp here
      cases same
      rw [descend, lookup_cons_eq, if_pos rfl]
      exact descend_of_mem_files node each.1 inside
    · have found := descend_of_mem_filesOf rest distinct.2 each.2 later
      cases parts with
      | nil => cases found
      | cons first below =>
        rw [descend, Option.bind_eq_some_iff] at found
        obtain ⟨child, known, found⟩ := found
        have other : first ≠ name := by
          rintro rfl
          exact distinct.1 (mem_names_iff.mpr (Option.isSome_of_mem known))
        rw [descend, lookup_cons_eq, if_neg other, known]
        exact found

end

mutual

theorem nodup_files : (node : Node) → node.HasDistinctNames → node.files.Nodup
  | .file _, _ => List.nodup_singleton _
  | .folder entries, distinct => by
    rw [HasDistinctNames] at distinct
    rw [files]
    exact nodup_filesOf entries distinct.1 distinct.2

theorem nodup_filesOf : (entries : List (String × Node)) → (entries.map (·.1)).Nodup →
    EachHasDistinctNames entries → (filesOf entries).Nodup
  | [], _, _ => List.nodup_nil
  | (name, node) :: rest, distinct, each => by
    rw [EachHasDistinctNames] at each
    rw [List.map_cons, List.nodup_cons] at distinct
    rw [filesOf]
    refine List.Nodup.append ((nodup_files node each.1).map ?_)
      (nodup_filesOf rest distinct.2 each.2) ?_
    · rintro ⟨below, content⟩ ⟨below', content'⟩ same
      cases same
      rfl
    · rintro _ here later
      obtain ⟨⟨below, content⟩, -, rfl⟩ := List.mem_map.mp here
      have found := descend_of_mem_filesOf rest distinct.2 each.2 later
      rw [descend, Option.bind_eq_some_iff] at found
      obtain ⟨child, known, -⟩ := found
      exact distinct.1 (mem_names_iff.mpr (Option.isSome_of_mem known))

end

theorem mem_files_iff (distinct : node.HasDistinctNames) {parts : List String}
    {content : ByteArray} :
    (parts, content) ∈ node.files ↔ node.stands parts = some (.file content) := by
  constructor
  · intro member
    rw [stands, descend_of_mem_files node distinct member]
    rfl
  · exact fun stands => mem_files_of_descend (descend_of_stands_file stands)

theorem Relisted.files (relisted : Relisted node node') : node'.files.Perm node.files := by
  rw [List.perm_ext_iff_of_nodup (nodup_files _ relisted.distinct')
    (nodup_files _ relisted.distinct)]
  rintro ⟨parts, content⟩
  rw [mem_files_iff relisted.distinct', mem_files_iff relisted.distinct, relisted.stands]

theorem Relisted.visibleFiles (relisted : Relisted node node') :
    (Discovery.visibleFiles node').Perm (Discovery.visibleFiles node) :=
  (relisted.files.filter _).map _

end Node

/-! ## Sorted names -/

theorem Disk.sortedNames_perm {names names' : List String} (same : names'.Perm names) :
    sortedNames names' = sortedNames names := by
  have permuted : (sortedNames names').Perm (sortedNames names) :=
    (List.mergeSort_perm names' lessOrEqual).trans
      (same.trans (List.mergeSort_perm names lessOrEqual).symm)
  exact permuted.eq_of_pairwise' (pairwise_le_sortedNames names') (pairwise_le_sortedNames names)

theorem Discovery.chosen_relisted {node node' : Node} (relisted : node.Relisted node')
    (included excluded : List String) :
    chosen included excluded node' = chosen included excluded node := by
  have increasing (node : Node) : (chosen included excluded node).Pairwise (· < ·) :=
    Disk.pairwise_lt_sortedNames (nodup_eraseDups _)
  apply (increasing node').eq_of_mem_iff (increasing node)
  intro file
  rw [mem_chosen, mem_chosen, relisted.visibleFiles.mem_iff]

theorem LanguageFolders.markdownFiles_relisted {node node' : Node}
    (relisted : node.Relisted node') : markdownFiles node' = markdownFiles node :=
  Disk.sortedNames_perm (relisted.visibleFiles.filter _)

end DocAudit
