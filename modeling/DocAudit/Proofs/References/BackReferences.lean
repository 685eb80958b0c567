import DocAudit.Proofs.References.Orphans
import DocAudit.Proofs.Tree.StandardDiscovery

/-!
Which references are told to have no answer: those between two of the files that only one of them
makes. Nothing is told where the references between the files are symmetric, and then an orphan, to
which no file refers, refers to no other file either.
-/

namespace DocAudit

theorem nodup_targets (docs : Docs) (file : String) : (docs.targets file).Nodup := by
  cases read : docs.document file with
  | error fault =>
    rw [Docs.targets, read]
    exact List.nodup_nil
  | ok document =>
    rw [targets_of_document read]
    exact (nodup_eraseDups _).filter _

namespace BackReferences

open OrphanDocuments (isUnlinked_iff isUnlinked_of_mem_check)

variable {docs : Docs} {files : List String} {source target : String} {graph : ReferenceGraph}

/-- A reference from one of the files to another one that does not refer back. -/
structure IsOneWay (docs : Docs) (files : List String) (source target : String) : Prop where
  fromFile : source ∈ files
  toFile : target ∈ files
  toOther : target ≠ source
  forth : docs.RefersTo source target
  notBack : ¬ docs.RefersTo target source

/-- What the references are that are told of. -/
structure ListsOneWay (docs : Docs) (files : List String) (told : List (String × String)) :
    Prop where
  exactly : ∀ source target, (source, target) ∈ told ↔ IsOneWay docs files source target
  ordered : told.Pairwise (InOrder files (· < ·))
  once : (told.map fun reference => finding reference.1 reference.2).Nodup
  notBoth : ∀ source target, (source, target) ∈ told → (target, source) ∉ told

theorem finding_injective :
    Function.Injective fun reference : String × String => finding reference.1 reference.2 := by
  rintro ⟨source, target⟩ ⟨source', target'⟩ same
  have sameSource : source = source' := congrArg Issue.file same
  have sameText : toString "References \"" ++ target ++ toString "\" but no back-reference exists" =
      toString "References \"" ++ target' ++ toString "\" but no back-reference exists" :=
    Value.text.inj (congrArg Issue.message same)
  rw [sameSource, (String.append_right_inj _).mp ((String.append_left_inj _).mp sameText)]

theorem mem_unanswered_iff (read : docs.references files = .ok graph) (listed : source ∈ files) :
    target ∈ unanswered graph files source ↔ IsOneWay docs files source target := by
  rw [unanswered, Disk.sortedNames, List.mem_mergeSort, List.mem_filter,
    ReferenceGraph.targetsOf_references read listed, mem_targets_iff, Bool.and_eq_true,
    List.contains_iff_mem, Bool.not_eq_true', ← Bool.not_eq_true]
  constructor
  · rintro ⟨⟨other, forth⟩, toFile, noBack⟩
    rw [ReferenceGraph.refersTo_references read toFile] at noBack
    exact ⟨listed, toFile, other, forth, fun back => noBack ⟨other.symm, back⟩⟩
  · rintro ⟨-, toFile, other, forth, notBack⟩
    rw [ReferenceGraph.refersTo_references read toFile]
    exact ⟨⟨other, forth⟩, toFile, fun back => notBack back.2⟩

theorem pairwise_unanswered (read : docs.references files = .ok graph) (listed : source ∈ files) :
    (unanswered graph files source).Pairwise (· < ·) := by
  rw [unanswered, ReferenceGraph.targetsOf_references read listed]
  exact Disk.pairwise_lt_sortedNames ((nodup_targets docs source).filter _)

/-- The references without an answer, in the order in which they are told. -/
def oneWay (graph : ReferenceGraph) (files : List String) : List (String × String) :=
  listUnder files (unanswered graph files)

theorem mem_oneWay_iff (read : docs.references files = .ok graph) :
    (source, target) ∈ oneWay graph files ↔ IsOneWay docs files source target := by
  rw [oneWay, mem_listUnder_iff]
  constructor
  · rintro ⟨listed, told⟩
    exact (mem_unanswered_iff read listed).mp told
  · intro isOneWay
    exact ⟨isOneWay.fromFile, (mem_unanswered_iff read isOneWay.fromFile).mpr isOneWay⟩

theorem pairwise_oneWay (read : docs.references files = .ok graph) :
    (oneWay graph files).Pairwise (InOrder files (· < ·)) :=
  pairwise_listUnder fun _ listed => pairwise_unanswered read listed

theorem nodup_oneWay (distinct : files.Nodup) (read : docs.references files = .ok graph) :
    (oneWay graph files).Nodup := by
  refine (pairwise_oneWay read).imp ?_
  rintro left right inOrder rfl
  rcases inOrder with twice | ⟨-, smaller⟩
  · exact List.nodup_iff_sublist.mp distinct _ twice
  · exact lt_irrefl _ smaller

theorem check_eq_ok_iff {issues : List Issue} :
    check docs files = .ok issues ↔
      ∃ graph, docs.references files = .ok graph ∧
        issues = (oneWay graph files).map fun reference => finding reference.1 reference.2 := by
  have told (graph : ReferenceGraph) :
      (files.flatMap fun file => (unanswered graph files file).map (finding file)) =
        (oneWay graph files).map fun reference => finding reference.1 reference.2 := by
    simp only [oneWay, listUnder, List.map_flatMap, List.map_map, Function.comp_def]
  constructor
  · intro returned
    obtain ⟨graph, read, returned⟩ := exists_of_bind_eq_ok returned
    exact ⟨graph, read, (Except.ok.inj returned).symm.trans (told graph)⟩
  · rintro ⟨graph, read, rfl⟩
    rw [check, read, ← told]
    rfl

theorem listsOneWay_oneWay (distinct : files.Nodup) (read : docs.references files = .ok graph) :
    ListsOneWay docs files (oneWay graph files) where
  exactly _ _ := mem_oneWay_iff read
  ordered := pairwise_oneWay read
  once := (nodup_oneWay distinct read).map finding_injective
  notBoth _ _ told back :=
    ((mem_oneWay_iff read).mp told).notBack ((mem_oneWay_iff read).mp back).forth

theorem oneWay_eq_nil_iff (read : docs.references files = .ok graph) :
    oneWay graph files = [] ↔
      ∀ source ∈ files, ∀ target ∈ files, docs.RefersTo source target →
        docs.RefersTo target source := by
  rw [List.eq_nil_iff_forall_not_mem]
  constructor
  · intro noneTold source fromFile target toFile forth
    by_contra notBack
    have toOther : target ≠ source := by
      rintro rfl
      exact notBack forth
    exact noneTold (source, target)
      ((mem_oneWay_iff read).mpr ⟨fromFile, toFile, toOther, forth, notBack⟩)
  · rintro symmetric ⟨source, target⟩ told
    have isOneWay := (mem_oneWay_iff read).mp told
    exact isOneWay.notBack
      (symmetric source isOneWay.fromFile target isOneWay.toFile isOneWay.forth)

/-- The check ends in a report where every file can be read. It tells of each reference without an
answer once, in the order of the files and of the targets. It has nothing to tell where the
references between the files are symmetric, and then no orphan refers to another file. -/
theorem check_reports_one_way (docs : Docs) {files : List String} (distinct : files.Nodup) :
    (Succeeds (check docs files) ↔ ∀ file ∈ files, Succeeds (docs.document file)) ∧
      ∀ issues, check docs files = .ok issues →
        (∃ told, issues = (told.map fun reference => finding reference.1 reference.2) ∧
          ListsOneWay docs files told) ∧
        (issues = [] ↔ ∀ source ∈ files, ∀ target ∈ files, docs.RefersTo source target →
          docs.RefersTo target source) ∧
        (issues = [] → ∀ options orphans, OrphanDocuments.check docs files options = .ok orphans →
          ∀ orphan ∈ orphans, ∀ target ∈ files, target ≠ orphan.file →
            ¬ docs.RefersTo orphan.file target) := by
  constructor
  · constructor
    · rintro ⟨issues, returned⟩
      obtain ⟨graph, read, -⟩ := check_eq_ok_iff.mp returned
      exact (references_eq_ok_iff.mp read).1
    · intro readable
      exact ⟨_, check_eq_ok_iff.mpr ⟨_, references_eq_ok_iff.mpr ⟨readable, rfl⟩, rfl⟩⟩
  · intro issues returned
    obtain ⟨graph, read, rfl⟩ := check_eq_ok_iff.mp returned
    rw [List.map_eq_nil_iff, oneWay_eq_nil_iff read]
    refine ⟨⟨_, rfl, listsOneWay_oneWay distinct read⟩, Iff.rfl, ?_⟩
    intro symmetric options orphans checked orphan reported target toFile other forth
    obtain ⟨fromFile, unlinked⟩ := isUnlinked_of_mem_check checked reported
    exact isUnlinked_iff.mp unlinked target toFile other
      (symmetric orphan.file fromFile target toFile forth)

theorem check_reports_one_way_of_three :
    let docs : Docs :=
      { disk :=
          { root := .folder
              [("docs", .folder
                [("a.md", .file (Text.encode "[b](b.md) [c](./c.md) [d](d.md)".toList)),
                  ("b.md", .file (Text.encode "[a](a.md) [b](b.md)".toList)),
                  ("c.md", .file (Text.encode "[b](x/../b.md)".toList))])]
            workingFolder := [] }
        root := .fromTop ["docs"] }
    let files := ["c.md", "a.md", "b.md"]
    let told := [("c.md", "b.md"), ("a.md", "c.md")]
    files.Nodup ∧
      check docs files = .ok (told.map fun reference => finding reference.1 reference.2) ∧
      ∃ references, told.map (fun reference => finding reference.1 reference.2) =
          references.map (fun reference => finding reference.1 reference.2) ∧
        ListsOneWay docs files references := by
  intro docs files told
  have distinct : files.Nodup := by decide
  have returned : check docs files =
      .ok (told.map fun reference => finding reference.1 reference.2) := by cbv
  exact ⟨distinct, returned, ((check_reports_one_way docs distinct).2 _ returned).1⟩

end BackReferences

end DocAudit
