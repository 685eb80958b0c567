import DocAudit.Proofs.Document.ReadDocuments
import DocAudit.Proofs.Pairs
import DocAudit.Rules.References
import Mathlib

/-!
Which files are told to be referenced nowhere. A file refers to another one when a relative link in
it is resolved to the other's path, and every file that is checked has to be readable. A link counts
where its target does not begin like a web address, which the name of a file can do as well, so a
file that is linked to may be told of if every target that leads to it begins so.
-/

/-! ## The graph of references -/

namespace DocAudit

/-- A file holds a relative link that is resolved to this path. -/
def Docs.RefersTo (docs : Docs) (source target : String) : Prop :=
  ∃ document, docs.document source = .ok document ∧
    ∃ link ∈ document.relativeLinks, link.resolve source = target

/-- What a file that can be read refers to. -/
def Docs.targets (docs : Docs) (file : String) : List String :=
  ((docs.document file).toOption.map ReferenceGraph.targets).getD []

variable {docs : Docs} {files : List String} {file source target : String}
  {document : Document} {graph : ReferenceGraph}

theorem targets_of_document (read : docs.document file = .ok document) :
    docs.targets file = ReferenceGraph.targets document := by
  rw [Docs.targets, read]
  rfl

namespace ReferenceGraph

theorem mem_targets :
    target ∈ targets document ↔
      target ≠ document.file ∧
        ∃ link ∈ document.relativeLinks, link.resolve document.file = target := by
  rw [targets, List.mem_filter, List.mem_eraseDups, List.mem_map, and_comm, bne_iff_ne]

end ReferenceGraph

theorem mem_targets_iff :
    target ∈ docs.targets source ↔ target ≠ source ∧ docs.RefersTo source target := by
  cases read : docs.document source with
  | error fault => simp [Docs.targets, Docs.RefersTo, read, Except.toOption]
  | ok document =>
    rw [targets_of_document read, ReferenceGraph.mem_targets, file_of_document read, Docs.RefersTo,
      read]
    simp only [Except.ok.injEq, exists_eq_left']

/-- The graph is read where each document is, and it holds what each refers to. -/
theorem references_eq_ok_iff :
    docs.references files = .ok graph ↔
      (∀ file ∈ files, Succeeds (docs.document file)) ∧
        graph = files.map fun file => (file, docs.targets file) := by
  refine mapM_eq_ok_iff fun file result => ?_
  constructor
  · intro reached
    obtain ⟨document, read, same⟩ := exists_of_bind_eq_ok reached
    rw [targets_of_document read]
    exact ⟨⟨document, read⟩, (Except.ok.inj same).symm⟩
  · rintro ⟨⟨document, read⟩, rfl⟩
    rw [targets_of_document read, read]
    rfl

namespace ReferenceGraph

theorem targetsOf_references (read : docs.references files = .ok graph) (member : source ∈ files) :
    graph.targetsOf source = docs.targets source := by
  rw [(references_eq_ok_iff.mp read).2, targetsOf, lookup_map_of_mem member]
  rfl

theorem refersTo_references (read : docs.references files = .ok graph) (member : source ∈ files) :
    graph.refersTo source target = true ↔ target ≠ source ∧ docs.RefersTo source target := by
  rw [refersTo, targetsOf_references read member, List.contains_iff_mem, mem_targets_iff]

theorem isReferenced_references (read : docs.references files = .ok graph) :
    graph.isReferenced target = true ↔
      ∃ source ∈ files, source ≠ target ∧ docs.RefersTo source target := by
  rw [(references_eq_ok_iff.mp read).2, isReferenced, List.any_map, List.any_eq_true]
  simp only [Function.comp_apply, List.contains_iff_mem, mem_targets_iff, ne_comm]

end ReferenceGraph

end DocAudit

/-! ## Files without references -/

namespace DocAudit

theorem Value.items_of_not_truthy {value : Value} (falsy : value.truthy = false)
    {items : List Value} (read : value.items = .ok items) : items = [] := by
  cases value with
  | text content =>
    cases read
    simp_all [truthy]
  | list given | tuple given | table given =>
    cases read
    simp_all [truthy]
  | null | bool | int | float => cases read

namespace OrphanDocuments

variable {docs : Docs} {files : List String} {file : String} {options : Options}
  {graph : ReferenceGraph}

/-- Some pattern of the option describes a piece of the file's path. -/
def Excludes (options : Options) (file : String) : Prop :=
  ∃ patterns, options.exclude.items = .ok patterns ∧
    ∃ pattern ∈ patterns, pattern.matchesLoosely file = .ok true

/-- Each link to the file in another of the files has a target like a web address. -/
def IsUnlinked (docs : Docs) (files : List String) (file : String) : Prop :=
  ∀ source ∈ files, source ≠ file → ∀ document, docs.document source = .ok document →
    ∀ link ∈ document.links, link.resolve source = file → link.isExternal = true

theorem isExcluded_eq_iff {answer : Bool} (answered : isExcluded options file = .ok answer) :
    answer = true ↔ Excludes options file := by
  rw [isExcluded] at answered
  split at answered
  · obtain ⟨patterns, read, answered⟩ := exists_of_bind_eq_ok answered
    cases answer with
    | true => exact iff_of_true rfl ⟨patterns, read, exists_of_anyM_eq_ok_true answered⟩
    | false =>
      refine iff_of_false Bool.false_ne_true ?_
      rintro ⟨patterns', read', pattern, member, matched⟩
      obtain rfl := Except.ok.inj (read.symm.trans read')
      rw [anyM_eq_ok_false_iff.mp answered pattern member] at matched
      cases matched
  · next falsy =>
    cases answered
    refine iff_of_false Bool.false_ne_true ?_
    rintro ⟨patterns, read, pattern, member, -⟩
    rw [Value.items_of_not_truthy (eq_false_of_ne_true falsy) read] at member
    exact List.not_mem_nil member

theorem isOrphan_of_entryPoint (isEntry : fileName file = entryPoint) :
    isOrphan graph options file = .ok false := by
  rw [isOrphan, beq_iff_eq.mpr isEntry]
  rfl

theorem isOrphan_of_ne_entryPoint (noEntry : fileName file ≠ entryPoint) :
    isOrphan graph options file =
      isExcluded options file >>= fun excluded =>
        .ok (!excluded && !graph.isReferenced file) := by
  rw [isOrphan, beq_false_of_ne noEntry]
  cases isExcluded options file with
  | error fault => rfl
  | ok excluded => cases excluded <;> rfl

theorem succeeds_isOrphan_iff :
    Succeeds (isOrphan graph options file) ↔
      (fileName file ≠ entryPoint → Succeeds (isExcluded options file)) := by
  by_cases isEntry : fileName file = entryPoint
  · rw [isOrphan_of_entryPoint isEntry]
    exact iff_of_true (.ok false) (fun noEntry => absurd isEntry noEntry)
  · rw [isOrphan_of_ne_entryPoint isEntry, Succeeds.bind_ok_iff]
    exact ⟨fun asked _ => asked, fun asked => asked isEntry⟩

theorem isUnlinked_iff :
    IsUnlinked docs files file ↔ ∀ source ∈ files, source ≠ file → ¬ docs.RefersTo source file := by
  constructor
  · rintro unlinked source member other ⟨document, read, link, inRelative, leads⟩
    obtain ⟨inLinks, relative⟩ := List.mem_filter.mp inRelative
    rw [unlinked source member other document read link inLinks leads] at relative
    exact Bool.false_ne_true relative
  · intro unreferenced source member other document read link inLinks leads
    by_contra relative
    refine unreferenced source member other ⟨document, read, link, ?_, leads⟩
    exact List.mem_filter.mpr ⟨inLinks, by simpa using relative⟩

theorem isReferenced_eq_false_iff (read : docs.references files = .ok graph) :
    graph.isReferenced file = false ↔ IsUnlinked docs files file := by
  rw [← Bool.not_eq_true, ReferenceGraph.isReferenced_references read, isUnlinked_iff]
  simp only [not_exists, not_and]

/-- What is answered for a file when an answer comes. -/
theorem answerTo_isOrphan_iff (read : docs.references files = .ok graph)
    (answered : Succeeds (isOrphan graph options file)) :
    answerTo (isOrphan graph options) file = true ↔
      fileName file ≠ entryPoint ∧ ¬ Excludes options file ∧ IsUnlinked docs files file := by
  rw [answerTo]
  by_cases isEntry : fileName file = entryPoint
  · rw [isOrphan_of_entryPoint isEntry]
    exact iff_of_false Bool.false_ne_true fun facts => facts.1 isEntry
  · obtain ⟨excluded, asked⟩ := succeeds_isOrphan_iff.mp answered isEntry
    rw [isOrphan_of_ne_entryPoint isEntry, asked, ← isExcluded_eq_iff asked,
      ← isReferenced_eq_false_iff read]
    cases excluded <;> simp [isEntry, bind, Except.bind, Except.toOption]

theorem check_eq_ok_iff {issues : List Issue} :
    check docs files options = .ok issues ↔
      ∃ graph, docs.references files = .ok graph ∧
        (∀ file ∈ files, Succeeds (isOrphan graph options file)) ∧
        issues = (files.filter (answerTo (isOrphan graph options))).map finding := by
  constructor
  · intro returned
    obtain ⟨graph, read, returned⟩ := exists_of_bind_eq_ok returned
    obtain ⟨orphans, filtered, same⟩ := exists_of_bind_eq_ok returned
    obtain ⟨answered, rfl⟩ := filterM_eq_ok_iff.mp filtered
    exact ⟨graph, read, answered, (Except.ok.inj same).symm⟩
  · rintro ⟨graph, read, answered, rfl⟩
    rw [check, read]
    change (files.filterM (isOrphan graph options) >>= fun orphans => _) = _
    rw [filterM_eq_ok_iff.mpr ⟨answered, rfl⟩]
    rfl

theorem isUnlinked_of_mem_check {issues : List Issue} {issue : Issue}
    (returned : check docs files options = .ok issues) (reported : issue ∈ issues) :
    issue.file ∈ files ∧ IsUnlinked docs files issue.file := by
  obtain ⟨graph, read, answered, rfl⟩ := check_eq_ok_iff.mp returned
  obtain ⟨file, kept, rfl⟩ := List.mem_map.mp reported
  obtain ⟨member, isOrphan⟩ := List.mem_filter.mp kept
  exact ⟨member, ((answerTo_isOrphan_iff read (answered file member)).mp isOrphan).2.2⟩

/-- The check ends in a report where every file can be read and the patterns can be matched. It tells
of each file once and in order that is no entry point, that no pattern describes and that no other
file links to, but for links whose targets begin like web addresses. -/
theorem check_reports_unlinked (docs : Docs) {files : List String} (distinct : files.Nodup)
    (options : Options) :
    (Succeeds (check docs files options) ↔
      (∀ file ∈ files, Succeeds (docs.document file)) ∧
        ∀ file ∈ files, fileName file ≠ entryPoint → Succeeds (isExcluded options file)) ∧
      ∀ issues, check docs files options = .ok issues →
        ∃ orphans : List String, issues = orphans.map finding ∧ orphans.Sublist files ∧ orphans.Nodup ∧
          ∀ file, file ∈ orphans ↔
            file ∈ files ∧ fileName file ≠ entryPoint ∧ ¬ Excludes options file ∧
              IsUnlinked docs files file := by
  constructor
  · constructor
    · rintro ⟨issues, returned⟩
      obtain ⟨graph, read, answered, -⟩ := check_eq_ok_iff.mp returned
      exact ⟨(references_eq_ok_iff.mp read).1,
        fun file member => succeeds_isOrphan_iff.mp (answered file member)⟩
    · rintro ⟨readable, matched⟩
      have read := references_eq_ok_iff.mpr ⟨readable, rfl⟩
      exact ⟨_, check_eq_ok_iff.mpr
        ⟨_, read, fun file member => succeeds_isOrphan_iff.mpr (matched file member), rfl⟩⟩
  · intro issues returned
    obtain ⟨graph, read, answered, rfl⟩ := check_eq_ok_iff.mp returned
    refine ⟨_, rfl, List.filter_sublist, distinct.filter _, fun file => ?_⟩
    rw [List.mem_filter]
    exact and_congr_right fun member => answerTo_isOrphan_iff read (answered file member)

theorem check_reports_unlinked_two_of_four :
    let docs : Docs :=
      { disk :=
          { root := .folder
              [("docs", .folder
                [("README.md", .file (Text.encode "[a](./a.md)".toList)),
                  ("a.md", .file (Text.encode "[a](a.md)".toList)),
                  ("b.md", .file (Text.encode "[a](a.md)".toList)),
                  ("c.md", .file (Text.encode "[c](c.md)".toList))])]
            workingFolder := [] }
        root := .fromTop ["docs"] }
    let files := ["README.md", "a.md", "b.md", "c.md"]
    let options : Options := { exclude := .ofTexts ["x*.md"] }
    files.Nodup ∧ check docs files options = .ok (["b.md", "c.md"].map finding) ∧
      ∃ orphans : List String, ["b.md", "c.md"].map finding = orphans.map finding ∧
        orphans.Sublist files ∧ orphans.Nodup ∧
          ∀ file, file ∈ orphans ↔
            file ∈ files ∧ fileName file ≠ entryPoint ∧ ¬ Excludes options file ∧
              IsUnlinked docs files file := by
  intro docs files options
  have distinct : files.Nodup := by decide
  have read : docs.references files =
      .ok [("README.md", ["a.md"]), ("a.md", []), ("b.md", ["a.md"]), ("c.md", [])] := by cbv
  have returned : check docs files options = .ok (["b.md", "c.md"].map finding) := by
    rw [check, read]
    rfl
  exact ⟨distinct, returned, (check_reports_unlinked docs distinct options).2 _ returned⟩

/-- A file with a name like a web address is told of although it is linked to. -/
theorem check_reports_linked_file :
    let docs : Docs :=
      { disk :=
          { root := .folder
              [("docs", .folder
                [("a.md", .file (Text.encode "[H](http-api.md)\n".toList)),
                  ("http-api.md", .file (Text.encode "# H\n".toList))])]
            workingFolder := [] }
        root := .fromTop ["docs"] }
    check docs ["a.md", "http-api.md"] = .ok (["a.md", "http-api.md"].map finding) ∧
      ∃ document, docs.document "a.md" = .ok document ∧
        ∃ link ∈ document.links, link.resolve "a.md" = "http-api.md" := by
  intro docs
  let linking := Document.ofText "a.md" "[H](http-api.md)\n".toList
  let linked := Document.ofText "http-api.md" "# H\n".toList
  have readLinking : docs.document "a.md" = .ok linking := document_of_text (by cbv)
  have readLinked : docs.document "http-api.md" = .ok linked := document_of_text (by cbv)
  have noTargets : ReferenceGraph.targets linking = [] := by decide +kernel
  have noTargets' : ReferenceGraph.targets linked = [] := by decide +kernel
  have inLinks : ⟨['H'], "http-api.md".toList, 1⟩ ∈ linking.links := by decide +kernel
  clear_value docs linking linked
  refine ⟨?_, linking, readLinking, _, inLinks, by decide +kernel⟩
  have read : docs.references ["a.md", "http-api.md"] =
      .ok [("a.md", []), ("http-api.md", [])] := by
    rw [references_eq_ok_iff, List.forall_mem_cons, List.forall_mem_singleton]
    refine ⟨⟨⟨_, readLinking⟩, ⟨_, readLinked⟩⟩, ?_⟩
    simp only [List.map_cons, List.map_nil, targets_of_document readLinking,
      targets_of_document readLinked, noTargets, noTargets']
  have orphan : ∀ file ∈ ["a.md", "http-api.md"],
      isOrphan [("a.md", []), ("http-api.md", [])] {} file = .ok true := by
    rw [List.forall_mem_cons, List.forall_mem_singleton,
      isOrphan_of_ne_entryPoint (by decide), isOrphan_of_ne_entryPoint (by decide)]
    exact ⟨rfl, rfl⟩
  refine check_eq_ok_iff.mpr ⟨_, read, fun file member => ⟨true, orphan file member⟩, ?_⟩
  rw [List.filter_eq_self.mpr]
  intro file member
  rw [answerTo, orphan file member]
  rfl

end OrphanDocuments

end DocAudit
