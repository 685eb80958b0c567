import DocAudit.Proofs.Document.Views
import DocAudit.Proofs.Faults
import DocAudit.Proofs.Pairs
import DocAudit.Proofs.Tree.Acceptance
import DocAudit.Proofs.Tree.ListedNames
import DocAudit.Proofs.Tree.NormalWalk
import DocAudit.Rules.BrokenLinks

/-!
Broken links are told by a walk through the disk, while the graph of references resolves a link by
its text alone. Where a link is not told to be broken, what it is resolved to exists. Where it is,
this does not exist, unless the walk comes to two dots behind something that is no folder.
-/

namespace DocAudit

/-! ## The source of a link -/

theorem ofString_parts_ne_nil {file : String} (ends : EndsInName file) :
    (FilePath.ofString file).parts ≠ [] := by
  intro empty
  apply ends.named
  rw [fileName, FilePath.name, empty]
  rfl

/-- A file that can be read has a path that leads to it. -/
theorem Docs.exists_walk_of_document {docs : Docs} {file : String}
    (readable : Succeeds (docs.document file)) :
    (docs.path file).IsNameable ∧ ∃ place, docs.disk.walk (docs.path file) = .ok place := by
  obtain ⟨document, read⟩ := readable
  obtain ⟨text, readText, -⟩ := exists_of_bind_eq_ok read
  obtain ⟨content, readBytes, -⟩ := exists_of_bind_eq_ok readText
  obtain ⟨nameable, place, walked, -⟩ := Disk.readBytes_iff.mp readBytes
  exact ⟨nameable, place, walked⟩

theorem exists_last_occurrence {part : String} {parts : List String} (member : part ∈ parts) :
    ∃ front behind, parts = front ++ part :: behind ∧ part ∉ behind := by
  obtain ⟨behind, front, split, notBehind⟩ :=
    List.eq_append_cons_of_mem (List.mem_reverse.mpr member)
  refine ⟨front.reverse, behind.reverse, ?_, by simpa using notBehind⟩
  rw [← List.reverse_reverse parts, split]
  simp

namespace BrokenLinks

variable {docs : Docs} {files : List String} {options : Options} {file : String} {link : Link}

/-- Where a link leads from the folder of its source. -/
def destination (docs : Docs) (file : String) (link : Link) : FilePath :=
  (docs.path file).parent.child (String.ofList link.target)

/-- Two dots of the target stand behind something that is no folder. -/
def LeavesNoFolder (docs : Docs) (file : String) (link : Link) : Prop :=
  let target := FilePath.ofString (String.ofList link.target)
  ∃ front behind, target.parts = front ++ ".." :: behind ∧
    docs.disk.isFolder ((docs.path file).parent.join { target with parts := front }) ≠ .ok true

theorem join_parent (ends : EndsInName file) (path : FilePath) :
    (docs.path file).parent.join path =
      docs.root.join ((FilePath.ofString file).parent.join path) := by
  rw [Docs.path, FilePath.child, FilePath.parent_join _ (ofString_parts_ne_nil ends),
    FilePath.join_assoc]

theorem path_resolve (ends : EndsInName file) :
    docs.path (link.resolve file) =
      docs.root.join ((FilePath.ofString file).parent.child (String.ofList link.target)).normal := by
  rw [Docs.path, FilePath.child, ofString_resolve ends]

theorem isPresent_resolve_of_present (ends : EndsInName file)
    (present : docs.disk.isPresent (destination docs file link) = .ok true) :
    docs.isPresent (link.resolve file) = .ok true := by
  rw [destination, FilePath.child, join_parent ends] at present
  rw [Docs.isPresent, path_resolve ends]
  exact Disk.isPresent_join_normal present

/-- The folder of a file that can be read is reached. -/
theorem exists_walk_folder (ends : EndsInName file) (readable : Succeeds (docs.document file)) :
    ∃ place, docs.disk.walk (docs.root.join (FilePath.ofString file).parent) = .ok place ∧
      '\x00' ∉ (docs.root.join (FilePath.ofString file).parent).toString.toList := by
  obtain ⟨nameable, place, walked⟩ := docs.exists_walk_of_document readable
  have longer : docs.path file = (docs.root.join (FilePath.ofString file).parent).extend
      [(FilePath.ofString file).parts.getLast (ofString_parts_ne_nil ends)] := by
    rw [← FilePath.join_extend, FilePath.parent, FilePath.extend, List.dropLast_append_getLast]
    rfl
  rw [longer] at nameable walked
  rw [Disk.walk, Disk.absoluteParts_extend, walk_append_eq_ok_iff] at walked
  obtain ⟨folder, walked, -⟩ := walked
  exact ⟨folder, walked, nameable.of_extend.nul_not_mem⟩

/-- A target that never leaves what is no folder has only names behind a path that leads somewhere:
the one to its last two dots or, without any, the one to the folder. -/
theorem exists_front (ends : EndsInName file) (readable : Succeeds (docs.document file))
    (stays : ¬ LeavesNoFolder docs file link) :
    ∃ front : FilePath, ∃ behind place,
      (FilePath.ofString file).parent.child (String.ofList link.target) = front.extend behind ∧
        ".." ∉ behind ∧ docs.disk.walk (docs.root.join front) = .ok place ∧
          '\x00' ∉ (docs.root.join front).toString.toList := by
  let target := FilePath.ofString (String.ofList link.target)
  by_cases dotted : ".." ∈ target.parts
  · obtain ⟨before, behind, split, undotted⟩ := exists_last_occurrence dotted
    have isFolder : docs.disk.isFolder
        ((docs.path file).parent.join { target with parts := before }) = .ok true := by
      by_contra noFolder
      exact stays ⟨before, behind, split, noFolder⟩
    rw [join_parent ends] at isFolder
    obtain ⟨nameable, place, walked, folder⟩ := Disk.isFolder_iff.mp isFolder
    refine ⟨((FilePath.ofString file).parent.join { target with parts := before }).extend [".."],
      behind, place.dropLast, ?_, undotted, ?_, ?_⟩
    · rw [FilePath.extend_extend, ← FilePath.join_extend, FilePath.child, FilePath.extend]
      exact congrArg _ (congrArg (FilePath.mk target.slashes) split)
    · rw [FilePath.join_extend, Disk.walk, Disk.absoluteParts_extend, walk_append_eq_ok_iff]
      refine ⟨place, walked, ?_⟩
      rw [walk_cons_of_folder folder, if_pos rfl]
      rfl
    · have withoutNul := nameable.nul_not_mem
      rw [FilePath.nul_mem_toString_iff] at withoutNul ⊢
      rw [FilePath.join_extend]
      rintro ⟨part, member, nul⟩
      rcases List.mem_append.mp member with before | dots
      · exact withoutNul ⟨part, before, nul⟩
      · obtain rfl := List.mem_singleton.mp dots
        exact absurd nul (by decide)
  · have whole : target = FilePath.extend { target with parts := [] } target.parts := rfl
    refine ⟨(FilePath.ofString file).parent.join { target with parts := [] }, target.parts, ?_⟩
    rw [← FilePath.join_extend, ← whole]
    rcases Nat.eq_zero_or_pos target.slashes with relative | absolute
    · obtain ⟨place, walked, withoutNul⟩ := exists_walk_folder ends readable
      rw [FilePath.join_of_relative _ { target with parts := [] } relative, FilePath.extend_nil]
      exact ⟨place, rfl, dotted, walked, withoutNul⟩
    · rw [FilePath.join_of_absolute _ { target with parts := [] } absolute,
        FilePath.join_of_absolute _ { target with parts := [] } absolute, Disk.walk,
        Disk.absoluteParts_of_absolute _ { target with parts := [] } absolute,
        FilePath.nul_mem_toString_iff]
      exact ⟨[], rfl, dotted, rfl, by simp⟩

theorem isPresent_resolve_of_missing (ends : EndsInName file)
    (readable : Succeeds (docs.document file))
    (missing : docs.disk.isPresent (destination docs file link) = .ok false) :
    docs.isPresent (link.resolve file) = .ok false ∨ LeavesNoFolder docs file link := by
  rw [or_iff_not_imp_right]
  intro stays
  obtain ⟨front, behind, place, split, undotted, walked, withoutNul⟩ :=
    exists_front ends readable stays
  rw [destination, FilePath.child, join_parent ends, ← FilePath.child, split] at missing
  rw [Docs.isPresent, path_resolve ends, split]
  exact Disk.isPresent_join_normal_extend walked withoutNul undotted missing

/-! ## What is told -/

/-- The relative links of a file, unless the file is left out. -/
def linksIn (docs : Docs) (options : Options) (file : String) : List Link :=
  match options.excludePaths.anyGlobMatches file, docs.document file with
  | .ok false, .ok document => document.relativeLinks
  | _, _ => []

def checkedLinks (docs : Docs) (files : List String) (options : Options) : List (String × Link) :=
  listUnder files (linksIn docs options)

theorem mem_linksIn_iff :
    link ∈ linksIn docs options file ↔
      options.excludePaths.anyGlobMatches file = .ok false ∧
        ∃ document, docs.document file = .ok document ∧ link ∈ document.relativeLinks := by
  rw [linksIn]
  split
  · next included read => simp [included, read]
  · next others =>
    refine iff_of_false List.not_mem_nil ?_
    rintro ⟨included, document, read, -⟩
    exact others document included read

theorem pairwise_linksIn (docs : Docs) (options : Options) (file : String) :
    (linksIn docs options file).Pairwise (·.line ≤ ·.line) := by
  rw [linksIn]
  split
  · next document included read =>
    obtain ⟨text, -, scanned⟩ := exists_of_bind_eq_ok read
    cases scanned
    exact (pairwise_line_links file text).filter _
  · exact List.Pairwise.nil

theorem linksIn_of_excluded (excluded : options.excludePaths.anyGlobMatches file = .ok true) :
    linksIn docs options file = [] := by
  rw [linksIn, excluded]

theorem linksIn_of_document {document : Document}
    (included : options.excludePaths.anyGlobMatches file = .ok false)
    (read : docs.document file = .ok document) :
    linksIn docs options file = document.relativeLinks := by
  rw [linksIn, included, read]

/-- Nothing is found where the link leads. -/
def isMissing (docs : Docs) (file : String) (link : Link) : Bool :=
  (docs.disk.isPresent (destination docs file link)).toOption == some false

theorem answerTo_isBroken (docs : Docs) (file : String) (link : Link) :
    answerTo (isBroken docs file) link = isMissing docs file link := by
  rw [answerTo, isBroken, isMissing, destination]
  cases docs.disk.isPresent ((docs.path file).parent.child (String.ofList link.target)) with
  | error fault => rfl
  | ok present => cases present <;> rfl

/-- A file comes to an end of its check. -/
structure Decides (docs : Docs) (options : Options) (file : String) : Prop where
  globs : Succeeds (options.excludePaths.anyGlobMatches file)
  document : options.excludePaths.anyGlobMatches file = .ok false → Succeeds (docs.document file)
  links : ∀ link ∈ linksIn docs options file,
    Succeeds (docs.disk.isPresent (destination docs file link))

def findingsIn (docs : Docs) (options : Options) (file : String) : Except Fault (List Issue) := do
  if ← options.excludePaths.anyGlobMatches file then return []
  let document ← docs.document file
  return (← document.relativeLinks.filterM (isBroken docs file)).map (finding file)

theorem findingsIn_of_excluded (excluded : options.excludePaths.anyGlobMatches file = .ok true) :
    findingsIn docs options file = .ok [] := by
  rw [findingsIn, excluded]
  rfl

theorem findingsIn_of_document {document : Document}
    (included : options.excludePaths.anyGlobMatches file = .ok false)
    (read : docs.document file = .ok document) :
    findingsIn docs options file =
      document.relativeLinks.filterM (isBroken docs file) >>= fun broken =>
        .ok (broken.map (finding file)) := by
  rw [findingsIn, included]
  change (docs.document file >>= fun document => _) = _
  rw [read]
  rfl

theorem findingsIn_eq_ok_iff (file : String) (issues : List Issue) :
    findingsIn docs options file = .ok issues ↔
      Decides docs options file ∧
        issues = ((linksIn docs options file).filter (isMissing docs file)).map (finding file) := by
  have answered (link : Link) : Succeeds (isBroken docs file link) ↔
      Succeeds (docs.disk.isPresent (destination docs file link)) := Succeeds.bind_ok_iff
  have told : isMissing docs file = answerTo (isBroken docs file) :=
    (funext (answerTo_isBroken docs file)).symm
  constructor
  · intro returned
    obtain ⟨excluded, asked, further⟩ := exists_of_bind_eq_ok returned
    cases excluded with
    | true =>
      rw [findingsIn_of_excluded asked] at returned
      cases returned
      have noLinks : linksIn docs options file = [] := linksIn_of_excluded asked
      refine ⟨⟨⟨true, asked⟩, fun included => ?_, ?_⟩, ?_⟩
      · rw [asked] at included
        cases included
      · rw [noLinks]
        exact List.forall_mem_nil _
      · rw [noLinks]
        rfl
    | false =>
      obtain ⟨document, read, -⟩ := exists_of_bind_eq_ok further
      rw [findingsIn_of_document asked read] at returned
      obtain ⟨broken, filtered, same⟩ := exists_of_bind_eq_ok returned
      obtain ⟨each, rfl⟩ := filterM_eq_ok_iff.mp filtered
      rw [told, linksIn_of_document asked read]
      refine ⟨⟨⟨false, asked⟩, fun _ => ⟨document, read⟩, fun link member => ?_⟩,
        (Except.ok.inj same).symm⟩
      rw [linksIn_of_document asked read] at member
      exact (answered link).mp (each link member)
  · rintro ⟨decides, rfl⟩
    obtain ⟨excluded, asked⟩ := decides.globs
    cases excluded with
    | true =>
      rw [findingsIn_of_excluded asked, linksIn_of_excluded asked]
      rfl
    | false =>
      obtain ⟨document, read⟩ := decides.document asked
      have links := decides.links
      rw [linksIn_of_document asked read] at links ⊢
      rw [findingsIn_of_document asked read, told,
        filterM_eq_ok_iff.mpr ⟨fun link member => (answered link).mpr (links link member), rfl⟩]
      rfl

theorem check_eq_ok_iff {issues : List Issue} :
    check docs files options = .ok issues ↔
      (∀ file ∈ files, Decides docs options file) ∧
        issues = ((checkedLinks docs files options).filter fun occurrence =>
          isMissing docs occurrence.1 occurrence.2).map
            fun occurrence => finding occurrence.1 occurrence.2 := by
  have whole : ((checkedLinks docs files options).filter fun occurrence =>
      isMissing docs occurrence.1 occurrence.2).map
        (fun occurrence => finding occurrence.1 occurrence.2) =
      (files.map fun file =>
        ((linksIn docs options file).filter (isMissing docs file)).map (finding file)).flatten := by
    rw [checkedLinks, listUnder, List.filter_flatMap, List.map_flatMap, List.flatMap_def]
    simp only [List.filter_map, List.map_map, Function.comp_def]
  rw [whole]
  change (files.mapM (findingsIn docs options) >>= fun found => .ok found.flatten) = _ ↔ _
  constructor
  · intro returned
    obtain ⟨found, read, same⟩ := exists_of_bind_eq_ok returned
    obtain ⟨decided, rfl⟩ := (mapM_eq_ok_iff findingsIn_eq_ok_iff).mp read
    exact ⟨decided, (Except.ok.inj same).symm⟩
  · rintro ⟨decided, rfl⟩
    rw [(mapM_eq_ok_iff findingsIn_eq_ok_iff).mpr ⟨decided, rfl⟩]
    rfl

theorem eq_of_finding_eq {file' : String} {link' : Link}
    (same : finding file link = finding file' link') :
    file = file' ∧ link.target = link'.target := by
  have sameText : toString "Broken link to \"" ++ String.ofList link.target ++ toString "\"" =
      toString "Broken link to \"" ++ String.ofList link'.target ++ toString "\"" :=
    Value.text.inj (congrArg Issue.message same)
  have sameTarget := (String.append_right_inj _).mp ((String.append_left_inj _).mp sameText)
  exact ⟨congrArg Issue.file same, String.ofList_inj.mp sameTarget⟩

theorem exists_isPresent {issues : List Issue} (returned : check docs files options = .ok issues)
    (isChecked : (file, link) ∈ checkedLinks docs files options) :
    ∃ present, docs.disk.isPresent (destination docs file link) = .ok present := by
  obtain ⟨listed, among⟩ := mem_listUnder_iff.mp isChecked
  exact ((check_eq_ok_iff.mp returned).1 file listed).links link among

/-- A link that is checked is told of exactly if nothing is found where it leads. -/
theorem finding_mem_iff {issues : List Issue} (returned : check docs files options = .ok issues)
    (isChecked : (file, link) ∈ checkedLinks docs files options) :
    finding file link ∈ issues ↔ docs.disk.isPresent (destination docs file link) = .ok false := by
  obtain ⟨present, found⟩ := exists_isPresent returned isChecked
  obtain ⟨-, rfl⟩ := check_eq_ok_iff.mp returned
  constructor
  · intro told
    obtain ⟨⟨file', link'⟩, kept, same⟩ := List.mem_map.mp told
    obtain ⟨rfl, sameTarget⟩ := eq_of_finding_eq same
    have missing := (List.mem_filter.mp kept).2
    have sameDestination : destination docs file' link' = destination docs file' link := by
      rw [destination, destination, sameTarget]
    rw [isMissing, sameDestination, found] at missing
    rw [found]
    exact congrArg _ (Option.some.inj (beq_iff_eq.mp missing))
  · intro missing
    refine List.mem_map.mpr ⟨(file, link), List.mem_filter.mpr ⟨isChecked, ?_⟩, rfl⟩
    rw [isMissing, missing]
    rfl

/-- How the broken links that are told relate to what links are resolved to. -/
structure AgreesWithResolution (docs : Docs) (files : List String) (options : Options)
    (issues : List Issue) : Prop where
  present : ∀ file link, (file, link) ∈ checkedLinks docs files options →
    finding file link ∉ issues → docs.isPresent (link.resolve file) = .ok true
  missing : ∀ file link, (file, link) ∈ checkedLinks docs files options →
    finding file link ∈ issues →
      docs.isPresent (link.resolve file) = .ok false ∨ LeavesNoFolder docs file link
  once : issues = ((checkedLinks docs files options).filter fun occurrence =>
    isMissing docs occurrence.1 occurrence.2).map fun occurrence => finding occurrence.1 occurrence.2
  ordered : (checkedLinks docs files options).Pairwise (InOrder files (·.line ≤ ·.line))

/-- Within the limits on lengths the check ends in a report where the globs decide and each file
that is checked can be read. The report agrees with what the links are resolved to. -/
theorem check_agrees_with_resolution (docs : Docs) {files : List String}
    (named : ∀ file ∈ files, EndsInName file) (options : Options) :
    ((∀ file link, (file, link) ∈ checkedLinks docs files options →
        docs.disk.Fits (destination docs file link)) →
      (Succeeds (check docs files options) ↔
        ∀ file ∈ files, Succeeds (options.excludePaths.anyGlobMatches file) ∧
          (options.excludePaths.anyGlobMatches file = .ok false →
            Succeeds (docs.document file)))) ∧
      ∀ issues, check docs files options = .ok issues →
        AgreesWithResolution docs files options issues := by
  constructor
  · intro fits
    constructor
    · rintro ⟨issues, returned⟩ file listed
      have decides := (check_eq_ok_iff.mp returned).1 file listed
      exact ⟨decides.globs, decides.document⟩
    · intro readable
      refine ⟨_, check_eq_ok_iff.mpr ⟨fun file listed => ?_, rfl⟩⟩
      refine ⟨(readable file listed).1, (readable file listed).2, fun link among => ?_⟩
      obtain ⟨node, found⟩ :=
        (fits file link (mem_listUnder_iff.mpr ⟨listed, among⟩)).exists_node?
      rw [Disk.isPresent, found]
      exact .ok _
  · intro issues returned
    refine ⟨fun file link isChecked untold => ?_, fun file link isChecked told => ?_,
      (check_eq_ok_iff.mp returned).2,
      pairwise_listUnder fun file _ => pairwise_linksIn docs options file⟩
    · have listed := (mem_listUnder_iff.mp isChecked).1
      obtain ⟨present, found⟩ := exists_isPresent returned isChecked
      cases present with
      | true => exact isPresent_resolve_of_present (named file listed) found
      | false => exact absurd ((finding_mem_iff returned isChecked).mpr found) untold
    · obtain ⟨listed, among⟩ := mem_listUnder_iff.mp isChecked
      obtain ⟨-, document, read, -⟩ := mem_linksIn_iff.mp among
      exact isPresent_resolve_of_missing (named file listed) ⟨document, read⟩
        ((finding_mem_iff returned isChecked).mp told)

/-- Discovered files have such names. Of four links one is missing by either reading and one by the
walk alone, which does not come through a folder that is not there. -/
theorem check_agrees_with_resolution_discovered :
    let entries : List (String × Node) :=
      [("b.md", .file (Text.encode "[s](guide//./a.md)".toList)),
        ("guide", .folder
          [("a.md", .file (Text.encode "[p](../b.md)\n[q](no/../a.md) [r](c.md)".toList))])]
    let docs : Docs := ⟨⟨.folder [("docs", .folder entries)], []⟩, .fromTop ["docs"]⟩
    let files := ["b.md", "guide/a.md"]
    let broken : Link := ⟨['q'], "no/../a.md".toList, 2⟩
    let told := [finding "guide/a.md" broken, finding "guide/a.md" ⟨['r'], "c.md".toList, 2⟩]
    docs.discoverDefault = .ok files ∧ (∀ file ∈ files, EndsInName file) ∧
      (∀ file link, (file, link) ∈ checkedLinks docs files {} →
        docs.disk.Fits (destination docs file link)) ∧
      check docs files = .ok told ∧
      docs.isPresent (broken.resolve "guide/a.md") = .ok true ∧
      AgreesWithResolution docs files {} told := by
  intro entries docs files broken told
  have found : docs.disk.node? docs.root = .ok (some (.folder entries)) := by cbv
  have listed : docs.discoverDefault = .ok files := by cbv
  have plain : (Node.folder entries).HasPlainNames := by
    have each : ∀ part ∈ ["b.md", "guide", "a.md"],
        '/' ∉ part.toList ∧ part ≠ "" ∧ part ≠ "." ∧ part ≠ ".." := by decide
    intro file member part among
    have isPart : part ∈ ["b.md", "guide", "a.md"] := by
      simp only [entries, Node.files, Node.filesOf] at member
      rcases List.mem_pair.mp member with rfl | rfl
      · exact List.mem_of_mem_take (i := 1) among
      · exact List.mem_of_mem_drop (i := 1) among
    obtain ⟨slashless, nonempty, notHere, notAbove⟩ := each part isPart
    exact ⟨slashless, nonempty, notHere, notAbove⟩
  have named : ∀ file ∈ files, EndsInName file := by
    intro file member
    have written := discovered_written (fun others same => ?_) listed
    · obtain ⟨folders, name, plainParts, rfl⟩ := written.2 file member
      exact endsInName_joinSlashes plainParts
    · obtain rfl := Node.folder.inj (Option.some.inj (Except.ok.inj (found.symm.trans same)))
      exact plain
  have fits : ∀ file link, (file, link) ∈ checkedLinks docs files {} →
      docs.disk.Fits (destination docs file link) := by
    have links : checkedLinks docs files {} =
        [("b.md", ⟨['s'], "guide//./a.md".toList, 1⟩), ("guide/a.md", ⟨['p'], "../b.md".toList, 1⟩),
          ("guide/a.md", broken), ("guide/a.md", ⟨['r'], "c.md".toList, 2⟩)] := by cbv
    have limits : ∀ occurrence ∈ checkedLinks docs files {},
        (∀ part ∈ docs.disk.absoluteParts (destination docs occurrence.1 occurrence.2),
          part.utf8ByteSize ≤ Node.longestName) ∧
        (destination docs occurrence.1 occurrence.2).toString.utf8ByteSize < Disk.pathLimit := by
      rw [links]
      decide
    exact fun file link member => ⟨(limits (file, link) member).1, (limits (file, link) member).2⟩
  have returned : check docs files = .ok told := by cbv
  exact ⟨listed, named, fits, returned, by cbv,
    (check_agrees_with_resolution docs named {}).2 told returned⟩

end BrokenLinks

end DocAudit
