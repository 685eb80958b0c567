import DocAudit.Proofs.Faults
import DocAudit.Proofs.Tree.NormalPath
import DocAudit.Proofs.Tree.StandardDiscovery

/-!
How discovery names the files that it lists. The names of a file and of the folders that hold it
are written one behind the other with slashes between them, and they are read back from the text.
-/

namespace DocAudit

/-- A name that is one part of a path and does not mean another folder. -/
structure IsPlainPart (part : String) : Prop where
  slashless : '/' ∉ part.toList
  nonempty : part ≠ ""
  notHere : part ≠ "."
  notAbove : part ≠ ".."

/-- A part of a path that leads to a file, to a folder or to the folder above. -/
structure IsStep (part : String) : Prop where
  slashless : '/' ∉ part.toList
  nonempty : part ≠ ""
  notHere : part ≠ "."

theorem IsPlainPart.isStep {part : String} (plain : IsPlainPart part) : IsStep part :=
  ⟨plain.slashless, plain.nonempty, plain.notHere⟩

theorem isStep_above : IsStep ".." := by
  constructor <;> decide

def Node.HasPlainNames (node : Node) : Prop :=
  ∀ file ∈ node.files, ∀ part ∈ file.1, IsPlainPart part

/-- Parts that are written with slashes between them are read back. -/
theorem ofString_joinSlashes_of_isStep {parts : List String} (steps : ∀ part ∈ parts, IsStep part) :
    FilePath.ofString (FilePath.joinSlashes parts) = { slashes := 0, parts := parts } := by
  have lead : ∀ letters ∈ parts.map String.toList,
      '/' ∉ letters ∧ letters ≠ [] ∧ letters ≠ ['.'] := by
    rw [List.forall_mem_map]
    intro part member
    have step := steps part member
    exact ⟨step.slashless, fun empty => step.nonempty (String.toList_inj.mp empty),
      fun here => step.notHere (String.toList_inj.mp here)⟩
  have relative := leadingSlashes_append [] (LinkPath.head?_intercalate lead)
  have whole : FilePath.joinSlashes parts =
      String.ofList (['/'].intercalate (parts.map String.toList)) := by
    rw [FilePath.joinSlashes, ← String.toList_inj, String.toList_intercalate]
    exact String.toList_ofList.symm
  rw [List.nil_append] at relative
  rw [whole, LinkPath.ofString_ofList, LinkPath.steps_intercalate lead, relative, List.map_map]
  simp [Function.comp_def, leadingSlashes]

theorem splitSlashes_joinSlashes_of_isStep {parts : List String} (nonempty : parts ≠ [])
    (steps : ∀ part ∈ parts, IsStep part) :
    splitSlashes (FilePath.joinSlashes parts) = parts := by
  have slashless : ∀ letters ∈ parts.map String.toList, '/' ∉ letters :=
    List.forall_mem_map.mpr fun part member => (steps part member).slashless
  have split : (FilePath.joinSlashes parts).toList.splitOn '/' = parts.map String.toList := by
    rw [FilePath.joinSlashes, String.toList_intercalate, show "/".toList = ['/'] from rfl]
    exact List.splitOn_intercalate '/' slashless (by simpa using nonempty)
  rw [splitSlashes, split, List.map_map]
  simp [Function.comp_def]

section joined

variable {folders : List String} {name : String}

theorem ofString_joinSlashes (plain : ∀ part ∈ folders ++ [name], IsPlainPart part) :
    FilePath.ofString (FilePath.joinSlashes (folders ++ [name])) =
      { slashes := 0, parts := folders ++ [name] } :=
  ofString_joinSlashes_of_isStep fun part member => (plain part member).isStep

theorem fileName_joinSlashes (steps : ∀ part ∈ folders ++ [name], IsStep part) :
    fileName (FilePath.joinSlashes (folders ++ [name])) = name := by
  rw [fileName, ofString_joinSlashes_of_isStep steps, FilePath.name, List.getLast?_concat]
  rfl

theorem endsInName_of_isStep (steps : ∀ part ∈ folders ++ [name], IsStep part) :
    EndsInName (FilePath.joinSlashes (folders ++ [name])) := by
  constructor
  · rw [fileName_joinSlashes steps]
    exact (steps name (by simp)).nonempty
  · rw [fileName_joinSlashes steps, splitSlashes_joinSlashes_of_isStep (by simp) steps,
      List.getLast?_concat]

theorem endsInName_joinSlashes (plain : ∀ part ∈ folders ++ [name], IsPlainPart part) :
    EndsInName (FilePath.joinSlashes (folders ++ [name])) :=
  endsInName_of_isStep fun part member => (plain part member).isStep

end joined

/-- What discovery lists is named once, by plain names with slashes between them. -/
theorem discovered_written {docs : Docs} {included excluded : Value} {files : List String}
    (named : ∀ entries, docs.disk.node? docs.root = .ok (some (.folder entries)) →
      (Node.folder entries).HasPlainNames)
    (found : docs.discover included excluded = .ok files) :
    files.Nodup ∧ ∀ file ∈ files, ∃ folders name,
      (∀ part ∈ folders ++ [name], IsPlainPart part) ∧
        file = FilePath.joinSlashes (folders ++ [name]) := by
  obtain ⟨node, reached, selected⟩ := exists_of_bind_eq_ok found
  cases node with
  | none =>
    cases selected
    exact ⟨List.nodup_nil, nofun⟩
  | some node =>
    cases node with
    | file content =>
      cases selected
      exact ⟨List.nodup_nil, nofun⟩
    | folder entries =>
      obtain ⟨kept, filtered, same⟩ := exists_of_bind_eq_ok selected
      cases same
      obtain ⟨-, rfl⟩ := filterM_eq_ok_iff.mp filtered
      refine ⟨(Disk.pairwise_lt_sortedNames (nodup_eraseDups _)).imp ne_of_lt, ?_⟩
      intro file member
      rw [Disk.sortedNames, List.mem_mergeSort, List.mem_eraseDups, List.mem_filter,
        Discovery.mem_visibleFiles] at member
      obtain ⟨⟨parts, content, inside, -, rfl⟩, -⟩ := member
      obtain ⟨folders, name, rfl⟩ := Discovery.exists_eq_append_of_mem_files inside
      exact ⟨folders, name, named entries reached _ inside, rfl⟩

end DocAudit
