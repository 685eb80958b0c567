import DocAudit.Proofs.Tree.Placing
import DocAudit.Proofs.Tree.StandardDiscovery

/-!
Contents of files by place, the entries of a folder, and the files directly in it. What a path reads
is the content at the place that it leads to, so two disks are compared place by place.
-/

namespace DocAudit

namespace Node

theorem HasDistinctNames.descend {root node : Node} {place : List String}
    (distinct : root.HasDistinctNames) (found : root.descend place = some node) :
    node.HasDistinctNames := by
  induction place generalizing root with
  | nil =>
    cases found
    exact distinct
  | cons name rest induction =>
    cases root with
    | file content => cases found
    | folder entries =>
      rw [Node.descend, Option.bind_eq_some_iff] at found
      obtain ⟨child, inEntries, found⟩ := found
      rw [HasDistinctNames] at distinct
      exact induction (distinct.2.lookup inEntries) found

theorem mem_filesOf {entries : List (String × Node)} {name : String} {child : Node}
    {parts : List String} {content : ByteArray} (inEntries : entries.lookup name = some child)
    (member : (parts, content) ∈ child.files) : (name :: parts, content) ∈ filesOf entries := by
  induction entries with
  | nil => cases inEntries
  | cons entry rest induction =>
    obtain ⟨first, node⟩ := entry
    rw [filesOf, List.mem_append]
    rw [lookup_cons_eq] at inEntries
    split at inEntries
    · next same =>
      cases inEntries
      left
      exact List.mem_map.mpr ⟨_, member, by rw [same]⟩
    · exact .inr (induction inEntries)

theorem mem_files_of_descend {root : Node} {place : List String} {content : ByteArray}
    (found : root.descend place = some (.file content)) : (place, content) ∈ root.files := by
  induction place generalizing root with
  | nil =>
    cases found
    exact List.mem_singleton_self _
  | cons name rest induction =>
    cases root with
    | file content => cases found
    | folder entries =>
      rw [Node.descend, Option.bind_eq_some_iff] at found
      obtain ⟨child, inEntries, found⟩ := found
      rw [files]
      exact mem_filesOf inEntries (induction found)

end Node

namespace Disk

/-- The content of the file at a place. -/
def contentAt (disk : Disk) (place : List String) : Option ByteArray :=
  match disk.stands place with
  | some (.file content) => some content
  | _ => none

variable {disk next : Disk} {place : List String} {content : ByteArray}

theorem contentAt_eq_some_iff :
    disk.contentAt place = some content ↔ disk.stands place = some (.file content) := by
  rw [contentAt]
  split
  · next content' found => rw [found, Option.some_inj, Option.some_inj, Standing.file.injEq]
  · next noFile =>
    constructor
    · exact nofun
    · exact fun found => absurd found (noFile content)

theorem contentAt_congr (same : next.stands place = disk.stands place) :
    next.contentAt place = disk.contentAt place := by
  rw [contentAt, contentAt, same]

theorem Puts.contentAt (puts : Puts disk next place (.file content)) :
    next.contentAt place = some content :=
  contentAt_eq_some_iff.mpr puts.here

theorem Puts.contentAt_other {standing : Standing} (puts : Puts disk next place standing)
    {other : List String} (different : other ≠ place) :
    next.contentAt other = disk.contentAt other :=
  contentAt_congr (puts.other different)

theorem Grows.contentAt (grows : Grows disk next) (place : List String) :
    next.contentAt place = disk.contentAt place := by
  rcases grows.stands place with same | ⟨free, folder⟩
  · exact contentAt_congr same
  · rw [Disk.contentAt, Disk.contentAt, free, folder]

theorem readBytes_iff_contentAt {path : FilePath} :
    disk.readBytes path = .ok content ↔
      path.IsNameable ∧ ∃ place, disk.walk path = .ok place ∧
        disk.contentAt place = some content := by
  simp only [readBytes_iff, contentAt_eq_some_iff]

end Disk

/-! ## Names in a folder -/

/-- A name that is one part of a path and stands for itself. -/
structure FilePath.IsPlain (name : String) : Prop where
  single : FilePath.ofString name = { slashes := 0, parts := [name] }
  down : name ≠ ".."

namespace FilePath

theorem isPlain_of_markdown {name : String} (slashless : '/' ∉ name.toList)
    (markdown : suffix name = ".md") : IsPlain name := by
  have single : name.toList.splitOn '/' = [name.toList] := by
    have split := List.splitOn_intercalate '/' (List.forall_mem_singleton.mpr slashless) (by simp)
    simpa using split
  have noLead : leadingSlashes name.toList = [] := by
    cases letters : name.toList with
    | nil => rfl
    | cons c rest =>
      have noSlash : c ≠ '/' := by
        rintro rfl
        simp [letters] at slashless
      simp [leadingSlashes, noSlash]
  have other (dots : String) (bare : suffix dots = "") : name ≠ dots := by
    rintro rfl
    rw [bare] at markdown
    exact absurd markdown (by decide)
  refine ⟨?_, other ".." (by decide)⟩
  simp [ofString, splitSlashes, single, noLead, other "" (by decide), other "." (by decide)]

namespace IsPlain

variable {name : String}

theorem child (plain : IsPlain name) (folder : FilePath) :
    folder.child name = folder.extend [name] := by
  rw [FilePath.child, plain.single]
  exact folder.join_of_relative _ rfl

theorem absoluteParts_child (plain : IsPlain name) (disk : Disk) (folder : FilePath) :
    disk.absoluteParts (folder.child name) = disk.absoluteParts folder ++ [name] := by
  rw [plain.child, disk.absoluteParts_extend]

end IsPlain

end FilePath

namespace Disk

variable {disk : Disk} {folder : FilePath} {place outer : List String} {name : String}

theorem stands_folder_of_isSome (disk : Disk) (place : List String) (name : String)
    (present : (disk.stands (place ++ [name])).isSome = true) :
    disk.stands place = some .folder := by
  obtain ⟨standing, found⟩ := Option.isSome_iff_exists.mp present
  exact Node.stands_folder_of_below found

/-- A path one name further leads from the folder to a place in it. -/
theorem exists_of_walk_child (plain : FilePath.IsPlain name)
    (walked : disk.walk (folder.child name) = .ok place) :
    ∃ outer, disk.walk folder = .ok outer ∧ disk.stands outer = some .folder ∧
      place = outer ++ [name] := by
  rw [walk, plain.absoluteParts_child, walk_append_eq_ok_iff] at walked
  obtain ⟨outer, above, walked⟩ := walked
  by_cases isFolder : disk.stands outer = some .folder
  · rw [walk_cons_of_folder isFolder, if_neg plain.down] at walked
    split at walked
    · cases walked
    · split at walked
      · cases walked
        exact ⟨outer, above, isFolder, rfl⟩
      · cases walked
  · rw [walk_cons_of_not_folder isFolder] at walked
    cases walked

theorem walk_child (plain : FilePath.IsPlain name) (walked : disk.walk folder = .ok outer)
    (isFolder : disk.stands outer = some .folder) :
    disk.walk (folder.child name) =
      if Node.longestName < name.utf8ByteSize then .error .nameTooLong
      else if (disk.stands (outer ++ [name])).isSome then .ok (outer ++ [name])
      else .error .noEntry := by
  rw [walk, plain.absoluteParts_child]
  exact walk_append_singleton walked isFolder plain.down

/-- Where a name in a folder is missing although nothing is too long, nothing stands there. -/
theorem stands_eq_none_of_absent (plain : FilePath.IsPlain name)
    (nameable : (folder.child name).IsNameable)
    (absent : disk.isPresent (folder.child name) = .ok false)
    (reached : disk.walk folder = .ok outer ∧ disk.stands outer = some .folder ∨
      ".." ∉ disk.absoluteParts folder ∧ outer = disk.absoluteParts folder) :
    disk.stands (outer ++ [name]) = none := by
  obtain ⟨refusal, refused, notTooLong⟩ := exists_of_isPresent_eq_false absent nameable
  rw [← Option.not_isSome_iff_eq_none]
  intro present
  rcases reached with ⟨walked, isFolder⟩ | ⟨undotted, rfl⟩
  · rw [walk_child plain walked isFolder, if_pos present] at refused
    split at refused
    · cases refused
      exact notTooLong rfl
    · cases refused
  · have undotted' : ".." ∉ disk.absoluteParts (folder.child name) := by
      rw [plain.absoluteParts_child, List.mem_append, List.mem_singleton, not_or]
      exact ⟨undotted, Ne.symm plain.down⟩
    rw [← plain.absoluteParts_child] at present
    have reached : disk.walk (folder.child name) = _ ∨ disk.walk (folder.child name) = _ :=
      walk_of_isSome disk.stands_folder_of_isSome undotted' present
    rcases reached with walked | tooLong
    · rw [walked] at refused
      cases refused
    · rw [tooLong] at refused
      cases refused
      exact notTooLong rfl

/-- A path leads to a folder at a place, and one name further there is a file with this content. -/
structure Holds (disk : Disk) (folder : FilePath) (place : List String) (name : String)
    (content : ByteArray) : Prop where
  nameable : (folder.child name).IsNameable
  folderWalked : disk.walk folder = .ok place
  walked : disk.walk (folder.child name) = .ok (place ++ [name])
  content : disk.contentAt (place ++ [name]) = some content

theorem exists_holds_of_readBytes (plain : FilePath.IsPlain name) {content : ByteArray}
    (read : disk.readBytes (folder.child name) = .ok content) :
    ∃ place, Holds disk folder place name content := by
  obtain ⟨nameable, place, walked, found⟩ := readBytes_iff_contentAt.mp read
  obtain ⟨outer, folderWalked, -, rfl⟩ := exists_of_walk_child plain walked
  exact ⟨outer, nameable, folderWalked, walked, found⟩

namespace Holds

variable {next : Disk} {content : ByteArray}

theorem read (holds : Holds disk folder place name content) :
    disk.readBytes (folder.child name) = .ok content :=
  readBytes_iff_contentAt.mpr ⟨holds.nameable, _, holds.walked, holds.content⟩

theorem place_eq (holds : Holds disk folder place name content)
    (walked : disk.walk folder = .ok outer) : place = outer := by
  rw [holds.folderWalked] at walked
  exact Except.ok.inj walked

theorem extended (holds : Holds disk folder place name content) (extended : disk.Extends next)
    (same : next.contentAt (place ++ [name]) = disk.contentAt (place ++ [name])) :
    Holds next folder place name content where
  nameable := holds.nameable
  folderWalked := extended.walk holds.folderWalked
  walked := extended.walk holds.walked
  content := same.trans holds.content

/-- What is held by an extension was held before, if the folder was there and the file in it. -/
theorem before {old : ByteArray} (plain : FilePath.IsPlain name)
    (holds : Holds next folder place name content) (extended : disk.Extends next)
    (folderWalked : disk.walk folder = .ok place)
    (found : disk.contentAt (place ++ [name]) = some old) :
    Holds disk folder place name old := by
  have present : (disk.stands (place ++ [name])).isSome = true := by
    rw [contentAt_eq_some_iff.mp found]
    rfl
  have isFolder := disk.stands_folder_of_isSome place name present
  have walked := holds.walked
  rw [walk_child plain (extended.walk folderWalked)
    (extended.keeps.folder place isFolder)] at walked
  refine ⟨holds.nameable, folderWalked, ?_, found⟩
  rw [walk_child plain folderWalked isFolder, if_pos present]
  split at walked
  · cases walked
  · next fits => rw [if_neg fits]

end Holds

end Disk

end DocAudit
