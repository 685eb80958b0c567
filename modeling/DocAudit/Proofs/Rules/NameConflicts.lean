import DocAudit.Proofs.Tree.ListedNames
import DocAudit.Rules.StandardFileNames

/-!
Names that stand side by side though they exclude one another. The files are grouped by their
folders, and each conflict is looked up in each group. What is told is told of the folder as a whole:
all names of the conflict are files right in it, and every one of them but the preferred one is
reported by its path.
-/

namespace DocAudit.StandardFileNames

variable {files names : List String} {folder name : String} {conflict : Conflict} {options : Options}

/-! ## Folders -/

/-- The path of a file from the docs folder, with nothing in it that leads nowhere. -/
def IsNormal (file : String) : Prop :=
  ∃ folders name, (∀ part ∈ folders ++ [name], IsStep part) ∧
    file = FilePath.joinSlashes (folders ++ [name])

/-- A folder as it is named. The docs folder itself is a dot. -/
def folderText (folders : List String) : String :=
  if folders = [] then "." else FilePath.joinSlashes folders

/-- A listed file that stands right in a folder. -/
def IsRightIn (files : List String) (folder name : String) : Prop :=
  ∃ folders, (∀ part ∈ folders ++ [name], IsStep part) ∧ folder = folderText folders ∧
    FilePath.joinSlashes (folders ++ [name]) ∈ files

section parts

variable {folders : List String}

theorem folderName_joinSlashes (steps : ∀ part ∈ folders ++ [name], IsStep part) :
    folderName (FilePath.joinSlashes (folders ++ [name])) = folderText folders := by
  rw [folderName, ofString_joinSlashes_of_isStep steps, FilePath.parent, List.dropLast_concat,
    FilePath.toString, folderText]
  simp

/-- The path of a file is put together again from its folder and its name. -/
theorem pathIn_folderText (steps : ∀ part ∈ folders ++ [name], IsStep part) :
    pathIn (folderText folders) name = FilePath.joinSlashes (folders ++ [name]) := by
  rw [pathIn, folderText]
  by_cases top : folders = []
  · rw [top]
    rfl
  · have notDot : FilePath.joinSlashes folders ≠ "." := by
      intro dot
      have read := ofString_joinSlashes_of_isStep fun part member =>
        steps part (List.mem_append_left [name] member)
      rw [dot] at read
      exact top (congrArg FilePath.parts read).symm
    rw [if_neg top, beq_false_of_ne notDot, if_neg Bool.false_ne_true, FilePath.joinSlashes,
      FilePath.joinSlashes, String.intercalate_append_of_ne_nil top (List.cons_ne_nil name []),
      String.intercalate_singleton]
    rfl

end parts

theorem isRightIn_iff (normal : ∀ file ∈ files, IsNormal file) :
    IsRightIn files folder name ↔
      ∃ file ∈ files, folderName file = folder ∧ fileName file = name := by
  constructor
  · rintro ⟨folders, steps, rfl, listed⟩
    exact ⟨_, listed, folderName_joinSlashes steps, fileName_joinSlashes steps⟩
  · rintro ⟨file, listed, rfl, rfl⟩
    obtain ⟨folders, name, steps, rfl⟩ := normal file listed
    rw [folderName_joinSlashes steps, fileName_joinSlashes steps]
    exact ⟨folders, steps, rfl, listed⟩

theorem IsRightIn.pathIn_mem (rightIn : IsRightIn files folder name) :
    pathIn folder name ∈ files := by
  obtain ⟨folders, steps, rfl, listed⟩ := rightIn
  rwa [pathIn_folderText steps]

theorem mem_folders_iff :
    (folder, names) ∈ folders files ↔
      (∃ file ∈ files, folderName file = folder) ∧
        names = (files.filter (folderName · == folder)).map fileName := by
  simp only [folders, List.mem_map, Disk.sortedNames, List.mem_mergeSort, List.mem_eraseDups,
    Prod.mk.injEq]
  constructor
  · rintro ⟨_, ⟨file, listed, rfl⟩, rfl, rfl⟩
    exact ⟨⟨file, listed, rfl⟩, rfl⟩
  · rintro ⟨⟨file, listed, rfl⟩, rfl⟩
    exact ⟨_, ⟨file, listed, rfl⟩, rfl, rfl⟩

theorem pairwise_folders (files : List String) :
    (folders files).Pairwise fun earlier later => earlier.1 < later.1 := by
  rw [folders, List.pairwise_map]
  exact Disk.pairwise_lt_sortedNames (nodup_eraseDups _)

/-! ## Clashes -/

/-- A name of a conflict that is told in a folder. The conflict and the name count by their
places. -/
structure Clash where
  folder : String
  place : Nat
  conflict : Conflict
  entry : Nat
  name : String

namespace Clash

def issue (clash : Clash) : Issue :=
  conflictFinding clash.folder clash.conflict clash.name

/-- All names of the conflict are files right in the folder, and this is not the preferred one. -/
structure Stands (clash : Clash) (files : List String) (conflicts : List Conflict) : Prop where
  conflict : conflicts[clash.place]? = some clash.conflict
  entry : clash.conflict.files[clash.entry]? = some (.text clash.name)
  notPreferred : clash.conflict.preferred ≠ .text clash.name
  complete : ∀ value ∈ clash.conflict.files, ∃ name, value = .text name ∧
    IsRightIn files clash.folder name

/-- In the order of the folders, then of the conflicts, then of their names. -/
def Precedes (clash later : Clash) : Prop :=
  clash.folder < later.folder ∨ clash.folder = later.folder ∧
    (clash.place < later.place ∨ clash.place = later.place ∧ clash.entry < later.entry)

end Clash

/-- The names of a conflict that are told where a folder has these names. -/
def clashesOf (folder : String) (names : List String) (conflict : Conflict) (place : Nat) :
    List Clash :=
  if conflict.files.all fun value => names.any (value.isText ·) then
    conflict.files.zipIdx.filterMap fun atEntry =>
      (conflictFindings.otherName? conflict atEntry.1).map fun name =>
        ⟨folder, place, conflict, atEntry.2, name⟩
  else []

def clashesIn (files : List String) (conflicts : List Conflict) : List Clash :=
  (folders files).flatMap fun inFolder =>
    conflicts.zipIdx.flatMap fun atPlace =>
      clashesOf inFolder.1 inFolder.2 atPlace.1 atPlace.2

theorem otherName?_eq_some_iff {value : Value} :
    conflictFindings.otherName? conflict value = some name ↔
      value = .text name ∧ conflict.preferred ≠ .text name := by
  cases value with
  | text content =>
    rw [conflictFindings.otherName?]
    by_cases preferred : conflict.preferred = .text content
    · rw [if_pos (Value.isText_iff.mpr preferred)]
      refine iff_of_false nofun ?_
      rintro ⟨⟨⟩, other⟩
      exact other preferred
    · rw [if_neg (mt Value.isText_iff.mp preferred)]
      constructor
      · rintro ⟨⟩
        exact ⟨rfl, preferred⟩
      · rintro ⟨⟨⟩, -⟩
        rfl
  | _ => exact iff_of_false nofun nofun

theorem mem_clashesOf_iff {place : Nat} {clash : Clash} :
    clash ∈ clashesOf folder names conflict place ↔
      (clash.folder = folder ∧ clash.place = place ∧ clash.conflict = conflict) ∧
        (∀ value ∈ conflict.files, ∃ name ∈ names, value = .text name) ∧
          conflict.files[clash.entry]? = some (.text clash.name) ∧
            conflict.preferred ≠ .text clash.name := by
  have complete : (conflict.files.all fun value => names.any (value.isText ·)) = true ↔
      ∀ value ∈ conflict.files, ∃ name ∈ names, value = .text name := by
    simp only [List.all_eq_true, List.any_eq_true, Value.isText_iff]
  rw [clashesOf, ← complete]
  split
  · next all =>
    simp only [List.mem_filterMap, Option.map_eq_some_iff, otherName?_eq_some_iff, Prod.exists,
      List.mem_zipIdx_iff_getElem?]
    constructor
    · rintro ⟨_, entry, atEntry, name, ⟨rfl, other⟩, rfl⟩
      exact ⟨⟨rfl, rfl, rfl⟩, all, atEntry, other⟩
    · rintro ⟨⟨rfl, rfl, rfl⟩, -, atEntry, other⟩
      exact ⟨_, _, atEntry, _, ⟨rfl, other⟩, rfl⟩
  · next missing => exact iff_of_false List.not_mem_nil fun facts => missing facts.2.1

theorem mem_clashesIn_iff {conflicts : List Conflict} (normal : ∀ file ∈ files, IsNormal file)
    {clash : Clash} : clash ∈ clashesIn files conflicts ↔ clash.Stands files conflicts := by
  have among {folder name : String} :
      name ∈ (files.filter (folderName · == folder)).map fileName ↔ IsRightIn files folder name := by
    simp only [isRightIn_iff normal, List.mem_map, List.mem_filter, beq_iff_eq, and_assoc]
  simp only [clashesIn, List.mem_flatMap, Prod.exists, mem_folders_iff, List.mem_zipIdx_iff_getElem?,
    mem_clashesOf_iff]
  constructor
  · rintro ⟨_, _, ⟨-, rfl⟩, _, _, atPlace, ⟨rfl, rfl, rfl⟩, complete, atEntry, other⟩
    refine ⟨atPlace, atEntry, other, fun value member => ?_⟩
    obtain ⟨name, inFolder, rfl⟩ := complete value member
    exact ⟨name, rfl, among.mp inFolder⟩
  · intro stands
    have complete (value : Value) (member : value ∈ clash.conflict.files) :
        ∃ name ∈ (files.filter (folderName · == clash.folder)).map fileName, value = .text name := by
      obtain ⟨name, rfl, rightIn⟩ := stands.complete value member
      exact ⟨name, among.mpr rightIn, rfl⟩
    obtain ⟨name, inFolder, -⟩ := complete _ (List.mem_of_getElem? stands.entry)
    obtain ⟨file, listed, inPlace, -⟩ := (isRightIn_iff normal).mp (among.mp inFolder)
    exact ⟨_, _, ⟨⟨file, listed, inPlace⟩, rfl⟩, _, _, stands.conflict, ⟨rfl, rfl, rfl⟩, complete,
      stands.entry, stands.notPreferred⟩

theorem pairwise_zipIdx {α : Type} (items : List α) :
    items.zipIdx.Pairwise fun earlier later => earlier.2 < later.2 := by
  have places : (items.zipIdx.map Prod.snd).Pairwise (· < ·) := by
    rw [List.zipIdx_map_snd]
    exact List.pairwise_lt_range'
  exact List.pairwise_map.mp places

theorem pairwise_clashesOf (folder : String) (names : List String) (conflict : Conflict)
    (place : Nat) : (clashesOf folder names conflict place).Pairwise Clash.Precedes := by
  rw [clashesOf]
  split
  · refine (pairwise_zipIdx conflict.files).filterMap _ fun earlier later before => ?_
    intro clash told clash' told'
    obtain ⟨_, -, rfl⟩ := Option.map_eq_some_iff.mp told
    obtain ⟨_, -, rfl⟩ := Option.map_eq_some_iff.mp told'
    exact .inr ⟨rfl, .inr ⟨rfl, before⟩⟩
  · exact .nil

theorem pairwise_clashesIn (files : List String) (conflicts : List Conflict) :
    (clashesIn files conflicts).Pairwise Clash.Precedes := by
  rw [clashesIn, List.pairwise_flatMap]
  constructor
  · rintro ⟨folder, names⟩ -
    rw [List.pairwise_flatMap]
    refine ⟨fun _ _ => pairwise_clashesOf _ _ _ _, (pairwise_zipIdx conflicts).imp ?_⟩
    intro earlier later before clash told clash' told'
    obtain ⟨⟨inFolder, atPlace, -⟩, -⟩ := mem_clashesOf_iff.mp told
    obtain ⟨⟨inFolder', atPlace', -⟩, -⟩ := mem_clashesOf_iff.mp told'
    refine .inr ⟨inFolder.trans inFolder'.symm, .inl ?_⟩
    rwa [atPlace, atPlace']
  · refine (pairwise_folders files).imp ?_
    intro earlier later before clash told clash' told'
    obtain ⟨_, -, told⟩ := List.mem_flatMap.mp told
    obtain ⟨_, -, told'⟩ := List.mem_flatMap.mp told'
    refine .inl ?_
    rwa [(mem_clashesOf_iff.mp told).1.1, (mem_clashesOf_iff.mp told').1.1]

/-! ## What is returned -/

theorem isAmong_eq_ok_iff {value : Value} {answer : Bool} :
    isAmong names value = .ok answer ↔
      value.unhashable? = none ∧ answer = names.any (value.isText ·) := by
  rw [isAmong]
  cases value.unhashable? with
  | none => simp [eq_comm]
  | some shape => simp

/-- What is asked of all values is answered by each, as far as it is asked. -/
theorem eq_all_of_allM_eq_ok {values : List Value} {answer : Bool}
    (answered : values.allM (isAmong names) = .ok answer) :
    answer = values.all fun value => names.any (value.isText ·) := by
  induction values with
  | nil =>
    cases answered
    rfl
  | cons value rest induction =>
    rw [List.allM_cons] at answered
    obtain ⟨first, asked, answered⟩ := exists_of_bind_eq_ok answered
    obtain ⟨-, rfl⟩ := isAmong_eq_ok_iff.mp asked
    rw [List.all_cons]
    cases isFirst : names.any (value.isText ·) with
    | true =>
      rw [isFirst] at answered
      exact induction answered
    | false =>
      rw [isFirst] at answered
      cases answered
      rfl

/-- What is told of a conflict where a folder has these names. -/
def issuesOf (folder : String) (names : List String) (conflict : Conflict) : List Issue :=
  if conflict.files.all fun value => names.any (value.isText ·) then
    (conflict.files.filterMap (conflictFindings.otherName? conflict)).map
      (conflictFinding folder conflict)
  else []

theorem map_issue_clashesOf (folder : String) (names : List String) (conflict : Conflict)
    (place : Nat) :
    (clashesOf folder names conflict place).map Clash.issue = issuesOf folder names conflict := by
  rw [clashesOf, issuesOf]
  split
  · have entries := List.zipIdx_map_fst 0 conflict.files
    nth_rewrite 2 [← entries]
    rw [List.filterMap_map, List.map_filterMap, List.map_filterMap]
    congr 1
    funext entry
    rw [Option.map_map]
    rfl
  · rfl

theorem map_issue_clashesIn (files : List String) (conflicts : List Conflict) :
    (clashesIn files conflicts).map Clash.issue =
      (folders files).flatMap fun inFolder =>
        conflicts.flatMap (issuesOf inFolder.1 inFolder.2) := by
  have entries := List.zipIdx_map_fst 0 conflicts
  simp only [clashesIn, List.map_flatMap, map_issue_clashesOf]
  congr 1
  funext folder
  nth_rewrite 2 [← entries]
  rw [List.flatMap_map]

theorem conflictFindings_eq_ok_iff {found : List Issue} :
    conflictFindings folder names conflict = .ok found ↔
      Succeeds (conflict.files.allM (isAmong names)) ∧ found = issuesOf folder names conflict := by
  rw [conflictFindings, issuesOf]
  cases asked : conflict.files.allM (isAmong names) with
  | error fault => exact iff_of_false nofun fun facts => Succeeds.error_iff.mp facts.1
  | ok answer =>
    rw [eq_all_of_allM_eq_ok asked, and_iff_right (Succeeds.ok _)]
    change (if _ then _ else _) = _ ↔ _
    split <;> exact ⟨fun returned => (Except.ok.inj returned).symm, fun same => by rw [same]; rfl⟩

/-- Nothing is asked of a conflict in these folders that cannot be looked up. -/
def AreAsked (files : List String) (conflicts : List Conflict) : Prop :=
  ∀ inFolder ∈ folders files, ∀ conflict ∈ conflicts,
    Succeeds (conflict.files.allM (isAmong inFolder.2))

theorem areAsked_of_hashable {conflicts : List Conflict}
    (hashable : ∀ conflict ∈ conflicts, ∀ value ∈ conflict.files, value.unhashable? = none) :
    AreAsked files conflicts := by
  intro inFolder _ conflict member
  have each := hashable conflict member
  generalize conflict.files = values at each
  induction values with
  | nil => exact .ok true
  | cons value rest induction =>
    obtain ⟨first, others⟩ := List.forall_mem_cons.mp each
    rw [List.allM_cons, isAmong_eq_ok_iff.mpr ⟨first, rfl⟩]
    cases inFolder.2.any (value.isText ·) with
    | true => exact induction others
    | false => exact .ok false

theorem folderFindings_eq_ok_iff {found : List Issue} :
    folderFindings options folder names = .ok found ↔
      (∀ conflict ∈ options.conflicts, Succeeds (conflict.files.allM (isAmong names))) ∧
        found = options.conflicts.flatMap (issuesOf folder names) := by
  exact flatten_mapM_eq_ok_iff fun _ _ => conflictFindings_eq_ok_iff

/-- What is said of names that tell of details. -/
def details (files : List String) (options : Options) : Except Fault (List Issue) :=
  if options.warnDetailFiles.truthy then Docs.inEach files (detailFindings options) else .ok []

theorem check_eq_ok_iff (on : options.warnConflicts.truthy = true) {issues : List Issue} :
    check files options = .ok issues ↔
      ∃ found, details files options = .ok found ∧ AreAsked files options.conflicts ∧
        issues = found ++ (clashesIn files options.conflicts).map Clash.issue := by
  have inFolders (found : List Issue) :
      ((folders files).mapM (fun inFolder => folderFindings options inFolder.1 inFolder.2) >>=
          fun results => .ok results.flatten) = .ok found ↔
        AreAsked files options.conflicts ∧
          found = (clashesIn files options.conflicts).map Clash.issue := by
    rw [map_issue_clashesIn]
    exact flatten_mapM_eq_ok_iff fun _ _ => folderFindings_eq_ok_iff
  have returned : check files options = details files options >>= fun found =>
      ((folders files).mapM (fun inFolder => folderFindings options inFolder.1 inFolder.2) >>=
        fun results => .ok results.flatten) >>= fun told => .ok (found ++ told) := by
    simp only [check, on, if_true, details, bind_assoc]
    split <;> rfl
  rw [returned]
  constructor
  · intro succeeds
    obtain ⟨found, isFound, succeeds⟩ := exists_of_bind_eq_ok succeeds
    obtain ⟨told, isTold, same⟩ := exists_of_bind_eq_ok succeeds
    obtain ⟨asked, rfl⟩ := (inFolders told).mp isTold
    exact ⟨found, isFound, asked, (Except.ok.inj same).symm⟩
  · rintro ⟨found, isFound, asked, rfl⟩
    rw [isFound]
    exact congrArg (· >>= fun told => .ok (found ++ told)) ((inFolders _).mpr ⟨asked, rfl⟩)

/-- The clashes that are told. -/
structure TellsConflicts (files : List String) (conflicts : List Conflict) (told : List Clash) :
    Prop where
  inOrder : told.Pairwise Clash.Precedes
  complete : ∀ clash, clash ∈ told ↔ clash.Stands files conflicts
  listed : ∀ clash ∈ told, clash.issue.file ∈ files
  together : ∀ clash ∈ told, ∀ value ∈ clash.conflict.files,
    ∃ file ∈ files, value = .text (fileName file) ∧ folderName file = clash.folder

theorem tellsConflicts_clashesIn (normal : ∀ file ∈ files, IsNormal file)
    (conflicts : List Conflict) : TellsConflicts files conflicts (clashesIn files conflicts) where
  inOrder := pairwise_clashesIn files conflicts
  complete := fun _ => mem_clashesIn_iff normal
  listed := by
    intro clash member
    have stands := (mem_clashesIn_iff normal).mp member
    obtain ⟨name, same, rightIn⟩ := stands.complete _ (List.mem_of_getElem? stands.entry)
    cases same
    exact rightIn.pathIn_mem
  together := by
    intro clash member value among
    obtain ⟨name, rfl, rightIn⟩ := ((mem_clashesIn_iff normal).mp member).complete value among
    obtain ⟨file, listed, inFolder, rfl⟩ := (isRightIn_iff normal).mp rightIn
    exact ⟨file, listed, rfl, inFolder⟩

/-- Where conflicts are looked for, the clashes in the folders are told behind what is said of
details. A conflict may hold values that are no names; one that cannot be looked up may be met, and
then nothing is returned. -/
theorem check_tells_conflicts (normal : ∀ file ∈ files, IsNormal file)
    (on : options.warnConflicts.truthy = true) :
    ∃ told, TellsConflicts files options.conflicts told ∧
      (∀ issues, check files options = .ok issues → ∃ found, details files options = .ok found ∧
        issues = found ++ told.map Clash.issue) ∧
      ((∀ conflict ∈ options.conflicts, ∀ value ∈ conflict.files, value.unhashable? = none) →
        ∀ found, details files options = .ok found →
          check files options = .ok (found ++ told.map Clash.issue)) := by
  refine ⟨_, tellsConflicts_clashesIn normal options.conflicts, ?_, ?_⟩
  · intro issues returned
    obtain ⟨found, isFound, -, same⟩ := (check_eq_ok_iff on).mp returned
    exact ⟨found, isFound, same⟩
  · intro hashable found isFound
    exact (check_eq_ok_iff on).mpr ⟨found, isFound, areAsked_of_hashable hashable, rfl⟩

/-- Two names that exclude one another in one folder, and each of them alone in another one. -/
theorem check_tells_conflicts_screens :
    let files := ["UI.md", "app/SCREEN.md", "app/UI.md", "web/SCREEN.md"]
    let options : Options := { warnDetailFiles := .bool false }
    let merge := conflictFinding "app" .standard "UI.md"
    (∀ file ∈ files, IsNormal file) ∧ options.warnConflicts.truthy = true ∧
      check files options = .ok [merge] ∧
        ∃ told, TellsConflicts files options.conflicts told ∧ told.map Clash.issue = [merge] := by
  intro files options merge
  have step (part : String) (named : '/' ∉ part.toList ∧ part ≠ "" ∧ part ≠ ".") : IsStep part :=
    ⟨named.1, named.2.1, named.2.2⟩
  have normal : ∀ file ∈ files, IsNormal file := by
    simp only [files, List.forall_mem_cons, List.not_mem_nil, false_imp_iff, implies_true, and_true]
    refine ⟨⟨[], "UI.md", ?_, ?_⟩, ⟨["app"], "SCREEN.md", ?_, ?_⟩, ⟨["app"], "UI.md", ?_, ?_⟩,
      ⟨["web"], "SCREEN.md", ?_, ?_⟩⟩
    all_goals first
      | decide +kernel
      | exact fun part member => step part (by revert part; decide +kernel)
  have on : options.warnConflicts.truthy = true := rfl
  have computed : check files options = .ok [merge] := by cbv
  obtain ⟨told, tells, -, returned⟩ := check_tells_conflicts normal on
  have isChecked : check files options = .ok ([] ++ told.map Clash.issue) :=
    returned (by decide +kernel) [] rfl
  exact ⟨normal, on, computed, told, tells, (Except.ok.inj (computed.symm.trans isChecked)).symm⟩

end DocAudit.StandardFileNames
