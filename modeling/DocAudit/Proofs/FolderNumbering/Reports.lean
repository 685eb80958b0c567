import DocAudit.Proofs.Faults
import DocAudit.Proofs.FolderNumbering.Gaps
import DocAudit.Proofs.Outcome
import DocAudit.Proofs.Tree.StandardDiscovery
import Mathlib

/-!
What is told of the numbers in front of folder names. Among the folders of a place those without a
number are told where some have one, and at most one number is told to be missing. It is the least
one that is, as long as no two folders share a number.
-/

namespace DocAudit

theorem Disk.exists_entries_of_isFolder {disk : Disk} {path : FilePath}
    (present : disk.isFolder path = .ok true) : ∃ entries, disk.entries path = .ok entries := by
  rw [isFolder, node?] at present
  rw [Disk.entries]
  split at present
  · next place node found =>
    cases node with
    | file content => cases present
    | folder entries => exact ⟨entries, by rw [found]⟩
  all_goals cases present

/-- Visible folders that stand in order are listed as they stand. -/
theorem Disk.visibleFolders_of_entries {disk : Disk} {path : FilePath}
    {entries : List (String × Node)} {names : List String} (read : disk.entries path = .ok entries)
    (visible : (entries.filter fun entry =>
      entry.2.isFolder && entry.1.toList.head? != some '.').map (·.1) = names)
    (inOrder : names.Pairwise (· ≤ ·)) : disk.visibleFolders path = .ok names := by
  have sorted : sortedNames names = names :=
    (List.mergeSort_perm names lessOrEqual).eq_of_pairwise' (pairwise_le_sortedNames names) inOrder
  rw [visibleFolders, read]
  exact congrArg Except.ok ((congrArg sortedNames visible).trans sorted)

namespace FolderNumbering

variable {docs : Docs} {options : Options} {path name : String} {checkSequence : Bool}
  {names folders : List String}

/-- The folders of a place that are to be numbered, in order: no hidden ones, and none that stand
outside of the layout. -/
def ListsFolders (docs : Docs) (path : String) (folders : List String) : Prop :=
  folders.Pairwise (· ≤ ·) ∧ ∃ entries, docs.disk.entries (docs.path path) = .ok entries ∧
    folders.Perm ((entries.filter fun entry =>
      entry.2.isFolder && !Discovery.isHidden entry.1 && !isSetAside entry.1).map (·.1))

/-- The numbers of some folders, each as often as it is given. -/
def numbersOf (folders : List String) : List Nat :=
  folders.filterMap number?

/-- What is told of the folders of a place. -/
structure Told where
  unnumbered : List String
  missing : Option Nat

def Told.issues (path : String) (told : Told) : List Issue :=
  told.unnumbered.map (unnumberedFinding path) ++ (told.missing.map (gapFinding path)).toList

/-- What is told tells the truth of the folders. -/
structure TellsNumbers (folders : List String) (checkSequence : Bool) (told : Told) : Prop where
  unnumbered : ∀ name, name ∈ told.unnumbered ↔
    name ∈ folders ∧ number? name = none ∧ ∃ numbered ∈ folders, (number? numbered).isSome = true
  inOrder : told.unnumbered.Sublist folders
  missing : ∀ number, told.missing = some number ↔
    checkSequence = true ∧ IsBreak (numbersOf folders) number
  nothingMissing : told.missing = none ↔
    (checkSequence = true → IsContiguous (numbersOf folders) ∧ (numbersOf folders).Nodup)
  leastMissing : (numbersOf folders).Nodup → ∀ number, told.missing = some number ↔
    checkSequence = true ∧ IsLeast {missing | IsMissing (numbersOf folders) missing} number

/-- What is told of the folders that are to be numbered. -/
def toldOf (checkSequence : Bool) (folders : List String) : Told where
  unnumbered :=
    if (numbersOf folders).isEmpty then [] else folders.filter fun name => (number? name).isNone
  missing := if checkSequence then gap? (numbersOf folders) else none

theorem numbersOf_eq_nil_iff : numbersOf folders = [] ↔ ∀ name ∈ folders, number? name = none :=
  List.filterMap_eq_nil_iff

theorem findings_eq (path : String) (checkSequence : Bool) (names : List String) :
    findings path checkSequence names =
      (toldOf checkSequence (names.filter (!isSetAside ·))).issues path := by
  rw [findings, Told.issues, toldOf]
  change (if (numbersOf (names.filter (!isSetAside ·))).isEmpty = true then _ else _) = _
  generalize names.filter (!isSetAside ·) = folders
  cases known : (numbersOf folders).isEmpty with
  | true =>
    rw [List.isEmpty_iff] at known
    cases checkSequence <;> simp [known, gap?]
  | false => cases checkSequence <;> simp [numbersOf]

theorem tellsNumbers_toldOf (checkSequence : Bool) (folders : List String) :
    TellsNumbers folders checkSequence (toldOf checkSequence folders) := by
  have missing (number : Nat) : (toldOf checkSequence folders).missing = some number ↔
      checkSequence = true ∧ IsBreak (numbersOf folders) number := by
    rw [toldOf, ← gap?_eq_some_iff]
    cases checkSequence <;> simp
  refine ⟨fun name => ?_, ?_, missing, ?_, fun distinct number => ?_⟩
  · rw [toldOf]
    cases known : (numbersOf folders).isEmpty with
    | true =>
      rw [List.isEmpty_iff, numbersOf_eq_nil_iff] at known
      refine iff_of_false List.not_mem_nil ?_
      rintro ⟨-, -, numbered, member, given⟩
      rw [known numbered member] at given
      cases given
    | false =>
      have given : ∃ numbered ∈ folders, (number? numbered).isSome = true := by
        by_contra noneGiven
        have empty := numbersOf_eq_nil_iff.mpr fun name member =>
          Option.not_isSome_iff_eq_none.mp fun given => noneGiven ⟨name, member, given⟩
        rw [empty] at known
        cases known
      simp [given]
  · rw [toldOf]
    dsimp only
    split
    · exact List.nil_sublist folders
    · exact List.filter_sublist
  · rw [toldOf, ← gap?_eq_none_iff]
    cases checkSequence <;> simp
  · rw [missing, isBreak_iff_of_nodup distinct]

/-- The folders that are to be numbered are listed as they stand on the disk. -/
theorem listsFolders_of_visibleFolders
    (listed : docs.disk.visibleFolders (docs.path path) = .ok names) :
    ListsFolders docs path (names.filter (!isSetAside ·)) := by
  obtain ⟨entries, read, ⟨⟩⟩ := exists_of_bind_eq_ok listed
  refine ⟨(Disk.pairwise_le_sortedNames _).filter _, entries, read, ?_⟩
  refine ((List.mergeSort_perm _ _).filter _).trans (.of_eq ?_)
  rw [List.filter_map, List.filter_filter]
  refine congrArg (List.map Prod.fst) (List.filter_congr fun entry _ => ?_)
  simp only [Function.comp_apply, Discovery.isHidden, bne, Bool.and_comm]

/-- What is found under one value of the option: nothing where it names no folder. -/
def TellsAt (docs : Docs) (checkSequence : Bool) (value : Value) (issues : List Issue) : Prop :=
  ∃ path, strictPath value = .ok path ∧
    (docs.disk.isFolder (docs.path path) = .ok false ∧ issues = [] ∨
      docs.disk.isFolder (docs.path path) = .ok true ∧
        ∃ folders told, ListsFolders docs path folders ∧ TellsNumbers folders checkSequence told ∧
          issues = told.issues path)

theorem tellsAt_of_pathFindings {value : Value} {issues : List Issue}
    (returned : pathFindings docs checkSequence value = .ok issues) :
    TellsAt docs checkSequence value issues := by
  obtain ⟨path, named, returned⟩ := exists_of_bind_eq_ok returned
  obtain ⟨present, asked, returned⟩ := exists_of_bind_eq_ok returned
  refine ⟨path, named, ?_⟩
  cases present with
  | false =>
    cases returned
    exact .inl ⟨asked, rfl⟩
  | true =>
    obtain ⟨names, listed, ⟨⟩⟩ := exists_of_bind_eq_ok returned
    exact .inr ⟨asked, _, _, listsFolders_of_visibleFolders listed,
      tellsNumbers_toldOf checkSequence _, findings_eq path checkSequence names⟩

theorem succeeds_pathFindings_iff {value : Value} :
    Succeeds (pathFindings docs checkSequence value) ↔
      ∃ path, strictPath value = .ok path ∧ Succeeds (docs.disk.isFolder (docs.path path)) := by
  rw [pathFindings, Succeeds.bind_iff]
  refine exists_congr fun path => and_congr_right fun _ => ?_
  rw [Succeeds.bind_iff]
  refine exists_congr fun present => ?_
  refine and_iff_left_of_imp fun asked => ?_
  cases present with
  | false => exact .ok []
  | true =>
    obtain ⟨entries, read⟩ := Disk.exists_entries_of_isFolder asked
    refine Succeeds.bind_ok_iff.mpr ?_
    rw [Disk.visibleFolders, read]
    exact .ok _

/-- What is found in a folder once the folders in it and their numbers are known. -/
theorem pathFindings_of_numbers {value : Value} {numbers : List Nat} {told : Told}
    (named : strictPath value = .ok path)
    (present : docs.disk.isFolder (docs.path path) = .ok true)
    (listed : docs.disk.visibleFolders (docs.path path) = .ok names)
    (counted : names.filter (!isSetAside ·) = folders) (given : numbersOf folders = numbers)
    (someGiven : numbers.isEmpty = false)
    (others : folders.filter (fun name => (number? name).isNone) = told.unnumbered)
    (gap : gap? numbers = told.missing) :
    pathFindings docs true value = .ok (told.issues path) := by
  have found : findings path true names = told.issues path := by
    rw [findings_eq, counted, toldOf, given, someGiven, others, gap]
    rfl
  simp [pathFindings, named, present, listed, found, bind, Except.bind, pure, Except.pure]

theorem pathFindings_of_no_folder {value : Value} (named : strictPath value = .ok path)
    (absent : docs.disk.isFolder (docs.path path) = .ok false) :
    pathFindings docs checkSequence value = .ok [] := by
  simp [pathFindings, named, absent, bind, Except.bind, pure, Except.pure]

/-- The check ends in a report where each value of the option is the path of a place that can be
looked up. Of each place that is a folder it tells the folders without a number and at most one
number, at which counting up from the least one first fails. -/
theorem check_tells_numbers (docs : Docs) (options : Options) :
    (Succeeds (check docs options) ↔
      ∃ values, options.strictPaths.items = .ok values ∧ ∀ value ∈ values,
        ∃ path, strictPath value = .ok path ∧ Succeeds (docs.disk.isFolder (docs.path path))) ∧
      ∀ issues, check docs options = .ok issues →
        ∃ values found, options.strictPaths.items = .ok values ∧ issues = found.flatten ∧
          List.Forall₂ (TellsAt docs options.checkSequence.truthy) values found := by
  constructor
  · rw [check, Succeeds.bind_iff]
    refine exists_congr fun values => and_congr_right fun _ => ?_
    refine Succeeds.bind_ok_iff.trans (Succeeds.mapM_iff.trans ?_)
    exact forall₂_congr fun _ _ => succeeds_pathFindings_iff
  · intro issues returned
    obtain ⟨values, read, returned⟩ := exists_of_bind_eq_ok returned
    obtain ⟨found, each, ⟨⟩⟩ := exists_of_bind_eq_ok returned
    exact ⟨values, found, read, rfl, (forall₂_of_mapM each).imp fun _ _ => tellsAt_of_pathFindings⟩

/-- At the top a number is missing, and one folder has none. Below two folders share a number. -/
theorem check_tells_numbers_of_two_places :
    let docs : Docs :=
      { disk :=
          { root := .folder
              [("docs", .folder
                [(".git", .folder []), ("01-plan", .folder []),
                  ("02-spec", .folder
                    [("01-a", .folder []), ("01-b", .folder []), ("02-c", .folder [])]),
                  ("04-dev", .folder []), ("_old", .folder []), ("guides", .folder [])])]
            workingFolder := [] }
        root := .fromTop ["docs"] }
    let issues := [unnumberedFinding "" "guides", gapFinding "" 3, gapFinding "02-spec" 2]
    check docs = .ok issues ∧
      ∃ values found, ({} : Options).strictPaths.items = .ok values ∧ issues = found.flatten ∧
        List.Forall₂ (TellsAt docs true) values found := by
  intro docs issues
  have top : pathFindings docs true (.text "") = .ok (Told.issues "" ⟨["guides"], some 3⟩) := by
    have listed : docs.disk.visibleFolders (docs.path "") =
        .ok ["01-plan", "02-spec", "04-dev", "_old", "guides"] :=
      Disk.visibleFolders_of_entries (by cbv) rfl (by decide)
    have given : numbersOf ["01-plan", "02-spec", "04-dev", "guides"] = [1, 2, 4] := by
      decide +kernel
    exact pathFindings_of_numbers rfl (by cbv) listed (by decide) given rfl (by decide +kernel)
      (by cbv)
  have below : pathFindings docs true (.text "02-spec") =
      .ok (Told.issues "02-spec" ⟨[], some 2⟩) := by
    have listed : docs.disk.visibleFolders (docs.path "02-spec") =
        .ok ["01-a", "01-b", "02-c"] := Disk.visibleFolders_of_entries (by cbv) rfl (by decide)
    have given : numbersOf ["01-a", "01-b", "02-c"] = [1, 1, 2] := by decide +kernel
    exact pathFindings_of_numbers rfl (by cbv) listed (by decide) given rfl (by decide +kernel)
      (by cbv)
  have returned : check docs = .ok issues := by
    change ([.text "", .text "02-spec"].mapM (pathFindings docs true) >>= fun found =>
      Except.ok found.flatten) = _
    rw [List.mapM_cons, List.mapM_cons, top, below]
    rfl
  exact ⟨returned, (check_tells_numbers docs {}).2 issues returned⟩

/-- A number that a folder has is told to be missing, and none is. -/
theorem check_misses_given_number :
    let entries : List (String × Node) :=
      [("01-a", .folder []), ("01-b", .folder []), ("02-c", .folder [])]
    let docs : Docs := ⟨⟨.folder [("docs", .folder entries)], []⟩, .fromTop ["docs"]⟩
    let folders := ["01-a", "01-b", "02-c"]
    ListsFolders docs "" folders ∧ IsContiguous (numbersOf folders) ∧
      2 ∈ numbersOf folders ∧ check docs = .ok [gapFinding "" 2] := by
  intro entries docs folders
  have listed : docs.disk.visibleFolders (docs.path "") = .ok folders :=
    Disk.visibleFolders_of_entries (by cbv) rfl (by decide)
  have given : numbersOf folders = [1, 1, 2] := by decide +kernel
  have contiguous : IsContiguous [1, 1, 2] := by
    intro low lowGiven high highGiven number above below
    simp only [List.mem_cons, List.not_mem_nil, or_false] at *
    omega
  have top : pathFindings docs true (.text "") = .ok (Told.issues "" ⟨[], some 2⟩) :=
    pathFindings_of_numbers rfl (by cbv) listed (by decide) given rfl (by decide +kernel) (by cbv)
  have below : pathFindings docs true (.text "02-spec") = .ok [] :=
    pathFindings_of_no_folder rfl (by cbv)
  refine ⟨listsFolders_of_visibleFolders listed, given ▸ contiguous, by decide +kernel, ?_⟩
  change ([.text "", .text "02-spec"].mapM (pathFindings docs true) >>= fun found =>
    Except.ok found.flatten) = _
  rw [List.mapM_cons, List.mapM_cons, top, below]
  rfl

end FolderNumbering

end DocAudit
