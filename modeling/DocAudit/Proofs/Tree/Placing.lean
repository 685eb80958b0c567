import DocAudit.Proofs.Tree.Standing
import Mathlib.Logic.Function.Basic

/-!
Putting a file or an empty folder on a disk. Something comes to stand at one place, and at every
other place there stands what stood there. New files and folders are put into folders that are
there, so nothing that stands on the disk is taken away.
-/

namespace DocAudit

namespace Node

/-! ## Entries -/

theorem lookup_setEntry (entries : List (String × Node)) (name : String) (node : Node)
    (other : String) :
    (setEntry entries name node).lookup other =
      if other = name then some node else entries.lookup other :=
  lookup_replace entries name node other

theorem nodup_setEntry {entries : List (String × Node)}
    (distinct : (entries.map (·.1)).Nodup) (name : String) (node : Node) :
    ((setEntry entries name node).map (·.1)).Nodup := by
  rw [setEntry]
  split
  · have sameNames : ((entries.map fun entry => if entry.1 == name then (name, node) else entry).map
        (·.1)) = entries.map (·.1) := by
      rw [List.map_map]
      apply List.map_congr_left
      intro entry _
      by_cases same : entry.1 = name <;> simp [same]
    rw [sameNames]
    exact distinct
  · next absent =>
    rw [List.map_append, List.map_singleton]
    refine List.nodup_append.mpr ⟨distinct, List.nodup_singleton name, ?_⟩
    rintro other known new member rfl
    obtain ⟨entry, inEntries, same⟩ := List.mem_map.mp known
    rw [List.mem_singleton] at member
    exact absent (List.any_eq_true.mpr ⟨entry, inEntries, beq_iff_eq.mpr (same.trans member)⟩)

theorem eachHasDistinctNames_iff {entries : List (String × Node)} :
    EachHasDistinctNames entries ↔ ∀ entry ∈ entries, entry.2.HasDistinctNames := by
  induction entries with
  | nil => simp [EachHasDistinctNames]
  | cons entry rest induction => rw [EachHasDistinctNames, List.forall_mem_cons, induction]

theorem eachHasDistinctNames_setEntry {entries : List (String × Node)}
    (distinct : EachHasDistinctNames entries) (name : String) {node : Node}
    (new : node.HasDistinctNames) : EachHasDistinctNames (setEntry entries name node) := by
  rw [eachHasDistinctNames_iff] at distinct ⊢
  rw [setEntry]
  split
  · rw [List.forall_mem_map]
    intro entry member
    split
    · exact new
    · exact distinct entry member
  · rw [List.forall_mem_append, List.forall_mem_singleton]
    exact ⟨distinct, new⟩

theorem HasDistinctNames.put {root new : Node} (distinct : root.HasDistinctNames)
    (newDistinct : new.HasDistinctNames) (place : List String) :
    (root.put place new).HasDistinctNames := by
  induction place generalizing root with
  | nil => exact newDistinct
  | cons name rest induction =>
    cases root with
    | file content => exact distinct
    | folder entries =>
      rw [HasDistinctNames] at distinct
      have childDistinct : ((entries.lookup name).getD (.folder [])).HasDistinctNames := by
        cases found : entries.lookup name with
        | none => simp [HasDistinctNames, EachHasDistinctNames]
        | some child => exact distinct.2.lookup found
      rw [Node.put, HasDistinctNames]
      exact ⟨nodup_setEntry distinct.1 _ _,
        eachHasDistinctNames_setEntry distinct.2 _ (induction childDistinct)⟩

/-! ## What stands where -/

/-- A place where a file can be put: a file stands there, or nothing does in a folder. -/
def HasRoomAt : Node → List String → Prop
  | .file _, [] => True
  | .folder _, [] => False
  | .file _, _ :: _ => False
  | .folder entries, name :: rest =>
    match entries.lookup name with
    | none => rest = []
    | some child => HasRoomAt child rest

theorem hasRoomAt_cons {entries : List (String × Node)} {name : String} {rest : List String}
    {child : Node} (found : entries.lookup name = some child) :
    (folder entries).HasRoomAt (name :: rest) ↔ child.HasRoomAt rest := by
  rw [HasRoomAt, found]

theorem hasRoomAt_of_file {root : Node} {place : List String} {content : ByteArray}
    (file : root.stands place = some (.file content)) : root.HasRoomAt place := by
  induction place generalizing root with
  | nil =>
    cases root with
    | file content => trivial
    | folder entries => cases file
  | cons name rest induction =>
    cases root with
    | file content => cases file
    | folder entries =>
      rw [stands_cons_folder, Option.bind_eq_some_iff] at file
      obtain ⟨child, found, file⟩ := file
      exact (hasRoomAt_cons found).mpr (induction file)

theorem hasRoomAt_of_folder {root : Node} {folder : List String} {name : String}
    (isFolder : root.stands folder = some .folder)
    (free : root.stands (folder ++ [name]) = none) : root.HasRoomAt (folder ++ [name]) := by
  induction folder generalizing root with
  | nil =>
    cases root with
    | file content => cases isFolder
    | folder entries =>
      have missing : entries.lookup name = none := by
        cases found : entries.lookup name with
        | none => rfl
        | some child =>
          rw [List.nil_append, stands_cons_folder, found] at free
          cases free
      rw [List.nil_append, HasRoomAt, missing]
  | cons part rest induction =>
    cases root with
    | file content => cases isFolder
    | folder entries =>
      rw [stands_cons_folder, Option.bind_eq_some_iff] at isFolder
      obtain ⟨child, found, isFolder⟩ := isFolder
      rw [List.cons_append, stands_cons_folder, found] at free
      exact (hasRoomAt_cons found).mpr (induction isFolder free)

/-- What is put at a place stands there, and nothing else is any different. -/
theorem stands_put {root new : Node} {place : List String} (room : root.HasRoomAt place)
    (bare : ∀ name rest, new.stands (name :: rest) = none) :
    (root.put place new).stands = Function.update root.stands place (some new.standing) := by
  induction place generalizing root with
  | nil =>
    cases root with
    | folder entries => exact room.elim
    | file content =>
      funext other
      cases other with
      | nil => rw [Function.update_self]; rfl
      | cons name rest =>
        rw [Function.update_of_ne (List.cons_ne_nil name rest), stands_cons_file]
        exact bare name rest
  | cons name rest induction =>
    cases root with
    | file content => exact room.elim
    | folder entries =>
      funext other
      rw [put]
      cases other with
      | nil => rw [Function.update_of_ne (List.cons_ne_nil name rest).symm]; rfl
      | cons first others =>
        rw [stands_cons_folder, lookup_setEntry]
        by_cases same : first = name
        · subst same
          rw [if_pos rfl, Option.bind_some]
          cases found : entries.lookup first with
          | none =>
            rw [HasRoomAt, found] at room
            subst room
            rw [Option.getD_none, put]
            cases others with
            | nil => rw [Function.update_self]; rfl
            | cons second others =>
              rw [Function.update_of_ne (by simp), stands_cons_folder, found]
              exact bare second others
          | some child =>
            rw [Option.getD_some, induction ((hasRoomAt_cons found).mp room)]
            by_cases here : others = rest
            · rw [here, Function.update_self, Function.update_self]
            · rw [Function.update_of_ne here, Function.update_of_ne (by simp [here]),
                stands_cons_folder, found]
              rfl
        · rw [if_neg same, Function.update_of_ne (by simp [same]), stands_cons_folder]

end Node

/-! ## Disks -/

namespace Disk

open Node

/-- A disk on which something has been put at a place. -/
structure Puts (disk next : Disk) (place : List String) (standing : Standing) : Prop where
  stands : next.stands = Function.update disk.stands place (some standing)
  workingFolder : next.workingFolder = disk.workingFolder
  distinct : disk.root.HasDistinctNames → next.root.HasDistinctNames

/-- A disk from which nothing has been taken away. There may be more, and files may hold something
else. -/
structure Extends (disk next : Disk) : Prop where
  keeps : Keeps disk.stands next.stands
  workingFolder : next.workingFolder = disk.workingFolder
  distinct : disk.root.HasDistinctNames → next.root.HasDistinctNames

/-- The place that a path leads to as soon as something stands there. Nothing does yet, but the
folder for it is there. -/
structure IsFree (disk : Disk) (path : FilePath) (place : List String) : Prop where
  nameable : path.IsNameable
  free : disk.stands place = none
  room : disk.root.HasRoomAt place
  leads : ∀ next, Extends disk next → (next.stands place).isSome = true →
    next.walk path = .ok place

/-- A disk with new folders, and nothing else that is new. -/
structure Grows (disk next : Disk) : Prop where
  stands : ∀ place, next.stands place = disk.stands place ∨
    disk.stands place = none ∧ next.stands place = some .folder
  workingFolder : next.workingFolder = disk.workingFolder
  distinct : disk.root.HasDistinctNames → next.root.HasDistinctNames

variable {disk next : Disk} {path : FilePath} {place : List String}

namespace Extends

theorem refl (disk : Disk) : Extends disk disk where
  keeps := .refl disk.stands
  workingFolder := rfl
  distinct distinct := distinct

theorem trans {last : Disk} (first : Extends disk next) (second : Extends next last) :
    Extends disk last where
  keeps := first.keeps.trans second.keeps
  workingFolder := second.workingFolder.trans first.workingFolder
  distinct distinct := second.distinct (first.distinct distinct)

theorem walk (extended : Extends disk next) (walked : disk.walk path = .ok place) :
    next.walk path = .ok place := by
  have sameParts : next.absoluteParts path = disk.absoluteParts path := by
    rw [absoluteParts, absoluteParts, extended.workingFolder]
  rw [Disk.walk, sameParts]
  exact extended.keeps.walk walked

end Extends

namespace Puts

theorem ofPut {new : Node} (room : disk.root.HasRoomAt place)
    (bare : ∀ name rest, new.stands (name :: rest) = none) (newDistinct : new.HasDistinctNames) :
    Puts disk { disk with root := disk.root.put place new } place new.standing where
  stands := stands_put room bare
  workingFolder := rfl
  distinct distinct := distinct.put newDistinct place

variable {standing : Standing}

theorem here (puts : Puts disk next place standing) : next.stands place = some standing := by
  rw [puts.stands, Function.update_self]

theorem other (puts : Puts disk next place standing) {other : List String}
    (different : other ≠ place) : next.stands other = disk.stands other := by
  rw [puts.stands, Function.update_of_ne different]

/-- Nothing is taken away where no folder is in the way and only a file takes the place of one. -/
theorem extended (puts : Puts disk next place standing)
    (noFolder : disk.stands place ≠ some .folder)
    (replaces : ∀ content, disk.stands place = some (.file content) →
      ∃ content', standing = .file content') : Extends disk next where
  keeps := {
    folder := by
      intro other found
      rw [puts.other, found]
      rintro rfl
      exact noFolder found
    file := by
      intro other content found
      by_cases here : other = place
      · subst here
        obtain ⟨content', rfl⟩ := replaces content found
        exact ⟨content', puts.here⟩
      · exact ⟨content, (puts.other here).trans found⟩ }
  workingFolder := puts.workingFolder
  distinct := puts.distinct

theorem extends_of_free (puts : Puts disk next place standing)
    (free : disk.stands place = none) : Extends disk next :=
  puts.extended (by simp [free]) (by simp [free])

theorem extends_of_file {content old : ByteArray} (puts : Puts disk next place (.file content))
    (file : disk.stands place = some (.file old)) : Extends disk next :=
  puts.extended (by simp [file]) fun _ _ => ⟨content, rfl⟩

theorem grows (puts : Puts disk next place .folder) (free : disk.stands place = none) :
    Grows disk next where
  stands other := by
    by_cases here : other = place
    · exact .inr ⟨here ▸ free, here ▸ puts.here⟩
    · exact .inl (puts.other here)
  workingFolder := puts.workingFolder
  distinct := puts.distinct

end Puts

namespace Grows

theorem refl (disk : Disk) : Grows disk disk where
  stands _ := .inl rfl
  workingFolder := rfl
  distinct distinct := distinct

theorem trans {last : Disk} (first : Grows disk next) (second : Grows next last) :
    Grows disk last where
  stands place := by
    rcases second.stands place with same | ⟨free, folder⟩
    · rw [same]
      exact first.stands place
    · rcases first.stands place with same | ⟨free', folder'⟩
      · exact .inr ⟨same.symm.trans free, folder⟩
      · rw [folder'] at free
        cases free
  workingFolder := second.workingFolder.trans first.workingFolder
  distinct distinct := second.distinct (first.distinct distinct)

theorem extended (grows : Grows disk next) : Extends disk next where
  keeps := {
    folder := by
      intro place found
      rcases grows.stands place with same | ⟨free, folder⟩
      · rw [same, found]
      · exact folder
    file := by
      intro place content found
      rcases grows.stands place with same | ⟨free, folder⟩
      · exact ⟨content, same.trans found⟩
      · rw [found] at free
        cases free }
  workingFolder := grows.workingFolder
  distinct := grows.distinct

end Grows

theorem isNameable_of_refused {refusal : Refusal} (refused : disk.lookup path = .refused refusal)
    (fits : refusal ≠ .nameTooLong) : path.IsNameable := by
  rw [lookup] at refused
  split at refused
  · cases refused
  · next withoutNul =>
    split at refused
    · cases refused
      exact absurd rfl fits
    · next short => exact ⟨eq_false_of_ne_true withoutNul, Nat.not_le.mp short⟩

theorem exists_of_newPlace (new : disk.newPlace path = .ok place) :
    ∃ folder, DocAudit.walk disk.stands [] (disk.absoluteParts path).dropLast = .ok folder ∧
      disk.stands folder = some .folder ∧
      place = folder ++ [(disk.absoluteParts path).getLast?.getD ""] := by
  rw [newPlace] at new
  cases followed : disk.root.follow [] (disk.absoluteParts path).dropLast with
  | error refusal => simp only [followed] at new; cases new
  | ok reached =>
    obtain ⟨above, node⟩ := reached
    have walked := (Leads.here : Leads disk.root [] disk.root).walk
      (disk.absoluteParts path).dropLast
    rw [followed] at walked
    have descended := (Leads.here.follow followed).descend
    simp only [followed, bind, Except.bind] at new
    cases node with
    | file content => cases new
    | folder entries =>
      refine ⟨placeOf above, walked.symm, ?_, ?_⟩
      · rw [stands, Node.stands, descended]
        rfl
      · rw [if_neg (by simp [Node.isFile, Node.isFolder])] at new
        split at new
        · cases new
        · cases new
          rfl

/-- The names before the last one lead to a folder, and there is nothing of the last name in it. -/
theorem isFree_of_newPlace (refused : disk.lookup path = .refused .noEntry)
    (new : disk.newPlace path = .ok place) : disk.IsFree path place := by
  have nameable := isNameable_of_refused refused nofun
  have nowhere := (lookup_refused_of_nameable nameable).mp refused
  obtain ⟨folder, walked, isFolder, rfl⟩ := exists_of_newPlace new
  rw [walk] at nowhere
  obtain ⟨front, name, split⟩ : ∃ front name, disk.absoluteParts path = front ++ [name] := by
    rcases List.eq_nil_or_concat (disk.absoluteParts path) with none | ⟨front, name, split⟩
    · rw [none] at nowhere
      cases nowhere
    · exact ⟨front, name, split.trans List.concat_eq_append⟩
  rw [split, List.dropLast_concat] at walked
  rw [split] at nowhere ⊢
  rw [List.getLast?_concat, Option.getD_some]
  have down : name ≠ ".." := by
    rintro rfl
    rw [walk_append, walked] at nowhere
    change DocAudit.walk disk.stands folder [".."] = _ at nowhere
    rw [walk_cons_of_folder isFolder, if_pos rfl] at nowhere
    cases nowhere
  rw [walk_append_singleton walked isFolder down] at nowhere
  split at nowhere
  · cases nowhere
  · next fits =>
    split at nowhere
    · cases nowhere
    · next absent =>
      rw [Option.not_isSome_iff_eq_none] at absent
      refine ⟨nameable, absent, hasRoomAt_of_folder isFolder absent, ?_⟩
      intro next extended present
      have sameParts : next.absoluteParts path = disk.absoluteParts path := by
        rw [absoluteParts, absoluteParts, extended.workingFolder]
      rw [walk, sameParts, split, walk_append_singleton (extended.keeps.walk walked)
        (extended.keeps.folder folder isFolder) down, if_neg fits, if_pos present]

theorem exists_of_makeFolder (made : disk.makeFolder path = .ok next) :
    ∃ place, disk.IsFree path place ∧ Puts disk next place .folder := by
  rw [makeFolder] at made
  split at made
  · cases made
  · cases made
  · next refused =>
    cases new : disk.newPlace path with
    | error refusal => rw [new] at made; cases made
    | ok place =>
      rw [new] at made
      cases made
      have isFree := isFree_of_newPlace refused new
      have bare (name : String) (rest : List String) :
          (folder []).stands (name :: rest) = none := rfl
      have distinct : (folder []).HasDistinctNames := by
        simp [HasDistinctNames, EachHasDistinctNames]
      exact ⟨place, isFree, .ofPut isFree.room bare distinct⟩
  · cases made

/-- A file that has been written stands where its path leads, in place of another one or in a
folder that had nothing there. -/
theorem exists_of_writeBytes {content : ByteArray}
    (written : disk.writeBytes path content = .ok next) :
    ∃ place, Puts disk next place (.file content) ∧
      (disk.IsFree path place ∨ path.IsNameable ∧ disk.walk path = .ok place ∧
        ∃ old, disk.stands place = some (.file old)) := by
  have bare (name : String) (rest : List String) : (file content).stands (name :: rest) = none :=
    rfl
  have distinct : (file content).HasDistinctNames := by simp [HasDistinctNames]
  rw [writeBytes] at written
  split at written
  · next place old found =>
    cases written
    obtain ⟨nameable, walked, descended⟩ := lookup_found_iff.mp found
    have here : disk.stands place = some (.file old) := by
      rw [stands, Node.stands, descended]
      rfl
    exact ⟨place, .ofPut (hasRoomAt_of_file here) bare distinct,
      .inr ⟨nameable, walked, old, here⟩⟩
  · cases written
  · cases written
  · next refused =>
    split at written
    · next place new =>
      cases written
      have isFree := isFree_of_newPlace refused new
      exact ⟨place, .ofPut isFree.room bare distinct, .inl isFree⟩
    · cases written
  · cases written

/-! ## Folders on the way -/

theorem grows_of_makeFolder (made : disk.makeFolder path = .ok next) : Grows disk next := by
  obtain ⟨place, isFree, puts⟩ := exists_of_makeFolder made
  exact puts.grows isFree.free

theorem grows_of_makeFoldersUpTo (depth : Nat) (path : FilePath) {result : Except Fault Unit}
    (made : disk.makeFoldersUpTo depth path = (next, result)) : Grows disk next := by
  fun_induction makeFoldersUpTo depth disk path generalizing next result with
  | case1 _ _ _ _ only =>
    cases made
    exact grows_of_makeFolder only
  | case2 _ _ _ _ _ _ above induction =>
    cases made
    exact induction above
  | case3 _ _ _ _ _ above _ last induction =>
    cases made
    exact (induction above).trans (grows_of_makeFolder last)
  | case4 _ _ _ _ _ above _ _ induction =>
    cases made
    exact induction above
  | case5 =>
    cases made
    exact .refl _

theorem grows_of_makeFolders {result : Except Fault Unit}
    (made : disk.makeFolders path = (next, result)) : Grows disk next := by
  rw [makeFolders] at made
  split at made
  · cases made
    exact .refl disk
  · exact grows_of_makeFoldersUpTo _ path made

end Disk

end DocAudit
