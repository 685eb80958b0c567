import DocAudit.Proofs.Tree.OverwrittenDisk
import Mathlib.Data.List.Induction

/-!
What stands where on a disk. A place is a row of names from the top, without dots; at each of them
there is a file, a folder or nothing. Where a path leads, and what is read there, depends on
nothing else, and a path that leads to a place goes on to lead there while nothing is taken away.
-/

namespace DocAudit

/-- What can stand at a place. -/
inductive Standing where
  | file (content : ByteArray)
  | folder

namespace Node

def standing : Node → Standing
  | .file content => .file content
  | .folder _ => .folder

/-- What stands at a place below a root. -/
def stands (root : Node) (place : List String) : Option Standing :=
  (root.descend place).map standing

theorem stands_cons_folder (entries : List (String × Node)) (name : String) (rest : List String) :
    (folder entries).stands (name :: rest) = (entries.lookup name).bind (·.stands rest) := by
  rw [stands, descend, Option.map_bind]
  rfl

theorem stands_cons_file (content : ByteArray) (name : String) (rest : List String) :
    (file content).stands (name :: rest) = none :=
  rfl

theorem exists_folder_of_stands {root : Node} {place : List String}
    (folder : root.stands place = some .folder) :
    ∃ entries, root.descend place = some (.folder entries) := by
  obtain ⟨node, found, standing⟩ := Option.map_eq_some_iff.mp folder
  cases node with
  | file content => cases standing
  | folder entries => exact ⟨entries, found⟩

theorem descend_of_stands_file {root : Node} {place : List String} {content : ByteArray}
    (file : root.stands place = some (.file content)) :
    root.descend place = some (.file content) := by
  obtain ⟨node, found, standing⟩ := Option.map_eq_some_iff.mp file
  cases node with
  | file content' =>
    cases standing
    exact found
  | folder entries => cases standing

/-- Only a folder has anything below it. -/
theorem stands_folder_of_below {root : Node} {place : List String} {name : String}
    {standing : Standing} (below : root.stands (place ++ [name]) = some standing) :
    root.stands place = some .folder := by
  obtain ⟨node, found, -⟩ := Option.map_eq_some_iff.mp below
  rw [descend_append, Option.bind_eq_some_iff] at found
  obtain ⟨outer, outerFound, inner⟩ := found
  cases outer with
  | file content => cases inner
  | folder entries => rw [stands, outerFound]; rfl

end Node

/-! ## Walks -/

/-- The place that parts lead to from another one, by what stands where. -/
def walk (stands : List String → Option Standing) (place : List String) :
    List String → Except Refusal (List String)
  | [] => .ok place
  | part :: rest =>
    match stands place with
    | some .folder =>
      if part = ".." then walk stands place.dropLast rest
      else if Node.longestName < part.utf8ByteSize then .error .nameTooLong
      else if (stands (place ++ [part])).isSome then walk stands (place ++ [part]) rest
      else .error .noEntry
    | _ => .error .notFolder

section walk

variable {stands stands' : List String → Option Standing} {place : List String}

theorem walk_cons_of_folder (folder : stands place = some .folder) (part : String)
    (rest : List String) :
    walk stands place (part :: rest) =
      if part = ".." then walk stands place.dropLast rest
      else if Node.longestName < part.utf8ByteSize then .error .nameTooLong
      else if (stands (place ++ [part])).isSome then walk stands (place ++ [part]) rest
      else .error .noEntry := by
  rw [walk, folder]

theorem walk_cons_of_not_folder (noFolder : stands place ≠ some .folder) (part : String)
    (rest : List String) : walk stands place (part :: rest) = .error .notFolder := by
  rw [walk]
  split
  · next folder => exact absurd folder noFolder
  · rfl

theorem walk_append (front behind : List String) :
    walk stands place (front ++ behind) =
      walk stands place front >>= fun further => walk stands further behind := by
  induction front generalizing place with
  | nil => rfl
  | cons part rest induction =>
    by_cases folder : stands place = some .folder
    · rw [List.cons_append, walk_cons_of_folder folder, walk_cons_of_folder folder]
      split
      · exact induction
      · split
        · rfl
        · split
          · exact induction
          · rfl
    · rw [List.cons_append, walk_cons_of_not_folder folder, walk_cons_of_not_folder folder]
      rfl

theorem walk_append_eq_ok_iff {front behind reached : List String} :
    walk stands place (front ++ behind) = .ok reached ↔
      ∃ further, walk stands place front = .ok further ∧ walk stands further behind = .ok reached := by
  rw [walk_append]
  cases walk stands place front with
  | error refusal => simp [bind, Except.bind]
  | ok further => simp [bind, Except.bind]

/-- What stands somewhere goes on to stand there; a file may get another content. -/
structure Keeps (stands stands' : List String → Option Standing) : Prop where
  folder : ∀ place, stands place = some .folder → stands' place = some .folder
  file : ∀ place content, stands place = some (.file content) →
    ∃ content', stands' place = some (.file content')

namespace Keeps

theorem refl (stands : List String → Option Standing) : Keeps stands stands where
  folder _ found := found
  file _ content found := ⟨content, found⟩

theorem trans {stands'' : List String → Option Standing} (first : Keeps stands stands')
    (second : Keeps stands' stands'') : Keeps stands stands'' where
  folder place found := second.folder place (first.folder place found)
  file place content found := by
    obtain ⟨content', found'⟩ := first.file place content found
    exact second.file place content' found'

theorem isSome (keeps : Keeps stands stands') {place : List String}
    (present : (stands place).isSome = true) : (stands' place).isSome = true := by
  cases found : stands place with
  | none => rw [found] at present; cases present
  | some standing =>
    cases standing with
    | folder => rw [keeps.folder place found]; rfl
    | file content =>
      obtain ⟨content', found'⟩ := keeps.file place content found
      rw [found']
      rfl

theorem walk (keeps : Keeps stands stands') {parts reached : List String}
    (walked : walk stands place parts = .ok reached) :
    DocAudit.walk stands' place parts = .ok reached := by
  induction parts generalizing place with
  | nil => exact walked
  | cons part rest induction =>
    by_cases folder : stands place = some .folder
    · rw [walk_cons_of_folder folder] at walked
      rw [walk_cons_of_folder (keeps.folder place folder)]
      split at walked
      · next up => rw [if_pos up]; exact induction walked
      · next down =>
        split at walked
        · cases walked
        · next fits =>
          split at walked
          · next present =>
            rw [if_neg down, if_neg fits, if_pos (keeps.isSome present)]
            exact induction walked
          · cases walked
    · rw [walk_cons_of_not_folder folder] at walked
      cases walked

end Keeps

/-- One name further from a folder. -/
theorem walk_append_singleton {parts folder : List String} {name : String}
    (walked : walk stands place parts = .ok folder) (isFolder : stands folder = some .folder)
    (down : name ≠ "..") :
    walk stands place (parts ++ [name]) =
      if Node.longestName < name.utf8ByteSize then .error .nameTooLong
      else if (stands (folder ++ [name])).isSome then .ok (folder ++ [name])
      else .error .noEntry := by
  rw [walk_append, walked]
  change walk stands folder [name] = _
  rw [walk_cons_of_folder isFolder, if_neg down, walk]

/-- Without dots a walk goes down name by name. -/
theorem eq_append_of_walk {parts reached : List String} (undotted : ".." ∉ parts)
    (walked : walk stands place parts = .ok reached) : reached = place ++ parts := by
  induction parts generalizing place with
  | nil =>
    cases walked
    exact (List.append_nil _).symm
  | cons part rest induction =>
    rw [List.mem_cons, not_or] at undotted
    by_cases folder : stands place = some .folder
    · rw [walk_cons_of_folder folder, if_neg (Ne.symm undotted.1)] at walked
      split at walked
      · cases walked
      · split at walked
        · rw [induction undotted.2 walked, List.append_assoc]
          rfl
        · cases walked
    · rw [walk_cons_of_not_folder folder] at walked
      cases walked

/-- Where something stands, its names lead there, unless one of them is too long. -/
theorem walk_of_isSome {parts : List String}
    (below : ∀ place name, (stands (place ++ [name])).isSome = true → stands place = some .folder)
    (undotted : ".." ∉ parts) (present : (stands (place ++ parts)).isSome = true) :
    walk stands place parts = .ok (place ++ parts) ∨
      walk stands place parts = .error .nameTooLong := by
  induction parts using List.reverseRecOn with
  | nil =>
    left
    rw [List.append_nil]
    rfl
  | append_singleton front name induction =>
    rw [List.mem_append, List.mem_singleton, not_or] at undotted
    rw [← List.append_assoc] at present
    have folder := below _ _ present
    rcases induction undotted.1 (by rw [folder]; rfl) with walked | tooLong
    · rw [walk_append_singleton walked folder (Ne.symm undotted.2), if_pos present]
      split
      · exact .inr rfl
      · left
        rw [List.append_assoc]
    · right
      rw [walk_append, tooLong]
      rfl

end walk

/-! ## Paths -/

/-- Following a path is a walk over what stands where. -/
theorem Node.Leads.walk {root node : Node} {above : List (String × Node)}
    (leads : Leads root above node) (parts : List String) :
    (node.follow above parts).map (fun reached => placeOf reached.1) =
      DocAudit.walk root.stands (placeOf above) parts := by
  induction parts generalizing above node with
  | nil => rfl
  | cons part rest induction =>
    have here : root.stands (placeOf above) = some node.standing := by
      rw [stands, leads.descend]
      rfl
    cases node with
    | file content =>
      rw [walk_cons_of_not_folder (by rw [here]; simp [standing])]
      rfl
    | folder entries =>
      rw [walk_cons_of_folder here, follow_folder]
      split
      · cases leads with
        | here => exact induction .here
        | @down above outer name child leads found =>
          rw [placeOf_cons, List.dropLast_concat]
          exact induction leads
      · split
        · rfl
        · have below : root.stands (placeOf above ++ [part]) =
              (entries.lookup part).map standing := by
            rw [stands, descend_append, leads.descend]
            rfl
          rw [below]
          cases found : entries.lookup part with
          | none => rfl
          | some child =>
            rw [Option.map_some, Option.isSome_some, if_pos rfl, ← placeOf_cons]
            exact induction (leads.down found)

/-- A path with further parts behind it. -/
def FilePath.extend (path : FilePath) (behind : List String) : FilePath :=
  { path with parts := path.parts ++ behind }

theorem FilePath.join_of_relative (folder path : FilePath) (relative : path.slashes = 0) :
    folder.join path = folder.extend path.parts := by
  rw [join, isAbsolute, relative]
  rfl

theorem FilePath.join_of_absolute (folder path : FilePath) (absolute : 0 < path.slashes) :
    folder.join path = path :=
  if_pos (decide_eq_true absolute)

/-- A path that the file system takes at all. -/
structure FilePath.IsNameable (path : FilePath) : Prop where
  withoutNul : path.toString.contains '\x00' = false
  fits : path.toString.utf8ByteSize < Disk.pathLimit

namespace Disk

open Node

def stands (disk : Disk) (place : List String) : Option Standing :=
  disk.root.stands place

/-- The place that a path leads to. -/
def walk (disk : Disk) (path : FilePath) : Except Refusal (List String) :=
  DocAudit.walk disk.stands [] (disk.absoluteParts path)

variable {disk : Disk} {path : FilePath} {place : List String} {refusal : Refusal}

theorem absoluteParts_of_absolute (disk : Disk) (path : FilePath) (absolute : 0 < path.slashes) :
    disk.absoluteParts path = path.parts :=
  if_pos (decide_eq_true absolute)

theorem absoluteParts_extend (disk : Disk) (path : FilePath) (behind : List String) :
    disk.absoluteParts (path.extend behind) = disk.absoluteParts path ++ behind := by
  rw [absoluteParts, absoluteParts]
  change (if path.isAbsolute then path.parts ++ behind
    else disk.workingFolder ++ (path.parts ++ behind)) = _
  split
  · rfl
  · exact (List.append_assoc _ _ _).symm

theorem walk_eq_follow (disk : Disk) (path : FilePath) :
    disk.walk path =
      (disk.root.follow [] (disk.absoluteParts path)).map fun reached => placeOf reached.1 :=
  (Leads.here.walk (disk.absoluteParts path)).symm

theorem lookup_of_nameable (nameable : path.IsNameable) :
    (∃ node, disk.lookup path = .found place node) ↔ disk.walk path = .ok place := by
  rw [lookup, if_neg (by rw [nameable.withoutNul]; exact Bool.false_ne_true),
    if_neg (Nat.not_le.mpr nameable.fits), walk_eq_follow]
  cases disk.root.follow [] (disk.absoluteParts path) with
  | error refusal => simp [Except.map]
  | ok reached => simp [Except.map, placeOf]

theorem lookup_refused_of_nameable (nameable : path.IsNameable) :
    disk.lookup path = .refused refusal ↔ disk.walk path = .error refusal := by
  rw [lookup, if_neg (by rw [nameable.withoutNul]; exact Bool.false_ne_true),
    if_neg (Nat.not_le.mpr nameable.fits), walk_eq_follow]
  cases disk.root.follow [] (disk.absoluteParts path) with
  | error refusal => simp [Except.map]
  | ok reached => simp [Except.map]

theorem isNameable_of_found {node : Node} (found : disk.lookup path = .found place node) :
    path.IsNameable := by
  rw [lookup] at found
  split at found
  · cases found
  · next withoutNul =>
    split at found
    · cases found
    · next fits => exact ⟨eq_false_of_ne_true withoutNul, Nat.not_le.mp fits⟩

theorem lookup_found_iff {node : Node} :
    disk.lookup path = .found place node ↔
      path.IsNameable ∧ disk.walk path = .ok place ∧ disk.root.descend place = some node := by
  constructor
  · intro found
    have nameable := isNameable_of_found found
    exact ⟨nameable, (lookup_of_nameable nameable).mp ⟨node, found⟩, descend_of_lookup found⟩
  · rintro ⟨nameable, walked, descended⟩
    obtain ⟨node', found⟩ := (lookup_of_nameable nameable).mpr walked
    have same := (descend_of_lookup found).symm.trans descended
    rw [found, Option.some.inj same]

/-! ## What is read -/

theorem isPresent_iff :
    disk.isPresent path = .ok true ↔ path.IsNameable ∧ ∃ place, disk.walk path = .ok place := by
  constructor
  · intro present
    rw [isPresent, node?] at present
    split at present
    · next place node found =>
      exact ⟨isNameable_of_found found, place, (lookup_found_iff.mp found).2.1⟩
    all_goals cases present
  · rintro ⟨nameable, place, walked⟩
    obtain ⟨node, found⟩ := (lookup_of_nameable nameable).mpr walked
    rw [isPresent, node?, found]
    rfl

theorem isFolder_iff :
    disk.isFolder path = .ok true ↔
      path.IsNameable ∧ ∃ place, disk.walk path = .ok place ∧ disk.stands place = some .folder := by
  constructor
  · intro present
    rw [isFolder, node?] at present
    split at present
    · next place node found =>
      obtain ⟨nameable, walked, descended⟩ := lookup_found_iff.mp found
      refine ⟨nameable, place, walked, ?_⟩
      cases node with
      | file content => cases present
      | folder entries => rw [stands, Node.stands, descended]; rfl
    all_goals cases present
  · rintro ⟨nameable, place, walked, folder⟩
    obtain ⟨entries, descended⟩ := exists_folder_of_stands folder
    rw [isFolder, node?, lookup_found_iff.mpr ⟨nameable, walked, descended⟩]
    rfl

theorem readBytes_iff {content : ByteArray} :
    disk.readBytes path = .ok content ↔
      path.IsNameable ∧ ∃ place, disk.walk path = .ok place ∧
        disk.stands place = some (.file content) := by
  constructor
  · intro read
    obtain ⟨nameable, walked, descended⟩ := lookup_found_iff.mp (lookup_of_readBytes read)
    refine ⟨nameable, _, walked, ?_⟩
    rw [stands, Node.stands, descended]
    rfl
  · rintro ⟨nameable, place, walked, file⟩
    have found := lookup_found_iff.mpr ⟨nameable, walked, descend_of_stands_file file⟩
    rw [readBytes, found]

theorem walk_of_readBytes {content : ByteArray} (read : disk.readBytes path = .ok content) :
    disk.walk path = .ok (disk.place path) :=
  (lookup_found_iff.mp (lookup_of_readBytes read)).2.1

theorem entries_iff {entries : List (String × Node)} :
    disk.entries path = .ok entries ↔
      path.IsNameable ∧ ∃ place, disk.walk path = .ok place ∧
        disk.root.descend place = some (.folder entries) := by
  constructor
  · intro listed
    rw [Disk.entries] at listed
    split at listed
    · next place entries' found =>
      cases listed
      obtain ⟨nameable, walked, descended⟩ := lookup_found_iff.mp found
      exact ⟨nameable, place, walked, descended⟩
    all_goals cases listed
  · rintro ⟨nameable, place, walked, descended⟩
    rw [Disk.entries, lookup_found_iff.mpr ⟨nameable, walked, descended⟩]

/-- Where a path leads nowhere, no limit stands in the way. -/
theorem exists_of_isPresent_eq_false (absent : disk.isPresent path = .ok false)
    (nameable : path.IsNameable) :
    ∃ refusal, disk.walk path = .error refusal ∧ refusal ≠ .nameTooLong := by
  rw [isPresent, node?] at absent
  split at absent
  · cases absent
  · cases absent
  · next refusal notTooLong refused =>
    exact ⟨refusal, (lookup_refused_of_nameable nameable).mp refused, notTooLong⟩
  · next unnameable =>
    cases walked : disk.walk path with
    | ok place =>
      obtain ⟨node, found⟩ := (lookup_of_nameable nameable).mpr walked
      rw [unnameable] at found
      cases found
    | error refusal =>
      rw [(lookup_refused_of_nameable nameable).mpr walked] at unnameable
      cases unnameable

end Disk

end DocAudit
