import DocAudit.Docs
import DocAudit.Proofs.Tree.Overwrite

/-!
A disk whose files have new contents. Every question about it but what a file holds has the
answer that it has for the disk before.
-/

namespace DocAudit

open Node

namespace Disk

def overwrite (disk : Disk) (change : Change) : Disk :=
  { disk with root := disk.root.overwrite change }

/-- Where a path leads, dots taken along the way; nowhere counts as the top. -/
def place (disk : Disk) (path : FilePath) : List String :=
  match disk.lookup path with
  | .found parts _ => parts
  | _ => []

end Disk

def Lookup.overwrite (change : Change) : Lookup → Lookup
  | .found parts node => .found parts (node.overwrite (change.below parts))
  | .refused refusal => .refused refusal
  | .unnameable => .unnameable

namespace Disk

theorem lookup_overwrite (disk : Disk) (change : Change) (path : FilePath) :
    (disk.overwrite change).lookup path = (disk.lookup path).overwrite change := by
  have followed := follow_overwrite change [] disk.root (disk.absoluteParts path)
  rw [show change.below (placeOf []) = change from rfl, overwriteAbove] at followed
  rw [lookup, lookup]
  split
  · rfl
  · split
    · rfl
    · have sameParts : (disk.overwrite change).absoluteParts path = disk.absoluteParts path := rfl
      rw [sameParts, overwrite, followed]
      cases disk.root.follow [] (disk.absoluteParts path) with
      | error refusal => rfl
      | ok target =>
        have samePlace := placeOf_overwriteAbove change target.1
        simp only [Except.map, Lookup.overwrite]
        rw [placeOf, placeOf] at samePlace
        rw [samePlace, placeOf]

theorem place_overwrite (disk : Disk) (change : Change) (path : FilePath) :
    (disk.overwrite change).place path = disk.place path := by
  rw [place, lookup_overwrite, place]
  cases disk.lookup path <;> rfl

theorem isPresent_overwrite (disk : Disk) (change : Change) (path : FilePath) :
    (disk.overwrite change).isPresent path = disk.isPresent path := by
  rw [isPresent, node?, lookup_overwrite, isPresent, node?]
  cases disk.lookup path with
  | found parts node => rfl
  | refused refusal => cases refusal <;> rfl
  | unnameable => rfl

theorem isFolder_overwrite (disk : Disk) (change : Change) (path : FilePath) :
    (disk.overwrite change).isFolder path = disk.isFolder path := by
  rw [isFolder, node?, lookup_overwrite, isFolder, node?]
  cases disk.lookup path with
  | found parts node => cases node <;> simp only [Lookup.overwrite, Node.overwrite] <;> rfl
  | refused refusal => cases refusal <;> rfl
  | unnameable => rfl

theorem entries_overwrite (disk : Disk) (change : Change) (path : FilePath) :
    (disk.overwrite change).entries path =
      (disk.entries path).map (overwriteEach (change.below (disk.place path))) := by
  rw [entries, lookup_overwrite, entries, place]
  cases disk.lookup path with
  | found parts node => cases node <;> simp only [Lookup.overwrite, Node.overwrite] <;> rfl
  | refused refusal => rfl
  | unnameable => rfl

/-- Views of the entries of a folder that do not look into files. -/
theorem filter_names_overwriteEach (change : Change) (entries : List (String × Node))
    (test : String → Bool → Bool) :
    ((overwriteEach change entries).filter fun entry => test entry.1 entry.2.isFolder).map (·.1) =
      (entries.filter fun entry => test entry.1 entry.2.isFolder).map (·.1) := by
  rw [overwriteEach_eq_map, List.filter_map, List.map_map]
  congr 1
  apply List.filter_congr
  intro entry _
  exact congrArg (test entry.1) (Node.isFolder_overwrite (change.below [entry.1]) entry.2)

theorem visibleFolders_overwrite (disk : Disk) (change : Change) (path : FilePath) :
    (disk.overwrite change).visibleFolders path = disk.visibleFolders path := by
  rw [visibleFolders, entries_overwrite, visibleFolders]
  cases disk.entries path with
  | error fault => rfl
  | ok entries =>
    have sameNames := filter_names_overwriteEach (change.below (disk.place path)) entries
      fun name isFolder => isFolder && name.toList.head? != some '.'
    exact congrArg (fun names => Except.ok (sortedNames names)) sameNames

/-! ## Reading and writing -/

theorem readBytes_overwrite (disk : Disk) (change : Change) (path : FilePath) :
    (disk.overwrite change).readBytes path =
      (disk.readBytes path).map (change (disk.place path)) := by
  rw [readBytes, lookup_overwrite, readBytes, place]
  cases disk.lookup path with
  | found parts node =>
    cases node with
    | file content => simp [Lookup.overwrite, Node.overwrite, Change.below, Except.map]
    | folder entries => simp only [Lookup.overwrite, Node.overwrite]; rfl
  | refused refusal => rfl
  | unnameable => rfl

/-- What can be read is a file, and it stands in the folder that its path names. -/
theorem lookup_of_readBytes {disk : Disk} {path : FilePath} {content : ByteArray}
    (read : disk.readBytes path = .ok content) :
    disk.lookup path = .found (disk.place path) (.file content) := by
  rw [readBytes] at read
  rw [place]
  split at read <;> cases read
  next parts found => rw [found]

theorem descend_of_lookup {disk : Disk} {path : FilePath} {parts : List String} {node : Node}
    (found : disk.lookup path = .found parts node) : disk.root.descend parts = some node := by
  rw [lookup] at found
  split at found
  · cases found
  · split at found
    · cases found
    · cases followed : disk.root.follow [] (disk.absoluteParts path) with
      | error refusal => rw [followed] at found; cases found
      | ok target =>
        rw [followed] at found
        cases found
        exact (Leads.here.follow followed).descend

/-- Writing a file that can be read changes its content and nothing else. -/
theorem writeBytes_eq_overwrite {disk : Disk} {path : FilePath} {content : ByteArray}
    (distinct : disk.root.HasDistinctNames) (read : disk.readBytes path = .ok content)
    (renew : ByteArray → ByteArray) :
    disk.writeBytes path (renew content) =
      .ok (disk.overwrite (.only (disk.place path) renew)) := by
  have found := lookup_of_readBytes read
  rw [writeBytes, found]
  exact congrArg (fun root => Except.ok { disk with root := root })
    (put_eq_overwrite distinct (descend_of_lookup found) renew)

theorem overwrite_overwrite (disk : Disk) (first second : Change) :
    (disk.overwrite first).overwrite second =
      disk.overwrite fun parts content => second parts (first parts content) :=
  congrArg (fun root => { disk with root := root })
    (Node.overwrite_overwrite first second disk.root)

theorem overwrite_keep (disk : Disk) : disk.overwrite (fun _ content => content) = disk :=
  congrArg (fun root => { disk with root := root }) (Node.overwrite_keep disk.root)

end Disk

/-! ## Discovery -/

theorem visibleFiles_overwrite (node : Node) (change : Change) :
    Discovery.visibleFiles (node.overwrite change) = Discovery.visibleFiles node := by
  rw [Discovery.visibleFiles, files_overwrite, List.filter_map, List.map_map]
  rfl

theorem discover_overwrite (disk : Disk) (change : Change) (root : FilePath)
    (included excluded : Value) :
    Docs.discover ⟨disk.overwrite change, root⟩ included excluded =
      Docs.discover ⟨disk, root⟩ included excluded := by
  rw [Docs.discover, Docs.discover, Disk.node?, Disk.lookup_overwrite, Disk.node?]
  cases disk.lookup root with
  | found parts node =>
    cases node with
    | file content => simp only [Lookup.overwrite, Node.overwrite]; rfl
    | folder entries =>
      have sameFiles := visibleFiles_overwrite (.folder entries) (change.below parts)
      rw [Node.overwrite] at sameFiles
      simp only [Lookup.overwrite, Node.overwrite]
      change Discovery.select included excluded _ = Discovery.select included excluded _
      rw [Discovery.select, sameFiles, Discovery.select]
  | refused refusal => cases refusal <;> rfl
  | unnameable => rfl

end DocAudit
