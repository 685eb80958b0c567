import DocAudit.Proofs.Tree.Relisted

/-!
Disks that hold the same tree, listed in two orders. A path leads to the same place on both, so
whatever is read has the same answer, fault or not, and whatever is written leaves the same tree.
-/

namespace DocAudit

open Node

/-! ## Where paths lead -/

/-- Two ways down lead to one place, and to one node listed in two orders. -/
structure SameWay (reached reached' : List (String × Node) × Node) : Prop where
  place : placeOf reached'.1 = placeOf reached.1
  node : reached.2.Relisted reached'.2

/-- Both are refused for one reason, or both succeed with values that are related. -/
inductive Conform {α : Type} (Related : α → α → Prop) : Except Refusal α → Except Refusal α → Prop
  | ok {value value' : α} : Related value value' → Conform Related (.ok value) (.ok value')
  | error (refusal : Refusal) : Conform Related (.error refusal) (.error refusal)

/-- The same place with one node listed in two orders, or the same reason why there is none. -/
inductive Lookup.Relisted : Lookup → Lookup → Prop where
  | found (place : List String) {node node' : Node} :
    node.Relisted node' → Lookup.Relisted (.found place node) (.found place node')
  | refused (refusal : Refusal) : Lookup.Relisted (.refused refusal) (.refused refusal)
  | unnameable : Lookup.Relisted .unnameable .unnameable

theorem Node.Relisted.follow {root root' : Node} (relisted : root.Relisted root')
    (parts : List String) :
    Conform SameWay (root.follow [] parts) (root'.follow [] parts) := by
  have walked := (Leads.here : Leads root [] root).walk parts
  have walked' := (Leads.here : Leads root' [] root').walk parts
  rw [relisted.stands, ← walked] at walked'
  cases followed : root.follow [] parts with
  | error refusal =>
    cases followed' : root'.follow [] parts with
    | error refusal' =>
      rw [followed, followed'] at walked'
      cases walked'
      exact .error refusal
    | ok reached' => rw [followed, followed'] at walked'; cases walked'
  | ok reached =>
    cases followed' : root'.follow [] parts with
    | error refusal' => rw [followed, followed'] at walked'; cases walked'
    | ok reached' =>
      rw [followed, followed'] at walked'
      have samePlace : placeOf reached'.1 = placeOf reached.1 := Except.ok.inj walked'
      have both := relisted.descend (placeOf reached.1)
      rw [(Leads.here.follow followed).descend, ← samePlace,
        (Leads.here.follow followed').descend] at both
      cases both with
      | some same => exact .ok ⟨samePlace, same⟩

namespace Disk

/-- One tree on two disks, whose folders list their entries in any order. -/
structure Relisted (disk disk' : Disk) : Prop where
  root : disk.root.Relisted disk'.root
  workingFolder : disk'.workingFolder = disk.workingFolder

namespace Relisted

variable {disk disk' : Disk}

theorem absoluteParts (relisted : Relisted disk disk') (path : FilePath) :
    disk'.absoluteParts path = disk.absoluteParts path := by
  rw [Disk.absoluteParts, Disk.absoluteParts, relisted.workingFolder]

theorem lookup (relisted : Relisted disk disk') (path : FilePath) :
    (disk.lookup path).Relisted (disk'.lookup path) := by
  rw [Disk.lookup, Disk.lookup, relisted.absoluteParts]
  have ways := relisted.root.follow (disk.absoluteParts path)
  split
  · exact .unnameable
  · split
    · exact .refused _
    · generalize disk.root.follow [] (disk.absoluteParts path) = reached,
        disk'.root.follow [] (disk.absoluteParts path) = reached' at ways ⊢
      cases ways with
      | ok same =>
        have samePlace := same.place
        rw [placeOf, placeOf] at samePlace
        simp only [samePlace]
        exact .found _ same.node
      | error refusal => exact .refused refusal

theorem newPlace (relisted : Relisted disk disk') (path : FilePath) :
    disk'.newPlace path = disk.newPlace path := by
  rw [Disk.newPlace, Disk.newPlace, relisted.absoluteParts]
  have ways := relisted.root.follow (disk.absoluteParts path).dropLast
  generalize disk.root.follow [] (disk.absoluteParts path).dropLast = reached,
    disk'.root.follow [] (disk.absoluteParts path).dropLast = reached' at ways ⊢
  cases ways with
  | ok same =>
    have samePlace := same.place
    rw [placeOf, placeOf] at samePlace
    simp only [bind, Except.bind, same.node.isFile, samePlace]
  | error refusal => rfl

/-! ## Reading -/

theorem node? (relisted : Relisted disk disk') (path : FilePath) :
    Agree (Option.Rel Node.Relisted) (disk.node? path) (disk'.node? path) := by
  rw [Disk.node?, Disk.node?]
  have both := relisted.lookup path
  generalize disk.lookup path = found, disk'.lookup path = found' at both ⊢
  cases both with
  | found place same => exact .ok (.some same)
  | refused refusal => cases refusal <;> first | exact .error _ | exact .ok .none
  | unnameable => exact .ok .none

theorem isPresent (relisted : Relisted disk disk') : disk'.isPresent = disk.isPresent := by
  funext path
  rw [Disk.isPresent, Disk.isPresent]
  refine (Agree.eq ((relisted.node? path).bind ?_)).symm
  rintro _ _ (_ | same) <;> exact .ok rfl

theorem isFolder (relisted : Relisted disk disk') : disk'.isFolder = disk.isFolder := by
  funext path
  rw [Disk.isFolder, Disk.isFolder]
  refine (Agree.eq ((relisted.node? path).bind ?_)).symm
  rintro _ _ (same | _)
  · exact .ok same.isFolder.symm
  · exact .ok rfl

theorem hasFolder (relisted : Relisted disk disk') : disk'.hasFolder = disk.hasFolder := by
  funext path
  rw [Disk.hasFolder, Disk.hasFolder]
  have both := relisted.lookup path
  generalize disk.lookup path = found, disk'.lookup path = found' at both ⊢
  cases both with
  | found place same => exact same.isFolder
  | refused | unnameable => rfl

theorem readBytes (relisted : Relisted disk disk') : disk'.readBytes = disk.readBytes := by
  funext path
  rw [Disk.readBytes, Disk.readBytes]
  have both := relisted.lookup path
  generalize disk.lookup path = found, disk'.lookup path = found' at both ⊢
  cases both with
  | @found place node node' same =>
    have standing := same.standing
    cases node <;> cases node' <;> cases standing <;> rfl
  | refused | unnameable => rfl

theorem readText (relisted : Relisted disk disk') : disk'.readText = disk.readText := by
  funext path
  rw [Disk.readText, Disk.readText, relisted.readBytes]

theorem differ (relisted : Relisted disk disk') : disk'.differ = disk.differ := by
  funext copy template
  rw [Disk.differ, Disk.differ, relisted.readBytes]

theorem entries (relisted : Relisted disk disk') (path : FilePath) :
    Agree (fun entries entries' => (Node.folder entries).Relisted (.folder entries'))
      (disk.entries path) (disk'.entries path) := by
  rw [Disk.entries, Disk.entries]
  have both := relisted.lookup path
  generalize disk.lookup path = found, disk'.lookup path = found' at both ⊢
  cases both with
  | @found place node node' same =>
    have standing := same.standing
    cases node <;> cases node' <;> first | exact .ok same | exact .error _ | cases standing
  | refused refusal => exact .error _
  | unnameable => exact .error _

/-- Names that are sorted after they have been chosen by name and kind. -/
theorem sortedNames_filter {entries entries' : List (String × Node)}
    (same : (Node.folder entries).Relisted (.folder entries')) (test : String → Bool → Bool) :
    sortedNames ((entries'.filter fun entry => test entry.1 entry.2.isFolder).map (·.1)) =
      sortedNames ((entries.filter fun entry => test entry.1 entry.2.isFolder).map (·.1)) :=
  sortedNames_perm (same.filter_names test)

theorem visibleFolders (relisted : Relisted disk disk') :
    disk'.visibleFolders = disk.visibleFolders := by
  funext path
  rw [Disk.visibleFolders, Disk.visibleFolders]
  refine (Agree.eq ((relisted.entries path).bind fun entries entries' same => ?_)).symm
  exact .ok (sortedNames_filter same
    fun name isFolder => isFolder && name.toList.head? != some '.').symm

theorem templateNames (relisted : Relisted disk disk') (templates : FilePath) (category : String) :
    Templates.names disk' templates category = Templates.names disk templates category := by
  rw [Templates.names, Templates.names]
  refine (Agree.eq ((relisted.entries _).bind fun entries entries' same => ?_)).symm
  exact .ok (sortedNames_filter same
    fun name isFolder => !isFolder && FilePath.suffix name == ".md").symm

theorem discover (relisted : Relisted disk disk') (root : FilePath)
    (included excluded : List String) :
    Docs.discover ⟨disk', root⟩ (.ofTexts included) (.ofTexts excluded) =
      Docs.discover ⟨disk, root⟩ (.ofTexts included) (.ofTexts excluded) := by
  rw [Docs.discover, Docs.discover]
  refine (Agree.eq ((relisted.node? root).bind ?_)).symm
  rintro _ _ (⟨same⟩ | _)
  · rename_i node node'
    have standing := same.standing
    cases node <;> cases node' <;> cases standing
    · exact .ok rfl
    · change Agree _ (Discovery.select _ _ _) (Discovery.select _ _ _)
      rw [Discovery.select_ofTexts, Discovery.select_ofTexts,
        Discovery.chosen_relisted same included excluded]
      exact .ok rfl
  · exact .ok rfl

/-! ## Writing -/

/-- What is put on both disks at one place leaves one tree again. -/
theorem put (relisted : Relisted disk disk') {place : List String} {new : Node}
    (room : disk.root.HasRoomAt place) (room' : disk'.root.HasRoomAt place)
    (bare : ∀ name rest, new.stands (name :: rest) = none) (newDistinct : new.HasDistinctNames) :
    Relisted { disk with root := disk.root.put place new }
      { disk' with root := disk'.root.put place new } where
  root := {
    stands := by rw [stands_put room bare, stands_put room' bare, relisted.root.stands]
    distinct := relisted.root.distinct.put newDistinct place
    distinct' := relisted.root.distinct'.put newDistinct place }
  workingFolder := relisted.workingFolder

theorem putFile (relisted : Relisted disk disk') {place : List String}
    (room : disk.root.HasRoomAt place) (room' : disk'.root.HasRoomAt place)
    (content : ByteArray) :
    Relisted { disk with root := disk.root.put place (.file content) }
      { disk' with root := disk'.root.put place (.file content) } :=
  relisted.put room room' (fun _ _ => rfl) (by simp [HasDistinctNames])

theorem putFolder (relisted : Relisted disk disk') {place : List String}
    (room : disk.root.HasRoomAt place) (room' : disk'.root.HasRoomAt place) :
    Relisted { disk with root := disk.root.put place (.folder []) }
      { disk' with root := disk'.root.put place (.folder []) } :=
  relisted.put room room' (fun _ _ => rfl) (by simp [HasDistinctNames, EachHasDistinctNames])

theorem hasRoomAt_of_found {path : FilePath} {place : List String} {content : ByteArray}
    (found : disk.lookup path = .found place (.file content)) : disk.root.HasRoomAt place := by
  have here : disk.root.stands place = some (.file content) := by
    rw [Node.stands, (lookup_found_iff.mp found).2.2]
    rfl
  exact hasRoomAt_of_file here

theorem writeBytes (relisted : Relisted disk disk') (path : FilePath) (content : ByteArray) :
    Agree Relisted (disk.writeBytes path content) (disk'.writeBytes path content) := by
  rw [Disk.writeBytes, Disk.writeBytes, relisted.newPlace]
  have both := relisted.lookup path
  generalize found : disk.lookup path = looked, found' : disk'.lookup path = looked' at both ⊢
  cases both with
  | @found place node node' same =>
    have standing := same.standing
    cases node <;> cases node' <;> cases standing
    · exact .ok (relisted.putFile (hasRoomAt_of_found found) (hasRoomAt_of_found found') content)
    · exact .error _
  | refused refusal =>
    cases refusal with
    | noEntry =>
      have new' := relisted.newPlace path
      cases new : disk.newPlace path with
      | error refusal => exact .error _
      | ok place =>
        rw [new] at new'
        exact .ok (relisted.putFile (isFree_of_newPlace found new).room
          (isFree_of_newPlace found' new').room content)
    | _ => exact .error _
  | unnameable => exact .error _

theorem makeFolder (relisted : Relisted disk disk') (path : FilePath) :
    Conform Relisted (disk.makeFolder path) (disk'.makeFolder path) := by
  rw [Disk.makeFolder, Disk.makeFolder, relisted.newPlace]
  have both := relisted.lookup path
  generalize found : disk.lookup path = looked, found' : disk'.lookup path = looked' at both ⊢
  cases both with
  | found | unnameable => exact .error _
  | refused refusal =>
    cases refusal with
    | noEntry =>
      have new' := relisted.newPlace path
      cases new : disk.newPlace path with
      | error refusal => exact .error _
      | ok place =>
        rw [new] at new'
        exact .ok (relisted.putFolder (isFree_of_newPlace found new).room
          (isFree_of_newPlace found' new').room)
    | _ => exact .error _

theorem acceptFolder (relisted : Relisted disk disk') (path : FilePath) (refusal : Refusal) :
    disk'.acceptFolder path refusal = disk.acceptFolder path refusal := by
  rw [Disk.acceptFolder, Disk.acceptFolder, relisted.isFolder]

end Relisted

/-! ## Runs -/

/-- Goes on from what a run has left, unless that has ended with a fault. -/
def goOn {α β : Type} (ending : Disk × Except Fault α)
    (next : Disk → α → Disk × Except Fault β) : Disk × Except Fault β :=
  match ending.2 with
  | .ok value => next ending.1 value
  | .error fault => (ending.1, .error fault)

/-- Two runs have one outcome and leave disks that hold one tree. -/
structure EndAlike {α : Type} (ending ending' : Disk × Except Fault α) : Prop where
  disk : ending.1.Relisted ending'.1
  outcome : ending'.2 = ending.2

theorem EndAlike.goOn {α β : Type} {ending ending' : Disk × Except Fault α}
    {next next' : Disk → α → Disk × Except Fault β} (alike : EndAlike ending ending')
    (further : ∀ disk disk' value, Relisted disk disk' →
      EndAlike (next disk value) (next' disk' value)) :
    EndAlike (goOn ending next) (goOn ending' next') := by
  rw [Disk.goOn, Disk.goOn, alike.outcome]
  cases ending.2 with
  | ok value => exact further _ _ value alike.disk
  | error fault => exact ⟨alike.disk, rfl⟩

section makeFolders

variable {disk next : Disk} {path : FilePath}

theorem makeFoldersUpTo_of_made (made : disk.makeFolder path = .ok next) (depth : Nat) :
    disk.makeFoldersUpTo depth path = (next, .ok ()) := by
  rw [makeFoldersUpTo.eq_def]
  simp only [made]

theorem makeFoldersUpTo_of_refused {refusal : Refusal} {depth : Nat}
    (refused : disk.makeFolder path = .error refusal) (last : depth = 0 ∨ refusal ≠ .noEntry) :
    disk.makeFoldersUpTo depth path = (disk, disk.acceptFolder path refusal) := by
  rw [makeFoldersUpTo.eq_def]
  rcases last with rfl | known
  · simp only [refused]
  · cases refusal <;> first | exact absurd rfl known | simp only [refused]

/-- When the folders above have been made, only the last one is left to make. -/
theorem makeFoldersUpTo_of_noEntry (refused : disk.makeFolder path = .error .noEntry)
    (depth : Nat) :
    disk.makeFoldersUpTo (depth + 1) path =
      goOn (disk.makeFoldersUpTo depth path.parent) fun made _ => made.makeFoldersUpTo 0 path := by
  rw [makeFoldersUpTo.eq_def, goOn]
  simp only [refused]
  cases disk.makeFoldersUpTo depth path.parent with
  | mk made outcome =>
    cases outcome with
    | error fault => rfl
    | ok _ =>
      cases finished : made.makeFolder path with
      | ok finished' => simp only [finished, makeFoldersUpTo_of_made finished]
      | error refusal => simp only [finished, makeFoldersUpTo_of_refused finished (.inl rfl)]

end makeFolders

namespace Relisted

variable {disk disk' : Disk}

theorem makeLastFolder (relisted : Relisted disk disk') (path : FilePath) :
    EndAlike (disk.makeFoldersUpTo 0 path) (disk'.makeFoldersUpTo 0 path) := by
  have both := relisted.makeFolder path
  generalize made : disk.makeFolder path = first, made' : disk'.makeFolder path = first' at both
  cases both with
  | ok same =>
    rw [makeFoldersUpTo_of_made made, makeFoldersUpTo_of_made made']
    exact ⟨same, rfl⟩
  | error refusal =>
    rw [makeFoldersUpTo_of_refused made (.inl rfl), makeFoldersUpTo_of_refused made' (.inl rfl)]
    exact ⟨relisted, relisted.acceptFolder path refusal⟩

theorem makeFoldersUpTo (relisted : Relisted disk disk') (depth : Nat) (path : FilePath) :
    EndAlike (disk.makeFoldersUpTo depth path) (disk'.makeFoldersUpTo depth path) := by
  induction depth generalizing path with
  | zero => exact relisted.makeLastFolder path
  | succ depth induction =>
    have both := relisted.makeFolder path
    generalize made : disk.makeFolder path = first, made' : disk'.makeFolder path = first' at both
    cases both with
    | ok same =>
      rw [makeFoldersUpTo_of_made made, makeFoldersUpTo_of_made made']
      exact ⟨same, rfl⟩
    | error refusal =>
      by_cases missing : refusal = .noEntry
      · subst missing
        rw [makeFoldersUpTo_of_noEntry made, makeFoldersUpTo_of_noEntry made']
        exact (induction path.parent).goOn fun _ _ _ same => same.makeLastFolder path
      · rw [makeFoldersUpTo_of_refused made (.inr missing),
          makeFoldersUpTo_of_refused made' (.inr missing)]
        exact ⟨relisted, relisted.acceptFolder path refusal⟩

theorem makeFolders (relisted : Relisted disk disk') (path : FilePath) :
    EndAlike (disk.makeFolders path) (disk'.makeFolders path) := by
  rw [Disk.makeFolders, Disk.makeFolders]
  split
  · exact ⟨relisted, rfl⟩
  · exact relisted.makeFoldersUpTo path.parts.length path

end Relisted

end Disk

end DocAudit
