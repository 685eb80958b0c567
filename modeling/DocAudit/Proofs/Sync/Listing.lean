import DocAudit.Sync
import DocAudit.Proofs.Faults
import DocAudit.Proofs.Tree.Contents

/-!
The names of the templates of a category. They are told by what stands where on the disk: each of
them is the name of a Markdown file directly in the folder of the category.
-/

namespace DocAudit

/-- The folder of a category stands at a place, and these are the names of the templates in it. -/
structure IsListing (disk : Disk) (folder : FilePath) (place names : List String) : Prop where
  nameable : folder.IsNameable
  walked : disk.walk folder = .ok place
  isFolder : disk.stands place = some .folder
  increasing : names.Pairwise (· < ·)
  exactly : ∀ name, name ∈ names ↔
    FilePath.suffix name = ".md" ∧ (disk.contentAt (place ++ [name])).isSome = true

namespace IsListing

variable {disk next : Disk} {folder : FilePath} {place names : List String}

theorem unique {others : List String} (listing : IsListing disk folder place names)
    (other : IsListing disk folder place others) : names = others := by
  apply listing.increasing.eq_of_mem_iff other.increasing
  intro name
  rw [listing.exactly, other.exactly]

/-- Where files stand directly in the folder is all that the listing depends on. -/
theorem extended (listing : IsListing disk folder place names) (extended : disk.Extends next)
    (same : ∀ name, (next.contentAt (place ++ [name])).isSome =
      (disk.contentAt (place ++ [name])).isSome) : IsListing next folder place names where
  nameable := listing.nameable
  walked := extended.walk listing.walked
  isFolder := extended.keeps.folder place listing.isFolder
  increasing := listing.increasing
  exactly name := by rw [same, listing.exactly]

theorem isPlain (listing : IsListing disk folder place names)
    (slashless : disk.root.HasSlashlessNames) {name : String} (member : name ∈ names) :
    FilePath.IsPlain name := by
  obtain ⟨markdown, isFile⟩ := (listing.exactly name).mp member
  obtain ⟨content, found⟩ := Option.isSome_iff_exists.mp isFile
  have inFiles := Node.mem_files_of_descend
    (Node.descend_of_stands_file (Disk.contentAt_eq_some_iff.mp found))
  exact FilePath.isPlain_of_markdown (slashless _ inFiles name (by simp)) markdown

end IsListing

namespace Sync

open Node

variable {disk : Disk} {templates : FilePath} {category : String}

theorem isListing_of_entries (distinct : disk.root.HasDistinctNames) {folder : FilePath}
    {place : List String} {entries : List (String × Node)} (nameable : folder.IsNameable)
    (walked : disk.walk folder = .ok place)
    (descended : disk.root.descend place = some (.folder entries)) :
    IsListing disk folder place (Disk.sortedNames ((entries.filter fun entry =>
      entry.2.isFile && FilePath.suffix entry.1 == ".md").map (·.1))) := by
  have distinctHere := distinct.descend descended
  rw [HasDistinctNames] at distinctHere
  refine ⟨nameable, walked, ?_, ?_, ?_⟩
  · rw [Disk.stands, Node.stands, descended]
    rfl
  · apply Disk.pairwise_lt_sortedNames
    exact distinctHere.1.sublist (List.filter_sublist.map _)
  · intro name
    have here : disk.stands (place ++ [name]) = (entries.lookup name).map standing := by
      rw [Disk.stands, Node.stands, descend_append, descended]
      rfl
    rw [Disk.sortedNames, List.mem_mergeSort, List.mem_map]
    simp only [List.mem_filter, Bool.and_eq_true, beq_iff_eq]
    constructor
    · rintro ⟨⟨_, node⟩, ⟨member, isFile, markdown⟩, rfl⟩
      refine ⟨markdown, ?_⟩
      rw [Disk.contentAt, here, (lookup_iff_mem distinctHere.1).mpr member]
      cases node with
      | file content => rfl
      | folder entries => cases isFile
    · rintro ⟨markdown, isFile⟩
      obtain ⟨content, found⟩ := Option.isSome_iff_exists.mp isFile
      rw [Disk.contentAt_eq_some_iff, here, Option.map_eq_some_iff] at found
      obtain ⟨node, inEntries, isFile⟩ := found
      cases node with
      | file content =>
        exact ⟨_, ⟨(lookup_iff_mem distinctHere.1).mp inEntries, rfl, markdown⟩, rfl⟩
      | folder entries => cases isFile

theorem templateNames_iff (distinct : disk.root.HasDistinctNames) {names : List String} :
    templateNames disk templates category = .ok names ↔
      ∃ place, IsListing disk (templates.child category) place names := by
  constructor
  · intro listed
    rw [templateNames] at listed
    obtain ⟨present, -, listed⟩ := exists_of_bind_eq_ok listed
    cases present with
    | false => cases listed
    | true =>
      obtain ⟨entries, found, same⟩ := exists_of_bind_eq_ok listed
      cases same
      obtain ⟨nameable, place, walked, descended⟩ := Disk.entries_iff.mp found
      exact ⟨place, isListing_of_entries distinct nameable walked descended⟩
  · rintro ⟨place, listing⟩
    obtain ⟨entries, descended⟩ := exists_folder_of_stands listing.isFolder
    have has : Templates.hasCategory disk templates category = .ok true :=
      Disk.isFolder_iff.mpr ⟨listing.nameable, place, listing.walked, listing.isFolder⟩
    have found : disk.entries (templates.child category) = .ok entries :=
      Disk.entries_iff.mpr ⟨listing.nameable, place, listing.walked, descended⟩
    have own := isListing_of_entries distinct listing.nameable listing.walked descended
    rw [templateNames, has, listing.unique own]
    change Templates.names disk templates category = _
    rw [Templates.names, found]
    rfl

end Sync

end DocAudit
