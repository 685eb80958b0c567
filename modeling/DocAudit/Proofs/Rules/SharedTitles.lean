import DocAudit.Proofs.Document.Headings
import DocAudit.Proofs.Document.ReadDocuments
import DocAudit.Proofs.Tree.StandardDiscovery
import DocAudit.Rules.DuplicateTitles

/-!
Files that share their title. Each class of two or more of them is told of as a whole: every file of
it once, with the number of files in the class and their list.
-/

namespace DocAudit.DuplicateTitles

variable {docs : Docs} {files : List String} {file : String} {text title : List Char}
  {issue : Issue} {issues : List Issue}

/-! ## The title of a file -/

/-- The first heading of level one has the title as its text. -/
def IsTitle (document : Document) (title : List Char) : Prop :=
  title ≠ [] ∧ ∃ heading, document.HasHeading heading ∧ heading.level = 1 ∧ heading.text = title ∧
    ∀ other, document.HasHeading other → other.level = 1 → heading.line ≤ other.line

theorem title?_eq_some_iff :
    title? (.ofText file text) = some title ↔ IsTitle (.ofText file text) title := by
  rw [title?, Option.filter_eq_some_iff, Option.map_eq_some_iff, and_comm, IsTitle]
  simp only [Document.firstHeading?_eq_some_iff]
  refine and_congr (by simp) (exists_congr fun heading => ?_)
  tauto

/-- The title of the document that a file holds. -/
def HasTitle (docs : Docs) (file : String) (title : List Char) : Prop :=
  ∃ document, docs.document file = .ok document ∧ IsTitle document title

def titleOf? (docs : Docs) (file : String) : Option (List Char) :=
  (docs.document file).toOption.bind title?

theorem titleOf?_eq_some_iff : titleOf? docs file = some title ↔ HasTitle docs file title := by
  rw [titleOf?, HasTitle]
  cases read : docs.document file with
  | error fault => simp [Except.toOption]
  | ok document =>
    obtain ⟨text, rfl⟩ := Docs.exists_ofText read
    simp [Except.toOption, title?_eq_some_iff]

/-! ## The files under a title -/

/-- The files with a title, each behind it. -/
def titled (docs : Docs) (files : List String) : Titles :=
  files.filterMap fun file => (titleOf? docs file).map fun title => (title, file)

theorem mem_titled_iff :
    (title, file) ∈ titled docs files ↔ file ∈ files ∧ titleOf? docs file = some title := by
  rw [titled, List.mem_filterMap]
  constructor
  · rintro ⟨other, listed, found⟩
    obtain ⟨title', isTitle, same⟩ := Option.map_eq_some_iff.mp found
    obtain ⟨rfl, rfl⟩ := Prod.mk.inj same
    exact ⟨listed, isTitle⟩
  · rintro ⟨listed, isTitle⟩
    exact ⟨file, listed, by rw [isTitle]; rfl⟩

theorem filterMap_title?_eq {documents : List Document}
    (read : List.Forall₂ (fun file document => docs.document file = .ok document) files documents) :
    (documents.filterMap fun document =>
      (title? document).map fun title => (title, document.file)) = titled docs files := by
  induction read with
  | nil => rfl
  | @cons file document _ _ first _ induction =>
    have same : titleOf? docs file = title? document := by
      rw [titleOf?, first]
      rfl
    rw [titled, List.filterMap_cons, List.filterMap_cons, induction, same, file_of_document first]
    rfl

theorem titles_eq_ok_iff {found : Titles} :
    titles docs files = .ok found ↔
      (∀ file ∈ files, Succeeds (docs.document file)) ∧ found = titled docs files := by
  constructor
  · intro returned
    obtain ⟨documents, read, same⟩ := exists_of_bind_eq_ok returned
    refine ⟨Succeeds.mapM_iff.mp ⟨documents, read⟩, ?_⟩
    rw [← Except.ok.inj same]
    exact filterMap_title?_eq (forall₂_of_mapM read)
  · rintro ⟨readable, rfl⟩
    obtain ⟨documents, read⟩ := Succeeds.mapM_iff.mpr readable
    rw [titles, read]
    exact congrArg Except.ok (filterMap_title?_eq (forall₂_of_mapM read))

/-- The files with this title, in the order of the list. -/
def sharers (docs : Docs) (files : List String) (title : List Char) : List String :=
  files.filter (titleOf? docs · = some title)

theorem mem_sharers_iff :
    file ∈ sharers docs files title ↔ file ∈ files ∧ titleOf? docs file = some title := by
  rw [sharers, List.mem_filter, decide_eq_true_eq]

theorem owners_titled (docs : Docs) (files : List String) (title : List Char) :
    owners (titled docs files) title = sharers docs files title := by
  induction files with
  | nil => rfl
  | cons file rest induction =>
    rw [titled, List.filterMap_cons, sharers]
    cases isTitle : titleOf? docs file with
    | none =>
      rw [List.filter_cons_of_neg (by simp [isTitle])]
      exact induction
    | some other =>
      rw [Option.map_some, owners]
      by_cases same : other = title
      · rw [List.filter_cons_of_pos (by simp [same]),
          List.filter_cons_of_pos (by simp [isTitle, same])]
        exact congrArg (file :: ·) induction
      · rw [List.filter_cons_of_neg (by simp [same]),
          List.filter_cons_of_neg (by simp [isTitle, same])]
        exact induction

/-- Among distinct files one that has the title is not alone if there is another one. -/
theorem two_le_length_iff {owners : List String} (distinct : owners.Nodup)
    (member : file ∈ owners) : 2 ≤ owners.length ↔ ∃ other ∈ owners, other ≠ file := by
  match owners, distinct with
  | [owner], _ => simp_all
  | first :: second :: rest, distinct =>
    refine iff_of_true (by simp) ?_
    by_cases here : first = file
    · have apart : first ≠ second := by
        rintro rfl
        simp at distinct
      exact ⟨second, by simp, here ▸ apart.symm⟩
    · exact ⟨first, by simp, here⟩

/-! ## The check -/

def reports (docs : Docs) (files : List String) : List Issue :=
  ((titled docs files).map (·.1)).eraseDups.flatMap (titleFindings (titled docs files))

theorem check_eq_ok_iff :
    check docs files = .ok issues ↔
      (∀ file ∈ files, Succeeds (docs.document file)) ∧ issues = reports docs files := by
  constructor
  · intro returned
    obtain ⟨found, read, same⟩ := exists_of_bind_eq_ok returned
    obtain ⟨readable, rfl⟩ := titles_eq_ok_iff.mp read
    exact ⟨readable, (Except.ok.inj same).symm⟩
  · rintro ⟨readable, rfl⟩
    rw [check, titles_eq_ok_iff.mpr ⟨readable, rfl⟩]
    rfl

theorem mem_titleFindings_iff :
    issue ∈ titleFindings (titled docs files) title ↔
      2 ≤ (sharers docs files title).length ∧
        ∃ file ∈ sharers docs files title,
          issue = finding title (sharers docs files title) file := by
  rw [titleFindings, owners_titled]
  split
  · next few => exact iff_of_false List.not_mem_nil fun facts => Nat.not_lt.mpr facts.1 few
  · next enough =>
    rw [List.mem_map, and_iff_right (Nat.not_lt.mp enough)]
    simp only [eq_comm]

theorem mem_reports_iff :
    issue ∈ reports docs files ↔
      ∃ title, 2 ≤ (sharers docs files title).length ∧
        ∃ file ∈ sharers docs files title,
          issue = finding title (sharers docs files title) file := by
  rw [reports, List.mem_flatMap]
  simp only [mem_titleFindings_iff, List.mem_eraseDups]
  refine exists_congr fun title => and_iff_right_of_imp ?_
  rintro ⟨-, file, shares, -⟩
  exact List.mem_map.mpr ⟨(title, file), mem_titled_iff.mpr (mem_sharers_iff.mp shares), rfl⟩

/-- What is told of the files that share their title. -/
structure TellsShared (docs : Docs) (files : List String) (issues : List Issue) : Prop where
  exactly : ∀ file, file ∈ issues.map (·.file) ↔ file ∈ files ∧ ∃ title, HasTitle docs file title ∧
    ∃ other ∈ files, other ≠ file ∧ HasTitle docs other title
  once : (issues.map (·.file)).Nodup
  wholeClass : ∀ issue ∈ issues, ∃ title owners, HasTitle docs issue.file title ∧
    owners.Sublist files ∧ (∀ file, file ∈ owners ↔ file ∈ files ∧ HasTitle docs file title) ∧
      issue = finding title owners issue.file

theorem mem_files_reports_iff (distinct : files.Nodup) :
    file ∈ (reports docs files).map (·.file) ↔
      file ∈ files ∧ ∃ title, HasTitle docs file title ∧
        ∃ other ∈ files, other ≠ file ∧ HasTitle docs other title := by
  have sharersDistinct (title : List Char) : (sharers docs files title).Nodup :=
    distinct.filter _
  rw [List.mem_map]
  simp only [mem_reports_iff, ← titleOf?_eq_some_iff]
  constructor
  · rintro ⟨issue, ⟨title, several, owner, shares, rfl⟩, rfl⟩
    obtain ⟨other, shares', apart⟩ := (two_le_length_iff (sharersDistinct title) shares).mp several
    obtain ⟨listed, isTitle⟩ := mem_sharers_iff.mp shares
    obtain ⟨listed', isTitle'⟩ := mem_sharers_iff.mp shares'
    exact ⟨listed, title, isTitle, other, listed', apart, isTitle'⟩
  · rintro ⟨listed, title, isTitle, other, listed', apart, isTitle'⟩
    have shares := mem_sharers_iff.mpr ⟨listed, isTitle⟩
    have several := (two_le_length_iff (sharersDistinct title) shares).mpr
      ⟨other, mem_sharers_iff.mpr ⟨listed', isTitle'⟩, apart⟩
    exact ⟨_, ⟨title, several, file, shares, rfl⟩, rfl⟩

theorem nodup_files_reports (distinct : files.Nodup) :
    ((reports docs files).map (·.file)).Nodup := by
  rw [reports, List.map_flatMap, List.nodup_flatMap]
  constructor
  · intro title _
    rw [titleFindings, owners_titled]
    split
    · exact .nil
    · rw [List.map_map]
      change ((sharers docs files title).map id).Nodup
      rw [List.map_id]
      exact distinct.filter _
  · refine (nodup_eraseDups _).imp fun {title title'} apart => ?_
    intro file member member'
    obtain ⟨issue, among, rfl⟩ := List.mem_map.mp member
    obtain ⟨issue', among', same⟩ := List.mem_map.mp member'
    obtain ⟨-, owner, shares, rfl⟩ := mem_titleFindings_iff.mp among
    obtain ⟨-, owner', shares', rfl⟩ := mem_titleFindings_iff.mp among'
    obtain rfl : owner' = owner := same
    have isTitle := (mem_sharers_iff.mp shares).2
    have isTitle' := (mem_sharers_iff.mp shares').2
    rw [isTitle] at isTitle'
    exact apart (Option.some.inj isTitle')

theorem tellsShared_reports (distinct : files.Nodup) :
    TellsShared docs files (reports docs files) where
  exactly _ := mem_files_reports_iff distinct
  once := nodup_files_reports distinct
  wholeClass issue member := by
    obtain ⟨title, -, file, shares, rfl⟩ := mem_reports_iff.mp member
    refine ⟨title, sharers docs files title, titleOf?_eq_some_iff.mp (mem_sharers_iff.mp shares).2,
      List.filter_sublist, fun other => ?_, rfl⟩
    rw [mem_sharers_iff, titleOf?_eq_some_iff]

end DocAudit.DuplicateTitles
