import DocAudit.Proofs.Pairs
import DocAudit.Tree.Basic
import Mathlib.Data.List.Basic

/-!
New contents for the files of a tree. Such a change leaves the tree its shape, so a path leads to
the same place before and after it. Putting a file where one stands is a change of this kind, as
long as no folder holds two entries of one name.
-/

namespace DocAudit.Node

/-- New contents for files, each by the parts of its path and the content it has. -/
abbrev Change := List String → ByteArray → ByteArray

/-- What a change does below a folder. -/
def Change.below (change : Change) (folder : List String) : Change :=
  fun parts => change (folder ++ parts)

/-- The change of the one file at a place. -/
def Change.only (place : List String) (renew : ByteArray → ByteArray) : Change :=
  fun parts content => if parts = place then renew content else content

mutual

/-- Gives every file at or below a node its new content. -/
def overwrite (change : Change) : Node → Node
  | .file content => .file (change [] content)
  | .folder entries => .folder (overwriteEach change entries)

def overwriteEach (change : Change) : List (String × Node) → List (String × Node)
  | [] => []
  | (name, node) :: rest =>
    (name, overwrite (change.below [name]) node) :: overwriteEach change rest

end

mutual

/-- No folder at or below a node holds two entries of one name. -/
def HasDistinctNames : Node → Prop
  | .file _ => True
  | .folder entries => (entries.map (·.1)).Nodup ∧ EachHasDistinctNames entries

def EachHasDistinctNames : List (String × Node) → Prop
  | [] => True
  | (_, node) :: rest => HasDistinctNames node ∧ EachHasDistinctNames rest

end

/-! ## The shape of a tree -/

theorem overwriteEach_eq_map (change : Change) (entries : List (String × Node)) :
    overwriteEach change entries =
      entries.map fun entry => (entry.1, entry.2.overwrite (change.below [entry.1])) := by
  induction entries with
  | nil => rw [overwriteEach, List.map_nil]
  | cons entry rest induction => rw [overwriteEach, List.map_cons, induction]

@[simp] theorem isFolder_overwrite (change : Change) (node : Node) :
    (node.overwrite change).isFolder = node.isFolder := by
  cases node <;> simp only [overwrite, isFolder]

theorem names_overwriteEach (change : Change) (entries : List (String × Node)) :
    (overwriteEach change entries).map (·.1) = entries.map (·.1) := by
  rw [overwriteEach_eq_map, List.map_map]
  rfl

theorem lookup_overwriteEach (change : Change) (entries : List (String × Node)) (name : String) :
    (overwriteEach change entries).lookup name =
      (entries.lookup name).map (overwrite (change.below [name])) := by
  induction entries with
  | nil => rfl
  | cons entry rest induction =>
    rw [overwriteEach, lookup_cons_eq, lookup_cons_eq]
    split
    · next here => rw [here, Option.map_some]
    · exact induction

mutual

theorem files_overwrite (change : Change) :
    (node : Node) → (node.overwrite change).files =
      node.files.map fun (parts, content) => (parts, change parts content)
  | .file content => by simp only [overwrite, files, List.map_cons, List.map_nil]
  | .folder entries => by
    rw [overwrite, files, files]
    exact filesOf_overwriteEach change entries

theorem filesOf_overwriteEach (change : Change) :
    (entries : List (String × Node)) → filesOf (overwriteEach change entries) =
      (filesOf entries).map fun (parts, content) => (parts, change parts content)
  | [] => rfl
  | (name, node) :: rest => by
    rw [overwriteEach, filesOf, filesOf, List.map_append, filesOf_overwriteEach change rest,
      files_overwrite (change.below [name]) node, List.map_map, List.map_map]
    rfl

end

mutual

theorem overwrite_overwrite (first second : Change) :
    (node : Node) → (node.overwrite first).overwrite second =
      node.overwrite fun parts content => second parts (first parts content)
  | .file content => by simp only [overwrite]
  | .folder entries => by
    rw [overwrite, overwrite, overwrite, overwriteEach_overwriteEach first second entries]

theorem overwriteEach_overwriteEach (first second : Change) :
    (entries : List (String × Node)) → overwriteEach second (overwriteEach first entries) =
      overwriteEach (fun parts content => second parts (first parts content)) entries
  | [] => rfl
  | (name, node) :: rest => by
    rw [overwriteEach, overwriteEach, overwriteEach, overwriteEach_overwriteEach first second rest,
      overwrite_overwrite (first.below [name]) (second.below [name]) node]
    rfl

end

mutual

theorem overwrite_keep : (node : Node) → node.overwrite (fun _ content => content) = node
  | .file content => by rw [overwrite]
  | .folder entries => by rw [overwrite, overwriteEach_keep entries]

theorem overwriteEach_keep :
    (entries : List (String × Node)) → overwriteEach (fun _ content => content) entries = entries
  | [] => rfl
  | (name, node) :: rest => by
    rw [overwriteEach, overwriteEach_keep rest]
    exact congrArg (fun node => (name, node) :: rest) (overwrite_keep node)

end

mutual

theorem HasDistinctNames.overwrite (change : Change) :
    (node : Node) → node.HasDistinctNames → (node.overwrite change).HasDistinctNames
  | .file _, _ => by rw [Node.overwrite, HasDistinctNames]; trivial
  | .folder entries, distinct => by
    rw [HasDistinctNames] at distinct
    rw [Node.overwrite, HasDistinctNames, names_overwriteEach]
    exact ⟨distinct.1, EachHasDistinctNames.overwrite change entries distinct.2⟩

theorem EachHasDistinctNames.overwrite (change : Change) :
    (entries : List (String × Node)) → EachHasDistinctNames entries →
      EachHasDistinctNames (overwriteEach change entries)
  | [], _ => trivial
  | (name, node) :: rest, distinct => by
    rw [EachHasDistinctNames] at distinct
    rw [overwriteEach, EachHasDistinctNames]
    exact ⟨HasDistinctNames.overwrite (change.below [name]) node distinct.1,
      EachHasDistinctNames.overwrite change rest distinct.2⟩

end

theorem EachHasDistinctNames.lookup {entries : List (String × Node)} {name : String} {child : Node}
    (distinct : EachHasDistinctNames entries) (found : entries.lookup name = some child) :
    child.HasDistinctNames := by
  induction entries with
  | nil => cases found
  | cons entry rest induction =>
    rw [EachHasDistinctNames] at distinct
    rw [lookup_cons_eq] at found
    split at found
    · cases found
      exact distinct.1
    · exact induction distinct.2 found

/-! ## Where a path leads -/

/-- The node that names lead to, without any dots. -/
def descend : Node → List String → Option Node
  | node, [] => some node
  | .file _, _ :: _ => none
  | .folder entries, name :: rest => (entries.lookup name).bind (descend · rest)

theorem descend_append (node : Node) (parts : List String) (name : String) :
    node.descend (parts ++ [name]) =
      (node.descend parts).bind fun folder => folder.entries.lookup name := by
  induction parts generalizing node with
  | nil =>
    cases node with
    | file content => rfl
    | folder entries =>
      exact Option.bind_fun_some (entries.lookup name)
  | cons part parts induction =>
    cases node with
    | file content => rfl
    | folder entries =>
      rw [List.cons_append, descend, descend]
      cases entries.lookup part with
      | none => rfl
      | some child => exact induction child

/-- The parts of the path to a node from the way down to it. -/
def placeOf (above : List (String × Node)) : List String :=
  above.reverse.map (·.1)

theorem placeOf_cons (name : String) (outer : Node) (above : List (String × Node)) :
    placeOf ((name, outer) :: above) = placeOf above ++ [name] := by
  rw [placeOf, List.reverse_cons, List.map_append]
  rfl

/-- The way down from a root to a node, as following a path keeps it. -/
inductive Leads (root : Node) : List (String × Node) → Node → Prop where
  | here : Leads root [] root
  | down {above : List (String × Node)} {entries : List (String × Node)} {name : String}
      {child : Node} : Leads root above (.folder entries) → entries.lookup name = some child →
      Leads root ((name, .folder entries) :: above) child

theorem Leads.descend {root node : Node} {above : List (String × Node)}
    (leads : Leads root above node) : root.descend (placeOf above) = some node := by
  induction leads with
  | here => rfl
  | @down above entries name child leads found induction =>
    rw [placeOf_cons, descend_append, induction, Option.bind_some]
    exact found

theorem follow_folder (above entries : List (String × Node)) (part : String)
    (rest : List String) :
    (folder entries).follow above (part :: rest) =
      if part = ".." then
        match above with
        | [] => (folder entries).follow [] rest
        | (_, outer) :: further => outer.follow further rest
      else if longestName < part.utf8ByteSize then .error .nameTooLong
      else match entries.lookup part with
        | none => .error .noEntry
        | some child => child.follow ((part, folder entries) :: above) rest :=
  rfl

theorem Leads.follow {root node target : Node} {above further : List (String × Node)}
    {parts : List String} (leads : Leads root above node)
    (followed : node.follow above parts = .ok (further, target)) : Leads root further target := by
  induction parts generalizing above node with
  | nil =>
    cases followed
    exact leads
  | cons part rest induction =>
    cases node with
    | file content => cases followed
    | folder entries =>
      rw [follow_folder] at followed
      split at followed
      · cases leads with
        | here => exact induction .here followed
        | down outer found => exact induction outer followed
      · split at followed
        · cases followed
        · split at followed
          · cases followed
          · next child found => exact induction (leads.down found) followed

/-- The way down to a node once its files have new contents. -/
def overwriteAbove (change : Change) : List (String × Node) → List (String × Node)
  | [] => []
  | (name, outer) :: further =>
    (name, outer.overwrite (change.below (placeOf further))) :: overwriteAbove change further

theorem placeOf_overwriteAbove (change : Change) (above : List (String × Node)) :
    placeOf (overwriteAbove change above) = placeOf above := by
  induction above with
  | nil => rfl
  | cons step further induction => rw [overwriteAbove, placeOf_cons, placeOf_cons, induction]

theorem below_below (change : Change) (folder : List String) (name : String) :
    (change.below folder).below [name] = change.below (folder ++ [name]) := by
  funext parts
  rw [Change.below, Change.below, Change.below, List.append_assoc]

theorem follow_overwrite (change : Change) (above : List (String × Node)) (node : Node)
    (parts : List String) :
    (node.overwrite (change.below (placeOf above))).follow (overwriteAbove change above) parts =
      (node.follow above parts).map fun (further, target) =>
        (overwriteAbove change further, target.overwrite (change.below (placeOf further))) := by
  induction parts generalizing above node with
  | nil => rfl
  | cons part rest induction =>
    cases node with
    | file content => simp only [overwrite, follow, Except.map]
    | folder entries =>
      rw [overwrite, follow_folder, follow_folder]
      split
      · cases above with
        | nil => exact induction [] (.folder entries)
        | cons step further => exact induction further step.2
      · split
        · rfl
        · rw [lookup_overwriteEach, below_below]
          cases entries.lookup part with
          | none => rfl
          | some child =>
            have next := induction ((part, .folder entries) :: above) child
            rw [overwriteAbove, placeOf_cons, overwrite] at next
            exact next

/-! ## Putting a file where one stands -/

theorem setEntry_eq_map {entries : List (String × Node)} {name : String} {child : Node}
    (found : entries.lookup name = some child) (node : Node) :
    setEntry entries name node =
      entries.map fun entry => if entry.1 == name then (name, node) else entry := by
  have present : entries.any (·.1 == name) = true := by
    rw [any_name_iff, found]
    rfl
  rw [setEntry, if_pos present]

theorem only_below_self (name : String) (rest : List String) (renew : ByteArray → ByteArray) :
    (Change.only (name :: rest) renew).below [name] = Change.only rest renew := by
  funext parts content
  simp [Change.below, Change.only]

theorem only_below_other {name other : String} (different : other ≠ name) (rest : List String)
    (renew : ByteArray → ByteArray) :
    (Change.only (name :: rest) renew).below [other] = fun _ content => content := by
  funext parts content
  simp [Change.below, Change.only, different]

theorem put_eq_overwrite {node : Node} {parts : List String} {content : ByteArray}
    (distinct : node.HasDistinctNames) (found : node.descend parts = some (.file content))
    (renew : ByteArray → ByteArray) :
    node.put parts (.file (renew content)) = node.overwrite (.only parts renew) := by
  induction parts generalizing node with
  | nil =>
    cases found
    rw [put, overwrite, Change.only, if_pos rfl]
  | cons name rest induction =>
    cases node with
    | file content => cases found
    | folder entries =>
      rw [descend, Option.bind_eq_some_iff] at found
      rcases found with ⟨child, inEntries, found⟩
      rw [HasDistinctNames] at distinct
      have inChild := induction (distinct.2.lookup inEntries) found
      rw [put, inEntries, Option.getD_some, inChild, overwrite, overwriteEach_eq_map,
        setEntry_eq_map inEntries]
      congr 1
      apply List.map_congr_left
      intro entry member
      by_cases same : entry.1 = name
      · subst same
        rw [if_pos (beq_self_eq_true entry.1), only_below_self,
          eq_of_lookup distinct.1 member inEntries]
      · rw [if_neg (by simp [same]), only_below_other same, overwrite_keep]

end DocAudit.Node
