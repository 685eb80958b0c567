import Mathlib.Data.List.Nodup

/-!
Lists that hold something under names: folders with their entries, tables with their keys. What is
found under a name is the first thing that stands there, and the only one where names are distinct.
-/

namespace DocAudit

variable {Content : Type} {entries reordered : List (String × Content)}

theorem lookup_cons_eq (entry : String × Content) (rest : List (String × Content))
    (name : String) :
    (entry :: rest).lookup name = if name = entry.1 then some entry.2 else rest.lookup name := by
  rw [List.lookup_cons]
  by_cases here : name = entry.1
  · rw [beq_iff_eq.mpr here, if_pos here]
  · rw [beq_false_of_ne here, if_neg here]

theorem any_name_iff {name : String} :
    entries.any (·.1 == name) = true ↔ (entries.lookup name).isSome = true := by
  rw [List.lookup_isSome_iff, List.any_eq_true]
  simp only [beq_iff_eq, @eq_comm _ name]

theorem lookup_eq_none_iff {name : String} :
    entries.lookup name = none ↔ name ∉ entries.map (·.1) := by
  rw [← Option.not_isSome_iff_eq_none, ← any_name_iff, List.any_eq_true, List.mem_map]
  simp only [beq_iff_eq]

/-- Where each name has one content, wherever it stands, that is what is found under it. -/
theorem lookup_map_of_mem {names : List String} {name : String} (member : name ∈ names)
    (content : String → Content) :
    (names.map fun other => (other, content other)).lookup name = some (content name) := by
  induction names with
  | nil => cases member
  | cons first rest induction =>
    rw [List.map_cons, lookup_cons_eq]
    split
    · next here => rw [here]
    · next elsewhere => exact induction ((List.mem_cons.mp member).resolve_left elsewhere)

/-! ## Listing name by name -/

/-- What stands under each of some names, with the name. -/
def listUnder (names : List String) (under : String → List Content) : List (String × Content) :=
  names.flatMap fun name => (under name).map (name, ·)

/-- The name stands earlier among the names, or it is the same one and the contents are in order. -/
def InOrder (names : List String) (within : Content → Content → Prop)
    (left right : String × Content) : Prop :=
  [left.1, right.1].Sublist names ∨ left.1 = right.1 ∧ within left.2 right.2

theorem mem_listUnder_iff {names : List String} {under : String → List Content} {name : String}
    {content : Content} :
    (name, content) ∈ listUnder names under ↔ name ∈ names ∧ content ∈ under name := by
  rw [listUnder, List.mem_flatMap]
  constructor
  · rintro ⟨other, listed, member⟩
    obtain ⟨content', among, same⟩ := List.mem_map.mp member
    obtain ⟨rfl, rfl⟩ := Prod.mk.inj same
    exact ⟨listed, among⟩
  · rintro ⟨listed, among⟩
    exact ⟨name, listed, List.mem_map_of_mem among⟩

theorem pairwise_listUnder {names : List String} {under : String → List Content}
    {within : Content → Content → Prop} (sorted : ∀ name ∈ names, (under name).Pairwise within) :
    (listUnder names under).Pairwise (InOrder names within) := by
  rw [listUnder, List.pairwise_flatMap]
  constructor
  · intro name listed
    rw [List.pairwise_map]
    exact (sorted name listed).imp fun inOrder => .inr ⟨rfl, inOrder⟩
  · rw [List.pairwise_iff_forall_sublist]
    intro earlier later inOrder first firstUnder second secondUnder
    obtain ⟨-, -, rfl⟩ := List.mem_map.mp firstUnder
    obtain ⟨-, -, rfl⟩ := List.mem_map.mp secondUnder
    exact .inl inOrder

/-! ## Distinct names -/

/-- The entry of a name is found, so with distinct names no other entry has the name. -/
theorem eq_of_lookup {entry : String × Content} {content : Content}
    (distinct : (entries.map (·.1)).Nodup) (member : entry ∈ entries)
    (found : entries.lookup entry.1 = some content) : entry.2 = content := by
  induction entries with
  | nil => cases member
  | cons head rest induction =>
    rw [List.map_cons, List.nodup_cons] at distinct
    rw [lookup_cons_eq] at found
    rcases List.mem_cons.mp member with rfl | member
    · rw [if_pos rfl] at found
      exact Option.some.inj found
    · have different : entry.1 ≠ head.1 := fun same =>
        distinct.1 (same ▸ List.mem_map_of_mem member)
      rw [if_neg different] at found
      exact induction distinct.2 member found

theorem mem_of_lookup {name : String} {content : Content}
    (found : entries.lookup name = some content) : (name, content) ∈ entries := by
  obtain ⟨before, behind, split, -⟩ := List.lookup_eq_some_iff.mp found
  rw [split]
  exact List.mem_append_right before List.mem_cons_self

/-- With distinct names, an entry is the one that is found under its name. -/
theorem lookup_iff_mem (distinct : (entries.map (·.1)).Nodup) {name : String}
    {content : Content} : entries.lookup name = some content ↔ (name, content) ∈ entries := by
  refine ⟨mem_of_lookup, fun member => ?_⟩
  have known : (entries.lookup name).isSome = true := by
    rw [← any_name_iff, List.any_eq_true]
    exact ⟨_, member, beq_self_eq_true name⟩
  obtain ⟨other, found⟩ := Option.isSome_iff_exists.mp known
  have same : content = other := eq_of_lookup distinct member found
  rw [found, same]

theorem lookup_eq_of_perm (distinct : (entries.map (·.1)).Nodup)
    (same : entries.Perm reordered) (name : String) :
    reordered.lookup name = entries.lookup name := by
  ext content
  rw [lookup_iff_mem distinct, lookup_iff_mem ((same.map _).nodup_iff.mp distinct), same.mem_iff]

/-! ## Replacing -/

theorem lookup_map_replace (entries : List (String × Content)) (name : String)
    (content : Content) (other : String) :
    (entries.map fun entry => if entry.1 == name then (name, content) else entry).lookup other =
      if other = name then (entries.lookup name).map fun _ => content
      else entries.lookup other := by
  induction entries with
  | nil => exact (ite_self none).symm
  | cons entry rest induction =>
    rw [List.map_cons, lookup_cons_eq, lookup_cons_eq, lookup_cons_eq, induction]
    by_cases same : entry.1 = name
    · rw [if_pos (beq_iff_eq.mpr same)]
      by_cases asked : other = name
      · simp [asked, same]
      · simp [asked, same]
    · rw [if_neg (fun known => same (beq_iff_eq.mp known))]
      by_cases asked : other = name
      · subst asked
        simp [Ne.symm same]
      · simp [asked]

/-- Something new under a name, in the place of what stands there or else at the end. -/
theorem lookup_replace (entries : List (String × Content)) (name : String) (content : Content)
    (other : String) :
    (if entries.any (·.1 == name) then
        entries.map fun entry => if entry.1 == name then (name, content) else entry
      else entries ++ [(name, content)]).lookup other =
      if other = name then some content else entries.lookup other := by
  split
  · next present =>
    obtain ⟨old, found⟩ := Option.isSome_iff_exists.mp (any_name_iff.mp present)
    rw [lookup_map_replace, found]
    rfl
  · next absent =>
    rw [any_name_iff, Option.not_isSome_iff_eq_none] at absent
    rw [List.lookup_append, lookup_cons_eq]
    by_cases asked : other = name
    · simp [asked, absent]
    · simp [asked]

end DocAudit
