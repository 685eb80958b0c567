import DocAudit.Proofs.Pairs
import DocAudit.Value.Basic

/-!
Entries by their keys. What is inserted under a key is found under it, and leaves the other keys
alone; so does what is erased.
-/

namespace DocAudit.Entries

theorem mem_keys_iff {entries : Entries} {name : String} :
    name ∈ entries.keys ↔ ∃ value, entries.lookup name = some value := by
  induction entries with
  | nil => simp [keys]
  | cons entry rest induction =>
    obtain ⟨first, value⟩ := entry
    rw [keys] at induction ⊢
    rw [List.map_cons, List.mem_cons, List.lookup_cons]
    by_cases same : name = first
    · simp [same]
    · rw [beq_eq_false_iff_ne.mpr same]
      simp only [same, false_or]
      exact induction

/-- What holds of a value under a key holds of it where it stands alone. -/
theorem holds_lookup_iff {Holds : Option Value → Prop} (absent : Holds none) {entries : Entries}
    (distinct : entries.keys.Nodup) (key : String) :
    Holds (entries.lookup key) ↔ ∀ entry ∈ entries, Holds (List.lookup key [entry]) := by
  constructor
  · intro holds entry member
    rw [lookup_cons_eq]
    split
    · next same =>
      have found := (lookup_iff_mem distinct).mpr member
      rw [same, found] at holds
      exact holds
    · exact absent
  · intro each
    cases found : entries.lookup key with
    | none => exact absent
    | some value =>
      have holds := each (key, value) (mem_of_lookup found)
      rw [lookup_cons_eq, if_pos rfl] at holds
      exact holds

theorem hasKey_eq_false_iff {entries : Entries} {name : String} :
    entries.hasKey name = false ↔ entries.lookup name = none := by
  rw [← Bool.not_eq_true, hasKey, List.any_eq_true, ← Option.not_isSome_iff_eq_none,
    Option.isSome_iff_exists, ← mem_keys_iff, keys, List.mem_map]
  simp

theorem lookup_insert (entries : Entries) (key : String) (value : Value) (other : String) :
    (entries.insert key value).lookup other =
      if other = key then some value else entries.lookup other :=
  lookup_replace entries key value other

theorem lookup_insert_of_ne (entries : Entries) {key other : String} (value : Value)
    (different : other ≠ key) : (entries.insert key value).lookup other = entries.lookup other := by
  rw [lookup_insert, if_neg different]

theorem lookup_erase_of_ne (entries : Entries) {key other : String}
    (different : other ≠ key) : (entries.erase key).lookup other = entries.lookup other := by
  induction entries with
  | nil => rfl
  | cons entry rest induction =>
    obtain ⟨first, content⟩ := entry
    rw [erase] at induction ⊢
    by_cases same : first = key
    · rw [List.filter_cons_of_neg (by simp [same]), induction, List.lookup_cons,
        beq_eq_false_iff_ne.mpr (same ▸ different)]
    · rw [List.filter_cons_of_pos (by simp [same]), List.lookup_cons, List.lookup_cons, induction]

theorem mem_keys_erase_iff {entries : Entries} {name key : String} :
    key ∈ (entries.erase name).keys ↔ key ∈ entries.keys ∧ key ≠ name := by
  simp only [keys, erase, List.mem_map, List.mem_filter, bne_iff_ne]
  constructor
  · rintro ⟨entry, ⟨member, different⟩, rfl⟩
    exact ⟨⟨entry, member, rfl⟩, different⟩
  · rintro ⟨⟨entry, member, rfl⟩, different⟩
    exact ⟨entry, ⟨member, different⟩, rfl⟩

theorem erase_append (left right : Entries) (name : String) :
    Entries.erase (left ++ right) name = left.erase name ++ right.erase name :=
  List.filter_append left right

theorem insert_ne_nil (entries : Entries) (key : String) (value : Value) :
    entries.insert key value ≠ [] := by
  rw [insert]
  split
  · next some =>
    obtain ⟨entry, member, -⟩ := List.any_eq_true.mp some
    exact mt List.map_eq_nil_iff.mp (List.ne_nil_of_mem member)
  · simp

theorem ofList_eq_nil_iff {pairs : List (String × Value)} :
    ofList pairs = [] ↔ pairs = [] := by
  cases pairs with
  | nil => exact iff_of_true rfl rfl
  | cons pair rest =>
    have kept (entries : Entries) (some : entries ≠ []) :
        rest.foldl (fun entries pair => entries.insert pair.1 pair.2) entries ≠ [] := by
      induction rest generalizing entries with
      | nil => exact some
      | cons pair rest induction => exact induction _ (entries.insert_ne_nil _ _)
    exact iff_of_false (kept _ (insert_ne_nil _ _ _)) (List.cons_ne_nil _ _)

/-! ## The last one counts -/

theorem lookup_foldl_insert (pairs : List (String × Value)) (entries : Entries) (key : String) :
    (pairs.foldl (fun entries (key, value) => entries.insert key value) entries).lookup key =
      (pairs.reverse.lookup key).or (entries.lookup key) := by
  induction pairs generalizing entries with
  | nil => rfl
  | cons pair rest induction =>
    rw [List.foldl_cons, induction, lookup_insert, List.reverse_cons, List.lookup_append,
      Option.or_assoc, lookup_cons_eq]
    split <;> rfl

theorem lookup_ofList (pairs : List (String × Value)) (key : String) :
    (ofList pairs).lookup key = pairs.reverse.lookup key := by
  rw [ofList, lookup_foldl_insert]
  exact Option.or_none

theorem mem_keys_reverse_iff {pairs : List (String × Value)} {key : String} :
    key ∈ keys pairs.reverse ↔ key ∈ keys pairs := by
  rw [keys, keys, List.map_reverse, List.mem_reverse]

theorem mem_keys_ofList_iff {pairs : List (String × Value)} {key : String} :
    key ∈ (ofList pairs).keys ↔ key ∈ keys pairs := by
  rw [mem_keys_iff, lookup_ofList, ← mem_keys_iff, mem_keys_reverse_iff]

variable {before after : List (String × Value)} {key : String}

theorem lookup_ofList_of_last (last : key ∉ keys after) (value : Value) :
    (ofList (before ++ (key, value) :: after)).lookup key = some value := by
  have notLater : after.reverse.lookup key = none :=
    lookup_eq_none_iff.mpr (mt mem_keys_reverse_iff.mp last)
  rw [lookup_ofList, List.reverse_append, List.reverse_cons, List.lookup_append,
    List.lookup_append, notLater, lookup_cons_eq, if_pos rfl]
  rfl

/-- An entry that another one under its key follows might as well be missing. -/
theorem lookup_ofList_of_later (later : key ∈ keys after) (value : Value) (other : String) :
    (ofList (before ++ (key, value) :: after)).lookup other =
      (ofList (before ++ after)).lookup other := by
  rw [lookup_ofList, lookup_ofList, List.reverse_append, List.reverse_append, List.reverse_cons,
    List.lookup_append, List.lookup_append, List.lookup_append, lookup_cons_eq]
  split
  · next same =>
    obtain ⟨found, looked⟩ := mem_keys_iff.mp (mem_keys_reverse_iff.mpr later)
    rw [same, looked]
    rfl
  · rw [List.lookup_nil, Option.or_none]

/-- What stands under one key does not matter to another. -/
theorem lookup_append_cons_of_ne {other : String} (different : other ≠ key) (value : Value) :
    List.lookup other (before ++ (key, value) :: after) = List.lookup other (before ++ after) := by
  rw [List.lookup_append, List.lookup_append, lookup_cons_eq, if_neg different]

end DocAudit.Entries
