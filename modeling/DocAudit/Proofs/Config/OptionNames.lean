import DocAudit.Config.Setting
import DocAudit.Proofs.Text.Case
import Mathlib

/-!
Names of options as a configuration writes them, with humps, and as a rule has them, with
underscores. Humps can be told from their underscores again, so that no two of the keys with humps
alone go to one name; but a name can also be written by other keys.
-/

namespace DocAudit

open Text (LowersTo kelvinSign)

/-- A hump is a capital; an underscore comes before it. -/
def unhump (c : Char) : List Char :=
  if c.isUpper then ['_', c] else [c]

theorem breakHumps_cons (first : Char) (rest : List Char) :
    breakHumps (first :: rest) = first :: rest.flatMap unhump :=
  rfl

theorem toList_snakeCase (key : String) :
    (snakeCase key).toList = Text.toLower (breakHumps key.toList) :=
  String.toList_ofList

/-! ## Keys with humps alone -/

/-- A key as the configuration format has them. -/
structure IsHumped (key : String) : Prop where
  ascii : ∀ c ∈ key.toList, c.toNat < 128
  begins : key.toList.head?.any Char.isLower = true
  noUnderscore : '_' ∉ key.toList

instance (key : String) : Decidable (IsHumped key) :=
  decidable_of_iff (key.toList.all (fun c => c.toNat < 128) = true ∧
      key.toList.head?.any Char.isLower = true ∧ '_' ∉ key.toList) <| by
    rw [List.all_eq_true]
    simp only [decide_eq_true_eq]
    exact ⟨fun ⟨ascii, begins, noUnderscore⟩ => ⟨ascii, begins, noUnderscore⟩,
      fun humped => ⟨humped.ascii, humped.begins, humped.noUnderscore⟩⟩

theorem ascii_flatMap_unhump {rest : List Char} (ascii : ∀ c ∈ rest, c.toNat < 128) :
    ∀ c ∈ rest.flatMap unhump, c.toNat < 128 := by
  intro c member
  obtain ⟨d, among, inUnhump⟩ := List.mem_flatMap.mp member
  have small := ascii d among
  rw [unhump] at inUnhump
  split at inUnhump
  · rcases List.mem_cons.mp inUnhump with rfl | inUnhump
    · decide
    · rwa [List.mem_singleton.mp inUnhump]
  · rwa [List.mem_singleton.mp inUnhump]

theorem ascii_breakHumps {text : List Char} (ascii : ∀ c ∈ text, c.toNat < 128) :
    ∀ c ∈ breakHumps text, c.toNat < 128 := by
  cases text with
  | nil => exact ascii
  | cons first rest =>
    obtain ⟨small, others⟩ := List.forall_mem_cons.mp ascii
    exact List.forall_mem_cons.mpr ⟨small, ascii_flatMap_unhump others⟩

theorem toList_snakeCase_of_ascii {key : String} (ascii : ∀ c ∈ key.toList, c.toNat < 128) :
    (snakeCase key).toList = (breakHumps key.toList).map Char.toLower := by
  rw [toList_snakeCase, Text.toLower_of_ascii (ascii_breakHumps ascii)]

/-- Makes a hump of an underscore and the letter behind it. -/
def joinHumps : List Char → List Char
  | [] => []
  | '_' :: c :: rest => c.toUpper :: joinHumps rest
  | c :: rest => c :: joinHumps rest

theorem joinHumps_cons_of_ne {c : Char} (other : c ≠ '_') (rest : List Char) :
    joinHumps (c :: rest) = c :: joinHumps rest := by
  rw [joinHumps.eq_def]
  split
  · next equal => cases equal
  · next equal => exact absurd (List.cons.inj equal).1 other
  · next equal =>
    obtain ⟨rfl, rfl⟩ := List.cons.inj equal
    rfl

theorem joinHumps_unhumped {rest : List Char} (noUnderscore : '_' ∉ rest) :
    joinHumps ((rest.flatMap unhump).map Char.toLower) = rest := by
  induction rest with
  | nil => rfl
  | cons c rest induction =>
    obtain ⟨notFirst, notLater⟩ := List.ne_and_not_mem_of_not_mem_cons noUnderscore
    rw [List.flatMap_cons, List.map_append]
    by_cases capital : c.isUpper = true
    · rw [unhump, if_pos capital]
      change c.toLower.toUpper :: joinHumps ((rest.flatMap unhump).map Char.toLower) = _
      have notLower := Char.not_isLower_of_isUpper capital
      rw [Char.toUpper_toLower_eq_toUpper, Char.toUpper_eq_of_not_isLower notLower,
        induction notLater]
    · rw [unhump, if_neg capital, List.map_singleton, Char.toLower_eq_of_not_isUpper capital,
        List.singleton_append, joinHumps_cons_of_ne (Ne.symm notFirst), induction notLater]

theorem joinHumps_snakeCase {key : String} (humped : IsHumped key) :
    joinHumps (snakeCase key).toList = key.toList := by
  obtain ⟨first, begun, small⟩ := (Option.any_eq_true _ _).mp humped.begins
  obtain ⟨rest, spelled⟩ := List.head?_eq_some_iff.mp begun
  have notUnderscore : first ≠ '_' := fun same => absurd (same ▸ small) (by decide)
  have noLater : '_' ∉ rest := fun member =>
    humped.noUnderscore (spelled ▸ List.mem_cons_of_mem first member)
  rw [toList_snakeCase_of_ascii humped.ascii, spelled, breakHumps_cons, List.map_cons,
    Char.toLower_eq_of_not_isUpper fun capital => Char.not_isLower_of_isUpper capital small,
    joinHumps_cons_of_ne notUnderscore, joinHumps_unhumped noLater]

theorem injOn_snakeCase : Set.InjOn snakeCase {key | IsHumped key} := by
  intro key humped other humpedOther same
  rw [← String.toList_inj, ← joinHumps_snakeCase humped, same, joinHumps_snakeCase humpedOther]

theorem isLowerCase_snakeCase {key : String} (ascii : ∀ c ∈ key.toList, c.toNat < 128) :
    ∀ c ∈ (snakeCase key).toList, c.toNat < 128 ∧ c.isUpper = false := by
  rw [toList_snakeCase_of_ascii ascii, List.forall_mem_map]
  exact fun c member =>
    ⟨Text.toNat_toLower_lt (ascii_breakHumps ascii c member), Char.isUpper_toLower_eq_false c⟩

/-- What has no capital has no hump. -/
theorem breakHumps_of_small {text : List Char} (small : ∀ c ∈ text, c.isUpper = false) :
    breakHumps text = text := by
  cases text with
  | nil => rfl
  | cons first rest =>
    have single : ∀ c ∈ rest, unhump c = [c] := fun c member => by
      rw [unhump, small c (List.mem_cons_of_mem first member)]
      rfl
    rw [breakHumps_cons, List.flatMap_congr single, List.flatMap_singleton']

theorem snakeCase_snakeCase {key : String} (ascii : ∀ c ∈ key.toList, c.toNat < 128) :
    snakeCase (snakeCase key) = snakeCase key := by
  have lowerCase := isLowerCase_snakeCase ascii
  have same : ∀ c ∈ (snakeCase key).toList, c.toLower = c := fun c member =>
    Char.toLower_eq_of_not_isUpper (by simp [(lowerCase c member).2])
  rw [← String.toList_inj, toList_snakeCase_of_ascii fun c member => (lowerCase c member).1,
    breakHumps_of_small fun c member => (lowerCase c member).2, List.map_congr_left same,
    List.map_id']

/-! ## Spellings of a name -/

/-- How a key may write a name from its second letter on: letter by letter, or with a capital for an
underscore and the letter behind it. -/
inductive SpellsOn : List Char → List Char → Prop
  | done : SpellsOn [] []
  | letter {c d : Char} {key name : List Char} (small : c.isUpper = false) (lowers : LowersTo c d)
    (further : SpellsOn key name) : SpellsOn (c :: key) (d :: name)
  | hump {c : Char} {key name : List Char} (capital : c.isUpper = true)
    (further : SpellsOn key name) : SpellsOn (c :: key) ('_' :: c.toLower :: name)

/-- Whether a key writes a name. It may begin with a capital as well as with a small letter. -/
def Spells (key name : String) : Prop :=
  match key.toList, name.toList with
  | [], [] => True
  | c :: rest, d :: further => LowersTo c d ∧ SpellsOn rest further
  | _, _ => False

theorem lowersTo_iff_of_isUpper {c d : Char} (capital : c.isUpper = true) :
    LowersTo c d ↔ d = c.toLower := by
  have ascii : c.toNat < 128 := by
    simp only [Char.isUpper, decide_eq_true_eq, UInt32.le_iff_toNat_le] at capital
    exact lt_of_le_of_lt capital.2 (by decide)
  have notKelvin : c ≠ kelvinSign := fun same => absurd (same ▸ ascii) (by decide)
  simp [LowersTo, ascii, notKelvin]

theorem lowersTo_underscore_iff {d : Char} : LowersTo '_' d ↔ d = '_' := by
  have notKelvin : '_' ≠ kelvinSign := by decide
  have lower : '_'.toLower = '_' := by decide
  simp [LowersTo, lower, notKelvin]

theorem spellsOn_iff {rest name : List Char} :
    List.Forall₂ LowersTo (rest.flatMap unhump) name ↔ SpellsOn rest name := by
  induction rest generalizing name with
  | nil =>
    rw [List.flatMap_nil, List.forall₂_nil_left_iff]
    constructor
    · rintro rfl
      exact .done
    · rintro ⟨⟩
      rfl
  | cons c rest induction =>
    rw [List.flatMap_cons]
    by_cases capital : c.isUpper = true
    · rw [unhump, if_pos capital]
      constructor
      · rintro (_ | ⟨first, _ | ⟨second, others⟩⟩)
        rw [lowersTo_underscore_iff.mp first, (lowersTo_iff_of_isUpper capital).mp second]
        exact .hump capital (induction.mp others)
      · rintro (_ | ⟨small, _, _⟩ | ⟨_, further⟩)
        · rw [capital] at small
          cases small
        · exact .cons (lowersTo_underscore_iff.mpr rfl)
            (.cons ((lowersTo_iff_of_isUpper capital).mpr rfl) (induction.mpr further))
    · rw [unhump, if_neg capital]
      constructor
      · rintro (_ | ⟨lowers, others⟩)
        exact .letter (Bool.eq_false_iff.mpr capital) lowers (induction.mp others)
      · rintro (_ | ⟨_, lowers, further⟩ | ⟨isCapital, _⟩)
        · exact .cons lowers (induction.mpr further)
        · exact absurd isCapital capital

/-- A key is converted to a name in ASCII just where it spells it. -/
theorem snakeCase_eq_iff {key name : String} (ascii : ∀ d ∈ name.toList, d.toNat < 128) :
    snakeCase key = name ↔ Spells key name := by
  rw [← String.toList_inj, toList_snakeCase, Text.toLower_eq_iff ascii, Spells]
  cases key.toList with
  | nil =>
    rw [breakHumps, List.forall₂_nil_left_iff]
    cases name.toList <;> simp
  | cons c rest =>
    rw [breakHumps_cons]
    cases name.toList with
    | nil => simp
    | cons d further => rw [List.forall₂_cons, spellsOn_iff]

end DocAudit
