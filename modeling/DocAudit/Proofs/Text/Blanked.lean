import DocAudit.Text.Lines
import Mathlib.Data.List.Basic

/-!
Pieces of a text that have been blanked. Each character stays as it is or belongs to an occurrence
that has been blanked, and of each occurrence something has been. Which occurrences are blanked
depends on nothing but the places where the piece stands.
-/

namespace DocAudit.Text

variable {piece text : List Char} {place spot covered : Nat}

/-- A piece stands in a text at a place. -/
def StandsAt (piece text : List Char) (place : Nat) : Prop :=
  place + piece.length ≤ text.length ∧
    ∀ index < piece.length, text[place + index]? = piece[index]?

instance : Decidable (StandsAt piece text place) :=
  inferInstanceAs (Decidable (_ ∧ _))

/-- A spot belongs to what a piece takes up at a place. -/
def Spans (piece : List Char) (place spot : Nat) : Prop :=
  place ≤ spot ∧ spot < place + piece.length

instance : Decidable (Spans piece place spot) :=
  inferInstanceAs (Decidable (_ ∧ _))

theorem Spans.succ_iff : Spans piece (place + 1) (spot + 1) ↔ Spans piece place spot := by
  rw [Spans, Spans]
  omega

namespace StandsAt

theorem zero_iff : StandsAt piece text 0 ↔ piece <+: text := by
  have letters : (∀ index < piece.length, text[0 + index]? = piece[index]?) ↔ piece <+: text := by
    rw [List.prefix_iff_getElem?]
    refine forall₂_congr fun index inside => ?_
    rw [Nat.zero_add, List.getElem?_eq_getElem inside]
  refine ⟨fun stands => letters.mp stands.2, fun begins => ⟨?_, letters.mpr begins⟩⟩
  rw [Nat.zero_add]
  exact begins.length_le

theorem succ_iff {c : Char} {rest : List Char} :
    StandsAt piece (c :: rest) (place + 1) ↔ StandsAt piece rest place := by
  have shifted (index : Nat) : (c :: rest)[place + 1 + index]? = rest[place + index]? := by
    rw [Nat.add_right_comm, List.getElem?_cons_succ]
  have shorter : place + 1 + piece.length ≤ (c :: rest).length ↔
      place + piece.length ≤ rest.length := by
    rw [List.length_cons]
    omega
  simp only [StandsAt, shifted, shorter]

/-- A piece goes on standing where nothing that it takes up changes. -/
theorem of_unchanged {left : List Char} (stands : StandsAt piece text place)
    (length : left.length = text.length)
    (unchanged : ∀ spot, Spans piece place spot → left[spot]? = text[spot]?) :
    StandsAt piece left place := by
  refine ⟨length ▸ stands.1, fun index inside => ?_⟩
  rw [unchanged (place + index) ⟨by omega, by omega⟩, stands.2 index inside]

end StandsAt

/-- A piece stands in a text or comes to stand there once some characters have been blanked: what
it holds beside spaces is there. -/
def FitsAt (piece text : List Char) (place : Nat) : Prop :=
  place + piece.length ≤ text.length ∧
    ∀ index < piece.length, piece[index]? = some ' ' ∨ text[place + index]? = piece[index]?

instance : Decidable (FitsAt piece text place) :=
  inferInstanceAs (Decidable (_ ∧ _))

theorem StandsAt.fitsAt (stands : StandsAt piece text place) : FitsAt piece text place :=
  ⟨stands.1, fun index inside => .inr (stands.2 index inside)⟩

theorem occursIn_iff : occursIn piece text = true ↔ ∃ place, StandsAt piece text place := by
  induction text with
  | nil =>
    simp only [occursIn, List.isEmpty_iff, StandsAt, List.length_nil, Nat.le_zero_eq,
      Nat.add_eq_zero_iff, List.length_eq_zero_iff]
    constructor
    · rintro rfl
      exact ⟨0, ⟨rfl, rfl⟩, nofun⟩
    · rintro ⟨place, ⟨-, empty⟩, -⟩
      exact empty
  | cons c rest induction =>
    rw [occursIn, Bool.or_eq_true, induction, List.isPrefixOf_iff_prefix, ← StandsAt.zero_iff]
    constructor
    · rintro (here | ⟨place, later⟩)
      · exact ⟨0, here⟩
      · exact ⟨place + 1, StandsAt.succ_iff.mpr later⟩
    · rintro ⟨_ | place, stands⟩
      · exact .inl stands
      · exact .inr ⟨place, StandsAt.succ_iff.mp stands⟩

/-! ## What blanking leaves -/

@[simp] theorem length_blankOccurrences (piece text : List Char) :
    (blankOccurrences piece text).length = text.length :=
  length_blankOccurrences_from piece 0 text

/-- An occurrence of a piece is blank in what is left of a text. -/
structure LiesBlank (piece text left : List Char) (place : Nat) : Prop where
  stands : StandsAt piece text place
  blank : ∀ spot, Spans piece place spot → left[spot]? = some ' '

theorem LiesBlank.cons {left : List Char} (lies : LiesBlank piece text left place) (c d : Char) :
    LiesBlank piece (c :: text) (d :: left) (place + 1) := by
  refine ⟨StandsAt.succ_iff.mpr lies.stands, fun spot spans => ?_⟩
  cases spot with
  | zero => exact absurd spans.1 (Nat.not_succ_le_zero place)
  | succ spot => exact lies.blank spot (Spans.succ_iff.mp spans)

namespace blankOccurrences

theorem from_of_standsAt {c : Char} {rest : List Char} (nonempty : piece ≠ [])
    (stands : StandsAt piece (c :: rest) 0) :
    «from» piece 0 (c :: rest) = ' ' :: «from» piece (piece.length - 1) rest :=
  if_pos ⟨nonempty, List.isPrefixOf_iff_prefix.mpr (StandsAt.zero_iff.mp stands)⟩

theorem from_of_not_standsAt {c : Char} {rest : List Char}
    (absent : ¬(piece ≠ [] ∧ StandsAt piece (c :: rest) 0)) :
    «from» piece 0 (c :: rest) = c :: «from» piece 0 rest :=
  if_neg fun found =>
    absent ⟨found.1, StandsAt.zero_iff.mpr (List.isPrefixOf_iff_prefix.mp found.2)⟩

/-- The last occurrence goes on over the characters that belong to it. -/
theorem from_of_covered (inside : spot < covered) (within : spot < text.length) :
    («from» piece covered text)[spot]? = some ' ' := by
  induction text generalizing covered spot with
  | nil => exact absurd within (Nat.not_lt_zero spot)
  | cons c rest induction =>
    obtain ⟨left, rfl⟩ := Nat.exists_eq_succ_of_ne_zero (Nat.ne_zero_of_lt inside)
    cases spot with
    | zero => rfl
    | succ spot =>
      exact induction (Nat.lt_of_succ_lt_succ inside) (Nat.lt_of_succ_lt_succ within)

theorem from_liesBlank {c : Char} {rest : List Char} (nonempty : piece ≠ [])
    (stands : StandsAt piece (c :: rest) 0) :
    LiesBlank piece (c :: rest) («from» piece 0 (c :: rest)) 0 := by
  refine ⟨stands, fun spot spans => ?_⟩
  rw [from_of_standsAt nonempty stands]
  cases spot with
  | zero => rfl
  | succ spot =>
    have inside := spans.2
    have within := stands.1
    rw [List.length_cons] at within
    exact from_of_covered (by omega) (by omega)

theorem from_getElem? (piece : List Char) (covered : Nat) (text : List Char) (spot : Nat) :
    («from» piece covered text)[spot]? = text[spot]? ∨ spot < covered ∨
      ∃ place, LiesBlank piece text («from» piece covered text) place ∧ Spans piece place spot := by
  induction text generalizing covered spot with
  | nil => exact .inl rfl
  | cons c rest induction =>
    cases covered with
    | succ left =>
      cases spot with
      | zero => exact .inr (.inl (Nat.succ_pos left))
      | succ spot =>
        rcases induction left spot with unchanged | inside | ⟨place, lies, spans⟩
        · exact .inl unchanged
        · exact .inr (.inl (Nat.succ_lt_succ inside))
        · exact .inr (.inr ⟨place + 1, lies.cons c ' ', Spans.succ_iff.mpr spans⟩)
    | zero =>
      by_cases found : piece ≠ [] ∧ StandsAt piece (c :: rest) 0
      · obtain ⟨nonempty, here⟩ := found
        have lies := from_liesBlank nonempty here
        have positive := List.length_pos_iff.mpr nonempty
        cases spot with
        | zero => exact .inr (.inr ⟨0, lies, Nat.le_refl 0, by omega⟩)
        | succ spot =>
          rcases induction (piece.length - 1) spot with
            unchanged | inside | ⟨place, later, spans⟩
          · exact .inl (by rwa [from_of_standsAt nonempty here])
          · exact .inr (.inr ⟨0, lies, Nat.zero_le _, by omega⟩)
          · rw [from_of_standsAt nonempty here]
            exact .inr (.inr ⟨place + 1, later.cons c ' ', Spans.succ_iff.mpr spans⟩)
      · rw [from_of_not_standsAt found]
        cases spot with
        | zero => exact .inl rfl
        | succ spot =>
          rcases induction 0 spot with unchanged | inside | ⟨place, lies, spans⟩
          · exact .inl unchanged
          · exact absurd inside (Nat.not_lt_zero spot)
          · exact .inr (.inr ⟨place + 1, lies.cons c c, Spans.succ_iff.mpr spans⟩)

/-- The occurrence that begins at a place has been blanked, or an occurrence that begins before and
goes on there. -/
theorem from_exists_liesBlank (covered : Nat) (nonempty : piece ≠ [])
    (stands : StandsAt piece text place) :
    place < covered ∨
      ∃ first, LiesBlank piece text («from» piece covered text) first ∧ Spans piece first place := by
  have positive := List.length_pos_iff.mpr nonempty
  induction text generalizing covered place with
  | nil =>
    have within := stands.1
    rw [List.length_nil] at within
    omega
  | cons c rest induction =>
    cases covered with
    | succ left =>
      cases place with
      | zero => exact .inl (Nat.succ_pos left)
      | succ place =>
        rcases induction left (StandsAt.succ_iff.mp stands) with inside | ⟨first, lies, spans⟩
        · exact .inl (Nat.succ_lt_succ inside)
        · exact .inr ⟨first + 1, lies.cons c ' ', Spans.succ_iff.mpr spans⟩
    | zero =>
      by_cases here : StandsAt piece (c :: rest) 0
      · have whole := from_liesBlank nonempty here
        cases place with
        | zero => exact .inr ⟨0, whole, Nat.le_refl 0, by omega⟩
        | succ place =>
          -- The occurrence at the front goes on to the place, or is over before it.
          rcases induction (piece.length - 1) (StandsAt.succ_iff.mp stands) with
            inside | ⟨first, lies, spans⟩
          · exact .inr ⟨0, whole, Nat.zero_le _, by omega⟩
          · rw [from_of_standsAt nonempty here]
            exact .inr ⟨first + 1, lies.cons c ' ', Spans.succ_iff.mpr spans⟩
      · rw [from_of_not_standsAt fun found => here found.2]
        cases place with
        | zero => exact absurd stands here
        | succ place =>
          rcases induction 0 (StandsAt.succ_iff.mp stands) with inside | ⟨first, lies, spans⟩
          · exact absurd inside (Nat.not_lt_zero place)
          · exact .inr ⟨first + 1, lies.cons c c, Spans.succ_iff.mpr spans⟩

theorem from_alike (covered : Nat) {other : List Char} (length : other.length = text.length)
    (same : ∀ place, StandsAt piece other place ↔ StandsAt piece text place) (spot : Nat) :
    («from» piece covered other)[spot]? = other[spot]? ∧
        («from» piece covered text)[spot]? = text[spot]? ∨
      («from» piece covered other)[spot]? = («from» piece covered text)[spot]? := by
  induction text generalizing covered other spot with
  | nil =>
    rw [List.length_eq_zero_iff.mp length]
    exact .inl ⟨rfl, rfl⟩
  | cons c rest induction =>
    obtain ⟨d, others, rfl⟩ := List.exists_cons_of_length_eq_add_one length
    have sameRest (place : Nat) : StandsAt piece others place ↔ StandsAt piece rest place := by
      rw [← StandsAt.succ_iff, same, StandsAt.succ_iff]
    have later (covered : Nat) (spot : Nat) :=
      induction covered (Nat.succ.inj length) sameRest spot
    cases covered with
    | succ left =>
      cases spot with
      | zero => exact .inr rfl
      | succ spot => exact later left spot
    | zero =>
      by_cases found : piece ≠ [] ∧ StandsAt piece (c :: rest) 0
      · rw [from_of_standsAt found.1 found.2, from_of_standsAt found.1 ((same 0).mpr found.2)]
        cases spot with
        | zero => exact .inr rfl
        | succ spot => exact later (piece.length - 1) spot
      · rw [from_of_not_standsAt found,
          from_of_not_standsAt fun foundThere => found ⟨foundThere.1, (same 0).mp foundThere.2⟩]
        cases spot with
        | zero => exact .inl ⟨rfl, rfl⟩
        | succ spot => exact later 0 spot

end blankOccurrences

/-- A character stays as it is or is blanked together with an occurrence that it belongs to. -/
theorem blankOccurrences_getElem? (piece text : List Char) (spot : Nat) :
    (blankOccurrences piece text)[spot]? = text[spot]? ∨
      ∃ place, LiesBlank piece text (blankOccurrences piece text) place ∧ Spans piece place spot :=
  (blankOccurrences.from_getElem? piece 0 text spot).imp_right
    (Or.resolve_left · (Nat.not_lt_zero spot))

/-- Where a piece stands it is blanked, or an occurrence is that begins before and goes on there. -/
theorem exists_liesBlank (nonempty : piece ≠ []) (stands : StandsAt piece text place) :
    ∃ first, LiesBlank piece text (blankOccurrences piece text) first ∧ Spans piece first place :=
  (blankOccurrences.from_exists_liesBlank 0 nonempty stands).resolve_left (Nat.not_lt_zero place)

/-- Two texts in which the piece stands at the same places lose the same characters. -/
theorem blankOccurrences_alike {other : List Char} (length : other.length = text.length)
    (same : ∀ place, StandsAt piece other place ↔ StandsAt piece text place) (spot : Nat) :
    (blankOccurrences piece other)[spot]? = other[spot]? ∧
        (blankOccurrences piece text)[spot]? = text[spot]? ∨
      (blankOccurrences piece other)[spot]? = (blankOccurrences piece text)[spot]? :=
  blankOccurrences.from_alike 0 length same spot

end DocAudit.Text
