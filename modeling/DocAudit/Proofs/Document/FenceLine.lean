import DocAudit.Document.Fix
import DocAudit.Proofs.Text.Blank
import Mathlib.Data.Bool.AllAny

/-!
Fence lines. Whether a line is one depends on its indent and the mark behind it, not on the blanks
at its end. A bare fence has nothing but the mark, and a label makes it a fence that is not bare.
-/

namespace DocAudit

open Text

/-- What begins a text and shares no character with the end of it begins the rest. -/
theorem isPrefixOf_append_of_disjoint {piece tail : List Char} (disjoint : ∀ c ∈ piece, c ∉ tail)
    (text : List Char) : piece.isPrefixOf (text ++ tail) = piece.isPrefixOf text := by
  induction text generalizing piece with
  | nil =>
    cases piece with
    | nil => rfl
    | cons c piece =>
      cases tail with
      | nil => rfl
      | cons other tail =>
        have different : c ≠ other := by
          rintro rfl
          exact disjoint c List.mem_cons_self List.mem_cons_self
        rw [List.nil_append, List.isPrefixOf_cons_cons, beq_false_of_ne different]
        rfl
  | cons first text induction =>
    cases piece with
    | nil => rfl
    | cons c piece =>
      rw [List.cons_append, List.isPrefixOf_cons_cons, List.isPrefixOf_cons_cons,
        induction fun c member => disjoint c (List.mem_cons_of_mem _ member)]

theorem fenceMark_visible {c : Char} (member : c ∈ fenceMark) : isBlank c = false := by
  have isTick : c = '\x60' := by simpa [fenceMark] using member
  rw [isTick]
  decide

@[simp] theorem isFenceLine_append_of_allBlank (line : List Char) {tail : List Char}
    (blank : AllBlank tail) : isFenceLine (line ++ tail) = isFenceLine line := by
  cases visible : hasText line with
  | false =>
    have both : hasText (line ++ tail) = false := by
      rw [hasText_append, visible, hasText_eq_false_iff.mpr blank]
      rfl
    rw [isFenceLine, isFenceLine, stripLeft_eq_nil_iff.mpr visible, stripLeft_eq_nil_iff.mpr both]
  | true =>
    rw [isFenceLine, stripLeft_append_of_hasText visible, isPrefixOf_append_of_disjoint]
    · rfl
    · intro c member
      exact blank.not_mem (fenceMark_visible member)

@[simp] theorem isFenceLine_stripRight (line : List Char) :
    isFenceLine (stripRight line) = isFenceLine line := by
  rcases exists_eq_stripRight_append line with ⟨tail, blank, split⟩
  conv_rhs => rw [split]
  rw [isFenceLine_append_of_allBlank _ blank]

theorem hasText_of_isFenceLine {line : List Char} (fence : isFenceLine line = true) :
    hasText line = true := by
  by_contra blank
  rw [Bool.not_eq_true] at blank
  rw [isFenceLine, stripLeft_eq_nil_iff.mpr blank] at fence
  exact Bool.false_ne_true fence

theorem isFenceLine_of_visible {line : List Char} {c : Char}
    (first : (stripLeft line).head? = some c) (different : c ≠ '\x60') :
    isFenceLine line = false := by
  by_contra fence
  rw [Bool.not_eq_false, isFenceLine, List.isPrefixOf_iff_prefix] at fence
  rcases fence with ⟨rest, split⟩
  rw [← split] at first
  exact different (Option.some.inj first).symm

theorem isFenceLine_indent_append {lead : List Char} (blank : AllBlank lead)
    (rest : List Char) : isFenceLine (lead ++ fenceMark ++ rest) = true := by
  rw [isFenceLine, List.append_assoc, stripLeft_append_of_allBlank blank]
  rfl

/-! ## Bare fences -/

/-- A bare fence is a mark between blanks. -/
theorem strip_eq_fenceMark_iff {line : List Char} :
    strip line = fenceMark ↔
      ∃ tail, AllBlank tail ∧ line = line.takeWhile isBlank ++ fenceMark ++ tail := by
  constructor
  · intro bare
    rcases exists_eq_stripRight_append (stripLeft line) with ⟨tail, blank, split⟩
    refine ⟨tail, blank, ?_⟩
    rw [List.append_assoc, ← bare, strip, ← split, takeWhile_append_stripLeft]
  · rintro ⟨tail, blank, split⟩
    rw [split, strip_append_of_allBlank _ blank,
      strip_append_left_of_allBlank (allBlank_takeWhile line)]
    exact strip_visible fun c member => fenceMark_visible member

namespace Fix

/-- The default label behind the mark of a bare fence. -/
def labelled (line : List Char) : List Char :=
  line.takeWhile isBlank ++ fenceMark ++ defaultLanguage

theorem labelFence_eq (line : List Char) :
    labelFence line = if strip line = fenceMark then labelled line else line := rfl

theorem isFenceLine_labelled (line : List Char) : isFenceLine (labelled line) = true :=
  isFenceLine_indent_append (allBlank_takeWhile line) defaultLanguage

theorem strip_labelled (line : List Char) :
    strip (labelled line) = fenceMark ++ defaultLanguage := by
  rw [labelled, List.append_assoc, strip_append_left_of_allBlank (allBlank_takeWhile line)]
  exact strip_visible (List.all_iff_forall_prop.mp (by decide))

theorem stripRight_labelled (line : List Char) : stripRight (labelled line) = labelled line := by
  rw [stripRight_eq_self_iff]
  intro c last
  rw [labelled, List.getLast?_append] at last
  have isLast : c = 't' := (Option.some.inj last).symm
  rw [isLast]
  decide

end Fix

end DocAudit
