import DocAudit.Text.Blank
import DocAudit.Text.Digit
import Mathlib.Data.List.DropRight

/-!
Laws of stripping. A text is what is left of it when its right side is stripped, followed by
blanks; the left side of it does not depend on blanks that follow a character that is none.
-/

namespace DocAudit.Text

/-- A text of nothing but blanks. -/
def AllBlank (text : List Char) : Prop :=
  ∀ c ∈ text, isBlank c = true

instance (text : List Char) : Decidable (AllBlank text) :=
  decidable_of_iff (text.all isBlank = true) List.all_eq_true

theorem allBlank_nil : AllBlank [] := by
  intro c member
  cases member

theorem AllBlank.not_mem {text : List Char} (blank : AllBlank text) {c : Char}
    (visible : isBlank c = false) : c ∉ text := by
  intro member
  have isBlank := blank c member
  rw [visible] at isBlank
  exact Bool.false_ne_true isBlank

theorem hasText_eq_false_iff {text : List Char} : hasText text = false ↔ AllBlank text := by
  simp [hasText, AllBlank]

@[simp] theorem hasText_nil : hasText [] = false := rfl

theorem hasText_cons (c : Char) (rest : List Char) :
    hasText (c :: rest) = (!isBlank c || hasText rest) := rfl

@[simp] theorem hasText_append (first second : List Char) :
    hasText (first ++ second) = (hasText first || hasText second) := by
  simp [hasText]

theorem hasText_of_mem {text : List Char} {c : Char} (member : c ∈ text)
    (visible : isBlank c = false) : hasText text = true := by
  rw [hasText, List.any_eq_true]
  exact ⟨c, member, by simp [visible]⟩

/-! ## The right side -/

theorem stripRight_eq_rdropWhile (text : List Char) :
    stripRight text = text.rdropWhile isBlank := rfl

/-- The blanks that stripping the right side takes off. -/
theorem exists_eq_stripRight_append (text : List Char) :
    ∃ tail, AllBlank tail ∧ text = stripRight text ++ tail := by
  refine ⟨text.rtakeWhile isBlank, ?_, ?_⟩
  · intro c member
    exact List.mem_rtakeWhile_imp member
  · exact List.rdropWhile_append_rtakeWhile.symm

theorem stripRight_eq_nil_iff {text : List Char} :
    stripRight text = [] ↔ hasText text = false := by
  rw [stripRight_eq_rdropWhile, List.rdropWhile_eq_nil_iff, hasText_eq_false_iff]
  rfl

theorem stripRight_append_of_allBlank (text : List Char) {tail : List Char}
    (blank : AllBlank tail) : stripRight (text ++ tail) = stripRight text := by
  have reversed : ∀ c ∈ tail.reverse, isBlank c = true := by
    intro c member
    exact blank c (List.mem_reverse.mp member)
  rw [stripRight, List.reverse_append, List.dropWhile_append_of_pos reversed]
  rfl

theorem stripRight_append_of_hasText (text : List Char) {tail : List Char}
    (visible : hasText tail = true) : stripRight (text ++ tail) = text ++ stripRight tail := by
  have left : tail.reverse.dropWhile isBlank ≠ [] := by
    intro empty
    have stripped : stripRight tail = [] := by rw [stripRight, empty, List.reverse_nil]
    rw [stripRight_eq_nil_iff.mp stripped] at visible
    exact Bool.false_ne_true visible
  rw [stripRight, List.reverse_append, List.dropWhile_append, if_neg]
  · rw [List.reverse_append, List.reverse_reverse]
    rfl
  · simpa using left

@[simp] theorem stripRight_stripRight (text : List Char) :
    stripRight (stripRight text) = stripRight text :=
  List.rdropWhile_idempotent isBlank text

@[simp] theorem hasText_stripRight (text : List Char) :
    hasText (stripRight text) = hasText text := by
  rcases exists_eq_stripRight_append text with ⟨tail, blank, split⟩
  conv_rhs => rw [split]
  rw [hasText_append, hasText_eq_false_iff.mpr blank, Bool.or_false]

/-- The last character of a stripped text is none of those that stripping takes off. -/
theorem stripRight_eq_self_iff {text : List Char} :
    stripRight text = text ↔ ∀ c, text.getLast? = some c → isBlank c = false := by
  rw [stripRight_eq_rdropWhile, List.rdropWhile_eq_self_iff]
  constructor
  · intro solid c last
    have nonempty : text ≠ [] := by
      rintro rfl
      cases last
    rw [List.getLast?_eq_some_getLast nonempty, Option.some.injEq] at last
    rw [← last]
    simpa using solid nonempty
  · intro solid nonempty
    simp [solid _ (List.getLast?_eq_some_getLast nonempty)]

/-- Nothing is taken off what stands before a character that stays. -/
theorem stripRight_append_of_stripped {text : List Char} (stripped : stripRight text = text)
    (rest : List Char) : stripRight (text ++ rest) = text ++ stripRight rest := by
  cases visible : hasText rest with
  | true => exact stripRight_append_of_hasText text visible
  | false =>
    rw [stripRight_append_of_allBlank text (hasText_eq_false_iff.mp visible), stripped,
      stripRight_eq_nil_iff.mpr visible, List.append_nil]

/-- The first character stays, unless everything goes. -/
theorem head_stripRight {text : List Char} (left : stripRight text ≠ []) :
    (stripRight text).head? = text.head? := by
  rcases exists_eq_stripRight_append text with ⟨tail, -, split⟩
  conv_rhs => rw [split, List.head?_append_of_ne_nil _ left]

theorem head_stripRight_ne {text : List Char} {c : Char} (different : text.head? ≠ some c) :
    (stripRight text).head? ≠ some c := by
  by_cases empty : stripRight text = []
  · rw [empty]
    exact fun first => nomatch first
  · rw [head_stripRight empty]
    exact different

theorem head_any_visible_stripRight (text : List Char) :
    (stripRight text).head?.any (!isBlank ·) = text.head?.any (!isBlank ·) := by
  by_cases empty : stripRight text = []
  · have blank := hasText_eq_false_iff.mp (stripRight_eq_nil_iff.mp empty)
    rw [empty]
    cases text with
    | nil => rfl
    | cons c rest => simp [blank c List.mem_cons_self]
  · rw [head_stripRight empty]

theorem mem_of_mem_stripRight {text : List Char} {c : Char} (member : c ∈ stripRight text) :
    c ∈ text :=
  (List.rdropWhile_prefix isBlank text).subset member

/-- The blanks at the end of a text that begins with a stripped one. -/
theorem rtakeWhile_append_of_allBlank {text tail : List Char} (stripped : stripRight text = text)
    (blank : AllBlank tail) : (text ++ tail).rtakeWhile isBlank = tail := by
  have whole := List.rdropWhile_append_rtakeWhile (p := isBlank) (l := text ++ tail)
  rw [← stripRight_eq_rdropWhile, stripRight_append_of_allBlank text blank, stripped] at whole
  exact List.append_cancel_left whole

theorem drop_length_stripRight (text : List Char) :
    text.drop (stripRight text).length = text.rtakeWhile isBlank := by
  have whole := List.rdropWhile_append_rtakeWhile (p := isBlank) (l := text)
  rw [← stripRight_eq_rdropWhile] at whole
  conv_lhs => rw [← whole]
  rw [stripRight_append_of_allBlank _ fun c member => List.mem_rtakeWhile_imp member,
    stripRight_stripRight, List.drop_left]

/-! ## The left side -/

theorem takeWhile_append_stripLeft (text : List Char) :
    text.takeWhile isBlank ++ stripLeft text = text :=
  List.takeWhile_append_dropWhile

theorem allBlank_takeWhile (text : List Char) : AllBlank (text.takeWhile isBlank) := by
  intro c member
  exact List.mem_takeWhile_imp member

theorem stripLeft_append_of_allBlank {lead : List Char} (blank : AllBlank lead)
    (text : List Char) : stripLeft (lead ++ text) = stripLeft text :=
  List.dropWhile_append_of_pos blank

theorem stripLeft_eq_nil_iff {text : List Char} :
    stripLeft text = [] ↔ hasText text = false := by
  rw [stripLeft, List.dropWhile_eq_nil_iff, hasText_eq_false_iff]
  rfl

theorem stripLeft_append_of_hasText {text : List Char} (visible : hasText text = true)
    (tail : List Char) : stripLeft (text ++ tail) = stripLeft text ++ tail := by
  have left : stripLeft text ≠ [] := by
    intro empty
    rw [stripLeft_eq_nil_iff.mp empty] at visible
    exact Bool.false_ne_true visible
  rw [stripLeft, List.dropWhile_append, if_neg]
  · rfl
  · simpa [stripLeft] using left

theorem takeWhile_append_of_hasText {text : List Char} (visible : hasText text = true)
    (tail : List Char) :
    (text ++ tail).takeWhile isBlank = text.takeWhile isBlank := by
  have whole := takeWhile_append_stripLeft (text ++ tail)
  rw [stripLeft_append_of_hasText visible, ← List.append_assoc] at whole
  have parts := (List.append_cancel_right whole).trans (takeWhile_append_stripLeft text).symm
  exact List.append_cancel_right parts

/-! ## Both sides -/

theorem stripLeft_stripRight (text : List Char) :
    stripLeft (stripRight text) = stripRight (stripLeft text) := by
  cases visible : hasText text with
  | false =>
    rw [stripRight_eq_nil_iff.mpr visible, stripLeft_eq_nil_iff.mpr visible]
    rfl
  | true =>
    rcases exists_eq_stripRight_append text with ⟨tail, blank, split⟩
    have kept : hasText (stripRight text) = true := by rw [hasText_stripRight, visible]
    conv_rhs => rw [split]
    rw [stripLeft_append_of_hasText kept, stripRight_append_of_allBlank _ blank]
    have solid : hasText (stripLeft (stripRight text)) = true := by
      rw [← takeWhile_append_stripLeft (stripRight text), hasText_append,
        hasText_eq_false_iff.mpr (allBlank_takeWhile _), Bool.false_or] at kept
      exact kept
    have whole := stripRight_stripRight text
    rw [← takeWhile_append_stripLeft (stripRight text),
      stripRight_append_of_hasText _ solid] at whole
    exact (List.append_cancel_left whole).symm

/-- A text and what is left of it on the right begin with the same visible character. -/
theorem head_stripLeft_stripRight (text : List Char) :
    (stripLeft (stripRight text)).head? = (stripLeft text).head? := by
  cases visible : hasText text with
  | false => rw [stripRight_eq_nil_iff.mpr visible, stripLeft_eq_nil_iff.mpr visible]; rfl
  | true =>
    have kept : hasText (stripRight text) = true := by rw [hasText_stripRight, visible]
    have left : stripLeft (stripRight text) ≠ [] := by
      intro empty
      rw [stripLeft_eq_nil_iff.mp empty] at kept
      exact Bool.false_ne_true kept
    rcases exists_eq_stripRight_append text with ⟨tail, -, split⟩
    conv_rhs => rw [split, stripLeft_append_of_hasText kept]
    rw [List.head?_append_of_ne_nil _ left]

@[simp] theorem strip_stripRight (text : List Char) : strip (stripRight text) = strip text := by
  rw [strip, stripLeft_stripRight, stripRight_stripRight, strip]

theorem strip_append_of_allBlank (text : List Char) {tail : List Char} (blank : AllBlank tail) :
    strip (text ++ tail) = strip text := by
  rw [← strip_stripRight, stripRight_append_of_allBlank _ blank, strip_stripRight]

theorem strip_append_left_of_allBlank {lead : List Char} (blank : AllBlank lead)
    (text : List Char) : strip (lead ++ text) = strip text := by
  rw [strip, stripLeft_append_of_allBlank blank, strip]

theorem strip_eq_nil_iff {text : List Char} : strip text = [] ↔ hasText text = false := by
  rw [strip, ← stripLeft_stripRight, stripLeft_eq_nil_iff, hasText_stripRight]

theorem strip_visible {text : List Char} (solid : ∀ c ∈ text, isBlank c = false) :
    strip text = text := by
  have left : stripLeft text = text := by
    cases text with
    | nil => rfl
    | cons c rest =>
      rw [stripLeft, List.dropWhile_cons, if_neg (by simp [solid c List.mem_cons_self])]
  rw [strip, left, stripRight_eq_self_iff]
  intro c last
  exact solid c (List.mem_of_getLast? last)

/-! ## Digits -/

/-- No blank is a digit, in whatever script. -/
theorem isBlank_of_isDigit {c : Char} (digit : isDigit c = true) : isBlank c = false := by
  have apart : ∀ range ∈ blankRanges, ∀ start ∈ digitZeros,
      range.2 < start ∨ start + 10 ≤ range.1 := by decide
  rw [isDigit, digitValue?, Option.isSome_map, List.find?_isSome] at digit
  rcases digit with ⟨start, inZeros, within⟩
  rw [isBlank, Ranges.contains, List.any_eq_false]
  intro range inRanges blank
  have separate := apart range inRanges start inZeros
  simp only [Bool.and_eq_true, decide_eq_true_eq] at within blank
  omega

end DocAudit.Text
