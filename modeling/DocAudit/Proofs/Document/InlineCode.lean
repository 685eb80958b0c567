import DocAudit.Document.InlineCode
import DocAudit.Proofs.Document.FenceLine
import Mathlib.Data.List.NodupEquivFin

/-!
Spans of inline code and what stands around them. A text without backticks at the end of a line
neither closes a span nor belongs to one, and a character before the first backtick has no part in
any. What is blanked is cut out of the line span by span. One backtick with another one two places
behind it begins a span, so what is left has two backticks at most, side by side, and nothing in it
is a span.
-/

namespace DocAudit.InlineCode

/-! ## Single spans -/

theorem contentLength?_of_not_mem {mark text : List Char} (marked : backtick ∈ mark)
    (unmarked : backtick ∉ text) (passed : Nat) : contentLength? mark passed text = none := by
  induction text generalizing passed with
  | nil => rfl
  | cons c rest induction =>
    have notHere : ¬(0 < passed ∧ mark.isPrefixOf (c :: rest) = true) := fun conditions =>
      unmarked ((List.isPrefixOf_iff_prefix.mp conditions.2).subset marked)
    rw [contentLength?, if_neg notHere]
    split
    · rfl
    · exact induction (fun member => unmarked (List.mem_cons_of_mem c member)) (passed + 1)

theorem mem_mark {size : Nat} (positive : 0 < size) :
    backtick ∈ List.replicate size backtick :=
  List.mem_replicate.mpr ⟨positive.ne', rfl⟩

theorem contentLength?_append {size : Nat} (positive : 0 < size) (passed : Nat)
    (text : List Char) {tail : List Char} (unmarked : backtick ∉ tail) :
    contentLength? (List.replicate size backtick) passed (text ++ tail) =
      contentLength? (List.replicate size backtick) passed text := by
  induction text generalizing passed with
  | nil => exact contentLength?_of_not_mem (mem_mark positive) unmarked passed
  | cons c rest induction =>
    have disjoint : ∀ mark ∈ List.replicate size backtick, mark ∉ tail := by
      intro mark member
      rw [List.eq_of_mem_replicate member]
      exact unmarked
    have samePrefix := isPrefixOf_append_of_disjoint disjoint (c :: rest)
    rw [List.cons_append] at samePrefix
    rw [List.cons_append, contentLength?, contentLength?, samePrefix, induction]

/-- A closing mark stands inside its text. -/
theorem length_of_contentLength? {mark text : List Char} {passed length : Nat}
    (closed : contentLength? mark passed text = some length) :
    length + mark.length ≤ passed + text.length := by
  induction text generalizing passed with
  | nil => cases closed
  | cons c rest induction =>
    rw [contentLength?] at closed
    split at closed
    · next here =>
      cases closed
      have fits := (List.isPrefixOf_iff_prefix.mp here.2).length_le
      omega
    · split at closed
      · cases closed
      · have later := induction closed
        rw [List.length_cons]
        omega

/-- The content ends where its closing mark begins. -/
theorem exists_of_contentLength? {mark text : List Char} {passed length : Nat}
    (closed : contentLength? mark passed text = some length) :
    ∃ content rest, text = content ++ (mark ++ rest) ∧ length = passed + content.length ∧
      0 < length := by
  induction text generalizing passed with
  | nil => cases closed
  | cons c text induction =>
    rw [contentLength?] at closed
    split at closed
    · next here =>
      cases closed
      obtain ⟨rest, split⟩ := List.isPrefixOf_iff_prefix.mp here.2
      exact ⟨[], rest, split.symm, rfl, here.1⟩
    · split at closed
      · cases closed
      · obtain ⟨content, rest, split, isLength, positive⟩ := induction closed
        refine ⟨c :: content, rest, by rw [split]; rfl, ?_, positive⟩
        rw [isLength, List.length_cons]
        omega

theorem take_eq_replicate {text : List Char} {size : Nat}
    (within : size ≤ (text.takeWhile (· == backtick)).length) :
    text.take size = List.replicate size backtick := by
  have run : text.takeWhile (· == backtick) =
      List.replicate (text.takeWhile (· == backtick)).length backtick :=
    List.eq_replicate_iff.mpr ⟨rfl, fun _ member => by simpa using List.mem_takeWhile_imp member⟩
  have split := List.takeWhile_append_dropWhile (p := (· == backtick)) (l := text)
  rw [← split, List.take_append_of_le_length within, run, List.take_replicate,
    Nat.min_eq_left within]

theorem takeWhile_backtick_append (text : List Char) {tail : List Char}
    (unmarked : backtick ∉ tail) :
    (text ++ tail).takeWhile (· == backtick) = text.takeWhile (· == backtick) := by
  induction text with
  | nil =>
    cases tail with
    | nil => rfl
    | cons c rest =>
      have other : ¬(c == backtick) = true := by
        rw [beq_iff_eq]
        rintro rfl
        exact unmarked List.mem_cons_self
      exact List.takeWhile_cons_of_neg other
  | cons c rest induction =>
    rw [List.cons_append, List.takeWhile_cons, List.takeWhile_cons, induction]

theorem spanLength?_append (text : List Char) {tail : List Char} (unmarked : backtick ∉ tail) :
    spanLength? (text ++ tail) = spanLength? text := by
  rw [spanLength?, spanLength?, takeWhile_backtick_append text unmarked, ← List.head?_filterMap,
    ← List.head?_filterMap]
  congr 1
  apply List.filterMap_congr
  intro fewer member
  rw [List.mem_range] at member
  have within := (List.takeWhile_sublist (l := text) (· == backtick)).length_le
  rw [lengthWithMark?, lengthWithMark?, List.drop_append_of_le_length (by omega),
    contentLength?_append (by omega) 0 _ unmarked]

theorem spanLength?_cons_of_ne {c : Char} (other : c ≠ backtick) (rest : List Char) :
    spanLength? (c :: rest) = none := by
  rw [spanLength?, List.takeWhile_cons_of_neg (by simpa using other)]
  rfl

theorem spanLength?_le {text : List Char} {length : Nat}
    (span : spanLength? text = some length) : length ≤ text.length := by
  rcases List.exists_of_findSome?_eq_some span with ⟨fewer, member, found⟩
  rw [List.mem_range] at member
  have within := (List.takeWhile_sublist (l := text) (· == backtick)).length_le
  rcases Option.map_eq_some_iff.mp found with ⟨content, closed, rfl⟩
  have fits := length_of_contentLength? closed
  rw [List.length_replicate, List.length_drop] at fits
  omega

/-! ## Whole lines -/

theorem blankFrom_of_not_mem {text : List Char} (unmarked : backtick ∉ text) :
    blankFrom 0 text = text := by
  induction text with
  | nil => rfl
  | cons c rest induction =>
    have other : c ≠ backtick := by
      rintro rfl
      exact unmarked List.mem_cons_self
    rw [blankFrom, spanLength?_cons_of_ne other]
    simp only
    rw [induction fun member => unmarked (List.mem_cons_of_mem c member)]

theorem blankFrom_append {covered : Nat} {line tail : List Char} (unmarked : backtick ∉ tail)
    (within : covered ≤ line.length) :
    blankFrom covered (line ++ tail) = blankFrom covered line ++ tail := by
  induction line generalizing covered with
  | nil =>
    rw [Nat.le_zero.mp within]
    exact blankFrom_of_not_mem unmarked
  | cons c rest induction =>
    rw [List.length_cons] at within
    cases covered with
    | succ covered =>
      rw [List.cons_append, blankFrom, blankFrom, induction (by omega), List.cons_append]
    | zero =>
      have sameSpan := spanLength?_append (c :: rest) unmarked
      rw [List.cons_append] at sameSpan
      rw [List.cons_append, blankFrom, blankFrom, sameSpan]
      cases span : spanLength? (c :: rest) with
      | none =>
        simp only
        rw [induction (Nat.zero_le _), List.cons_append]
      | some length =>
        have bound := spanLength?_le span
        rw [List.length_cons] at bound
        simp only
        rw [induction (by omega), List.cons_append]

theorem blank_append (line : List Char) {tail : List Char} (unmarked : backtick ∉ tail) :
    blank (line ++ tail) = blank line ++ tail :=
  blankFrom_append unmarked (Nat.zero_le _)

theorem blank_cons_of_ne {c : Char} (other : c ≠ backtick) (rest : List Char) :
    blank (c :: rest) = c :: blank rest := by
  rw [blank, blankFrom, spanLength?_cons_of_ne other]
  rfl

/-! ## What is left of a line -/

variable {line left text rest : List Char}

/-- Some content between two marks of as many backticks. -/
def IsSpan (span : List Char) : Prop :=
  ∃ size content, 0 < size ∧ content ≠ [] ∧
    span = List.replicate size backtick ++ (content ++ List.replicate size backtick)

namespace IsSpan

variable {span : List Char}

theorem exists_eq_cons (isSpan : IsSpan span) :
    ∃ behind, span = backtick :: behind ∧ backtick ∈ behind.tail := by
  obtain ⟨size, content, positive, nonempty, rfl⟩ := isSpan
  obtain ⟨size, rfl⟩ := Nat.exists_eq_add_of_lt positive
  refine ⟨List.replicate size backtick ++ (content ++ List.replicate (size + 1) backtick),
    by rw [Nat.zero_add, List.replicate_succ, List.cons_append], ?_⟩
  have marked : backtick ∈ List.replicate (size + 1) backtick :=
    List.mem_replicate.mpr ⟨Nat.succ_ne_zero size, rfl⟩
  rw [← List.append_assoc, List.tail_append_of_ne_nil
    (List.append_ne_nil_of_right_ne_nil _ nonempty)]
  exact List.mem_append_right _ marked

theorem exists_eq_concat (isSpan : IsSpan span) : ∃ front, span = front ++ [backtick] := by
  obtain ⟨size, content, positive, -, rfl⟩ := isSpan
  obtain ⟨size, rfl⟩ := Nat.exists_eq_add_of_lt positive
  refine ⟨List.replicate (size + 1) backtick ++ (content ++ List.replicate size backtick), ?_⟩
  have last : List.replicate (size + 1) backtick = List.replicate size backtick ++ [backtick] :=
    List.replicate_succ'
  rw [Nat.zero_add, List.append_assoc, List.append_assoc, ← last]

end IsSpan

/-- A line and what is left of it: each span that is taken becomes as many blanks, and what stands
between them stays. -/
inductive Blanks : List Char → List Char → Prop where
  | nil : Blanks [] []
  | kept (c : Char) {rest left : List Char} : Blanks rest left → Blanks (c :: rest) (c :: left)
  | span {span rest left : List Char} : IsSpan span → Blanks rest left →
      Blanks (span ++ rest) (List.replicate span.length ' ' ++ left)

theorem blankFrom_eq (covered : Nat) (line : List Char) (within : covered ≤ line.length) :
    blankFrom covered line = List.replicate covered ' ' ++ blank (line.drop covered) := by
  induction line generalizing covered with
  | nil =>
    rw [Nat.le_zero.mp within]
    rfl
  | cons c rest induction =>
    cases covered with
    | zero => rfl
    | succ covered =>
      rw [blankFrom, induction covered (Nat.le_of_succ_le_succ within)]
      rfl

/-- What is blanked together is a span. -/
theorem exists_span_of_spanLength? {length : Nat} (found : spanLength? text = some length) :
    ∃ span rest, text = span ++ rest ∧ IsSpan span ∧ span.length = length := by
  obtain ⟨fewer, member, marked⟩ := List.exists_of_findSome?_eq_some found
  rw [List.mem_range] at member
  obtain ⟨inside, closed, rfl⟩ := Option.map_eq_some_iff.mp marked
  obtain ⟨content, rest, split, isLength, positive⟩ := exists_of_contentLength? closed
  generalize run : (text.takeWhile (· == backtick)).length - fewer = size at *
  have opened : text.take size = List.replicate size backtick := take_eq_replicate (by omega)
  refine ⟨List.replicate size backtick ++ (content ++ List.replicate size backtick), rest, ?_,
    ⟨size, content, by omega, ?_, rfl⟩, ?_⟩
  · rw [List.append_assoc, List.append_assoc, ← split, ← opened, List.take_append_drop]
  · apply List.ne_nil_of_length_pos
    omega
  · simp only [List.length_append, List.length_replicate]
    omega

theorem pos_of_spanLength? {length : Nat} (found : spanLength? text = some length) :
    0 < length := by
  obtain ⟨span, -, -, isSpan, rfl⟩ := exists_span_of_spanLength? found
  obtain ⟨behind, rfl, -⟩ := isSpan.exists_eq_cons
  exact Nat.succ_pos _

theorem blank_of_spanLength? {length : Nat} (found : spanLength? text = some length) :
    blank text = List.replicate length ' ' ++ blank (text.drop length) := by
  obtain ⟨length, rfl⟩ := Nat.exists_eq_add_of_lt (pos_of_spanLength? found)
  have within := spanLength?_le found
  rw [Nat.zero_add] at *
  cases text with
  | nil => cases within
  | cons c rest =>
    have covered := blankFrom_eq length rest (Nat.le_of_succ_le_succ within)
    rw [blank, blankFrom, found, List.replicate_succ, List.cons_append, List.drop_succ_cons]
    exact congrArg (' ' :: ·) covered

theorem blank_cons_of_eq_none {c : Char} (none : spanLength? (c :: rest) = none) :
    blank (c :: rest) = c :: blank rest := by
  rw [blank, blankFrom, none]
  rfl

/-- Blanking a line takes spans out of it and keeps the rest. -/
theorem blanks_blank (line : List Char) : Blanks line (blank line) := by
  induction length : line.length using Nat.strong_induction_on generalizing line with
  | _ count induction =>
    subst length
    cases line with
    | nil => exact .nil
    | cons c rest =>
      cases found : spanLength? (c :: rest) with
      | none =>
        rw [blank_cons_of_eq_none found]
        exact .kept c (induction rest.length (Nat.lt_succ_self _) rest rfl)
      | some length =>
        have positive := pos_of_spanLength? found
        rw [blank_of_spanLength? found]
        obtain ⟨span, behind, split, isSpan, rfl⟩ := exists_span_of_spanLength? found
        rw [split, List.drop_left]
        rw [split, List.length_append] at induction
        exact .span isSpan (induction behind.length (by omega) behind rfl)

namespace Blanks

theorem length (blanks : Blanks line left) : left.length = line.length := by
  induction blanks with
  | nil => rfl
  | kept c _ induction => rw [List.length_cons, List.length_cons, induction]
  | span _ _ induction => simp [induction]

theorem getElem? (blanks : Blanks text left) (place : Nat) :
    left[place]? = some ' ' ∨ left[place]? = text[place]? := by
  induction blanks generalizing place with
  | nil => exact .inr rfl
  | kept c _ induction =>
    cases place with
    | zero => exact .inr rfl
    | succ place => exact induction place
  | @span span rest left _ _ induction =>
    by_cases inside : place < span.length
    · left
      rw [List.getElem?_append_left (by simpa using inside), List.getElem?_replicate_of_lt inside]
    · have beyond := Nat.not_lt.mp inside
      rw [List.getElem?_append_right (by simpa using beyond), List.getElem?_append_right beyond,
        List.length_replicate]
      exact induction _

/-- A text without backticks at the beginning stays. -/
theorem front (blanks : Blanks line left) {front : List Char} (unmarked : backtick ∉ front)
    (begins : front <+: line) : front <+: left := by
  induction blanks generalizing front with
  | nil => exact begins
  | kept c _ induction =>
    cases front with
    | nil => exact List.nil_prefix
    | cons first front =>
      rw [List.cons_prefix_cons] at begins ⊢
      exact ⟨begins.1, induction (fun member => unmarked (List.mem_cons_of_mem _ member)) begins.2⟩
  | span isSpan _ _ =>
    cases front with
    | nil => exact List.nil_prefix
    | cons first front =>
      obtain ⟨behind, rfl, -⟩ := isSpan.exists_eq_cons
      rw [List.cons_append, List.cons_prefix_cons] at begins
      exact absurd (begins.1 ▸ List.mem_cons_self) unmarked

/-- A text without backticks at the end stays. -/
theorem back (blanks : Blanks line left) {back : List Char} (unmarked : backtick ∉ back)
    (ends : back <:+ line) : back <:+ left := by
  induction blanks with
  | nil => exact ends
  | @kept c rest left further induction =>
    rcases List.suffix_cons_iff.mp ends with rfl | later
    · have whole := further.front (fun member => unmarked (List.mem_cons_of_mem _ member))
        (List.prefix_refl rest)
      obtain rfl := whole.eq_of_length further.length.symm
      exact List.suffix_rfl
    · exact (induction later).trans (List.suffix_cons c left)
  | @span span rest left isSpan _ induction =>
    by_cases inside : back.length ≤ rest.length
    · have later := List.suffix_of_suffix_length_le ends (List.suffix_append span rest) inside
      exact (induction later).trans (List.suffix_append _ left)
    · obtain ⟨front, rfl⟩ := isSpan.exists_eq_concat
      have marked : backtick :: rest <:+ (front ++ [backtick]) ++ rest :=
        ⟨front, by rw [List.append_assoc]; rfl⟩
      have reached := List.suffix_of_suffix_length_le marked ends (Nat.not_le.mp inside)
      exact absurd (reached.subset List.mem_cons_self) unmarked

end Blanks

/-! ## No span is left -/

theorem isSome_contentLength? {passed : Nat} (positive : 0 < passed) (inLine : '\n' ∉ text)
    (marked : backtick ∈ text) : (contentLength? [backtick] passed text).isSome := by
  induction text generalizing passed with
  | nil => cases marked
  | cons c rest induction =>
    rw [List.mem_cons, not_or] at inLine
    rw [contentLength?]
    split
    · rfl
    · next other =>
      have apart : backtick ≠ c := by
        rintro rfl
        exact other ⟨positive, by simp⟩
      rw [if_neg (Ne.symm inLine.1)]
      exact induction (Nat.succ_pos passed) inLine.2 (List.mem_of_ne_of_mem apart marked)

/-- Where a backtick begins no span, none stands behind the character next to it. -/
theorem not_mem_tail_of_spanLength? (inLine : '\n' ∉ rest)
    (none : spanLength? (backtick :: rest) = none) : backtick ∉ rest.tail := by
  intro marked
  cases rest with
  | nil => cases marked
  | cons d rest =>
    rw [List.mem_cons, not_or] at inLine
    have run : 0 < ((backtick :: d :: rest).takeWhile (· == backtick)).length := by simp
    have content : contentLength? [backtick] 0 (d :: rest) = contentLength? [backtick] 1 rest := by
      rw [contentLength?, if_neg (fun facts => Nat.lt_irrefl 0 facts.1), if_neg (Ne.symm inLine.1)]
    have closed : (lengthWithMark? (backtick :: d :: rest) 1).isSome := by
      rw [lengthWithMark?, Option.isSome_map]
      change (contentLength? [backtick] 0 (d :: rest)).isSome
      rw [content]
      exact isSome_contentLength? Nat.one_pos inLine.2 marked
    rw [spanLength?, List.findSome?_eq_none_iff] at none
    have shortest := none _ (List.mem_range.mpr (Nat.sub_one_lt run.ne'))
    rw [Nat.sub_sub_self (Nat.succ_le_of_lt run)] at shortest
    rw [shortest] at closed
    cases closed

/-- Any two backticks of a text stand side by side. -/
def AreAdjacent (left : List Char) : Prop :=
  ∀ place place', left[place]? = some backtick → left[place']? = some backtick →
    place < place' → place' = place + 1

theorem AreAdjacent.cons {c : Char} (adjacent : AreAdjacent left)
    (last : c = backtick → backtick ∉ left.tail) : AreAdjacent (c :: left) := by
  intro place place' marked marked' before
  obtain ⟨place', rfl⟩ := Nat.exists_eq_add_of_lt (Nat.zero_lt_of_lt before)
  rw [Nat.zero_add] at *
  rw [List.getElem?_cons_succ] at marked'
  cases place with
  | zero =>
    cases place' with
    | zero => rfl
    | succ place' =>
      rw [← List.getElem?_tail] at marked'
      exact absurd (List.mem_of_getElem? marked') (last (Option.some.inj marked))
  | succ place => rw [adjacent place place' marked marked' (Nat.lt_of_succ_lt_succ before)]

theorem AreAdjacent.count_le (adjacent : AreAdjacent left) : left.count backtick ≤ 2 := by
  by_contra more
  have three := List.replicate_sublist_iff.mpr (Nat.lt_of_not_le more)
  obtain ⟨spread, same⟩ := List.sublist_iff_exists_orderEmbedding_getElem?_eq.mp three
  have increasing : spread 0 < spread 1 ∧ spread 1 < spread 2 := by
    rw [spread.lt_iff_lt, spread.lt_iff_lt]
    exact ⟨Nat.zero_lt_one, Nat.one_lt_two⟩
  have second := adjacent _ _ (same 0).symm (same 1).symm increasing.1
  have third := adjacent _ _ (same 0).symm (same 2).symm (increasing.1.trans increasing.2)
  omega

theorem not_mem_tail_blank (unmarked : backtick ∉ rest.tail) : backtick ∉ (blank rest).tail := by
  intro member
  obtain ⟨place, marked⟩ := List.mem_iff_getElem?.mp member
  rw [List.getElem?_tail] at marked
  rcases (blanks_blank rest).getElem? (place + 1) with isBlank | same
  · rw [marked] at isBlank
    cases isBlank
  · rw [marked, ← List.getElem?_tail] at same
    exact unmarked (List.mem_of_getElem? same.symm)

theorem areAdjacent_blankFrom (covered : Nat) (inLine : '\n' ∉ line) :
    AreAdjacent (blankFrom covered line) := by
  induction line generalizing covered with
  | nil =>
    intro place place' marked
    cases marked
  | cons c rest induction =>
    have inRest : '\n' ∉ rest := fun member => inLine (List.mem_cons_of_mem c member)
    have notMark : ' ' ≠ backtick := by decide
    cases covered with
    | succ covered => exact (induction covered inRest).cons fun same => absurd same notMark
    | zero =>
      rw [blankFrom]
      cases found : spanLength? (c :: rest) with
      | some length => exact (induction (length - 1) inRest).cons fun same => absurd same notMark
      | none =>
        refine (induction 0 inRest).cons fun same => ?_
        rw [same] at found
        exact not_mem_tail_blank (not_mem_tail_of_spanLength? inRest found)

/-- Where all backticks stand side by side, there is no room for a span. -/
theorem AreAdjacent.not_isSpan (adjacent : AreAdjacent left) {span : List Char}
    (inside : span <:+: left) : ¬ IsSpan span := by
  intro isSpan
  obtain ⟨behind, rfl, marked⟩ := isSpan.exists_eq_cons
  obtain ⟨front, back, rfl⟩ := inside
  obtain ⟨place, atPlace⟩ := List.mem_iff_getElem?.mp marked
  rw [List.getElem?_tail] at atPlace
  have within : place + 1 < behind.length := (List.getElem?_eq_some_iff.mp atPlace).1
  have first : (front ++ backtick :: behind ++ back)[front.length]? = some backtick := by
    rw [List.append_assoc, List.getElem?_append_right (Nat.le_refl _), Nat.sub_self]
    rfl
  have second : (front ++ backtick :: behind ++ back)[front.length + (place + 2)]? =
      some backtick := by
    rw [List.append_assoc, List.getElem?_append_right (Nat.le_add_right _ _),
      Nat.add_sub_cancel_left, List.cons_append, List.getElem?_cons_succ,
      List.getElem?_append_left within, atPlace]
  have next := adjacent _ _ first second (by omega)
  omega

theorem AreAdjacent.spanLength?_eq_none (adjacent : AreAdjacent left) (ends : rest <:+ left) :
    spanLength? rest = none := by
  rw [Option.eq_none_iff_forall_ne_some]
  intro length found
  obtain ⟨span, behind, rfl, isSpan, -⟩ := exists_span_of_spanLength? found
  exact adjacent.not_isSpan ((List.infix_append [] span behind).trans ends.isInfix) isSpan

theorem blank_of_forall (none : ∀ rest, rest <:+ left → spanLength? rest = none) :
    blank left = left := by
  induction left with
  | nil => rfl
  | cons c rest induction =>
    rw [blank_cons_of_eq_none (none _ List.suffix_rfl),
      induction fun behind ends => none behind (ends.trans (List.suffix_cons c rest))]

end DocAudit.InlineCode
