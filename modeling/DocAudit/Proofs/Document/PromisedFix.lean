import DocAudit.Proofs.Document.FixedText
import DocAudit.Proofs.Document.NumberedLines

/-!
What fixing promises about each line of a text. The promise names no step of the fixing: it says
what is kept of a line, what may end it, and which lines may go.
-/

namespace DocAudit.Fix

open Text

/-- The fixed line in each place, by the line there and the one after it. -/
theorem getElem?_fixLines {number : Nat} {inBlock : Bool} {items : List (List Char)}
    {index : Nat} {line : Line}
    (present : (numberLines number inBlock items)[index]? = some line) :
    ∃ inBlock', line.kind = lineKind inBlock' line.text ∧
      (fixLines inBlock items)[index]? =
        some (fixLine inBlock' line.text (items[index + 1]?.getD [])) := by
  induction items generalizing number inBlock index with
  | nil => cases present
  | cons text rest induction =>
    cases index with
    | zero =>
      have first := Option.some.inj present
      refine ⟨inBlock, ?_, ?_⟩
      · rw [← first]
      · rw [← first, fixLines, List.head?_eq_getElem?]
        rfl
    | succ index =>
      rw [numberLines, List.getElem?_cons_succ] at present
      rcases induction present with ⟨inBlock', kind, fixed⟩
      exact ⟨inBlock', kind, by rw [fixLines, List.getElem?_cons_succ, fixed]; rfl⟩

/-! ## The promise -/

/-- Where a line ends in a break that is kept: behind text that is no heading and no fence, in two
or more spaces and nothing else, and before a line of text. -/
structure BreaksBefore (next line : List Char) : Prop where
  text : hasText line = true
  noSign : (stripLeft line).head? ≠ some '#'
  noFence : isFenceLine line = false
  spaces : ∃ more, line.rtakeWhile isBlank = List.replicate (more + 2) ' '
  followed : hasText next = true

/-- What may become of a line. Code is kept as it is, a bare fence that opens a block is labelled,
and of any other line all that is not blank is kept, and the indent if there is text behind it. -/
inductive PromisedFix (line : Line) (next fixed : List Char) : Prop where
  | code (kind : line.kind = .inside) (same : fixed = line.text)
  | bareFence (kind : line.kind = .opening) (bare : strip line.text = fenceMark)
      (label : fixed = line.text.takeWhile isBlank ++ fenceMark ++ defaultLanguage)
  | other (noCode : line.kind ≠ .inside)
      (noBareFence : ¬ (line.kind = .opening ∧ strip line.text = fenceMark))
      (visible : fixed.filter (!isBlank ·) = line.text.filter (!isBlank ·))
      (indent : hasText line.text = true →
        fixed.takeWhile isBlank = line.text.takeWhile isBlank)
      (broken : BreaksBefore next line.text → fixed.rtakeWhile isBlank = [' ', ' '])
      (unbroken : ¬ BreaksBefore next line.text → fixed.rtakeWhile isBlank = [])

theorem breaksBefore_iff {next line : List Char} :
    BreaksBefore next line ↔ (endsInHardBreak line && hasText next) = true := by
  have spaces : (hardBreak <+: line.rtakeWhile isBlank ∧ ∀ c ∈ line.rtakeWhile isBlank, c = ' ') ↔
      ∃ more, line.rtakeWhile isBlank = List.replicate (more + 2) ' ' := by
    constructor
    · rintro ⟨⟨rest, split⟩, allSpaces⟩
      refine ⟨rest.length, ?_⟩
      rw [List.eq_replicate_of_mem allSpaces, ← split, List.length_append]
      exact congrArg (List.replicate · ' ') (Nat.add_comm 2 rest.length)
    · rintro ⟨more, split⟩
      rw [split]
      refine ⟨⟨List.replicate more ' ', ?_⟩, fun c member => List.eq_of_mem_replicate member⟩
      rw [Nat.add_comm more 2, ← List.replicate_append_replicate]
      rfl
  rw [Bool.and_eq_true, endsInHardBreak_iff, spaces]
  constructor
  · rintro ⟨text, noSign, noFence, spaces, followed⟩
    exact ⟨⟨text, noSign, noFence, spaces⟩, followed⟩
  · rintro ⟨⟨text, noSign, noFence, spaces⟩, followed⟩
    exact ⟨text, noSign, noFence, spaces, followed⟩

theorem filter_visible_append_of_allBlank (text : List Char) {tail : List Char}
    (blank : AllBlank tail) :
    (text ++ tail).filter (!isBlank ·) = text.filter (!isBlank ·) := by
  have gone : tail.filter (!isBlank ·) = [] := by
    rw [List.filter_eq_nil_iff]
    intro c member
    rw [blank c member]
    exact Bool.false_ne_true
  rw [List.filter_append, gone, List.append_nil]

theorem filter_visible_stripRight (text : List Char) :
    (stripRight text).filter (!isBlank ·) = text.filter (!isBlank ·) := by
  rcases exists_eq_stripRight_append text with ⟨tail, blank, split⟩
  conv_rhs => rw [split, filter_visible_append_of_allBlank _ blank]

/-- Trimming keeps the promise for every line that is no code and no bare fence. -/
theorem promisedFix_trimLine {line : Line} (noCode : line.kind ≠ .inside)
    (noBareFence : ¬ (line.kind = .opening ∧ strip line.text = fenceMark)) (next : List Char) :
    PromisedFix line next (trimLine line.text next) := by
  rcases exists_trimLine_eq line.text next with ⟨tail, blank, trimmed⟩
  apply PromisedFix.other noCode noBareFence
  · rw [trimmed, filter_visible_append_of_allBlank _ blank, filter_visible_stripRight]
  · intro visible
    have kept : hasText (stripRight line.text) = true := by rw [hasText_stripRight, visible]
    rcases exists_eq_stripRight_append line.text with ⟨rest, -, split⟩
    rw [trimmed, takeWhile_append_of_hasText kept]
    conv_rhs => rw [split, takeWhile_append_of_hasText kept]
  · intro broken
    rw [trimLine_eq, breaksBefore_iff.mp broken, if_pos rfl,
      rtakeWhile_append_of_allBlank (stripRight_stripRight _) allBlank_hardBreak]
    rfl
  · intro unbroken
    rw [breaksBefore_iff, Bool.not_eq_true] at unbroken
    rw [trimLine_eq, unbroken, if_neg Bool.false_ne_true,
      rtakeWhile_append_of_allBlank (stripRight_stripRight _) allBlank_nil]

/-- A blank that is put in behind number signs is the only change besides the trimming. -/
theorem promisedFix_spaced {line : Line} (prose : line.kind = .prose) {count : Nat}
    {rest : List Char} (split : line.text = signs count ++ rest)
    (missing : LacksBlank count rest) (next : List Char) :
    PromisedFix line next (signs count ++ ' ' :: stripRight rest) := by
  have head := head_stripLeft_signs_append missing.1
  have noIndent : ∀ behind, (signs count ++ behind).takeWhile isBlank = [] := by
    intro behind
    rcases Nat.exists_eq_add_of_lt missing.1 with ⟨fewer, rfl⟩
    rw [Nat.zero_add, signs, List.replicate_succ, List.cons_append, List.takeWhile_cons,
      if_neg (by decide)]
  have visible : hasText (stripRight rest) = true := by
    rw [hasText_stripRight, hasText_of_head_any missing.2.2]
  apply PromisedFix.other
  · rw [prose]
    exact LineKind.noConfusion
  · rw [prose]
    exact fun both => LineKind.noConfusion both.1
  · have space : (' ' :: stripRight rest).filter (!isBlank ·) =
        (stripRight rest).filter (!isBlank ·) := rfl
    rw [split, List.filter_append, space, filter_visible_stripRight, List.filter_append]
  · intro _
    rw [split, noIndent, noIndent]
  · intro broken
    have noSign := broken.noSign
    rw [split, head rest] at noSign
    exact absurd rfl noSign
  · intro _
    have stripped : stripRight (signs count ++ ' ' :: stripRight rest) =
        signs count ++ ' ' :: stripRight rest := by
      rw [stripRight_signs_append, show ' ' :: stripRight rest = [' '] ++ stripRight rest from rfl,
        stripRight_append_of_hasText _ visible, stripRight_stripRight]
    rw [← List.append_nil (signs count ++ ' ' :: stripRight rest),
      rtakeWhile_append_of_allBlank stripped allBlank_nil]

theorem promisedFix_fixLine {line : Line} {inBlock : Bool}
    (kind : line.kind = lineKind inBlock line.text) (next : List Char) :
    PromisedFix line next (fixLine inBlock line.text next) := by
  cases known : line.kind with
  | inside =>
    exact .code known (fixLine_inside (kind.symm.trans known) next)
  | closing =>
    rw [fixLine_closing (kind.symm.trans known)]
    apply promisedFix_trimLine <;> simp [known]
  | opening =>
    by_cases bare : strip line.text = fenceMark
    · rw [fixLine_opening_eq (kind.symm.trans known), if_pos bare]
      exact .bareFence known bare rfl
    · rw [fixLine_opening (kind.symm.trans known), labelFence_eq, ← strip_stripRight,
        stripRight_trimLine, strip_stripRight, if_neg bare]
      apply promisedFix_trimLine <;> simp [known, bare]
  | prose =>
    rcases exists_eq_signs_append line.text with ⟨count, rest, behind, split⟩
    have trimmed : PromisedFix line next (trimLine line.text next) :=
      promisedFix_trimLine (by simp [known]) (by simp [known]) next
    rw [fixLine_prose (kind.symm.trans known)]
    rcases Nat.eq_zero_or_pos count with rfl | positive
    · have noSigns : line.text.head? ≠ some '#' := by rw [split]; exact behind
      rw [spaceHeading_trimLine_of_head noSigns]
      exact trimmed
    · rw [split, spaceHeading_trimLine_signs positive behind]
      by_cases missing : LacksBlank count rest
      · rw [if_pos missing]
        exact promisedFix_spaced known split missing next
      · rw [if_neg missing, ← trimLine_signs_append positive rest next, ← split]
        exact trimmed

/-- A line whose fix is empty is empty itself, or it stands outside of code and has no text. -/
theorem eq_nil_or_allBlank_of_fixLine {line : Line} {inBlock : Bool}
    (kind : line.kind = lineKind inBlock line.text) {next : List Char}
    (gone : fixLine inBlock line.text next = []) :
    line.text = [] ∨ (line.kind = .prose ∧ AllBlank line.text) := by
  have blank : hasText line.text = false := by
    rw [← hasText_fixLine inBlock line.text next, gone, hasText_nil]
  have noFence : isFenceLine line.text = false := by
    by_contra fence
    rw [Bool.not_eq_false] at fence
    rw [hasText_of_isFenceLine fence] at blank
    exact Bool.false_ne_true blank.symm
  rw [lineKind, noFence, if_neg Bool.false_ne_true] at kind
  cases inBlock with
  | false => exact .inr ⟨kind, hasText_eq_false_iff.mp blank⟩
  | true =>
    rw [fixLine_inside (by rw [lineKind, noFence]; rfl)] at gone
    exact .inl gone

/-- A fixed text has a final line feed behind the first lines of the text, each changed as has been
promised. The lines that go are empty, or have no text and stand outside of code. -/
theorem fixText_keeps_promise (file : String) (text : List Char) :
    ∃ fixed : List (List Char),
      fixText text = unlines fixed ++ ['\n'] ∧ (unlines fixed).getLast? ≠ some '\n' ∧
        AreLines fixed ∧ fixed.length ≤ (lines text).length ∧
        (Document.ofText file text).lines.map Line.text = lines text ∧
        ∀ (index : Nat) (line : Line), (Document.ofText file text).lines[index]? = some line →
          match fixed[index]? with
          | some result => PromisedFix line ((lines text)[index + 1]?.getD []) result
          | none => line.text = [] ∨ (line.kind = .prose ∧ AllBlank line.text) := by
  rcases exists_fixedLines_append text with ⟨count, whole⟩
  refine ⟨fixedLines text, fixText_eq text, getLast_unlines_fixedLines text,
    areLines_fixedLines text, ?_, map_text_ofText file text, ?_⟩
  · have lengths := congrArg List.length whole
    rw [length_fixLines, List.length_append] at lengths
    omega
  · intro index line present
    rcases getElem?_fixLines present with ⟨inBlock, kind, fixed⟩
    rw [whole] at fixed
    cases stays : (fixedLines text)[index]? with
    | some result =>
      rcases List.getElem?_eq_some_iff.mp stays with ⟨bound, -⟩
      rw [List.getElem?_append_left bound, stays, Option.some.injEq] at fixed
      rw [fixed]
      exact promisedFix_fixLine kind _
    | none =>
      rw [List.getElem?_append_right (List.getElem?_eq_none_iff.mp stays)] at fixed
      have gone := List.eq_of_mem_replicate (List.mem_of_getElem? fixed)
      exact eq_nil_or_allBlank_of_fixLine kind gone

end DocAudit.Fix
