import DocAudit.Document.Scan
import DocAudit.Proofs.Document.FenceLine

/-!
Trimming a line and spacing its number signs. Trimming touches the blanks at the end alone, and
trimming again changes nothing. A line is a row of number signs and the rest, and both its level
as a heading and the blank that it may lack are read off the two.
-/

namespace DocAudit.Fix

open Text

/-! ## Blanks at the end -/

theorem allBlank_hardBreak : AllBlank hardBreak := by decide

theorem endsInHardBreak_iff {line : List Char} :
    endsInHardBreak line = true ↔
      hasText line = true ∧ (stripLeft line).head? ≠ some '#' ∧ isFenceLine line = false ∧
        hardBreak <+: line.rtakeWhile isBlank ∧ ∀ c ∈ line.rtakeWhile isBlank, c = ' ' := by
  have nonempty : (stripRight line).isEmpty = !hasText line := by
    rw [Bool.eq_iff_iff, List.isEmpty_iff, stripRight_eq_nil_iff, Bool.not_eq_true']
  simp only [endsInHardBreak, nonempty, drop_length_stripRight, head_stripLeft_stripRight,
    isFenceLine_stripRight, Bool.and_eq_true, Bool.not_not, bne_iff_ne, ne_eq,
    List.isPrefixOf_iff_prefix, List.all_eq_true, beq_iff_eq, Bool.not_eq_true', and_assoc]

theorem endsInHardBreak_of_isFenceLine {line : List Char} (fence : isFenceLine line = true) :
    endsInHardBreak line = false := by
  by_contra hard
  rw [Bool.not_eq_false, endsInHardBreak_iff, fence] at hard
  exact Bool.false_ne_true hard.2.2.1.symm

theorem endsInHardBreak_of_head {line : List Char} (first : (stripLeft line).head? = some '#') :
    endsInHardBreak line = false := by
  by_contra hard
  rw [Bool.not_eq_false, endsInHardBreak_iff] at hard
  exact hard.2.1 first

theorem endsInHardBreak_of_stripped {line : List Char} (stripped : stripRight line = line) :
    endsInHardBreak line = false := by
  by_contra hard
  rw [Bool.not_eq_false, endsInHardBreak_iff] at hard
  have trailing : line.rtakeWhile isBlank = [] := by
    rw [← drop_length_stripRight, stripped, List.drop_length]
  rw [trailing] at hard
  exact absurd hard.2.2.2.1.length_le (by decide)

theorem trimLine_eq (line next : List Char) :
    trimLine line next =
      stripRight line ++ if endsInHardBreak line && hasText next then hardBreak else [] := by
  unfold trimLine
  split <;> simp

theorem trimLine_of_not_hard {line : List Char} (soft : endsInHardBreak line = false)
    (next : List Char) : trimLine line next = stripRight line := by
  rw [trimLine, soft, Bool.false_and]
  rfl

/-- Only the blanks at the end of a line are trimmed. -/
theorem exists_trimLine_eq (line next : List Char) :
    ∃ tail, AllBlank tail ∧ trimLine line next = stripRight line ++ tail := by
  refine ⟨_, ?_, trimLine_eq line next⟩
  split
  · exact allBlank_hardBreak
  · exact allBlank_nil

@[simp] theorem stripRight_trimLine (line next : List Char) :
    stripRight (trimLine line next) = stripRight line := by
  rcases exists_trimLine_eq line next with ⟨tail, blank, trimmed⟩
  rw [trimmed, stripRight_append_of_allBlank _ blank, stripRight_stripRight]

@[simp] theorem isFenceLine_trimLine (line next : List Char) :
    isFenceLine (trimLine line next) = isFenceLine line := by
  rw [← isFenceLine_stripRight, stripRight_trimLine, isFenceLine_stripRight]

@[simp] theorem hasText_trimLine (line next : List Char) :
    hasText (trimLine line next) = hasText line := by
  rw [← hasText_stripRight, stripRight_trimLine, hasText_stripRight]

theorem endsInHardBreak_append_hardBreak {line : List Char} (hard : endsInHardBreak line = true) :
    endsInHardBreak (stripRight line ++ hardBreak) = true := by
  rcases endsInHardBreak_iff.mp hard with ⟨visible, first, prose, -, -⟩
  have kept : hasText (stripRight line) = true := by rw [hasText_stripRight, visible]
  have trailing := rtakeWhile_append_of_allBlank (stripRight_stripRight line) allBlank_hardBreak
  rw [endsInHardBreak_iff, trailing]
  refine ⟨?_, ?_, ?_, List.prefix_refl _, ?_⟩
  · rw [hasText_append, kept, Bool.true_or]
  · rw [← head_stripLeft_stripRight, stripRight_append_of_allBlank _ allBlank_hardBreak,
      stripRight_stripRight, head_stripLeft_stripRight]
    exact first
  · rw [isFenceLine_append_of_allBlank _ allBlank_hardBreak, isFenceLine_stripRight, prose]
  · intro c member
    simpa [hardBreak] using member

/-- What a line is trimmed to depends on whether there is text on the next one, and on nothing else
about it. -/
theorem trimLine_trimLine (line : List Char) {next next' : List Char}
    (sameNext : hasText next' = hasText next) :
    trimLine (trimLine line next) next' = trimLine line next := by
  cases broken : endsInHardBreak line && hasText next with
  | true =>
    rcases Bool.and_eq_true_iff.mp broken with ⟨hard, text⟩
    have trimmed : trimLine line next = stripRight line ++ hardBreak := by
      rw [trimLine_eq, broken, if_pos rfl]
    have again : (endsInHardBreak (stripRight line ++ hardBreak) && hasText next') = true := by
      rw [endsInHardBreak_append_hardBreak hard, sameNext, text]
      rfl
    rw [trimmed, trimLine_eq, again, stripRight_append_of_allBlank _ allBlank_hardBreak,
      stripRight_stripRight, if_pos rfl]
  | false =>
    have trimmed : trimLine line next = stripRight line := by
      rw [trimLine_eq, broken, if_neg Bool.false_ne_true, List.append_nil]
    rw [trimmed, trimLine_of_not_hard (endsInHardBreak_of_stripped (stripRight_stripRight line)),
      stripRight_stripRight]

/-! ## Number signs -/

def signs (count : Nat) : List Char :=
  List.replicate count '#'

/-- Every line is a row of number signs and what stands behind them. -/
theorem exists_eq_signs_append (line : List Char) :
    ∃ count rest, rest.head? ≠ some '#' ∧ line = signs count ++ rest := by
  have allSigns : ∀ c ∈ line.takeWhile (· == '#'), c = '#' := by
    intro c member
    simpa using List.mem_takeWhile_imp member
  refine ⟨(line.takeWhile (· == '#')).length, line.dropWhile (· == '#'), ?_, ?_⟩
  · intro first
    have notSign := List.head?_dropWhile_not (· == '#') line
    rw [first] at notSign
    exact Bool.noConfusion notSign
  · rw [signs, ← List.eq_replicate_of_mem allSigns, List.takeWhile_append_dropWhile]

theorem takeWhile_signs_append {rest : List Char} (behind : rest.head? ≠ some '#')
    (count : Nat) : (signs count ++ rest).takeWhile (· == '#') = signs count := by
  have noMore : rest.takeWhile (· == '#') = [] := by
    cases rest with
    | nil => rfl
    | cons c rest =>
      have different : c ≠ '#' := fun same => behind (congrArg some same)
      rw [List.takeWhile_cons, if_neg (by simpa using different)]
  rw [List.takeWhile_append_of_pos, noMore, List.append_nil]
  intro c member
  rw [List.eq_of_mem_replicate member]
  rfl

@[simp] theorem length_signs (count : Nat) : (signs count).length = count :=
  List.length_replicate

theorem stripRight_signs (count : Nat) : stripRight (signs count) = signs count := by
  rw [stripRight_eq_self_iff]
  intro c last
  rw [List.eq_of_mem_replicate (List.mem_of_getLast? last)]
  decide

theorem stripRight_signs_append (count : Nat) (rest : List Char) :
    stripRight (signs count ++ rest) = signs count ++ stripRight rest :=
  stripRight_append_of_stripped (stripRight_signs count) rest

theorem head_stripLeft_signs_append {count : Nat} (positive : 0 < count) (rest : List Char) :
    (stripLeft (signs count ++ rest)).head? = some '#' := by
  rcases Nat.exists_eq_add_of_lt positive with ⟨fewer, rfl⟩
  rw [Nat.zero_add, signs, List.replicate_succ, List.cons_append, stripLeft,
    List.dropWhile_cons, if_neg (by decide)]
  rfl

theorem spaceHeading_signs_append {rest : List Char} (behind : rest.head? ≠ some '#')
    (count : Nat) :
    spaceHeading (signs count ++ rest) =
      if 1 ≤ count ∧ count ≤ 6 ∧ rest.head?.any (!isBlank ·) then signs count ++ ' ' :: rest
      else signs count ++ rest := by
  simp only [spaceHeading, takeWhile_signs_append behind, length_signs,
    List.drop_left' (length_signs count)]

theorem headingLevel?_signs_append {rest : List Char} (behind : rest.head? ≠ some '#')
    (count : Nat) :
    headingLevel? (signs count ++ rest) =
      if 1 ≤ count ∧ count ≤ 6 ∧ rest.head?.any isBlank then some count else none := by
  simp only [headingLevel?, takeWhile_signs_append behind, length_signs,
    List.drop_left' (length_signs count)]

/-! ## Lines of prose -/

/-- The text behind number signs follows them at once, so that a blank is missing. -/
def LacksBlank (count : Nat) (rest : List Char) : Prop :=
  1 ≤ count ∧ count ≤ 6 ∧ rest.head?.any (!isBlank ·) = true

instance (count : Nat) (rest : List Char) : Decidable (LacksBlank count rest) :=
  inferInstanceAs (Decidable (_ ∧ _ ∧ _))

theorem head_trimLine_ne {line : List Char} (first : line.head? ≠ some '#')
    (next : List Char) : (trimLine line next).head? ≠ some '#' := by
  cases broken : endsInHardBreak line && hasText next with
  | false =>
    rw [trimLine_eq, broken, if_neg Bool.false_ne_true, List.append_nil]
    exact head_stripRight_ne first
  | true =>
    have visible := (endsInHardBreak_iff.mp (Bool.and_eq_true_iff.mp broken).1).1
    have left : stripRight line ≠ [] := by
      intro empty
      rw [stripRight_eq_nil_iff.mp empty] at visible
      exact Bool.false_ne_true visible
    rw [trimLine_eq, List.head?_append_of_ne_nil _ left]
    exact head_stripRight_ne first

/-- Without number signs a line of prose is only trimmed. -/
theorem spaceHeading_trimLine_of_head {line : List Char} (first : line.head? ≠ some '#')
    (next : List Char) : spaceHeading (trimLine line next) = trimLine line next := by
  have unspaced := spaceHeading_signs_append (head_trimLine_ne first next) 0
  rw [if_neg (by omega)] at unspaced
  exact unspaced

theorem trimLine_signs_append {count : Nat} (positive : 0 < count) (rest next : List Char) :
    trimLine (signs count ++ rest) next = signs count ++ stripRight rest := by
  rw [trimLine_of_not_hard (endsInHardBreak_of_head (head_stripLeft_signs_append positive rest)),
    stripRight_signs_append]

/-- Behind number signs all blanks at the end go, and a blank that is missing is put in. -/
theorem spaceHeading_trimLine_signs {count : Nat} (positive : 0 < count) {rest : List Char}
    (behind : rest.head? ≠ some '#') (next : List Char) :
    spaceHeading (trimLine (signs count ++ rest) next) =
      if LacksBlank count rest then signs count ++ ' ' :: stripRight rest
      else signs count ++ stripRight rest := by
  rw [trimLine_signs_append positive, spaceHeading_signs_append (head_stripRight_ne behind),
    head_any_visible_stripRight]
  rfl

theorem hasText_of_head_any {text : List Char} (first : text.head?.any (!isBlank ·) = true) :
    hasText text = true := by
  cases text with
  | nil => cases first
  | cons c rest =>
    have visible : isBlank c = false := by simpa using first
    exact hasText_of_mem List.mem_cons_self visible

theorem spaceHeading_trimLine_again {count : Nat} (positive : 0 < count) {rest : List Char}
    (behind : rest.head? ≠ some '#') (stripped : stripRight rest = rest)
    (spaced : ¬ LacksBlank count rest) (next : List Char) :
    spaceHeading (trimLine (signs count ++ rest) next) = signs count ++ rest := by
  rw [spaceHeading_trimLine_signs positive behind, if_neg spaced, stripped]

end DocAudit.Fix
