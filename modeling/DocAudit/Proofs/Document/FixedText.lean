import DocAudit.Proofs.Document.FixedLine
import DocAudit.Proofs.Text.Lines

/-!
What fixing does to a text. The lines of a fixed text are the fixed lines of the text without the
empty ones at the end, and one empty line behind them. Since a fixed line stays as it is when it
is fixed again, so does a fixed text.
-/

namespace DocAudit.Fix

open Text

/-! ## The end of a text -/

/-- The lines that stay when the empty ones at the end go. One line always stays. -/
def keptLines (items : List (List Char)) : List (List Char) :=
  match items.rdropWhile List.isEmpty with
  | [] => [[]]
  | kept => kept

theorem keptLines_of_eq_nil {items : List (List Char)}
    (gone : items.rdropWhile List.isEmpty = []) : keptLines items = [[]] := by
  rw [keptLines, gone]

theorem keptLines_of_ne_nil {items : List (List Char)}
    (left : items.rdropWhile List.isEmpty ≠ []) :
    keptLines items = items.rdropWhile List.isEmpty := by
  unfold keptLines
  split
  · contradiction
  · rfl

theorem keptLines_ne_nil (items : List (List Char)) : keptLines items ≠ [] := by
  by_cases left : items.rdropWhile List.isEmpty = []
  · rw [keptLines_of_eq_nil left]
    exact List.cons_ne_nil [] []
  · rw [keptLines_of_ne_nil left]
    exact left

/-- What goes at the end are empty lines. -/
theorem exists_keptLines_append {items : List (List Char)} (nonempty : items ≠ []) :
    ∃ count, items = keptLines items ++ List.replicate count [] := by
  have gone : ∀ line ∈ items.rtakeWhile List.isEmpty, line = [] := by
    intro line member
    exact List.isEmpty_iff.mp (List.mem_rtakeWhile_imp member)
  have split : items.rdropWhile List.isEmpty ++
      List.replicate (items.rtakeWhile List.isEmpty).length [] = items := by
    rw [← List.eq_replicate_of_mem gone]
    exact List.rdropWhile_append_rtakeWhile
  by_cases left : items.rdropWhile List.isEmpty = []
  · obtain ⟨fewer, length⟩ : ∃ fewer, (items.rtakeWhile List.isEmpty).length = fewer + 1 := by
      apply Nat.exists_eq_succ_of_ne_zero
      intro none
      rw [left, none] at split
      exact nonempty split.symm
    refine ⟨fewer, ?_⟩
    rw [keptLines_of_eq_nil left]
    rw [left, length] at split
    exact split.symm
  · refine ⟨(items.rtakeWhile List.isEmpty).length, ?_⟩
    rw [keptLines_of_ne_nil left]
    exact split.symm

/-- The last line that stays has something in it, unless it is the only one. -/
theorem getLast_keptLines {items : List (List Char)} {line : List Char}
    (last : (keptLines items).getLast? = some line) : line ≠ [] ∨ keptLines items = [[]] := by
  by_cases left : items.rdropWhile List.isEmpty = []
  · exact .inr (keptLines_of_eq_nil left)
  · have solid := List.rdropWhile_last_not List.isEmpty items left
    rw [keptLines_of_ne_nil left, List.getLast?_eq_some_getLast left, Option.some.injEq] at last
    rw [last] at solid
    left
    rintro rfl
    exact solid rfl

theorem mem_keptLines {items : List (List Char)} {line : List Char}
    (member : line ∈ keptLines items) : line ∈ items ∨ line = [] := by
  unfold keptLines at member
  split at member
  · exact .inr (List.mem_singleton.mp member)
  · exact .inl ((List.rdropWhile_prefix List.isEmpty items).subset member)

theorem areLines_keptLines {items : List (List Char)} (inLine : ∀ line ∈ items, '\n' ∉ line) :
    AreLines (keptLines items) where
  nonempty := keptLines_ne_nil items
  inLine line member := by
    rcases mem_keptLines member with kept | rfl
    · exact inLine line kept
    · exact List.not_mem_nil

theorem dropFinalNewlines_append_replicate (text : List Char) (count : Nat) :
    dropFinalNewlines (text ++ List.replicate count '\n') = dropFinalNewlines text := by
  have allNewlines : ∀ c ∈ List.replicate count '\n', (c == '\n') = true := by
    intro c member
    rw [List.eq_of_mem_replicate member]
    rfl
  rw [dropFinalNewlines, List.reverse_append, List.reverse_replicate,
    List.dropWhile_append_of_pos allNewlines]
  rfl

theorem dropFinalNewlines_eq_self {text : List Char} (last : text.getLast? ≠ some '\n') :
    dropFinalNewlines text = text := by
  change text.rdropWhile (· == '\n') = text
  rw [List.rdropWhile_eq_self_iff]
  intro nonempty isNewline
  apply last
  rw [List.getLast?_eq_some_getLast nonempty, beq_iff_eq.mp isNewline]

theorem getLast_unlines {items : List (List Char)} {line : List Char}
    (last : items.getLast? = some line) (visible : line ≠ []) :
    (unlines items).getLast? = line.getLast? := by
  rcases List.getLast?_eq_some_iff.mp last with ⟨before, rfl⟩
  by_cases first : before = []
  · rw [first, List.nil_append, unlines_singleton]
  · rw [unlines_append first (List.cons_ne_nil _ _), unlines_singleton,
      List.getLast?_append, List.getLast?_cons, List.getLast?_eq_some_getLast visible]
    rfl

theorem getLast_unlines_keptLines {items : List (List Char)}
    (inLine : ∀ line ∈ items, '\n' ∉ line) :
    (unlines (keptLines items)).getLast? ≠ some '\n' := by
  intro newline
  have last := List.getLast?_eq_some_getLast (keptLines_ne_nil items)
  rcases getLast_keptLines last with visible | single
  · rw [getLast_unlines last visible] at newline
    exact (areLines_keptLines inLine).inLine _ (List.getLast_mem _) (List.mem_of_getLast? newline)
  · rw [single, unlines_singleton] at newline
    cases newline

theorem dropFinalNewlines_unlines {items : List (List Char)} (areLines : AreLines items) :
    dropFinalNewlines (unlines items) = unlines (keptLines items) := by
  rcases exists_keptLines_append areLines.nonempty with ⟨count, split⟩
  conv_lhs => rw [split, unlines_append_replicate (keptLines_ne_nil items),
    dropFinalNewlines_append_replicate]
  exact dropFinalNewlines_eq_self (getLast_unlines_keptLines areLines.inLine)

/-! ## Line by line -/

@[simp] theorem length_fixLines (inBlock : Bool) (items : List (List Char)) :
    (fixLines inBlock items).length = items.length := by
  induction items generalizing inBlock with
  | nil => rfl
  | cons line rest induction => rw [fixLines, List.length_cons, induction, List.length_cons]

theorem hasText_head_fixLines (inBlock : Bool) (items : List (List Char)) :
    hasText ((fixLines inBlock items).head?.getD []) = hasText (items.head?.getD []) := by
  cases items with
  | nil => rfl
  | cons line rest => exact hasText_fixLine inBlock line _

/-- Fixing keeps all lines in their blocks, so a second round meets what the first one met. -/
theorem fixLines_fixLines (inBlock : Bool) (items : List (List Char)) :
    fixLines inBlock (fixLines inBlock items) = fixLines inBlock items := by
  induction items generalizing inBlock with
  | nil => rfl
  | cons line rest induction =>
    rw [fixLines, fixLines, inBlockAfter_fixLine, induction,
      fixLine_fixLine inBlock line (hasText_head_fixLines (inBlockAfter inBlock line) rest)]

theorem fixLine_nil (inBlock : Bool) (next : List Char) : fixLine inBlock [] next = [] := by
  cases inBlock <;> rfl

theorem fixLines_replicate (inBlock : Bool) (count : Nat) :
    fixLines inBlock (List.replicate count []) = List.replicate count [] := by
  induction count with
  | zero => rfl
  | succ count induction =>
    have stays : inBlockAfter inBlock [] = inBlock := rfl
    rw [List.replicate_succ, fixLines, fixLine_nil, stays, induction]

/-- Empty lines at the end are as good as no lines there: either way no text comes next. -/
theorem fixLines_append_replicate (inBlock : Bool) (items : List (List Char)) (count : Nat) :
    fixLines inBlock (items ++ List.replicate count []) =
      fixLines inBlock items ++ List.replicate count [] := by
  induction items generalizing inBlock with
  | nil => exact fixLines_replicate inBlock count
  | cons line rest induction =>
    have sameNext : (rest ++ List.replicate count []).head?.getD [] = rest.head?.getD [] := by
      cases rest with
      | nil => cases count <;> rfl
      | cons next rest => rfl
    rw [List.cons_append, fixLines, sameNext, induction, fixLines, List.cons_append]

theorem mem_fixLines {inBlock : Bool} {items : List (List Char)} {fixed : List Char}
    (member : fixed ∈ fixLines inBlock items) :
    ∃ inBlock', ∃ line ∈ items, ∃ next, fixed = fixLine inBlock' line next := by
  induction items generalizing inBlock with
  | nil => cases member
  | cons line rest induction =>
    rw [fixLines, List.mem_cons] at member
    rcases member with here | later
    · exact ⟨inBlock, line, List.mem_cons_self, _, here⟩
    · rcases induction later with ⟨inBlock', line', member, next, fixed⟩
      exact ⟨inBlock', line', List.mem_cons_of_mem line member, next, fixed⟩

theorem areLines_fixLines (inBlock : Bool) (text : List Char) :
    AreLines (fixLines inBlock (lines text)) where
  nonempty := by
    apply List.ne_nil_of_length_pos
    rw [length_fixLines]
    exact List.length_pos_of_ne_nil (lines_ne_nil text)
  inLine fixed member := by
    rcases mem_fixLines member with ⟨inBlock', line, lineMember, next, rfl⟩
    intro newline
    rcases mem_fixLine newline with inLine | space | inMark | inLanguage
    · exact not_mem_of_mem_lines lineMember inLine
    · exact absurd space (by decide)
    · exact absurd inMark (by decide)
    · exact absurd inLanguage (by decide)

/-! ## Whole texts -/

/-- The lines that fixing a text leaves of it. -/
def fixedLines (text : List Char) : List (List Char) :=
  keptLines (fixLines false (lines text))

theorem areLines_fixedLines (text : List Char) : AreLines (fixedLines text) :=
  areLines_keptLines (areLines_fixLines false text).inLine

theorem fixText_eq (text : List Char) : fixText text = unlines (fixedLines text) ++ ['\n'] := by
  rw [fixText, dropFinalNewlines_unlines (areLines_fixLines false text), fixedLines]

theorem getLast_unlines_fixedLines (text : List Char) :
    (unlines (fixedLines text)).getLast? ≠ some '\n' :=
  getLast_unlines_keptLines (areLines_fixLines false text).inLine

theorem exists_fixedLines_append (text : List Char) :
    ∃ count, fixLines false (lines text) = fixedLines text ++ List.replicate count [] :=
  exists_keptLines_append (areLines_fixLines false text).nonempty

theorem lines_fixText (text : List Char) : lines (fixText text) = fixedLines text ++ [[]] := by
  rw [fixText_eq, lines_append_newline, (areLines_fixedLines text).lines_unlines, lines_nil]

theorem fixLines_fixedLines (text : List Char) :
    fixLines false (fixedLines text) = fixedLines text := by
  rcases exists_fixedLines_append text with ⟨count, split⟩
  have stable := fixLines_fixLines false (lines text)
  rw [split, fixLines_append_replicate] at stable
  exact List.append_cancel_right stable

theorem fixText_unlines_fixedLines (text : List Char) :
    fixText (unlines (fixedLines text) ++ ['\n']) = unlines (fixedLines text) ++ ['\n'] := by
  have stable : fixLines false (lines (fixText text)) = lines (fixText text) := by
    rw [lines_fixText, show [[]] = List.replicate 1 ([] : List Char) from rfl,
      fixLines_append_replicate, fixLines_fixedLines]
  rw [← fixText_eq, fixText, stable, unlines_lines, fixText_eq,
    show ['\n'] = List.replicate 1 '\n' from rfl, dropFinalNewlines_append_replicate,
    dropFinalNewlines_eq_self (getLast_unlines_fixedLines text)]

/-- Fixing a text that has been fixed changes nothing. -/
theorem fixText_idempotent (text : List Char) : fixText (fixText text) = fixText text := by
  rw [fixText_eq text, fixText_unlines_fixedLines]

theorem mem_fixText {text : List Char} {c : Char} (member : c ∈ fixText text) :
    c ∈ text ∨ c = '\n' ∨ c = ' ' ∨ c ∈ fenceMark ∨ c ∈ defaultLanguage := by
  rw [fixText_eq, List.mem_append, List.mem_singleton] at member
  rcases member with inLines | newline
  · rcases mem_unlines inLines with newline | ⟨line, lineMember, inLine⟩
    · exact .inr (.inl newline)
    · rcases mem_keptLines lineMember with kept | rfl
      · rcases mem_fixLines kept with ⟨inBlock, original, originalMember, next, rfl⟩
        rcases mem_fixLine inLine with inOriginal | written
        · exact .inl (mem_of_mem_lines originalMember inOriginal)
        · exact .inr (.inr written)
      · cases inLine
  · exact .inr (.inl newline)

end DocAudit.Fix
