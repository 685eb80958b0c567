import DocAudit.Text.Lines
import Mathlib.Data.List.Basic

/-!
Laws of lines. No line of a text holds a line feed, and lines without one can be read back from
the text that they are joined to. Together with what ends them, lines lose nothing of the text, and
they are those of `lines` where every line end is read as a line feed.
-/

namespace DocAudit.Text

/-- What `lines` returns: at least one line, and none with a line feed in it. -/
structure AreLines (items : List (List Char)) : Prop where
  nonempty : items ≠ []
  inLine : ∀ line ∈ items, '\n' ∉ line

@[simp] theorem lines_nil : lines [] = [[]] := rfl

theorem lines_append_newline (first second : List Char) :
    lines (first ++ '\n' :: second) = lines first ++ lines second :=
  List.splitOn_append_cons_self first second

/-- No piece of a text that is split has a separator in it. -/
theorem not_mem_of_mem_splitOn {separator : Char} {text piece : List Char}
    (member : piece ∈ text.splitOn separator) : separator ∉ piece := by
  induction length : text.length using Nat.strongRecOn generalizing text with
  | _ count induction =>
    subst length
    by_cases separated : separator ∈ text
    · obtain ⟨front, behind, rfl, notBefore⟩ := List.eq_append_cons_of_mem separated
      rw [List.splitOn_append_cons_self_of_not_mem notBefore, List.mem_cons] at member
      rcases member with rfl | member
      · exact notBefore
      · exact induction behind.length (by simp; omega) member rfl
    · rw [List.splitOn_eq_singleton separated, List.mem_singleton] at member
      rwa [member]

theorem not_mem_of_mem_lines {text line : List Char} (member : line ∈ lines text) :
    '\n' ∉ line :=
  not_mem_of_mem_splitOn member

theorem AreLines.lines_unlines {items : List (List Char)} (areLines : AreLines items) :
    lines (unlines items) = items :=
  List.splitOn_intercalate '\n' areLines.inLine areLines.nonempty

/-! ## Joining -/

@[simp] theorem unlines_singleton (line : List Char) : unlines [line] = line :=
  List.intercalate_singleton

theorem unlines_cons {items : List (List Char)} (nonempty : items ≠ []) (line : List Char) :
    unlines (line :: items) = line ++ '\n' :: unlines items := by
  rw [unlines, List.intercalate_cons_of_ne_nil nonempty, List.append_assoc]
  rfl

theorem unlines_append {first second : List (List Char)} (firstNonempty : first ≠ [])
    (secondNonempty : second ≠ []) :
    unlines (first ++ second) = unlines first ++ '\n' :: unlines second := by
  induction first with
  | nil => exact absurd rfl firstNonempty
  | cons line rest induction =>
    by_cases single : rest = []
    · rw [single, unlines_singleton, List.singleton_append, unlines_cons secondNonempty]
    · rw [List.cons_append, unlines_cons (by simp [single]), induction single,
        unlines_cons single, List.append_assoc, List.cons_append]

/-- Each empty line at the end of a text is one more line feed there. -/
theorem unlines_append_replicate {items : List (List Char)} (nonempty : items ≠ [])
    (count : Nat) :
    unlines (items ++ List.replicate count []) = unlines items ++ List.replicate count '\n' := by
  induction count with
  | zero => simp
  | succ count induction =>
    rw [List.replicate_succ', ← List.append_assoc,
      unlines_append (by simp [nonempty]) (List.cons_ne_nil _ _), induction,
      unlines_singleton, List.append_assoc, ← List.replicate_succ']

theorem mem_unlines {items : List (List Char)} {c : Char} (member : c ∈ unlines items) :
    c = '\n' ∨ ∃ line ∈ items, c ∈ line := by
  induction items with
  | nil => cases member
  | cons line rest induction =>
    by_cases single : rest = []
    · rw [single, unlines_singleton] at member
      exact .inr ⟨line, List.mem_cons_self, member⟩
    · rw [unlines_cons single, List.mem_append, List.mem_cons] at member
      rcases member with inLine | newline | inRest
      · exact .inr ⟨line, List.mem_cons_self, inLine⟩
      · exact .inl newline
      · rcases induction inRest with newline | ⟨other, inRest, inOther⟩
        · exact .inl newline
        · exact .inr ⟨other, List.mem_cons_of_mem line inRest, inOther⟩

theorem mem_unlines_of_mem {items : List (List Char)} {line : List Char} {c : Char}
    (lineMember : line ∈ items) (member : c ∈ line) : c ∈ unlines items := by
  induction items with
  | nil => cases lineMember
  | cons first rest induction =>
    by_cases single : rest = []
    · rw [single, List.mem_singleton] at lineMember
      rw [single, unlines_singleton, ← lineMember]
      exact member
    · rw [unlines_cons single, List.mem_append, List.mem_cons]
      rcases List.mem_cons.mp lineMember with rfl | inRest
      · exact .inl member
      · exact .inr (.inr (induction inRest))

theorem mem_of_mem_lines {text line : List Char} (lineMember : line ∈ lines text) {c : Char}
    (member : c ∈ line) : c ∈ text := by
  have inText := mem_unlines_of_mem lineMember member
  rwa [unlines_lines] at inText

/-! ## Carriage returns -/

theorem unifyNewlines_cons (c : Char) (rest : List Char) :
    unifyNewlines (c :: rest) =
      (if c ≠ '\r' then [c] else if rest.head? = some '\n' then [] else ['\n']) ++
        unifyNewlines rest := by
  cases rest with
  | nil => rfl
  | cons next rest =>
    rw [unifyNewlines, withNext_cons_cons, List.flatMap_cons, ← unifyNewlines]
    rfl

theorem unifyNewlines_of_not_mem {text : List Char} (none : '\r' ∉ text) :
    unifyNewlines text = text := by
  induction text with
  | nil => rfl
  | cons c rest induction =>
    rw [List.mem_cons, not_or] at none
    rw [unifyNewlines_cons, if_pos (Ne.symm none.1), induction none.2, List.singleton_append]

theorem not_mem_unifyNewlines (text : List Char) : '\r' ∉ unifyNewlines text := by
  induction text with
  | nil => exact List.not_mem_nil
  | cons c rest induction =>
    rw [unifyNewlines_cons, List.mem_append, not_or]
    refine ⟨?_, induction⟩
    split
    · next different => exact fun member => different (List.mem_singleton.mp member).symm
    · split
      · exact List.not_mem_nil
      · decide

/-! ## Lines with their ends -/

/-- What a line ends with. Only the last line of a text can end with the text. -/
inductive LineEnd where
  | lineFeed
  | carriageReturn
  | both
  | text
  deriving DecidableEq, Repr

def LineEnd.letters : LineEnd → List Char
  | lineFeed => ['\n']
  | carriageReturn => ['\r']
  | both => ['\r', '\n']
  | text => []

structure EndedLine where
  line : List Char
  ending : LineEnd
  deriving DecidableEq, Repr

def EndedLine.letters (ended : EndedLine) : List Char :=
  ended.line ++ ended.ending.letters

/-- One more letter at the beginning of the first line. -/
def lengthenFirst (c : Char) : List EndedLine → List EndedLine
  | [] => [⟨[c], .text⟩]
  | first :: others => ⟨c :: first.line, first.ending⟩ :: others

/-- The lines of a text that begins with `c`, by the character behind it and the lines of the rest.
A carriage return before a line feed belongs to the same line end. -/
def endedLinesFrom (c : Char) (next : Option Char) (rest : List EndedLine) : List EndedLine :=
  if c = '\n' then ⟨[], .lineFeed⟩ :: rest
  else if c ≠ '\r' then lengthenFirst c rest
  else if next = some '\n' then ⟨[], .both⟩ :: rest.tail
  else ⟨[], .carriageReturn⟩ :: rest

/-- The lines of a text. There is no line behind the last line end. -/
def endedLines : List Char → List EndedLine
  | [] => []
  | c :: rest => endedLinesFrom c rest.head? (endedLines rest)

theorem endedLines_return (rest : List Char) :
    endedLines ('\r' :: rest) =
      if rest.head? = some '\n' then ⟨[], .both⟩ :: (endedLines rest).tail
      else ⟨[], .carriageReturn⟩ :: endedLines rest :=
  rfl

theorem endedLines_cons {c : Char} (noFeed : c ≠ '\n') (noReturn : c ≠ '\r') (rest : List Char) :
    endedLines (c :: rest) = lengthenFirst c (endedLines rest) := by
  rw [endedLines, endedLinesFrom, if_neg noFeed, if_pos noReturn]

theorem flatMap_letters_lengthenFirst (c : Char) (ended : List EndedLine) :
    (lengthenFirst c ended).flatMap EndedLine.letters = c :: ended.flatMap EndedLine.letters := by
  cases ended <;> rfl

/-- Nothing of a text is lost, and nothing is added. -/
theorem flatMap_letters_endedLines (text : List Char) :
    (endedLines text).flatMap EndedLine.letters = text := by
  induction text with
  | nil => rfl
  | cons c rest induction =>
    by_cases noFeed : c = '\n'
    · subst noFeed
      exact congrArg ('\n' :: ·) induction
    by_cases noReturn : c = '\r'
    · subst noReturn
      rw [endedLines_return]
      split
      · next followed =>
        obtain ⟨behind, rfl⟩ := List.head?_eq_some_iff.mp followed
        exact congrArg ('\r' :: ·) induction
      · exact congrArg ('\r' :: ·) induction
    · rw [endedLines_cons noFeed noReturn, flatMap_letters_lengthenFirst, induction]

theorem lines_cons {c : Char} (noFeed : c ≠ '\n') (rest : List Char) :
    lines (c :: rest) = (lines rest).modifyHead (c :: ·) := by
  rw [lines, List.splitOn_cons_eq_if_modifyHead, if_neg (by simpa using noFeed)]
  rfl

/-- The lines are those of the text in which each line end is a line feed. -/
theorem map_line_endedLines_prefix (text : List Char) :
    (endedLines text).map EndedLine.line <+: lines (unifyNewlines text) := by
  induction text with
  | nil => exact List.nil_prefix
  | cons c rest induction =>
    by_cases isFeed : c = '\n'
    · subst isFeed
      rw [unifyNewlines_cons, if_pos (by decide)]
      exact List.cons_prefix_cons.mpr ⟨rfl, induction⟩
    by_cases isReturn : c = '\r'
    · subst isReturn
      rw [unifyNewlines_cons, if_neg (by decide), endedLines_return]
      split
      · next followed =>
        obtain ⟨behind, rfl⟩ := List.head?_eq_some_iff.mp followed
        exact induction
      · exact List.cons_prefix_cons.mpr ⟨rfl, induction⟩
    · rw [unifyNewlines_cons, if_pos isReturn, endedLines_cons isFeed isReturn,
        List.singleton_append, lines_cons isFeed]
      cases ended : endedLines rest with
      | nil =>
        have none := flatMap_letters_endedLines rest
        rw [ended] at none
        rw [← none]
        exact List.prefix_refl [[c]]
      | cons first others =>
        obtain ⟨further, split⟩ := induction
        rw [ended, List.map_cons, List.cons_append] at split
        rw [← split]
        exact List.prefix_append _ further

theorem endedLines_append_newline {line : List Char} (noFeed : '\n' ∉ line) (noReturn : '\r' ∉ line)
    (rest : List Char) :
    endedLines (line ++ '\n' :: rest) = ⟨line, .lineFeed⟩ :: endedLines rest := by
  induction line with
  | nil => rfl
  | cons c line induction =>
    rw [List.mem_cons, not_or] at noFeed noReturn
    rw [List.cons_append, endedLines_cons (Ne.symm noFeed.1) (Ne.symm noReturn.1),
      induction noFeed.2 noReturn.2, lengthenFirst]

/-- Lines that are written with line feeds alone. -/
theorem endedLines_unlines {items : List (List Char)} (areLines : AreLines items)
    (noReturn : ∀ line ∈ items, '\r' ∉ line) :
    endedLines (unlines items ++ ['\n']) = items.map fun line => ⟨line, .lineFeed⟩ := by
  obtain ⟨nonempty, inLine⟩ := areLines
  induction items with
  | nil => exact absurd rfl nonempty
  | cons line rest induction =>
    obtain ⟨noFeed, inRest⟩ := List.forall_mem_cons.mp inLine
    obtain ⟨returnless, others⟩ := List.forall_mem_cons.mp noReturn
    by_cases single : rest = []
    · subst single
      rw [unlines_singleton, endedLines_append_newline noFeed returnless]
      rfl
    · rw [unlines_cons single, List.append_assoc, List.cons_append,
        endedLines_append_newline noFeed returnless, induction others single inRest]
      rfl

end DocAudit.Text
