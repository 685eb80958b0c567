import DocAudit.Rules.Outline
import DocAudit.Proofs.Document.LinkGrammar
import DocAudit.Proofs.Document.PromisedFix

/-!
What fixing does to the facts of a document. Line numbers, blocks and links stay as they are. A
block without a language gets one, a heading without text is none any more, and number signs that
lacked a blank become a heading.
-/

namespace DocAudit

open Text DocAudit.Fix

/-! ## Single lines -/

/-- The heading that a line of prose is once the blank behind its number signs is put in. -/
def Line.unspacedHeading? (line : Line) : Option Heading :=
  let signs := line.text.takeWhile (· == '#')
  let rest := line.text.drop signs.length
  if line.kind = .prose ∧ 1 ≤ signs.length ∧ signs.length ≤ 6 ∧
      rest.head?.any (!isBlank ·) then
    some ⟨signs.length, strip rest, line.number⟩
  else none

/-- A block that has no language gets the default one. -/
def Fence.withLanguage (fence : Fence) : Fence :=
  { fence with language := if fence.language = [] then defaultLanguage else fence.language }

/-- A line and what fixing makes of it. -/
structure FixedInto (before after : Line) : Prop where
  number : after.number = before.number
  kind : after.kind = before.kind
  text : ∃ inBlock next, before.kind = lineKind inBlock before.text ∧
    after.text = fixLine inBlock before.text next

theorem forall₂_fixedInto (number : Nat) (inBlock : Bool) (items : List (List Char)) :
    List.Forall₂ FixedInto (numberLines number inBlock items)
      (numberLines number inBlock (fixLines inBlock items)) := by
  induction items generalizing number inBlock with
  | nil => exact .nil
  | cons line rest induction =>
    rw [fixLines, numberLines, numberLines, inBlockAfter_fixLine]
    refine .cons ?_ (induction (number + 1) (inBlockAfter inBlock line))
    exact ⟨rfl, lineKind_fixLine inBlock inBlock line _, inBlock, _, rfl, rfl⟩

theorem ignoresSpacing_links : IgnoresSpacing LinkSyntax.links where
  behind line _ blank := LinkSyntax.links_append_of_allBlank line blank
  blankAhead c rest blank := by
    apply LinkSyntax.links_cons_of_ne
    rintro rfl
    exact absurd blank (by decide)
  signAhead := LinkSyntax.links_cons_of_ne (by decide)
  label := by decide

theorem FixedInto.view {β : Type} {view : List Char → β} (ignores : IgnoresSpacing view)
    {before after : Line} (fixed : FixedInto before after) :
    view after.text = view before.text := by
  rcases fixed.text with ⟨inBlock, next, -, text⟩
  rw [text, ignores.view_fixLine]

theorem FixedInto.links {before after : Line} (fixed : FixedInto before after) :
    after.links = before.links := by
  rw [Line.links, Line.links, fixed.view ignoresSpacing_links, fixed.number]

theorem heading?_of_signs {line : Line} (prose : line.kind = .prose) {count : Nat}
    {rest : List Char} (behind : rest.head? ≠ some '#') (split : line.text = signs count ++ rest) :
    line.heading? =
      if 1 ≤ count ∧ count ≤ 6 ∧ rest.head?.any isBlank then
        some ⟨count, strip rest, line.number⟩
      else none := by
  rw [Line.heading?, if_pos prose, split, headingLevel?_signs_append behind]
  split
  · rw [Option.map_some, List.drop_left' (length_signs count)]
  · rfl

theorem unspacedHeading?_of_signs {line : Line} (prose : line.kind = .prose) {count : Nat}
    {rest : List Char} (behind : rest.head? ≠ some '#') (split : line.text = signs count ++ rest) :
    line.unspacedHeading? =
      if LacksBlank count rest then some ⟨count, strip rest, line.number⟩ else none := by
  simp only [Line.unspacedHeading?, split, takeWhile_signs_append behind, length_signs,
    List.drop_left' (length_signs count), prose, true_and]
  rfl

theorem not_lacksBlank_of_head {count : Nat} {rest : List Char}
    (blank : rest.head?.any isBlank = true) : ¬ LacksBlank count rest := by
  intro missing
  cases rest with
  | nil => cases blank
  | cons c rest =>
    have visible := missing.2.2
    simp only [List.head?_cons, Option.any_some] at blank visible
    rw [blank] at visible
    exact Bool.noConfusion visible

/-- No line is a heading already and lacks the blank of one. -/
theorem heading?_eq_none_or (line : Line) :
    line.heading? = none ∨ line.unspacedHeading? = none := by
  by_cases prose : line.kind = .prose
  · rcases exists_eq_signs_append line.text with ⟨count, rest, behind, split⟩
    rw [heading?_of_signs prose behind split, unspacedHeading?_of_signs prose behind split]
    by_cases spaced : rest.head?.any isBlank = true
    · exact .inr (if_neg (not_lacksBlank_of_head spaced))
    · exact .inl (if_neg fun conditions => spaced conditions.2.2)
  · exact .inl (if_neg prose)

theorem heading?_of_not_prose {line : Line} (code : line.kind ≠ .prose) :
    line.heading? = none ∧ line.unspacedHeading? = none :=
  ⟨if_neg code, if_neg fun conditions => code conditions.1⟩

/-- Trimming behind number signs takes the headings away that have no text. -/
theorem heading?_of_trimmed {before after : Line} (prose : before.kind = .prose)
    (proseAfter : after.kind = .prose) (number : after.number = before.number) {count : Nat}
    {rest : List Char} (behind : rest.head? ≠ some '#') (split : before.text = signs count ++ rest)
    (trimmed : after.text = signs count ++ stripRight rest) :
    after.heading? = before.heading?.filter (·.text ≠ []) := by
  rw [heading?_of_signs prose behind split,
    heading?_of_signs proseAfter (head_stripRight_ne behind) trimmed, number, strip_stripRight]
  cases visible : hasText rest with
  | false =>
    have noText := strip_eq_nil_iff.mpr visible
    have nothing := stripRight_eq_nil_iff.mpr visible
    rw [nothing, if_neg fun conditions => Bool.false_ne_true conditions.2.2]
    split
    · rw [Option.filter_some, if_neg (by simp [noText])]
    · rfl
  | true =>
    have text : strip rest ≠ [] := by
      intro empty
      rw [strip_eq_nil_iff.mp empty] at visible
      exact Bool.false_ne_true visible
    have left : stripRight rest ≠ [] := by
      intro empty
      rw [stripRight_eq_nil_iff.mp empty] at visible
      exact Bool.false_ne_true visible
    rw [head_stripRight left]
    split
    · rw [Option.filter_some, if_pos (by simp [text])]
    · rfl

theorem heading?_of_no_signs {line : Line} (behind : line.text.head? ≠ some '#') :
    line.heading? = none ∧ line.unspacedHeading? = none := by
  by_cases prose : line.kind = .prose
  · have noCount : line.text = signs 0 ++ line.text := rfl
    rw [heading?_of_signs prose behind noCount, unspacedHeading?_of_signs prose behind noCount]
    exact ⟨if_neg (by omega), if_neg fun missing => absurd missing.1 (by decide)⟩
  · exact heading?_of_not_prose prose

/-- Number signs that lacked a blank are a heading once the blank is put in. -/
theorem heading?_of_spaced {before after : Line} (prose : before.kind = .prose)
    (proseAfter : after.kind = .prose) (number : after.number = before.number) {count : Nat}
    {rest : List Char} (behind : rest.head? ≠ some '#') (split : before.text = signs count ++ rest)
    (missing : LacksBlank count rest)
    (spaced : after.text = signs count ++ ' ' :: stripRight rest) :
    after.heading? = before.unspacedHeading? := by
  have spaceAhead : (' ' :: stripRight rest).head? ≠ some '#' := by simp
  have blankAhead : (' ' :: stripRight rest).head?.any isBlank = true := by
    rw [List.head?_cons]
    decide
  have sameText : strip (' ' :: stripRight rest) = strip rest := by
    rw [show ' ' :: stripRight rest = [' '] ++ stripRight rest from rfl,
      strip_append_left_of_allBlank (by decide), strip_stripRight]
  rw [heading?_of_signs proseAfter spaceAhead spaced,
    if_pos ⟨missing.1, missing.2.1, blankAhead⟩, sameText, number,
    unspacedHeading?_of_signs prose behind split, if_pos missing]

/-- A heading that has text stays, and one that lacks a blank comes up. -/
theorem FixedInto.heading? {before after : Line} (fixed : FixedInto before after) :
    after.heading? =
      (before.heading?.filter (·.text ≠ [])).or before.unspacedHeading? := by
  by_cases prose : before.kind = .prose
  · have proseAfter : after.kind = .prose := fixed.kind.trans prose
    rcases fixed.text with ⟨inBlock, next, kind, text⟩
    rcases exists_eq_signs_append before.text with ⟨count, rest, behind, split⟩
    rw [fixLine_prose (kind.symm.trans prose)] at text
    rcases Nat.eq_zero_or_pos count with rfl | positive
    · have noSigns : before.text.head? ≠ some '#' := by rw [split]; exact behind
      rw [spaceHeading_trimLine_of_head noSigns] at text
      have noSignsAfter : after.text.head? ≠ some '#' := by
        rw [text]
        exact head_trimLine_ne noSigns next
      rw [(heading?_of_no_signs noSigns).1, (heading?_of_no_signs noSigns).2,
        (heading?_of_no_signs noSignsAfter).1]
      rfl
    · rw [split, spaceHeading_trimLine_signs positive behind] at text
      by_cases missing : LacksBlank count rest
      · rw [if_pos missing] at text
        have noHeading : before.heading? = none := by
          rw [heading?_of_signs prose behind split]
          exact if_neg fun conditions => not_lacksBlank_of_head conditions.2.2 missing
        rw [heading?_of_spaced prose proseAfter fixed.number behind split missing text, noHeading]
        rfl
      · rw [if_neg missing] at text
        rw [heading?_of_trimmed prose proseAfter fixed.number behind split text,
          unspacedHeading?_of_signs prose behind split, if_neg missing, Option.or_none]
  · have codeAfter : after.kind ≠ .prose := by rw [fixed.kind]; exact prose
    rw [(heading?_of_not_prose prose).1, (heading?_of_not_prose prose).2,
      (heading?_of_not_prose codeAfter).1]
    rfl

end DocAudit
