import DocAudit.Pattern.Search
import DocAudit.Proofs.Pattern.Language

/-!
Where a search finds something, for any pattern. Each match lies in the text, no match begins
before the one found earlier has ended, and a text in which nothing is found has no place where the
pattern has an end.
-/

namespace DocAudit.Pattern

/-- A place in a text. -/
def Cursor.IsIn (cursor : Cursor) (text : List Char) : Prop :=
  ∃ front, (Cursor.start text).Passes front cursor

namespace Cursor

theorem isIn_iff {cursor : Cursor} {text : List Char} :
    cursor.IsIn text ↔ ∃ front back, text = front ++ back ∧
      cursor = ⟨front.reverse, back, front.length⟩ := by
  constructor
  · rintro ⟨front, before, after, index⟩
    refine ⟨front, cursor.after, after, ?_⟩
    cases cursor
    simp_all [start]
  · rintro ⟨front, back, rfl, rfl⟩
    exact ⟨front, by simp [start], by simp [start], by simp [start]⟩

theorem IsIn.passes {cursor later : Cursor} {text word : List Char} (isIn : cursor.IsIn text)
    (passes : cursor.Passes word later) : later.IsIn text := by
  obtain ⟨front, reached⟩ := isIn
  exact ⟨front ++ word, reached.trans passes⟩

theorem passes_nil_iff {cursor later : Cursor} : cursor.Passes [] later ↔ later = cursor := by
  constructor
  · rintro ⟨before, after, index⟩
    cases cursor
    cases later
    simp_all
  · rintro rfl
    exact .stay later

theorem passes_cons_iff {cursor later : Cursor} {c : Char} {word : List Char} :
    cursor.Passes (c :: word) later ↔
      ∃ next, cursor.next? = some (c, next) ∧ next.Passes word later := by
  constructor
  · rintro ⟨before, after, index⟩
    refine ⟨⟨c :: cursor.before, word ++ later.after, cursor.index + 1⟩, ?_, ?_, rfl, ?_⟩
    · rw [next?, after]
      rfl
    · simp [before]
    · rw [index, List.length_cons]
      exact Nat.add_right_comm cursor.index word.length 1
  · rintro ⟨next, isNext, passes⟩
    exact (passes_of_next? isNext).trans passes

theorem Passes.index_le {cursor later : Cursor} {word : List Char}
    (passes : cursor.Passes word later) : cursor.index ≤ later.index := by
  rw [passes.index]
  exact Nat.le_add_right _ _

end Cursor

variable {pattern : Pattern} {cursor : Cursor} {advance : Bool} {found : Found}

/-- A match is an end of the pattern, the first that counts. -/
theorem matchAt?_eq_some (matched : pattern.matchAt? cursor advance = some found) :
    found.start = cursor ∧ found.finish ∈ pattern.part.ends ⟨cursor, []⟩ ∧
      (advance = true → found.finish.cursor.index ≠ cursor.index) := by
  rw [matchAt?, Part.run_eq_findSome?] at matched
  obtain ⟨finish, first, rfl⟩ := Option.map_eq_some_iff.mp matched
  obtain ⟨last, member, accepted⟩ := List.exists_of_findSome?_eq_some first
  split at accepted
  · cases accepted
  · next counts =>
    cases accepted
    refine ⟨rfl, member, fun advances same => counts ?_⟩
    rw [advances, Bool.true_and, beq_iff_eq]
    exact same

/-- A match passes over its text. -/
theorem passes_text_of_matchAt? (matched : pattern.matchAt? cursor advance = some found) :
    cursor.Passes found.text found.finish.cursor := by
  obtain ⟨rfl, member, -⟩ := matchAt?_eq_some matched
  obtain ⟨word, -, passes⟩ := pattern.part.spells_of_mem_ends _ _ member
  have text : found.text = word := passes.textTo
  rw [text]
  exact passes

theorem isNone_matchAt?_iff :
    pattern.matchAt? cursor false = none ↔ pattern.part.ends ⟨cursor, []⟩ = [] := by
  simp only [matchAt?, Part.run_eq_findSome?, Option.map_eq_none_iff, List.findSome?_eq_none_iff,
    Bool.false_and, Bool.false_eq_true, if_false, reduceCtorEq, imp_false,
    List.eq_nil_iff_forall_not_mem]

/-- A search ends at a match somewhere behind its cursor. -/
theorem searchFrom?_eq_some {places : Nat}
    (searched : pattern.searchFrom? places cursor advance = some found) :
    (∃ front, cursor.Passes front found.start) ∧
      ∃ advance, pattern.matchAt? found.start advance = some found := by
  fun_induction searchFrom? pattern places cursor advance with
  | case1 places cursor advance first matched =>
    cases searched
    obtain ⟨rfl, -, -⟩ := matchAt?_eq_some matched
    exact ⟨⟨[], .stay _⟩, advance, matched⟩
  | case2 cursor advance _ places c next isNext induction =>
    obtain ⟨⟨front, passes⟩, matched⟩ := induction searched
    exact ⟨⟨c :: front, Cursor.passes_cons_iff.mpr ⟨next, isNext, passes⟩⟩, matched⟩
  | case3 => cases searched

/-- A search that finds nothing leaves no place out. -/
theorem searchFrom?_eq_none_iff {places : Nat} (enough : cursor.after.length ≤ places) :
    pattern.searchFrom? places cursor false = none ↔
      ∀ front later, cursor.Passes front later → pattern.part.ends ⟨later, []⟩ = [] := by
  generalize still : false = advance
  fun_induction searchFrom? pattern places cursor advance with
  | case1 places cursor advance first matched =>
    subst still
    refine iff_of_false (Option.some_ne_none first) fun nowhere => ?_
    rw [isNone_matchAt?_iff.mpr (nowhere [] cursor (.stay cursor))] at matched
    cases matched
  | case2 cursor advance none places c next isNext induction =>
    subst still
    have fewer := (Cursor.passes_of_next? isNext).length_after
    rw [List.length_singleton] at fewer
    rw [induction (by omega) rfl]
    constructor
    · intro nowhere front later passes
      cases front with
      | nil =>
        obtain rfl := Cursor.passes_nil_iff.mp passes
        exact isNone_matchAt?_iff.mp none
      | cons first front =>
        obtain ⟨other, isOther, passes⟩ := Cursor.passes_cons_iff.mp passes
        rw [isNext] at isOther
        cases isOther
        exact nowhere front later passes
    · intro nowhere front later passes
      exact nowhere (c :: front) later (Cursor.passes_cons_iff.mpr ⟨next, isNext, passes⟩)
  | case3 places cursor advance none atEnd =>
    subst still
    refine iff_of_true rfl ?_
    intro front later passes
    cases front with
    | nil =>
      obtain rfl := Cursor.passes_nil_iff.mp passes
      exact isNone_matchAt?_iff.mp none
    | cons first front =>
      obtain ⟨next, isNext, -⟩ := Cursor.passes_cons_iff.mp passes
      have some := (Cursor.passes_of_next? isNext).length_after
      rw [List.length_singleton] at some
      cases places with
      | zero => omega
      | succ places => exact (atEnd places first next rfl isNext).elim

/-- Nothing is found in a text where no place of it has an end of the pattern. -/
theorem occursIn_eq_false_iff {text : List Char} :
    pattern.occursIn text = false ↔
      ∀ cursor, cursor.IsIn text → pattern.part.ends ⟨cursor, []⟩ = [] := by
  rw [occursIn, search?, Option.isSome_eq_false_iff, Option.isNone_iff_eq_none,
    searchFrom?_eq_none_iff (Nat.le_refl text.length)]
  exact ⟨fun nowhere cursor ⟨front, passes⟩ => nowhere front cursor passes,
    fun nowhere front later passes => nowhere later ⟨front, passes⟩⟩

theorem findAll_eq_nil_iff {text : List Char} :
    pattern.findAll text = [] ↔ pattern.occursIn text = false := by
  rw [findAll, findFrom, occursIn, search?,
    show (Cursor.start text).after.length = text.length from rfl]
  cases pattern.searchFrom? text.length (.start text) false <;> simp

/-- What is found lies in the text behind the place where the search began. -/
theorem mem_findFrom {bound : Nat} (member : found ∈ pattern.findFrom bound cursor advance) :
    (∃ front, cursor.Passes front found.start) ∧
      ∃ advance, pattern.matchAt? found.start advance = some found := by
  induction bound generalizing cursor advance with
  | zero => cases member
  | succ bound induction =>
    rw [findFrom] at member
    split at member
    · cases member
    · next first searched =>
      rcases List.mem_cons.mp member with rfl | later
      · exact searchFrom?_eq_some searched
      · obtain ⟨⟨front, toFirst⟩, _, matched⟩ := searchFrom?_eq_some searched
        obtain ⟨⟨between, passes⟩, atPlace⟩ := induction later
        exact ⟨⟨_, toFirst.trans ((passes_text_of_matchAt? matched).trans passes)⟩, atPlace⟩

theorem mem_findAll {text : List Char} (member : found ∈ pattern.findAll text) :
    found.start.IsIn text ∧ ∃ advance, pattern.matchAt? found.start advance = some found :=
  mem_findFrom member

/-- A match begins where an earlier one has ended or behind that. -/
theorem pairwise_findAll (pattern : Pattern) (text : List Char) :
    (pattern.findAll text).Pairwise fun earlier later =>
      earlier.finish.cursor.index ≤ later.start.index := by
  rw [findAll]
  generalize 2 * text.length + 2 = bound
  generalize Cursor.start text = cursor
  generalize false = advance
  induction bound generalizing cursor advance with
  | zero => exact .nil
  | succ bound induction =>
    rw [findFrom]
    split
    · exact .nil
    · next first searched =>
      refine .cons (fun later member => ?_) (induction _ _)
      obtain ⟨⟨front, passes⟩, -⟩ := mem_findFrom member
      exact passes.index_le

theorem pairwise_start_findAll (pattern : Pattern) (text : List Char) :
    (pattern.findAll text).Pairwise fun earlier later =>
      earlier.start.index ≤ later.start.index := by
  refine (pattern.pairwise_findAll text).imp_of_mem ?_
  intro earlier later member _ ended
  obtain ⟨_, _, matched⟩ := mem_findAll member
  exact Nat.le_trans (passes_text_of_matchAt? matched).index_le ended

end DocAudit.Pattern
