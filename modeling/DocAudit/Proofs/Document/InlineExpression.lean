import DocAudit.Proofs.Document.InlineCode
import DocAudit.Proofs.Pattern.SingleTests

/-!
The regular expression of inline code. It refers back to its own first capture, so what it matches
depends on the order of its ends: the run of backticks is tried from its full length down, and for
each length the content from one character up. A search with it comes to the spans that are blanked.
-/

namespace DocAudit.InlineCode

open Pattern StandardPatterns

def inlinePart : Part :=
  .ofList [.capture 1 (.repeated .greedy 1 none (letter backtick)),
    .capture 2 (.repeated .lazy 1 none (.one .anyInLine)), .reference 1 ⟨1, unbounded⟩ .exact]

def expression : Pattern := ⟨inlinePart, []⟩

def expressionText : String := "(`+)(.+?)\\1"

theorem parse_expression : Pattern.parse expressionText.toList = .ok expression := by
  decide +kernel

/-! ## Single matches -/

variable {found : Match} {cursor : Cursor}

theorem literalRun_exact (mark : List Char) (found : Match) (rest : Match → Option Match) :
    literalRun .exact mark found rest =
      if mark.isPrefixOf found.cursor.after then
        rest (found.moved (found.cursor.skip mark.length)) else none := by
  induction mark generalizing found with
  | nil => rfl
  | cons c mark induction =>
    rw [literalRun]
    cases ahead : found.cursor.after with
    | nil =>
      rw [Cursor.next?, ahead]
      rfl
    | cons other behind =>
      rw [Cursor.next?_eq_skip ahead, List.isPrefixOf]
      by_cases here : c = other
      · have next : (found.moved (found.cursor.skip 1)).cursor.after = behind :=
          Cursor.after_skip_one ahead
        have further : (found.moved (found.cursor.skip 1)).moved
            ((found.moved (found.cursor.skip 1)).cursor.skip mark.length) =
              found.moved (found.cursor.skip (mark.length + 1)) := by
          rw [Nat.add_comm]
          exact congrArg found.moved (found.cursor.skip_skip 1 mark.length)
        simp [CaseMode.same, here, induction, next, further]
      · simp [CaseMode.same, here]

theorem findSome?_congr {α β : Type} {items : List α} {test test' : α → Option β}
    (same : ∀ item ∈ items, test' item = test item) :
    items.findSome? test' = items.findSome? test := by
  rw [← List.head?_filterMap, ← List.head?_filterMap, List.filterMap_congr same]

/-- Behind some content, the closing mark is looked for up to the end of the line. -/
theorem contentLength?_of_pos {mark text : List Char} (marked : mark ≠ []) {passed : Nat}
    (positive : 0 < passed) :
    contentLength? mark passed text =
      (List.range ((text.takeWhile (· != '\n')).length + 1)).findSome? fun more =>
        if mark.isPrefixOf (text.drop more) then some (passed + more) else none := by
  induction text generalizing passed with
  | nil =>
    cases mark with
    | nil => exact absurd rfl marked
    | cons c mark => rfl
  | cons c rest induction =>
    rw [contentLength?, List.range_succ_eq_map, List.findSome?_cons, List.drop_zero, Nat.add_zero]
    by_cases here : mark.isPrefixOf (c :: rest) = true
    · rw [if_pos ⟨positive, here⟩, if_pos here]
      rfl
    · rw [if_neg fun facts => here facts.2, if_neg here]
      by_cases newline : c = '\n'
      · rw [if_pos newline, List.takeWhile_cons_of_neg (by simp [newline])]
        rfl
      · rw [if_neg newline, List.takeWhile_cons_of_pos (by simp [newline]), List.length_cons,
          induction (Nat.succ_pos passed), List.findSome?_map]
        refine findSome?_congr fun more _ => ?_
        rw [Function.comp_apply, List.drop_succ_cons, Nat.succ_add_eq_add_succ]

/-- One character of content at least stands in front of a closing mark. -/
theorem contentLength?_zero {mark text : List Char} (marked : mark ≠ []) :
    contentLength? mark 0 text =
      (List.range (text.takeWhile (· != '\n')).length).findSome? fun more =>
        if mark.isPrefixOf (text.drop (1 + more)) then some (1 + more) else none := by
  cases text with
  | nil => rfl
  | cons c rest =>
    rw [contentLength?, if_neg fun facts => Nat.lt_irrefl 0 facts.1]
    by_cases newline : c = '\n'
    · rw [if_pos newline, List.takeWhile_cons_of_neg (by simp [newline])]
      rfl
    · rw [if_neg newline, List.takeWhile_cons_of_pos (by simp [newline]), List.length_cons,
        contentLength?_of_pos marked Nat.one_pos]
      refine findSome?_congr fun more _ => ?_
      rw [Nat.add_comm 1 more, List.drop_succ_cons]

/-- A lazy repetition over content comes to the first closing mark. -/
theorem findSome?_lazy {α : Type} {mark : List Char} (marked : mark ≠ [])
    {close : Match → Option α} {closed : Cursor → α}
    (closes : ∀ later : Cursor, found.cursor.index ≤ later.index → close (found.moved later) =
      if mark.isPrefixOf later.after then some (closed later) else none) :
    ((Part.repeated .lazy 1 none (.one .anyInLine)).ends found).findSome? close =
      (contentLength? mark 0 found.cursor.after).map fun length =>
        closed (found.cursor.skip length) := by
  rw [ends_lazy, Match.reverse_runEnds, Nat.add_sub_cancel, List.findSome?_map,
    contentLength?_zero marked, List.map_findSome?]
  refine findSome?_congr fun more _ => ?_
  rw [Function.comp_apply, Function.comp_apply, closes _ (Nat.le_add_right _ _),
    apply_ite (Option.map _)]
  rfl

theorem accepts_backtick :
    (Single.set false [.single backtick.toNat] .exact false).accepts = (· == backtick) := by
  funext c
  rw [Bool.eq_iff_iff, beq_iff_eq]
  refine ⟨eq_of_accepts_letter, ?_⟩
  rintro rfl
  decide

/-- What is found behind an opening mark: its content and its closing mark. -/
theorem findSome?_content {size : Nat} (cursor : Cursor) (advance : Bool) (positive : 0 < size)
    (within : size ≤ (cursor.after.takeWhile (· == backtick)).length) :
    (((Part.capture 2 (.repeated .lazy 1 none (.one .anyInLine))).ends
        ((Match.mk cursor []).record 1 ⟨cursor.skip size, []⟩)).findSome? fun inside =>
          (((Part.reference 1 ⟨1, unbounded⟩ .exact).run inside fun finish =>
            if advance && finish.cursor.index == cursor.index then none else some finish).map
              (·.cursor))) =
      (lengthWithMark? cursor.after size).map cursor.skip := by
  have mark : cursor.textTo (cursor.skip size) = List.replicate size backtick := by
    rw [Cursor.textTo, Cursor.skip, Nat.add_sub_cancel_left]
    exact take_eq_replicate within
  have marked : List.replicate size backtick ≠ [] := by
    rw [ne_eq, List.replicate_eq_nil_iff]
    exact positive.ne'
  let opened : Match := ⟨cursor.skip size, [(1, List.replicate size backtick)]⟩
  have started : (Match.mk cursor []).record 1 ⟨cursor.skip size, []⟩ = opened := by
    rw [Match.record, mark]
  let close (inside : Match) : Option Cursor :=
    ((Part.reference 1 ⟨1, unbounded⟩ .exact).run (opened.record 2 inside) fun finish =>
      if advance && finish.cursor.index == cursor.index then none else some finish).map (·.cursor)
  have closes (later : Cursor) (beyond : opened.cursor.index ≤ later.index) :
      close (opened.moved later) =
        if (List.replicate size backtick).isPrefixOf later.after then some (later.skip size)
        else none := by
    have further : later.index + size ≠ cursor.index := by
      have started : cursor.index + size ≤ later.index := beyond
      omega
    have recorded : (opened.record 2 (opened.moved later)).capture? 1 =
        some (List.replicate size backtick) := rfl
    simp only [close]
    rw [Part.run, recorded]
    simp only [literalRun_exact, List.length_replicate]
    change Option.map _ (if (List.replicate size backtick).isPrefixOf later.after then
      if advance && later.index + size == cursor.index then none else some _ else none) = _
    rw [beq_false_of_ne further, Bool.and_false, if_neg Bool.false_ne_true]
    split <;> rfl
  rw [started, Part.ends, List.findSome?_map]
  refine (findSome?_lazy marked closes).trans ?_
  rw [lengthWithMark?, Option.map_map]
  congr 1
  funext length
  calc (opened.cursor.skip length).skip size
      = (cursor.skip (size + length)).skip size := by rw [← cursor.skip_skip size length]
    _ = cursor.skip (size + length + size) := cursor.skip_skip _ size
    _ = cursor.skip (2 * size + length) := by
        rw [show size + length + size = 2 * size + length by omega]

/-- The expression matches where a span begins, and ends where the span does. -/
theorem map_cursor_matchAt? (cursor : Cursor) (advance : Bool) :
    (expression.matchAt? cursor advance).map (·.finish.cursor) =
      (spanLength? cursor.after).map cursor.skip := by
  have opening : ((Part.capture 1 (.repeated .greedy 1 none (letter backtick))).ends
      ⟨cursor, []⟩) = (List.range (cursor.after.takeWhile (· == backtick)).length).map fun fewer =>
        (Match.mk cursor []).record 1
          ⟨cursor.skip ((cursor.after.takeWhile (· == backtick)).length - fewer), []⟩ := by
    rw [Part.ends, letter, StandardPatterns.set, ends_greedy, Match.runEnds, Match.runLength,
      accepts_backtick, Nat.add_sub_cancel, List.map_map]
    rfl
  rw [matchAt?, Option.map_map, spanLength?, List.map_findSome?]
  change (Part.run (.sequence (.capture 1 _) (.sequence (.capture 2 _) _)) _ _).map _ = _
  rw [Part.run, Part.run_eq_findSome?, opening, List.findSome?_map, List.map_findSome?]
  apply findSome?_congr
  intro fewer member
  rw [List.mem_range] at member
  refine Eq.trans ?_ (findSome?_content cursor advance (Nat.sub_pos_of_lt member) (Nat.sub_le _ _))
  change Option.map (·.cursor) (Part.run (.sequence (.capture 2 _) (.reference 1 _ _)) _ _) = _
  rw [Part.run, Part.run_eq_findSome?, List.map_findSome?]
  rfl

/-! ## Whole lines -/

/-- What stands behind a cursor, with as many blanks in place of each match. -/
def blankMatches (cursor : Cursor) : List Found → List Char
  | [] => cursor.after
  | found :: rest =>
    cursor.textTo found.start ++
      (List.replicate found.text.length ' ' ++ blankMatches found.finish.cursor rest)

theorem textTo_self (cursor : Cursor) : cursor.textTo cursor = [] := by
  rw [Cursor.textTo, Nat.sub_self, List.take_zero]

/-- Behind the first match, everything is still to be blanked. -/
theorem blank_of_searchFrom? {places : Nat} (advance : Bool)
    (enough : cursor.after.length ≤ places) :
    (∀ found, expression.searchFrom? places cursor advance = some found →
      blank cursor.after = cursor.textTo found.start ++
        (List.replicate found.text.length ' ' ++ blank found.finish.cursor.after) ∧
      found.finish.cursor.after.length < cursor.after.length) ∧
    (expression.searchFrom? places cursor advance = none → blank cursor.after = cursor.after) := by
  fun_induction searchFrom? expression places cursor advance with
  | case1 places cursor advance found matched =>
    refine ⟨?_, fun searched => (Option.some_ne_none _ searched).elim⟩
    rintro _ ⟨⟩
    obtain ⟨rfl, -, -⟩ := matchAt?_eq_some matched
    have spans := map_cursor_matchAt? found.start advance
    rw [matched, Option.map_some] at spans
    obtain ⟨length, isLength, finish⟩ := Option.map_eq_some_iff.mp spans.symm
    have within := spanLength?_le isLength
    have positive := pos_of_spanLength? isLength
    have text : found.text.length = length := by
      rw [Found.text, ← finish, (Cursor.passes_skip within).textTo, List.length_take,
        Nat.min_eq_left within]
    rw [textTo_self, List.nil_append, text, blank_of_spanLength? isLength, ← finish]
    refine ⟨rfl, ?_⟩
    rw [Cursor.skip, List.length_drop]
    omega
  | case2 cursor advance none places c next isNext induction =>
    have passes := Cursor.passes_of_next? isNext
    have ahead : cursor.after = c :: next.after := passes.after
    have noSpan : spanLength? (c :: next.after) = Option.none := by
      have spans := map_cursor_matchAt? cursor advance
      rw [none, ahead] at spans
      exact Option.map_eq_none_iff.mp spans.symm
    rw [ahead, List.length_cons] at enough
    obtain ⟨inSome, inNone⟩ := induction (Nat.le_of_succ_le_succ enough)
    rw [ahead, blank_cons_of_eq_none noSpan]
    refine ⟨fun found searched => ?_, fun searched => by rw [inNone searched]⟩
    obtain ⟨blanked, shorter⟩ := inSome found searched
    obtain ⟨⟨front, further⟩, -⟩ := searchFrom?_eq_some searched
    rw [blanked, (passes.trans further).textTo, further.textTo]
    exact ⟨rfl, Nat.lt_succ_of_lt shorter⟩
  | case3 places cursor advance none atEnd =>
    refine ⟨fun _ searched => (Option.some_ne_none _ searched.symm).elim, fun _ => ?_⟩
    cases ahead : cursor.after with
    | nil => rfl
    | cons c rest =>
      rw [ahead, List.length_cons] at enough
      obtain ⟨more, rfl⟩ := Nat.exists_eq_add_of_lt enough
      exact (atEnd (rest.length + more) c _ rfl (Cursor.next?_eq_skip ahead)).elim

theorem blankMatches_findFrom {bound : Nat} {advance : Bool}
    (enough : cursor.after.length < bound) :
    blankMatches cursor (expression.findFrom bound cursor advance) = blank cursor.after := by
  induction bound generalizing cursor advance with
  | zero => cases enough
  | succ bound induction =>
    obtain ⟨inSome, inNone⟩ := blank_of_searchFrom? advance (Nat.le_refl cursor.after.length)
    rw [findFrom]
    split
    · next none => rw [blankMatches, inNone none]
    · next found searched =>
      obtain ⟨blanked, shorter⟩ := inSome found searched
      rw [blankMatches, induction (by omega), blanked]

/-- The matches of the expression in a line are blanked, and nothing else. -/
theorem blankMatches_findAll (line : List Char) :
    blankMatches (.start line) (expression.findAll line) = blank line :=
  blankMatches_findFrom (show line.length < 2 * line.length + 2 by omega)

/-! ## What is left -/

variable {line left : List Char}

theorem occursIn_of_forall (none : ∀ rest, rest <:+ left → spanLength? rest = none) :
    expression.occursIn left = false := by
  rw [occursIn_eq_false_iff]
  rintro cursor ⟨front, passes⟩
  have behind : cursor.after <:+ left := ⟨front, passes.after.symm⟩
  have spans := map_cursor_matchAt? cursor false
  rw [none _ behind, Option.map_none, Option.map_eq_none_iff] at spans
  exact isNone_matchAt?_iff.mp spans

/-- What blanking leaves of a line. The matches of the expression are blanked, each of them a span,
and everything else stays. What is left has no span in it, so it is not changed again. -/
structure LeavesNoSpan (text left : List Char) : Prop where
  spans : Blanks text left
  found : left = blankMatches (.start text) (expression.findAll text)
  length : left.length = text.length
  letters : ∀ place : Nat, left[place]? = some ' ' ∨ left[place]? = text[place]?
  few : left.count backtick ≤ 2
  adjacent : AreAdjacent left
  noSpan : ∀ span, span <:+: left → ¬ IsSpan span
  nothingFound : expression.occursIn left = false
  front : ∀ front, backtick ∉ front → front <+: text → front <+: left
  back : ∀ back, backtick ∉ back → back <:+ text → back <:+ left
  again : blank left = left

theorem blank_leaves_no_span (inLine : '\n' ∉ line) : LeavesNoSpan line (blank line) := by
  have blanks := blanks_blank line
  have adjacent : AreAdjacent (blank line) := areAdjacent_blankFrom 0 inLine
  have none (rest : List Char) (ends : rest <:+ blank line) : spanLength? rest = none :=
    adjacent.spanLength?_eq_none ends
  exact {
    spans := blanks
    found := (blankMatches_findAll line).symm
    length := blanks.length
    letters := blanks.getElem?
    few := adjacent.count_le
    adjacent := adjacent
    noSpan := fun _ inside => adjacent.not_isSpan inside
    nothingFound := occursIn_of_forall none
    front := fun _ unmarked begins => blanks.front unmarked begins
    back := fun _ unmarked ends => blanks.back unmarked ends
    again := blank_of_forall none }

/-- A span may close in the midst of a run. The backticks that are left of it stand side by side. -/
theorem blank_leaves_no_span_in_run :
    '\n' ∉ "a`b```c".toList ∧ blank "a`b```c".toList = "a   ``c".toList ∧
      LeavesNoSpan "a`b```c".toList (blank "a`b```c".toList) :=
  ⟨by decide +kernel, by decide +kernel, blank_leaves_no_span (by decide +kernel)⟩

end DocAudit.InlineCode
