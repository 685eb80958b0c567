import DocAudit.Proofs.Pattern.FoundInOrder
import DocAudit.Proofs.Pattern.SideBySide
import DocAudit.Proofs.Pattern.Words
import DocAudit.Proofs.Text.Lines

/-!
Searching a text line by line. A regular expression keeps to lines when nothing in it takes a line
feed and none of its anchors asks for the start or the end of the text. It matches at a place of a
text just as it matches there in the line alone, and so is found in the text only where it is found
in a line.
-/

namespace DocAudit

namespace Text

/-- Nothing comes, or a line feed. -/
def LineStops (text : List Char) : Prop :=
  text.head?.all (· == '\n') = true

theorem lineStops_iff {text : List Char} :
    LineStops text ↔ text = [] ∨ ∃ rest, text = '\n' :: rest := by
  cases text with
  | nil => simp [LineStops]
  | cons c rest => simp [LineStops]

theorem all_head?_append_of_lineStops {stop : List Char} (stops : LineStops stop)
    (text : List Char) : (text ++ stop).head?.all (· == '\n') = text.head?.all (· == '\n') := by
  cases text with
  | nil => exact stops
  | cons c rest => rfl

theorem any_head?_append_of_lineStops {stop : List Char} (stops : LineStops stop)
    {kind : Char → Bool} (refused : kind '\n' = false) (text : List Char) :
    (text ++ stop).head?.any kind = text.head?.any kind := by
  cases text with
  | nil =>
    rcases lineStops_iff.mp stops with rfl | ⟨rest, rfl⟩
    · rfl
    · exact refused
  | cons c rest => rfl

/-- The rest of a line, up to where it stops. -/
theorem exists_rest_of_line (text : List Char) :
    ∃ inLine rest, text = inLine ++ rest ∧ '\n' ∉ inLine ∧ LineStops rest := by
  induction text with
  | nil => exact ⟨[], [], rfl, List.not_mem_nil, rfl⟩
  | cons c text induction =>
    by_cases newline : c = '\n'
    · exact ⟨[], c :: text, rfl, List.not_mem_nil, lineStops_iff.mpr (.inr ⟨text, by rw [newline]⟩)⟩
    · obtain ⟨inLine, rest, rfl, free, stops⟩ := induction
      refine ⟨c :: inLine, rest, rfl, ?_, stops⟩
      rw [List.mem_cons, not_or]
      exact ⟨Ne.symm newline, free⟩

theorem lines_of_not_mem {line : List Char} (inLine : '\n' ∉ line) : lines line = [line] := by
  have areLines : AreLines [line] := ⟨List.cons_ne_nil _ _, List.forall_mem_singleton.mpr inLine⟩
  have read := areLines.lines_unlines
  rwa [unlines_singleton] at read

/-- A line stands between two places where lines stop; what comes before it is read backwards. -/
theorem mem_lines_iff {text line : List Char} :
    line ∈ lines text ↔ '\n' ∉ line ∧
      ∃ front back, text = front.reverse ++ line ++ back ∧ LineStops front ∧ LineStops back := by
  constructor
  · intro member
    refine ⟨not_mem_of_mem_lines member, ?_⟩
    obtain ⟨earlier, later, split⟩ := List.append_of_mem member
    have behind : ∃ back, unlines (line :: later) = line ++ back ∧ LineStops back := by
      by_cases isLast : later = []
      · exact ⟨[], by rw [isLast, unlines_singleton, List.append_nil], rfl⟩
      · exact ⟨_, unlines_cons isLast line, rfl⟩
    obtain ⟨back, ends, stopsBack⟩ := behind
    rw [← unlines_lines text, split]
    by_cases isFirst : earlier = []
    · exact ⟨[], back, by rw [isFirst, List.nil_append, ends, List.reverse_nil, List.nil_append],
        rfl, stopsBack⟩
    · refine ⟨'\n' :: (unlines earlier).reverse, back, ?_, rfl, stopsBack⟩
      rw [unlines_append isFirst (List.cons_ne_nil _ _), ends, List.reverse_cons,
        List.reverse_reverse]
      simp
  · rintro ⟨inLine, front, back, rfl, stopsFront, stopsBack⟩
    have first : line ∈ lines (line ++ back) := by
      rcases lineStops_iff.mp stopsBack with rfl | ⟨rest, rfl⟩
      · rw [List.append_nil, lines_of_not_mem inLine]
        exact List.mem_singleton_self line
      · rw [lines_append_newline, lines_of_not_mem inLine]
        exact List.mem_cons_self
    rcases lineStops_iff.mp stopsFront with rfl | ⟨rest, rfl⟩
    · exact first
    · rw [List.reverse_cons, List.append_assoc, List.append_assoc, List.singleton_append,
        lines_append_newline]
      exact List.mem_append_right _ first

end Text

namespace Pattern

/-- Whether an anchor looks no further than to the ends of a line. -/
def Anchor.keepsToLine : Anchor → Bool
  | .lineStart | .lineEnd | .boundary _ => true
  | .textStart | .textEnd | .lastLineEnd | .noBoundary _ => false

def Part.keepsToLine : Part → Bool
  | .empty => true
  | .one test => !test.accepts '\n'
  | .anchor place => place.keepsToLine
  | .group body | .capture _ body | .repeated _ _ _ body | .lookAhead _ body
  | .lookBehind _ body | .atomic body => body.keepsToLine
  | .sequence first second | .choice first second | .conditional _ first second =>
    first.keepsToLine && second.keepsToLine
  | .reference .. => false

/-- What keeps to lines takes no line feed. -/
theorem Part.madeOf_of_keepsToLine {part : Part} (keeps : part.keepsToLine = true) :
    part.MadeOf (· ≠ '\n') := by
  induction part with
  | empty | anchor | lookAhead | lookBehind => trivial
  | one test =>
    rintro c accepted rfl
    rw [keepsToLine, accepted] at keeps
    cases keeps
  | group body induction => exact induction keeps
  | capture index body induction => exact induction keeps
  | atomic body induction => exact induction keeps
  | repeated eagerness least most body induction => exact induction keeps
  | sequence first second inFirst inSecond =>
    exact (Bool.and_eq_true_iff.mp keeps).imp inFirst inSecond
  | choice first second inFirst inSecond =>
    exact (Bool.and_eq_true_iff.mp keeps).imp inFirst inSecond
  | conditional index met unmet inMet inUnmet =>
    exact (Bool.and_eq_true_iff.mp keeps).imp inMet inUnmet
  | reference => cases keeps

/-! ## One place in a text and in its line -/

/-- The same place in a text and in one of its lines, with what stands around the line in the
text. -/
structure InLine (front back : List Char) (inText inLine : Match) : Prop
    extends SeesAlike back front.length inText inLine where
  before : inText.cursor.before = inLine.cursor.before ++ front
  counted : inLine.cursor.index = inLine.cursor.before.length

variable {front back : List Char} {inText inLine : Match}

theorem Anchor.holds_inLine {place : Anchor} (keeps : place.keepsToLine = true)
    (stopsFront : Text.LineStops front) (stopsBack : Text.LineStops back)
    (same : InLine front back inText inLine) :
    place.holds inText.cursor = place.holds inLine.cursor := by
  cases place with
  | lineStart => 
    rw [holds, same.before]
    exact Text.all_head?_append_of_lineStops stopsFront _
  | lineEnd =>
    rw [holds, same.after]
    exact Text.all_head?_append_of_lineStops stopsBack _
  | boundary asciiOnly =>
    have noWord : (if asciiOnly then isAsciiWord '\n' else Text.isWord '\n') = false := by
      cases asciiOnly <;> decide +kernel
    simp only [holds, same.before, same.after]
    rw [Text.any_head?_append_of_lineStops stopsFront noWord,
      Text.any_head?_append_of_lineStops stopsBack noWord]
  | textStart | textEnd | lastLineEnd | noBoundary => cases keeps

theorem one_inLine {test : Single} (keeps : (Part.one test).keepsToLine = true)
    (stopsBack : Text.LineStops back) (same : InLine front back inText inLine) :
    List.Forall₂ (InLine front back) ((Part.one test).ends inText)
      ((Part.one test).ends inLine) := by
  rw [Part.ends, Part.ends, Cursor.next?, Cursor.next?, same.after]
  cases inLine.cursor.after with
  | nil =>
    rcases Text.lineStops_iff.mp stopsBack with rfl | ⟨rest, rfl⟩
    · exact .nil
    · rw [Part.keepsToLine, Bool.not_eq_true'] at keeps
      simp only [List.nil_append, keeps, Bool.false_eq_true, if_false]
      exact .nil
  | cons c rest =>
    simp only [List.cons_append]
    split
    · refine .cons ⟨⟨rfl, ?_, same.captures⟩, ?_, ?_⟩ .nil
      · simp only [Match.moved, same.index]
        omega
      · simp [Match.moved, same.before]
      · simp [Match.moved, same.counted]
    · exact .nil

/-! ## Looking back -/

theorem Cursor.isSome_back?_iff {cursor : Cursor} {count : Nat} :
    (cursor.back? count).isSome = true ↔ count ≤ cursor.before.length := by
  induction count generalizing cursor with
  | zero => simp [back?]
  | succ count induction =>
    rw [back?]
    cases known : cursor.before with
    | nil => simp
    | cons c rest => simp [induction]

theorem Cursor.passes_of_back? {cursor earlier : Cursor} {count : Nat}
    (counted : cursor.index = cursor.before.length)
    (back : cursor.back? count = some earlier) :
    earlier.index = earlier.before.length ∧
      ∃ word, word.length = count ∧ earlier.Passes word cursor := by
  induction count generalizing cursor with
  | zero =>
    cases back
    exact ⟨counted, [], rfl, .stay earlier⟩
  | succ count induction =>
    rw [back?] at back
    cases known : cursor.before with
    | nil =>
      rw [known] at back
      cases back
    | cons c rest =>
      rw [known] at back counted
      rw [List.length_cons] at counted
      obtain ⟨countedEarlier, word, length, passes⟩ := induction (by simp [counted]) back
      refine ⟨countedEarlier, word ++ [c], by rw [List.length_append, length]; rfl,
        passes.trans ⟨?_, rfl, ?_⟩⟩
      · rw [known]
        rfl
      · simp [counted]

theorem InLine.ofPasses {earlierInText earlierInLine : Cursor} {word word' : List Char}
    (same : InLine front back inText inLine)
    (passesInText : earlierInText.Passes word inText.cursor)
    (passesInLine : earlierInLine.Passes word' inLine.cursor)
    (length : word.length = word'.length)
    (counted : earlierInLine.index = earlierInLine.before.length) :
    InLine front back (inText.moved earlierInText) (inLine.moved earlierInLine) := by
  have before := passesInText.before
  rw [same.before, passesInLine.before, List.append_assoc] at before
  obtain ⟨sameWord, sameBefore⟩ := List.append_inj before (by simp [length])
  obtain rfl : word' = word := List.reverse_injective sameWord
  have index := passesInText.index
  rw [same.index, passesInLine.index] at index
  refine ⟨⟨?_, ?_, same.captures⟩, sameBefore.symm, counted⟩
  · rw [Match.moved, Match.moved, passesInText.after, same.after, passesInLine.after,
      List.append_assoc]
  · simp only [Match.moved]
    omega

/-- What would have to be looked at beyond the start of the line is not matched in the text. -/
theorem ends_eq_nil_of_beyond {body : Part} (keeps : body.keepsToLine = true)
    (stopsFront : Text.LineStops front) (same : InLine front back inText inLine)
    (beyond : inLine.cursor.before.length < body.width.least) {earlier : Cursor}
    {word : List Char} (length : word.length = body.width.least)
    (passes : earlier.Passes word inText.cursor) : body.ends (inText.moved earlier) = [] := by
  rw [List.eq_nil_iff_forall_not_mem]
  intro after member
  obtain ⟨taken, spells, passesTaken⟩ := body.spells_of_mem_ends _ after member
  have madeOf := Part.madeOf_of_keepsToLine keeps
  have long := madeOf.least_le_length spells
  have covers : word <+: taken := by
    have both : taken ++ after.cursor.after = word ++ inText.cursor.after := by
      rw [← passesTaken.after, ← passes.after]
      rfl
    exact List.prefix_of_prefix_length_le ⟨_, both.symm⟩ ⟨_, rfl⟩ (length ▸ long)
  have newline : '\n' ∈ word := by
    have before := passes.before
    rw [same.before] at before
    rcases Text.lineStops_iff.mp stopsFront with rfl | ⟨rest, rfl⟩
    · have whole := congrArg List.length before
      simp only [List.length_append, List.length_reverse, List.length_nil] at whole
      omega
    · have reaches : inLine.cursor.before ++ ['\n'] <+: word.reverse := by
        refine List.prefix_of_prefix_length_le ⟨rest, ?_⟩ ⟨_, before.symm⟩ ?_
        · rw [List.append_assoc, List.singleton_append]
        · rw [List.length_append, List.length_reverse, List.length_singleton]
          omega
      refine List.mem_reverse.mp (reaches.subset ?_)
      exact List.mem_append_right _ (List.mem_singleton_self _)
  exact madeOf.mem spells (covers.subset newline) rfl

theorem InLine.moved {after after' : Match} (same : InLine front back inText inLine)
    (sameAfter : InLine front back after after') :
    InLine front back (after.moved inText.cursor) (after'.moved inLine.cursor) :=
  ⟨⟨same.after, same.index, sameAfter.captures⟩, same.before, same.counted⟩

/-! ## Ends -/

theorem lookBehind_inLine {positive : Bool} {body : Part} (keeps : body.keepsToLine = true)
    (stopsFront : Text.LineStops front)
    (each : ∀ inText inLine, InLine front back inText inLine →
      List.Forall₂ (InLine front back) (body.ends inText) (body.ends inLine))
    (same : InLine front back inText inLine) :
    List.Forall₂ (InLine front back) ((Part.lookBehind positive body).ends inText)
      ((Part.lookBehind positive body).ends inLine) := by
  have seen : Option.Rel (InLine front back)
      ((inText.cursor.back? body.width.least).bind fun cursor =>
        body.run (inText.moved cursor) some)
      ((inLine.cursor.back? body.width.least).bind fun cursor =>
        body.run (inLine.moved cursor) some) := by
    have counted : inText.cursor.index = inText.cursor.before.length := by
      rw [same.index, same.counted, same.before, List.length_append]
    by_cases within : body.width.least ≤ inLine.cursor.before.length
    · obtain ⟨earlierInLine, isEarlierInLine⟩ :=
        Option.isSome_iff_exists.mp (Cursor.isSome_back?_iff.mpr within)
      have withinText : body.width.least ≤ inText.cursor.before.length := by
        rw [same.before, List.length_append]
        exact Nat.le_add_right_of_le within
      obtain ⟨earlierInText, isEarlierInText⟩ :=
        Option.isSome_iff_exists.mp (Cursor.isSome_back?_iff.mpr withinText)
      obtain ⟨countedEarlier, word', length', passesInLine⟩ :=
        Cursor.passes_of_back? same.counted isEarlierInLine
      obtain ⟨-, word, length, passesInText⟩ := Cursor.passes_of_back? counted isEarlierInText
      have sameEarlier :=
        same.ofPasses passesInText passesInLine (length.trans length'.symm) countedEarlier
      rw [isEarlierInText, isEarlierInLine, Option.bind_some, Option.bind_some, Part.run_some,
        Part.run_some]
      exact optionRel_head? (each _ _ sameEarlier)
    · have notInLine : inLine.cursor.back? body.width.least = none := by
        rwa [← Option.not_isSome_iff_eq_none, Cursor.isSome_back?_iff]
      rw [notInLine, Option.bind_none]
      cases isEarlier : inText.cursor.back? body.width.least with
      | none => exact .none
      | some earlier =>
        obtain ⟨-, word, length, passes⟩ := Cursor.passes_of_back? counted isEarlier
        rw [Option.bind_some, Part.run_some,
          ends_eq_nil_of_beyond keeps stopsFront same (Nat.lt_of_not_le within) length passes]
        exact .none
  rw [Part.ends, Part.ends, Part.run_lookBehind, Part.run_lookBehind]
  exact forall₂_toList (lookedAround_related same (fun _ _ => same.moved) seen positive)

theorem Part.ends_inLine {part : Part} (keeps : part.keepsToLine = true)
    (stopsFront : Text.LineStops front) (stopsBack : Text.LineStops back)
    (same : InLine front back inText inLine) :
    List.Forall₂ (InLine front back) (part.ends inText) (part.ends inLine) := by
  induction part generalizing inText inLine with
  | empty => exact .cons same .nil
  | one test => exact one_inLine keeps stopsBack same
  | anchor place =>
    rw [ends, ends, Anchor.holds_inLine keeps stopsFront stopsBack same]
    split
    · exact .cons same .nil
    · exact .nil
  | group body induction => exact induction keeps same
  | capture index body induction =>
    rw [ends, ends, List.forall₂_map_left_iff, List.forall₂_map_right_iff]
    have behind : ∀ after ∈ body.ends inText, ∃ word, inText.cursor.Passes word after.cursor := by
      intro after member
      obtain ⟨word, -, passes⟩ := body.spells_of_mem_ends inText after member
      exact ⟨word, passes⟩
    refine ((List.forall₂_and_left _ _).mpr ⟨behind, induction keeps same⟩).imp ?_
    rintro after after' ⟨⟨word, passes⟩, sameAfter⟩
    exact ⟨record_alike same.toSeesAlike sameAfter.toSeesAlike passes index, sameAfter.before,
      sameAfter.counted⟩
  | sequence first second inFirst inSecond =>
    obtain ⟨keepsFirst, keepsSecond⟩ := Bool.and_eq_true_iff.mp keeps
    exact List.rel_flatMap (inFirst keepsFirst same) fun _ _ same => inSecond keepsSecond same
  | choice first second inFirst inSecond =>
    obtain ⟨keepsFirst, keepsSecond⟩ := Bool.and_eq_true_iff.mp keeps
    exact List.rel_append (inFirst keepsFirst same) (inSecond keepsSecond same)
  | repeated eagerness least most body induction =>
    have shifted (left right : Match) (same : InLine front back left right) := same.index
    have longer : inLine.cursor.after.length ≤ inText.cursor.after.length := by
      rw [same.after, List.length_append]
      exact Nat.le_add_right _ _
    have rounds (lazy : Bool) : List.Forall₂ (InLine front back)
        (roundEnds body.ends least most lazy (roundBound least inText) 0 none inText)
        (roundEnds body.ends least most lazy (roundBound least inLine) 0 none inLine) := by
      -- The text gives more rounds, which the line has no use for.
      have own := roundsLeft_lt_roundBound least inLine
      have more : roundsLeft least 0 none inLine < roundBound least inText := by
        rw [roundBound] at own ⊢
        omega
      rw [roundEnds_eq_of_enough body.spells_of_mem_ends own more]
      exact roundEnds_related shifted (fun _ _ same => induction keeps same) least most lazy _ 0
        none same
    cases eagerness with
    | greedy => exact rounds false
    | lazy => exact rounds true
    | possessive =>
      have sound (found after : Match) (first : body.run found some = some after) :
          ∃ word, found.cursor.Passes word after.cursor := by
        rw [run_some] at first
        obtain ⟨word, -, passes⟩ := body.spells_of_mem_ends _ _ (List.mem_of_head? first)
        exact ⟨word, passes⟩
      have own : least - 0 + inLine.cursor.after.length <
          least + inLine.cursor.after.length + 2 := by omega
      have more : least - 0 + inLine.cursor.after.length <
          least + inText.cursor.after.length + 2 := by omega
      rw [ends, ends, run, run, Option.bind_fun_some, Option.bind_fun_some,
        possessiveRounds_eq_of_enough sound own more]
      refine forall₂_toList (possessiveRounds_related shifted ?_ least most _ 0 same)
      intro left right same
      rw [run_some, run_some]
      exact optionRel_head? (induction keeps same)
  | reference => cases keeps
  | lookAhead positive body induction =>
    rw [ends, ends, run_lookAhead, run_lookAhead, run_some, run_some]
    exact forall₂_toList (lookedAround_related same (fun _ _ => same.moved)
      (optionRel_head? (induction keeps same)) positive)
  | lookBehind positive body induction =>
    exact lookBehind_inLine keeps stopsFront (fun _ _ same => induction keeps same) same
  | atomic body induction =>
    rw [ends, ends, run, run, Option.bind_fun_some, Option.bind_fun_some, run_some, run_some]
    exact forall₂_toList (optionRel_head? (induction keeps same))
  | conditional index met unmet inMet inUnmet =>
    obtain ⟨keepsMet, keepsUnmet⟩ := Bool.and_eq_true_iff.mp keeps
    rw [ends, ends, Match.capture?, Match.capture?, same.captures]
    split
    · exact inMet keepsMet same
    · exact inUnmet keepsUnmet same

/-! ## Searching -/

theorem occursIn_eq_false_iff_lines {pattern : Pattern} (keeps : pattern.part.keepsToLine = true)
    {text : List Char} :
    pattern.occursIn text = false ↔ ∀ line ∈ Text.lines text, pattern.occursIn line = false := by
  have alike {front back inside behind : List Char} (stopsFront : Text.LineStops front)
      (stopsBack : Text.LineStops back) :
      pattern.part.ends ⟨⟨inside ++ front, behind ++ back, (inside ++ front).length⟩, []⟩ = [] ↔
        pattern.part.ends ⟨⟨inside, behind, inside.length⟩, []⟩ = [] := by
    have place : InLine front back
        ⟨⟨inside ++ front, behind ++ back, (inside ++ front).length⟩, []⟩
        ⟨⟨inside, behind, inside.length⟩, []⟩ :=
      ⟨⟨rfl, List.length_append, rfl⟩, rfl, rfl⟩
    have same := Part.ends_inLine keeps stopsFront stopsBack place
    constructor
    · intro nowhere
      rw [nowhere] at same
      exact List.forall₂_nil_left_iff.mp same
    · intro nowhere
      rw [nowhere] at same
      exact List.forall₂_nil_right_iff.mp same
  simp only [occursIn_eq_false_iff, Cursor.isIn_iff]
  constructor
  · rintro nowhere line member cursor ⟨inside, behind, rfl, rfl⟩
    obtain ⟨-, front, back, rfl, stopsFront, stopsBack⟩ := Text.mem_lines_iff.mp member
    rw [← List.length_reverse, ← alike stopsFront stopsBack]
    exact nowhere _ ⟨front.reverse ++ inside, behind ++ back, by simp, by simp [Nat.add_comm]⟩
  · rintro nowhere cursor ⟨before, after, rfl, rfl⟩
    obtain ⟨inside, front, split, freeInside, stopsFront⟩ := Text.exists_rest_of_line before.reverse
    obtain ⟨behind, back, rfl, freeBehind, stopsBack⟩ := Text.exists_rest_of_line after
    rw [← List.length_reverse, split, alike stopsFront stopsBack]
    have isBefore : before = front.reverse ++ inside.reverse := by
      rw [← List.reverse_append, ← split, List.reverse_reverse]
    refine nowhere (inside.reverse ++ behind) ?_ _ ⟨inside.reverse, behind, rfl, by simp⟩
    rw [Text.mem_lines_iff]
    refine ⟨by simp [freeInside, freeBehind], front, back, ?_, stopsFront, stopsBack⟩
    rw [isBefore]
    simp

end Pattern

end DocAudit
