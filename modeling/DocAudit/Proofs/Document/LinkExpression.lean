import DocAudit.Proofs.Document.LinkGrammar
import DocAudit.Proofs.Pattern.Seen
import DocAudit.Proofs.Pattern.SingleTests

/-!
The regular expression of links. Its first repetition can end at the first closing bracket only, its
second one three characters before the first closing parenthesis, so it never has to choose: a match
begins exactly where a link is written, and a search finds just the links of a line.
-/

namespace DocAudit.LinkSyntax

open Pattern StandardPatterns

/-- What stands between the parentheses of a link. -/
def targetPart : Part :=
  .ofList [.repeated .greedy 1 none (.one (allBut ')')), letter '.', letter 'm', letter 'd']

def linkPart : Part :=
  .ofList [letter '[', .capture 1 (.repeated .greedy 1 none (.one (allBut ']'))), letter ']',
    letter '(', .capture 2 targetPart, letter ')']

def expression : Pattern := ⟨linkPart, []⟩

def expressionText : String := "\\[([^\\]]+)\\]\\(([^)]+\\.md)\\)"

theorem parse_expression : Pattern.parse expressionText.toList = .ok expression := by
  decide +kernel

theorem isSolid_expression : expression.IsSolid := by
  constructor <;> decide +kernel

/-! ## Where the expression ends -/

variable {found after : Match} {line text target : List Char}

theorem mem_ends_letters {c : Char} {part : Part} :
    after ∈ (Part.sequence (letter c) part).ends found ↔
      ∃ between, found.Moves [c] between ∧ after ∈ part.ends between := by
  rw [mem_ends_sequence]
  simp only [mem_ends_letter]

/-- What may stand between the parentheses of a link. -/
structure IsTarget (target : List Char) : Prop where
  inParentheses : ')' ∉ target
  longer : extension.length < target.length
  markdown : extension <:+ target

theorem isTarget_iff :
    IsTarget target ↔ ∃ name, name ≠ [] ∧ ')' ∉ name ∧ target = name ++ extension := by
  constructor
  · rintro ⟨inParentheses, longer, name, rfl⟩
    refine ⟨name, ?_, fun member => inParentheses (List.mem_append_left _ member), rfl⟩
    rintro rfl
    exact Nat.lt_irrefl _ longer
  · rintro ⟨name, nonempty, absent, rfl⟩
    refine ⟨?_, ?_, List.suffix_append name extension⟩
    · rw [List.mem_append, not_or]
      exact ⟨absent, by decide⟩
    · have length := List.length_pos_of_ne_nil nonempty
      rw [List.length_append]
      omega

theorem forall_accepts_allBut_iff {c : Char} {word : List Char} :
    (∀ other ∈ word, (allBut c).accepts other = true) ↔ c ∉ word := by
  simp only [accepts_allBut_iff]
  exact ⟨fun others member => others c member rfl, fun absent other member same =>
    absent (same ▸ member)⟩

theorem mem_ends_targetPart :
    after ∈ targetPart.ends found ↔ ∃ target, IsTarget target ∧ found.Moves target after := by
  have behindName {between : Match} :
      after ∈ (Part.ofList [letter '.', letter 'm', letter 'd']).ends between ↔
        between.Moves extension after := by
    simp only [Part.ofList, mem_ends_letters, mem_ends_letter]
    rw [extension, Match.Moves.cons_iff]
    refine exists_congr fun dotted => and_congr_right fun _ => ?_
    exact Match.Moves.cons_iff.symm
  change after ∈ (Part.sequence _ (Part.ofList [letter '.', letter 'm', letter 'd'])).ends found ↔ _
  rw [mem_ends_sequence]
  simp only [mem_ends_greedy, behindName, isTarget_iff, forall_accepts_allBut_iff]
  constructor
  · rintro ⟨between, ⟨name, long, absent, moves⟩, further⟩
    exact ⟨name ++ extension, ⟨name, List.ne_nil_of_length_pos long, absent, rfl⟩,
      moves.trans further⟩
  · rintro ⟨_, ⟨name, nonempty, absent, rfl⟩, moves⟩
    obtain ⟨between, first, further⟩ := Match.Moves.append_iff.mp moves
    exact ⟨between, ⟨name, List.length_pos_of_ne_nil nonempty, absent, first⟩, further⟩

/-- What is seen of a link: all of it, and its target and its text as they have been recorded. -/
def view (text target : List Char) : View :=
  ('[' :: (text ++ ']' :: '(' :: (target ++ [')'])), [(2, target), (1, text)])

theorem captures_record {between inner : Match} {word : List Char}
    (moves : between.Moves word inner) (index : Nat) :
    (between.record index inner).captures = (index, word) :: between.captures := by
  rw [Match.record, moves.1.textTo, moves.2]

theorem mem_ends_linkPart {cursor : Cursor} :
    after ∈ linkPart.ends ⟨cursor, []⟩ ↔
      ∃ text target, text ≠ [] ∧ ']' ∉ text ∧ IsTarget target ∧
        cursor.Passes (view text target).1 after.cursor ∧
        after.captures = (view text target).2 := by
  change after ∈ (Part.sequence (letter '[') (.sequence (.capture 1 _) (.sequence (letter ']')
    (.sequence (letter '(') (.sequence (.capture 2 targetPart) (letter ')')))))).ends _ ↔ _
  simp only [mem_ends_sequence, mem_ends_capture, mem_ends_greedy, mem_ends_targetPart,
    mem_ends_letter, forall_accepts_allBut_iff]
  constructor
  · rintro ⟨opened, opens, _, ⟨inText, ⟨text, long, absent, moves⟩, rfl⟩, closed, closes, begun,
      begins, _, ⟨inTarget, ⟨target, isTarget, further⟩, rfl⟩, ends⟩
    refine ⟨text, target, List.ne_nil_of_length_pos long, absent, isTarget, ?_, ?_⟩
    · have toText := (opens.1.trans moves.1).trans closes.1
      have toTarget := (toText.trans begins.1).trans (further.1.trans ends.1)
      simpa [view] using toTarget
    · rw [ends.2, captures_record further 2, begins.2, closes.2, captures_record moves 1, opens.2]
      rfl
  · rintro ⟨text, target, nonempty, absent, isTarget, passes, recorded⟩
    obtain ⟨opened, opens, passes⟩ := Cursor.passes_cons_iff_singleton.mp passes
    obtain ⟨inText, moves, passes⟩ := Cursor.passes_append_iff.mp passes
    obtain ⟨closed, closes, passes⟩ := Cursor.passes_cons_iff_singleton.mp passes
    obtain ⟨begun, begins, passes⟩ := Cursor.passes_cons_iff_singleton.mp passes
    obtain ⟨inTarget, further, ends⟩ := Cursor.passes_append_iff.mp passes
    have sameText : opened.textTo inText = text := moves.textTo
    have sameTarget : begun.textTo inTarget = target := further.textTo
    exact ⟨⟨opened, []⟩, ⟨opens, rfl⟩, _, ⟨⟨inText, []⟩, ⟨text, List.length_pos_of_ne_nil nonempty,
      absent, moves, rfl⟩, rfl⟩, ⟨closed, [(1, text)]⟩, ⟨closes, by rw [Match.record, sameText]⟩,
      ⟨begun, [(1, text)]⟩, ⟨begins, rfl⟩, _, ⟨⟨inTarget, [(1, text)]⟩, ⟨target, isTarget, further,
      rfl⟩, rfl⟩, ends, by rw [recorded, Match.record, sameTarget]; rfl⟩

/-! ## What a search finds -/

theorem exists_beginsWith_iff {cursor : Cursor} :
    (∃ rest, BeginsWith cursor.after text target rest) ↔
      text ≠ [] ∧ ']' ∉ text ∧ IsTarget target ∧
        ∃ later, cursor.Passes (view text target).1 later := by
  constructor
  · rintro ⟨rest, link⟩
    refine ⟨link.nonempty, link.inBrackets, ⟨link.inParentheses, link.longer, link.markdown⟩,
      ⟨(view text target).1.reverse ++ cursor.before, rest,
        cursor.index + (view text target).1.length⟩, rfl, ?_, rfl⟩
    rw [link.written]
    simp [view]
  · rintro ⟨nonempty, inBrackets, isTarget, later, passes⟩
    refine ⟨later.after, ?_, nonempty, inBrackets, isTarget.inParentheses, isTarget.longer,
      isTarget.markdown⟩
    rw [passes.after]
    simp [view]

/-- A match begins a text exactly where a link does, and it records that link. -/
theorem glimpse_expression (line : List Char) :
    expression.glimpse line = (linkAt? line).map fun link => view link.1 link.2 := by
  have recorded {finish : Match} (member : finish ∈ linkPart.ends ⟨.start line, []⟩) :
      ∃ text target, linkAt? line = some (text, target) ∧
        Found.view ⟨.start line, finish⟩ = view text target := by
    obtain ⟨text, target, nonempty, inBrackets, isTarget, passes, captured⟩ :=
      mem_ends_linkPart.mp member
    have begun : ∃ rest, BeginsWith line text target rest := exists_beginsWith_iff.mpr
      ⟨nonempty, inBrackets, isTarget, finish.cursor, passes⟩
    refine ⟨text, target, linkAt?_eq_some_iff.mpr begun, ?_⟩
    rw [Found.view, Found.text, passes.textTo, captured]
  rw [glimpse, matchStart?, matchAt?_eq isSolid_expression, Option.map_map]
  change (linkPart.ends ⟨.start line, []⟩).head?.map _ = _
  cases ends : linkPart.ends ⟨.start line, []⟩ with
  | nil =>
    cases found : linkAt? line with
    | none => rfl
    | some link =>
      have begun : ∃ rest, BeginsWith (Cursor.start line).after link.1 link.2 rest :=
        linkAt?_eq_some_iff.mp found
      obtain ⟨nonempty, inBrackets, isTarget, later, passes⟩ := exists_beginsWith_iff.mp begun
      have member : (⟨later, (view link.1 link.2).2⟩ : Match) ∈ linkPart.ends ⟨.start line, []⟩ :=
        mem_ends_linkPart.mpr ⟨_, _, nonempty, inBrackets, isTarget, passes, rfl⟩
      rw [ends] at member
      cases member
  | cons finish further =>
    obtain ⟨text, target, found, same⟩ := recorded (ends ▸ List.mem_cons_self)
    rw [found]
    exact congrArg some same

theorem seenFrom_expression (covered : Nat) (line : List Char) :
    expression.seenFrom covered line =
      (linksFrom covered line).map fun link => view link.1 link.2 := by
  induction line generalizing covered with
  | nil => rfl
  | cons c rest induction =>
    cases covered with
    | succ covered => exact induction covered
    | zero =>
      rw [seenFrom, linksFrom, glimpse_expression]
      cases linkAt? (c :: rest) with
      | none => exact induction 0
      | some link =>
        have length : (view link.1 link.2).1.length = linkLength link.1 link.2 := by
          simp only [view, linkLength, List.length_cons, List.length_append, List.length_nil]
          omega
        simp only [Option.map_some, List.map_cons, induction, length]

/-- What a match has recorded as the text and the target of a link. -/
def captured (found : Found) : Option (List Char) × Option (List Char) :=
  (found.finish.capture? 1, found.finish.capture? 2)

/-- A search for the expression finds the links of a line, all of them and in their order. -/
theorem map_captured_findAll (line : List Char) :
    (expression.findAll line).map captured =
      (links line).map fun link => (some link.1, some link.2) := by
  have views := (map_view_findAll isSolid_expression line).trans (seenFrom_expression 0 line)
  have recorded := congrArg (List.map fun seen : View => (seen.2.lookup 1, seen.2.lookup 2)) views
  rw [List.map_map, List.map_map] at recorded
  exact recorded

end DocAudit.LinkSyntax
