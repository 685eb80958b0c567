import DocAudit.Proofs.Traceability.Completeness
import DocAudit.Proofs.Traceability.PairedExpression

/-!
What a test case names on its line. The requirement in the pasted expression is told apart from what
stands around it: what it takes is what its own expression matches at the same place of the line.
-/

namespace DocAudit

def Fault.IsBadPattern : Fault → Prop
  | .badPattern .. => True
  | _ => False

namespace Traceability

open Pattern StandardPatterns

/-! ## The bracket behind a requirement -/

theorem ends_bracket (c : Char) (found : Match) :
    (bracket c).ends found = (letter c).ends found ++ [found] := by
  have last (bound place : Nat) :
      roundEnds (letter c).ends 0 (some 1) false (bound + 1) 1 (some place) =
        fun after => [after] := by
    funext after
    rw [roundEnds]
    rfl
  change roundEnds (letter c).ends 0 (some 1) false (roundBound 0 found) 0 none found = _
  rw [roundBound, roundEnds]
  change ((letter c).ends found).flatMap (roundEnds (letter c).ends 0 (some 1) false
    (0 + found.cursor.after.length + 1) 1 (some found.cursor.index)) ++ [found] = _
  rw [last, List.flatMap_singleton']

/-- What one character moves over records nothing. -/
theorem captures_of_mem_ends_letter {c : Char} {found after : Match}
    (member : after ∈ (letter c).ends found) :
    after.captures = found.captures ∧ after.cursor.index = found.cursor.index + 1 := by
  rw [letter, StandardPatterns.set, Part.ends] at member
  cases next : found.cursor.next? with
  | none =>
    rw [next] at member
    cases member
  | some further =>
    rw [next] at member
    dsimp only at member
    split at member
    · rw [List.mem_singleton.mp member]
      exact ⟨rfl, (Cursor.passes_of_next? next).index⟩
    · cases member

theorem isEmpty_ends_letter (c : Char) {left right : Match} (place : AtOnePlace left right) :
    ((letter c).ends left).isEmpty = ((letter c).ends right).isEmpty := by
  rw [letter, StandardPatterns.set, Part.ends, Part.ends, place]
  cases right.cursor.next? with
  | none => rfl
  | some next =>
    dsimp only
    split <;> rfl

/-- How a match is accepted that began at a place, where it may have to be more than empty. -/
def acceptFrom (cursor : Cursor) (advance : Bool) (found : Match) : Option Match :=
  if advance && found.cursor.index == cursor.index then none else some found

theorem acceptFrom_eq_some {cursor : Cursor} {advance : Bool} {found answer : Match}
    (accepted : acceptFrom cursor advance found = some answer) : answer = found := by
  rw [acceptFrom] at accepted
  split at accepted
  · cases accepted
  · exact (Option.some.inj accepted).symm

theorem isSome_acceptFrom (cursor : Cursor) (advance : Bool) (found : Match) :
    (acceptFrom cursor advance found).isSome =
      !(advance && found.cursor.index == cursor.index) := by
  rw [acceptFrom]
  split
  · next empty => rw [empty]; rfl
  · next counts => rw [Bool.not_eq_true] at counts; rw [counts]; rfl

section Bracket

variable {c : Char} {cursor : Cursor} {advance : Bool} {found answer : Match}

/-- An empty match is refused unless a bracket can still follow. -/
theorem isSome_run_bracket (behind : cursor.index ≤ found.cursor.index) :
    ((bracket c).run found (acceptFrom cursor advance)).isSome =
      !(advance && found.cursor.index == cursor.index && ((letter c).ends found).isEmpty) := by
  rw [Part.run_eq_findSome?, ends_bracket]
  cases ends : (letter c).ends found with
  | nil => rw [List.nil_append, List.findSome?_singleton, isSome_acceptFrom, List.isEmpty_nil,
      Bool.and_true]
  | cons after rest =>
    have moved := (captures_of_mem_ends_letter (ends ▸ List.mem_cons_self)).2
    have counts : (advance && after.cursor.index == cursor.index) = false := by
      rw [Bool.and_eq_false_iff, beq_eq_false_iff_ne]
      exact .inr (by omega)
    rw [List.cons_append, List.findSome?_cons, acceptFrom, counts]
    simp

theorem captures_of_run_bracket
    (ran : (bracket c).run found (acceptFrom cursor advance) = some answer) :
    answer.captures = found.captures ∧ found.cursor.index ≤ answer.cursor.index := by
  rw [Part.run_eq_findSome?, ends_bracket] at ran
  obtain ⟨after, member, accepted⟩ := List.exists_of_findSome?_eq_some ran
  rw [acceptFrom_eq_some accepted]
  rcases List.mem_append.mp member with moved | stayed
  · obtain ⟨captures, index⟩ := captures_of_mem_ends_letter moved
    exact ⟨captures, by omega⟩
  · rw [List.mem_singleton.mp stayed]
    exact ⟨rfl, Nat.le_refl _⟩

end Bracket

/-! ## The requirement in a pairing -/

theorem exists_of_run_eq_some {part : Part} {found answer : Match} {rest : Match → Option Match}
    (ran : part.run found rest = some answer) :
    ∃ word after, found.cursor.Passes word after.cursor ∧ rest after = some answer := by
  rw [Part.run_eq_findSome?] at ran
  obtain ⟨after, member, accepted⟩ := List.exists_of_findSome?_eq_some ran
  obtain ⟨word, -, passes⟩ := part.spells_of_mem_ends _ _ member
  exact ⟨word, after, passes, accepted⟩

theorem exists_of_run_requirement {requirement : Part} (nowhere : requirement.refersNowhere = true)
    {group : Nat} {cursor : Cursor} {advance : Bool} {found answer : Match}
    (behind : cursor.index ≤ found.cursor.index)
    (ran : (Part.capture group (requirement.renumber group)).run found (fun after =>
      (bracket ']').run after (acceptFrom cursor advance)) = some answer)
    (names : List (List Char × Nat)) :
    ∃ advance accepted, matchAt? ⟨requirement, names⟩ found.cursor advance = some accepted ∧
      answer.capture? group = some accepted.text ∧
      accepted.finish.cursor.index ≤ answer.cursor.index := by
  rw [Part.run_eq_findSome?, Part.ends, List.findSome?_map] at ran
  have related := Part.ends_renumber nowhere group
    (show AtOnePlace found ⟨found.cursor, []⟩ from rfl)
  let advance' := advance && found.cursor.index == cursor.index &&
    ((letter ']').ends found).isEmpty
  have alike : ∀ first ∈ (requirement.renumber group).ends found, ∀ second,
      AtOnePlace first second → (acceptFrom found.cursor advance' second).isSome =
        ((bracket ']').run (found.record group first) (acceptFrom cursor advance)).isSome := by
    intro first member second place
    obtain ⟨word, -, passes⟩ := (requirement.renumber group).spells_of_mem_ends _ _ member
    have index : (found.record group first).cursor.index = second.cursor.index :=
      congrArg Cursor.index place
    have further : found.cursor.index ≤ second.cursor.index := index ▸ passes.index_le
    rw [isSome_acceptFrom, isSome_run_bracket (by omega), index]
    by_cases empty : second.cursor.index = found.cursor.index
    · have samePlace : AtOnePlace (found.record group first) found := by
        have length : second.cursor.index = found.cursor.index + word.length :=
          index ▸ passes.index
        obtain rfl : word = [] := List.length_eq_zero_iff.mp (by omega)
        exact Cursor.passes_nil_iff.mp passes
      rw [isEmpty_ends_letter ']' samePlace, empty, beq_self_eq_true, Bool.and_true]
    · have notEmpty : (second.cursor.index == found.cursor.index) = false :=
        beq_eq_false_iff_ne.mpr empty
      have counts : (second.cursor.index == cursor.index) = false :=
        beq_eq_false_iff_ne.mpr (by omega)
      rw [notEmpty, counts]
      simp
  obtain ⟨first, member, second, place, accepted, answer', accepted', firstFound⟩ :=
    exists_of_findSome?_related related alike ran
  obtain rfl := acceptFrom_eq_some accepted'
  obtain ⟨captures, index⟩ := captures_of_run_bracket accepted
  refine ⟨advance', ⟨found.cursor, answer'⟩, ?_, ?_, ?_⟩
  · rw [matchAt?, Part.run_eq_findSome?]
    change (List.findSome? (acceptFrom found.cursor advance') _).map _ = _
    rw [firstFound]
    rfl
  · rw [Match.capture?, captures]
    change List.lookup group ((group, found.cursor.textTo first.cursor) :: first.captures) = _
    rw [List.lookup_cons_self, place]
    rfl
  · rw [← show first.cursor.index = answer'.cursor.index from congrArg Cursor.index place]
    exact index

/-- A match of the pasted expression has a place where the requirement alone matches what the match
names. -/
theorem exists_of_matchAt?_pairing {testCase requirement : Part}
    (nowhere : requirement.refersNowhere = true) {group : Nat}
    {names names' : List (List Char × Nat)}
    {cursor : Cursor} {advance : Bool} {found : Found}
    (matched : matchAt? ⟨pairingPart testCase requirement group, names⟩ cursor advance =
      some found) :
    ∃ word place advance accepted, cursor.Passes word place ∧
      matchAt? ⟨requirement, names'⟩ place advance = some accepted ∧
      found.finish.capture? group = some accepted.text ∧
      accepted.finish.cursor.index ≤ found.finish.cursor.index := by
  rw [matchAt?] at matched
  obtain ⟨finish, ran, rfl⟩ := Option.map_eq_some_iff.mp matched
  change (Part.capture 1 (testCase.renumber 1)).run ⟨cursor, []⟩ (fun afterTestCase =>
    (Part.repeated .lazy 0 none (.one .anyInLine)).run afterTestCase fun between =>
      (bracket '[').run between fun place =>
        (Part.capture group (requirement.renumber group)).run place fun after =>
          (bracket ']').run after (acceptFrom cursor advance)) = some finish at ran
  obtain ⟨word, afterTestCase, passes, ran⟩ := exists_of_run_eq_some ran
  obtain ⟨gap, between, passesGap, ran⟩ := exists_of_run_eq_some ran
  obtain ⟨bracket, place, passesBracket, ran⟩ := exists_of_run_eq_some ran
  have toPlace := passes.trans (passesGap.trans passesBracket)
  obtain ⟨advance', accepted, acceptedThere, captured, index⟩ :=
    exists_of_run_requirement nowhere toPlace.index_le ran names'
  exact ⟨_, place.cursor, advance', accepted, toPlace, acceptedThere, captured, index⟩

/-! ## Faults -/

abbrev NoBadPattern {α : Type} (outcome : Except Fault α) : Prop :=
  FailsOnly (¬ ·.IsBadPattern) outcome

theorem noBadPattern_selectFiles (files : List String) (globs : Value) :
    NoBadPattern (selectFiles files globs) := by
  refine .filterM fun file _ => .bind ?_ fun items _ => .anyM fun glob _ => ?_
  · rw [Value.items.eq_def]
    cases globs with
    | list | tuple | text | table => exact .ok _
    | null | bool | int | float => exact .error id
  · rw [Value.matchesGlob.eq_def]
    cases glob with
    | text => exact .ok _
    | _ =>
      dsimp only
      split
      · exact .error id
      · exact .error id

theorem noBadPattern_document (docs : Docs) (file : String) :
    NoBadPattern (docs.document file) := by
  refine .bind (.bind ?_ fun bytes _ => ?_) fun text _ => .ok _
  · rw [Disk.readBytes]
    split
    · exact .ok _
    · exact .error id
    · exact .error id
    · exact .error id
  · split
    · exact .ok _
    · exact .error id

/-- Once its patterns have been read, a report does not fail over a regular expression. -/
theorem noBadPattern_coverage {options : Options} {patterns : IdPatterns}
    (compiled : IdPatterns.ofOptions options = .ok patterns) (docs : Docs) (files : List String) :
    NoBadPattern (coverage docs files options) := by
  rw [coverage, compiled]
  refine .bind (.ok patterns) fun _ _ => ?_
  refine .bind (noBadPattern_selectFiles _ _) fun _ _ => ?_
  refine .bind (noBadPattern_selectFiles _ _) fun _ _ => ?_
  refine .bind (.mapM fun file _ => noBadPattern_document docs file) fun _ _ => ?_
  exact .bind (.mapM fun file _ => noBadPattern_document docs file) fun _ _ => .ok _

/-! ## Pairing -/

/-- At a place of a line a pattern matches just a text, perhaps when asked for one that is not
empty. -/
def AcceptsIn (pattern : Pattern) (line id : List Char) : Prop :=
  ∃ cursor advance found, cursor.IsIn line ∧ pattern.matchAt? cursor advance = some found ∧
    found.text = id

/-- What is promised of a requirement in the expression of a pairing. -/
structure PairsFaithfully (options : Options) (requirement : Pattern) : Prop where
  compiles : ∃ paired, IdPatterns.ofOptions options = .ok ⟨requirement, paired⟩
  noBadPattern : ∀ docs files, NoBadPattern (coverage docs files options)
  pairs : ∀ patterns, IdPatterns.ofOptions options = .ok patterns → ∀ line,
    ∀ found ∈ patterns.paired.findAll line, ∃ cursor advance accepted, cursor.IsIn line ∧
      requirement.matchAt? cursor advance = some accepted ∧
      found.start.index ≤ cursor.index ∧
      accepted.finish.cursor.index ≤ found.finish.cursor.index ∧
      patterns.paired.named? found pairedName = some accepted.text
  covers : ∀ docs files report, coverage docs files options = .ok report → ∀ id ∈ report.covered,
    ∃ file ∈ report.testCaseFiles, ∃ line ∈ Text.lines (contentsOf docs file),
      AcceptsIn requirement line id

theorem coverage_pairs_faithfully (options : Options) (testCaseText requirementText : String)
    (testCase requirement : Pattern) (isTestCase : options.testCasePattern = .text testCaseText)
    (isRequirement : options.requirementPattern = .text requirementText)
    (testCaseAlone : IsSelfContained testCaseText.toList testCase)
    (requirementAlone : IsSelfContained requirementText.toList requirement)
    (apart : (requirement.names.map Prod.fst ++ pairedName ::
      (testCase.names.map Prod.fst ++ [testCaseName])).Nodup) :
    PairsFaithfully options requirement := by
  obtain ⟨testCaseLast, testCaseReads, testCaseNames⟩ := testCaseAlone.readsAlone
  obtain ⟨requirementLast, requirementReads, requirementNames⟩ := requirementAlone.readsAlone
  rw [← testCaseNames, ← requirementNames] at apart
  obtain ⟨group, names, parsed, named⟩ :=
    FitTogether.parse isTestCase isRequirement ⟨testCaseReads, requirementReads, apart⟩
  have compiled : IdPatterns.ofOptions options =
      .ok ⟨requirement, ⟨pairingPart testCase.part requirement.part group, names⟩⟩ := by
    rw [IdPatterns.ofOptions, isRequirement, pattern_of_parse requirementAlone.parse,
      pattern_of_parse parsed]
    rfl
  have pairs (line : List Char) (found : Found)
      (member : found ∈ findAll ⟨pairingPart testCase.part requirement.part group, names⟩ line) :
      ∃ cursor advance accepted, cursor.IsIn line ∧
        requirement.matchAt? cursor advance = some accepted ∧
        found.start.index ≤ cursor.index ∧
        accepted.finish.cursor.index ≤ found.finish.cursor.index ∧
        named? ⟨pairingPart testCase.part requirement.part group, names⟩ found pairedName =
          some accepted.text := by
    obtain ⟨startsIn, advance, matched⟩ := mem_findAll member
    obtain ⟨word, cursor, advance', accepted, passes, acceptedThere, captured, ends⟩ :=
      exists_of_matchAt?_pairing requirementReads.refersNowhere matched
    refine ⟨cursor, advance', accepted, startsIn.passes passes, acceptedThere, passes.index_le,
      ends, ?_⟩
    rw [named?, named, Option.bind_some, captured]
  refine ⟨⟨_, compiled⟩, noBadPattern_coverage compiled, ?_, ?_⟩
  · intro patterns compiledToo
    rw [compiled, Except.ok.injEq] at compiledToo
    subst compiledToo
    exact pairs
  · intro docs files report returned id covered
    obtain ⟨patterns, compiledToo, -, -, -, isReport⟩ := exists_of_coverage_eq_ok returned
    rw [compiled, Except.ok.injEq] at compiledToo
    subst compiledToo
    rw [isReport, mem_covered_reportOn_iff] at covered
    obtain ⟨file, isTested, line, isLine, alone | behind⟩ := covered
    · obtain ⟨found, member, rfl⟩ := alone
      obtain ⟨startsIn, advance, matched⟩ := mem_findAll member
      exact ⟨file, isTested, line, isLine, found.start, advance, found, startsIn, matched, rfl⟩
    · obtain ⟨found, member, names⟩ := behind
      obtain ⟨cursor, advance, accepted, isIn, acceptedThere, -, -, text⟩ := pairs line found member
      refine ⟨file, isTested, line, isLine, cursor, advance, accepted, isIn, acceptedThere, ?_⟩
      rw [text] at names
      exact Option.some.inj names

theorem coverage_pairs_faithfully_standard : PairsFaithfully {} requirement :=
  coverage_pairs_faithfully {} "TC-[UIEPSDX]\\d\x7b3\x7d" "FR-([A-Z]+-)*\\d\x7b3\x7d" testCase
    requirement rfl rfl ⟨parse_testCase, by decide +kernel, rfl⟩
    ⟨parse_requirement, by decide +kernel, rfl⟩ (by decide)

/-- Flags for a whole expression are refused inside the pasted one, and what asks for a capture by
its number asks for another one there. -/
theorem coverage_pairs_unfit_patterns :
    let docs : Docs :=
      { disk := { root := .folder [("docs", .folder [])], workingFolder := [] }
        root := .fromTop ["docs"] }
    let flagged : Options := { requirementPattern := .text "(?i)fr-\\d\x7b3\x7d" }
    let referring : Options := { requirementPattern := .text "([A-Z])-\\1" }
    let line := "TC-U001 A-TC-U001".toList
    (Succeeds flagged.requirementPattern.pattern ∧ Succeeds flagged.testCasePattern.pattern ∧
      ∃ stop text, coverage docs [] flagged = .error (.badPattern stop text)) ∧
    ∃ patterns, IdPatterns.ofOptions referring = .ok patterns ∧
      patterns.Yields line "A-TC-U001".toList ∧ patterns.requirement.occursIn line = false := by
  intro docs flagged referring line
  obtain ⟨flaggedAlone, flaggedParsed, -⟩ := exists_parse_of_any
    (show (Pattern.parse "(?i)fr-\\d\x7b3\x7d".toList).toOption.any (fun _ => true) = true by
      decide +kernel)
  obtain ⟨stop, unreadable⟩ := exists_stop_of_isOk_eq_false
    (show (Pattern.parse (pairedText flagged).toList).isOk = false by decide +kernel)
  obtain ⟨referringAlone, referringParsed, noneFound⟩ := exists_parse_of_any
    (show (Pattern.parse "([A-Z])-\\1".toList).toOption.any (!·.occursIn line) = true by
      decide +kernel)
  obtain ⟨behind, behindParsed, named⟩ := exists_parse_of_any
    (show (Pattern.parse (pairedText referring).toList).toOption.any (fun pattern =>
      (pattern.findAll line).any fun found =>
        pattern.named? found pairedName == some "A-TC-U001".toList) = true by decide +kernel)
  have flaggedRequirement : flagged.requirementPattern.pattern = .ok flaggedAlone :=
    pattern_of_parse flaggedParsed
  have unfit : (Value.text (pairedText flagged)).pattern =
      .error (.badPattern stop (pairedText flagged).toList) := by
    simp only [Value.pattern, unreadable]
  refine ⟨⟨⟨_, flaggedRequirement⟩, ⟨_, pattern_of_parse parse_testCase⟩, stop,
    (pairedText flagged).toList, ?_⟩, ⟨referringAlone, behind⟩, ?_, ?_, by simpa using noneFound⟩
  · rw [coverage, IdPatterns.ofOptions, flaggedRequirement, unfit]
    rfl
  · rw [IdPatterns.ofOptions, show referring.requirementPattern.pattern = _ from
      pattern_of_parse referringParsed, pattern_of_parse behindParsed]
    rfl
  · obtain ⟨found, member, isNamed⟩ := List.any_eq_true.mp named
    exact .inr ⟨found, member, beq_iff_eq.mp isNamed⟩

end Traceability

end DocAudit
