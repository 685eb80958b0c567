import DocAudit.Proofs.Pattern.EnclosedText
import DocAudit.Proofs.Rules.StandardPatterns

/-!
The expression of a test case with a requirement behind it. It is pasted together from the texts of
two expressions, each in a group with a name. Where both read alone, set no flags for the whole of
them, ask for no capture and share no name, it reads as the row of their parts.
-/

namespace DocAudit.Traceability

open Pattern Reader StandardPatterns

def testCaseName : List Char := ['t', 'c']

theorem isGroupName_testCaseName : IsGroupName testCaseName :=
  ⟨by decide +kernel, by decide, by decide⟩

theorem isGroupName_pairedName : IsGroupName pairedName :=
  ⟨by decide +kernel, by decide, by decide⟩

/-- A bracket that may be missing. -/
def bracket (c : Char) : Part :=
  .repeated .greedy 0 (some 1) (letter c)

/-- The part of a test case, and that of a requirement as the capture of a number behind it. -/
def pairingPart (testCase requirement : Part) (group : Nat) : Part :=
  .ofList [.capture 1 (testCase.renumber 1), .repeated .lazy 0 none (.one .anyInLine),
    bracket '[', .capture group (requirement.renumber group), bracket ']']

/-! ## Tokens -/

/-- The tokens between the end of the test case and the name of the requirement. -/
def tokensBetween : List Token :=
  [['.'], ['*'], ['?'], ['\\', '['], ['?']]

def tokensBehind : List Token :=
  [['\\', ']'], ['?']]

def pairedTokens (testCase requirement : List Token) : List Token :=
  ['('] :: (nameTokens testCaseName ++ (testCase ++ [')'] :: (tokensBetween ++ ['('] ::
    (nameTokens pairedName ++ (requirement ++ [')'] :: tokensBehind)))))

theorem tokens_pairedText {testCase requirement : String} {options : Options}
    (isTestCase : options.testCasePattern = .text testCase)
    (isRequirement : options.requirementPattern = .text requirement)
    (wholeTestCase : ['\\'] ∉ tokens testCase.toList)
    (wholeRequirement : ['\\'] ∉ tokens requirement.toList) :
    tokens (pairedText options).toList =
      pairedTokens (tokens testCase.toList) (tokens requirement.toList) := by
  have text : (pairedText options).toList =
      "(?P<tc>".toList ++ (testCase.toList ++ (").*?\\[?(?P<req>".toList ++ (requirement.toList ++
        ")\\]?".toList))) := by
    simp [pairedText, isTestCase, isRequirement, Value.plain, toString]
  have opening : tokens "(?P<tc>".toList = ['('] :: nameTokens testCaseName := by decide
  have between : tokens ").*?\\[?(?P<req>".toList =
      [')'] :: (tokensBetween ++ ['('] :: nameTokens pairedName) := by decide
  have behind : tokens ")\\]?".toList = [')'] :: tokensBehind := by decide
  rw [text, tokens_append (by rw [opening]; decide), tokens_append wholeTestCase,
    tokens_append (by rw [between]; decide), tokens_append wholeRequirement, opening, between,
    behind]
  simp [pairedTokens]

/-! ## Items -/

theorem run_items_between {state : State} {rest : List Token}
    (known : state.tokens = tokensBetween ++ ['('] :: rest) (fuel : Nat) (mayFlag : Bool)
    (read : List Part) :
    ∃ position, (items (fuel + 4) mayFlag [] read).run state =
      (items fuel mayFlag []
        (bracket '[' :: .repeated .lazy 0 none (.one .anyInLine) :: read)).run
          { state with tokens := ['('] :: rest, position := position } := by
  obtain ⟨tokens, position, flags, captures, names, closed, inside, conditions⟩ := state
  cases known
  refine ⟨position + 1 + 1 + 1 + 2 + 1, ?_⟩
  rfl

theorem run_items_behind {state : State} (known : state.tokens = tokensBehind) (fuel : Nat)
    (mayFlag : Bool) (read : List Part) :
    ∃ position, (items (fuel + 3) mayFlag [] read).run state =
      .ok (.ofList (bracket ']' :: read).reverse,
        { state with tokens := [], position := position }) := by
  obtain ⟨tokens, position, flags, captures, names, closed, inside, conditions⟩ := state
  cases known
  refine ⟨position + 2 + 1, ?_⟩
  rfl

/-! ## The whole expression -/

/-- Two texts that read alone and share no name with each other or with the groups around them. -/
structure FitTogether (testCase requirement : List Char) (testCasePart requirementPart : Part)
    (testCaseLast requirementLast : State) : Prop where
  testCase : ReadsAlone testCase testCasePart testCaseLast
  requirement : ReadsAlone requirement requirementPart requirementLast
  names : (requirementLast.names.map Prod.fst ++ pairedName ::
    (testCaseLast.names.map Prod.fst ++ [testCaseName])).Nodup

namespace FitTogether

variable {testCase requirement : List Char} {testCasePart requirementPart : Part}
  {testCaseLast requirementLast : State}

theorem run_items
    (fit : FitTogether testCase requirement testCasePart requirementPart testCaseLast
      requirementLast)
    {fuel : Nat} (enoughTestCase : 2 * (tokens testCase).length + 2 ≤ fuel)
    (enoughRequirement : 2 * (tokens requirement).length + 2 ≤ fuel) (mayFlag : Bool) :
    ∃ last, (items (fuel + 9) mayFlag [] []).run
        (.start (pairedTokens (tokens testCase) (tokens requirement))) =
          .ok (pairingPart testCasePart requirementPart (testCaseLast.captures + 2), last) ∧
      last.tokens = [] ∧ last.flags = [] ∧
      last.captures = requirementLast.captures + (testCaseLast.captures + 2) ∧
      last.names.lookup pairedName = some (testCaseLast.captures + 2) ∧
      last.conditions = requirementLast.conditions ++ testCaseLast.conditions := by
  obtain ⟨-, below, between⟩ := List.nodup_append.mp fit.names
  obtain ⟨pairedNew, below⟩ := List.nodup_cons.mp below
  obtain ⟨-, -, testCaseNew⟩ := List.nodup_append.mp below
  have known : (State.start (pairedTokens (tokens testCase) (tokens requirement))).tokens =
      pairedTokens (tokens testCase) (tokens requirement) := rfl
  obtain ⟨afterTestCase, behindTestCase, readTestCase⟩ := run_items_named fit.testCase
    isGroupName_testCaseName known (show some ['.'] ≠ some ['\\'] by decide) rfl rfl
    List.not_mem_nil (fun name member same => testCaseNew name member _ same rfl)
    (by omega : 2 * (tokens testCase).length + 2 ≤ fuel + 8) mayFlag []
  obtain ⟨position, readBetween⟩ := run_items_between behindTestCase.tokens (fuel + 4) mayFlag
    [.capture 1 (testCasePart.renumber 1)]
  let middle : State :=
    { afterTestCase with
      tokens := ['('] :: (nameTokens pairedName ++ (tokens requirement ++ [')'] :: tokensBehind))
      position := position }
  have middleKeys : middle.names.map Prod.fst =
      testCaseLast.names.map Prod.fst ++ [testCaseName] := behindTestCase.keys
  have middleKnown : middle.tokens =
      ['('] :: (nameTokens pairedName ++ (tokens requirement ++ [')'] :: tokensBehind)) := rfl
  obtain ⟨afterRequirement, behindRequirement, readRequirement⟩ := run_items_named fit.requirement
    isGroupName_pairedName middleKnown (show some ['\\', ']'] ≠ some ['\\'] by decide)
    behindTestCase.flags behindTestCase.inside (by rw [middleKeys]; exact pairedNew)
    (by rw [middleKeys]; exact fun name member same => between name member name same rfl)
    (by omega : 2 * (tokens requirement).length + 2 ≤ fuel + 3) mayFlag
    [bracket '[', .repeated .lazy 0 none (.one .anyInLine),
      .capture 1 (testCasePart.renumber 1)]
  have group : middle.captures + 1 = testCaseLast.captures + 2 := by
    rw [show middle.captures = _ from behindTestCase.captures]
    rfl
  rw [group] at readRequirement
  obtain ⟨end', readBehind⟩ := run_items_behind behindRequirement.tokens fuel mayFlag
    [.capture (testCaseLast.captures + 2) (requirementPart.renumber (testCaseLast.captures + 2)),
      bracket '[', .repeated .lazy 0 none (.one .anyInLine),
      .capture 1 (testCasePart.renumber 1)]
  refine ⟨{ afterRequirement with tokens := [], position := end' },
    readTestCase.trans (readBetween.trans (readRequirement.trans readBehind)), rfl,
    behindRequirement.flags, ?_, ?_, ?_⟩
  · rw [behindRequirement.captures, group]
  · change afterRequirement.names.lookup pairedName = _
    have notInside : (requirementLast.names.map (fun entry =>
        (entry.1, entry.2 + (testCaseLast.captures + 2)))).lookup pairedName = none := by
      rw [List.lookup_eq_none_iff]
      intro entry member
      obtain ⟨before, known, rfl⟩ := List.mem_map.mp member
      rw [bne_iff_ne]
      exact (between _ (List.mem_map_of_mem known) pairedName List.mem_cons_self).symm
    rw [behindRequirement.names, group, List.lookup_append, notInside, Option.none_or,
      List.lookup_cons_self]
  · change afterRequirement.conditions = _
    rw [behindRequirement.conditions]
    change requirementLast.conditions ++ afterTestCase.conditions = _
    rw [behindTestCase.conditions]
    exact congrArg _ (List.append_nil _)

theorem matchable
    (fit : FitTogether testCase requirement testCasePart requirementPart testCaseLast
      requirementLast)
    (group : Nat) :
    unmatchable? false (pairingPart testCasePart requirementPart group) = none := by
  have testCaseMatchable := fit.testCase.finishes.matchable
  have requirementMatchable := fit.requirement.finishes.matchable
  rw [fit.testCase.unflagged] at testCaseMatchable
  rw [fit.requirement.unflagged] at requirementMatchable
  simp only [List.contains_nil] at testCaseMatchable requirementMatchable
  have brackets (c : Char) : unmatchable? false (bracket c) = none := rfl
  simp [pairingPart, Part.ofList, unmatchable?, brackets, testCaseMatchable, requirementMatchable]

theorem parse {testCase requirement : String} {options : Options}
    (isTestCase : options.testCasePattern = .text testCase)
    (isRequirement : options.requirementPattern = .text requirement)
    (fit : FitTogether testCase.toList requirement.toList testCasePart requirementPart testCaseLast
      requirementLast) :
    ∃ group names, Pattern.parse (pairedText options).toList =
      .ok ⟨pairingPart testCasePart requirementPart group, names⟩ ∧
        names.lookup pairedName = some group := by
  have row := tokens_pairedText isTestCase isRequirement fit.testCase.whole fit.requirement.whole
  let row' := pairedTokens (tokens testCase.toList) (tokens requirement.toList)
  have length : row'.length =
      (tokens testCase.toList).length + (tokens requirement.toList).length + 24 := by
    simp [row', pairedTokens, nameTokens, tokensBetween, tokensBehind, testCaseName, pairedName]
    omega
  obtain ⟨fuel, enough, enoughTestCase, enoughRequirement⟩ : ∃ fuel,
      2 * row'.length + 1 = fuel + 9 ∧ 2 * (tokens testCase.toList).length + 2 ≤ fuel ∧
        2 * (tokens requirement.toList).length + 2 ≤ fuel :=
    ⟨2 * row'.length - 8, by omega, by omega, by omega⟩
  obtain ⟨last, readItems, ended, unflagged, captures, names, conditions⟩ :=
    fit.run_items enoughTestCase enoughRequirement true
  have readAlternatives : (alternatives (2 * row'.length + 2) true true []).run (.start row') =
      .ok (pairingPart testCasePart requirementPart (testCaseLast.captures + 2), last) := by
    have noBar : last.tokens.head? ≠ some ['|'] := by
      rw [ended]
      decide
    rw [← enough] at readItems
    rw [alternatives_succ, Bool.and_true, run_bind_of_ok readItems, alternativesBehind,
      run_bind_of_ok (run_accept_of_ne noBar)]
    rfl
  have finishes : last.Finishes
      (pairingPart testCasePart requirementPart (testCaseLast.captures + 2)) := by
    refine ⟨by rw [unflagged]; decide, ended, fun entry member => ?_, ?_⟩
    · rw [conditions, List.mem_append] at member
      rw [captures]
      rcases member with member | member
      · exact Nat.le_add_right_of_le (fit.requirement.finishes.conditions entry member)
      · have within := fit.testCase.finishes.conditions entry member
        omega
    · rw [unflagged]
      exact fit.matchable _
  refine ⟨testCaseLast.captures + 2, last.names, parse_eq_ok_iff.mpr ⟨last, ?_, rfl⟩, names⟩
  rw [row]
  exact run_expression_eq_ok_iff.mpr
    ⟨(show some ['('] ≠ some ['\\'] by decide), readAlternatives, finishes⟩

end FitTogether

end DocAudit.Traceability
