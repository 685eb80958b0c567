import DocAudit.Proofs.Pattern.FirstPlace
import DocAudit.Proofs.Traceability.Pairing

/-!
What pairing adds to the requirements that test cases name: nothing, with the standard expressions.
A requirement behind a test case is found as well by the search for requirements alone. That search
could only pass over it with a match that begins earlier and reaches into it; such a match would
begin inside of a test case, or in the gap behind it, or hold a whole test case.
-/

namespace DocAudit

theorem suffix_append_cases {α : Type} {items front behind : List α}
    (isSuffix : items <:+ front ++ behind) :
    items <:+ behind ∨ ∃ rest, rest ≠ [] ∧ rest <:+ front ∧ items = rest ++ behind := by
  obtain ⟨before, whole⟩ := isSuffix
  rcases List.append_eq_append_iff.mp whole with ⟨rest, split, same⟩ | ⟨rest, split, same⟩
  · by_cases empty : rest = []
    · left
      rw [same, empty, List.nil_append]
    · exact .inr ⟨rest, empty, ⟨before, split.symm⟩, same⟩
  · exact .inl ⟨rest, same.symm⟩

namespace Traceability

open Pattern StandardPatterns

/-! ## What a pairing passes over -/

section Passed

variable {testCase : Part} {requirement : Pattern} {group : Nat} {names : List (List Char × Nat)}
  {cursor : Cursor} {advance : Bool}

/-- What stands before the requirement of a pairing: a test case, a gap in which no requirement
begins, and perhaps a bracket. -/
structure LeadsTo (testCase : Part) (requirement : Pattern) (tested gap mark behind : List Char)
    (view : View) : Prop where
  isTested : testCase.Spells tested
  isMark : mark = [] ∨ mark = ['[']
  inGap : ∀ rest, rest ≠ [] → rest <:+ gap →
    requirement.glimpse (rest ++ (mark ++ behind)) = none
  reached : requirement.glimpse behind = some view

theorem ends_eq_nil_of_run (nowhere : requirement.part.refersNowhere = true) {found : Match}
    (moved : cursor.index < found.cursor.index)
    (ran : (bracket '[').run found (fun place =>
      (Part.capture group (requirement.part.renumber group)).run place fun after =>
        (bracket ']').run after (acceptFrom cursor advance)) = none) :
    requirement.part.ends ⟨found.cursor, []⟩ = [] := by
  rw [Part.run_eq_findSome?, ends_bracket, List.findSome?_append, Option.or_eq_none_iff] at ran
  have here := List.findSome?_eq_none_iff.mp ran.2 found List.mem_cons_self
  rw [Part.run_eq_findSome?, List.findSome?_eq_none_iff] at here
  have noEnd : (requirement.part.renumber group).ends found = [] := by
    rw [List.eq_nil_iff_forall_not_mem]
    intro after member
    obtain ⟨word, -, passes⟩ := Part.spells_of_mem_ends _ _ _ member
    have further : cursor.index < after.cursor.index := Nat.lt_of_lt_of_le moved passes.index_le
    have accepted : ((bracket ']').run (found.record group after)
        (acceptFrom cursor advance)).isSome = _ := isSome_run_bracket (Nat.le_of_lt further)
    have counts : ((found.record group after).cursor.index == cursor.index) = false :=
      beq_false_of_ne (Nat.ne_of_gt further)
    rw [here _ (List.mem_map_of_mem member), counts] at accepted
    simp at accepted
  have related := Part.ends_renumber nowhere group
    (show AtOnePlace found ⟨found.cursor, []⟩ from rfl)
  rw [noEnd, List.forall₂_nil_left_iff] at related
  exact related

theorem glimpse_eq_none_of_ends (solid : requirement.IsSolid)
    (noEnd : requirement.part.ends ⟨cursor, []⟩ = []) :
    requirement.glimpse cursor.after = none := by
  rw [← glimpse_of_matchAt? solid cursor false, isNone_matchAt?_iff.mpr noEnd]
  rfl

/-- Nothing begins in a gap at whose places nothing ends. -/
theorem glimpse_eq_none_in_gap (solid : requirement.IsSolid) {gap behind rest : List Char}
    (split : cursor.after = gap ++ behind)
    (noEnd : ∀ front place, cursor.Passes front place → front.length < gap.length →
      requirement.part.ends ⟨place, []⟩ = [])
    (notEmpty : rest ≠ []) (isSuffix : rest <:+ gap) :
    requirement.glimpse (rest ++ behind) = none := by
  obtain ⟨front, rfl⟩ := isSuffix
  let there : Cursor :=
    ⟨front.reverse ++ cursor.before, rest ++ behind, cursor.index + front.length⟩
  have passesFront : cursor.Passes front there := ⟨rfl, by rw [split, List.append_assoc], rfl⟩
  have shorter : front.length < (front ++ rest).length := by
    have length := List.length_pos_of_ne_nil notEmpty
    rw [List.length_append]
    omega
  exact glimpse_eq_none_of_ends solid (noEnd front there passesFront shorter)

theorem exists_mark_of_mem_ends {found place : Match} (member : place ∈ (bracket '[').ends found) :
    ∃ mark, found.cursor.Passes mark place.cursor ∧ (mark = [] ∨ mark = ['[']) := by
  rw [ends_bracket] at member
  rcases List.mem_append.mp member with moved | stayed
  · obtain ⟨mark, ⟨c, rfl, accepted⟩, passes⟩ := Part.spells_of_mem_ends _ _ _ moved
    rw [eq_of_accepts_letter accepted] at passes
    exact ⟨_, passes, .inr rfl⟩
  · rw [List.mem_singleton.mp stayed]
    exact ⟨[], .stay _, .inl rfl⟩

theorem leadsTo_of_matchAt?_pairing (solid : requirement.IsSolid)
    (nowhere : requirement.part.refersNowhere = true)
    (nonempty : (testCase.renumber 1).canBeEmpty = false) {found : Found}
    (matched : matchAt? ⟨pairingPart testCase requirement.part group, names⟩ cursor advance =
      some found) :
    ∃ tested gap mark behind view, cursor.after = tested ++ (gap ++ (mark ++ behind)) ∧
      LeadsTo (testCase.renumber 1) requirement tested gap mark behind view ∧
      found.finish.capture? group = some view.1 := by
  rw [matchAt?] at matched
  obtain ⟨finish, ran, rfl⟩ := Option.map_eq_some_iff.mp matched
  change (Part.capture 1 (testCase.renumber 1)).run ⟨cursor, []⟩ (fun afterTestCase =>
    (Part.repeated .lazy 0 none (.one .anyInLine)).run afterTestCase fun between =>
      (bracket '[').run between fun place =>
        (Part.capture group (requirement.part.renumber group)).run place fun after =>
          (bracket ']').run after (acceptFrom cursor advance)) = some finish at ran
  rw [Part.run_eq_findSome?] at ran
  obtain ⟨afterTestCase, member, ran⟩ := List.exists_of_findSome?_eq_some ran
  obtain ⟨tested, isTested, passesTested⟩ := Part.spells_of_mem_ends _ _ _ member
  have moved : cursor.index < afterTestCase.cursor.index := by
    have length := List.length_pos_of_ne_nil (Part.ne_nil_of_spells nonempty isTested)
    have index : afterTestCase.cursor.index = cursor.index + tested.length := passesTested.index
    omega
  rw [Part.run_eq_findSome?] at ran
  obtain ⟨gap, later, passesGap, ran, first⟩ := exists_of_lazy_rounds ran
  rw [Part.run_eq_findSome?] at ran
  obtain ⟨place, member, ran⟩ := List.exists_of_findSome?_eq_some ran
  obtain ⟨mark, passesMark, isMark⟩ := exists_mark_of_mem_ends member
  have passesBehind := passesGap.trans passesMark
  have toPlace := passesTested.trans passesBehind
  obtain ⟨advance', accepted, acceptedThere, captured, -⟩ :=
    exists_of_run_requirement nowhere toPlace.index_le ran requirement.names
  have behindTested : afterTestCase.cursor.after = gap ++ (mark ++ place.cursor.after) := by
    rw [passesBehind.after, List.append_assoc]
  refine ⟨tested, gap, mark, place.cursor.after, accepted.view, ?_, ⟨isTested, isMark, ?_, ?_⟩,
    captured⟩
  · rw [← behindTested]
    exact passesTested.after
  · intro rest
    exact glimpse_eq_none_in_gap solid behindTested fun front place passes shorter =>
      ends_eq_nil_of_run nowhere (Nat.lt_of_lt_of_le moved passes.index_le)
        (first front place passes shorter)
  · rw [← glimpse_of_matchAt? solid place.cursor advance', acceptedThere]
    rfl

end Passed

/-! ## Expressions that keep apart -/

/-- No word of a requirement begins inside of a test case or with the bracket before it, and none
holds a whole test case. -/
structure KeepApart (testCase : Part) (requirement : Pattern) : Prop where
  solid : requirement.IsSolid
  nowhere : requirement.part.refersNowhere = true
  nonempty : testCase.canBeEmpty = false
  begins : requirement.part.BeginsIn fun c => c ≠ '[' ∧ ∀ word, testCase.Spells word → c ∉ word
  notInside : ∀ word inner, requirement.part.Spells word → testCase.Spells inner → ¬ inner <:+: word

section KeepApart

variable {testCase : Part} {requirement : Pattern} {tested gap mark behind : List Char}
  {view : View}

theorem KeepApart.not_reachesInto (apart : KeepApart testCase requirement)
    (leads : LeadsTo testCase requirement tested gap mark behind view) (front : List Char) :
    ¬ requirement.ReachesInto (front ++ tested ++ (gap ++ mark)) behind := by
  rintro ⟨rest, other, isSuffix, notEmpty, glimpsed, long⟩
  obtain ⟨spells, further, split⟩ := spells_of_glimpse apart.solid glimpsed
  have isPrefix : rest <+: other.1 :=
    List.prefix_of_prefix_length_le ⟨behind, rfl⟩ ⟨further, split.symm⟩ (Nat.le_of_lt long)
  have begins {c : Char} (first : c ∈ rest.head?) :
      c ≠ '[' ∧ ∀ word, testCase.Spells word → c ∉ word := by
    obtain ⟨more, whole⟩ := isPrefix
    refine apart.begins.head spells ?_
    rw [← whole, List.head?_append, Option.mem_def.mp first]
    rfl
  obtain ⟨c, rest', rfl⟩ := List.exists_cons_of_ne_nil notEmpty
  have ⟨notBracket, notTested⟩ := begins rfl
  rcases suffix_append_cases isSuffix with inGap | ⟨inner, notEmpty', inFront, split'⟩
  · rcases suffix_append_cases inGap with inMark | ⟨inner, notEmpty', inGap, split'⟩
    · rcases leads.isMark with rfl | rfl
      · exact List.cons_ne_nil _ _ (List.suffix_nil.mp inMark)
      · exact notBracket (List.mem_singleton.mp (inMark.subset List.mem_cons_self))
    · rw [split', List.append_assoc, leads.inGap inner notEmpty' inGap] at glimpsed
      cases glimpsed
  · rcases suffix_append_cases inFront with inTested | ⟨before, -, -, rfl⟩
    · obtain ⟨c', inner', rfl⟩ := List.exists_cons_of_ne_nil notEmpty'
      obtain rfl : c = c' := (List.cons.inj split').1
      exact notTested tested leads.isTested (inTested.subset List.mem_cons_self)
    · refine apart.notInside other.1 tested spells leads.isTested (.trans ?_ isPrefix.isInfix)
      rw [split', List.append_assoc]
      exact List.infix_append' before tested (gap ++ mark)

end KeepApart

/-- Where the expressions keep apart, what a pairing names is found alone as well. -/
theorem KeepApart.exists_alone {testCase : Part} {requirement : Pattern}
    (apart : KeepApart (testCase.renumber 1) requirement) {group : Nat}
    {names : List (List Char × Nat)} {line : List Char} {found : Found}
    (member : found ∈ findAll ⟨pairingPart testCase requirement.part group, names⟩ line) :
    ∃ alone ∈ requirement.findAll line, found.finish.capture? group = some alone.text := by
  obtain ⟨isIn, advance, matched⟩ := mem_findAll member
  obtain ⟨front, back, rfl, start⟩ := Cursor.isIn_iff.mp isIn
  obtain ⟨tested, gap, mark, behind, view, split, leads, captured⟩ :=
    leadsTo_of_matchAt?_pairing apart.solid apart.nowhere apart.nonempty matched
  obtain rfl : back = tested ++ (gap ++ (mark ++ behind)) := by
    rw [← split, start]
  have isSeen := mem_seen_append apart.solid (apart.not_reachesInto leads front) leads.reached
  rw [← map_view_findAll apart.solid] at isSeen
  obtain ⟨alone, isFound, rfl⟩ := List.mem_map.mp isSeen
  refine ⟨alone, ?_, captured⟩
  simpa only [List.append_assoc] using isFound

/-! ## The standard expressions -/

section Standard

theorem mem_of_accepts_letters {letters : List Char} {c : Char}
    (accepted : (Single.set false (letters.map fun c => .single c.toNat) .exact false).accepts c =
      true) : c ∈ letters := by
  obtain ⟨item, member, holds⟩ := exists_holds_of_accepts accepted
  obtain ⟨letter, isLetter, rfl⟩ := List.mem_map.mp member
  rw [SetItem.holds, List.contains_iff_mem, List.mem_singleton] at holds
  rwa [← Char.toNat_inj.mp holds]

theorem isDigit_eq_false_of_accepts_capital {c : Char}
    (accepted : (Single.set false [capital] .exact false).accepts c = true) :
    Text.isDigit c = false := by
  obtain ⟨item, member, holds⟩ := exists_holds_of_accepts accepted
  have apart : ∀ start ∈ Text.digitZeros, start + 10 ≤ 'A'.toNat ∨ 'Z'.toNat < start := by decide
  rw [List.mem_singleton.mp member, capital, SetItem.holds] at holds
  simp only [List.any_cons, List.any_nil, Bool.or_false, Bool.and_eq_true,
    decide_eq_true_eq] at holds
  rw [Text.isDigit, Text.digitValue?, Option.isSome_map, Option.isSome_eq_false_iff,
    Option.isNone_iff_eq_none, List.find?_eq_none]
  intro start isStart within
  have separate := apart start isStart
  simp only [Bool.and_eq_true, decide_eq_true_eq] at within
  omega

/-- A digit comes behind a dash or another digit. -/
def DigitsBehind (before c : Char) : Prop :=
  Text.isDigit c = true → before = '-' ∨ Text.isDigit before = true

theorem isChain_of_requirement {group : Nat} {word : List Char}
    (spells : (requirementPart group).Spells word) : word.IsChain DigitsBehind := by
  obtain ⟨f, _, rfl, isF, r, _, rfl, isR, dash, _, rfl, isDash, middle, digits, rfl, isMiddle,
    isDigits⟩ := spells
  let front := Part.ofList [letter 'F', letter 'R', letter '-', .repeated .greedy 0 none
    (.capture group (.sequence (.repeated .greedy 1 none (set [capital])) (letter '-')))]
  have isFront : front.Spells (f ++ (r ++ (dash ++ middle))) :=
    ⟨f, _, rfl, isF, r, _, rfl, isR, dash, middle, rfl, isDash, isMiddle⟩
  have noDigit (c : Char) (no : Text.isDigit c = false) :
      (letter c).MadeOf (Text.isDigit · = false) :=
    fun _ accepted => eq_of_accepts_letter accepted ▸ no
  have frontMadeOf : front.MadeOf (Text.isDigit · = false) :=
    ⟨noDigit 'F' (by decide), noDigit 'R' (by decide), noDigit '-' (by decide),
      fun _ => isDigit_eq_false_of_accepts_capital, noDigit '-' (by decide)⟩
  have isLetterDash : (letter '-').FinishesIn (· = '-') := fun _ => eq_of_accepts_letter
  have frontFinishes : front.FinishesIn (· = '-') :=
    .ofList_of_drop 2 rfl ⟨⟨isLetterDash, nofun⟩, fun _ => isLetterDash⟩
  have digitsMadeOf : (exactly 3 digit).MadeOf (Text.isDigit · = true) :=
    fun _ => isDigit_of_accepts_digit
  have whole : f ++ (r ++ (dash ++ (middle ++ digits))) =
      f ++ (r ++ (dash ++ middle)) ++ digits := by simp
  rw [whole, List.isChain_append]
  refine ⟨?_, ?_, ?_⟩
  · refine (List.pairwise_of_forall_mem_list fun before _ c member isDigit => ?_).isChain
    rw [frontMadeOf.mem isFront member] at isDigit
    cases isDigit
  · exact (List.pairwise_of_forall_mem_list fun before member _ _ _ =>
      .inr (digitsMadeOf.mem isDigits member)).isChain
  · exact fun before last _ _ _ => .inl (frontFinishes.getLast isFront last)

theorem not_infix_of_testCase {word inner : List Char} (chain : word.IsChain DigitsBehind)
    (spells : testCasePart.Spells inner) : ¬ inner <:+: word := by
  obtain ⟨t, _, rfl, -, c, _, rfl, -, dash, _, rfl, -, _, _, rfl, ⟨level, rfl, isLevel⟩,
    pieces, rfl, words, enough, -⟩ := spells
  obtain ⟨first, pieces, rfl⟩ : ∃ first rest, pieces = first :: rest :=
    List.exists_cons_of_length_pos (Nat.lt_of_lt_of_le (by decide) enough)
  obtain ⟨digit, rfl, accepted⟩ := words first List.mem_cons_self
  have others : ['U', 'I', 'E', 'P', 'S', 'D', 'X'].all
      (fun level => level != '-' && !Text.isDigit level) = true := by decide +kernel
  have other := List.all_eq_true.mp others level (mem_of_accepts_letters isLevel)
  rw [Bool.and_eq_true, bne_iff_ne, Bool.not_eq_true'] at other
  rintro ⟨front, back, rfl⟩
  have split : front ++ (t ++ (c ++ (dash ++ ([level] ++ ([digit] :: pieces).flatten)))) ++ back =
      front ++ (t ++ (c ++ dash)) ++ level :: digit :: (pieces.flatten ++ back) := by
    simp only [List.append_assoc, List.flatten_cons, List.cons_append, List.nil_append]
  have behind : DigitsBehind level digit :=
    List.isChain_iff_forall_rel_of_append_cons_cons.mp chain split
  replace behind := behind (isDigit_of_accepts_digit accepted)
  rcases behind with same | same
  · exact other.1 same
  · rw [other.2] at same
    cases same

theorem testCase_madeOf_ne : testCasePart.MadeOf (· ≠ 'F') := by
  have other (c : Char) (ne : c ≠ 'F') : (letter c).MadeOf (· ≠ 'F') :=
    fun _ accepted => eq_of_accepts_letter accepted ▸ ne
  refine ⟨other 'T' (by decide), other 'C' (by decide), other '-' (by decide),
    fun c accepted => ?_, fun c accepted same => ?_⟩
  · rintro rfl
    exact absurd (mem_of_accepts_letters accepted) (by decide)
  · have isDigit := isDigit_of_accepts_digit accepted
    rw [same] at isDigit
    revert isDigit
    decide

theorem keepApart_standard : KeepApart (testCasePart.renumber 1) requirement where
  solid := ⟨rfl, rfl⟩
  nowhere := rfl
  nonempty := rfl
  begins := by
    refine ⟨fun c accepted => ?_, nofun⟩
    rw [eq_of_accepts_letter accepted]
    exact ⟨by decide, fun word spells member => testCase_madeOf_ne.mem spells member rfl⟩
  notInside _ _ spells := not_infix_of_testCase (isChain_of_requirement spells)

end Standard

/-! ## The report -/

/-- What pairing adds to a search for requirements alone. -/
structure AddsNothing (options : Options) (requirement paired : Pattern) : Prop where
  compiled : IdPatterns.ofOptions options = .ok ⟨requirement, paired⟩
  alone : ∀ line, ∀ found ∈ paired.findAll line, ∃ other ∈ requirement.findAll line,
    paired.named? found pairedName = some other.text
  succeeds : ∀ docs files, Succeeds (coverage docs files options) ↔
    ∃ stating testing, selectFiles files options.requirementFiles = .ok stating ∧
      selectFiles files options.testCaseFiles = .ok testing ∧
        ∀ file ∈ stating ++ testing, Succeeds (docs.text file)
  covers : ∀ docs files report, coverage docs files options = .ok report → ∀ id,
    id ∈ report.covered ↔ ∃ file ∈ report.testCaseFiles, ∃ text, docs.text file = .ok text ∧
      ∃ line ∈ Text.lines text, ∃ found ∈ requirement.findAll line, found.text = id

theorem succeeds_coverage_iff {patterns : IdPatterns} {options : Options}
    (compiled : IdPatterns.ofOptions options = .ok patterns) {docs : Docs} {files : List String} :
    Succeeds (coverage docs files options) ↔
      ∃ stating testing, selectFiles files options.requirementFiles = .ok stating ∧
        selectFiles files options.testCaseFiles = .ok testing ∧
          ∀ file ∈ stating ++ testing, Succeeds (docs.text file) := by
  have readable (files : List String) : Succeeds (files.mapM docs.document) ↔
      ∀ file ∈ files, Succeeds (docs.text file) :=
    Succeeds.mapM_iff.trans (forall₂_congr fun file _ => Succeeds.bind_ok_iff)
  simp only [List.forall_mem_append, ← readable]
  rw [coverage, compiled]
  constructor
  · intro succeeds
    obtain ⟨_, ⟨⟩, succeeds⟩ := Succeeds.bind_iff.mp succeeds
    obtain ⟨stating, selectsStating, succeeds⟩ := Succeeds.bind_iff.mp succeeds
    obtain ⟨testing, selectsTesting, succeeds⟩ := Succeeds.bind_iff.mp succeeds
    obtain ⟨stated, readStated, succeeds⟩ := Succeeds.bind_iff.mp succeeds
    obtain ⟨tested, readTested, -⟩ := Succeeds.bind_iff.mp succeeds
    exact ⟨stating, testing, selectsStating, selectsTesting, ⟨stated, readStated⟩,
      ⟨tested, readTested⟩⟩
  · rintro ⟨stating, testing, selectsStating, selectsTesting, ⟨stated, readStated⟩,
      ⟨tested, readTested⟩⟩
    rw [selectsStating, selectsTesting]
    simp only [bind, Except.bind]
    rw [readStated, readTested]
    exact .ok _

/-- With the standard expressions the pairing adds nothing. The report covers what a search for
requirements alone finds on the lines of the files of test cases. -/
theorem coverage_adds_nothing (options : Options)
    (requirementStandard : options.requirementPattern = ({} : Options).requirementPattern)
    (testCaseStandard : options.testCasePattern = ({} : Options).testCasePattern) :
    AddsNothing options requirement paired := by
  have compiled : IdPatterns.ofOptions options = .ok ⟨requirement, paired⟩ :=
    (ofOptions_congr requirementStandard testCaseStandard).trans ofOptions_standard
  have alone (line : List Char) (found : Found) (member : found ∈ paired.findAll line) :
      ∃ other ∈ requirement.findAll line, paired.named? found pairedName = some other.text :=
    keepApart_standard.exists_alone member
  refine ⟨compiled, alone, fun docs files => succeeds_coverage_iff compiled, ?_⟩
  intro docs files report returned id
  obtain ⟨patterns, compiledToo, -, -, read, isReport⟩ := exists_of_coverage_eq_ok returned
  rw [compiled, Except.ok.injEq] at compiledToo
  subst compiledToo
  have yields (line : List Char) : (⟨requirement, paired⟩ : IdPatterns).Yields line id ↔
      ∃ found ∈ requirement.findAll line, found.text = id := by
    refine or_iff_left_of_imp ?_
    rintro ⟨found, member, names⟩
    obtain ⟨other, isFound, text⟩ := alone line found member
    rw [text] at names
    exact ⟨other, isFound, Option.some.inj names⟩
  rw [isReport, mem_covered_reportOn_iff, IsTested]
  refine exists_congr fun file => and_congr_right fun member => ?_
  have text := read file (List.mem_append_right _ member)
  simp only [yields, text, Except.ok.injEq, exists_eq_left']

/-- On one line two test cases name two requirements, of which one stands in brackets. -/
theorem coverage_adds_nothing_two :
    let options : Options := { requiredCoverage := .int 80 }
    let line := "TC-U001 covers FR-001, TC-X002 [FR-LOGIN-002]".toList
    options.requirementPattern = ({} : Options).requirementPattern ∧
      options.testCasePattern = ({} : Options).testCasePattern ∧
      (paired.findAll line).filterMap (paired.named? · pairedName) =
        ["FR-001".toList, "FR-LOGIN-002".toList] ∧
      AddsNothing options requirement paired := by
  intro options line
  exact ⟨rfl, rfl, by decide +kernel, coverage_adds_nothing options rfl rfl⟩

end Traceability

end DocAudit
