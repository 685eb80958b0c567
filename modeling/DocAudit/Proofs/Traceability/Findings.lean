import DocAudit.Proofs.Faults
import DocAudit.Rules.Traceability
import DocAudit.Text.Lines

/-!
The findings of a check in their order: first those about whole files, then one for each
requirement that nothing tests, and last the one about all of them. The end of a message tells
which of these a finding is.
-/

namespace DocAudit

theorem Text.endsWith_append (text ending : List Char) :
    endsWith (text ++ ending) ending = true := by
  rw [endsWith, List.isSuffixOf_iff_suffix]
  exact List.suffix_append text ending

theorem Text.endsWith_append_of_getLast_ne {ending other : List Char} (text : List Char)
    (nonempty : ending ≠ []) (nonempty' : other ≠ [])
    (differ : ending.getLast nonempty ≠ other.getLast nonempty') :
    endsWith (text ++ ending) other = false := by
  rw [← Bool.not_eq_true, endsWith, List.isSuffixOf_iff_suffix]
  rintro ⟨front, same⟩
  have last := congrArg List.getLast? same
  rw [List.getLast?_append, List.getLast?_append, List.getLast?_eq_some_getLast nonempty,
    List.getLast?_eq_some_getLast nonempty'] at last
  exact differ (Option.some.inj last).symm

/-- Whether the message of a finding is a text with this ending. -/
def Issue.endsIn (issue : Issue) (ending : String) : Bool :=
  match issue.message with
  | .text message => Text.endsWith message.toList ending.toList
  | _ => false

/-- What the files of some docs hold. -/
def Docs.Hold (docs : Docs) (contents : String → List Char) (files : List String) : Prop :=
  ∀ file ∈ files, docs.text file = .ok (contents file)

namespace Traceability

/-- What a check tells of once it knows what is covered. -/
def findingsOf (docs : Docs) (options : Options) (coverage : Coverage) :
    Except Fault (List Issue) := do
  let missing :=
    if options.requireTestFile.truthy && coverage.testCaseFiles.isEmpty
        && !coverage.requirementFiles.isEmpty then [noTestFiles]
    else []
  let unnamed ← absence docs options.requireRequirementIds coverage.requirementFiles
    options.requirementPattern noRequirements
  let untried ← absence docs options.requireTestCaseIds coverage.testCaseFiles
    options.testCasePattern noTestCases
  let total ← rollup options coverage
  return missing ++ unnamed ++ untried ++ coverage.uncovered.map untested ++ total

theorem check_eq (docs : Docs) (files : List String) (options : Options) :
    check docs files options = coverage docs files options >>= findingsOf docs options :=
  rfl

/-! ## Which finding is which -/

def untestedEnding : String := " has no test case"

def totalEnding : String := "%)"

def isUntested (issue : Issue) : Bool :=
  issue.endsIn untestedEnding

def isTotal (issue : Issue) : Bool :=
  issue.endsIn totalEnding

/-- The finding about all requirements of a report, with the share that is covered and the one that
is asked for. -/
def total (percent bound : String) (report : Coverage) : Issue :=
  let ids := report.uncovered.map fun requirement => String.ofList requirement.id
  { file := docsLabel
    message := .text s!"Requirement coverage is {percent}% (required: {bound}%)"
    suggestion := some s!"Uncovered requirements: {Fault.commaList ids}" }

section

variable (requirement : Requirement) (file percent bound : String) (report : Coverage)

theorem toList_untested :
    (s!"Requirement {String.ofList requirement.id} has no test case").toList =
      ("Requirement ".toList ++ requirement.id) ++ untestedEnding.toList := by
  simp [toString, untestedEnding]

theorem toList_total :
    (s!"Requirement coverage is {percent}% (required: {bound}%)").toList =
      ("Requirement coverage is ".toList ++ percent.toList ++ "% (required: ".toList ++
        bound.toList) ++ totalEnding.toList := by
  simp [toString, totalEnding]

theorem isUntested_untested : isUntested (untested requirement) = true :=
  (congrArg (Text.endsWith · _) (toList_untested requirement)).trans (Text.endsWith_append _ _)

theorem isTotal_untested : isTotal (untested requirement) = false := by
  refine (congrArg (Text.endsWith · _) (toList_untested requirement)).trans ?_
  exact Text.endsWith_append_of_getLast_ne _ (by decide) (by decide) (by decide)

theorem isTotal_total : isTotal (total percent bound report) = true :=
  (congrArg (Text.endsWith · _) (toList_total percent bound)).trans (Text.endsWith_append _ _)

theorem isUntested_total : isUntested (total percent bound report) = false := by
  refine (congrArg (Text.endsWith · _) (toList_total percent bound)).trans ?_
  exact Text.endsWith_append_of_getLast_ne _ (by decide) (by decide) (by decide)

end

/-! ## Findings of a check -/

variable {docs : Docs} {files : List String} {options : Options}

theorem ofOptions_congr {others : Options}
    (sameRequirement : options.requirementPattern = others.requirementPattern)
    (sameTestCase : options.testCasePattern = others.testCasePattern) :
    IdPatterns.ofOptions options = IdPatterns.ofOptions others := by
  rw [IdPatterns.ofOptions, pairedText, sameRequirement, sameTestCase, ← pairedText,
    ← IdPatterns.ofOptions]

theorem IdPatterns.compiled_requirement {patterns : IdPatterns}
    (compiled : IdPatterns.ofOptions options = .ok patterns) :
    options.requirementPattern.pattern = .ok patterns.requirement := by
  obtain ⟨requirement, compiledAlone, further⟩ := exists_of_bind_eq_ok compiled
  obtain ⟨paired, -, same⟩ := exists_of_bind_eq_ok further
  cases same
  exact compiledAlone

theorem isFoundIn_eq {value : Value} {pattern : Pattern} {contents : String → List Char}
    (compiled : value.pattern = .ok pattern) (hold : docs.Hold contents files) :
    isFoundIn docs files value =
      .ok (files.any fun file => pattern.occursIn (contents file)) := by
  rw [isFoundIn, compiled]
  change files.anyM (fun file => do return pattern.occursIn (← docs.text file)) = _
  induction files with
  | nil => rfl
  | cons file rest induction =>
    obtain ⟨first, others⟩ := List.forall_mem_cons.mp hold
    rw [List.anyM_cons, first, List.any_cons, induction others]
    simp only [bind, Except.bind, pure, Except.pure]
    cases pattern.occursIn (contents file) <;> rfl

/-- The guard tells of something where it is on and there are files, none of which is found to have
a match. -/
theorem exists_absence (required : Value) {value : Value} {pattern : Pattern}
    {contents : String → List Char} (finding : String → Issue)
    (compiled : value.pattern = .ok pattern) (hold : docs.Hold contents files) :
    ∃ found, absence docs required files value finding = .ok found ∧
      (found ≠ [] ↔ required.truthy = true ∧ files ≠ [] ∧
        ∀ file ∈ files, pattern.occursIn (contents file) = false) := by
  cases files with
  | nil => exact ⟨[], rfl, by simp⟩
  | cons first rest =>
    rw [absence.eq_def, isFoundIn_eq compiled hold]
    cases required.truthy with
    | false => exact ⟨[], rfl, by simp⟩
    | true =>
      refine ⟨_, rfl, ?_⟩
      cases occurs : (first :: rest).any fun file => pattern.occursIn (contents file) with
      | true =>
        refine iff_of_false (fun told => told rfl) ?_
        rintro ⟨-, -, nowhere⟩
        obtain ⟨file, member, found⟩ := List.any_eq_true.mp occurs
        rw [nowhere file member] at found
        cases found
      | false =>
        refine iff_of_true (List.cons_ne_nil _ _) ⟨rfl, List.cons_ne_nil _ _, ?_⟩
        intro file member
        exact Bool.eq_false_iff.mpr (List.any_eq_false.mp occurs file member)

theorem absence_eq_ok {required pattern : Value} {finding : String → Issue} {found : List Issue}
    (returned : absence docs required files pattern finding = .ok found) :
    found = [] ∨ ∃ file, found = [finding file] := by
  rw [absence.eq_def] at returned
  split at returned
  · cases returned
    exact .inl rfl
  · next first rest =>
    split at returned
    · cases returned
      exact .inl rfl
    · obtain ⟨answer, -, same⟩ := exists_of_bind_eq_ok returned
      cases same
      cases answer
      · exact .inr ⟨first, rfl⟩
      · exact .inl rfl

theorem rollup_eq_ok {report : Coverage} {found : List Issue}
    (returned : rollup options report = .ok found) :
    found = [] ∨ ∃ percent bound, found = [total percent bound report] := by
  rw [rollup] at returned
  split at returned
  · cases returned
    exact .inl rfl
  · obtain ⟨below, -, returned⟩ := exists_of_bind_eq_ok returned
    split at returned
    · cases returned
      exact .inl rfl
    · obtain ⟨bound, -, same⟩ := exists_of_bind_eq_ok returned
      cases same
      exact .inr ⟨_, bound, rfl⟩

theorem succeeds_rollup_of_bool {truth : Bool} (bound : options.requiredCoverage = .bool truth)
    (report : Coverage) : Succeeds (rollup options report) := by
  obtain ⟨below, compared⟩ : ∃ below,
      isBelow report.percent options.requiredCoverage = .ok below := by
    rw [bound]
    exact ⟨_, rfl⟩
  obtain ⟨text, written⟩ : ∃ text, boundText options.requiredCoverage = .ok text := by
    rw [bound]
    exact ⟨_, rfl⟩
  rw [rollup]
  split
  · exact .ok []
  · refine Succeeds.bind_iff.mpr ⟨below, compared, ?_⟩
    split
    · exact .ok []
    · exact Succeeds.bind_iff.mpr ⟨text, written, .ok _⟩

/-- What a check has worked out when it returns, and the order in which it tells of that. -/
structure Returns (docs : Docs) (files : List String) (options : Options) (report : Coverage)
    (missing unnamed untried whole issues : List Issue) : Prop where
  reported : coverage docs files options = .ok report
  aboutFiles : missing = [] ∨ missing = [noTestFiles]
  aboutRequirements : absence docs options.requireRequirementIds report.requirementFiles
    options.requirementPattern noRequirements = .ok unnamed
  aboutTestCases : absence docs options.requireTestCaseIds report.testCaseFiles
    options.testCasePattern noTestCases = .ok untried
  aboutAll : rollup options report = .ok whole
  inOrder : issues = missing ++ unnamed ++ untried ++ report.uncovered.map untested ++ whole

theorem exists_returns {issues : List Issue} (returned : check docs files options = .ok issues) :
    ∃ report missing unnamed untried whole,
      Returns docs files options report missing unnamed untried whole issues := by
  rw [check_eq] at returned
  obtain ⟨report, reported, returned⟩ := exists_of_bind_eq_ok returned
  obtain ⟨unnamed, isUnnamed, returned⟩ := exists_of_bind_eq_ok returned
  obtain ⟨untried, isUntried, returned⟩ := exists_of_bind_eq_ok returned
  obtain ⟨whole, isWhole, same⟩ := exists_of_bind_eq_ok returned
  cases same
  refine ⟨report, _, unnamed, untried, whole, reported, ?_, isUnnamed, isUntried, isWhole, rfl⟩
  split
  · exact .inr rfl
  · exact .inl rfl

end Traceability

end DocAudit
