import DocAudit.Proofs.Decimal.Percentage
import DocAudit.Proofs.Traceability.Completeness
import Mathlib

/-!
The bound of coverage. A check complains of all requirements together where less of them are covered
than its bound asks for, and of coverage that is the bound where the roundings of the share in
percent fall below it.
-/

namespace DocAudit.Traceability

open Pattern StandardPatterns

/-! ## Shares of requirements -/

/-- How many of the requirements something tests. -/
def Coverage.coveredCount (report : Coverage) : ℕ :=
  report.requirements.countP fun requirement => report.covered.contains requirement.id

namespace Coverage

variable {report : Coverage}

theorem coveredCount_le : report.coveredCount ≤ report.requirements.length :=
  List.countP_le_length

theorem length_sub_length_uncovered :
    report.requirements.length - report.uncovered.length = report.coveredCount := by
  have split := List.length_eq_length_filter_add (l := report.requirements)
    fun requirement => report.covered.contains requirement.id
  rw [coveredCount, List.countP_eq_length_filter, uncovered]
  omega

theorem percent_eq (some : report.requirements ≠ []) :
    report.percent = Decimal.percentage report.coveredCount report.requirements.length := by
  rw [percent, if_neg (mt List.length_eq_zero_iff.mp some), length_sub_length_uncovered,
    Decimal.percentage]

end Coverage

/-- Whether less is covered than is asked for, or just as much where the roundings of that share
fall below it. -/
def FallsShort (report : Coverage) (required : ℤ) : Prop :=
  let covered : ℤ := report.coveredCount
  let total : ℤ := report.requirements.length
  0 < total ∧ (100 * covered < required * total ∨
    100 * covered = required * total ∧ required ∈ Decimal.missedBounds)

instance (report : Coverage) (required : ℤ) : Decidable (FallsShort report required) :=
  inferInstanceAs (Decidable (_ ∧ _))

/-! ## The complaint about all requirements -/

variable {docs : Docs} {files : List String} {options : Options} {report : Coverage}

/-- What a check tells of all requirements, where too few of them are covered. -/
def complaint (report : Coverage) (required : ℤ) : Issue :=
  total (String.ofList (Decimal.fixedText 1 report.percent))
    (String.ofList (Decimal.generalText (Float.ofInt required))) report

theorem boundText_int {required : ℕ} (most : required ≤ 100) :
    boundText (.int required) =
      .ok (String.ofList (Decimal.generalText (Float.ofInt required))) :=
  if_neg (Bool.eq_false_iff.mp (Decimal.isInf_ofInt (by omega)))

theorem rollup_eq {required : ℕ} (isRequired : options.requiredCoverage = .int required)
    (most : required ≤ 100) (some : report.requirements ≠ []) :
    rollup options report = .ok (
      if Decimal.lessThanInt report.percent required then [complaint report required]
      else []) := by
  have compared : isBelow report.percent (.int required) =
    .ok (Decimal.lessThanInt report.percent required) := rfl
  rw [rollup, if_neg (mt List.isEmpty_iff.mp some), isRequired, compared, boundText_int most]
  cases Decimal.lessThanInt report.percent required <;> rfl

theorem fallsShort_iff {required : ℕ} (some : report.requirements ≠ []) (most : required ≤ 100)
    (few : report.requirements.length ≤ 2 ^ 45) :
    FallsShort report required ↔ Decimal.lessThanInt report.percent required = true := by
  have positive : 0 < report.requirements.length := List.length_pos_iff.mpr some
  rw [Coverage.percent_eq some,
    Decimal.lessThanInt_percentage_iff positive Coverage.coveredCount_le few most, FallsShort,
    and_iff_right (by exact_mod_cast positive)]
  norm_cast

theorem rollup_eq_if_fallsShort {required : ℕ}
    (isRequired : options.requiredCoverage = .int required) (most : required ≤ 100)
    (few : report.requirements.length ≤ 2 ^ 45) :
    rollup options report =
      .ok (if FallsShort report required then [complaint report required] else []) := by
  by_cases none : report.requirements = []
  · have notShort : ¬FallsShort report required := by
      rw [FallsShort, none]
      exact fun short => absurd short.1 (by decide)
    rw [rollup, none, if_neg notShort]
    rfl
  · rw [rollup_eq isRequired most none]
    simp only [fallsShort_iff none most few]

theorem succeeds_absence_iff {required pattern : Value} {contents : String → List Char}
    (hold : docs.Hold contents files) (finding : String → Issue) :
    Succeeds (absence docs required files pattern finding) ↔
      (required.truthy = true → files ≠ [] → Succeeds pattern.pattern) := by
  cases files with
  | nil => exact iff_of_true (.ok []) fun _ nonempty => absurd rfl nonempty
  | cons first rest =>
    rw [absence.eq_def]
    cases required.truthy with
    | false => exact iff_of_true (.ok []) fun on => by cases on
    | true =>
      constructor
      · intro succeeds _ _
        obtain ⟨answer, answered, -⟩ := Succeeds.bind_iff.mp succeeds
        obtain ⟨compiled, isCompiled, -⟩ := exists_of_bind_eq_ok answered
        exact ⟨compiled, isCompiled⟩
      · intro compiles
        obtain ⟨compiled, isCompiled⟩ := compiles rfl (List.cons_ne_nil _ _)
        exact Succeeds.bind_iff.mpr ⟨_, isFoundIn_eq isCompiled hold, .ok _⟩

theorem Returns.filter_isTotal {missing unnamed untried whole issues : List Issue}
    (returns : Returns docs files options report missing unnamed untried whole issues) :
    issues.filter isTotal = whole := by
  have front : (missing ++ unnamed ++ untried).filter isTotal = [] := by
    rw [List.filter_eq_nil_iff]
    intro issue member
    rw [(returns.aboutNoRequirement issue member).2]
    exact Bool.false_ne_true
  have middle : (report.uncovered.map untested).filter isTotal = [] := by
    rw [List.filter_eq_nil_iff]
    intro issue member
    obtain ⟨requirement, -, rfl⟩ := List.mem_map.mp member
    rw [isTotal_untested]
    exact Bool.false_ne_true
  have last : whole.filter isTotal = whole := by
    rcases rollup_eq_ok returns.aboutAll with rfl | ⟨percent, bound, rfl⟩
    · rfl
    · rw [List.filter_singleton, isTotal_total]
      rfl
  rw [returns.inOrder, List.filter_append, List.filter_append, front, middle, last,
    List.nil_append, List.nil_append]

/-! ## Docs of two files -/

/-- A folder with a file that states requirements and one that tests them. -/
def docsOf (stated tested : List Char) : Docs :=
  { disk :=
      { root := .folder [("docs", .folder
          [("REQUIREMENTS.md", .file (Text.encode stated)),
            ("TEST.md", .file (Text.encode tested))])]
        workingFolder := [] }
    root := .fromTop ["docs"] }

def filesOfTwo : List String := ["REQUIREMENTS.md", "TEST.md"]

def textsOf (stated tested : List Char) (file : String) : List Char :=
  if file = "TEST.md" then tested else stated

/-- What the standard patterns make of the two files. -/
def reportOf (stated tested : List Char) : Coverage :=
  reportOn ⟨requirement, paired⟩ (textsOf stated tested) ["REQUIREMENTS.md"] ["TEST.md"]

/-- The standard options with a bound of coverage. -/
def optionsFor (required : ℕ) : Options :=
  { requiredCoverage := .int required }

theorem readText_of_encoded {disk : Disk} {path : FilePath} {text : List Char}
    (read : disk.readBytes path = .ok (Text.encode text))
    (unified : Text.unifyNewlines text = text) :
    disk.readText path = .ok text := by
  rw [Disk.readText, read]
  simp only [bind, Except.bind, Text.decode_encode, unified]
  rfl

theorem hold_docsOf {stated tested : List Char} (unified : Text.unifyNewlines stated = stated)
    (unified' : Text.unifyNewlines tested = tested) :
    (docsOf stated tested).Hold (textsOf stated tested) filesOfTwo := by
  have readStated : (docsOf stated tested).disk.readBytes
      ((docsOf stated tested).path "REQUIREMENTS.md") = .ok (Text.encode stated) := by
    rw [docsOf]
    generalize Text.encode stated = bytes
    cbv
  have readTested : (docsOf stated tested).disk.readBytes
      ((docsOf stated tested).path "TEST.md") = .ok (Text.encode tested) := by
    rw [docsOf]
    generalize Text.encode tested = bytes
    cbv
  exact List.forall_mem_cons.mpr ⟨readText_of_encoded readStated unified,
    List.forall_mem_singleton.mpr (readText_of_encoded readTested unified')⟩

theorem coverage_docsOf {stated tested : List Char} (unified : Text.unifyNewlines stated = stated)
    (unified' : Text.unifyNewlines tested = tested) (required : ℕ) :
    coverage (docsOf stated tested) filesOfTwo (optionsFor required) =
      .ok (reportOf stated tested) := by
  have hold := hold_docsOf unified unified'
  have stating : selectFiles filesOfTwo (optionsFor required).requirementFiles =
      .ok ["REQUIREMENTS.md"] := by cbv
  have testing : selectFiles filesOfTwo (optionsFor required).testCaseFiles =
      .ok ["TEST.md"] := by cbv
  exact coverage_eq_reportOn ((ofOptions_congr rfl rfl).trans ofOptions_standard) stating testing
    (List.forall_mem_singleton.mpr (hold _ List.mem_cons_self)) (List.forall_mem_cons.mp hold).2

/-- Lines that name as many requirements, each behind the same text. -/
def linesNaming (front : String) (count : ℕ) : List Char :=
  (List.range count).flatMap fun index =>
    front.toList ++ "FR-".toList ++ Nat.toDigits 10 (101 + index) ++ ['\n']

/-! ## The bound -/

/-- When a check of a report returns, and what it then tells of all requirements together. -/
structure KeepsBound (docs : Docs) (files : List String) (options : Options) (report : Coverage)
    (required : ℤ) : Prop where
  returns : Succeeds (check docs files options) ↔
    (options.requireTestCaseIds.truthy = true → report.testCaseFiles ≠ [] →
      Succeeds options.testCasePattern.pattern)
  tells : ∀ issues, check docs files options = .ok issues →
    issues.filter isTotal =
      if FallsShort report required then [complaint report required] else []

theorem succeeds_check_iff {required : ℕ} (reported : coverage docs files options = .ok report)
    (isRequired : options.requiredCoverage = .int required) (most : required ≤ 100)
    (few : report.requirements.length ≤ 2 ^ 45) :
    Succeeds (check docs files options) ↔
      (options.requireTestCaseIds.truthy = true → report.testCaseFiles ≠ [] →
        Succeeds options.testCasePattern.pattern) := by
  obtain ⟨patterns, compiled, -, -, hold, -⟩ := exists_of_coverage_eq_ok reported
  obtain ⟨stated, tested⟩ := List.forall_mem_append.mp hold
  obtain ⟨unnamed, isUnnamed, -⟩ := exists_absence options.requireRequirementIds noRequirements
    (IdPatterns.compiled_requirement compiled) stated
  have isWhole := rollup_eq_if_fallsShort isRequired most few
  rw [check_eq, reported]
  change Succeeds (findingsOf docs options report) ↔ _
  rw [← succeeds_absence_iff tested noTestCases]
  constructor
  · intro succeeds
    obtain ⟨_, _, succeeds⟩ := Succeeds.bind_iff.mp succeeds
    obtain ⟨untried, isUntried, -⟩ := Succeeds.bind_iff.mp succeeds
    exact ⟨untried, isUntried⟩
  · rintro ⟨untried, isUntried⟩
    exact Succeeds.bind_iff.mpr ⟨unnamed, isUnnamed, Succeeds.bind_iff.mpr ⟨untried, isUntried,
      Succeeds.bind_iff.mpr ⟨_, isWhole, .ok _⟩⟩⟩

/-- A check tells of all requirements together once where coverage falls short of the bound, and
not at all elsewhere. -/
theorem check_keeps_bound (docs : Docs) (files : List String) (options : Options)
    (report : Coverage) (required : ℤ) (reported : coverage docs files options = .ok report)
    (isRequired : options.requiredCoverage = .int required) (least : 0 ≤ required)
    (most : required ≤ 100) (few : report.requirements.length ≤ 2 ^ 45) :
    KeepsBound docs files options report required := by
  lift required to ℕ using least
  have most' : required ≤ 100 := by exact_mod_cast most
  refine ⟨succeeds_check_iff reported isRequired most' few, ?_⟩
  intro issues returned
  obtain ⟨report', missing, unnamed, untried, whole, returns⟩ := exists_returns returned
  obtain rfl : report' = report := Except.ok.inj (returns.reported.symm.trans reported)
  have isWhole := rollup_eq_if_fallsShort isRequired most' few
  rw [returns.aboutAll, Except.ok.injEq] at isWhole
  rw [returns.filter_isTotal, isWhole]

theorem check_keeps_bound_one_of_two :
    let docs := docsOf (linesNaming "" 2) (linesNaming "TC-U001 " 1)
    let report := reportOf (linesNaming "" 2) (linesNaming "TC-U001 " 1)
    (coverage docs filesOfTwo (optionsFor 50) = .ok report ∧
      (optionsFor 50).requiredCoverage = .int 50 ∧ (0 : ℤ) ≤ 50 ∧ (50 : ℤ) ≤ 100 ∧
      report.requirements.length = 2 ∧ report.coveredCount = 1) ∧
      KeepsBound docs filesOfTwo (optionsFor 50) report 50 := by
  intro docs report
  have reported : coverage docs filesOfTwo (optionsFor 50) = .ok report :=
    coverage_docsOf (by decide +kernel) (by decide +kernel) 50
  have total : report.requirements.length = 2 := by decide +kernel
  have covered : report.coveredCount = 1 := by decide +kernel
  exact ⟨⟨reported, rfl, by decide, by decide, total, covered⟩,
    check_keeps_bound docs filesOfTwo (optionsFor 50) report 50 reported rfl (by decide)
      (by decide) (by rw [total]; decide)⟩

/-- Coverage of 58 percent, shown as such, is complained of although no more is asked for. -/
theorem check_complains_of_kept_bound :
    let docs := docsOf (linesNaming "" 50) (linesNaming "TC-U001 " 29)
    let report := reportOf (linesNaming "" 50) (linesNaming "TC-U001 " 29)
    coverage docs filesOfTwo (optionsFor 58) = .ok report ∧
      100 * report.coveredCount = 58 * report.requirements.length ∧
      ∃ issues, check docs filesOfTwo (optionsFor 58) = .ok issues ∧
        issues.filter isTotal = [total "58.0" "58" report] := by
  intro docs report
  have reported : coverage docs filesOfTwo (optionsFor 58) = .ok report :=
    coverage_docsOf (by decide +kernel) (by decide +kernel) 58
  have ⟨total, covered⟩ : report.requirements.length = 50 ∧ report.coveredCount = 29 := by
    decide +kernel
  clear_value docs report
  have some : report.requirements ≠ [] := by
    rw [← List.length_pos_iff, total]
    decide
  have percent : report.percent = Decimal.percentage 29 50 := by
    rw [Coverage.percent_eq some, covered, total]
  obtain ⟨issues, returned⟩ :=
    (succeeds_check_iff reported rfl (by decide) (by rw [total]; decide)).mpr
      fun _ _ => ⟨testCase, pattern_of_parse parse_testCase⟩
  obtain ⟨report', missing, unnamed, untried, whole, returns⟩ := exists_returns returned
  obtain rfl : report' = report := Except.ok.inj (returns.reported.symm.trans reported)
  have isRequired : (optionsFor 58).requiredCoverage = .int (58 : ℕ) := rfl
  have isWhole := rollup_eq isRequired (by decide) some
  have isBelow : Decimal.lessThanInt (Decimal.percentage 29 50) (58 : ℕ) = true := by
    decide +kernel
  have percentText : String.ofList (Decimal.fixedText 1 (Decimal.percentage 29 50)) = "58.0" := by
    decide +kernel
  have boundText : String.ofList (Decimal.generalText (Float.ofInt (58 : ℕ))) = "58" := by
    decide +kernel
  rw [returns.aboutAll, Except.ok.injEq, percent, if_pos isBelow, complaint, percent, percentText,
    boundText] at isWhole
  refine ⟨reported, by rw [covered, total], issues, returned, ?_⟩
  rw [returns.filter_isTotal, isWhole]

end DocAudit.Traceability
