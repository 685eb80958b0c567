import DocAudit.Proofs.Pattern.LineByLine
import DocAudit.Proofs.Traceability.Completeness

/-!
Two looks at the same files. The guard searches each requirement file as a whole, while requirements
are taken from its lines one by one. The two agree for regular expressions that keep to lines; an
anchor at the start or the end of the text, or a class that holds a line feed, sets them apart.
-/

namespace DocAudit.Traceability

open Pattern StandardPatterns

variable {docs : Docs} {files : List String} {options : Options}

/-! ## Taking requirements from lines -/

theorem requirements_eq_nil_iff (patterns : IdPatterns) (contents : String → List Char)
    (requirementFiles testCaseFiles : List String) :
    (reportOn patterns contents requirementFiles testCaseFiles).requirements = [] ↔
      ∀ file ∈ requirementFiles, ∀ line ∈ Text.lines (contents file),
        patterns.requirement.occursIn line = false := by
  have onLines (file : String) :
      (∀ numbered ∈ (Text.lines (contents file)).zipIdx 1,
        patterns.requirement.occursIn numbered.1 = false) ↔
          ∀ line ∈ Text.lines (contents file), patterns.requirement.occursIn line = false := by
    conv_rhs => rw [← List.zipIdx_map_fst 1 (Text.lines (contents file)), List.forall_mem_map]
  rw [reportOn, (areFirstSightings_firstSightings _).eq_nil_iff, statedIn,
    List.flatMap_eq_nil_iff]
  simp only [List.flatMap_eq_nil_iff, statedOn, List.map_eq_nil_iff, findAll_eq_nil_iff, onLines]

/-! ## The guard and the requirements -/

def TellsNoIds (issues : List Issue) : Prop :=
  ∃ issue ∈ issues, issue.message = .text "No requirement IDs found"

theorem message_ne_of_endsIn {issue : Issue} {ending message : String}
    (ends : issue.endsIn ending = true)
    (differs : Text.endsWith message.toList ending.toList = false) :
    issue.message ≠ .text message := by
  intro same
  rw [Issue.endsIn, same] at ends
  exact Bool.false_ne_true (differs.symm.trans ends)

theorem Returns.tellsNoIds_iff {report : Coverage}
    {missing unnamed untried whole issues : List Issue}
    (returns : Returns docs files options report missing unnamed untried whole issues) :
    TellsNoIds issues ↔ unnamed ≠ [] := by
  constructor
  · rintro ⟨issue, member, told⟩ rfl
    rw [returns.inOrder] at member
    simp only [List.mem_append] at member
    rcases member with (((member | member) | member) | member) | member
    · rcases returns.aboutFiles with rfl | rfl
      · cases member
      · rw [List.mem_singleton.mp member] at told
        simp [noTestFiles] at told
    · cases member
    · rcases absence_eq_ok returns.aboutTestCases with rfl | ⟨file, rfl⟩
      · cases member
      · rw [List.mem_singleton.mp member] at told
        simp [noTestCases] at told
    · obtain ⟨requirement, -, rfl⟩ := List.mem_map.mp member
      exact message_ne_of_endsIn (isUntested_untested requirement) (by decide) told
    · rcases rollup_eq_ok returns.aboutAll with rfl | ⟨percent, bound, rfl⟩
      · cases member
      · rw [List.mem_singleton.mp member] at told
        exact message_ne_of_endsIn (isTotal_total percent bound report) (by decide) told
  · intro nonempty
    rcases absence_eq_ok returns.aboutRequirements with rfl | ⟨file, rfl⟩
    · exact absurd rfl nonempty
    · refine ⟨noRequirements file, ?_, rfl⟩
      rw [returns.inOrder]
      simp

/-- How the guard and the requirements of a report come about, and when they agree. -/
structure GuardsIds (docs : Docs) (files : List String) (options : Options) (pattern : Pattern)
    (contents : String → List Char) (report : Coverage) (issues : List Issue) : Prop where
  compiled : options.requirementPattern.pattern = .ok pattern
  reported : coverage docs files options = .ok report
  read : docs.Hold contents report.requirementFiles
  guard : TellsNoIds issues ↔ options.requireRequirementIds.truthy = true ∧
    report.requirementFiles ≠ [] ∧
      ∀ file ∈ report.requirementFiles, pattern.occursIn (contents file) = false
  requirements : report.requirements = [] ↔ ∀ file ∈ report.requirementFiles,
    ∀ line ∈ Text.lines (contents file), pattern.occursIn line = false
  agree : pattern.part.keepsToLine = true →
    (TellsNoIds issues ↔ options.requireRequirementIds.truthy = true ∧
      report.requirementFiles ≠ [] ∧ report.requirements = [])

theorem Returns.guardsIds {report : Coverage} {missing unnamed untried whole issues : List Issue}
    (returns : Returns docs files options report missing unnamed untried whole issues) :
    ∃ pattern contents, GuardsIds docs files options pattern contents report issues := by
  obtain ⟨patterns, compiled, -, -, read, isReport⟩ := exists_of_coverage_eq_ok returns.reported
  have compiledAlone := IdPatterns.compiled_requirement compiled
  have stated := (List.forall_mem_append.mp read).1
  obtain ⟨found, isFound, guard⟩ :=
    exists_absence options.requireRequirementIds noRequirements compiledAlone stated
  have told : TellsNoIds issues ↔ options.requireRequirementIds.truthy = true ∧
      report.requirementFiles ≠ [] ∧ ∀ file ∈ report.requirementFiles,
        patterns.requirement.occursIn (contentsOf docs file) = false := by
    have same := isFound.symm.trans returns.aboutRequirements
    rw [Except.ok.injEq] at same
    rw [returns.tellsNoIds_iff, ← same, guard]
  have none : report.requirements = [] ↔ ∀ file ∈ report.requirementFiles,
      ∀ line ∈ Text.lines (contentsOf docs file), patterns.requirement.occursIn line = false := by
    rw [isReport]
    exact requirements_eq_nil_iff _ _ _ _
  refine ⟨patterns.requirement, contentsOf docs, compiledAlone, returns.reported, stated, told,
    none, ?_⟩
  intro keeps
  rw [told, none]
  exact and_congr_right fun _ => and_congr_right fun _ =>
    forall₂_congr fun file _ => occursIn_eq_false_iff_lines keeps

theorem check_guards_ids (docs : Docs) (files : List String) (options : Options)
    (issues : List Issue) (returned : check docs files options = .ok issues) :
    ∃ pattern contents report, GuardsIds docs files options pattern contents report issues := by
  obtain ⟨report, _, _, _, _, returns⟩ := exists_returns returned
  obtain ⟨pattern, contents, guards⟩ := returns.guardsIds
  exact ⟨pattern, contents, report, guards⟩

theorem check_guards_ids_one_requirement :
    let docs : Docs :=
      { disk :=
          { root := .folder
              [("docs", .folder [("REQUIREMENTS.md", .file (Text.encode "FR-001\n".toList))])]
            workingFolder := [] }
        root := .fromTop ["docs"] }
    let files := ["REQUIREMENTS.md"]
    let options : Options := { requiredCoverage := .bool true }
    ∃ issues, check docs files options = .ok issues ∧ ∃ pattern contents report,
      GuardsIds docs files options pattern contents report issues := by
  intro docs files options
  have stating : selectFiles files options.requirementFiles = .ok ["REQUIREMENTS.md"] := by cbv
  have testing : selectFiles files options.testCaseFiles = .ok [] := by cbv
  have read : docs.text "REQUIREMENTS.md" = .ok "FR-001\n".toList := by cbv
  have compiled : IdPatterns.ofOptions options = .ok ⟨requirement, paired⟩ :=
    (ofOptions_congr rfl rfl).trans ofOptions_standard
  have compiledTestCase : options.testCasePattern.pattern = .ok testCase :=
    pattern_of_parse parse_testCase
  have bound : options.requiredCoverage = .bool true := rfl
  clear_value docs files options
  have holdStated : docs.Hold (fun _ => "FR-001\n".toList) ["REQUIREMENTS.md"] :=
    List.forall_mem_singleton.mpr read
  obtain ⟨issues, returned⟩ :=
    succeeds_check compiled compiledTestCase stating testing holdStated (List.forall_mem_nil _)
      bound
  exact ⟨issues, returned, check_guards_ids docs files options issues returned⟩

/-- A requirement at the start of a text. -/
def leading : Pattern :=
  ⟨.ofList [.anchor .textStart, letter 'F', letter 'R', letter '-', exactly 3 digit], []⟩

theorem parse_leading : Pattern.parse "^FR-\\d\x7b3\x7d".toList = .ok leading := by decide +kernel

/-- The guard misses a requirement that is anchored to the start and stands on the second line, from
which it is taken all the same. -/
theorem check_guards_ids_second_line :
    let docs : Docs :=
      { disk :=
          { root := .folder
              [("docs", .folder
                [("REQUIREMENTS.md", .file (Text.encode "# Login\nFR-001\n".toList))])]
            workingFolder := [] }
        root := .fromTop ["docs"] }
    let files := ["REQUIREMENTS.md"]
    let options : Options :=
      { requirementPattern := .text "^FR-\\d\x7b3\x7d", requiredCoverage := .bool true }
    ∃ issues report, check docs files options = .ok issues ∧
      coverage docs files options = .ok report ∧ TellsNoIds issues ∧
      ids report.requirements = ["FR-001".toList] := by
  intro docs files options
  have stating : selectFiles files options.requirementFiles = .ok ["REQUIREMENTS.md"] := by cbv
  have testing : selectFiles files options.testCaseFiles = .ok [] := by cbv
  have read : docs.text "REQUIREMENTS.md" = .ok "# Login\nFR-001\n".toList := by cbv
  have compiledAlone : options.requirementPattern.pattern = .ok leading :=
    pattern_of_parse parse_leading
  have compiledTestCase : options.testCasePattern.pattern = .ok testCase :=
    pattern_of_parse parse_testCase
  obtain ⟨behind, parsed, -⟩ := exists_parse_of_any
    (show (Pattern.parse (pairedText options).toList).toOption.any (fun _ => true) = true by
      decide +kernel)
  have compiled : IdPatterns.ofOptions options = .ok ⟨leading, behind⟩ := by
    rw [IdPatterns.ofOptions, compiledAlone, pattern_of_parse parsed]
    rfl
  have bound : options.requiredCoverage = .bool true := rfl
  have required : options.requireRequirementIds.truthy = true := rfl
  clear_value docs files options
  have hold : docs.Hold (fun _ => "# Login\nFR-001\n".toList) ["REQUIREMENTS.md"] :=
    List.forall_mem_singleton.mpr read
  obtain ⟨issues, returned⟩ :=
    succeeds_check compiled compiledTestCase stating testing hold (List.forall_mem_nil _) bound
  obtain ⟨report, _, unnamed, _, _, returns⟩ := exists_returns returned
  have isReport := coverage_eq_reportOn compiled stating testing hold (List.forall_mem_nil _)
  rw [returns.reported, Except.ok.injEq] at isReport
  subst isReport
  refine ⟨issues, _, returned, returns.reported, ?_, ?_⟩
  · obtain ⟨found, isFound, guard⟩ :=
      exists_absence options.requireRequirementIds noRequirements compiledAlone hold
    have same := isFound.symm.trans returns.aboutRequirements
    rw [Except.ok.injEq] at same
    rw [returns.tellsNoIds_iff, ← same, guard]
    refine ⟨required, List.cons_ne_nil _ _, ?_⟩
    decide +kernel
  · change ids (firstSightings (statedIn leading (fun _ => "# Login\nFR-001\n".toList)
      ["REQUIREMENTS.md"])) = ["FR-001".toList]
    decide +kernel

end DocAudit.Traceability
