import DocAudit.Proofs.Document.NumberedLines
import DocAudit.Proofs.Pattern.FoundInOrder
import DocAudit.Proofs.Rules.StandardPatterns
import DocAudit.Proofs.Traceability.Findings
import DocAudit.Rules.Traceability
import Mathlib

/-!
No requirement is lost. What a check knows of requirements is what the lines of the files state, in
the order of files, lines and columns; of the sightings of each requirement the first one counts. It
complains of just those that no line of a test case yields, and in which order the files come makes
no difference to that.
-/

/-! ## First sightings -/

namespace DocAudit.Traceability

def ids (requirements : List Requirement) : List (List Char) :=
  requirements.map (·.id)

/-- Each requirement is the first of its sightings, and just those in front of it have been seen
before. Nothing that has been seen is left out. -/
structure AreFirstSightings (requirements sightings : List Requirement) : Prop where
  once : (ids requirements).Nodup
  complete : ∀ id ∈ ids sightings, id ∈ ids requirements
  first : ∀ front requirement back, requirements = front ++ requirement :: back →
    ∃ before after, sightings = before ++ requirement :: after ∧ requirement.id ∉ ids before ∧
      ∀ id, id ∈ ids front ↔ id ∈ ids before

namespace AreFirstSightings

variable {requirements sightings : List Requirement}

theorem nil : AreFirstSightings [] [] where
  once := .nil
  complete := nofun
  first front requirement back split := by simp at split

theorem mem_ids_iff (areFirst : AreFirstSightings requirements sightings) {id : List Char} :
    id ∈ ids requirements ↔ id ∈ ids sightings := by
  refine ⟨fun known => ?_, areFirst.complete id⟩
  obtain ⟨requirement, member, rfl⟩ := List.mem_map.mp known
  obtain ⟨front, back, split⟩ := List.append_of_mem member
  obtain ⟨before, after, rfl, -⟩ := areFirst.first front requirement back split
  exact List.mem_map_of_mem (by simp)

theorem eq_nil_iff (areFirst : AreFirstSightings requirements sightings) :
    requirements = [] ↔ sightings = [] := by
  constructor
  · rintro rfl
    cases sightings with
    | nil => rfl
    | cons sighting rest => cases areFirst.complete sighting.id List.mem_cons_self
  · rintro rfl
    cases requirements with
    | nil => rfl
    | cons requirement rest => cases areFirst.mem_ids_iff.mp List.mem_cons_self

theorem seenAgain (areFirst : AreFirstSightings requirements sightings) {sighting : Requirement}
    (known : sighting.id ∈ ids requirements) :
    AreFirstSightings requirements (sightings ++ [sighting]) where
  once := areFirst.once
  complete := by
    intro id member
    rw [ids, List.map_append, List.mem_append] at member
    rcases member with before | last
    · exact areFirst.complete id before
    · rwa [List.mem_singleton.mp last]
  first := by
    intro front requirement back split
    obtain ⟨before, after, rfl, new, same⟩ := areFirst.first front requirement back split
    exact ⟨before, after ++ [sighting], by simp, new, same⟩

theorem seenFirst (areFirst : AreFirstSightings requirements sightings) {sighting : Requirement}
    (new : sighting.id ∉ ids requirements) :
    AreFirstSightings (requirements ++ [sighting]) (sightings ++ [sighting]) where
  once := by
    rw [ids, List.map_append, List.nodup_append]
    refine ⟨areFirst.once, List.nodup_singleton _, ?_⟩
    rintro id known _ last rfl
    rw [List.map_singleton, List.mem_singleton] at last
    exact new (last ▸ known)
  complete := by
    intro id member
    rw [ids, List.map_append, List.mem_append] at member ⊢
    exact member.imp_left (areFirst.complete id)
  first := by
    intro front requirement back split
    rcases List.eq_nil_or_concat back with rfl | ⟨further, last, rfl⟩
    · obtain ⟨rfl, sameLast⟩ := List.append_inj' split rfl
      obtain rfl := List.singleton_injective sameLast
      refine ⟨sightings, [], rfl, ?_, fun id => areFirst.mem_ids_iff⟩
      rwa [← areFirst.mem_ids_iff]
    · have cut : requirements ++ [sighting] = (front ++ requirement :: further) ++ [last] := by
        simpa using split
      obtain ⟨rfl, -⟩ := List.append_inj' cut rfl
      obtain ⟨before, after, rfl, unseen, same⟩ := areFirst.first front requirement further rfl
      exact ⟨before, after ++ [sighting], by simp, unseen, same⟩

end AreFirstSightings

theorem firstSightings_append_singleton (sightings : List Requirement) (sighting : Requirement) :
    firstSightings (sightings ++ [sighting]) =
      if sighting.id ∈ ids (firstSightings sightings) then firstSightings sightings
      else firstSightings sightings ++ [sighting] := by
  have known : (sightings.foldl firstSightings.keepFirst []).any (·.id == sighting.id) = true ↔
      sighting.id ∈ ids (firstSightings sightings) := by
    simp [firstSightings, ids]
  rw [firstSightings, List.foldl_append, List.foldl_cons, List.foldl_nil,
    firstSightings.keepFirst]
  simp only [known]
  split
  · rfl
  · exact List.reverse_cons

theorem areFirstSightings_firstSightings (sightings : List Requirement) :
    AreFirstSightings (firstSightings sightings) sightings := by
  induction sightings using List.reverseRecOn with
  | nil => exact .nil
  | append_singleton sightings sighting induction =>
    rw [firstSightings_append_singleton]
    split
    · next known => exact induction.seenAgain known
    · next new => exact induction.seenFirst new

end DocAudit.Traceability

/-! ## Requirements that are not lost -/

namespace DocAudit

namespace Traceability

open Pattern StandardPatterns

/-- What a line with its number states: one sighting for each match. -/
def statedOn (pattern : Pattern) (file : String) (line : List Char × Nat) : List Requirement :=
  (pattern.findAll line.1).map fun found => ⟨found.text, file, line.2, line.1.take 100⟩

/-- What files state, by files, lines and matches. -/
def statedIn (pattern : Pattern) (contents : String → List Char) (files : List String) :
    List Requirement :=
  files.flatMap fun file => ((Text.lines (contents file)).zipIdx 1).flatMap (statedOn pattern file)

/-- A line yields a requirement that it names alone or behind a test case. -/
def IdPatterns.Yields (patterns : IdPatterns) (line id : List Char) : Prop :=
  (∃ found ∈ patterns.requirement.findAll line, found.text = id) ∨
    ∃ found ∈ patterns.paired.findAll line, patterns.paired.named? found pairedName = some id

def IsTested (patterns : IdPatterns) (contents : String → List Char) (files : List String)
    (id : List Char) : Prop :=
  ∃ file ∈ files, ∃ line ∈ Text.lines (contents file), patterns.Yields line id

/-! ## Reading documents -/

theorem flatMap_numberLines {β : Type} (view : List Char × Nat → List β) (number : Nat)
    (inBlock : Bool) (items : List (List Char)) :
    (numberLines number inBlock items).flatMap (fun line => view (line.text, line.number)) =
      (items.zipIdx number).flatMap view := by
  induction items generalizing number inBlock with
  | nil => rfl
  | cons text rest induction =>
    rw [numberLines, List.flatMap_cons, induction, List.zipIdx_cons, List.flatMap_cons]

theorem sightings_ofText (pattern : Pattern) (file : String) (text : List Char) :
    sightings pattern (.ofText file text) =
      ((Text.lines text).zipIdx 1).flatMap (statedOn pattern file) :=
  flatMap_numberLines (statedOn pattern file) 1 false (Text.lines text)

theorem mem_namedOn_iff {patterns : IdPatterns} {line : Line} {id : List Char} :
    id ∈ namedOn patterns line ↔ patterns.Yields line.text id := by
  rw [namedOn, List.mem_append, List.mem_filterMap, List.mem_map, IdPatterns.Yields, or_comm]

theorem mem_namedIn_ofText_iff {patterns : IdPatterns} {file : String} {text id : List Char} :
    id ∈ namedIn patterns (.ofText file text) ↔
      ∃ line ∈ Text.lines text, patterns.Yields line id := by
  simp only [namedIn, List.mem_flatMap, mem_namedOn_iff, ← map_text_ofText file text,
    List.mem_map, exists_exists_and_eq_and]

theorem mapM_document {docs : Docs} {contents : String → List Char} {files : List String}
    (hold : docs.Hold contents files) :
    files.mapM docs.document = .ok (files.map fun file => .ofText file (contents file)) := by
  apply mapM_eq_ok_map
  intro file member
  rw [Docs.document, hold file member]
  rfl

/-- What a file holds, and nothing where it cannot be read. -/
def contentsOf (docs : Docs) (file : String) : List Char :=
  (docs.text file).toOption.getD []

theorem hold_contentsOf {docs : Docs} {files : List String}
    (read : Succeeds (files.mapM docs.document)) : docs.Hold (contentsOf docs) files := by
  intro file member
  obtain ⟨document, succeeds⟩ := Succeeds.mapM_iff.mp read file member
  obtain ⟨text, found, -⟩ := exists_of_bind_eq_ok succeeds
  rw [contentsOf, found]
  rfl

/-! ## The report -/

/-- The report on files, once they have been selected and read. -/
def reportOn (patterns : IdPatterns) (contents : String → List Char)
    (requirementFiles testCaseFiles : List String) : Coverage where
  requirements := firstSightings (statedIn patterns.requirement contents requirementFiles)
  covered := (testCaseFiles.flatMap fun file =>
    namedIn patterns (.ofText file (contents file))).eraseDups
  requirementFiles := requirementFiles
  testCaseFiles := testCaseFiles

section

variable {docs : Docs} {files : List String} {options : Options} {report : Coverage}

theorem coverage_eq_reportOn {patterns : IdPatterns} {contents : String → List Char}
    {requirementFiles testCaseFiles : List String}
    (compiled : IdPatterns.ofOptions options = .ok patterns)
    (stating : selectFiles files options.requirementFiles = .ok requirementFiles)
    (testing : selectFiles files options.testCaseFiles = .ok testCaseFiles)
    (stated : docs.Hold contents requirementFiles) (tested : docs.Hold contents testCaseFiles) :
    coverage docs files options =
      .ok (reportOn patterns contents requirementFiles testCaseFiles) := by
  have sameSightings :
      (requirementFiles.map fun file => Document.ofText file (contents file)).flatMap
        (sightings patterns.requirement) =
          statedIn patterns.requirement contents requirementFiles := by
    simp only [List.flatMap_map, sightings_ofText, statedIn]
  rw [coverage, compiled, stating, testing]
  simp only [bind, Except.bind]
  rw [mapM_document stated, mapM_document tested]
  simp only [sameSightings, List.flatMap_map]
  rfl

/-- A check that has a bound of its own kind to compare with does not fail. -/
theorem succeeds_check {patterns : IdPatterns} {testCase : Pattern}
    {contents : String → List Char} {requirementFiles testCaseFiles : List String} {truth : Bool}
    (compiled : IdPatterns.ofOptions options = .ok patterns)
    (compiledTestCase : options.testCasePattern.pattern = .ok testCase)
    (stating : selectFiles files options.requirementFiles = .ok requirementFiles)
    (testing : selectFiles files options.testCaseFiles = .ok testCaseFiles)
    (stated : docs.Hold contents requirementFiles) (tested : docs.Hold contents testCaseFiles)
    (bound : options.requiredCoverage = .bool truth) : Succeeds (check docs files options) := by
  have reported := coverage_eq_reportOn compiled stating testing stated tested
  obtain ⟨unnamed, isUnnamed, -⟩ := exists_absence options.requireRequirementIds noRequirements
    (IdPatterns.compiled_requirement compiled) stated
  obtain ⟨untried, isUntried, -⟩ :=
    exists_absence options.requireTestCaseIds noTestCases compiledTestCase tested
  rw [check_eq]
  exact Succeeds.bind_iff.mpr ⟨_, reported, Succeeds.bind_iff.mpr ⟨unnamed, isUnnamed,
    Succeeds.bind_iff.mpr ⟨untried, isUntried,
      Succeeds.bind_ok_iff.mpr (succeeds_rollup_of_bool bound _)⟩⟩⟩

theorem exists_of_coverage_eq_ok (returned : coverage docs files options = .ok report) :
    ∃ patterns, IdPatterns.ofOptions options = .ok patterns ∧
      selectFiles files options.requirementFiles = .ok report.requirementFiles ∧
      selectFiles files options.testCaseFiles = .ok report.testCaseFiles ∧
      docs.Hold (contentsOf docs) (report.requirementFiles ++ report.testCaseFiles) ∧
      report = reportOn patterns (contentsOf docs) report.requirementFiles
        report.testCaseFiles := by
  obtain ⟨patterns, compiled, further⟩ := exists_of_bind_eq_ok returned
  obtain ⟨requirementFiles, stating, further⟩ := exists_of_bind_eq_ok further
  obtain ⟨testCaseFiles, testing, further⟩ := exists_of_bind_eq_ok further
  obtain ⟨statedDocuments, readStated, further⟩ := exists_of_bind_eq_ok further
  obtain ⟨testedDocuments, readTested, same⟩ := exists_of_bind_eq_ok further
  have stated := hold_contentsOf ⟨statedDocuments, readStated⟩
  have tested := hold_contentsOf ⟨testedDocuments, readTested⟩
  have reported := coverage_eq_reportOn compiled stating testing stated tested
  rw [returned, Except.ok.injEq] at reported
  subst reported
  exact ⟨patterns, compiled, stating, testing, List.forall_mem_append.mpr ⟨stated, tested⟩, rfl⟩

end

section

variable (patterns : IdPatterns) (contents : String → List Char)
  {requirementFiles requirementFiles' testCaseFiles testCaseFiles' : List String}

theorem mem_covered_reportOn_iff {id : List Char} :
    id ∈ (reportOn patterns contents requirementFiles testCaseFiles).covered ↔
      IsTested patterns contents testCaseFiles id := by
  simp only [reportOn, List.mem_eraseDups, List.mem_flatMap, mem_namedIn_ofText_iff, IsTested]

theorem mem_uncovered_reportOn_iff {requirement : Requirement} :
    requirement ∈ (reportOn patterns contents requirementFiles testCaseFiles).uncovered ↔
      requirement ∈ (reportOn patterns contents requirementFiles testCaseFiles).requirements ∧
        ¬ IsTested patterns contents testCaseFiles requirement.id := by
  rw [Coverage.uncovered, List.mem_filter, ← mem_covered_reportOn_iff, Bool.not_eq_true',
    ← Bool.not_eq_true, List.contains_iff_mem]

/-- Requirements, each once, are as good as the list of their names. -/
theorem mem_ids_uncovered_reportOn_iff {id : List Char} :
    id ∈ ids (reportOn patterns contents requirementFiles testCaseFiles).uncovered ↔
      id ∈ ids (statedIn patterns.requirement contents requirementFiles) ∧
        ¬ IsTested patterns contents testCaseFiles id := by
  have stated : id ∈ ids (reportOn patterns contents requirementFiles testCaseFiles).requirements ↔
      id ∈ ids (statedIn patterns.requirement contents requirementFiles) :=
    (areFirstSightings_firstSightings _).mem_ids_iff
  rw [← stated]
  simp only [ids, List.mem_map, mem_uncovered_reportOn_iff]
  constructor
  · rintro ⟨requirement, ⟨member, untested⟩, rfl⟩
    exact ⟨⟨requirement, member, rfl⟩, untested⟩
  · rintro ⟨⟨requirement, member, rfl⟩, untested⟩
    exact ⟨requirement, ⟨member, untested⟩, rfl⟩

theorem nodup_ids_uncovered_reportOn :
    (ids (reportOn patterns contents requirementFiles testCaseFiles).uncovered).Nodup :=
  (areFirstSightings_firstSightings _).once.sublist (List.filter_sublist.map _)

theorem perm_ids_uncovered_reportOn (stating : requirementFiles'.Perm requirementFiles)
    (testing : testCaseFiles'.Perm testCaseFiles) :
    (ids (reportOn patterns contents requirementFiles' testCaseFiles').uncovered).Perm
      (ids (reportOn patterns contents requirementFiles testCaseFiles).uncovered) := by
  rw [List.perm_ext_iff_of_nodup (nodup_ids_uncovered_reportOn patterns contents)
    (nodup_ids_uncovered_reportOn patterns contents)]
  intro id
  have stated : (statedIn patterns.requirement contents requirementFiles').Perm
      (statedIn patterns.requirement contents requirementFiles) := stating.flatMap_right _
  rw [mem_ids_uncovered_reportOn_iff, mem_ids_uncovered_reportOn_iff, ids, ids,
    (stated.map _).mem_iff]
  simp only [IsTested, testing.mem_iff]

end

/-! ## Completeness -/

variable {docs : Docs} {files : List String} {options : Options}

theorem selectFiles_perm {others selected : List String} {globs : Value}
    (sameFiles : others.Perm files) (selects : selectFiles files globs = .ok selected) :
    ∃ selected', selectFiles others globs = .ok selected' ∧ selected'.Perm selected := by
  obtain ⟨answered, rfl⟩ := filterM_eq_ok_iff.mp selects
  refine ⟨_, filterM_eq_ok_iff.mpr ⟨fun file member => ?_, rfl⟩, sameFiles.filter _⟩
  exact answered file (sameFiles.mem_iff.mp member)

namespace Returns

variable {report : Coverage} {missing unnamed untried whole issues : List Issue}

/-- What a check tells of whole files is about no requirement. -/
theorem aboutNoRequirement
    (returns : Returns docs files options report missing unnamed untried whole issues) :
    ∀ issue ∈ missing ++ unnamed ++ untried, isUntested issue = false ∧ isTotal issue = false := by
  intro issue member
  rw [List.mem_append, List.mem_append] at member
  rcases member with (member | member) | member
  · rcases returns.aboutFiles with rfl | rfl
    · cases member
    · obtain rfl := List.mem_singleton.mp member
      decide
  · rcases absence_eq_ok returns.aboutRequirements with rfl | ⟨file, rfl⟩
    · cases member
    · obtain rfl := List.mem_singleton.mp member
      exact ⟨rfl, rfl⟩
  · rcases absence_eq_ok returns.aboutTestCases with rfl | ⟨file, rfl⟩
    · cases member
    · obtain rfl := List.mem_singleton.mp member
      exact ⟨rfl, rfl⟩

theorem filter_isUntested
    (returns : Returns docs files options report missing unnamed untried whole issues) :
    issues.filter isUntested = report.uncovered.map untested := by
  have front : (missing ++ unnamed ++ untried).filter isUntested = [] := by
    rw [List.filter_eq_nil_iff]
    intro issue member
    rw [(returns.aboutNoRequirement issue member).1]
    exact Bool.false_ne_true
  have middle : (report.uncovered.map untested).filter isUntested =
      report.uncovered.map untested := by
    rw [List.filter_eq_self]
    rintro issue member
    obtain ⟨requirement, -, rfl⟩ := List.mem_map.mp member
    exact isUntested_untested requirement
  have last : whole.filter isUntested = [] := by
    rcases rollup_eq_ok returns.aboutAll with rfl | ⟨percent, bound, rfl⟩
    · rfl
    · rw [List.filter_singleton, isUntested_total]
      rfl
  rw [returns.inOrder, List.filter_append, List.filter_append, front, middle, last,
    List.nil_append, List.append_nil]

/-- The finding about all requirements comes last. -/
theorem eq_nil_of_isTotal
    (returns : Returns docs files options report missing unnamed untried whole issues)
    {front back : List Issue} {issue : Issue} (split : issues = front ++ issue :: back)
    (isTotal : isTotal issue = true) :
    back = [] ∧ ∃ percent bound, issue = total percent bound report := by
  have before : ∀ issue ∈ missing ++ unnamed ++ untried ++ report.uncovered.map untested,
      Traceability.isTotal issue = false := by
    rw [List.forall_mem_append]
    refine ⟨fun issue member => (returns.aboutNoRequirement issue member).2, ?_⟩
    intro issue member
    obtain ⟨requirement, -, rfl⟩ := List.mem_map.mp member
    exact isTotal_untested requirement
  have notBefore : issue ∉ missing ++ unnamed ++ untried ++ report.uncovered.map untested := by
    intro member
    rw [before issue member] at isTotal
    cases isTotal
  have order := returns.inOrder
  rw [split] at order
  rcases rollup_eq_ok returns.aboutAll with rfl | ⟨percent, bound, rfl⟩
  · rw [List.append_nil] at order
    exact absurd (order ▸ List.mem_append_right front List.mem_cons_self) notBefore
  · rcases List.eq_nil_or_concat back with rfl | ⟨further, last, rfl⟩
    · obtain ⟨-, same⟩ := List.append_inj' order rfl
      exact ⟨rfl, percent, bound, List.singleton_injective same⟩
    · have cut : (front ++ issue :: further) ++ [last] =
          (missing ++ unnamed ++ untried ++ report.uncovered.map untested) ++
            [total percent bound report] := by
        rw [← order]
        simp
      obtain ⟨same, -⟩ := List.append_inj' cut rfl
      exact absurd (same ▸ List.mem_append_right front List.mem_cons_self) notBefore

end Returns

/-- What a check returns is complete. The requirements of its report are the first sightings of
what the requirement files state, and the ones complained of are those that nothing tests. -/
structure IsComplete (docs : Docs) (files : List String) (options : Options)
    (patterns : IdPatterns) (contents : String → List Char) (report : Coverage)
    (issues : List Issue) : Prop where
  compiled : IdPatterns.ofOptions options = .ok patterns
  reported : coverage docs files options = .ok report
  stating : selectFiles files options.requirementFiles = .ok report.requirementFiles
  testing : selectFiles files options.testCaseFiles = .ok report.testCaseFiles
  read : docs.Hold contents (report.requirementFiles ++ report.testCaseFiles)
  requirements : AreFirstSightings report.requirements
    (statedIn patterns.requirement contents report.requirementFiles)
  byColumns : ∀ line, (patterns.requirement.findAll line).Pairwise fun earlier later =>
    earlier.start.index ≤ later.start.index
  inOrder : report.uncovered.Sublist report.requirements
  uncovered : ∀ requirement ∈ report.requirements, requirement ∈ report.uncovered ↔
    ¬ IsTested patterns contents report.testCaseFiles requirement.id
  complaints : issues.filter isUntested = report.uncovered.map untested
  total : ∀ front issue back, issues = front ++ issue :: back → isTotal issue = true →
    back = [] ∧ issue.suggestion = some ("Uncovered requirements: " ++
      ", ".intercalate (report.uncovered.map fun requirement => String.ofList requirement.id))
  anyOrder : ∀ others, others.Perm files → ∃ other, coverage docs others options = .ok other ∧
    (ids other.uncovered).Perm (ids report.uncovered)

theorem check_is_complete (docs : Docs) (files : List String) (options : Options)
    (issues : List Issue) (returned : check docs files options = .ok issues) :
    ∃ patterns contents report,
      IsComplete docs files options patterns contents report issues := by
  obtain ⟨report, missing, unnamed, untried, whole, returns⟩ := exists_returns returned
  obtain ⟨patterns, compiled, stating, testing, read, isReport⟩ :=
    exists_of_coverage_eq_ok returns.reported
  refine ⟨patterns, contentsOf docs, report, ?_⟩
  exact {
    compiled, stating, testing, read
    reported := returns.reported
    requirements := by
      rw [isReport]
      exact areFirstSightings_firstSightings _
    byColumns := patterns.requirement.pairwise_start_findAll
    inOrder := List.filter_sublist
    uncovered := by
      intro requirement member
      rw [isReport] at member ⊢
      rw [mem_uncovered_reportOn_iff, and_iff_right member]
      rfl
    complaints := returns.filter_isUntested
    total := by
      intro front issue back split isTotal
      obtain ⟨isLast, percent, bound, rfl⟩ := returns.eq_nil_of_isTotal split isTotal
      exact ⟨isLast, rfl⟩
    anyOrder := by
      intro others sameFiles
      obtain ⟨stating', selectsStating, sameStating⟩ := selectFiles_perm sameFiles stating
      obtain ⟨testing', selectsTesting, sameTesting⟩ := selectFiles_perm sameFiles testing
      obtain ⟨stated, tested⟩ := List.forall_mem_append.mp read
      refine ⟨_, coverage_eq_reportOn compiled selectsStating selectsTesting
        (fun file member => stated file (sameStating.mem_iff.mp member))
        (fun file member => tested file (sameTesting.mem_iff.mp member)), ?_⟩
      rw [isReport]
      exact perm_ids_uncovered_reportOn patterns _ sameStating sameTesting }

theorem check_is_complete_one_of_two :
    let docs : Docs :=
      { disk :=
          { root := .folder [("docs", .folder
              [("REQUIREMENTS.md",
                  .file (Text.encode "- FR-001: Login\n- FR-002: Logout\n".toList)),
                ("TEST.md", .file (Text.encode "TC-U001 [FR-001]\n".toList))])]
            workingFolder := [] }
        root := .fromTop ["docs"] }
    let files := ["REQUIREMENTS.md", "TEST.md"]
    let options : Options := { requiredCoverage := .bool true }
    ∃ issues, check docs files options = .ok issues ∧ ∃ patterns contents report,
      IsComplete docs files options patterns contents report issues := by
  intro docs files options
  have stating : selectFiles files options.requirementFiles = .ok ["REQUIREMENTS.md"] := by cbv
  have testing : selectFiles files options.testCaseFiles = .ok ["TEST.md"] := by cbv
  have readStated :
      docs.text "REQUIREMENTS.md" = .ok "- FR-001: Login\n- FR-002: Logout\n".toList := by cbv
  have readTested : docs.text "TEST.md" = .ok "TC-U001 [FR-001]\n".toList := by cbv
  have compiled : IdPatterns.ofOptions options = .ok ⟨requirement, paired⟩ :=
    (ofOptions_congr rfl rfl).trans ofOptions_standard
  have compiledTestCase : options.testCasePattern.pattern = .ok testCase :=
    pattern_of_parse parse_testCase
  have bound : options.requiredCoverage = .bool true := rfl
  clear_value docs files options
  have holdStated : docs.Hold (contentsOf docs) ["REQUIREMENTS.md"] := by
    rw [Docs.Hold, List.forall_mem_singleton, contentsOf, readStated]
    rfl
  have holdTested : docs.Hold (contentsOf docs) ["TEST.md"] := by
    rw [Docs.Hold, List.forall_mem_singleton, contentsOf, readTested]
    rfl
  obtain ⟨issues, returned⟩ := succeeds_check compiled compiledTestCase stating testing holdStated
    holdTested bound
  exact ⟨issues, returned, check_is_complete docs files options issues returned⟩

end Traceability

end DocAudit
