import DocAudit.Proofs.Document.FixedDocument
import DocAudit.Proofs.Fixing.SeenInFixed
import DocAudit.Proofs.Fixing.Session
import DocAudit.Proofs.Outcome
import DocAudit.Proofs.Traceability.Findings

/-!
Docs after some of their files have been fixed. Which files and folders there are stays as it is,
and each text is the one before or the fixed one. Every requirement is named where it was named
before and every test case names what it named before; only the lines that describe requirements can
read differently, and no finding tells of them.
-/

/-! ## Docs with fixed files -/

namespace DocAudit

open DocAudit.Fix

def Docs.fixedAt (docs : Docs) (places : List (List String)) : Docs :=
  { docs with disk := docs.disk.fixedAt places }

/-- A text before and after files are fixed. -/
def FixedOrSame (before after : List Char) : Prop :=
  after = before ∨ after = fixText before

/-- A document before and after files are fixed. -/
def Document.FixedOrSame (before after : Document) : Prop :=
  ∃ text text', DocAudit.FixedOrSame text text' ∧ before = .ofText before.file text ∧
    after = .ofText before.file text'

namespace Docs

variable (docs : Docs) (places : List (List String))

theorem isPresent_fixedAt (path : FilePath) :
    (docs.fixedAt places).disk.isPresent path = docs.disk.isPresent path :=
  docs.disk.isPresent_overwrite _ path

theorem isFolder_fixedAt (path : FilePath) :
    (docs.fixedAt places).disk.isFolder path = docs.disk.isFolder path :=
  docs.disk.isFolder_overwrite _ path

theorem visibleFolders_fixedAt (path : FilePath) :
    (docs.fixedAt places).disk.visibleFolders path = docs.disk.visibleFolders path :=
  docs.disk.visibleFolders_overwrite _ path

theorem discover_fixedAt (included excluded : Value) :
    (docs.fixedAt places).discover included excluded = docs.discover included excluded :=
  discover_overwrite docs.disk _ docs.root included excluded

theorem agree_text (file : String) :
    Agree FixedOrSame (docs.text file) ((docs.fixedAt places).text file) := by
  have read := docs.disk.readText_fixedAt places (docs.path file)
  rw [text, text]
  change Agree FixedOrSame _ ((docs.disk.fixedAt places).readText (docs.path file))
  rw [read]
  cases docs.disk.readText (docs.path file) with
  | error fault => split <;> exact .error fault
  | ok text =>
    split
    · exact .ok (.inr rfl)
    · exact .ok (.inl rfl)

theorem agree_document (file : String) :
    Agree Document.FixedOrSame (docs.document file) ((docs.fixedAt places).document file) := by
  apply (docs.agree_text places file).bind
  intro text text' related
  exact .ok ⟨text, text', related, rfl, rfl⟩

end Docs

namespace Document.FixedOrSame

variable {before after : Document}

theorem file (related : Document.FixedOrSame before after) : after.file = before.file := by
  rcases related with ⟨text, text', -, -, split⟩
  rw [split]
  rfl

theorem flatMap_lines (related : Document.FixedOrSame before after) {β : Type}
    {view : Line → List β} (stays : ∀ line line', FixedInto line line' → view line' = view line)
    (nothing : ∀ line, line.IsEmpty → view line = []) :
    after.lines.flatMap view = before.lines.flatMap view := by
  rcases related with ⟨text, text', same | fixed, splitBefore, splitAfter⟩
  · rw [splitAfter, same, ← splitBefore]
  · have stay := flatMap_lines_fixText stays nothing before.file text
    rw [splitAfter, fixed, stay, ← splitBefore]

theorem links (related : Document.FixedOrSame before after) : after.links = before.links :=
  related.flatMap_lines (fun _ _ fixed => fixed.links) fun _ empty => empty.links

end Document.FixedOrSame

end DocAudit

/-! ## Requirements and test cases in them -/

namespace DocAudit.Traceability

open DocAudit.Fix Pattern StandardPatterns

/-! ## Requirements without their descriptions -/

def Requirement.bare (requirement : Requirement) : Requirement :=
  { requirement with description := [] }

def Coverage.bare (coverage : Coverage) : Coverage :=
  { coverage with requirements := coverage.requirements.map Requirement.bare }

theorem foldl_keepFirst_bare (found kept : List Requirement) :
    (found.map Requirement.bare).foldl firstSightings.keepFirst (kept.map Requirement.bare) =
      (found.foldl firstSightings.keepFirst kept).map Requirement.bare := by
  induction found generalizing kept with
  | nil => rfl
  | cons sighting rest induction =>
    have step : firstSightings.keepFirst (kept.map Requirement.bare) sighting.bare =
        (firstSightings.keepFirst kept sighting).map Requirement.bare := by
      rw [firstSightings.keepFirst, firstSightings.keepFirst, List.any_map]
      by_cases known : kept.any (·.id == sighting.id) = true
      · rw [if_pos known]
        exact if_pos known
      · rw [if_neg known]
        exact if_neg known
    rw [List.map_cons, List.foldl_cons, List.foldl_cons, step, induction]

theorem firstSightings_bare (found : List Requirement) :
    firstSightings (found.map Requirement.bare) = (firstSightings found).map Requirement.bare := by
  have folded := foldl_keepFirst_bare found []
  rw [List.map_nil] at folded
  rw [firstSightings, folded, ← List.map_reverse, firstSightings]

theorem uncovered_bare (coverage : Coverage) :
    coverage.bare.uncovered = coverage.uncovered.map Requirement.bare := by
  rw [Coverage.uncovered, Coverage.bare, List.filter_map]
  rfl

theorem percent_bare (coverage : Coverage) : coverage.bare.percent = coverage.percent := by
  rw [Coverage.percent, uncovered_bare, List.length_map, Coverage.bare, List.length_map,
    Coverage.percent]

theorem rollup_bare (options : Options) (coverage : Coverage) :
    rollup options coverage.bare = rollup options coverage := by
  have sameEmpty : coverage.bare.requirements.isEmpty = coverage.requirements.isEmpty :=
    List.isEmpty_map
  rw [rollup, sameEmpty, percent_bare, uncovered_bare, List.map_map, rollup]
  rfl

theorem findingsOf_bare (docs : Docs) (options : Options) (coverage : Coverage) :
    findingsOf docs options coverage.bare = findingsOf docs options coverage := by
  have sameUntested : coverage.bare.uncovered.map untested = coverage.uncovered.map untested := by
    rw [uncovered_bare, List.map_map]
    rfl
  rw [findingsOf, rollup_bare, sameUntested, findingsOf]
  rfl

/-! ## What documents name -/

theorem map_bare_sightings (document : Document) :
    (sightings requirement document).map Requirement.bare =
      document.lines.flatMap fun line =>
        (requirement.seen line.text).map fun view =>
          ⟨view.1, document.file, line.number, []⟩ := by
  rw [sightings, List.map_flatMap]
  congr 1
  funext line
  rw [← map_view_findAll solid_requirement, List.map_map, List.map_map]
  rfl

theorem namedOn_eq (line : Line) :
    namedOn ⟨requirement, paired⟩ line =
      ((paired.seen line.text).filterMap fun view => view.2.lookup 2) ++
        (requirement.seen line.text).map (·.1) := by
  rw [namedOn, ← map_view_findAll solid_requirement, ← map_view_findAll solid_paired,
    List.filterMap_map, List.map_map]
  rfl

variable {before after : Document}

theorem map_bare_sightings_fixed (related : Document.FixedOrSame before after) :
    (sightings requirement after).map Requirement.bare =
      (sightings requirement before).map Requirement.bare := by
  rw [map_bare_sightings, map_bare_sightings, related.file]
  apply related.flatMap_lines
  · intro line line' fixed
    rw [fixed.view ignoresSpacing_requirement, fixed.number]
  · intro line empty
    rw [empty.text]
    rfl

theorem namedIn_fixed (related : Document.FixedOrSame before after) :
    namedIn ⟨requirement, paired⟩ after = namedIn ⟨requirement, paired⟩ before := by
  apply related.flatMap_lines
  · intro line line' fixed
    rw [namedOn_eq, namedOn_eq, fixed.view ignoresSpacing_requirement,
      fixed.view ignoresSpacing_paired]
  · intro line empty
    rw [namedOn_eq, empty.text]
    rfl

/-! ## The standard options -/

theorem agree_coverage (docs : Docs) (places : List (List String)) (files : List String) :
    Agree (fun before after => after.bare = before.bare) (coverage docs files)
      (coverage (docs.fixedAt places) files) := by
  rw [coverage, ofOptions_standard, coverage, ofOptions_standard]
  apply Agree.bind_same
  rintro patterns ⟨⟩
  apply Agree.bind_same
  intro requirementFiles _
  apply Agree.bind_same
  intro testCaseFiles _
  apply (Agree.mapM fun file (_ : file ∈ requirementFiles) => docs.agree_document places file).bind
  intro stated statedAfter relatedStated
  apply (Agree.mapM fun file (_ : file ∈ testCaseFiles) => docs.agree_document places file).bind
  intro tested testedAfter relatedTested
  apply Agree.ok
  have sameSightings :
      (statedAfter.flatMap (sightings requirement)).map Requirement.bare =
        (stated.flatMap (sightings requirement)).map Requirement.bare := by
    rw [List.map_flatMap, List.map_flatMap]
    refine flatMap_eq_of_forall₂ ?_ relatedStated
    intro document documentAfter related
    exact map_bare_sightings_fixed related
  have sameNamed : testedAfter.flatMap (namedIn ⟨requirement, paired⟩) =
      tested.flatMap (namedIn ⟨requirement, paired⟩) := by
    refine flatMap_eq_of_forall₂ ?_ relatedTested
    intro document documentAfter related
    exact namedIn_fixed related
  simp only [Coverage.bare, ← firstSightings_bare, sameSightings, sameNamed]

theorem isFoundIn_fixedAt {value : Value} {pattern : Pattern}
    (read : value.pattern = .ok pattern)
    (stays : ∀ text, pattern.occursIn (fixText text) = pattern.occursIn text) (docs : Docs)
    (places : List (List String)) (files : List String) :
    isFoundIn (docs.fixedAt places) files value = isFoundIn docs files value := by
  have sameAnswer (file : String) :
      (do return pattern.occursIn (← (docs.fixedAt places).text file) : Except Fault Bool) =
        do return pattern.occursIn (← docs.text file) := by
    apply Eq.symm
    apply Agree.eq
    apply (docs.agree_text places file).bind
    rintro text text' (same | fixed)
    · exact .ok (by rw [same])
    · exact .ok (by rw [fixed, stays])
  rw [isFoundIn, read, isFoundIn, read]
  change files.anyM _ = files.anyM _
  congr 1
  funext file
  exact sameAnswer file

theorem absence_fixedAt {value : Value} {pattern : Pattern}
    (read : value.pattern = .ok pattern)
    (stays : ∀ text, pattern.occursIn (fixText text) = pattern.occursIn text) (docs : Docs)
    (places : List (List String)) (required : Value) (files : List String)
    (finding : String → Issue) :
    absence (docs.fixedAt places) required files value finding =
      absence docs required files value finding := by
  cases files with
  | nil => rfl
  | cons first rest => rw [absence, isFoundIn_fixedAt read stays, absence]

theorem findingsOf_fixedAt (docs : Docs) (places : List (List String)) (coverage : Coverage) :
    findingsOf (docs.fixedAt places) {} coverage = findingsOf docs {} coverage := by
  rw [findingsOf,
    absence_fixedAt (pattern_of_parse parse_requirement) occursIn_requirement_fixText,
    absence_fixedAt (pattern_of_parse parse_testCase) occursIn_testCase_fixText, findingsOf]

theorem check_fixedAt (docs : Docs) (places : List (List String)) (files : List String) :
    check (docs.fixedAt places) files = check docs files := by
  rw [check_eq, check_eq]
  apply Eq.symm
  apply Agree.eq
  apply (agree_coverage docs places files).bind
  intro coverage coverageAfter same
  rw [findingsOf_fixedAt, ← findingsOf_bare docs {} coverageAfter, same, findingsOf_bare]
  exact .refl (fun _ => rfl) _

end DocAudit.Traceability
