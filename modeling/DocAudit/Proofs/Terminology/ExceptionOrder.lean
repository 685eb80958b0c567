import DocAudit.Proofs.Terminology.BlankedExceptions
import Mathlib

/-!
What exceptions shield, in whatever order they are listed. Exceptions that overlap may destroy one
another, so the order matters for a line unless it is settled: at each place where the variant may
turn up, no exception touches it, or one that stands there takes a part of it, and so does every
exception that may have been blanked over that one.
-/

namespace DocAudit.Terminology

open Text

variable {pieces rest : List (List Char)} {piece variant text left : List Char}
  {place start spot : Nat} {wordBoundary : Bool}

/-- A piece at its place covers a character of a variant that is no space. -/
def Takes (piece : List Char) (start : Nat) (variant : List Char) (place : Nat) : Prop :=
  ∃ index < variant.length, variant[index]? ≠ some ' ' ∧ Spans piece start (place + index)

instance : Decidable (Takes piece start variant place) :=
  inferInstanceAs (Decidable (∃ index < _, _))

/-- A spot belongs to two pieces at their places. -/
def Overlap (piece : List Char) (start : Nat) (other : List Char) (start' : Nat) : Prop :=
  ∃ spot < start + piece.length, Spans piece start spot ∧ Spans other start' spot

instance {other : List Char} {start' : Nat} : Decidable (Overlap piece start other start') :=
  inferInstanceAs (Decidable (∃ spot < _, _))

/-- Blanking neither lets a variant turn up at a place nor takes it away from there. -/
def IsUntouched (pieces : List (List Char)) (wordBoundary : Bool) (variant text : List Char)
    (place : Nat) : Prop :=
  (∀ index < variant.length,
      IsCovered pieces text (place + index) → text[place + index]? = some ' ') ∧
    (wordBoundary = true → ∀ spot < text.length, Borders variant place spot →
      IsCovered pieces text spot → text[spot]?.any isWord = false)

instance : Decidable (IsUntouched pieces wordBoundary variant text place) :=
  inferInstanceAs (Decidable ((∀ index < _, _) ∧ (_ → ∀ spot < _, _)))

/-- A piece stands in a line and takes a part of the variant at a place, and whatever piece may be
blanked over it before does so too. -/
def IsShielded (pieces : List (List Char)) (variant text : List Char) (place : Nat) : Prop :=
  ∃ piece ∈ pieces, ∃ start ≤ text.length, StandsAt piece text start ∧
    Takes piece start variant place ∧
    ∀ other ∈ pieces, ∀ start' ≤ text.length, FitsAt other text start' →
      Overlap piece start other start' → Takes other start' variant place

instance : Decidable (IsShielded pieces variant text place) :=
  inferInstanceAs (Decidable (∃ piece ∈ pieces, ∃ start ≤ _, _))

/-- Wherever a variant may turn up in a line, it is clear without knowing the order of the
exceptions whether it does. -/
def IsSettled (pieces : List (List Char)) (wordBoundary : Bool) (variant text : List Char) :
    Prop :=
  ∀ place ≤ text.length, FitsAt variant text place →
    IsUntouched pieces wordBoundary variant text place ∨ IsShielded pieces variant text place

instance : Decidable (IsSettled pieces wordBoundary variant text) :=
  inferInstanceAs (Decidable (∀ place ≤ _, _))

/-- A variant at a place lies inside an occurrence of a piece. -/
def IsInside (pieces : List (List Char)) (variant text : List Char) (place : Nat) : Prop :=
  ∃ piece ∈ pieces, ∃ start ≤ place, StandsAt piece text start ∧
    place + variant.length ≤ start + piece.length

instance : Decidable (IsInside pieces variant text place) :=
  inferInstanceAs (Decidable (∃ piece ∈ pieces, ∃ start ≤ _, _))

/-- A variant is found in a line at a place where no piece takes a part of it. -/
def Remains (pieces : List (List Char)) (wordBoundary : Bool) (variant text : List Char) : Prop :=
  ∃ place, FoundAt wordBoundary variant text place ∧
    ∀ piece ∈ pieces, ∀ start, StandsAt piece text start → ¬Takes piece start variant place

/-! ## Places that no exception touches -/

theorem IsCovered.lt_length (covered : IsCovered pieces text spot) : spot < text.length := by
  obtain ⟨piece, -, place, -, fits, within⟩ := covered
  have inside := fits.1
  omega

theorem IsUntouched.foundAt_iff
    (untouched : IsUntouched pieces wordBoundary variant text place)
    (blanked : Blanked pieces text left) :
    FoundAt wordBoundary variant left place ↔ FoundAt wordBoundary variant text place := by
  have within : ∀ index < variant.length, left[place + index]? = text[place + index]? := by
    intro index inside
    rcases blanked.each (place + index) with unchanged | ⟨blank, covered⟩
    · exact unchanged
    · exact blank.trans (untouched.1 index inside covered).symm
  have beside (asWords : wordBoundary = true) (spot : Nat) (borders : Borders variant place spot) :
      left[spot]?.any isWord = text[spot]?.any isWord := by
    rcases blanked.each spot with unchanged | ⟨blank, covered⟩
    · rw [unchanged]
    · rw [blank, untouched.2 asWords spot covered.lt_length borders covered]
      rfl
  constructor
  · intro found
    exact found.of_alike blanked.length.symm (fun index inside => (within index inside).symm)
      fun asWords spot borders => (beside asWords spot borders).symm
  · intro found
    exact found.of_alike blanked.length within beside

/-! ## Places that an exception shields -/

/-- A character of the variant at a place that is no space has been blanked. -/
def IsLost (variant left : List Char) (place : Nat) : Prop :=
  ∃ index < variant.length, variant[index]? ≠ some ' ' ∧ left[place + index]? = some ' '

namespace IsLost

theorem not_standsAt (lost : IsLost variant left place) : ¬StandsAt variant left place := by
  obtain ⟨index, inside, noSpace, blank⟩ := lost
  intro stands
  exact noSpace ((stands.2 index inside).symm.trans blank)

theorem run (lost : IsLost variant left place) : IsLost variant (blankAll pieces left) place := by
  obtain ⟨index, inside, noSpace, blank⟩ := lost
  exact ⟨index, inside, noSpace, blank_stays blank⟩

end IsLost

theorem Takes.isLost {after : List Char} (takes : Takes piece start variant place)
    (lies : LiesBlank piece left after start) : IsLost variant after place := by
  obtain ⟨index, inside, noSpace, spans⟩ := takes
  exact ⟨index, inside, noSpace, lies.blank _ spans⟩

section Shielding

variable {other : List Char}
  (overlapping : ∀ other ∈ pieces, ∀ start' ≤ text.length, FitsAt other text start' →
    Overlap piece start other start' → Takes other start' variant place)

include overlapping

theorem isLost_of_overlap (blanked : Blanked pieces text left) (member : other ∈ pieces)
    {start' : Nat} (lies : LiesBlank other left (blankOccurrences other left) start')
    (spans : Spans piece start spot) (spansOther : Spans other start' spot) :
    IsLost variant (blankOccurrences other left) place := by
  have fits := blanked.fitsAt lies.stands
  have within : start' ≤ text.length := by
    have inside := fits.1
    omega
  exact (overlapping other member start' within fits ⟨spot, spans.2, spans, spansOther⟩).isLost lies

/-- A step of blanking takes a part of the variant or leaves the shielding piece as it is; the
latter cannot be the step that blanks this piece. -/
theorem isLost_or_standsAt (blanked : Blanked pieces text left) (member : other ∈ pieces)
    (nonempty : piece ≠ []) (stands : StandsAt piece left start) :
    IsLost variant (blankOccurrences other left) place ∨
      other ≠ piece ∧ StandsAt piece (blankOccurrences other left) start := by
  have begins : Spans piece start start :=
    ⟨Nat.le_refl start, Nat.lt_add_of_pos_right (List.length_pos_iff.mpr nonempty)⟩
  by_cases same : other = piece
  · -- An occurrence that begins before may be blanked instead, but it overlaps this one.
    subst same
    obtain ⟨first, lies, spans⟩ := exists_liesBlank nonempty stands
    exact .inl (isLost_of_overlap overlapping blanked member lies begins spans)
  · by_cases unchanged : ∀ spot, Spans piece start spot →
        (blankOccurrences other left)[spot]? = left[spot]?
    · exact .inr ⟨same, stands.of_unchanged (length_blankOccurrences other left) unchanged⟩
    · obtain ⟨spot, spans, changed⟩ : ∃ spot, Spans piece start spot ∧
          (blankOccurrences other left)[spot]? ≠ left[spot]? := by
        simpa using unchanged
      obtain ⟨start', lies, spansOther⟩ :=
        (blankOccurrences_getElem? other left spot).resolve_left changed
      exact .inl (isLost_of_overlap overlapping blanked member lies spans spansOther)

theorem isLost_run (blanked : Blanked pieces text left)
    (among : ∀ other ∈ rest, other ∈ pieces) (member : piece ∈ rest) (nonempty : piece ≠ [])
    (stands : StandsAt piece left start) : IsLost variant (blankAll rest left) place := by
  induction rest generalizing left with
  | nil => cases member
  | cons other rest induction =>
    obtain ⟨first, others⟩ := List.forall_mem_cons.mp among
    rcases isLost_or_standsAt overlapping blanked first nonempty stands with
      lost | ⟨different, stands⟩
    · exact lost.run
    · have later : piece ∈ rest := (List.mem_cons.mp member).resolve_left (Ne.symm different)
      exact induction (blanked.step first) others later stands

end Shielding

theorem IsShielded.not_standsAt (shielded : IsShielded pieces variant text place) :
    ¬StandsAt variant (blankAll pieces text) place := by
  obtain ⟨piece, member, start, -, stands, takes, overlapping⟩ := shielded
  have nonempty : piece ≠ [] := by
    rintro rfl
    obtain ⟨index, -, -, after, before⟩ := takes
    rw [List.length_nil] at before
    omega
  exact (isLost_run overlapping (.refl pieces text) (fun _ among => among) member nonempty
    stands).not_standsAt

/-! ## Settled lines -/

/-- No two pieces share a spot of a line, wherever they may come to stand. -/
def AreApart (pieces : List (List Char)) (text : List Char) : Prop :=
  ∀ piece ∈ pieces, ∀ start ≤ text.length, FitsAt piece text start →
    ∀ other ∈ pieces, ∀ start' ≤ text.length, FitsAt other text start' →
      Overlap piece start other start' → other = piece ∧ start' = start

/-- The order matters only where exceptions overlap: a line in which they lie apart is settled as
soon as each place of the variant is untouched or some exception there takes a part of it. -/
theorem isSettled_of_areApart (apart : AreApart pieces text)
    (each : ∀ place ≤ text.length, FitsAt variant text place →
      IsUntouched pieces wordBoundary variant text place ∨
        ∃ piece ∈ pieces, ∃ start ≤ text.length, StandsAt piece text start ∧
          Takes piece start variant place) :
    IsSettled pieces wordBoundary variant text := by
  intro place within fits
  rcases each place within fits with untouched | ⟨piece, member, start, inside, stands, takes⟩
  · exact .inl untouched
  · refine .inr ⟨piece, member, start, inside, stands, takes, ?_⟩
    intro other among start' inside' fitsThere overlap
    obtain ⟨rfl, rfl⟩ := apart piece member start inside stands.fitsAt other among start' inside'
      fitsThere overlap
    exact takes

/-- In a settled line a variant is left over where it is found and no exception takes a part of
it. -/
theorem occurs_blankAll_iff (settled : IsSettled pieces wordBoundary variant text) :
    occurs wordBoundary variant (blankAll pieces text) = true ↔
      Remains pieces wordBoundary variant text := by
  have blanked := blanked_blankAll pieces text
  have cases {place : Nat} (fits : FitsAt variant text place) :=
    settled place (Nat.le_trans (Nat.le_add_right _ _) fits.1) fits
  rw [occurs_iff]
  constructor
  · rintro ⟨place, found⟩
    rcases cases (blanked.fitsAt found.1) with untouched | shielded
    · refine ⟨place, (untouched.foundAt_iff blanked).mp found, ?_⟩
      -- What a piece covers here is a space already, and so is the character of the variant.
      rintro piece member start stands ⟨index, inside, noSpace, spans⟩
      have covered : IsCovered pieces text (place + index) :=
        ⟨piece, member, start, spans.1, stands.fitsAt, spans.2⟩
      have foundThere := (untouched.foundAt_iff blanked).mp found
      exact noSpace ((foundThere.1.2 index inside).symm.trans (untouched.1 index inside covered))
    · exact absurd found.1 shielded.not_standsAt
  · rintro ⟨place, found, kept⟩
    rcases cases found.1.fitsAt with untouched | ⟨piece, member, start, -, stands, takes, -⟩
    · exact ⟨place, (untouched.foundAt_iff blanked).mpr found⟩
    · exact absurd takes (kept piece member start stands)

theorem not_remains_of_inside (hasMark : ∃ c ∈ variant, c ≠ ' ')
    (inside : ∀ place ≤ text.length, FoundAt wordBoundary variant text place →
      IsInside pieces variant text place) : ¬Remains pieces wordBoundary variant text := by
  rintro ⟨place, found, kept⟩
  have within : place ≤ text.length := Nat.le_trans (Nat.le_add_right _ _) found.1.1
  obtain ⟨piece, member, start, before, stands, behind⟩ := inside place within found
  obtain ⟨c, among, noSpace⟩ := hasMark
  obtain ⟨index, within, same⟩ := List.mem_iff_getElem.mp among
  refine kept piece member start stands ⟨index, within, ?_, by omega, by omega⟩
  rw [List.getElem?_eq_getElem within, same]
  exact fun blank => noSpace (Option.some.inj blank)

/-! ## Exceptions in another order -/

/-- Two terms that differ in the order of their exceptions alone. -/
structure Wording.IsReordering (wording wording' : Wording) : Prop where
  exceptions : wording'.exceptions.Perm wording.exceptions
  same : wording' = { wording with exceptions := wording'.exceptions }

/-- Each line that is looked at is settled for each variant that is looked for in it. -/
def SettlesLines (docs : Docs) (files : List String) (wordings : List Wording) : Prop :=
  ∀ file ∈ files, ∀ document, docs.document file = .ok document →
    ∀ wording ∈ wordings, ∀ variant ∈ wording.variants, ∀ line ∈ document.proseLines,
      IsSettled wording.shields wording.wordBoundary variant.toList line.text

theorem isSettled_of_perm {pieces' : List (List Char)} (reordered : pieces'.Perm pieces)
    (settled : IsSettled pieces wordBoundary variant text) :
    IsSettled pieces' wordBoundary variant text := by
  simp only [IsSettled, IsUntouched, IsShielded, IsCovered, reordered.mem_iff] at settled ⊢
  exact settled

theorem remains_of_perm {pieces' : List (List Char)} (reordered : pieces'.Perm pieces) :
    Remains pieces' wordBoundary variant text ↔ Remains pieces wordBoundary variant text := by
  simp only [Remains, reordered.mem_iff]

namespace Wording

variable {wording wording' : Wording} {document : Document}

theorem IsReordering.shields (reordering : wording.IsReordering wording') :
    wording'.shields.Perm wording.shields :=
  reordering.exceptions.map String.toList

theorem IsReordering.reports_eq (reordering : wording.IsReordering wording') {word : String}
    {line : Line}
    (settled : IsSettled wording.shields wording.wordBoundary word.toList line.text) :
    wording'.reports word line = wording.reports word line := by
  have sameBoundary : wording'.wordBoundary = wording.wordBoundary := by rw [reordering.same]
  rw [Bool.eq_iff_iff, reports, reports, sameBoundary, occurs_blankAll_iff settled,
    occurs_blankAll_iff (isSettled_of_perm reordering.shields settled),
    remains_of_perm reordering.shields]

theorem IsReordering.findings_eq (reordering : wording.IsReordering wording')
    (settled : ∀ variant ∈ wording.variants, ∀ line ∈ document.proseLines,
      IsSettled wording.shields wording.wordBoundary variant.toList line.text) :
    wording'.findings document = wording.findings document := by
  have sameVariants : wording'.variants = wording.variants := by rw [reordering.same]
  have samePreferred : wording'.preferred = wording.preferred := by rw [reordering.same]
  rw [findings, findings, sameVariants]
  refine List.flatMap_congr fun word member => ?_
  have sameLines : document.proseLines.filter (wording'.reports word) =
      document.proseLines.filter (wording.reports word) :=
    List.filter_congr fun line among => reordering.reports_eq (settled word member line among)
  have sameTexts : (finding document.file · ⟨wording'.term, word⟩) =
      (finding document.file · ⟨wording.term, word⟩) := by
    funext line
    simp only [finding, term, samePreferred]
  rw [sameLines, sameTexts]

theorem flatMap_findings_eq {wordings wordings' : List Wording}
    (reordered : List.Forall₂ IsReordering wordings wordings')
    (settled : ∀ wording ∈ wordings, ∀ variant ∈ wording.variants,
      ∀ line ∈ document.proseLines,
        IsSettled wording.shields wording.wordBoundary variant.toList line.text) :
    wordings'.flatMap (·.findings document) = wordings.flatMap (·.findings document) := by
  induction reordered with
  | nil => rfl
  | cons reordering _ induction =>
    obtain ⟨first, others⟩ := List.forall_mem_cons.mp settled
    rw [List.flatMap_cons, List.flatMap_cons, reordering.findings_eq first, induction others]

end Wording

/-- What a check makes of exceptions that stand around variants. -/
structure ShieldsInAnyOrder (docs : Docs) (files : List String) (wordings : List Wording) :
    Prop where
  returns : Succeeds (check docs files (wordings.map (·.term))) ↔
    ∀ file ∈ files, Succeeds (docs.document file)
  tells : ∀ issues, check docs files (wordings.map (·.term)) = .ok issues → ∀ issue,
    issue ∈ issues ↔ ∃ file ∈ files, ∃ document, docs.document file = .ok document ∧
      ∃ wording ∈ wordings, ∃ variant ∈ wording.variants, ∃ line ∈ document.proseLines,
        isReported ⟨wording.term, variant⟩ line = .ok true ∧
          issue = finding file line ⟨wording.term, variant⟩
  decides : ∀ wording ∈ wordings, ∀ variant ∈ wording.variants, ∀ line : Line,
    IsSettled wording.shields wording.wordBoundary variant.toList line.text →
      (isReported ⟨wording.term, variant⟩ line = .ok true ↔
        Remains wording.shields wording.wordBoundary variant.toList line.text)
  shields : ∀ wording ∈ wordings, ∀ variant ∈ wording.variants, ∀ line : Line,
    IsSettled wording.shields wording.wordBoundary variant.toList line.text →
    (∃ c ∈ variant.toList, c ≠ ' ') →
    (∀ place ≤ line.text.length,
      FoundAt wording.wordBoundary variant.toList line.text place →
        IsInside wording.shields variant.toList line.text place) →
      isReported ⟨wording.term, variant⟩ line = .ok false
  reorders : SettlesLines docs files wordings → ∀ wordings',
    List.Forall₂ Wording.IsReordering wordings wordings' →
      check docs files (wordings'.map (·.term)) = check docs files (wordings.map (·.term))

theorem mem_shown_findings_iff {docs : Docs} {file : String} {wordings : List Wording}
    {issue : Issue} :
    issue ∈ docs.shown (fun document => wordings.flatMap (·.findings document)) file ↔
      ∃ document, docs.document file = .ok document ∧
        ∃ wording ∈ wordings, ∃ variant ∈ wording.variants, ∃ line ∈ document.proseLines,
          wording.reports variant line = true ∧
            issue = finding file line ⟨wording.term, variant⟩ := by
  rw [Docs.mem_shown_iff]
  refine exists_congr fun document => and_congr_right fun read => ?_
  simp only [List.mem_flatMap, Wording.mem_findings_iff, file_of_document read]

/-- As long as the lines are settled, an exception shields what it contains, and the order of the
exceptions makes no difference. -/
theorem check_shields_occurrences (docs : Docs) (files : List String) (wordings : List Wording) :
    ShieldsInAnyOrder docs files wordings where
  returns := by
    rw [check_wordings]
    exact Docs.succeeds_inEachDocument_iff
  tells := by
    intro issues returned issue
    rw [check_wordings] at returned
    obtain ⟨-, rfl⟩ := Docs.inEachDocument_eq_ok_iff.mp returned
    simp only [List.mem_flatMap, mem_shown_findings_iff, Wording.isReported_eq,
      Except.ok.injEq]
  decides := by
    intro wording _ variant _ line settled
    rw [wording.isReported_eq, Except.ok.injEq]
    exact occurs_blankAll_iff settled
  shields := by
    intro wording _ variant _ line settled hasMark inside
    rw [wording.isReported_eq]
    refine congrArg Except.ok (Bool.eq_false_iff.mpr fun reported => ?_)
    exact not_remains_of_inside hasMark inside ((occurs_blankAll_iff settled).mp reported)
  reorders := by
    intro settled wordings' reordered
    rw [check_wordings, check_wordings]
    refine Docs.inEachDocument_congr fun file member document read => ?_
    exact Wording.flatMap_findings_eq reordered (settled file member document read)

/-- In the first of two lines each occurrence lies inside an exception, in the second one none
does. -/
theorem check_shields_occurrences_of_two_exceptions :
    let text := "my blog catalog\nlog it\n"
    let docs : Docs :=
      { disk :=
          { root := .folder [("docs", .folder [("a.md", .file (Text.encode text.toList))])]
            workingFolder := [] }
        root := .fromTop ["docs"] }
    let wording : Wording := ⟨.text "journal", ["log"], ["blog", "catalog"], false⟩
    let reordered : Wording := ⟨.text "journal", ["log"], ["catalog", "blog"], false⟩
    let line : Line := ⟨1, .prose, "my blog catalog".toList⟩
    SettlesLines docs ["a.md"] [wording] ∧
      isReported ⟨wording.term, "log"⟩ line = .ok false ∧
      check docs ["a.md"] [reordered.term] = check docs ["a.md"] [wording.term] := by
  intro text docs wording reordered line
  have read : docs.document "a.md" = .ok (.ofText "a.md" text.toList) := document_of_text (by cbv)
  have settledLines : ∀ line ∈ (Document.ofText "a.md" text.toList).proseLines,
      IsSettled wording.shields false "log".toList line.text := by decide +kernel
  have settled : SettlesLines docs ["a.md"] [wording] := by
    intro file member document readThere wording' among variant amongVariants line inDocument
    obtain rfl := List.mem_singleton.mp member
    obtain rfl := List.mem_singleton.mp among
    obtain rfl := List.mem_singleton.mp amongVariants
    obtain rfl := Except.ok.inj (read.symm.trans readThere)
    exact settledLines line inDocument
  have shielding := check_shields_occurrences docs ["a.md"] [wording]
  refine ⟨settled, ?_, ?_⟩
  · have settledLine : IsSettled wording.shields false "log".toList line.text := by decide +kernel
    have inside : ∀ place ≤ line.text.length, FoundAt false "log".toList line.text place →
        IsInside wording.shields "log".toList line.text place := by decide +kernel
    have hasMark : ∃ c ∈ "log".toList, c ≠ ' ' := ⟨'l', by decide, by decide⟩
    exact shielding.shields wording List.mem_cons_self "log" List.mem_cons_self line settledLine
      hasMark inside
  · exact shielding.reorders settled [reordered] (.cons ⟨.swap _ _ _, rfl⟩ .nil)

/-- An exception that lies inside another one is blanked first, and what is left of the other one
no longer shields the variant. -/
theorem check_reports_shielded_occurrence :
    let text := "blog catalog\n"
    let docs : Docs :=
      { disk :=
          { root := .folder [("docs", .folder [("a.md", .file (Text.encode text.toList))])]
            workingFolder := [] }
        root := .fromTop ["docs"] }
    let wording : Wording := ⟨.text "journal", ["log"], ["blog", "blog catalog"], false⟩
    let reordered : Wording := ⟨.text "journal", ["log"], ["blog catalog", "blog"], false⟩
    let line : Line := ⟨1, .prose, "blog catalog".toList⟩
    (∀ place, FoundAt false "log".toList line.text place →
        IsInside wording.shields "log".toList line.text place) ∧
      wording.IsReordering reordered ∧
      check docs ["a.md"] [wording.term] = .ok [finding "a.md" line ⟨wording.term, "log"⟩] ∧
      check docs ["a.md"] [reordered.term] = .ok [] := by
  intro text docs wording reordered line
  have inside : ∀ place ≤ line.text.length, FoundAt false "log".toList line.text place →
      IsInside wording.shields "log".toList line.text place := by decide +kernel
  refine ⟨fun place found => ?_, ⟨.swap _ _ _, rfl⟩, by cbv, by cbv⟩
  exact inside place (Nat.le_trans (Nat.le_add_right _ _) found.1.1) found

end DocAudit.Terminology
