import DocAudit.Proofs.Document.ReadDocuments
import DocAudit.Proofs.Text.Blanked
import DocAudit.Rules.Terminology

/-!
What a line holds once its exceptions have been blanked, one after another. Only characters that an
exception may come to cover are lost, and a variant is found where it stands in what is left.
-/

namespace DocAudit.Terminology

open Text

variable {pieces rest : List (List Char)} {piece variant text left : List Char}
  {before : Option Char} {place spot : Nat} {wordBoundary : Bool}

/-! ## Places of variants -/

/-- The character in front of a place in a text that has `before` in front of it. -/
def charBefore (before : Option Char) (text : List Char) : Nat → Option Char
  | 0 => before
  | place + 1 => text[place]?

/-- A variant that stands at a place begins and ends there as whole words do. -/
def IsCutAsWords (variant : List Char) (before : Option Char) (text : List Char) (place : Nat) :
    Prop :=
  isWordBoundary (charBefore before text place) text[place]? = true ∧
    isWordBoundary (variant.getLast?.or (charBefore before text place))
      text[place + variant.length]? = true

instance : Decidable (IsCutAsWords variant before text place) :=
  inferInstanceAs (Decidable (_ ∧ _))

/-- A variant is found in a text at a place. -/
def FoundAt (wordBoundary : Bool) (variant text : List Char) (place : Nat) : Prop :=
  StandsAt variant text place ∧ (wordBoundary = true → IsCutAsWords variant none text place)

instance : Decidable (FoundAt wordBoundary variant text place) :=
  inferInstanceAs (Decidable (_ ∧ (_ → _)))

theorem charBefore_cons (before : Option Char) (c : Char) (rest : List Char) (place : Nat) :
    charBefore before (c :: rest) (place + 1) = charBefore (some c) rest place := by
  cases place <;> rfl

theorem isCutAsWords_cons {c : Char} {rest : List Char} :
    IsCutAsWords variant before (c :: rest) (place + 1) ↔
      IsCutAsWords variant (some c) rest place := by
  rw [IsCutAsWords, IsCutAsWords, charBefore_cons, Nat.add_right_comm place,
    List.getElem?_cons_succ, List.getElem?_cons_succ]

theorem occursAsWords_iff :
    occursAsWords variant before text = true ↔
      ∃ place, StandsAt variant text place ∧ IsCutAsWords variant before text place := by
  have here (before : Option Char) (text : List Char) :
      (variant.isPrefixOf text && isWordBoundary before text.head? &&
        isWordBoundary (variant.getLast?.or before) (text.drop variant.length).head?) = true ↔
        StandsAt variant text 0 ∧ IsCutAsWords variant before text 0 := by
    rw [Bool.and_eq_true, Bool.and_eq_true, List.isPrefixOf_iff_prefix, ← StandsAt.zero_iff,
      List.head?_eq_getElem?, List.head?_drop, and_assoc, IsCutAsWords, charBefore, Nat.zero_add]
  induction text generalizing before with
  | nil =>
    rw [occursAsWords, Bool.or_false, here]
    refine ⟨fun found => ⟨0, found⟩, ?_⟩
    rintro ⟨place, stands, cut⟩
    obtain rfl : place = 0 := by
      have within := stands.1
      rw [List.length_nil] at within
      omega
    exact ⟨stands, cut⟩
  | cons c rest induction =>
    rw [occursAsWords, Bool.or_eq_true, here]
    refine (or_congr_right induction).trans ?_
    constructor
    · rintro (found | ⟨place, stands, cut⟩)
      · exact ⟨0, found⟩
      · exact ⟨place + 1, StandsAt.succ_iff.mpr stands, isCutAsWords_cons.mpr cut⟩
    · rintro ⟨_ | place, stands, cut⟩
      · exact .inl ⟨stands, cut⟩
      · exact .inr ⟨place, StandsAt.succ_iff.mp stands, isCutAsWords_cons.mp cut⟩

theorem occurs_iff : occurs wordBoundary variant text = true ↔
    ∃ place, FoundAt wordBoundary variant text place := by
  cases wordBoundary with
  | true => simpa [occurs, FoundAt] using occursAsWords_iff
  | false => simpa [occurs, FoundAt] using occursIn_iff

/-- A spot beside a variant at a place: the one in front of it or the one behind it. -/
def Borders (variant : List Char) (place spot : Nat) : Prop :=
  spot + 1 = place ∨ spot = place + variant.length

instance : Decidable (Borders variant place spot) :=
  inferInstanceAs (Decidable (_ ∨ _))

theorem isWordBoundary_congr {before before' after after' : Option Char}
    (sameBefore : before'.any isWord = before.any isWord)
    (sameAfter : after'.any isWord = after.any isWord) :
    isWordBoundary before' after' = isWordBoundary before after := by
  rw [isWordBoundary, isWordBoundary, sameBefore, sameAfter]

/-- Beside a variant it does not matter which characters there are, but which of them are word
characters. -/
theorem IsCutAsWords.of_alike (cut : IsCutAsWords variant none text place)
    (within : ∀ index < variant.length, left[place + index]? = text[place + index]?)
    (beside : ∀ spot, Borders variant place spot →
      left[spot]?.any isWord = text[spot]?.any isWord) :
    IsCutAsWords variant none left place := by
  have front : (charBefore none left place).any isWord =
      (charBefore none text place).any isWord := by
    cases place with
    | zero => rfl
    | succ place => exact beside place (.inl rfl)
  have first : left[place]?.any isWord = text[place]?.any isWord := by
    -- What stands at the place of an empty variant is beside it.
    by_cases empty : variant.length = 0
    · exact beside place (.inr (by omega))
    · rw [← Nat.add_zero place, within 0 (Nat.pos_of_ne_zero empty)]
  have last : (variant.getLast?.or (charBefore none left place)).any isWord =
      (variant.getLast?.or (charBefore none text place)).any isWord := by
    cases variant.getLast? with
    | none => exact front
    | some c => rfl
  have behind := beside (place + variant.length) (.inr rfl)
  rw [IsCutAsWords, isWordBoundary_congr front first, isWordBoundary_congr last behind]
  exact cut

theorem FoundAt.of_alike (found : FoundAt wordBoundary variant text place)
    (length : left.length = text.length)
    (within : ∀ index < variant.length, left[place + index]? = text[place + index]?)
    (beside : wordBoundary = true → ∀ spot, Borders variant place spot →
      left[spot]?.any isWord = text[spot]?.any isWord) :
    FoundAt wordBoundary variant left place := by
  refine ⟨⟨length ▸ found.1.1, fun index inside => ?_⟩, fun asWords => ?_⟩
  · rw [within index inside, found.1.2 index inside]
  · exact (found.2 asWords).of_alike within (beside asWords)

/-! ## Blanked lines -/

/-- A piece may come to cover a spot of a text once other characters have been blanked. -/
def Covers (piece text : List Char) (spot : Nat) : Prop :=
  ∃ place ≤ spot, FitsAt piece text place ∧ spot < place + piece.length

instance : Decidable (Covers piece text spot) :=
  inferInstanceAs (Decidable (∃ place ≤ spot, _))

def IsCovered (pieces : List (List Char)) (text : List Char) (spot : Nat) : Prop :=
  ∃ piece ∈ pieces, Covers piece text spot

instance : Decidable (IsCovered pieces text spot) :=
  inferInstanceAs (Decidable (∃ piece ∈ pieces, _))

/-- A text in which nothing but characters that some piece may cover has been blanked. -/
structure Blanked (pieces : List (List Char)) (text left : List Char) : Prop where
  length : left.length = text.length
  each : ∀ spot, left[spot]? = text[spot]? ∨ left[spot]? = some ' ' ∧ IsCovered pieces text spot

/-- A text with every piece blanked, one after another. -/
def blankAll (pieces : List (List Char)) (text : List Char) : List Char :=
  pieces.foldl (fun left piece => blankOccurrences piece left) text

namespace Blanked

theorem refl (pieces : List (List Char)) (text : List Char) : Blanked pieces text text :=
  ⟨rfl, fun _ => .inl rfl⟩

/-- What stands in a blanked text fits in the text itself. -/
theorem fitsAt (blanked : Blanked pieces text left) (stands : StandsAt piece left place) :
    FitsAt piece text place := by
  refine ⟨blanked.length ▸ stands.1, fun index inside => ?_⟩
  have same := stands.2 index inside
  rcases blanked.each (place + index) with unchanged | ⟨blank, -⟩
  · exact .inr (unchanged.symm.trans same)
  · exact .inl (same.symm.trans blank)

theorem step (blanked : Blanked pieces text left) (member : piece ∈ pieces) :
    Blanked pieces text (blankOccurrences piece left) := by
  refine ⟨(length_blankOccurrences piece left).trans blanked.length, fun spot => ?_⟩
  rcases blankOccurrences_getElem? piece left spot with unchanged | ⟨place, lies, spans⟩
  · rw [unchanged]
    exact blanked.each spot
  · have covers : Covers piece text spot := ⟨place, spans.1, blanked.fitsAt lies.stands, spans.2⟩
    exact .inr ⟨lies.blank spot spans, piece, member, covers⟩

theorem run (blanked : Blanked pieces text left) (among : ∀ piece ∈ rest, piece ∈ pieces) :
    Blanked pieces text (blankAll rest left) := by
  induction rest generalizing left with
  | nil => exact blanked
  | cons piece rest induction =>
    obtain ⟨first, others⟩ := List.forall_mem_cons.mp among
    exact induction (blanked.step first) others

end Blanked

theorem blanked_blankAll (pieces : List (List Char)) (text : List Char) :
    Blanked pieces text (blankAll pieces text) :=
  (Blanked.refl pieces text).run fun _ member => member

/-- Blanks stay blank. -/
theorem blank_stays (blank : left[spot]? = some ' ') : (blankAll pieces left)[spot]? = some ' ' := by
  induction pieces generalizing left with
  | nil => exact blank
  | cons piece rest induction =>
    apply induction
    rcases blankOccurrences_getElem? piece left spot with unchanged | ⟨place, lies, spans⟩
    · exact unchanged.trans blank
    · exact lies.blank spot spans

/-! ## Terms of texts -/

/-- A term whose variants and exceptions are texts. -/
structure Wording where
  preferred : Value
  variants : List String
  exceptions : List String
  wordBoundary : Bool

namespace Wording

def term (wording : Wording) : Term where
  preferred := wording.preferred
  variants := wording.variants.map .text
  exceptions := wording.exceptions.map .text
  wordBoundary := wording.wordBoundary

/-- What is blanked in a line before a variant is looked for. -/
def shields (wording : Wording) : List (List Char) :=
  wording.exceptions.map String.toList

/-- A variant still occurs in a line whose exceptions have been blanked. -/
def reports (wording : Wording) (variant : String) (line : Line) : Bool :=
  occurs wording.wordBoundary variant.toList (blankAll wording.shields line.text)

def findings (document : Document) (wording : Wording) : List Issue :=
  wording.variants.flatMap fun variant =>
    (document.proseLines.filter (wording.reports variant)).map
      (finding document.file · ⟨wording.term, variant⟩)

variable {wording : Wording} {document : Document}

theorem blankExceptions_eq (wording : Wording) (line : List Char) :
    blankExceptions wording.term.exceptions line = .ok (blankAll wording.shields line) := by
  change (wording.exceptions.map Value.text).foldlM blankException line =
    .ok ((wording.exceptions.map String.toList).foldl (fun left piece => blankOccurrences piece left)
      line)
  induction wording.exceptions generalizing line with
  | nil => rfl
  | cons exception rest induction => exact induction _

theorem isReported_eq (wording : Wording) (variant : String) (line : Line) :
    isReported ⟨wording.term, variant⟩ line = .ok (wording.reports variant line) := by
  rw [isReported, blankExceptions_eq]
  rfl

theorem entries_eq (wording : Wording) :
    wording.term.entries = .ok (wording.variants.map fun variant => ⟨wording.term, variant⟩) := by
  rw [Term.entries]
  change (wording.variants.map Value.text).mapM _ = _
  rw [List.mapM_map]
  exact mapM_eq_ok_map fun _ _ => rfl

theorem entryFindings_eq (document : Document) (wording : Wording) (variant : String) :
    entryFindings document ⟨wording.term, variant⟩ =
      .ok ((document.proseLines.filter (wording.reports variant)).map
        (finding document.file · ⟨wording.term, variant⟩)) := by
  have answered : answerTo (isReported ⟨wording.term, variant⟩) = wording.reports variant := by
    funext line
    rw [answerTo, isReported_eq]
    rfl
  have kept : document.proseLines.filterM (isReported ⟨wording.term, variant⟩) =
      .ok (document.proseLines.filter (wording.reports variant)) := by
    rw [filterM_eq_ok_iff, answered]
    exact ⟨fun line _ => ⟨_, isReported_eq wording variant line⟩, rfl⟩
  rw [entryFindings, kept]
  rfl

theorem mem_findings_iff {issue : Issue} : issue ∈ wording.findings document ↔
    ∃ variant ∈ wording.variants, ∃ line ∈ document.proseLines,
      wording.reports variant line = true ∧
        issue = finding document.file line ⟨wording.term, variant⟩ := by
  simp only [findings, List.mem_flatMap, List.mem_map, List.mem_filter, and_assoc, eq_comm]

end Wording

/-- Terms of texts are checked without a fault wherever the documents can be read. -/
theorem check_wordings (docs : Docs) (files : List String) (wordings : List Wording) :
    check docs files (wordings.map Wording.term) =
      docs.inEachDocument files fun document => wordings.flatMap (·.findings document) := by
  have entries : (wordings.map Wording.term).mapM (·.entries) = .ok (wordings.map fun wording =>
      wording.variants.map fun variant => ⟨wording.term, variant⟩) := by
    rw [List.mapM_map]
    exact mapM_eq_ok_map fun wording _ => wording.entries_eq
  have found (document : Document) (wording : Wording) :
      (wording.variants.map fun variant => (⟨wording.term, variant⟩ : Entry)).mapM
          (entryFindings document) =
        .ok (wording.variants.map fun variant =>
          (document.proseLines.filter (wording.reports variant)).map
            (finding document.file · ⟨wording.term, variant⟩)) := by
    rw [List.mapM_map]
    exact mapM_eq_ok_map fun variant _ => wording.entryFindings_eq document variant
  have together (document : Document) :
      (return (← (wordings.flatMap fun wording => wording.variants.map fun variant =>
        (⟨wording.term, variant⟩ : Entry)).mapM (entryFindings document)).flatten) =
      (.ok (wordings.flatMap (·.findings document)) : Except Fault (List Issue)) := by
    rw [mapM_flatMap_eq_ok (found document)]
    refine congrArg Except.ok ?_
    simp only [Wording.findings, List.flatMap_def, List.flatten_flatten, List.map_map,
      Function.comp_def]
  rw [check, entries]
  refine congrArg (Docs.inEach files) (funext fun file => ?_)
  refine bind_congr fun document => ?_
  rw [← List.flatMap_def]
  exact together document

end DocAudit.Terminology
