import DocAudit.Proofs.Terminology.BlankedExceptions
import Mathlib

/-!
What one more exception of a term adds to the findings: nothing, unless it cuts an exception that is
blanked after it, clears a place for a space of a variant, or clears a word character beside one.
-/

namespace DocAudit.Terminology

open Text

variable {pieces rest behind : List (List Char)} {piece added variant text left left' : List Char}
  {place spot : Nat} {wordBoundary : Bool}

/-- The ways in which an added exception may let a variant turn up in a text. `behind` are the
exceptions that are blanked after the added one. -/
inductive Exposes (added : List Char) (behind : List (List Char)) (wordBoundary : Bool)
    (variant text : List Char) : Prop where
  | cut (spot : Nat) : Covers added text spot → IsCovered behind text spot →
      text[spot]? ≠ some ' ' → Exposes added behind wordBoundary variant text
  | spaced (place index : Nat) : index < variant.length → FitsAt variant text place →
      variant[index]? = some ' ' → Covers added text (place + index) →
      text[place + index]? ≠ some ' ' → Exposes added behind wordBoundary variant text
  | parted (place spot : Nat) : wordBoundary = true → FitsAt variant text place →
      Borders variant place spot → Covers added text spot → text[spot]?.any isWord = true →
      Exposes added behind wordBoundary variant text

/-- An exception that comes last exposes no variant that has no space and needs no boundary. -/
theorem not_exposes (noSpace : ' ' ∉ variant) : ¬Exposes added [] false variant text := by
  rintro (⟨_, _, ⟨_, among, _⟩, _⟩ | ⟨_, _, _, _, isSpace, _, _⟩ | ⟨_, _, asWords, _⟩)
  · exact absurd among List.not_mem_nil
  · exact noSpace (List.mem_of_getElem? isSpace)
  · cases asWords

/-- What is left of a text with and without an added exception. -/
structure DifferByBlanks (added text left left' : List Char) : Prop where
  length : left'.length = left.length
  each : ∀ spot, left'[spot]? = left[spot]? ∨ left'[spot]? = some ' ' ∧ Covers added text spot

namespace DifferByBlanks

theorem start (blanked : Blanked pieces text left) :
    DifferByBlanks added text left (blankOccurrences added left) := by
  refine ⟨length_blankOccurrences added left, fun spot => ?_⟩
  rcases blankOccurrences_getElem? added left spot with unchanged | ⟨place, lies, spans⟩
  · exact .inl unchanged
  · exact .inr ⟨lies.blank spot spans, place, spans.1, blanked.fitsAt lies.stands, spans.2⟩

/-- Where the added exception covers nothing but spaces the two texts do not differ. -/
theorem same_of_blank (differ : DifferByBlanks added text left left')
    (blanked : Blanked pieces text left)
    (blank : Covers added text spot → text[spot]? = some ' ') : left'[spot]? = left[spot]? := by
  rcases differ.each spot with unchanged | ⟨blankThere, covers⟩
  · exact unchanged
  · rcases blanked.each spot with unchanged | ⟨blankHere, -⟩
    · rw [blankThere, unchanged, blank covers]
    · rw [blankThere, blankHere]

/-- A step keeps the difference as long as its exception and the added one share nothing but
spaces: then that exception stands at the same places of both texts. -/
theorem step (differ : DifferByBlanks added text left left') (blanked : Blanked pieces text left)
    (blanked' : Blanked pieces text left')
    (uncut : ∀ spot, Covers added text spot → Covers piece text spot → text[spot]? = some ' ') :
    DifferByBlanks added text (blankOccurrences piece left) (blankOccurrences piece left') := by
  have same {place : Nat} (fits : FitsAt piece text place) (spot : Nat)
      (spans : Spans piece place spot) : left'[spot]? = left[spot]? :=
    differ.same_of_blank blanked fun covers =>
      uncut spot covers ⟨place, spans.1, fits, spans.2⟩
  have stands (place : Nat) : StandsAt piece left' place ↔ StandsAt piece left place := by
    constructor
    · intro stands
      exact stands.of_unchanged differ.length.symm fun spot spans =>
        (same (blanked'.fitsAt stands) spot spans).symm
    · intro stands
      exact stands.of_unchanged differ.length (same (blanked.fitsAt stands))
  refine ⟨by simp only [length_blankOccurrences, differ.length], fun spot => ?_⟩
  rcases blankOccurrences_alike differ.length stands spot with ⟨unchanged', unchanged⟩ | same
  · rw [unchanged', unchanged]
    exact differ.each spot
  · exact .inl same

theorem run (differ : DifferByBlanks added text left left') (blanked : Blanked pieces text left)
    (blanked' : Blanked pieces text left') (among : ∀ piece ∈ rest, piece ∈ pieces)
    (uncut : ∀ spot, Covers added text spot → IsCovered rest text spot → text[spot]? = some ' ') :
    DifferByBlanks added text (blankAll rest left) (blankAll rest left') := by
  induction rest generalizing left left' with
  | nil => exact differ
  | cons piece rest induction =>
    obtain ⟨first, others⟩ := List.forall_mem_cons.mp among
    have further := differ.step blanked blanked' fun spot covers covered =>
      uncut spot covers ⟨piece, List.mem_cons_self, covered⟩
    refine induction further (blanked.step first) (blanked'.step first) others ?_
    rintro spot covers ⟨other, member, covered⟩
    exact uncut spot covers ⟨other, List.mem_cons_of_mem piece member, covered⟩

/-- Beside a variant the texts differ where the added exception covers a word character. -/
theorem word_of_changed (differ : DifferByBlanks added text left left')
    (blanked : Blanked pieces text left)
    (changed : left[spot]?.any isWord ≠ left'[spot]?.any isWord) :
    text[spot]?.any isWord = true ∧ Covers added text spot := by
  have blankIsNoWord : (some ' ').any isWord = false := rfl
  rcases differ.each spot with unchanged | ⟨blank, covers⟩
  · exact absurd (congrArg (Option.any isWord) unchanged).symm changed
  · rw [blank, blankIsNoWord, ne_eq, Bool.not_eq_false] at changed
    rcases blanked.each spot with unchanged | ⟨blankHere, -⟩
    · exact ⟨unchanged ▸ changed, covers⟩
    · rw [blankHere, blankIsNoWord] at changed
      cases changed

/-- What is found with the added exception is found without it, unless it fills the place of the
variant or what is beside it with blanks. -/
theorem foundAt_or_exposes (differ : DifferByBlanks added text left left')
    (blanked : Blanked pieces text left) (blanked' : Blanked pieces text left')
    (found : FoundAt wordBoundary variant left' place) :
    FoundAt wordBoundary variant left place ∨ Exposes added behind wordBoundary variant text := by
  have fits := blanked'.fitsAt found.1
  by_cases within : ∀ index < variant.length, left[place + index]? = left'[place + index]?
  · by_cases beside : wordBoundary = true → ∀ spot, Borders variant place spot →
        left[spot]?.any isWord = left'[spot]?.any isWord
    · exact .inl (found.of_alike differ.length.symm within beside)
    · push Not at beside
      obtain ⟨asWords, spot, borders, changed⟩ := beside
      obtain ⟨word, covers⟩ := differ.word_of_changed blanked changed
      exact .inr (.parted place spot asWords fits borders covers word)
  · push Not at within
    obtain ⟨index, inside, changed⟩ := within
    obtain ⟨blank, covers⟩ := (differ.each (place + index)).resolve_left (Ne.symm changed)
    have isSpace : variant[index]? = some ' ' := (found.1.2 index inside).symm.trans blank
    refine .inr (.spaced place index inside fits isSpace covers fun blankBefore => ?_)
    exact changed (differ.same_of_blank blanked fun _ => blankBefore).symm

end DifferByBlanks

variable {before : List (List Char)}

theorem blankAll_append (first second : List (List Char)) (text : List Char) :
    blankAll (first ++ second) text = blankAll second (blankAll first text) :=
  List.foldl_append

/-- A variant that occurs once an exception has been added occurred before, or the exception has
exposed it. -/
theorem occurs_or_exposes
    (occurring : occurs wordBoundary variant (blankAll (before ++ added :: behind) text) = true) :
    occurs wordBoundary variant (blankAll (before ++ behind) text) = true ∨
      Exposes added behind wordBoundary variant text := by
  let pieces := before ++ added :: behind
  by_cases uncut : ∀ spot, Covers added text spot → IsCovered behind text spot →
      text[spot]? = some ' '
  · have amongBefore : ∀ piece ∈ before, piece ∈ pieces := fun piece member =>
      List.mem_append_left _ member
    have amongBehind : ∀ piece ∈ behind, piece ∈ pieces := fun piece member =>
      List.mem_append_right _ (List.mem_cons_of_mem added member)
    have addedAmong : added ∈ pieces := List.mem_append_right _ List.mem_cons_self
    have first : Blanked pieces text (blankAll before text) :=
      (Blanked.refl pieces text).run amongBefore
    have differ : DifferByBlanks added text (blankAll (before ++ behind) text)
        (blankAll (before ++ added :: behind) text) := by
      -- Up to the added exception both texts are blanked alike.
      rw [blankAll_append, blankAll_append]
      exact (DifferByBlanks.start first).run first (first.step addedAmong) amongBehind uncut
    have blanked : Blanked pieces text (blankAll (before ++ behind) text) :=
      (Blanked.refl pieces text).run fun piece member =>
        (List.mem_append.mp member).elim (amongBefore piece) (amongBehind piece)
    rw [occurs_iff] at occurring ⊢
    obtain ⟨place, found⟩ := occurring
    exact (differ.foundAt_or_exposes blanked (blanked_blankAll pieces text) found).imp_left
      fun foundBefore => ⟨place, foundBefore⟩
  · push Not at uncut
    obtain ⟨spot, covers, covered, noSpace⟩ := uncut
    exact .inr (.cut spot covers covered noSpace)

/-- The added exception takes a part of the one that covered the variant. -/
example : occurs false ['c'] (blankAll [['b', 'c']] ['a', 'b', 'c']) = false ∧
    occurs false ['c'] (blankAll [['a', 'b'], ['b', 'c']] ['a', 'b', 'c']) = true := by decide

/-- The added exception leaves the space that the variant has. -/
example : occurs false ['a', ' ', 'b'] (blankAll [] ['a', 'x', 'b']) = false ∧
    occurs false ['a', ' ', 'b'] (blankAll [['x']] ['a', 'x', 'b']) = true := by decide

namespace Wording

variable {document : Document} {issue : Issue}

/-- A term that is given one more exception between two of its own. -/
theorem findings_or_exposes (wording : Wording) (before behind : List String) (added : String)
    (member : issue ∈ { wording with exceptions := before ++ added :: behind }.findings document) :
    issue ∈ { wording with exceptions := before ++ behind }.findings document ∨
      ∃ variant ∈ wording.variants, ∃ line ∈ document.proseLines,
        issue = finding document.file line ⟨wording.term, variant⟩ ∧
          Exposes added.toList (behind.map String.toList) wording.wordBoundary variant.toList
            line.text := by
  obtain ⟨word, amongVariants, line, amongLines, reported, rfl⟩ := mem_findings_iff.mp member
  rw [reports, shields, List.map_append, List.map_cons] at reported
  rcases occurs_or_exposes reported with before | exposes
  · refine .inl (mem_findings_iff.mpr ⟨word, amongVariants, line, amongLines, ?_, rfl⟩)
    rwa [reports, shields, List.map_append]
  · exact .inr ⟨word, amongVariants, line, amongLines, rfl, exposes⟩

end Wording

/-- One more exception lets the check stop with the same fault as before or adds no issue, unless
it has exposed a variant in the line that the issue names. -/
theorem check_added_exception (docs : Docs) (files : List String) (front back : List Wording)
    (wording : Wording) (before behind : List String) (added : String) :
    let fewer : Wording := { wording with exceptions := before ++ behind }
    let more : Wording := { wording with exceptions := before ++ added :: behind }
    Agree
      (fun issues issues' => ∀ issue ∈ issues', issue ∈ issues ∨
        ∃ file ∈ files, ∃ document, docs.document file = .ok document ∧
          ∃ variant ∈ wording.variants, ∃ line ∈ document.proseLines,
            issue = finding file line ⟨wording.term, variant⟩ ∧
              Exposes added.toList (behind.map String.toList) wording.wordBoundary variant.toList
                line.text)
      (check docs files ((front ++ fewer :: back).map (·.term)))
      (check docs files ((front ++ more :: back).map (·.term))) := by
  intro fewer more
  rw [check_wordings, check_wordings, Docs.inEachDocument_eq, Docs.inEachDocument_eq]
  refine .bind_same fun documents read => .ok fun issue member => ?_
  obtain ⟨document, amongDocuments, member⟩ := List.mem_flatMap.mp member
  obtain ⟨file, amongFiles, readFile⟩ := exists_of_mem_mapM read amongDocuments
  rw [List.flatMap_append, List.flatMap_cons, List.mem_append, List.mem_append] at member
  have kept (found : issue ∈ (front ++ fewer :: back).flatMap (·.findings document)) :
      issue ∈ documents.flatMap fun document =>
        (front ++ fewer :: back).flatMap (·.findings document) :=
    List.mem_flatMap.mpr ⟨document, amongDocuments, found⟩
  rw [List.flatMap_append, List.flatMap_cons, List.mem_append, List.mem_append] at kept
  rcases member with inFront | inMore | inBack
  · exact .inl (kept (.inl inFront))
  · rcases wording.findings_or_exposes before behind added inMore with
      inFewer | ⟨variant, amongVariants, line, amongLines, rfl, exposes⟩
    · exact .inl (kept (.inr (.inl inFewer)))
    · rw [file_of_document readFile]
      exact .inr ⟨file, amongFiles, document, readFile, variant, amongVariants, line, amongLines,
        rfl, exposes⟩
  · exact .inl (kept (.inr (.inr inBack)))

/-- An abbreviation stands at the end of a longer word. Once another abbreviation there has been
blanked, the rest of the word is reported. -/
theorem check_reports_more_with_exception :
    let text := "DBDBMS\n"
    let docs : Docs :=
      { disk :=
          { root := .folder [("docs", .folder [("a.md", .file (Text.encode text.toList))])]
            workingFolder := [] }
        root := .fromTop ["docs"] }
    let fewer : Wording := ⟨.text "database", ["DB"], [], true⟩
    let more : Wording := { fewer with exceptions := ["DBMS"] }
    let line : Line := ⟨1, .prose, "DBDBMS".toList⟩
    check docs ["a.md"] [fewer.term] = .ok [] ∧
      check docs ["a.md"] [more.term] = .ok [finding "a.md" line ⟨more.term, "DB"⟩] := by
  intro text docs fewer more line
  exact ⟨by cbv, by cbv⟩

end DocAudit.Terminology
