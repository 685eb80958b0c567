import DocAudit.Proofs.Document.FixedFacts
import DocAudit.Proofs.Outcome

/-!
Documents before and after they are fixed. The lines of a fixed document are fixed lines, and the
empty ones at its end that have come or gone hold no facts.
-/

namespace DocAudit

open Text DocAudit.Fix

/-! ## Blocks -/

theorem fenceLabel_stripRight (line : List Char) :
    fenceLabel (stripRight line) = fenceLabel line := by
  rw [fenceLabel, strip_stripRight, fenceLabel]

/-- Behind the mark of a fence there is a language unless the fence is bare. -/
theorem fenceLabel_eq_nil_iff {line : List Char} (fence : isFenceLine line = true) :
    fenceLabel line = [] ↔ strip line = fenceMark := by
  constructor
  · intro empty
    rcases List.isPrefixOf_iff_prefix.mp fence with ⟨rest, split⟩
    have stripped : strip line = fenceMark ++ stripRight rest := by
      have solid : stripRight fenceMark = fenceMark := by decide
      rw [strip, ← split, stripRight_append_of_stripped solid]
    rw [fenceLabel, stripped, List.drop_left, strip_eq_nil_iff, hasText_stripRight] at empty
    rw [stripped, stripRight_eq_nil_iff.mpr empty, List.append_nil]
  · intro bare
    rw [fenceLabel, bare, List.drop_length]
    rfl

theorem fenceLabel_fixLine {inBlock : Bool} {line : List Char}
    (kind : lineKind inBlock line = .opening) (next : List Char) :
    fenceLabel (fixLine inBlock line next) =
      if fenceLabel line = [] then defaultLanguage else fenceLabel line := by
  have fence := isFenceLine_of_opening kind
  rw [fixLine_opening_eq kind]
  by_cases bare : strip line = fenceMark
  · rw [if_pos bare, if_pos ((fenceLabel_eq_nil_iff fence).mpr bare), fenceLabel, strip_labelled,
      List.drop_left]
    decide
  · rw [if_neg bare, if_neg (mt (fenceLabel_eq_nil_iff fence).mp bare), fenceLabel_stripRight]

theorem fencesFrom_fixedInto {before after : List Line}
    (fixed : List.Forall₂ FixedInto before after) (opened : Option (Nat × List Char)) :
    fencesFrom
        (opened.map fun (first, language) =>
          (first, if language = [] then defaultLanguage else language)) after =
      (fencesFrom opened before).map Fence.withLanguage := by
  induction fixed generalizing opened with
  | nil => cases opened <;> rfl
  | @cons line fixedLine before after fixed rest induction =>
    rcases fixed.text with ⟨inBlock, next, kind, text⟩
    cases known : line.kind with
    | opening =>
      have sameLabel : fenceLabel fixedLine.text =
          if fenceLabel line.text = [] then defaultLanguage else fenceLabel line.text := by
        rw [text, fenceLabel_fixLine (kind.symm.trans known)]
      rw [fencesFrom_opening (fixed.kind.trans known), fencesFrom_opening known, fixed.number,
        sameLabel]
      exact induction (some (line.number, fenceLabel line.text))
    | closing =>
      cases opened with
      | none =>
        rw [fencesFrom_closing_none known, ← induction none]
        exact fencesFrom_closing_none (fixed.kind.trans known)
      | some block =>
        rw [fencesFrom_closing known, List.map_cons, ← induction none, Option.map_some,
          fencesFrom_closing (fixed.kind.trans known), fixed.number]
        rfl
    | inside | prose =>
      rw [fencesFrom_between (by simp [fixed.kind, known]) (by simp [fixed.kind, known]),
        fencesFrom_between (by simp [known]) (by simp [known]), induction opened]

/-! ## Empty lines at the end -/

/-- A line that no fact can be read off. -/
structure Line.IsEmpty (line : Line) : Prop where
  text : line.text = []
  notOpening : line.kind ≠ .opening
  notClosing : line.kind ≠ .closing

theorem isEmpty_of_mem_numberLines {number count : Nat} {inBlock : Bool} {line : Line}
    (member : line ∈ numberLines number inBlock (List.replicate count [])) : line.IsEmpty := by
  induction count generalizing number with
  | zero => cases member
  | succ count induction =>
    have stays : inBlockAfter inBlock [] = inBlock := rfl
    rw [List.replicate_succ, numberLines, stays, List.mem_cons] at member
    rcases member with rfl | member
    · cases inBlock with
      | false => exact ⟨rfl, LineKind.noConfusion, LineKind.noConfusion⟩
      | true => exact ⟨rfl, LineKind.noConfusion, LineKind.noConfusion⟩
    · exact induction member

/-- The lines of a text with empty lines behind it. -/
theorem numberLines_append_replicate (number : Nat) (inBlock : Bool) (items : List (List Char))
    (count : Nat) :
    ∃ behind, numberLines number inBlock (items ++ List.replicate count []) =
      numberLines number inBlock items ++ behind ∧ ∀ line ∈ behind, line.IsEmpty := by
  induction items generalizing number inBlock with
  | nil => exact ⟨_, rfl, fun line member => isEmpty_of_mem_numberLines member⟩
  | cons line rest induction =>
    rcases induction (number + 1) (inBlockAfter inBlock line) with ⟨behind, split, empty⟩
    refine ⟨behind, ?_, empty⟩
    rw [List.cons_append, numberLines, split, numberLines, List.cons_append]

theorem Line.IsEmpty.links {line : Line} (empty : line.IsEmpty) : line.links = [] := by
  rw [Line.links, empty.text]
  rfl

theorem flatMap_append_of_isEmpty {β : Type} {view : Line → List β}
    (nothing : ∀ line, line.IsEmpty → view line = []) {items behind : List Line}
    (empty : ∀ line ∈ behind, line.IsEmpty) :
    (items ++ behind).flatMap view = items.flatMap view := by
  have none : behind.flatMap view = [] :=
    List.flatMap_eq_nil_iff.mpr fun line member => nothing line (empty line member)
  rw [List.flatMap_append, none, List.append_nil]

theorem filterMap_heading?_append {items behind : List Line}
    (empty : ∀ line ∈ behind, line.IsEmpty) :
    (items ++ behind).filterMap Line.heading? = items.filterMap Line.heading? := by
  have nothing : behind.filterMap Line.heading? = [] := by
    rw [List.filterMap_eq_nil_iff]
    intro line member
    rw [Line.heading?, (empty line member).text]
    split <;> rfl
  rw [List.filterMap_append, nothing, List.append_nil]

theorem fencesFrom_append {items behind : List Line} (empty : ∀ line ∈ behind, line.IsEmpty)
    (opened : Option (Nat × List Char)) :
    fencesFrom opened (items ++ behind) = fencesFrom opened items := by
  induction items generalizing opened with
  | nil =>
    induction behind with
    | nil => rfl
    | cons line rest induction =>
      have later := induction fun line' member => empty line' (List.mem_cons_of_mem line member)
      have isEmpty := empty line List.mem_cons_self
      rw [List.nil_append, fencesFrom_between isEmpty.notOpening isEmpty.notClosing]
      exact later
  | cons line rest induction =>
    simp only [List.cons_append, fencesFrom, induction]

/-! ## Documents -/

/-- The lines that fixing makes of a document, line by line. -/
def fixedLinesOf (text : List Char) : List Line :=
  numberLines 1 false (fixLines false (lines text))

theorem forall₂_fixedLinesOf (file : String) (text : List Char) :
    List.Forall₂ FixedInto (Document.ofText file text).lines (fixedLinesOf text) :=
  forall₂_fixedInto 1 false (lines text)

/-- A fixed document and the fixed lines of the document differ by empty lines at the end. -/
theorem exists_lines_fixText (file : String) (text : List Char) :
    ∃ common fewer more : List Line,
      (Document.ofText file (fixText text)).lines = common ++ more ∧
        fixedLinesOf text = common ++ fewer ∧
        (∀ line ∈ more, line.IsEmpty) ∧ ∀ line ∈ fewer, line.IsEmpty := by
  rcases exists_fixedLines_append text with ⟨count, whole⟩
  rcases numberLines_append_replicate 1 false (fixedLines text) count with
    ⟨fewer, fewerSplit, fewerEmpty⟩
  rcases numberLines_append_replicate 1 false (fixedLines text) 1 with
    ⟨more, moreSplit, moreEmpty⟩
  refine ⟨numberLines 1 false (fixedLines text), fewer, more, ?_, ?_, moreEmpty, fewerEmpty⟩
  · rw [← moreSplit, Document.ofText, lines_fixText]
    rfl
  · rw [fixedLinesOf, whole, fewerSplit]

/-- What is read off single lines and stays on each of them stays in the document. -/
theorem flatMap_lines_fixText {β : Type} {view : Line → List β}
    (stays : ∀ before after, FixedInto before after → view after = view before)
    (nothing : ∀ line, line.IsEmpty → view line = []) (file : String) (text : List Char) :
    (Document.ofText file (fixText text)).lines.flatMap view =
      (Document.ofText file text).lines.flatMap view := by
  rcases exists_lines_fixText file text with
    ⟨common, fewer, more, after, whole, moreEmpty, fewerEmpty⟩
  rw [after, flatMap_append_of_isEmpty nothing moreEmpty,
    ← flatMap_append_of_isEmpty nothing fewerEmpty, ← whole]
  exact flatMap_eq_of_forall₂ stays (forall₂_fixedLinesOf file text)

theorem links_fixText (file : String) (text : List Char) :
    (Document.ofText file (fixText text)).links = (Document.ofText file text).links :=
  flatMap_lines_fixText (fun _ _ fixed => fixed.links) (fun _ empty => empty.links) file text

theorem fences_fixText (file : String) (text : List Char) :
    (Document.ofText file (fixText text)).fences =
      (Document.ofText file text).fences.map Fence.withLanguage := by
  rcases exists_lines_fixText file text with
    ⟨common, fewer, more, after, whole, moreEmpty, fewerEmpty⟩
  rw [Document.fences, after, fencesFrom_append moreEmpty, ← fencesFrom_append fewerEmpty, ← whole]
  exact fencesFrom_fixedInto (forall₂_fixedLinesOf file text) none

theorem headings_fixText (file : String) (text : List Char) :
    (Document.ofText file (fixText text)).headings =
      (Document.ofText file text).lines.filterMap fun line =>
        (line.heading?.filter (·.text ≠ [])).or line.unspacedHeading? := by
  rcases exists_lines_fixText file text with
    ⟨common, fewer, more, after, whole, moreEmpty, fewerEmpty⟩
  rw [Document.headings, after, filterMap_heading?_append moreEmpty,
    ← filterMap_heading?_append fewerEmpty, ← whole]
  exact filterMap_eq_of_forall₂ (fun _ _ fixed => fixed.heading?) (forall₂_fixedLinesOf file text)

/-- Two views of which each item has at most one are collected together or one after another. -/
theorem filterMap_or_perm {α β : Type} {first second : α → Option β}
    (single : ∀ item, first item = none ∨ second item = none) (items : List α) :
    (items.filterMap fun item => (first item).or (second item)).Perm
      (items.filterMap first ++ items.filterMap second) := by
  induction items with
  | nil => exact .refl _
  | cons item rest induction =>
    rw [List.filterMap_cons, List.filterMap_cons, List.filterMap_cons]
    cases inFirst : first item with
    | none =>
      cases inSecond : second item with
      | none => exact induction
      | some found => exact (induction.cons found).trans List.perm_middle.symm
    | some found =>
      have notSecond := (single item).resolve_left (by rw [inFirst]; exact nofun)
      rw [notSecond]
      exact induction.cons found

theorem textAt_of_mem {file : String} {text : List Char} {line : Line}
    (member : line ∈ (Document.ofText file text).lines) :
    Outline.textAt (Document.ofText file text) line.number = line.text := by
  have present := getElem?_number_numberLines member
  rw [Outline.textAt]
  exact congrArg (fun found => (found.map Line.text).getD []) present

/-- Where all blocks have languages, no bare fence begins one. -/
theorem unlabelled_eq_nil {file : String} {text : List Char}
    (named : ∀ fence ∈ (Document.ofText file text).fences, fence.language ≠ []) :
    Outline.unlabelled (Document.ofText file text) = [] := by
  rw [Outline.unlabelled, List.map_eq_nil_iff, List.filter_eq_nil_iff]
  intro fence member bare
  rw [Outline.isUnlabelled, Bool.and_eq_true, beq_iff_eq] at bare
  rcases mem_fencesFrom member with none | ⟨line, inLines, number, language⟩
  · cases none
  · rw [← number, textAt_of_mem inLines] at bare
    apply named fence member
    rw [← language, fenceLabel, bare.1, List.drop_length]
    rfl

theorem withLanguage_language_ne_nil (fence : Fence) : fence.withLanguage.language ≠ [] := by
  by_cases empty : fence.language = []
  · simp [Fence.withLanguage, empty, defaultLanguage]
  · simp [Fence.withLanguage, empty]

/-- Fixing keeps blocks and links in their places, labels the blocks that have no language, takes
away the headings without text, and makes headings of number signs that lack a blank. -/
theorem fixText_preserves_structure (file : String) (text : List Char) :
    let before := Document.ofText file text
    let after := Document.ofText file (fixText text)
    after.fences = before.fences.map Fence.withLanguage ∧
      Outline.unlabelled after = [] ∧
      after.links = before.links ∧
      after.headings.Perm
        (before.headings.filter (·.text ≠ []) ++ before.lines.filterMap Line.unspacedHeading?) ∧
      after.headings.Pairwise (·.line < ·.line) := by
  refine ⟨fences_fixText file text, ?_, links_fixText file text, ?_,
    pairwise_line_headings file (fixText text)⟩
  · apply unlabelled_eq_nil
    intro fence member
    rw [fences_fixText] at member
    rcases List.mem_map.mp member with ⟨original, -, rfl⟩
    exact withLanguage_language_ne_nil original
  · rw [headings_fixText, Document.headings, List.filter_filterMap]
    apply filterMap_or_perm
    intro line
    refine (heading?_eq_none_or line).imp_left ?_
    intro none
    rw [none, Option.filter_none]

end DocAudit
