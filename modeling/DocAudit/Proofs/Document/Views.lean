import DocAudit.Proofs.Document.Blocks
import DocAudit.Proofs.Document.FenceLine
import DocAudit.Proofs.Outcome
import DocAudit.Proofs.Text.Lines

/-!
The views of a document agree. Blocks, lines of code, prose, headings and links are read off the same
lines, so each says where the others can be; and what labels the blocks have makes no difference to
any of them but the labels themselves and the links on the lines of the labels.
-/

namespace DocAudit

open Text

/-! ## Lines, headings and links -/

theorem map_numberLines (number : Nat) (inBlock : Bool) (items : List (List Char)) :
    (numberLines number inBlock items).map (fun line => (line.text, line.number)) =
      items.zipIdx number := by
  induction items generalizing number inBlock with
  | nil => rfl
  | cons line rest induction => rw [numberLines, List.map_cons, induction, List.zipIdx_cons]

theorem headingLevel?_bounds {line : List Char} {level : Nat}
    (found : headingLevel? line = some level) : 1 ≤ level ∧ level ≤ 6 := by
  rw [headingLevel?] at found
  split at found
  · next bounds =>
    cases found
    exact ⟨bounds.1, bounds.2.1⟩
  · cases found

/-- Headings stand in prose, on one of six levels. -/
theorem Document.exists_line_of_heading {document : Document} {heading : Heading}
    (member : heading ∈ document.headings) :
    1 ≤ heading.level ∧ heading.level ≤ 6 ∧
      ∃ line ∈ document.proseLines, line.number = heading.line := by
  obtain ⟨line, inLines, found⟩ := List.mem_filterMap.mp member
  have number := line_of_heading? found
  rw [Line.heading?] at found
  split at found
  · next prose =>
    obtain ⟨level, isLevel, rfl⟩ := Option.map_eq_some_iff.mp found
    obtain ⟨low, high⟩ := headingLevel?_bounds isLevel
    exact ⟨low, high, line, List.mem_filter.mpr ⟨inLines, beq_iff_eq.mpr prose⟩, number.symm⟩
  · cases found

theorem line_of_mem_links {line : Line} {link : Link} (member : link ∈ line.links) :
    link.line = line.number := by
  obtain ⟨written, -, rfl⟩ := List.mem_map.mp member
  rfl

/-- Links come in the order of their lines. -/
theorem pairwise_line_links (file : String) (text : List Char) :
    (Document.ofText file text).links.Pairwise (·.line ≤ ·.line) := by
  refine List.pairwise_flatMap.mpr ⟨?_, (Document.pairwise_number_lines file text).imp ?_⟩
  · intro line _
    rw [List.pairwise_iff_forall_sublist]
    intro link link' inOrder
    rw [line_of_mem_links (inOrder.subset List.mem_cons_self),
      line_of_mem_links (inOrder.subset (List.mem_cons_of_mem _ List.mem_cons_self))]
  · intro line later before link member link' member'
    rw [line_of_mem_links member, line_of_mem_links member']
    exact Nat.le_of_lt before

/-! ## Labels -/

/-- A line that is given a label, by its number, has it as its label if it opens a block. -/
def Line.isLabelled (labels : Nat → Option (List Char)) (line : Line) : Bool :=
  line.kind == .opening && (labels line.number).isSome

/-- A line with the label that it is given behind its mark. -/
def Line.withLabel (labels : Nat → Option (List Char)) (line : Line) : Line :=
  if line.kind = .opening then
    { line with
      text := (labels line.number).elim line.text
        (line.text.takeWhile isBlank ++ fenceMark ++ ·) }
  else line

def Fence.withLabel (labels : Nat → Option (List Char)) (fence : Fence) : Fence :=
  { fence with language := (labels fence.first).elim fence.language strip }

/-- A text whose blocks have been given labels, by the numbers of the lines that open them. -/
def withLabels (labels : Nat → Option (List Char)) (text : List Char) : List Char :=
  unlines ((Document.ofText "" text).lines.map fun line => (line.withLabel labels).text)

section withLabel

variable {labels : Nat → Option (List Char)} {line : Line}

@[simp] theorem number_withLabel (labels : Nat → Option (List Char)) (line : Line) :
    (line.withLabel labels).number = line.number := by
  rw [Line.withLabel]
  split <;> rfl

@[simp] theorem kind_withLabel (labels : Nat → Option (List Char)) (line : Line) :
    (line.withLabel labels).kind = line.kind := by
  rw [Line.withLabel]
  split <;> rfl

theorem withLabel_of_not_opening (other : line.kind ≠ .opening) : line.withLabel labels = line :=
  if_neg other

@[simp] theorem isLabelled_withLabel (labels : Nat → Option (List Char)) (line : Line) :
    (line.withLabel labels).isLabelled labels = line.isLabelled labels := by
  rw [Line.isLabelled, Line.isLabelled, kind_withLabel, number_withLabel]

theorem withLabel_of_not_isLabelled (unlabelled : line.isLabelled labels = false) :
    line.withLabel labels = line := by
  by_cases opening : line.kind = .opening
  · have none : labels line.number = none := by simpa [Line.isLabelled, opening] using unlabelled
    rw [Line.withLabel, if_pos opening, none]
    rfl
  · exact withLabel_of_not_opening opening

theorem heading?_withLabel (labels : Nat → Option (List Char)) (line : Line) :
    (line.withLabel labels).heading? = line.heading? := by
  by_cases opening : line.kind = .opening
  · have code : line.kind ≠ .prose := by simp [opening]
    rw [Line.heading?, Line.heading?, kind_withLabel, if_neg code, if_neg code]
  · rw [withLabel_of_not_opening opening]

theorem fenceLabel_indent_append {lead : List Char} (blank : AllBlank lead) (label : List Char) :
    fenceLabel (lead ++ fenceMark ++ label) = strip label := by
  have solid : stripRight fenceMark = fenceMark := by decide
  have stripped : strip (fenceMark ++ label) = fenceMark ++ stripRight label := by
    rw [← stripRight_append_of_stripped solid]
    rfl
  rw [fenceLabel, List.append_assoc, strip_append_left_of_allBlank blank, stripped, List.drop_left,
    strip_stripRight]

theorem fenceLabel_withLabel (opening : line.kind = .opening) :
    fenceLabel (line.withLabel labels).text =
      (labels line.number).elim (fenceLabel line.text) strip := by
  rw [Line.withLabel, if_pos opening]
  cases labels line.number with
  | none => rfl
  | some label => exact fenceLabel_indent_append (allBlank_takeWhile line.text) label

/-- A line that opens a block does so with another label too. -/
theorem isFenceLine_withLabel (labels : Nat → Option (List Char)) (number : Nat) (inBlock : Bool)
    (text : List Char) :
    isFenceLine ((⟨number, lineKind inBlock text, text⟩ : Line).withLabel labels).text =
      isFenceLine text := by
  cases fence : isFenceLine text with
  | false =>
    rw [withLabel_of_not_opening (by cases inBlock <;> simp [lineKind, fence])]
    exact fence
  | true =>
    rw [Line.withLabel]
    split
    · cases labels number with
      | none => exact fence
      | some label => exact isFenceLine_indent_append (allBlank_takeWhile text) label
    · exact fence

theorem newline_not_mem_withLabel
    (oneLine : ∀ number label, labels number = some label → '\n' ∉ label)
    (inLine : '\n' ∉ line.text) : '\n' ∉ (line.withLabel labels).text := by
  rw [Line.withLabel]
  split
  · cases label : labels line.number with
    | none => exact inLine
    | some label' =>
      have inLead : '\n' ∉ line.text.takeWhile isBlank :=
        fun member => inLine (List.takeWhile_subset _ member)
      simp [inLead, oneLine line.number label' label, fenceMark]
  · exact inLine

end withLabel

/-- Lines with their labels are numbered as the lines were, each of the kind it was. -/
theorem numberLines_map_withLabel (labels : Nat → Option (List Char)) (number : Nat)
    (inBlock : Bool) (items : List (List Char)) :
    numberLines number inBlock
        ((numberLines number inBlock items).map fun line => (line.withLabel labels).text) =
      (numberLines number inBlock items).map (Line.withLabel labels) := by
  induction items generalizing number inBlock with
  | nil => rfl
  | cons text rest induction =>
    have fence := isFenceLine_withLabel labels number inBlock text
    rw [numberLines, List.map_cons, List.map_cons, numberLines]
    generalize line : (⟨number, lineKind inBlock text, text⟩ : Line) = first at fence ⊢
    have sameKind : lineKind inBlock (first.withLabel labels).text = lineKind inBlock text := by
      simp only [lineKind, fence]
    have sameAfter :
        inBlockAfter inBlock (first.withLabel labels).text = inBlockAfter inBlock text := by
      simp only [inBlockAfter, fence]
    have whole : (⟨number, lineKind inBlock text, (first.withLabel labels).text⟩ : Line) =
        first.withLabel labels := by
      rw [← line, Line.withLabel]
      split <;> rfl
    rw [sameKind, sameAfter, whole, induction]

theorem fencesFrom_map_withLabel (labels : Nat → Option (List Char)) (lines : List Line)
    (opened : Option (Nat × List Char)) :
    fencesFrom (opened.map fun block => (block.1, (labels block.1).elim block.2 strip))
        (lines.map (Line.withLabel labels)) =
      (fencesFrom opened lines).map (Fence.withLabel labels) := by
  induction lines generalizing opened with
  | nil => cases opened <;> rfl
  | cons line rest induction =>
    rw [List.map_cons]
    cases known : line.kind with
    | opening =>
      rw [fencesFrom_opening known, fencesFrom_opening ((kind_withLabel labels line).trans known),
        fenceLabel_withLabel known, number_withLabel, ← induction]
      rfl
    | closing =>
      have knownAfter := (kind_withLabel labels line).trans known
      cases opened with
      | none =>
        rw [fencesFrom_closing_none known, ← induction none]
        exact fencesFrom_closing_none knownAfter
      | some block =>
        rw [fencesFrom_closing known, List.map_cons, ← induction none, Option.map_some,
          fencesFrom_closing knownAfter, number_withLabel]
        rfl
    | inside | prose =>
      rw [fencesFrom_between (by simp [known]) (by simp [known]),
        fencesFrom_between (by simp [known]) (by simp [known]), induction opened]

/-- Lines that keep their labels are picked out among lines with labels as they were before. -/
theorem filter_map_withLabel {labels : Nat → Option (List Char)} {test : Line → Bool}
    (same : ∀ line, test (line.withLabel labels) = test line)
    (kept : ∀ line, test line = true → line.withLabel labels = line) (lines : List Line) :
    (lines.map (Line.withLabel labels)).filter test = lines.filter test := by
  rw [List.filter_map, show test ∘ Line.withLabel labels = test from funext same]
  refine (List.map_congr_left ?_).trans (List.map_id _)
  exact fun line member => kept line (List.mem_filter.mp member).2

/-! ## Documents -/

namespace Document

variable {labels : Nat → Option (List Char)}

theorem lines_withLabels (oneLine : ∀ number label, labels number = some label → '\n' ∉ label)
    (file : String) (text : List Char) :
    (ofText file (withLabels labels text)).lines =
      (ofText file text).lines.map (Line.withLabel labels) := by
  have areLines : AreLines
      ((numberLines 1 false (Text.lines text)).map fun line => (line.withLabel labels).text) := by
    constructor
    · rw [Ne, List.map_eq_nil_iff, ← List.length_eq_zero_iff, length_numberLines,
        List.length_eq_zero_iff]
      exact lines_ne_nil text
    · refine List.forall_mem_map.mpr fun line member => newline_not_mem_withLabel oneLine ?_
      have isLine : line.text ∈ Text.lines text := by
        rw [← map_text_numberLines 1 false (Text.lines text)]
        exact List.mem_map_of_mem member
      exact not_mem_of_mem_lines isLine
  have split : Text.lines (withLabels labels text) = _ := areLines.lines_unlines
  rw [ofText, split]
  exact numberLines_map_withLabel labels 1 false (Text.lines text)

/-- What the views of a text say of each other. -/
structure ViewsAgree (text : List Char) (document : Document) : Prop where
  numbered : document.lines.map (fun line => (line.text, line.number)) = (Text.lines text).zipIdx 1
  apart : document.fences.Pairwise fun fence later =>
    ∃ last, fence.last = some last ∧ last < later.first
  endsBehind : ∀ fence ∈ document.fences, ∀ last, fence.last = some last → fence.first < last
  marks : ∀ line ∈ document.lines,
    isFenceLine line.text = true ↔
      ∃! fence, fence ∈ document.fences ∧ line.number ∈ fence.marks
  marked : ∀ fence ∈ document.fences, ∀ mark ∈ fence.marks,
    ∃ line ∈ document.lines, line.number = mark
  code : ∀ number, document.inCode number = true ↔
    ∃ fence ∈ document.fences, fence.Covers document.lines.length number
  prose : document.proseLines = document.lines.filter fun line => !document.inCode line.number
  headings : ∀ heading ∈ document.headings, 1 ≤ heading.level ∧ heading.level ≤ 6 ∧
    ∃ line ∈ document.proseLines, line.number = heading.line
  headingOrder : document.headings.Pairwise (·.line < ·.line)
  linkOrder : document.links.Pairwise (·.line ≤ ·.line)

/-- Labels change the languages of the blocks that get them and the links on their lines. -/
structure LabelsAside (labels : Nat → Option (List Char)) (before after : Document) : Prop where
  lines : after.lines = before.lines.map (Line.withLabel labels)
  fences : after.fences = before.fences.map (Fence.withLabel labels)
  inCode : ∀ number, after.inCode number = before.inCode number
  proseLines : after.proseLines = before.proseLines
  headings : after.headings = before.headings
  links : (after.lines.filter (!·.isLabelled labels)).flatMap Line.links =
    (before.lines.filter (!·.isLabelled labels)).flatMap Line.links

theorem viewsAgree_ofText (file : String) (text : List Char) :
    ViewsAgree text (ofText file text) where
  numbered := map_numberLines 1 false (Text.lines text)
  apart := pairwise_fences file text
  endsBehind _ member _ closed := first_lt_last member closed
  marks line member := by
    constructor
    · intro isFence
      obtain ⟨fence, inFences, mark⟩ := mem_marks_iff.mpr ⟨line, member, rfl, isFence⟩
      exact ⟨fence, ⟨inFences, mark⟩,
        fun other found => eq_of_mem_marks found.1 inFences found.2 mark⟩
    · rintro ⟨fence, found, -⟩
      obtain ⟨line', member', same, isFence⟩ := mem_marks_iff.mp ⟨fence, found⟩
      rwa [← eq_of_number_eq member' member same]
  marked fence member mark inMarks := by
    obtain ⟨line, inLines, number, -⟩ := mem_marks_iff.mp ⟨fence, member, inMarks⟩
    exact ⟨line, inLines, number⟩
  code _ := inCode_iff_covers
  prose := by
    apply List.filter_congr
    intro line member
    rw [Bool.eq_iff_iff, beq_iff_eq, Bool.not_eq_true', kind_eq_prose_iff member]
  headings _ member := exists_line_of_heading member
  headingOrder := pairwise_line_headings file text
  linkOrder := pairwise_line_links file text

theorem labelsAside_of_lines {before after : Document}
    (lines : after.lines = before.lines.map (Line.withLabel labels)) :
    LabelsAside labels before after where
  lines := lines
  fences := by
    rw [Document.fences, Document.fences, lines, ← fencesFrom_map_withLabel]
    rfl
  inCode number := by
    rw [inCode, inCode, lines, List.any_map]
    simp [Function.comp_def]
  proseLines := by
    rw [Document.proseLines, Document.proseLines, lines]
    refine filter_map_withLabel (fun line => by rw [kind_withLabel]) ?_ before.lines
    intro line prose
    exact withLabel_of_not_opening (by rw [beq_iff_eq.mp prose]; exact LineKind.noConfusion)
  headings := by
    rw [Document.headings, Document.headings, lines, List.filterMap_map]
    exact List.filterMap_congr fun line _ => heading?_withLabel labels line
  links := by
    rw [lines]
    refine congrArg (List.flatMap Line.links) (filter_map_withLabel ?_ ?_ before.lines)
    · exact fun line => congrArg _ (isLabelled_withLabel labels line)
    · exact fun line unlabelled =>
        withLabel_of_not_isLabelled (Bool.not_eq_true' _ |>.mp unlabelled)

/-- In every document blocks lie one behind the other, each fence line begins or ends exactly one of
them, what they cover is code, the rest is prose, and headings and links come in order; other labels
of blocks leave all of this as it is. -/
theorem ofText_views_agree (file : String) (text : List Char) (labels : Nat → Option (List Char))
    (oneLine : ∀ number label, labels number = some label → '\n' ∉ label) :
    ViewsAgree text (ofText file text) ∧
      LabelsAside labels (ofText file text) (ofText file (withLabels labels text)) :=
  ⟨viewsAgree_ofText file text, labelsAside_of_lines (lines_withLabels oneLine file text)⟩

/-- The label of a closed block changes, with a link in it; the block behind it is never closed. -/
theorem ofText_views_agree_open_block :
    let labels : Nat → Option (List Char) := fun number =>
      if number = 1 then some "[b](c.md)".toList else none
    let text := "\x60\x60\x60a\n# x\n\x60\x60\x60\n# y\n \x60\x60\x60 \n[z](z.md)".toList
    (∀ number label, labels number = some label → '\n' ∉ label) ∧
      (Document.ofText "" text).fences = [⟨1, some 3, ['a']⟩, ⟨5, none, []⟩] ∧
      (Document.ofText "" (withLabels labels text)).links.length = 2 ∧
      ViewsAgree text (ofText "" text) ∧
      LabelsAside labels (ofText "" text) (ofText "" (withLabels labels text)) := by
  intro labels text
  have oneLine : ∀ number label, labels number = some label → '\n' ∉ label := by
    intro number label given
    obtain ⟨-, same⟩ := Option.ite_none_right_eq_some.mp given
    rw [← Option.some.inj same]
    decide
  exact ⟨oneLine, by decide +kernel, by decide +kernel,
    ofText_views_agree "" text labels oneLine⟩

end Document

end DocAudit
