import DocAudit.Proofs.Document.Blocks
import DocAudit.Proofs.Document.FenceLine
import DocAudit.Proofs.Document.ReadDocuments
import DocAudit.Proofs.Pairs
import DocAudit.Rules.Outline
import Mathlib

/-!
Which blocks are told to lack a language: bare ones with something on the line behind the fence that
opens them. That line stands for the content of the block, which it is the first line of, unless it
is the fence that closes the block again. So a block that begins with a blank line is passed over
whatever follows, and one without any line is told of.
-/

namespace DocAudit

/-- Whether a line lies strictly between the fences of a block. A block that is never closed goes on
to the end of its document. -/
def Fence.Encloses (fence : Fence) (number : Nat) : Prop :=
  fence.first < number ∧ ∀ last ∈ fence.last, number < last

instance (fence : Fence) (number : Nat) : Decidable (fence.Encloses number) :=
  inferInstanceAs (Decidable (_ ∧ _))

theorem number_of_getElem?_numberLines {number place : Nat} {inBlock : Bool}
    {items : List (List Char)} {line : Line}
    (stands : (numberLines number inBlock items)[place]? = some line) :
    line.number = number + place := by
  induction items generalizing number inBlock place with
  | nil => cases stands
  | cons text rest induction =>
    cases place with
    | zero =>
      cases stands
      rfl
    | succ place =>
      rw [numberLines, List.getElem?_cons_succ] at stands
      rw [induction stands, Nat.add_assoc, Nat.add_comm 1]

/-- Between the first line and any other one all numbers are numbers of lines. -/
theorem Document.exists_line_of_le {file : String} {text : List Char} {line : Line} {number : Nat}
    (member : line ∈ (ofText file text).lines) (positive : 0 < number)
    (before : number ≤ line.number) :
    ∃ earlier ∈ (ofText file text).lines, earlier.number = number := by
  have stands : (ofText file text).lines[line.number - 1]? = some line :=
    getElem?_number_numberLines member
  have inRange := (List.getElem?_eq_some_iff.mp stands).1
  have inRange' : number - 1 < (ofText file text).lines.length := by omega
  have stands' := List.getElem?_eq_getElem inRange'
  refine ⟨_, List.mem_of_getElem? stands', ?_⟩
  have known : _ = 1 + (number - 1) := number_of_getElem?_numberLines stands'
  omega

namespace Outline

variable {docs : Docs} {files : List String} {file : String} {text : List Char} {fence : Fence}

/-- The block is opened by a mark without a language. -/
def IsBare (document : Document) (fence : Fence) : Prop :=
  ∃ line ∈ document.lines, line.number = fence.first ∧ Text.strip line.text = fenceMark

/-- Some line inside of the block has text. -/
def HasContent (document : Document) (fence : Fence) : Prop :=
  ∃ line ∈ document.lines, fence.Encloses line.number ∧ Text.hasText line.text = true

instance (document : Document) (fence : Fence) : Decidable (IsBare document fence) :=
  inferInstanceAs (Decidable (∃ line ∈ document.lines, _))

instance (document : Document) (fence : Fence) : Decidable (HasContent document fence) :=
  inferInstanceAs (Decidable (∃ line ∈ document.lines, _))

/-- The first line inside of the block is blank. -/
def BeginsBlank (document : Document) (fence : Fence) : Prop :=
  ∃ line ∈ document.lines, fence.Encloses line.number ∧ line.number = fence.first + 1 ∧
    Text.hasText line.text = false

/-- The block has no line inside, since the line behind its first one closes it. -/
def ClosesAtOnce (fence : Fence) : Prop :=
  fence.last = some (fence.first + 1)

/-- What can be said of the text of a line, if not of an absent one. -/
theorem textAt_iff (Holds : List Char → Prop) (notEmpty : ¬ Holds []) {number : Nat}
    (positive : 0 < number) :
    Holds (textAt (.ofText file text) number) ↔
      ∃ line ∈ (Document.ofText file text).lines, line.number = number ∧ Holds line.text := by
  rw [textAt]
  cases stands : (Document.ofText file text).lines[number - 1]? with
  | none =>
    refine iff_of_false notEmpty ?_
    rintro ⟨line, member, rfl, -⟩
    have found : (Document.ofText file text).lines[line.number - 1]? = some line :=
      getElem?_number_numberLines member
    rw [stands] at found
    cases found
  | some line =>
    have known : line.number = 1 + (number - 1) := number_of_getElem?_numberLines stands
    have member := List.mem_of_getElem? stands
    constructor
    · exact fun holds => ⟨line, member, by omega, holds⟩
    · rintro ⟨other, member', same, holds⟩
      rwa [Document.eq_of_number_eq member' member (by omega)] at holds

theorem hasText_behind_iff (member : fence ∈ (Document.ofText file text).fences) :
    (∃ line ∈ (Document.ofText file text).lines,
        line.number = fence.first + 1 ∧ Text.hasText line.text = true) ↔
      HasContent (.ofText file text) fence ∧ ¬ BeginsBlank (.ofText file text) fence ∨
        ClosesAtOnce fence := by
  constructor
  · rintro ⟨line, inLines, behind, visible⟩
    by_cases closes : ClosesAtOnce fence
    · exact .inr closes
    · have enclosed : fence.Encloses line.number := by
        refine ⟨by omega, fun last closed => ?_⟩
        have order := Document.first_lt_last member closed
        have other : last ≠ fence.first + 1 := fun same =>
          closes (closed.trans (congrArg some same))
        omega
      refine .inl ⟨⟨line, inLines, enclosed, visible⟩, ?_⟩
      rintro ⟨other, inLines', -, behind', blank⟩
      rw [Document.eq_of_number_eq inLines' inLines (behind'.trans behind.symm), visible] at blank
      cases blank
  · rintro (⟨⟨line, inLines, enclosed, -⟩, filled⟩ | closes)
    · obtain ⟨first, inLines', behind⟩ :=
        Document.exists_line_of_le inLines (Nat.succ_pos fence.first) enclosed.1
      refine ⟨first, inLines', behind, ?_⟩
      by_contra blank
      refine filled ⟨first, inLines', ⟨by omega, fun last closed => ?_⟩, behind,
        eq_false_of_ne_true blank⟩
      have order := enclosed.1
      have inside := enclosed.2 last closed
      omega
    · -- The closing fence itself is the line behind.
      have isMark : fence.first + 1 ∈ fence.marks := by
        rw [Fence.marks, closes]
        exact List.mem_cons_of_mem _ (List.mem_singleton_self _)
      obtain ⟨line, inLines, behind, isFence⟩ := Document.mem_marks_iff.mp ⟨fence, member, isMark⟩
      exact ⟨line, inLines, behind, hasText_of_isFenceLine isFence⟩

theorem isUnlabelled_iff (member : fence ∈ (Document.ofText file text).fences) :
    isUnlabelled (.ofText file text) fence = true ↔
      IsBare (.ofText file text) fence ∧
        (HasContent (.ofText file text) fence ∧ ¬ BeginsBlank (.ofText file text) fence ∨
          ClosesAtOnce fence) := by
  have notBare : ¬ Text.strip [] = fenceMark := by decide
  have noText : ¬ Text.hasText [] = true := by decide
  rw [isUnlabelled, Bool.and_eq_true, beq_iff_eq,
    textAt_iff (Text.strip · = fenceMark) notBare (number_le_first member),
    textAt_iff (Text.hasText · = true) noText (Nat.succ_pos fence.first),
    hasText_behind_iff member]
  rfl

/-- The blocks of a document that are told of. -/
def toldBlocks (document : Document) : List Fence :=
  document.fences.filter (isUnlabelled document)

theorem pairwise_first_toldBlocks (file : String) (text : List Char) :
    (toldBlocks (.ofText file text)).Pairwise (·.first < ·.first) := by
  refine ((Document.pairwise_fences file text).imp_of_mem ?_).filter _
  rintro fence later member - ⟨last, closed, before⟩
  exact (Document.first_lt_last member closed).trans before

/-- Which blocks of some files are told of, and how often. -/
structure TellsUnlabelled (docs : Docs) (files : List String) (told : List (String × Fence)) :
    Prop where
  exactly : ∀ file fence, (file, fence) ∈ told ↔
    file ∈ files ∧ ∃ document, docs.document file = .ok document ∧ fence ∈ document.fences ∧
      IsBare document fence ∧
        (HasContent document fence ∧ ¬ BeginsBlank document fence ∨ ClosesAtOnce fence)
  ordered : told.Pairwise (InOrder files (·.first < ·.first))

theorem tellsUnlabelled_listUnder (docs : Docs) (files : List String) :
    TellsUnlabelled docs files (listUnder files (docs.shown toldBlocks)) where
  exactly file fence := by
    rw [mem_listUnder_iff, Docs.mem_shown_iff]
    refine and_congr_right fun _ => exists_congr fun document => and_congr_right fun read => ?_
    obtain ⟨text, rfl⟩ := Docs.exists_ofText read
    rw [toldBlocks, List.mem_filter]
    exact and_congr_right isUnlabelled_iff
  ordered := by
    refine pairwise_listUnder fun file _ => ?_
    cases read : docs.document file with
    | error fault =>
      rw [Docs.shown, read]
      exact .nil
    | ok document =>
      obtain ⟨text, rfl⟩ := Docs.exists_ofText read
      rw [Docs.shown_of_document read]
      exact pairwise_first_toldBlocks file text

theorem shown_unlabelled (docs : Docs) (file : String) :
    docs.shown unlabelled file = (docs.shown toldBlocks file).map (codeFinding file) := by
  cases read : docs.document file with
  | error fault =>
    rw [Docs.shown, Docs.shown, read]
    rfl
  | ok document =>
    obtain ⟨text, rfl⟩ := Docs.exists_ofText read
    rw [Docs.shown_of_document read, Docs.shown_of_document read]
    rfl

/-- The check ends in a report where each file can be read. It tells of a block, once and in order,
exactly if a bare mark opens it and it is closed at once or has content that begins with its first
line. -/
theorem checkCode_tells_unlabelled (docs : Docs) (files : List String) :
    (Succeeds (checkCode docs files) ↔ ∀ file ∈ files, Succeeds (docs.document file)) ∧
      ∀ issues, checkCode docs files = .ok issues →
        ∃ told : List (String × Fence), TellsUnlabelled docs files told ∧
          issues = told.map fun block => codeFinding block.1 block.2 := by
  refine ⟨Docs.succeeds_inEachDocument_iff, ?_⟩
  intro issues returned
  obtain ⟨-, rfl⟩ := Docs.inEachDocument_eq_ok_iff.mp returned
  refine ⟨_, tellsUnlabelled_listUnder docs files, ?_⟩
  rw [listUnder, List.map_flatMap]
  refine List.flatMap_congr fun file _ => ?_
  rw [shown_unlabelled, List.map_map]
  rfl

/-- Of five blocks the first has content, the second begins with a blank line, the third has a
language, the fourth has no line and the last one is never closed. -/
theorem checkCode_tells_unlabelled_five :
    let text := "```\na\n\n```\n ```\n\nb\n```\n```c\nd\n```\n``` \n```\n```\ne\n"
    let docs : Docs :=
      { disk :=
          { root := .folder [("docs", .folder [("a.md", .file (Text.encode text.toList))])]
            workingFolder := [] }
        root := .fromTop ["docs"] }
    let found : List Fence := [⟨1, some 4, []⟩, ⟨12, some 13, []⟩, ⟨14, none, []⟩]
    checkCode docs ["a.md"] = .ok (found.map (codeFinding "a.md")) ∧
      ∃ told : List (String × Fence), TellsUnlabelled docs ["a.md"] told ∧
        found.map (codeFinding "a.md") = told.map fun block => codeFinding block.1 block.2 := by
  intro text docs found
  have returned : checkCode docs ["a.md"] = .ok (found.map (codeFinding "a.md")) := by cbv
  exact ⟨returned, (checkCode_tells_unlabelled docs ["a.md"]).2 _ returned⟩

/-- A block without a line inside is told of, and one whose content begins behind a blank line is
not. -/
theorem checkCode_mistakes_blocks :
    let text := "```\n```\n```\n\na\n"
    let docs : Docs :=
      { disk :=
          { root := .folder [("docs", .folder [("a.md", .file (Text.encode text.toList))])]
            workingFolder := [] }
        root := .fromTop ["docs"] }
    let document := Document.ofText "a.md" text.toList
    let empty : Fence := ⟨1, some 2, []⟩
    let filled : Fence := ⟨3, none, []⟩
    docs.document "a.md" = .ok document ∧ document.fences = [empty, filled] ∧
      IsBare document empty ∧ ¬ HasContent document empty ∧
      IsBare document filled ∧ HasContent document filled ∧
      checkCode docs ["a.md"] = .ok [codeFinding "a.md" empty] := by
  intro text docs document empty filled
  have fences : document.fences = [empty, filled] := by decide +kernel
  have noContent : ¬ HasContent document empty := by decide +kernel
  have content : HasContent document filled := by decide +kernel
  exact ⟨document_of_text (by cbv), fences, by decide +kernel, noContent, by decide +kernel,
    content, by cbv⟩

end Outline

end DocAudit
