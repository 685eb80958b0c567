import DocAudit.Proofs.Document.NumberedLines
import Mathlib.Data.List.Pairwise

/-!
Blocks of code against the lines of a document. The first and last lines of the blocks, one block
after the other, are the fence lines in their order, and that is all there is to how blocks lie: the
rest follows because the numbers of lines grow. Between its fences a block covers the lines of code.
-/

namespace DocAudit

/-- The lines that a block begins and ends with. -/
def Fence.marks (fence : Fence) : List Nat :=
  fence.first :: fence.last.toList

/-- Whether a line lies in a block, fences included, where so many lines can be covered. -/
def Fence.Covers (fence : Fence) (count number : Nat) : Prop :=
  fence.first ≤ number ∧ number ≤ fence.last.getD count

/-! ## Blocks from a line on -/

/-- The blocks of some lines; `opened` is what is known of a block that has begun before them. -/
def blocksFrom (opened : Option (Nat × List Char)) (number : Nat) (items : List (List Char)) :
    List Fence :=
  fencesFrom opened (numberLines number opened.isSome items)

section blocksFrom

variable {opened : Option (Nat × List Char)} {block : Nat × List Char} {number : Nat}
  {line : List Char} {rest items : List (List Char)}

theorem blocksFrom_cons_of_plain (plain : isFenceLine line = false) :
    blocksFrom opened number (line :: rest) = blocksFrom opened (number + 1) rest := by
  rw [blocksFrom, numberLines, inBlockAfter_of_plain plain]
  apply fencesFrom_between <;> cases opened <;> simp [lineKind, plain]

theorem blocksFrom_none_cons_of_fence (fence : isFenceLine line = true) :
    blocksFrom none number (line :: rest) =
      blocksFrom (some (number, fenceLabel line)) (number + 1) rest := by
  rw [blocksFrom, Option.isSome_none, numberLines, inBlockAfter_of_fence fence]
  exact fencesFrom_opening (by simp [lineKind, fence]) none

theorem blocksFrom_some_cons_of_fence (fence : isFenceLine line = true) :
    blocksFrom (some block) number (line :: rest) =
      ⟨block.1, some number, block.2⟩ :: blocksFrom none (number + 1) rest := by
  rw [blocksFrom, Option.isSome_some, numberLines, inBlockAfter_of_fence fence]
  exact fencesFrom_closing (by simp [lineKind, fence]) block.1 block.2

/-- The numbers of the fence lines among some lines. -/
def fenceNumbers (lines : List Line) : List Nat :=
  (lines.filter fun line => isFenceLine line.text).map Line.number

theorem fenceNumbers_cons (line : Line) (lines : List Line) :
    fenceNumbers (line :: lines) =
      if isFenceLine line.text then line.number :: fenceNumbers lines else fenceNumbers lines := by
  rw [fenceNumbers, List.filter_cons]
  split <;> rfl

/-- Block after block, what blocks begin and end with are the fence lines. -/
theorem flatMap_marks_blocksFrom (opened : Option (Nat × List Char)) (number : Nat)
    (items : List (List Char)) :
    (blocksFrom opened number items).flatMap Fence.marks =
      (opened.map Prod.fst).toList ++ fenceNumbers (numberLines number opened.isSome items) := by
  induction items generalizing opened number with
  | nil => cases opened <;> rfl
  | cons line rest induction =>
    rw [numberLines, fenceNumbers_cons]
    cases fence : isFenceLine line with
    | false =>
      rw [blocksFrom_cons_of_plain fence, induction, inBlockAfter_of_plain fence]
      rfl
    | true =>
      rw [inBlockAfter_of_fence fence]
      cases opened with
      | none =>
        rw [blocksFrom_none_cons_of_fence fence, induction]
        rfl
      | some block =>
        rw [blocksFrom_some_cons_of_fence fence, List.flatMap_cons, induction]
        rfl

/-- Only the last block may go on to the end. -/
theorem pairwise_closed_blocksFrom (opened : Option (Nat × List Char)) (number : Nat)
    (items : List (List Char)) :
    (blocksFrom opened number items).Pairwise fun fence _ => ∃ last, fence.last = some last := by
  induction items generalizing opened number with
  | nil =>
    cases opened with
    | none => exact .nil
    | some block => exact List.pairwise_singleton _ _
  | cons line rest induction =>
    cases fence : isFenceLine line with
    | false =>
      rw [blocksFrom_cons_of_plain fence]
      exact induction opened (number + 1)
    | true =>
      cases opened with
      | none =>
        rw [blocksFrom_none_cons_of_fence fence]
        exact induction _ (number + 1)
      | some block =>
        rw [blocksFrom_some_cons_of_fence fence]
        exact .cons (fun _ _ => ⟨number, rfl⟩) (induction none (number + 1))

theorem number_le_of_mem_fenceNumbers {inBlock : Bool} {mark : Nat}
    (member : mark ∈ fenceNumbers (numberLines number inBlock items)) : number ≤ mark := by
  obtain ⟨line, inLines, rfl⟩ := List.mem_map.mp member
  exact number_le_of_mem_numberLines (List.mem_filter.mp inLines).1

/-- Where no block has begun, blocks begin among the lines that follow. -/
theorem number_le_first {fence : Fence} (member : fence ∈ blocksFrom none number items) :
    number ≤ fence.first := by
  have isMark : fence.first ∈ (blocksFrom none number items).flatMap Fence.marks :=
    List.mem_flatMap.mpr ⟨fence, member, List.mem_cons_self⟩
  rw [flatMap_marks_blocksFrom] at isMark
  exact number_le_of_mem_fenceNumbers isMark

/-- A block that has begun goes on among the lines that follow. -/
theorem exists_begun (block : Nat × List Char) (number : Nat) (items : List (List Char)) :
    ∃ fence ∈ blocksFrom (some block) number items,
      fence.first = block.1 ∧ ∀ last, fence.last = some last → number ≤ last := by
  have marks := flatMap_marks_blocksFrom (some block) number items
  cases begun : blocksFrom (some block) number items with
  | nil =>
    rw [begun] at marks
    cases marks
  | cons fence others =>
    rw [begun, List.flatMap_cons] at marks
    obtain ⟨first, behind⟩ := List.cons.inj marks
    refine ⟨fence, List.mem_cons_self, first, ?_⟩
    intro last closed
    rw [closed] at behind
    have isMark : last ∈ fenceNumbers (numberLines number true items) := by
      rw [show fenceNumbers (numberLines number true items) = _ from behind.symm]
      exact List.mem_cons_self
    exact number_le_of_mem_fenceNumbers isMark

/-- A block that has begun covers the line ahead. -/
theorem exists_begun_covers {count : Nat} (whole : number + items.length = count)
    (block : Nat × List Char) (begun : block.1 ≤ number) :
    ∃ fence ∈ blocksFrom (some block) (number + 1) items, fence.Covers count number := by
  obtain ⟨fence, member, first, closed⟩ := exists_begun block (number + 1) items
  refine ⟨fence, member, first ▸ begun, ?_⟩
  cases last : fence.last with
  | none => exact show number ≤ count by omega
  | some last' => exact Nat.le_of_succ_le (closed last' last)

/-- The first of some lines is covered unless it is prose. -/
theorem exists_covers_first_iff {count : Nat} (whole : number + rest.length = count)
    (begun : ∀ block, opened = some block → block.1 < number) :
    (∃ fence ∈ blocksFrom opened number (line :: rest), fence.Covers count number) ↔
      lineKind opened.isSome line ≠ .prose := by
  cases fence : isFenceLine line with
  | false =>
    rw [blocksFrom_cons_of_plain fence]
    cases opened with
    | none =>
      refine iff_of_false ?_ (by simp [lineKind, fence])
      rintro ⟨block, member, covers⟩
      exact Nat.not_succ_le_self number (Nat.le_trans (number_le_first member) covers.1)
    | some block =>
      refine iff_of_true ?_ (by simp [lineKind, fence])
      exact exists_begun_covers whole block (Nat.le_of_lt (begun block rfl))
  | true =>
    refine iff_of_true ?_ (by cases opened <;> simp [lineKind, fence])
    cases opened with
    | none =>
      rw [blocksFrom_none_cons_of_fence fence]
      exact exists_begun_covers whole _ (Nat.le_refl number)
    | some block =>
      rw [blocksFrom_some_cons_of_fence fence]
      exact ⟨_, List.mem_cons_self, Nat.le_of_lt (begun block rfl), Nat.le_refl number⟩

/-- From a line on, blocks cover the lines that are no prose. -/
theorem exists_covers_iff {count here : Nat} (whole : number + items.length = count + 1)
    (begun : ∀ block, opened = some block → block.1 < number) (notBefore : number ≤ here) :
    (∃ fence ∈ blocksFrom opened number items, fence.Covers count here) ↔
      ∃ line ∈ numberLines number opened.isSome items,
        line.number = here ∧ line.kind ≠ .prose := by
  induction items generalizing opened number with
  | nil =>
    refine iff_of_false ?_ (fun found => List.not_mem_nil found.choose_spec.1)
    rintro ⟨fence, member, covers⟩
    cases opened with
    | none => cases member
    | some block =>
      obtain rfl := List.mem_singleton.mp member
      have inside : here ≤ count := covers.2
      rw [List.length_nil] at whole
      omega
  | cons line rest induction =>
    rw [List.length_cons, ← Nat.add_assoc, Nat.succ_inj] at whole
    rw [numberLines, List.exists_mem_cons_iff]
    rcases Nat.eq_or_lt_of_le notBefore with rfl | later
    · rw [exists_covers_first_iff whole begun, or_iff_left]
      · exact (and_iff_right rfl).symm
      · rintro ⟨line', member, same, -⟩
        have behind := number_le_of_mem_numberLines member
        omega
    · have wholeRest : number + 1 + rest.length = count + 1 := by omega
      rw [or_iff_right (fun found => Nat.ne_of_lt later found.1)]
      cases fence : isFenceLine line with
      | false =>
        rw [blocksFrom_cons_of_plain fence, inBlockAfter_of_plain fence]
        exact induction wholeRest (fun block known => Nat.lt_succ_of_lt (begun block known)) later
      | true =>
        rw [inBlockAfter_of_fence fence]
        cases opened with
        | none =>
          rw [blocksFrom_none_cons_of_fence fence]
          refine induction wholeRest ?_ later
          rintro block ⟨⟩
          exact Nat.lt_succ_self number
        | some block =>
          rw [blocksFrom_some_cons_of_fence fence, List.exists_mem_cons_iff, or_iff_right]
          · refine induction wholeRest ?_ later
            rintro _ ⟨⟩
          · exact fun covers => Nat.not_le_of_lt later covers.2

end blocksFrom

/-! ## Whole documents -/

namespace Document

variable {file : String} {text : List Char}

/-- The blocks of a document begin and end with its fence lines, block after block. -/
theorem flatMap_marks (file : String) (text : List Char) :
    (ofText file text).fences.flatMap Fence.marks = fenceNumbers (ofText file text).lines :=
  flatMap_marks_blocksFrom none 1 (Text.lines text)

theorem pairwise_number_lines (file : String) (text : List Char) :
    (ofText file text).lines.Pairwise (·.number < ·.number) :=
  pairwise_number_numberLines 1 false (Text.lines text)

theorem pairwise_flatMap_marks (file : String) (text : List Char) :
    ((ofText file text).fences.flatMap Fence.marks).Pairwise (· < ·) := by
  rw [flatMap_marks, fenceNumbers, List.pairwise_map]
  exact (pairwise_number_lines file text).filter _

/-- A block ends behind the line that it begins with. -/
theorem first_lt_last {fence : Fence} (member : fence ∈ (ofText file text).fences) {last : Nat}
    (closed : fence.last = some last) : fence.first < last := by
  have inOrder := (List.pairwise_flatMap.mp (pairwise_flatMap_marks file text)).1 fence member
  rw [Fence.marks, closed] at inOrder
  exact List.rel_of_pairwise_cons inOrder (List.mem_singleton_self last)

/-- Blocks lie one behind the other, and only the last one may be without an end. -/
theorem pairwise_fences (file : String) (text : List Char) :
    (ofText file text).fences.Pairwise fun fence later =>
      ∃ last, fence.last = some last ∧ last < later.first := by
  have closed := pairwise_closed_blocksFrom none 1 (Text.lines text)
  have apart := (List.pairwise_flatMap.mp (pairwise_flatMap_marks file text)).2
  refine (closed.and apart).imp ?_
  rintro fence later ⟨⟨last, ends⟩, before⟩
  refine ⟨last, ends, before last ?_ later.first List.mem_cons_self⟩
  rw [Fence.marks, ends]
  exact List.mem_cons_of_mem _ (List.mem_singleton_self last)

/-- A fence line begins or ends a block. -/
theorem mem_marks_iff {number : Nat} :
    (∃ fence ∈ (ofText file text).fences, number ∈ fence.marks) ↔
      ∃ line ∈ (ofText file text).lines,
        line.number = number ∧ isFenceLine line.text = true := by
  rw [← List.mem_flatMap, flatMap_marks, fenceNumbers, List.mem_map]
  simp only [List.mem_filter, and_assoc, and_comm (a := isFenceLine _ = true)]

/-- No line begins or ends two blocks. -/
theorem eq_of_mem_marks {fence fence' : Fence} (member : fence ∈ (ofText file text).fences)
    (member' : fence' ∈ (ofText file text).fences) {number : Nat} (mark : number ∈ fence.marks)
    (mark' : number ∈ fence'.marks) : fence = fence' := by
  have apart : (ofText file text).fences.Pairwise fun left right =>
      ∀ mark ∈ left.marks, mark ∉ right.marks := by
    refine (List.pairwise_flatMap.mp (pairwise_flatMap_marks file text)).2.imp ?_
    intro left right before mark inLeft inRight
    exact Nat.lt_irrefl mark (before mark inLeft mark inRight)
  have symmetric : Std.Symm fun left right : Fence => ∀ mark ∈ left.marks, mark ∉ right.marks :=
    ⟨fun _ _ disjoint mark inRight inLeft => disjoint mark inLeft inRight⟩
  by_contra different
  exact apart.forall member member' different number mark mark'

theorem eq_of_number_eq {line line' : Line} (member : line ∈ (ofText file text).lines)
    (member' : line' ∈ (ofText file text).lines) (same : line.number = line'.number) :
    line = line' := by
  have found := getElem?_number_numberLines member
  have found' := getElem?_number_numberLines member'
  rw [same, found'] at found
  exact (Option.some.inj found).symm

theorem inCode_iff {document : Document} {number : Nat} :
    document.inCode number = true ↔
      ∃ line ∈ document.lines, line.number = number ∧ line.kind ≠ .prose := by
  simp [inCode]

/-- The lines of code are those that a block covers. -/
theorem inCode_iff_covers {number : Nat} :
    (ofText file text).inCode number = true ↔
      ∃ fence ∈ (ofText file text).fences,
        fence.Covers (ofText file text).lines.length number := by
  have count : (ofText file text).lines.length = (Text.lines text).length :=
    length_numberLines 1 false (Text.lines text)
  rw [inCode_iff, count]
  cases number with
  | zero =>
    refine iff_of_false ?_ ?_
    · rintro ⟨line, member, zero, -⟩
      have positive : 1 ≤ line.number := number_le_of_mem_numberLines member
      omega
    · rintro ⟨fence, member, covers⟩
      have positive : 1 ≤ fence.first := number_le_first member
      exact Nat.not_succ_le_zero 0 (Nat.le_trans positive covers.1)
  | succ number =>
    have whole := Nat.add_comm 1 (Text.lines text).length
    have noneBegun (block : Nat × List Char) : none = some block → block.1 < 1 := nofun
    exact (exists_covers_iff whole noneBegun (Nat.succ_pos number)).symm

theorem kind_eq_prose_iff {line : Line} (member : line ∈ (ofText file text).lines) :
    line.kind = .prose ↔ (ofText file text).inCode line.number = false := by
  rw [← not_iff_not, Bool.not_eq_false, inCode_iff]
  constructor
  · exact fun code => ⟨line, member, rfl, code⟩
  · rintro ⟨line', member', same, code⟩
    rwa [eq_of_number_eq member' member same] at code

end Document

end DocAudit
