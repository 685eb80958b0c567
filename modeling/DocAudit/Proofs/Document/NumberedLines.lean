import DocAudit.Document.Scan
import Mathlib.Data.List.Basic

/-!
The lines of a document and what is read off them in order: numbers grow from line to line, so no
two headings stand on one line, and a block begins with the line that its language stands on.
-/

namespace DocAudit

theorem inBlockAfter_of_plain {line : List Char} (plain : isFenceLine line = false)
    (inBlock : Bool) : inBlockAfter inBlock line = inBlock := by
  simp [inBlockAfter, plain]

theorem inBlockAfter_of_fence {line : List Char} (fence : isFenceLine line = true)
    (inBlock : Bool) : inBlockAfter inBlock line = !inBlock := by
  simp [inBlockAfter, fence]

@[simp] theorem map_text_numberLines (number : Nat) (inBlock : Bool) (items : List (List Char)) :
    (numberLines number inBlock items).map Line.text = items := by
  induction items generalizing number inBlock with
  | nil => rfl
  | cons line rest induction => rw [numberLines, List.map_cons, induction]

theorem length_numberLines (number : Nat) (inBlock : Bool) (items : List (List Char)) :
    (numberLines number inBlock items).length = items.length := by
  rw [← List.length_map (f := Line.text), map_text_numberLines]

@[simp] theorem map_text_ofText (file : String) (text : List Char) :
    (Document.ofText file text).lines.map Line.text = Text.lines text :=
  map_text_numberLines 1 false (Text.lines text)

theorem number_le_of_mem_numberLines {number : Nat} {inBlock : Bool} {items : List (List Char)}
    {line : Line} (member : line ∈ numberLines number inBlock items) : number ≤ line.number := by
  induction items generalizing number inBlock with
  | nil => cases member
  | cons text rest induction =>
    rcases List.mem_cons.mp member with rfl | member
    · exact Nat.le_refl number
    · exact Nat.le_of_succ_le (induction member)

theorem pairwise_number_numberLines (number : Nat) (inBlock : Bool) (items : List (List Char)) :
    (numberLines number inBlock items).Pairwise (·.number < ·.number) := by
  induction items generalizing number inBlock with
  | nil => exact .nil
  | cons text rest induction =>
    rw [numberLines]
    refine .cons ?_ (induction (number + 1) (inBlockAfter inBlock text))
    intro line member
    exact number_le_of_mem_numberLines member

theorem getElem?_number_numberLines {number : Nat} {inBlock : Bool} {items : List (List Char)}
    {line : Line} (member : line ∈ numberLines number inBlock items) :
    (numberLines number inBlock items)[line.number - number]? = some line := by
  induction items generalizing number inBlock with
  | nil => cases member
  | cons text rest induction =>
    rcases List.mem_cons.mp member with rfl | member
    · rw [Nat.sub_self, numberLines, List.getElem?_cons_zero]
    · have after := number_le_of_mem_numberLines member
      rw [show line.number - number = line.number - (number + 1) + 1 by omega, numberLines,
        List.getElem?_cons_succ]
      exact induction member

/-! ## Headings -/

theorem line_of_heading? {line : Line} {heading : Heading} (found : line.heading? = some heading) :
    heading.line = line.number := by
  unfold Line.heading? at found
  split at found
  · rcases Option.map_eq_some_iff.mp found with ⟨level, -, rfl⟩
    rfl
  · cases found

/-- Headings come in the order of their lines, and no two of them on one line. -/
theorem pairwise_line_headings (file : String) (text : List Char) :
    (Document.ofText file text).headings.Pairwise (·.line < ·.line) := by
  refine List.Pairwise.filterMap Line.heading? ?_
    (pairwise_number_numberLines 1 false (Text.lines text))
  intro line later before heading found heading' found'
  rw [line_of_heading? found, line_of_heading? found']
  exact before

/-! ## Blocks -/

section fencesFrom

variable {line : Line} {rest : List Line}

theorem fencesFrom_opening (known : line.kind = .opening) (opened : Option (Nat × List Char)) :
    fencesFrom opened (line :: rest) =
      fencesFrom (some (line.number, fenceLabel line.text)) rest := by
  simp only [fencesFrom, known]

theorem fencesFrom_closing (known : line.kind = .closing) (first : Nat)
    (language : List Char) :
    fencesFrom (some (first, language)) (line :: rest) =
      ⟨first, some line.number, language⟩ :: fencesFrom none rest := by
  simp only [fencesFrom, known]

theorem fencesFrom_closing_none (known : line.kind = .closing) :
    fencesFrom none (line :: rest) = fencesFrom none rest := by
  simp only [fencesFrom, known]

/-- Between fences nothing begins and nothing ends. -/
theorem fencesFrom_between (notOpening : line.kind ≠ .opening) (notClosing : line.kind ≠ .closing)
    (opened : Option (Nat × List Char)) :
    fencesFrom opened (line :: rest) = fencesFrom opened rest := by
  cases known : line.kind with
  | opening => exact absurd known notOpening
  | closing => exact absurd known notClosing
  | inside => simp only [fencesFrom, known]
  | prose => simp only [fencesFrom, known]

end fencesFrom

/-- A block begins with the line that its language stands on. -/
theorem mem_fencesFrom {opened : Option (Nat × List Char)} {items : List Line} {fence : Fence}
    (member : fence ∈ fencesFrom opened items) :
    opened = some (fence.first, fence.language) ∨
      ∃ line ∈ items, line.number = fence.first ∧ fenceLabel line.text = fence.language := by
  induction items generalizing opened with
  | nil =>
    cases opened with
    | none => cases member
    | some block =>
      left
      rw [List.mem_singleton.mp member]
  | cons line rest induction =>
    have later : ∀ {opened}, fence ∈ fencesFrom opened rest →
        opened = some (fence.first, fence.language) ∨
          ∃ line' ∈ line :: rest,
            line'.number = fence.first ∧ fenceLabel line'.text = fence.language := by
      intro opened member
      rcases induction member with same | ⟨line', inRest, facts⟩
      · exact .inl same
      · exact .inr ⟨line', List.mem_cons_of_mem line inRest, facts⟩
    cases known : line.kind with
    | opening =>
      rw [fencesFrom_opening known] at member
      rcases later member with same | found
      · rw [Option.some.injEq, Prod.mk.injEq] at same
        exact .inr ⟨line, List.mem_cons_self, same⟩
      · exact .inr found
    | closing =>
      cases opened with
      | none =>
        rw [fencesFrom_closing_none known] at member
        exact later member
      | some block =>
        rw [fencesFrom_closing known, List.mem_cons] at member
        rcases member with rfl | member
        · exact .inl rfl
        · exact .inr ((later member).resolve_left (fun none => nomatch none))
    | inside | prose =>
      rw [fencesFrom_between (by simp [known]) (by simp [known])] at member
      exact later member

end DocAudit
