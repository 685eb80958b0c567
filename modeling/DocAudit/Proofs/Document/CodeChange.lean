import DocAudit.Proofs.Document.NumberedLines
import DocAudit.Proofs.Outcome

/-!
Texts that differ in code alone. Where two texts have as many lines, and lines that differ lie
inside of a block, the blocks begin and end on the same lines, so what is read off prose is the
same in both.
-/

namespace DocAudit

open Text

/-- How many fences stand before a line. An odd number of them leaves a block open. -/
def fencesBefore (items : List (List Char)) (index : Nat) : Nat :=
  (items.take index).countP isFenceLine

/-- Lines with changes inside of blocks; `fences` stand before the first of them. -/
structure ChangedInside (fences : Nat) (before after : List (List Char)) : Prop where
  length : after.length = before.length
  inside : ∀ index line line', before[index]? = some line → after[index]? = some line' →
    line' ≠ line → (fences + fencesBefore before index) % 2 = 1 ∧
      isFenceLine line = false ∧ isFenceLine line' = false

/-- Two texts that differ only in lines strictly inside of blocks of code. -/
def DifferInCode (before after : List Char) : Prop :=
  ChangedInside 0 (lines before) (lines after)

/-- Another line of code in the place of one. -/
theorem ChangedInside.replace {front behind : List (List Char)} {line line' : List Char}
    (inBlock : front.countP isFenceLine % 2 = 1) (plain : isFenceLine line = false)
    (plain' : isFenceLine line' = false) :
    ChangedInside 0 (front ++ line :: behind) (front ++ line' :: behind) where
  length := by rw [List.length_append, List.length_append, List.length_cons, List.length_cons]
  inside index other other' found found' different := by
    rw [List.getElem?_append] at found found'
    split at found
    · next ahead =>
      rw [if_pos ahead] at found'
      exact absurd (Option.some.inj (found'.symm.trans found)) different
    · next notAhead =>
      rw [if_neg notAhead] at found'
      cases offset : index - front.length with
      | zero =>
        rw [offset] at found found'
        cases found
        cases found'
        have here : index = front.length := by omega
        rw [fencesBefore, here, List.take_left' rfl, Nat.zero_add]
        exact ⟨inBlock, plain, plain'⟩
      | succ later =>
        rw [offset] at found found'
        exact absurd (Option.some.inj (found'.symm.trans found)) different

/-! ## Lines -/

theorem fencesBefore_cons_succ (line : List Char) (rest : List (List Char)) (index : Nat) :
    fencesBefore (line :: rest) (index + 1) =
      (if isFenceLine line then 1 else 0) + fencesBefore rest index := by
  rw [fencesBefore, List.take_succ_cons, List.countP_cons, Nat.add_comm, fencesBefore]

theorem ChangedInside.head {fences : Nat} {line line' : List Char}
    {rest rest' : List (List Char)}
    (changed : ChangedInside fences (line :: rest) (line' :: rest')) :
    line' = line ∨ fences % 2 = 1 ∧ isFenceLine line = false ∧ isFenceLine line' = false := by
  by_cases same : line' = line
  · exact .inl same
  · exact .inr (changed.inside 0 line line' rfl rfl same)

theorem ChangedInside.tail {fences : Nat} {line line' : List Char}
    {rest rest' : List (List Char)}
    (changed : ChangedInside fences (line :: rest) (line' :: rest')) :
    ChangedInside (fences + if isFenceLine line then 1 else 0) rest rest' where
  length := Nat.succ.inj changed.length
  inside index other other' found found' different := by
    have inside := changed.inside (index + 1) other other' found found' different
    rw [fencesBefore_cons_succ, ← Nat.add_assoc] at inside
    exact inside

/-- Lines of two documents that differ at most in the text of code. -/
inductive SeenAlike : Line → Line → Prop where
  | same (line : Line) : SeenAlike line line
  | code (number : Nat) (text text' : List Char) :
      SeenAlike ⟨number, .inside, text⟩ ⟨number, .inside, text'⟩

theorem inBlockAfter_parity (fences : Nat) (line : List Char) :
    inBlockAfter (fences % 2 == 1) line =
      ((fences + if isFenceLine line then 1 else 0) % 2 == 1) := by
  rw [inBlockAfter]
  split <;> grind

theorem lineKind_of_plain {line : List Char} (plain : isFenceLine line = false) :
    lineKind true line = .inside := by
  simp [lineKind, plain]

/-- The fences are the same ones, so whether a block is open stays in step line by line. -/
theorem forall₂_seenAlike (number : Nat) {fences : Nat} {before after : List (List Char)}
    (changed : ChangedInside fences before after) :
    List.Forall₂ SeenAlike (numberLines number (fences % 2 == 1) before)
      (numberLines number (fences % 2 == 1) after) := by
  induction before generalizing number fences after with
  | nil =>
    have none : after = [] := List.eq_nil_of_length_eq_zero changed.length
    rw [none]
    exact .nil
  | cons line rest induction =>
    cases after with
    | nil => cases changed.length
    | cons line' rest' =>
      have later := induction (number + 1) changed.tail
      rw [← inBlockAfter_parity] at later
      rcases changed.head with rfl | ⟨inBlock, plain, plain'⟩
      · exact .cons (.same _) later
      · have isOpen : (fences % 2 == 1) = true := beq_iff_eq.mpr inBlock
        rw [isOpen, inBlockAfter_of_plain plain] at later
        rw [isOpen, numberLines, numberLines, lineKind_of_plain plain, lineKind_of_plain plain',
          inBlockAfter_of_plain plain, inBlockAfter_of_plain plain']
        exact .cons (.code number line line') later

namespace SeenAlike

variable {left right : Line}

theorem heading? (alike : SeenAlike left right) : right.heading? = left.heading? := by
  cases alike <;> rfl

/-- Prose is seen as it is, and code is not seen as prose. -/
theorem guard_prose (alike : SeenAlike left right) :
    Option.guard (·.kind == .prose) right = Option.guard (·.kind == .prose) left := by
  cases alike <;> rfl

end SeenAlike

/-! ## Documents -/

structure Document.SeenAlike (before after : Document) : Prop where
  file : after.file = before.file
  lines : List.Forall₂ DocAudit.SeenAlike before.lines after.lines

theorem DifferInCode.seenAlike {before after : List Char} (inCode : DifferInCode before after)
    (file : String) :
    Document.SeenAlike (.ofText file before) (.ofText file after) where
  file := rfl
  lines := forall₂_seenAlike 1 inCode

namespace Document.SeenAlike

variable {before after : Document}

theorem headings (alike : Document.SeenAlike before after) : after.headings = before.headings :=
  filterMap_eq_of_forall₂ (fun _ _ line => line.heading?) alike.lines

theorem proseLines (alike : Document.SeenAlike before after) :
    after.proseLines = before.proseLines := by
  rw [Document.proseLines, Document.proseLines, ← List.filterMap_eq_filter]
  exact filterMap_eq_of_forall₂ (fun _ _ line => line.guard_prose) alike.lines

end Document.SeenAlike

end DocAudit
