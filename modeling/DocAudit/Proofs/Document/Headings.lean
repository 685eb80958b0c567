import DocAudit.Proofs.Document.Blocks

/-!
Which headings a document has, said of its lines: a heading stands on a line outside of code that
begins with one to six number signs and a blank, and headings come in the order of their lines.
-/

namespace DocAudit

namespace Document

/-- A line of the document outside of code makes the heading. -/
def HasHeading (document : Document) (heading : Heading) : Prop :=
  ∃ line ∈ document.lines, document.inCode line.number = false ∧
    headingLevel? line.text = some heading.level ∧
      heading.text = Text.strip (line.text.drop heading.level) ∧ heading.line = line.number

end Document

theorem heading?_eq_some_iff {line : Line} {heading : Heading} :
    line.heading? = some heading ↔
      line.kind = .prose ∧ headingLevel? line.text = some heading.level ∧
        heading.text = Text.strip (line.text.drop heading.level) ∧
          heading.line = line.number := by
  obtain ⟨level, text, number⟩ := heading
  rw [Line.heading?, Option.ite_none_right_eq_some, Option.map_eq_some_iff]
  refine and_congr_right fun _ => ?_
  constructor
  · rintro ⟨level', isLevel, same⟩
    obtain ⟨rfl, rfl, rfl⟩ := Heading.mk.inj same
    exact ⟨isLevel, rfl, rfl⟩
  · rintro ⟨isLevel, isText, isNumber⟩
    exact ⟨level, isLevel, congrArg₂ (Heading.mk level) isText.symm isNumber.symm⟩

theorem find?_eq_some_iff_of_sorted {headings : List Heading} {heading : Heading}
    {asked : Heading → Bool} (sorted : headings.Pairwise (·.line < ·.line)) :
    headings.find? asked = some heading ↔
      heading ∈ headings ∧ asked heading = true ∧
        ∀ other ∈ headings, asked other = true → heading.line ≤ other.line := by
  induction headings with
  | nil => simp
  | cons first rest induction =>
    obtain ⟨behind, sortedRest⟩ := List.pairwise_cons.mp sorted
    rw [List.find?_cons]
    cases answer : asked first with
    | true =>
      constructor
      · rintro ⟨⟩
        refine ⟨List.mem_cons_self, answer, fun other member _ => ?_⟩
        rcases List.mem_cons.mp member with rfl | member
        · exact Nat.le_refl _
        · exact Nat.le_of_lt (behind other member)
      · rintro ⟨member, -, earliest⟩
        rcases List.mem_cons.mp member with rfl | member
        · rfl
        · have notLater := earliest first List.mem_cons_self answer
          exact absurd (behind heading member) (Nat.not_lt.mpr notLater)
    | false =>
      have passed {other : Heading} (asks : asked other = true) :
          other ∈ first :: rest ↔ other ∈ rest := by
        rw [List.mem_cons, or_iff_right]
        rintro rfl
        rw [answer] at asks
        cases asks
      rw [induction sortedRest]
      constructor
      · rintro ⟨member, asks, earliest⟩
        exact ⟨(passed asks).mpr member, asks,
          fun other among asks' => earliest other ((passed asks').mp among) asks'⟩
      · rintro ⟨member, asks, earliest⟩
        exact ⟨(passed asks).mp member, asks,
          fun other among asks' => earliest other ((passed asks').mpr among) asks'⟩

namespace Document

variable {file : String} {text : List Char} {heading : Heading}

theorem mem_headings_iff :
    heading ∈ (ofText file text).headings ↔ (ofText file text).HasHeading heading := by
  rw [headings, List.mem_filterMap]
  refine exists_congr fun line => and_congr_right fun member => ?_
  rw [heading?_eq_some_iff, kind_eq_prose_iff member]

/-- The first heading of a level is the one on the earliest line. -/
theorem firstHeading?_eq_some_iff {level : Nat} :
    (ofText file text).firstHeading? level = some heading ↔
      (ofText file text).HasHeading heading ∧ heading.level = level ∧
        ∀ other, (ofText file text).HasHeading other → other.level = level →
          heading.line ≤ other.line := by
  simp only [← mem_headings_iff]
  rw [firstHeading?, find?_eq_some_iff_of_sorted (pairwise_line_headings file text)]
  simp only [beq_iff_eq]

end Document

end DocAudit
