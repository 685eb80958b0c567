import DocAudit.Proofs.Document.FixedDocument
import DocAudit.Proofs.Document.InlineCode
import DocAudit.Proofs.Pattern.Seen
import DocAudit.Proofs.Rules.StandardPatterns

/-!
What the standard patterns see in a fixed line is what they see in the line. None of their words
begins with a character that fixing writes, and none ends in a blank.
-/

namespace DocAudit

open Text DocAudit.Fix Pattern

/-- The characters that fixing puts in or takes away. -/
def IsSpacing (c : Char) : Prop :=
  isBlank c = true ∨ c = '#' ∨ c ∈ fenceMark ∨ c ∈ defaultLanguage

instance (c : Char) : Decidable (IsSpacing c) :=
  inferInstanceAs (Decidable (_ ∨ _))

namespace Pattern

variable {pattern : Pattern} {kind : Char → Prop}

theorem not_spells_of_spacing (begins : pattern.part.BeginsIn kind)
    (apart : ∀ c, kind c → ¬IsSpacing c) {c : Char} (spacing : IsSpacing c) (behind : List Char) :
    ¬pattern.part.Spells (c :: behind) :=
  fun spells => apart c (begins.head spells rfl) spacing

theorem avoids_of_allBlank (finishes : pattern.part.FinishesIn (isBlank · = false))
    {tail : List Char} (blank : AllBlank tail) : pattern.Avoids tail := by
  intro front back spells ahead
  by_contra more
  have last : back.getLast more ∈ (front ++ back).getLast? := by
    rw [List.getLast?_append_of_ne_nil _ more, List.getLast?_eq_some_getLast more]
    rfl
  have visible := finishes.getLast spells last
  rw [blank _ (ahead.subset (List.getLast_mem more))] at visible
  cases visible

theorem ignoresSpacing_seen (solid : pattern.IsSolid) (begins : pattern.part.BeginsIn kind)
    (apart : ∀ c, kind c → ¬IsSpacing c)
    (finishes : pattern.part.FinishesIn (isBlank · = false)) : IgnoresSpacing pattern.seen where
  behind line tail blank := by
    have nothing : pattern.seen tail = [] := seen_eq_nil solid fun c member =>
      not_spells_of_spacing begins apart (.inl (blank c member))
    rw [seen_append solid (avoids_of_allBlank finishes blank), nothing, List.append_nil]
  blankAhead c rest blank :=
    seen_cons_of_not solid (not_spells_of_spacing begins apart (.inl blank)) rest
  signAhead rest :=
    seen_cons_of_not solid (not_spells_of_spacing begins apart (.inr (.inl rfl))) rest
  label := by
    have mark : ∀ c ∈ fenceMark, IsSpacing c := fun c member => .inr (.inr (.inl member))
    have labelled : ∀ c ∈ fenceMark ++ defaultLanguage, IsSpacing c := fun c member =>
      .inr (.inr (List.mem_append.mp member))
    rw [seen_eq_nil solid fun c member => not_spells_of_spacing begins apart (mark c member),
      seen_eq_nil solid fun c member => not_spells_of_spacing begins apart (labelled c member)]

/-- The same where spans of inline code are blanked first. -/
theorem ignoresSpacing_seen_blank (solid : pattern.IsSolid) (begins : pattern.part.BeginsIn kind)
    (apart : ∀ c, kind c → ¬IsSpacing c)
    (finishes : pattern.part.FinishesIn (isBlank · = false)) :
    IgnoresSpacing fun line => pattern.seen (InlineCode.blank line) := by
  have ignores := ignoresSpacing_seen solid begins apart finishes
  constructor
  · intro line tail blank
    have unmarked : InlineCode.backtick ∉ tail := blank.not_mem (by decide)
    rw [InlineCode.blank_append line unmarked, ignores.behind _ _ blank]
  · intro c rest blank
    have other : c ≠ InlineCode.backtick := by
      rintro rfl
      exact absurd blank (by decide)
    rw [InlineCode.blank_cons_of_ne other, ignores.blankAhead c _ blank]
  · intro rest
    rw [InlineCode.blank_cons_of_ne (by decide), ignores.signAhead]
  · have spaced : ∀ c ∈ InlineCode.blank (fenceMark ++ defaultLanguage), IsSpacing c :=
      List.all_iff_forall_prop.mp (by decide)
    have spacedMark : ∀ c ∈ InlineCode.blank fenceMark, IsSpacing c :=
      List.all_iff_forall_prop.mp (by decide)
    rw [seen_eq_nil solid fun c member => not_spells_of_spacing begins apart (spaced c member),
      seen_eq_nil solid fun c member => not_spells_of_spacing begins apart (spacedMark c member)]

/-- A text and its fix hold the same matches line by line, so either both hold one or none does. -/
theorem occursIn_fixText (solid : pattern.IsSolid) (ignores : IgnoresSpacing pattern.seen)
    (inLine : ∀ word, pattern.part.Spells word → '\n' ∉ word) (text : List Char) :
    pattern.occursIn (fixText text) = pattern.occursIn text := by
  have seenIn (text : List Char) : (lines text).flatMap pattern.seen =
      (Document.ofText "" text).lines.flatMap fun line => pattern.seen line.text := by
    rw [← map_text_ofText "" text, List.flatMap_map]
  have nothing : ∀ line : Line, line.IsEmpty → pattern.seen line.text = [] := by
    intro line empty
    rw [empty.text]
    rfl
  rw [occursIn_eq_any_lines solid inLine, occursIn_eq_any_lines solid inLine, seenIn, seenIn,
    flatMap_lines_fixText (fun _ _ fixed => fixed.view ignores) nothing]

end Pattern

/-! ## The standard patterns -/

namespace StandardPatterns

theorem not_isSpacing_of_isDigit (c : Char) (digit : isDigit c = true) : ¬IsSpacing c := by
  have signs : ∀ c ∈ '#' :: fenceMark ++ defaultLanguage, isDigit c = false :=
    List.all_iff_forall_prop.mp (by decide)
  rintro (blank | rest)
  · rw [isBlank_of_isDigit digit] at blank
    cases blank
  · have member : c ∈ '#' :: fenceMark ++ defaultLanguage := by
      rw [List.cons_append, List.mem_cons, List.mem_append]
      exact rest
    rw [signs c member] at digit
    cases digit

theorem solid_requirement : requirement.IsSolid := ⟨rfl, rfl⟩

theorem solid_testCase : testCase.IsSolid := ⟨rfl, rfl⟩

theorem solid_paired : paired.IsSolid := ⟨rfl, rfl⟩

theorem solid_legacy : legacy.IsSolid := ⟨rfl, rfl⟩

theorem ignoresSpacing_requirement : IgnoresSpacing requirement.seen :=
  ignoresSpacing_seen solid_requirement (requirement_beginsIn 1)
    (by rintro c rfl; decide) (requirement_finishesIn 1)

theorem ignoresSpacing_testCase : IgnoresSpacing testCase.seen :=
  ignoresSpacing_seen solid_testCase testCase_beginsIn
    (by rintro c rfl; decide) testCase_finishesIn

theorem ignoresSpacing_paired : IgnoresSpacing paired.seen :=
  ignoresSpacing_seen solid_paired paired_beginsIn (by rintro c rfl; decide) paired_finishesIn

theorem ignoresSpacing_legacy :
    IgnoresSpacing fun line => legacy.seen (InlineCode.blank line) :=
  ignoresSpacing_seen_blank solid_legacy legacy_beginsIn not_isSpacing_of_isDigit
    legacy_finishesIn

theorem newline_not_mem {part : Part} (madeOf : part.MadeOf (isBlank · = false))
    (word : List Char) (spells : part.Spells word) : '\n' ∉ word :=
  fun member => absurd (madeOf.mem spells member) (by decide)

theorem occursIn_requirement_fixText (text : List Char) :
    requirement.occursIn (fixText text) = requirement.occursIn text :=
  occursIn_fixText solid_requirement ignoresSpacing_requirement
    (newline_not_mem (requirement_madeOf 1)) text

theorem occursIn_testCase_fixText (text : List Char) :
    testCase.occursIn (fixText text) = testCase.occursIn text :=
  occursIn_fixText solid_testCase ignoresSpacing_testCase (newline_not_mem testCase_madeOf) text

end StandardPatterns

end DocAudit
