import DocAudit.Proofs.Pattern.Words
import DocAudit.Proofs.Text.Blank
import DocAudit.Rules.LegacyFileNames
import DocAudit.Rules.Traceability

/-!
The regular expressions of the standard options, as the trees that they are read as, and the
characters that their words begin and end with.
-/

namespace DocAudit

namespace Pattern

deriving instance DecidableEq for Part

end Pattern

deriving instance DecidableEq for Pattern

/-- What is found out by running a search holds of a pattern that is read. -/
theorem Pattern.exists_parse_of_any {text : List Char} {Holds : Pattern → Bool}
    (run : (Pattern.parse text).toOption.any Holds = true) :
    ∃ pattern, Pattern.parse text = .ok pattern ∧ Holds pattern = true := by
  cases parsed : Pattern.parse text with
  | error stop =>
    rw [parsed] at run
    cases run
  | ok pattern =>
    rw [parsed] at run
    exact ⟨pattern, rfl, run⟩

theorem Pattern.exists_stop_of_isOk_eq_false {text : List Char}
    (refused : (Pattern.parse text).isOk = false) : ∃ stop, Pattern.parse text = .error stop := by
  cases parsed : Pattern.parse text with
  | error stop => exact ⟨stop, rfl⟩
  | ok pattern =>
    rw [parsed] at refused
    cases refused

theorem Traceability.pattern_of_parse {text : String} {pattern : Pattern}
    (parsed : Pattern.parse text.toList = .ok pattern) :
    (Value.text text).pattern = .ok pattern := by
  simp only [Value.pattern, parsed]

namespace StandardPatterns

open Pattern

def set (items : List SetItem) : Part :=
  .one (.set false items .exact false)

def letter (c : Char) : Part :=
  set [.single c.toNat]

def capital : SetItem :=
  .range 'A'.toNat 'Z'.toNat

def digit : Part :=
  set [.category .digit false]

def exactly (count : Nat) (body : Part) : Part :=
  .repeated .greedy count (some count) body

def optional (body : Part) : Part :=
  .repeated .greedy 0 (some 1) body

/-- A requirement; the capture in it has a number of its own in a larger expression. -/
def requirementPart (group : Nat) : Part :=
  let prefixed := Part.sequence (.repeated .greedy 1 none (set [capital])) (letter '-')
  .ofList [letter 'F', letter 'R', letter '-',
    .repeated .greedy 0 none (.capture group prefixed), exactly 3 digit]

def testCasePart : Part :=
  .ofList [letter 'T', letter 'C', letter '-',
    set (['U', 'I', 'E', 'P', 'S', 'D', 'X'].map fun c => .single c.toNat), exactly 3 digit]

def pairedPart : Part :=
  .ofList [.capture 1 testCasePart, .repeated .lazy 0 none (.one .anyInLine),
    optional (letter '['), .capture 2 (requirementPart 3), optional (letter ']')]

def legacyPart : Part :=
  .ofList [exactly 2 digit, letter '-', set [capital],
    .repeated .greedy 1 none (set [capital, .range '0'.toNat '9'.toNat, .single '-'.toNat]),
    letter '.', letter 'm', letter 'd']

def requirement : Pattern := ⟨requirementPart 1, []⟩

def testCase : Pattern := ⟨testCasePart, []⟩

def paired : Pattern := ⟨pairedPart, [(Traceability.pairedName, 2), (['t', 'c'], 1)]⟩

def legacy : Pattern := ⟨legacyPart, []⟩

/-! ## Reading -/

theorem parse_requirement :
    Pattern.parse "FR-([A-Z]+-)*\\d\x7b3\x7d".toList = .ok requirement := by decide +kernel

theorem parse_testCase :
    Pattern.parse "TC-[UIEPSDX]\\d\x7b3\x7d".toList = .ok testCase := by decide +kernel

theorem parse_paired :
    Pattern.parse (Traceability.pairedText {}).toList = .ok paired := by decide +kernel

theorem parse_legacy :
    Pattern.parse "\\d\x7b2\x7d-[A-Z][A-Z0-9-]+\\.md".toList = .ok legacy := by decide +kernel

theorem ofOptions_standard :
    Traceability.IdPatterns.ofOptions {} = .ok ⟨requirement, paired⟩ := by
  rw [Traceability.IdPatterns.ofOptions, Traceability.pattern_of_parse parse_requirement,
    Traceability.pattern_of_parse parse_paired]
  rfl

/-! ## Characters -/

open Text

theorem isBlank_eq_false_of_graphic {c : Char} (low : 0x21 ≤ c.toNat) (high : c.toNat ≤ 0x7E) :
    isBlank c = false := by
  have apart : ∀ range ∈ blankRanges, range.2 < 0x21 ∨ 0x7E < range.1 := by decide
  rw [isBlank, Ranges.contains, List.any_eq_false]
  intro range inRanges blank
  have separate := apart range inRanges
  simp only [Bool.and_eq_true, decide_eq_true_eq] at blank
  omega

/-- What a set accepts is what one of its items holds. -/
theorem exists_holds_of_accepts {items : List SetItem} {c : Char}
    (accepted : (Single.set false items .exact false).accepts c = true) :
    ∃ item ∈ items, item.holds [c.toNat] false c = true := by
  rw [Single.accepts, Bool.bne_false, List.any_eq_true] at accepted
  exact accepted

theorem eq_of_accepts_letter {letter c : Char}
    (accepted : (Single.set false [.single letter.toNat] .exact false).accepts c = true) :
    c = letter := by
  rcases exists_holds_of_accepts accepted with ⟨item, member, holds⟩
  rw [List.mem_singleton.mp member, SetItem.holds, List.contains_iff_mem,
    List.mem_singleton] at holds
  exact (Char.toNat_inj.mp holds).symm

theorem isDigit_of_accepts_digit {c : Char}
    (accepted : (Single.set false [.category .digit false] .exact false).accepts c = true) :
    isDigit c = true := by
  rcases exists_holds_of_accepts accepted with ⟨item, member, holds⟩
  rw [List.mem_singleton.mp member, SetItem.holds, Bool.bne_false] at holds
  exact holds

/-- The least and the greatest code of an item that is no category. -/
def bounds : SetItem → Nat × Nat
  | .single code => (code, code)
  | .range first last => (first, last)
  | .category .. => (0, 0)

/-- Sets of graphic characters of the first script hold no blank. -/
theorem isBlank_eq_false_of_accepts {items : List SetItem}
    (graphic : ∀ item ∈ items, 0x21 ≤ (bounds item).1 ∧ (bounds item).2 ≤ 0x7E) {c : Char}
    (accepted : (Single.set false items .exact false).accepts c = true) : isBlank c = false := by
  rcases exists_holds_of_accepts accepted with ⟨item, member, holds⟩
  have within := graphic item member
  cases item with
  | single code =>
    rw [SetItem.holds, List.contains_iff_mem, List.mem_singleton] at holds
    simp only [bounds] at within
    exact isBlank_eq_false_of_graphic (by omega) (by omega)
  | range first last =>
    simp only [SetItem.holds, List.any_cons, List.any_nil, Bool.or_false, Bool.and_eq_true,
      decide_eq_true_eq] at holds
    simp only [bounds] at within
    exact isBlank_eq_false_of_graphic (by omega) (by omega)
  | category kind negated =>
    simp only [bounds] at within
    omega

theorem letter_madeOf {c : Char} (solid : isBlank c = false) :
    (letter c).MadeOf (isBlank · = false) :=
  fun _ accepted => eq_of_accepts_letter accepted ▸ solid

theorem digit_madeOf : digit.MadeOf (isBlank · = false) :=
  fun _ accepted => isBlank_of_isDigit (isDigit_of_accepts_digit accepted)

theorem set_madeOf {items : List SetItem}
    (graphic : ∀ item ∈ items, 0x21 ≤ (bounds item).1 ∧ (bounds item).2 ≤ 0x7E) :
    (set items).MadeOf (isBlank · = false) :=
  fun _ accepted => isBlank_eq_false_of_accepts graphic accepted

theorem requirement_beginsIn (group : Nat) : (requirementPart group).BeginsIn (· = 'F') :=
  ⟨fun _ accepted => eq_of_accepts_letter accepted, nofun⟩

theorem requirement_finishesIn (group : Nat) :
    (requirementPart group).FinishesIn (isBlank · = false) :=
  .ofList_of_drop 4 rfl digit_madeOf

theorem requirement_madeOf (group : Nat) : (requirementPart group).MadeOf (isBlank · = false) :=
  ⟨letter_madeOf (by decide), letter_madeOf (by decide), letter_madeOf (by decide),
    ⟨set_madeOf (by decide), letter_madeOf (by decide)⟩, digit_madeOf⟩

theorem testCase_beginsIn : testCasePart.BeginsIn (· = 'T') :=
  ⟨fun _ accepted => eq_of_accepts_letter accepted, nofun⟩

theorem testCase_finishesIn : testCasePart.FinishesIn (isBlank · = false) :=
  .ofList_of_drop 4 rfl digit_madeOf

theorem testCase_madeOf : testCasePart.MadeOf (isBlank · = false) :=
  ⟨letter_madeOf (by decide), letter_madeOf (by decide), letter_madeOf (by decide),
    set_madeOf (by decide), digit_madeOf⟩

theorem paired_beginsIn : pairedPart.BeginsIn (· = 'T') :=
  ⟨testCase_beginsIn, nofun⟩

theorem paired_finishesIn : pairedPart.FinishesIn (isBlank · = false) :=
  .ofList_of_drop 3 rfl ⟨letter_madeOf (by decide), fun _ => requirement_finishesIn 3⟩

theorem legacy_beginsIn : legacyPart.BeginsIn (isDigit · = true) :=
  ⟨fun _ accepted => isDigit_of_accepts_digit accepted, nofun⟩

theorem legacy_finishesIn : legacyPart.FinishesIn (isBlank · = false) :=
  .ofList_of_drop 6 rfl (letter_madeOf (by decide))

end StandardPatterns

end DocAudit
