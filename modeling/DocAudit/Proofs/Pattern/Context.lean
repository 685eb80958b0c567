import DocAudit.Proofs.Pattern.Language
import Mathlib.Data.List.Forall2

/-!
What a part sees of a text. A part that looks at nothing but the characters it moves over ends at
the same places wherever its text stands in a longer one, apart from the ends that the longer text
adds behind it. How many rounds a repetition is given makes no difference as long as they are
enough.
-/

namespace DocAudit.Pattern

/-! ## Enough rounds -/

/-- At least as many as the rounds that are still to come. -/
def roundsLeft (least count : Nat) (lastStart : Option Nat) (found : Match) : Nat :=
  least - count + found.cursor.after.length +
    if lastStart = some found.cursor.index then 0 else 1

theorem roundsLeft_lt_of_below {least count : Nat} (below : count < least)
    (lastStart : Option Nat) {found after : Match} {word : List Char}
    (passes : found.cursor.Passes word after.cursor) :
    roundsLeft least (count + 1) lastStart after < roundsLeft least count lastStart found := by
  have index := passes.index
  have length := passes.length_after
  rw [roundsLeft, roundsLeft]
  cases word with
  | nil =>
    have sameIndex : after.cursor.index = found.cursor.index := index
    have sameLength : found.cursor.after.length = after.cursor.after.length := by
      rw [length, List.length_nil, Nat.zero_add]
    rw [sameIndex, sameLength]
    omega
  | cons c word =>
    rw [List.length_cons] at length
    split <;> split <;> omega

theorem roundsLeft_lt_of_moved {least count : Nat} (enough : ¬count < least)
    {lastStart : Option Nat} {found after : Match} {word : List Char}
    (moved : lastStart ≠ some found.cursor.index)
    (passes : found.cursor.Passes word after.cursor) :
    roundsLeft least (count + 1) (some found.cursor.index) after <
      roundsLeft least count lastStart found := by
  have index := passes.index
  have length := passes.length_after
  rw [roundsLeft, roundsLeft, if_neg moved]
  cases word with
  | nil =>
    have sameIndex : after.cursor.index = found.cursor.index := index
    rw [sameIndex, if_pos rfl, length, List.length_nil]
    omega
  | cons c word =>
    rw [List.length_cons] at length
    split <;> omega

theorem roundEnds_eq_of_enough {body : Match → List Match} {Word : List Char → Prop}
    (sound : EndsSpell body Word) {least : Nat} {most : Option Nat} {lazy : Bool}
    {bound other count : Nat} {lastStart : Option Nat} {found : Match}
    (enough : roundsLeft least count lastStart found < bound)
    (otherEnough : roundsLeft least count lastStart found < other) :
    roundEnds body least most lazy bound count lastStart found =
      roundEnds body least most lazy other count lastStart found := by
  induction bound generalizing other count lastStart found with
  | zero => cases enough
  | succ bound induction =>
    cases other with
    | zero => cases otherEnough
    | succ other =>
      rw [roundEnds, roundEnds]
      by_cases below : count < least
      · rw [if_pos below, if_pos below]
        apply List.flatMap_congr
        intro after member
        rcases sound found after member with ⟨word, -, passes⟩
        have fewer := roundsLeft_lt_of_below below lastStart passes
        exact induction (by omega) (by omega)
      · rw [if_neg below, if_neg below]
        by_cases going : (most.all (count < ·) && lastStart != some found.cursor.index) = true
        · have moved : lastStart ≠ some found.cursor.index :=
            bne_iff_ne.mp (Bool.and_eq_true_iff.mp going).2
          have same : (body found).flatMap
                (roundEnds body least most lazy bound (count + 1) (some found.cursor.index)) =
              (body found).flatMap
                (roundEnds body least most lazy other (count + 1) (some found.cursor.index)) := by
            apply List.flatMap_congr
            intro after member
            rcases sound found after member with ⟨word, -, passes⟩
            have fewer := roundsLeft_lt_of_moved below moved passes
            exact induction (by omega) (by omega)
          simp only [going, if_true, same]
        · simp only [Bool.not_eq_true] at going
          simp only [going, Bool.false_eq_true, if_false]

theorem roundsLeft_lt_roundBound (least : Nat) (found : Match) :
    roundsLeft least 0 none found < roundBound least found := by
  rw [roundsLeft, roundBound, if_neg (Option.some_ne_none _).symm]
  omega

theorem possessiveRounds_eq_of_enough {runner : Runner}
    (sound : ∀ found after, runner found some = some after →
      ∃ word, found.cursor.Passes word after.cursor)
    {least : Nat} {most : Option Nat} {bound other count : Nat} {found : Match}
    (enough : least - count + found.cursor.after.length < bound)
    (otherEnough : least - count + found.cursor.after.length < other) :
    possessiveRounds runner least most bound count found =
      possessiveRounds runner least most other count found := by
  induction bound generalizing other count found with
  | zero => cases enough
  | succ bound induction =>
    cases other with
    | zero => cases otherEnough
    | succ other =>
      rw [possessiveRounds, possessiveRounds]
      cases first : runner found some with
      | none => rfl
      | some after =>
        obtain ⟨word, passes⟩ := sound found after first
        have index := passes.index
        have length := passes.length_after
        split
        · exact induction (by omega) (by omega)
        · split
          · dsimp only
            split
            · rfl
            · exact induction (by omega) (by omega)
          · rfl

/-! ## One text in another -/

/-- The same place in two texts. The wide one goes on with `tail` where the narrow one ends, and
its places are counted from `shift` on. -/
structure SeesAlike (tail : List Char) (shift : Nat) (wide narrow : Match) : Prop where
  after : wide.cursor.after = narrow.cursor.after ++ tail
  index : wide.cursor.index = narrow.cursor.index + shift
  captures : wide.captures = narrow.captures

/-- Whether a match has nothing of the tail behind it. -/
def isBefore (tail : List Char) (found : Match) : Bool :=
  tail.length ≤ found.cursor.after.length

/-- Two ways to go on from a place that have the same ends, those inside the tail left out. -/
def EndsAlike (tail : List Char) (shift : Nat) (wide narrow : List Match) : Prop :=
  List.Forall₂ (SeesAlike tail shift) (wide.filter (isBefore tail)) narrow

/-- A part that looks at nothing but the characters that it moves over, and takes back none of its
rounds. -/
def Part.isPlain : Part → Bool
  | .empty | .one _ => true
  | .group body | .capture _ body => body.isPlain
  | .sequence first second | .choice first second => first.isPlain && second.isPlain
  | .repeated .possessive .. => false
  | .repeated _ _ _ body => body.isPlain
  | _ => false

variable {tail : List Char} {shift : Nat}

theorem SeesAlike.isBefore {wide narrow : Match} (alike : SeesAlike tail shift wide narrow) :
    isBefore tail wide = true := by
  rw [Pattern.isBefore, decide_eq_true_eq, alike.after, List.length_append]
  exact Nat.le_add_left _ _

theorem EndsAlike.here {wide narrow : Match} (alike : SeesAlike tail shift wide narrow) :
    EndsAlike tail shift [wide] [narrow] := by
  rw [EndsAlike, List.filter_cons_of_pos alike.isBefore, List.filter_nil]
  exact .cons alike .nil

theorem EndsAlike.append {wide narrow wideMore narrowMore : List Match}
    (alike : EndsAlike tail shift wide narrow) (more : EndsAlike tail shift wideMore narrowMore) :
    EndsAlike tail shift (wide ++ wideMore) (narrow ++ narrowMore) := by
  rw [EndsAlike, List.filter_append]
  exact List.rel_append alike more

/-- What begins inside the tail stays there. -/
theorem filter_eq_nil_of_inside {body : Match → List Match} {Word : List Char → Prop}
    (sound : EndsSpell body Word) {found : Match} (inside : isBefore tail found ≠ true) :
    (body found).filter (isBefore tail) = [] := by
  rw [List.filter_eq_nil_iff]
  intro after member before
  rcases sound found after member with ⟨word, -, passes⟩
  have length := passes.length_after
  simp only [isBefore, ne_eq, decide_eq_true_eq] at inside before
  omega

theorem EndsAlike.flatMap {wide narrow : List Match} (alike : EndsAlike tail shift wide narrow)
    {body bodyNarrow : Match → List Match}
    (inside : ∀ found, isBefore tail found ≠ true → (body found).filter (isBefore tail) = [])
    (same : ∀ wide narrow, SeesAlike tail shift wide narrow →
      EndsAlike tail shift (body wide) (bodyNarrow narrow)) :
    EndsAlike tail shift (wide.flatMap body) (narrow.flatMap bodyNarrow) := by
  induction wide generalizing narrow with
  | nil =>
    cases alike
    exact .nil
  | cons found rest induction =>
    rw [List.flatMap_cons]
    by_cases before : isBefore tail found = true
    · rw [EndsAlike, List.filter_cons_of_pos before] at alike
      cases alike with
      | cons first others =>
        rw [List.flatMap_cons]
        exact (same _ _ first).append (induction others)
    · rw [EndsAlike, List.filter_cons_of_neg before] at alike
      rw [EndsAlike, List.filter_append, inside found before, List.nil_append]
      exact induction alike

theorem roundEnds_alike {body : Match → List Match} {Word : List Char → Prop}
    (sound : EndsSpell body Word)
    (same : ∀ wide narrow, SeesAlike tail shift wide narrow →
      EndsAlike tail shift (body wide) (body narrow))
    (least : Nat) (most : Option Nat) (lazy : Bool) (bound count : Nat) (lastStart : Option Nat)
    {wide narrow : Match} (alike : SeesAlike tail shift wide narrow) :
    EndsAlike tail shift
      (roundEnds body least most lazy bound count (lastStart.map (· + shift)) wide)
      (roundEnds body least most lazy bound count lastStart narrow) := by
  induction bound generalizing count lastStart wide narrow with
  | zero => exact .nil
  | succ bound induction =>
    have round (lastStart : Option Nat) : EndsAlike tail shift
        ((body wide).flatMap
          (roundEnds body least most lazy bound (count + 1) (lastStart.map (· + shift))))
        ((body narrow).flatMap
          (roundEnds body least most lazy bound (count + 1) lastStart)) := by
      apply (same wide narrow alike).flatMap
      · intro found inside
        exact filter_eq_nil_of_inside (endsSpell_roundEnds sound _ _ _ _ _ _) inside
      · intro wide narrow alike
        exact induction (count + 1) lastStart alike
    have sameTest : (lastStart.map (· + shift) != some wide.cursor.index) =
        (lastStart != some narrow.cursor.index) := by
      cases lastStart with
      | none => rfl
      | some start => simp [bne, alike.index]
    rw [roundEnds, roundEnds]
    by_cases below : count < least
    · rw [if_pos below, if_pos below]
      exact round lastStart
    · rw [if_neg below, if_neg below]
      simp only [sameTest]
      have further : EndsAlike tail shift
          (if (most.all (count < ·) && lastStart != some narrow.cursor.index) = true then
            (body wide).flatMap
              (roundEnds body least most lazy bound (count + 1) (some wide.cursor.index))
          else [])
          (if (most.all (count < ·) && lastStart != some narrow.cursor.index) = true then
            (body narrow).flatMap
              (roundEnds body least most lazy bound (count + 1) (some narrow.cursor.index))
          else []) := by
        split
        · rw [alike.index]
          exact round (some narrow.cursor.index)
        · exact .nil
      cases lazy with
      | false => exact further.append (.here alike)
      | true => exact (EndsAlike.here alike).append further

/-- A capture holds the same text on either side, since it ends before the tail. -/
theorem record_alike {wide narrow wideAfter narrowAfter : Match} {word : List Char}
    (alike : SeesAlike tail shift wide narrow)
    (alikeAfter : SeesAlike tail shift wideAfter narrowAfter)
    (passes : wide.cursor.Passes word wideAfter.cursor) (index : Nat) :
    SeesAlike tail shift (wide.record index wideAfter) (narrow.record index narrowAfter) where
  after := alikeAfter.after
  index := alikeAfter.index
  captures := by
    have narrowAfterWord : narrow.cursor.after = word ++ narrowAfter.cursor.after := by
      have whole := passes.after
      rw [alike.after, alikeAfter.after, ← List.append_assoc] at whole
      exact List.append_cancel_right whole
    have length : narrowAfter.cursor.index - narrow.cursor.index = word.length := by
      have indices := passes.index
      rw [alike.index, alikeAfter.index] at indices
      omega
    have sameText : narrow.cursor.textTo narrowAfter.cursor = word := by
      rw [Cursor.textTo, length, narrowAfterWord, List.take_left]
    rw [Match.record, Match.record, passes.textTo, sameText, alikeAfter.captures]

theorem one_alike (test : Single) {wide narrow : Match}
    (alike : SeesAlike tail shift wide narrow) :
    EndsAlike tail shift ((Part.one test).ends wide) ((Part.one test).ends narrow) := by
  rw [Part.ends, Part.ends, Cursor.next?, Cursor.next?, alike.after]
  cases narrow.cursor.after with
  | nil =>
    cases tail with
    | nil => exact .nil
    | cons c rest =>
      simp only [List.nil_append]
      split
      · have inside : ¬isBefore (c :: rest) (wide.moved ⟨c :: wide.cursor.before, rest,
            wide.cursor.index + 1⟩) = true := by
          rw [isBefore, decide_eq_true_eq]
          exact Nat.not_succ_le_self rest.length
        rw [EndsAlike, List.filter_cons_of_neg inside]
        exact .nil
      · exact .nil
  | cons c rest =>
    simp only [List.cons_append]
    split
    · apply EndsAlike.here
      refine ⟨rfl, ?_, alike.captures⟩
      have index := alike.index
      simp only [Match.moved]
      omega
    · exact .nil

theorem Part.ends_alike {part : Part} (plain : part.isPlain = true) {wide narrow : Match}
    (alike : SeesAlike tail shift wide narrow) :
    EndsAlike tail shift (part.ends wide) (part.ends narrow) := by
  induction part generalizing wide narrow with
  | empty => exact .here alike
  | one test => exact one_alike test alike
  | group body induction => exact induction plain alike
  | capture index body induction =>
    rw [ends, ends, EndsAlike, List.filter_map, List.forall₂_map_left_iff,
      List.forall₂_map_right_iff]
    have behind : ∀ after ∈ (body.ends wide).filter (isBefore tail),
        ∃ word, wide.cursor.Passes word after.cursor := by
      intro after member
      rcases body.spells_of_mem_ends wide after (List.mem_filter.mp member).1 with ⟨word, -, passes⟩
      exact ⟨word, passes⟩
    refine ((List.forall₂_and_left _ _).mpr ⟨behind, induction plain alike⟩).imp ?_
    rintro wideAfter narrowAfter ⟨⟨word, passes⟩, alikeAfter⟩
    exact record_alike alike alikeAfter passes index
  | sequence first second inFirst inSecond =>
    rcases Bool.and_eq_true_iff.mp plain with ⟨plainFirst, plainSecond⟩
    apply (inFirst plainFirst alike).flatMap
    · exact fun found inside => filter_eq_nil_of_inside second.spells_of_mem_ends inside
    · exact fun wide narrow alike => inSecond plainSecond alike
  | choice first second inFirst inSecond =>
    rcases Bool.and_eq_true_iff.mp plain with ⟨plainFirst, plainSecond⟩
    exact (inFirst plainFirst alike).append (inSecond plainSecond alike)
  | repeated eagerness least most body induction =>
    have rounds (plainBody : body.isPlain = true) (lazy : Bool) : EndsAlike tail shift
        (roundEnds body.ends least most lazy (roundBound least wide) 0 none wide)
        (roundEnds body.ends least most lazy (roundBound least narrow) 0 none narrow) := by
      -- The wide text gives more rounds, which the narrow one has no use for.
      have more : roundsLeft least 0 none narrow < roundBound least wide := by
        have own := roundsLeft_lt_roundBound least narrow
        rw [roundBound] at own ⊢
        rw [alike.after, List.length_append]
        omega
      rw [roundEnds_eq_of_enough body.spells_of_mem_ends (roundsLeft_lt_roundBound least narrow)
        more]
      exact roundEnds_alike body.spells_of_mem_ends (fun _ _ alike => induction plainBody alike)
        least most lazy _ 0 none alike
    cases eagerness with
    | greedy => exact rounds plain false
    | lazy => exact rounds plain true
    | possessive => cases plain
  | anchor | reference | lookAhead | lookBehind | atomic | conditional => cases plain

end DocAudit.Pattern
