import DocAudit.Proofs.Pattern.Ends

/-!
The words of a part: what stands between a place where it begins and a place where it ends. What
a part looks at without moving is left out here, so a word need not match wherever it stands; but
whatever matches is a word.
-/

namespace DocAudit.Pattern

/-! ## Moving over a word -/

/-- A cursor moves over a word to a later place. -/
structure Cursor.Passes (cursor : Cursor) (word : List Char) (later : Cursor) : Prop where
  before : later.before = word.reverse ++ cursor.before
  after : cursor.after = word ++ later.after
  index : later.index = cursor.index + word.length

namespace Cursor

theorem Passes.stay (cursor : Cursor) : cursor.Passes [] cursor where
  before := rfl
  after := rfl
  index := rfl

theorem Passes.trans {first second third : Cursor} {word behind : List Char}
    (passes : first.Passes word second) (further : second.Passes behind third) :
    first.Passes (word ++ behind) third where
  before := by
    rw [further.before, passes.before, List.reverse_append, List.append_assoc]
  after := by rw [passes.after, further.after, List.append_assoc]
  index := by rw [further.index, passes.index, List.length_append, Nat.add_assoc]

theorem passes_of_next? {cursor later : Cursor} {c : Char}
    (next : cursor.next? = some (c, later)) : cursor.Passes [c] later := by
  rw [next?] at next
  split at next
  · cases next
  · next c rest split =>
    cases next
    exact ⟨rfl, split, rfl⟩

theorem Passes.textTo {cursor later : Cursor} {word : List Char}
    (passes : cursor.Passes word later) : cursor.textTo later = word := by
  rw [Cursor.textTo, passes.index, Nat.add_sub_cancel_left, passes.after, List.take_left]

theorem Passes.length_after {cursor later : Cursor} {word : List Char}
    (passes : cursor.Passes word later) :
    cursor.after.length = word.length + later.after.length := by
  rw [passes.after, List.length_append]

end Cursor

/-! ## Words -/

/-- A word made of rounds, `count` of which came before. At least `least` of them are needed, and
beyond those there are at most `most`. -/
def Repeats (Word : List Char → Prop) (least : Nat) (most : Option Nat) (count : Nat)
    (word : List Char) : Prop :=
  ∃ pieces : List (List Char), word = pieces.flatten ∧ (∀ piece ∈ pieces, Word piece) ∧
    least - count ≤ pieces.length ∧ ∀ top ∈ most, pieces.length ≤ max least top - count

/-- What a part can match, wherever that stands. -/
def Part.Spells : Part → List Char → Prop
  | .empty, word => word = []
  | .one test, word => ∃ c, word = [c] ∧ test.accepts c = true
  | .anchor _, word => word = []
  | .group body, word => body.Spells word
  | .capture _ body, word => body.Spells word
  | .sequence first second, word =>
    ∃ front back, word = front ++ back ∧ first.Spells front ∧ second.Spells back
  | .choice first second, word => first.Spells word ∨ second.Spells word
  | .repeated _ least most body, word => Repeats body.Spells least most 0 word
  | .reference .., _ => True
  | .lookAhead .., word => word = []
  | .lookBehind .., word => word = []
  | .atomic body, word => body.Spells word
  | .conditional _ met unmet, word => met.Spells word ∨ unmet.Spells word

namespace Repeats

variable {Word : List Char → Prop} {least count : Nat} {most : Option Nat} {word : List Char}

theorem none (enough : least ≤ count) : Repeats Word least most count [] := by
  refine ⟨[], rfl, fun _ member => absurd member List.not_mem_nil, ?_, fun _ _ => Nat.zero_le _⟩
  rw [Nat.sub_eq_zero_of_le enough]
  exact Nat.zero_le _

theorem cons {piece : List Char} (first : Word piece) (room : ∀ top ∈ most, count < max least top)
    (rest : Repeats Word least most (count + 1) word) :
    Repeats Word least most count (piece ++ word) := by
  rcases rest with ⟨pieces, split, words, enough, bounded⟩
  refine ⟨piece :: pieces, ?_, ?_, ?_, ?_⟩
  · rw [split, List.flatten_cons]
  · exact List.forall_mem_cons.mpr ⟨first, words⟩
  · rw [List.length_cons]
    omega
  · intro top isTop
    have bound := bounded top isTop
    have here := room top isTop
    rw [List.length_cons]
    omega

theorem room_of_below (below : count < least) : ∀ top ∈ most, count < max least top :=
  fun top _ => Nat.lt_of_lt_of_le below (Nat.le_max_left least top)

theorem room_of_all (room : most.all (count < ·) = true) : ∀ top ∈ most, count < max least top := by
  intro top isTop
  rw [isTop, Option.all_some, decide_eq_true_eq] at room
  exact Nat.lt_of_lt_of_le room (Nat.le_max_right least top)

end Repeats

/-- Every end of a body lies behind a word. -/
def EndsSpell (body : Match → List Match) (Word : List Char → Prop) : Prop :=
  ∀ found, ∀ after ∈ body found, ∃ word, Word word ∧ found.cursor.Passes word after.cursor

theorem endsSpell_roundEnds {body : Match → List Match} {Word : List Char → Prop}
    (sound : EndsSpell body Word) (least : Nat) (most : Option Nat) (lazy : Bool)
    (bound count : Nat) (lastStart : Option Nat) :
    EndsSpell (roundEnds body least most lazy bound count lastStart)
      (Repeats Word least most count) := by
  intro found after member
  induction bound generalizing count lastStart found with
  | zero => cases member
  | succ bound induction =>
    have round {lastStart : Option Nat} (room : ∀ top ∈ most, count < max least top)
        (member : after ∈ (body found).flatMap
          (roundEnds body least most lazy bound (count + 1) lastStart)) :
        ∃ word, Repeats Word least most count word ∧ found.cursor.Passes word after.cursor := by
      rcases List.mem_flatMap.mp member with ⟨between, inBody, further⟩
      rcases sound found between inBody with ⟨piece, isWord, passes⟩
      rcases induction (count + 1) lastStart between further with ⟨word, repeats, passesRest⟩
      exact ⟨piece ++ word, .cons isWord room repeats, passes.trans passesRest⟩
    rw [roundEnds] at member
    by_cases below : count < least
    · rw [if_pos below] at member
      exact round (Repeats.room_of_below below) member
    · rw [if_neg below] at member
      have here (same : after = found) :
          ∃ word, Repeats Word least most count word ∧ found.cursor.Passes word after.cursor :=
        ⟨[], .none (Nat.le_of_not_lt below), same ▸ .stay after.cursor⟩
      have more (member : after ∈ if (most.all (count < ·) &&
            lastStart != some found.cursor.index) = true then
          (body found).flatMap
            (roundEnds body least most lazy bound (count + 1) (some found.cursor.index))
          else []) :
          ∃ word, Repeats Word least most count word ∧ found.cursor.Passes word after.cursor := by
        split at member
        · next going =>
          rw [Bool.and_eq_true] at going
          exact round (Repeats.room_of_all going.1) member
        · cases member
      cases lazy with
      | false =>
        rw [if_neg Bool.false_ne_true, List.mem_append, List.mem_singleton] at member
        exact member.elim more here
      | true =>
        rw [if_pos rfl, List.mem_cons] at member
        exact member.elim here more

theorem repeats_of_possessiveRounds {runner : Runner} {Word : List Char → Prop}
    (sound : ∀ found after, runner found some = some after →
      ∃ word, Word word ∧ found.cursor.Passes word after.cursor)
    {least : Nat} {most : Option Nat} {bound count : Nat} {found after : Match}
    (ended : possessiveRounds runner least most bound count found = some after) :
    ∃ word, Repeats Word least most count word ∧ found.cursor.Passes word after.cursor := by
  induction bound generalizing count found with
  | zero => cases ended
  | succ bound induction =>
    rw [possessiveRounds] at ended
    split at ended
    · next below =>
      rcases Option.bind_eq_some_iff.mp ended with ⟨between, first, further⟩
      rcases sound found between first with ⟨piece, isWord, passes⟩
      rcases induction further with ⟨word, repeats, passesRest⟩
      exact ⟨piece ++ word, .cons isWord (Repeats.room_of_below below) repeats,
        passes.trans passesRest⟩
    · next enough =>
      have stop : Repeats Word least most count [] := .none (Nat.le_of_not_lt enough)
      split at ended
      · next room =>
        have room : ∀ top ∈ most, count < max least top := Repeats.room_of_all room
        split at ended
        · cases ended
          exact ⟨[], stop, .stay after.cursor⟩
        · next between first =>
          rcases sound found between first with ⟨piece, isWord, passes⟩
          split at ended
          · cases ended
            have last : Repeats Word least most (count + 1) [] := .none (by omega)
            refine ⟨piece ++ [], .cons isWord room last, ?_⟩
            rw [List.append_nil]
            exact passes
          · rcases induction ended with ⟨word, repeats, passesRest⟩
            exact ⟨piece ++ word, .cons isWord room repeats, passes.trans passesRest⟩
      · cases ended
        exact ⟨[], stop, .stay after.cursor⟩

theorem passes_of_literalRun {mode : CaseMode} {text : List Char} {found after : Match}
    (ended : literalRun mode text found some = some after) :
    ∃ word, found.cursor.Passes word after.cursor := by
  induction text generalizing found with
  | nil =>
    cases ended
    exact ⟨[], .stay after.cursor⟩
  | cons c text induction =>
    rw [literalRun] at ended
    split at ended
    · cases ended
    · next other cursor next =>
      split at ended
      · rcases induction ended with ⟨word, passes⟩
        exact ⟨[other] ++ word, (Cursor.passes_of_next? next).trans passes⟩
      · cases ended

/-- Whatever a part matches is one of its words. -/
theorem Part.spells_of_mem_ends (part : Part) : EndsSpell part.ends part.Spells := by
  intro found after member
  induction part generalizing found after with
  | empty =>
    rw [List.mem_singleton.mp member]
    exact ⟨[], rfl, .stay found.cursor⟩
  | one test =>
    rw [ends] at member
    split at member
    · cases member
    · next c cursor next =>
      split at member
      · next accepted =>
        rw [List.mem_singleton.mp member]
        exact ⟨[c], ⟨c, rfl, accepted⟩, Cursor.passes_of_next? next⟩
      · cases member
  | anchor place =>
    rw [ends] at member
    split at member
    · rw [List.mem_singleton.mp member]
      exact ⟨[], rfl, .stay found.cursor⟩
    · cases member
  | group body induction => exact induction found after member
  | capture index body induction =>
    rcases List.mem_map.mp member with ⟨inner, inBody, rfl⟩
    exact induction found inner inBody
  | sequence first second inFirst inSecond =>
    rcases List.mem_flatMap.mp member with ⟨between, front, back⟩
    rcases inFirst found between front with ⟨word, spells, passes⟩
    rcases inSecond between after back with ⟨behind, spellsBehind, passesBehind⟩
    exact ⟨word ++ behind, ⟨word, behind, rfl, spells, spellsBehind⟩, passes.trans passesBehind⟩
  | choice first second inFirst inSecond =>
    rcases List.mem_append.mp member with left | right
    · rcases inFirst found after left with ⟨word, spells, passes⟩
      exact ⟨word, .inl spells, passes⟩
    · rcases inSecond found after right with ⟨word, spells, passes⟩
      exact ⟨word, .inr spells, passes⟩
  | repeated eagerness least most body induction =>
    cases eagerness with
    | greedy => exact endsSpell_roundEnds induction least most false _ 0 none found after member
    | lazy => exact endsSpell_roundEnds induction least most true _ 0 none found after member
    | possessive =>
      rw [ends, Option.mem_toList, run] at member
      rcases Option.bind_eq_some_iff.mp member with ⟨last, ended, same⟩
      cases same
      refine repeats_of_possessiveRounds (fun found after first => ?_) ended
      rw [run_some] at first
      exact induction found after (List.mem_of_head? first)
  | reference index width case =>
    rw [ends, Option.mem_toList, run] at member
    split at member
    · cases member
    · rcases passes_of_literalRun member with ⟨word, passes⟩
      exact ⟨word, trivial, passes⟩
  | lookAhead positive body =>
    rw [ends, Option.mem_toList] at member
    unfold run at member
    split at member <;> cases member <;> exact ⟨[], rfl, .stay _⟩
  | lookBehind positive body =>
    rw [ends, Option.mem_toList] at member
    unfold run at member
    simp only at member
    split at member <;> cases member <;> exact ⟨[], rfl, .stay _⟩
  | atomic body induction =>
    rw [ends, Option.mem_toList, run, Option.bind_fun_some, run_some] at member
    exact induction found after (List.mem_of_head? member)
  | conditional index met unmet inMet inUnmet =>
    rw [ends] at member
    split at member
    · rcases inMet found after member with ⟨word, spells, passes⟩
      exact ⟨word, .inl spells, passes⟩
    · rcases inUnmet found after member with ⟨word, spells, passes⟩
      exact ⟨word, .inr spells, passes⟩

end DocAudit.Pattern
