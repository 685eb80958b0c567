import DocAudit.Proofs.Pattern.Context

/-!
Matches side by side. Where single rounds of a repetition from related places end at related places,
so do all rounds together, for repetitions that take rounds back and for those that do not. A part
that asks for no capture matches the same whatever the numbers of its captures are and whatever other
captures have recorded before.
-/

namespace DocAudit.Pattern

variable {Related : Match → Match → Prop}

theorem optionRel_head? {left right : List Match} (related : List.Forall₂ Related left right) :
    Option.Rel Related left.head? right.head? := by
  cases related with
  | nil => exact .none
  | cons first rest => exact .some first

theorem forall₂_toList {left right : Option Match} (related : Option.Rel Related left right) :
    List.Forall₂ Related left.toList right.toList := by
  cases related with
  | none => exact .nil
  | some related => exact .cons related .nil

/-- Where ends stand side by side and are accepted alike, the first that is accepted stands beside
the first that is accepted on the other side. -/
theorem exists_of_findSome?_related {Answer Answer' : Type} {left right : List Match}
    {accept : Match → Option Answer} {accept' : Match → Option Answer'} {answer : Answer}
    (related : List.Forall₂ Related left right)
    (alike : ∀ first ∈ left, ∀ second, Related first second →
      (accept' second).isSome = (accept first).isSome)
    (found : left.findSome? accept = some answer) :
    ∃ first ∈ left, ∃ second, Related first second ∧ accept first = some answer ∧
      ∃ answer', accept' second = some answer' ∧ right.findSome? accept' = some answer' := by
  induction related with
  | nil => cases found
  | @cons first second left right isRelated others induction =>
    have same := alike first List.mem_cons_self second isRelated
    rw [List.findSome?_cons] at found
    cases accepted : accept first with
    | some value =>
      rw [accepted] at found same
      cases found
      obtain ⟨answer', accepted'⟩ := Option.isSome_iff_exists.mp same
      refine ⟨first, List.mem_cons_self, second, isRelated, accepted, answer', accepted', ?_⟩
      rw [List.findSome?_cons, accepted']
    | none =>
      rw [accepted, Option.isSome_none, Option.isSome_eq_false_iff,
        Option.isNone_iff_eq_none] at same
      rw [accepted] at found
      obtain ⟨later, member, other, further⟩ :=
        induction (fun first member => alike first (List.mem_cons_of_mem _ member)) found
      refine ⟨later, List.mem_cons_of_mem _ member, other, ?_⟩
      rw [List.findSome?_cons, same]
      exact further

theorem roundEnds_related {shift : Nat}
    (shifted : ∀ left right, Related left right → left.cursor.index = right.cursor.index + shift)
    {body body' : Match → List Match}
    (each : ∀ left right, Related left right → List.Forall₂ Related (body left) (body' right))
    (least : Nat) (most : Option Nat) (lazy : Bool) (bound count : Nat) (lastStart : Option Nat)
    {left right : Match} (related : Related left right) :
    List.Forall₂ Related
      (roundEnds body least most lazy bound count (lastStart.map (· + shift)) left)
      (roundEnds body' least most lazy bound count lastStart right) := by
  induction bound generalizing count lastStart left right with
  | zero => exact .nil
  | succ bound induction =>
    have round (lastStart : Option Nat) : List.Forall₂ Related
        ((body left).flatMap
          (roundEnds body least most lazy bound (count + 1) (lastStart.map (· + shift))))
        ((body' right).flatMap (roundEnds body' least most lazy bound (count + 1) lastStart)) :=
      List.rel_flatMap (each left right related) fun _ _ related =>
        induction (count + 1) lastStart related
    have sameTest : (lastStart.map (· + shift) != some left.cursor.index) =
        (lastStart != some right.cursor.index) := by
      cases lastStart with
      | none => rfl
      | some start => simp [bne, shifted left right related]
    rw [roundEnds, roundEnds]
    by_cases below : count < least
    · rw [if_pos below, if_pos below]
      exact round lastStart
    · rw [if_neg below, if_neg below]
      simp only [sameTest]
      have further : List.Forall₂ Related
          (if (most.all (count < ·) && lastStart != some right.cursor.index) = true then
            (body left).flatMap
              (roundEnds body least most lazy bound (count + 1) (some left.cursor.index))
          else [])
          (if (most.all (count < ·) && lastStart != some right.cursor.index) = true then
            (body' right).flatMap
              (roundEnds body' least most lazy bound (count + 1) (some right.cursor.index))
          else []) := by
        split
        · rw [shifted left right related]
          exact round (some right.cursor.index)
        · exact .nil
      cases lazy with
      | false => exact List.rel_append further (.cons related .nil)
      | true => exact .cons related further

theorem possessiveRounds_related {shift : Nat}
    (shifted : ∀ left right, Related left right → left.cursor.index = right.cursor.index + shift)
    {body body' : Runner}
    (each : ∀ left right, Related left right →
      Option.Rel Related (body left some) (body' right some))
    (least : Nat) (most : Option Nat) (bound count : Nat) {left right : Match}
    (related : Related left right) :
    Option.Rel Related (possessiveRounds body least most bound count left)
      (possessiveRounds body' least most bound count right) := by
  induction bound generalizing count left right with
  | zero => exact .none
  | succ bound induction =>
    have first := each left right related
    rw [possessiveRounds, possessiveRounds]
    generalize body left some = leftFirst at first ⊢
    generalize body' right some = rightFirst at first ⊢
    by_cases below : count < least
    · rw [if_pos below, if_pos below]
      cases first with
      | none => exact .none
      | some after => exact induction (count + 1) after
    · rw [if_neg below, if_neg below]
      split
      · cases first with
        | none => exact .some related
        | @some leftAfter rightAfter after =>
          have sameTest : leftAfter.cursor.index = left.cursor.index ↔
              rightAfter.cursor.index = right.cursor.index := by
            rw [shifted _ _ after, shifted left right related, Nat.add_right_cancel_iff]
          simp only [sameTest]
          split
          · exact .some after
          · exact induction (count + 1) after
      · exact .some related

/-! ## Looking around -/

/-- How matching goes on at a place from where something is or is not seen. -/
def lookedAround (positive : Bool) (found : Match) (seen : Option Match) : Option Match :=
  match seen, positive with
  | some after, true => some (after.moved found.cursor)
  | none, false => some found
  | _, _ => none

theorem Part.run_lookAhead (positive : Bool) (body : Part) (found : Match) :
    (Part.lookAhead positive body).run found some =
      lookedAround positive found (body.run found some) := by
  cases seen : body.run found some <;> cases positive <;> simp [run, lookedAround, seen]

theorem Part.run_lookBehind (positive : Bool) (body : Part) (found : Match) :
    (Part.lookBehind positive body).run found some =
      lookedAround positive found ((found.cursor.back? body.width.least).bind fun cursor =>
        body.run (found.moved cursor) some) := by
  cases seen : (found.cursor.back? body.width.least).bind fun cursor =>
    body.run (found.moved cursor) some <;> cases positive <;> simp [run, lookedAround, seen]

theorem lookedAround_related {left right : Match} (related : Related left right)
    (moved : ∀ after after', Related after after' →
      Related (after.moved left.cursor) (after'.moved right.cursor))
    {seen seen' : Option Match} (relatedSeen : Option.Rel Related seen seen') (positive : Bool) :
    Option.Rel Related (lookedAround positive left seen) (lookedAround positive right seen') := by
  cases relatedSeen with
  | none =>
    cases positive with
    | true => exact .none
    | false => exact .some related
  | some after =>
    cases positive with
    | true => exact .some (moved _ _ after)
    | false => exact .none

/-! ## Captures under other numbers -/

namespace Part

/-- A part whose captures are counted from a later number on. -/
def renumber (offset : Nat) : Part → Part
  | .empty => .empty
  | .one test => .one test
  | .anchor place => .anchor place
  | .group body => .group (body.renumber offset)
  | .capture index body => .capture (index + offset) (body.renumber offset)
  | .sequence first second => .sequence (first.renumber offset) (second.renumber offset)
  | .choice first second => .choice (first.renumber offset) (second.renumber offset)
  | .repeated eagerness least most body => .repeated eagerness least most (body.renumber offset)
  | .reference index width case => .reference (index + offset) width case
  | .lookAhead positive body => .lookAhead positive (body.renumber offset)
  | .lookBehind positive body => .lookBehind positive (body.renumber offset)
  | .atomic body => .atomic (body.renumber offset)
  | .conditional index met unmet =>
    .conditional (index + offset) (met.renumber offset) (unmet.renumber offset)

/-- Whether no part of a part asks what a capture holds. -/
def refersNowhere : Part → Bool
  | .empty | .one _ | .anchor _ => true
  | .group body | .capture _ body | .repeated _ _ _ body | .lookAhead _ body | .lookBehind _ body
  | .atomic body => body.refersNowhere
  | .sequence first second | .choice first second => first.refersNowhere && second.refersNowhere
  | .reference .. | .conditional .. => false

variable (offset : Nat)

@[simp] theorem width_renumber (part : Part) : (part.renumber offset).width = part.width := by
  induction part with
  | empty | one | anchor | reference | lookAhead | lookBehind => rfl
  | group body induction => exact induction
  | capture index body induction => exact induction
  | atomic body induction => exact induction
  | sequence first second inFirst inSecond => rw [renumber, width, inFirst, inSecond, width]
  | choice first second inFirst inSecond => rw [renumber, width, inFirst, inSecond, width]
  | repeated eagerness least most body induction => simp only [renumber, width, induction]
  | conditional index met unmet inMet inUnmet => rw [renumber, width, inMet, inUnmet, width]

@[simp] theorem unmatchable?_renumber (template : Bool) (part : Part) :
    unmatchable? template (part.renumber offset) = unmatchable? template part := by
  induction part with
  | empty | one | anchor | reference => rfl
  | group body induction => exact induction
  | capture index body induction => exact induction
  | lookAhead positive body induction => exact induction
  | atomic body induction => exact induction
  | sequence first second inFirst inSecond =>
    rw [renumber, unmatchable?, inFirst, inSecond, unmatchable?]
  | choice first second inFirst inSecond =>
    rw [renumber, unmatchable?, inFirst, inSecond, unmatchable?]
  | repeated eagerness least most body induction => simp only [renumber, unmatchable?, induction]
  | lookBehind positive body induction =>
    rw [renumber, unmatchable?, induction, width_renumber, unmatchable?]
  | conditional index met unmet inMet inUnmet =>
    rw [renumber, unmatchable?, inMet, inUnmet, unmatchable?]

theorem renumber_ofList (parts : List Part) :
    (ofList parts).renumber offset = ofList (parts.map (renumber offset)) := by
  induction parts with
  | nil => rfl
  | cons part rest induction =>
    cases rest with
    | nil => rfl
    | cons second rest => exact congrArg (sequence (part.renumber offset)) induction

theorem refersNowhere_ofList {parts : List Part} :
    (ofList parts).refersNowhere = true ↔ ∀ part ∈ parts, part.refersNowhere = true := by
  induction parts with
  | nil => exact iff_of_true rfl nofun
  | cons part rest induction =>
    cases rest with
    | nil =>
      rw [List.forall_mem_singleton]
      rfl
    | cons second rest =>
      rw [List.forall_mem_cons, ← induction]
      exact Bool.and_eq_true_iff

end Part

/-! ## Ends -/

/-- The same place, whatever has been recorded. -/
def AtOnePlace (left right : Match) : Prop :=
  left.cursor = right.cursor

theorem Part.ends_renumber {part : Part} (nowhere : part.refersNowhere = true) (offset : Nat)
    {left right : Match} (place : AtOnePlace left right) :
    List.Forall₂ AtOnePlace ((part.renumber offset).ends left) (part.ends right) := by
  have shifted (left right : Match) (place : AtOnePlace left right) :
      left.cursor.index = right.cursor.index + 0 := congrArg Cursor.index place
  induction part generalizing left right with
  | empty => exact .cons place .nil
  | one test =>
    rw [renumber, ends, ends, place]
    cases right.cursor.next? with
    | none => exact .nil
    | some next =>
      simp only
      split
      · exact .cons rfl .nil
      · exact .nil
  | anchor =>
    rw [renumber, ends, ends, place]
    split
    · exact .cons place .nil
    · exact .nil
  | group body induction => exact induction nowhere place
  | capture index body induction =>
    rw [renumber, ends, ends, List.forall₂_map_left_iff, List.forall₂_map_right_iff]
    exact induction nowhere place
  | sequence first second inFirst inSecond =>
    obtain ⟨first, second⟩ := Bool.and_eq_true_iff.mp nowhere
    exact List.rel_flatMap (inFirst first place) fun _ _ place => inSecond second place
  | choice first second inFirst inSecond =>
    obtain ⟨first, second⟩ := Bool.and_eq_true_iff.mp nowhere
    exact List.rel_append (inFirst first place) (inSecond second place)
  | repeated eagerness least most body induction =>
    have rounds (lazy : Bool) : List.Forall₂ AtOnePlace
        (roundEnds (body.renumber offset).ends least most lazy (roundBound least left) 0 none left)
        (roundEnds body.ends least most lazy (roundBound least right) 0 none right) := by
      rw [roundBound, place, ← roundBound]
      exact roundEnds_related shifted (fun _ _ place => induction nowhere place) least most lazy _
        0 none place
    cases eagerness with
    | greedy => exact rounds false
    | lazy => exact rounds true
    | possessive =>
      rw [renumber, ends, ends, run, run, Option.bind_fun_some, Option.bind_fun_some, place]
      refine forall₂_toList (possessiveRounds_related shifted ?_ least most _ 0 place)
      intro left right place
      rw [run_some, run_some]
      exact optionRel_head? (induction nowhere place)
  | reference | conditional => cases nowhere
  | lookAhead positive body induction =>
    rw [renumber, ends, ends, run_lookAhead, run_lookAhead, run_some, run_some]
    exact forall₂_toList (lookedAround_related place (fun _ _ _ => place)
      (optionRel_head? (induction nowhere place)) positive)
  | lookBehind positive body induction =>
    rw [renumber, ends, ends, run_lookBehind, run_lookBehind, width_renumber, place]
    refine forall₂_toList (lookedAround_related place (fun _ _ _ => place) ?_ positive)
    cases right.cursor.back? body.width.least with
    | none => exact .none
    | some earlier =>
      rw [Option.bind_some, Option.bind_some, run_some, run_some]
      exact optionRel_head? (induction nowhere rfl)
  | atomic body induction =>
    rw [renumber, ends, ends, run, run, Option.bind_fun_some, Option.bind_fun_some, run_some,
      run_some]
    exact forall₂_toList (optionRel_head? (induction nowhere place))

end DocAudit.Pattern
