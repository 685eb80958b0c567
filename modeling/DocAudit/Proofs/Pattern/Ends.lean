import DocAudit.Pattern.Matching
import Mathlib.Data.List.Basic

/-!
Where a part may end, as a list of all its ends with the best one first. Running a part tries
these ends in their order. As lists the ends of a part follow from those of its pieces, and they
say what running alone does not show: which ends there are beside the one that counts.
-/

namespace DocAudit.Pattern

/-- Where rounds of a repetition may end, from the ends of single rounds. -/
def roundEnds (body : Match → List Match) (least : Nat) (most : Option Nat) (lazy : Bool) :
    (bound count : Nat) → (lastStart : Option Nat) → Match → List Match
  | 0, _, _, _ => []
  | bound + 1, count, lastStart, found =>
    if count < least then
      (body found).flatMap (roundEnds body least most lazy bound (count + 1) lastStart)
    else
      let place := found.cursor.index
      let further :=
        if most.all (count < ·) && lastStart != some place then
          (body found).flatMap (roundEnds body least most lazy bound (count + 1) (some place))
        else []
      if lazy then found :: further else further ++ [found]

/-- More rounds than a repetition can have from a place. -/
def roundBound (least : Nat) (found : Match) : Nat :=
  least + found.cursor.after.length + 2

def Match.record (found : Match) (index : Nat) (after : Match) : Match :=
  { after with captures := (index, found.cursor.textTo after.cursor) :: after.captures }

/-- What is looked at around a place and never taken back has one end at most. -/
def Part.ends : Part → Match → List Match
  | .empty, found => [found]
  | .one test, found =>
    match found.cursor.next? with
    | none => []
    | some (c, cursor) => if test.accepts c then [found.moved cursor] else []
  | .anchor place, found => if place.holds found.cursor then [found] else []
  | .group body, found => body.ends found
  | .capture index body, found => (body.ends found).map (found.record index)
  | .sequence first second, found => (first.ends found).flatMap second.ends
  | .choice first second, found => first.ends found ++ second.ends found
  | .repeated eagerness least most body, found =>
    match eagerness with
    | .greedy => roundEnds body.ends least most false (roundBound least found) 0 none found
    | .lazy => roundEnds body.ends least most true (roundBound least found) 0 none found
    | .possessive =>
      ((Part.repeated .possessive least most body).run found some).toList
  | .reference index width case, found => ((Part.reference index width case).run found some).toList
  | .lookAhead positive body, found => ((Part.lookAhead positive body).run found some).toList
  | .lookBehind positive body, found => ((Part.lookBehind positive body).run found some).toList
  | .atomic body, found => ((Part.atomic body).run found some).toList
  | .conditional index met unmet, found =>
    if (found.capture? index).isSome then met.ends found else unmet.ends found

/-! ## Running a part -/

theorem findSome?_flatMap {α β γ : Type} (items : List α) (each : α → List β)
    (test : β → Option γ) :
    (items.flatMap each).findSome? test =
      items.findSome? fun item => (each item).findSome? test := by
  induction items with
  | nil => rfl
  | cons item rest induction =>
    rw [List.flatMap_cons, List.findSome?_append, induction, List.findSome?_cons]
    cases (each item).findSome? test <;> rfl

theorem findSome?_toList {α β : Type} (found : Option α) (test : α → Option β) :
    found.toList.findSome? test = found.bind test := by
  cases found with
  | none => rfl
  | some value => exact List.findSome?_singleton

theorem findSome?_some {α : Type} (items : List α) : items.findSome? some = items.head? := by
  cases items <;> rfl

theorem literalRun_eq_bind (mode : CaseMode) (text : List Char) (found : Match)
    (rest : Match → Option Match) :
    literalRun mode text found rest = (literalRun mode text found some).bind rest := by
  induction text generalizing found with
  | nil => rfl
  | cons c text induction =>
    rw [literalRun, literalRun]
    cases found.cursor.next? with
    | none => rfl
    | some next =>
      simp only
      split
      · exact induction (found.moved next.2)
      · rfl

theorem rounds_eq_findSome? {runner : Runner} {body : Match → List Match}
    (same : ∀ found rest, runner found rest = (body found).findSome? rest) (least : Nat)
    (most : Option Nat) (lazy : Bool) (bound count : Nat) (lastStart : Option Nat) (found : Match)
    (rest : Match → Option Match) :
    rounds runner least most lazy bound count lastStart found rest =
      (roundEnds body least most lazy bound count lastStart found).findSome? rest := by
  induction bound generalizing count lastStart found with
  | zero => rfl
  | succ bound induction =>
    rw [rounds, roundEnds]
    by_cases below : count < least
    · rw [if_pos below, if_pos below, same, findSome?_flatMap]
      simp only [induction]
    · rw [if_neg below, if_neg below]
      simp only [same, induction]
      cases lazy with
      | false =>
        rw [if_neg Bool.false_ne_true, if_neg Bool.false_ne_true, List.findSome?_append,
          List.findSome?_singleton]
        split
        · rw [findSome?_flatMap, Option.orElse_eq_or]
        · rfl
      | true =>
        rw [if_pos rfl, if_pos rfl, List.findSome?_cons]
        cases rest found with
        | some answer => rfl
        | none =>
          simp only [Option.orElse_none]
          split
          · rw [findSome?_flatMap]
          · rfl

/-- Running a part hands its ends on until one is accepted. -/
theorem Part.run_eq_findSome? (part : Part) (found : Match) (rest : Match → Option Match) :
    part.run found rest = (part.ends found).findSome? rest := by
  induction part generalizing found rest with
  | empty => exact List.findSome?_singleton.symm
  | one test =>
    rw [run, ends]
    cases found.cursor.next? with
    | none => rfl
    | some next =>
      simp only
      split
      · exact List.findSome?_singleton.symm
      · rfl
  | anchor place =>
    rw [run, ends]
    split
    · exact List.findSome?_singleton.symm
    · rfl
  | group body induction => exact induction found rest
  | capture index body induction =>
    rw [run, induction, ends, List.findSome?_map]
    rfl
  | sequence first second inFirst inSecond =>
    rw [run, inFirst, ends, findSome?_flatMap]
    simp only [inSecond]
  | choice first second inFirst inSecond =>
    rw [run, inFirst, inSecond, ends, List.findSome?_append]
    cases (first.ends found).findSome? rest <;> rfl
  | repeated eagerness least most body induction =>
    cases eagerness with
    | greedy => exact rounds_eq_findSome? induction least most false _ 0 none found rest
    | lazy => exact rounds_eq_findSome? induction least most true _ 0 none found rest
    | possessive =>
      rw [ends, findSome?_toList, run, run]
      simp only [Option.bind_fun_some]
  | reference index width case =>
    rw [ends, findSome?_toList, run, run]
    cases found.capture? index with
    | none => rfl
    | some content => exact literalRun_eq_bind case content found rest
  | lookAhead positive body =>
    rw [ends, findSome?_toList]
    cases seen : body.run found some <;> cases positive <;> simp [run, seen]
  | lookBehind positive body =>
    rw [ends, findSome?_toList]
    cases seen : (found.cursor.back? body.width.least).bind fun cursor =>
      body.run (found.moved cursor) some <;> cases positive <;> simp [run, seen]
  | atomic body =>
    rw [ends, findSome?_toList, run, run, Option.bind_fun_some]
  | conditional index met unmet inMet inUnmet =>
    rw [run, ends]
    split
    · exact inMet found rest
    · exact inUnmet found rest

theorem Part.run_some (part : Part) (found : Match) :
    part.run found some = (part.ends found).head? := by
  rw [run_eq_findSome?, findSome?_some]

end DocAudit.Pattern
