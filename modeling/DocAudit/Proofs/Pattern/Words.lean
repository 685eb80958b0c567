import DocAudit.Proofs.Pattern.Language

/-!
What can be told of all words of a part from the part alone: whether one of them is empty, which
characters they begin and end with, and which they hold.
-/

namespace DocAudit.Pattern

namespace Part

/-- Whether a part may match without moving. -/
def canBeEmpty : Part → Bool
  | .one _ => false
  | .group body | .capture _ body | .atomic body => body.canBeEmpty
  | .sequence first second => first.canBeEmpty && second.canBeEmpty
  | .choice first second | .conditional _ first second => first.canBeEmpty || second.canBeEmpty
  | .repeated _ least _ body => least == 0 || body.canBeEmpty
  | _ => true

/-- All words of a part that are not empty begin with a character of a kind. -/
def BeginsIn (kind : Char → Prop) : Part → Prop
  | .one test => ∀ c, test.accepts c = true → kind c
  | .group body | .capture _ body | .atomic body | .repeated _ _ _ body => body.BeginsIn kind
  | .sequence first second =>
    first.BeginsIn kind ∧ (first.canBeEmpty = true → second.BeginsIn kind)
  | .choice first second | .conditional _ first second =>
    first.BeginsIn kind ∧ second.BeginsIn kind
  | .reference .. => False
  | _ => True

/-- All words of a part that are not empty end with a character of a kind. -/
def FinishesIn (kind : Char → Prop) : Part → Prop
  | .one test => ∀ c, test.accepts c = true → kind c
  | .group body | .capture _ body | .atomic body | .repeated _ _ _ body => body.FinishesIn kind
  | .sequence first second =>
    second.FinishesIn kind ∧ (second.canBeEmpty = true → first.FinishesIn kind)
  | .choice first second | .conditional _ first second =>
    first.FinishesIn kind ∧ second.FinishesIn kind
  | .reference .. => False
  | _ => True

/-- All words of a part are made of characters of a kind. -/
def MadeOf (kind : Char → Prop) : Part → Prop
  | .one test => ∀ c, test.accepts c = true → kind c
  | .group body | .capture _ body | .atomic body | .repeated _ _ _ body => body.MadeOf kind
  | .sequence first second | .choice first second | .conditional _ first second =>
    first.MadeOf kind ∧ second.MadeOf kind
  | .reference .. => False
  | _ => True

end Part

theorem mem_head?_flatten {pieces : List (List Char)} {c : Char}
    (first : c ∈ pieces.flatten.head?) : ∃ piece ∈ pieces, c ∈ piece.head? := by
  induction pieces with
  | nil => cases first
  | cons piece rest induction =>
    rw [List.flatten_cons, List.head?_append] at first
    cases head : piece.head? with
    | none =>
      rw [head, Option.none_or] at first
      rcases induction first with ⟨other, member, begins⟩
      exact ⟨other, List.mem_cons_of_mem piece member, begins⟩
    | some other =>
      rw [head, Option.some_or] at first
      exact ⟨piece, List.mem_cons_self, head.trans first⟩

theorem mem_getLast?_flatten {pieces : List (List Char)} {c : Char}
    (last : c ∈ pieces.flatten.getLast?) : ∃ piece ∈ pieces, c ∈ piece.getLast? := by
  induction pieces with
  | nil => cases last
  | cons piece rest induction =>
    rw [List.flatten_cons, List.getLast?_append] at last
    cases final : rest.flatten.getLast? with
    | none =>
      rw [final, Option.none_or] at last
      exact ⟨piece, List.mem_cons_self, last⟩
    | some other =>
      rw [final, Option.some_or] at last
      rcases induction (final.trans last) with ⟨other, member, ends⟩
      exact ⟨other, List.mem_cons_of_mem piece member, ends⟩

namespace Part

theorem ne_nil_of_spells {part : Part} (solid : part.canBeEmpty = false) {word : List Char}
    (spells : part.Spells word) : word ≠ [] := by
  induction part generalizing word with
  | one test =>
    rcases spells with ⟨c, rfl, -⟩
    exact List.cons_ne_nil c []
  | group body induction => exact induction solid spells
  | capture index body induction => exact induction solid spells
  | atomic body induction => exact induction solid spells
  | sequence first second inFirst inSecond =>
    rcases spells with ⟨front, back, rfl, spellsFront, spellsBack⟩
    rcases Bool.and_eq_false_iff.mp solid with solidFirst | solidSecond
    · exact List.append_ne_nil_of_left_ne_nil (inFirst solidFirst spellsFront) back
    · exact List.append_ne_nil_of_right_ne_nil front (inSecond solidSecond spellsBack)
  | choice first second inFirst inSecond =>
    rcases Bool.or_eq_false_iff.mp solid with ⟨solidFirst, solidSecond⟩
    exact spells.elim (inFirst solidFirst) (inSecond solidSecond)
  | conditional index met unmet inMet inUnmet =>
    rcases Bool.or_eq_false_iff.mp solid with ⟨solidMet, solidUnmet⟩
    exact spells.elim (inMet solidMet) (inUnmet solidUnmet)
  | repeated eagerness least most body induction =>
    rcases Bool.or_eq_false_iff.mp solid with ⟨needed, solidBody⟩
    rcases spells with ⟨pieces, rfl, words, enough, -⟩
    cases pieces with
    | nil =>
      have none : least = 0 := Nat.le_zero.mp enough
      rw [none] at needed
      cases needed
    | cons piece rest =>
      rw [List.flatten_cons]
      exact List.append_ne_nil_of_left_ne_nil
        (induction solidBody (words piece List.mem_cons_self)) rest.flatten
  | empty | anchor | reference | lookAhead | lookBehind => cases solid

variable {kind : Char → Prop}

theorem BeginsIn.head {part : Part} (begins : part.BeginsIn kind) {word : List Char}
    (spells : part.Spells word) {c : Char} (first : c ∈ word.head?) : kind c := by
  induction part generalizing word with
  | one test =>
    rcases spells with ⟨other, rfl, accepted⟩
    cases first
    exact begins c accepted
  | group body induction => exact induction begins spells first
  | capture index body induction => exact induction begins spells first
  | atomic body induction => exact induction begins spells first
  | sequence front back inFront inBack =>
    rcases spells with ⟨front, back, rfl, spellsFront, spellsBack⟩
    rw [List.head?_append] at first
    cases head : front.head? with
    | none =>
      rw [head, Option.none_or] at first
      apply inBack (begins.2 ?_) spellsBack first
      rw [← Bool.not_eq_false]
      intro solid
      exact ne_nil_of_spells solid spellsFront (List.head?_eq_none_iff.mp head)
    | some other =>
      rw [head, Option.some_or] at first
      exact inFront begins.1 spellsFront (head.trans first)
  | choice left right inLeft inRight =>
    exact spells.elim (fun left => inLeft begins.1 left first)
      fun right => inRight begins.2 right first
  | conditional index met unmet inMet inUnmet =>
    exact spells.elim (fun met => inMet begins.1 met first)
      fun unmet => inUnmet begins.2 unmet first
  | repeated eagerness least most body induction =>
    rcases spells with ⟨pieces, rfl, words, -⟩
    rcases mem_head?_flatten first with ⟨piece, member, first⟩
    exact induction begins (words piece member) first
  | reference => exact begins.elim
  | empty | anchor | lookAhead | lookBehind =>
    rw [show word = [] from spells] at first
    cases first

theorem canBeEmpty_ofList_of_drop {count : Nat} {items : List Part}
    (solid : (ofList (items.drop count)).canBeEmpty = false) :
    (ofList items).canBeEmpty = false := by
  induction count generalizing items with
  | zero => exact solid
  | succ count induction =>
    cases items with
    | nil => cases solid
    | cons part rest =>
      have solidRest := induction solid
      cases rest with
      | nil => cases solidRest
      | cons next rest => exact Bool.and_eq_false_imp.mpr fun _ => solidRest

/-- Where the last parts of a list cannot all be empty, the parts before them end no word. -/
theorem FinishesIn.ofList_of_drop (count : Nat) {items : List Part}
    (solid : (ofList (items.drop count)).canBeEmpty = false)
    (finishes : (ofList (items.drop count)).FinishesIn kind) :
    (ofList items).FinishesIn kind := by
  induction count generalizing items with
  | zero => exact finishes
  | succ count induction =>
    cases items with
    | nil => cases solid
    | cons part rest =>
      rw [List.drop_succ_cons] at solid finishes
      have solidRest : (ofList rest).canBeEmpty = false := canBeEmpty_ofList_of_drop solid
      cases rest with
      | nil => cases solidRest
      | cons next rest =>
        refine ⟨induction solid finishes, fun empty => ?_⟩
        rw [solidRest] at empty
        cases empty

theorem FinishesIn.getLast {part : Part} (finishes : part.FinishesIn kind) {word : List Char}
    (spells : part.Spells word) {c : Char} (last : c ∈ word.getLast?) : kind c := by
  induction part generalizing word with
  | one test =>
    rcases spells with ⟨other, rfl, accepted⟩
    cases last
    exact finishes _ accepted
  | group body induction => exact induction finishes spells last
  | capture index body induction => exact induction finishes spells last
  | atomic body induction => exact induction finishes spells last
  | sequence front back inFront inBack =>
    rcases spells with ⟨front, back, rfl, spellsFront, spellsBack⟩
    rw [List.getLast?_append] at last
    cases final : back.getLast? with
    | none =>
      rw [final, Option.none_or] at last
      apply inFront (finishes.2 ?_) spellsFront last
      rw [← Bool.not_eq_false]
      intro solid
      exact ne_nil_of_spells solid spellsBack (List.getLast?_eq_none_iff.mp final)
    | some other =>
      rw [final, Option.some_or] at last
      exact inBack finishes.1 spellsBack (final.trans last)
  | choice left right inLeft inRight =>
    exact spells.elim (fun left => inLeft finishes.1 left last)
      fun right => inRight finishes.2 right last
  | conditional index met unmet inMet inUnmet =>
    exact spells.elim (fun met => inMet finishes.1 met last)
      fun unmet => inUnmet finishes.2 unmet last
  | repeated eagerness least most body induction =>
    rcases spells with ⟨pieces, rfl, words, -⟩
    rcases mem_getLast?_flatten last with ⟨piece, member, last⟩
    exact induction finishes (words piece member) last
  | reference => exact finishes.elim
  | empty | anchor | lookAhead | lookBehind =>
    rw [show word = [] from spells] at last
    cases last

theorem MadeOf.mem {part : Part} (madeOf : part.MadeOf kind) {word : List Char}
    (spells : part.Spells word) {c : Char} (member : c ∈ word) : kind c := by
  induction part generalizing word with
  | one test =>
    rcases spells with ⟨other, rfl, accepted⟩
    rw [List.mem_singleton.mp member]
    exact madeOf other accepted
  | group body induction => exact induction madeOf spells member
  | capture index body induction => exact induction madeOf spells member
  | atomic body induction => exact induction madeOf spells member
  | sequence front back inFront inBack =>
    rcases spells with ⟨front, back, rfl, spellsFront, spellsBack⟩
    exact (List.mem_append.mp member).elim (inFront madeOf.1 spellsFront)
      (inBack madeOf.2 spellsBack)
  | choice left right inLeft inRight =>
    exact spells.elim (fun left => inLeft madeOf.1 left member)
      fun right => inRight madeOf.2 right member
  | conditional index met unmet inMet inUnmet =>
    exact spells.elim (fun met => inMet madeOf.1 met member)
      fun unmet => inUnmet madeOf.2 unmet member
  | repeated eagerness least most body induction =>
    rcases spells with ⟨pieces, rfl, words, -⟩
    rcases List.mem_flatten.mp member with ⟨piece, inPieces, inPiece⟩
    exact induction madeOf (words piece inPieces) inPiece
  | reference => exact madeOf.elim
  | empty | anchor | lookAhead | lookBehind =>
    rw [show word = [] from spells] at member
    cases member

theorem length_flatten_ge {pieces : List (List Char)} {least : Nat}
    (each : ∀ piece ∈ pieces, least ≤ piece.length) :
    least * pieces.length ≤ pieces.flatten.length := by
  induction pieces with
  | nil => exact Nat.le_refl 0
  | cons piece rest induction =>
    obtain ⟨first, others⟩ := List.forall_mem_cons.mp each
    rw [List.flatten_cons, List.length_append, List.length_cons, Nat.mul_succ, Nat.add_comm]
    exact Nat.add_le_add first (induction others)

/-- No word is shorter than the least width. -/
theorem MadeOf.least_le_length {part : Part} (madeOf : part.MadeOf kind) {word : List Char}
    (spells : part.Spells word) : part.width.least ≤ word.length := by
  induction part generalizing word with
  | one test =>
    rcases spells with ⟨c, rfl, -⟩
    exact Nat.le_refl 1
  | group body induction => exact induction madeOf spells
  | capture index body induction => exact induction madeOf spells
  | atomic body induction => exact induction madeOf spells
  | sequence front back inFront inBack =>
    rcases spells with ⟨front, back, rfl, spellsFront, spellsBack⟩
    rw [List.length_append]
    exact Nat.le_trans (Nat.min_le_left _ _)
      (Nat.add_le_add (inFront madeOf.1 spellsFront) (inBack madeOf.2 spellsBack))
  | choice left right inLeft inRight =>
    exact spells.elim (fun left => Nat.le_trans (Nat.min_le_left _ _) (inLeft madeOf.1 left))
      fun right => Nat.le_trans (Nat.min_le_right _ _) (inRight madeOf.2 right)
  | conditional index met unmet inMet inUnmet =>
    exact spells.elim (fun met => Nat.le_trans (Nat.min_le_left _ _) (inMet madeOf.1 met))
      fun unmet => Nat.le_trans (Nat.min_le_right _ _) (inUnmet madeOf.2 unmet)
  | repeated eagerness least most body induction =>
    rcases spells with ⟨pieces, rfl, words, enough, -⟩
    have long := length_flatten_ge fun piece member => induction madeOf (words piece member)
    exact Nat.le_trans (Nat.min_le_left _ _) (Nat.le_trans (Nat.mul_le_mul_left _ enough) long)
  | reference => exact madeOf.elim
  | empty | anchor | lookAhead | lookBehind => exact Nat.zero_le _

end Part

end DocAudit.Pattern
