import DocAudit.Proofs.Pattern.FoundInOrder
import DocAudit.Proofs.Pattern.Seen

/-!
What comes first. A lazy repetition stops at the first place from which the rest succeeds. A search
from the left comes to a place that has a match, unless a match begins earlier and reaches beyond
that place.
-/

namespace DocAudit.Pattern

variable {pattern : Pattern}

theorem exists_of_lazy_rounds {test : Single} {bound count : Nat} {lastStart : Option Nat}
    {found answer : Match} {rest : Match → Option Match}
    (ran : (roundEnds (Part.one test).ends 0 none true bound count lastStart found).findSome? rest =
      some answer) :
    ∃ word later, found.cursor.Passes word later ∧ rest (found.moved later) = some answer ∧
      ∀ front place, found.cursor.Passes front place → front.length < word.length →
        rest (found.moved place) = none := by
  induction bound generalizing count lastStart found with
  | zero => cases ran
  | succ bound induction =>
    rw [roundEnds, if_neg (Nat.not_lt_zero count), if_pos rfl, List.findSome?_cons] at ran
    cases here : rest found with
    | some value =>
      rw [here] at ran
      cases ran
      exact ⟨[], found.cursor, .stay _, here,
        fun _ _ _ shorter => absurd shorter (Nat.not_lt_zero _)⟩
    | none =>
      rw [here] at ran
      dsimp only at ran
      split at ran
      · rw [Part.ends] at ran
        cases isNext : found.cursor.next? with
        | none =>
          rw [isNext] at ran
          cases ran
        | some next =>
          obtain ⟨c, next⟩ := next
          rw [isNext] at ran
          dsimp only at ran
          split at ran
          · rw [List.flatMap_singleton] at ran
            obtain ⟨word, later, passes, accepted, first⟩ := induction ran
            refine ⟨c :: word, later, Cursor.passes_cons_iff.mpr ⟨next, isNext, passes⟩, accepted,
              fun front place toPlace shorter => ?_⟩
            cases front with
            | nil =>
              rw [Cursor.passes_nil_iff.mp toPlace]
              exact here
            | cons other front =>
              obtain ⟨next', isNext', further⟩ := Cursor.passes_cons_iff.mp toPlace
              rw [isNext] at isNext'
              cases isNext'
              exact first front place further (Nat.lt_of_succ_lt_succ shorter)
          · cases ran
      · cases ran

/-- Some match that begins in a text reaches into what follows. -/
def ReachesInto (pattern : Pattern) (text behind : List Char) : Prop :=
  ∃ rest view, rest <:+ text ∧ rest ≠ [] ∧ pattern.glimpse (rest ++ behind) = some view ∧
    rest.length < view.1.length

theorem ReachesInto.cons {text behind : List Char} (reaches : pattern.ReachesInto text behind)
    (c : Char) : pattern.ReachesInto (c :: text) behind := by
  obtain ⟨rest, view, isSuffix, facts⟩ := reaches
  exact ⟨rest, view, isSuffix.trans (List.suffix_cons c text), facts⟩

theorem mem_seenFrom_append (solid : pattern.IsSolid) {covered : Nat} {front behind : List Char}
    {view : View} (within : covered ≤ front.length) (apart : ¬ pattern.ReachesInto front behind)
    (glimpsed : pattern.glimpse behind = some view) :
    view ∈ pattern.seenFrom covered (front ++ behind) := by
  induction front generalizing covered with
  | nil =>
    rw [Nat.le_zero.mp within, List.nil_append]
    cases behind with
    | nil =>
      rw [glimpse_nil solid] at glimpsed
      cases glimpsed
    | cons c behind =>
      rw [seenFrom, glimpsed]
      exact List.mem_cons_self
  | cons c front induction =>
    rw [List.length_cons] at within
    have apartBehind : ¬ pattern.ReachesInto front behind := mt (ReachesInto.cons · c) apart
    cases covered with
    | succ covered => exact induction (by omega) apartBehind
    | zero =>
      rw [List.cons_append, seenFrom]
      cases here : pattern.glimpse (c :: (front ++ behind)) with
      | none => exact induction (Nat.zero_le _) apartBehind
      | some other =>
        have stops : other.1.length ≤ front.length + 1 := by
          by_contra longer
          exact apart ⟨c :: front, other, List.suffix_refl _, List.cons_ne_nil c front, here,
            Nat.not_le.mp longer⟩
        exact List.mem_cons_of_mem _ (induction (by omega) apartBehind)

/-- A match that no earlier one reaches into is seen. -/
theorem mem_seen_append (solid : pattern.IsSolid) {front behind : List Char} {view : View}
    (apart : ¬ pattern.ReachesInto front behind) (glimpsed : pattern.glimpse behind = some view) :
    view ∈ pattern.seen (front ++ behind) :=
  mem_seenFrom_append solid (Nat.zero_le _) apart glimpsed

end DocAudit.Pattern
