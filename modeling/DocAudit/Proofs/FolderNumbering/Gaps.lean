import DocAudit.Rules.FolderNumbering
import Mathlib

/-!
Where numbers in order first differ from counting. They do so in two ways: a number between two
others is missing, or one is given twice, and then the number told is the one behind it, whether it
is missing or not. Without numbers given twice the number told is the least one that is missing.
-/

namespace DocAudit.FolderNumbering

variable {numbers : List Nat} {expected number : Nat}

/-! ## Counting -/

/-- Numbers count up to the place at which the next one stands, which is another. -/
theorem firstGap?_eq_some_iff {ordered : List Nat} :
    firstGap? expected ordered = some number ↔
      ∃ length next behind, number = expected + length ∧
        ordered = List.range' expected length ++ next :: behind ∧ next ≠ number := by
  induction ordered generalizing expected with
  | nil => simp [firstGap?]
  | cons first rest induction =>
    rw [firstGap?]
    split
    · next counted =>
      subst counted
      rw [induction]
      constructor
      · rintro ⟨length, next, behind, rfl, rfl, other⟩
        exact ⟨length + 1, next, behind, by omega, rfl, other⟩
      · rintro ⟨length, next, behind, rfl, split, other⟩
        cases length with
        | zero => exact absurd (List.cons.inj split).1.symm other
        | succ length =>
          exact ⟨length, next, behind, by omega, (List.cons.inj split).2, other⟩
    · next uncounted =>
      constructor
      · rintro ⟨⟩
        exact ⟨0, first, rest, rfl, rfl, uncounted⟩
      · rintro ⟨length, next, behind, rfl, split, -⟩
        cases length with
        | zero => rfl
        | succ length => exact absurd (List.cons.inj split).1 uncounted

theorem firstGap?_eq_none_iff {ordered : List Nat} :
    firstGap? expected ordered = none ↔ ordered = List.range' expected ordered.length := by
  induction ordered generalizing expected with
  | nil => simp [firstGap?]
  | cons first rest induction =>
    rw [firstGap?, List.length_cons, List.range'_succ, List.cons.injEq]
    split
    · next counted => rw [induction, and_iff_right counted]
    · next uncounted => simp [uncounted]

/-! ## Missing and shared numbers -/

/-- A number that is not given, between two that are. -/
def IsMissing (numbers : List Nat) (number : Nat) : Prop :=
  number ∉ numbers ∧ (∃ low ∈ numbers, low < number) ∧ ∃ high ∈ numbers, number < high

/-- A number that is given more than once. -/
def IsShared (numbers : List Nat) (number : Nat) : Prop :=
  1 < numbers.count number

/-- The number at which counting first fails: the least missing one if none below it is shared, and
else the one behind the least shared number. -/
def IsBreak (numbers : List Nat) (number : Nat) : Prop :=
  IsLeast {missing | IsMissing numbers missing} number ∧
      (∀ shared, IsShared numbers shared → number < shared) ∨
    ∃ shared, number = shared + 1 ∧ IsLeast {shared | IsShared numbers shared} shared ∧
      ∀ missing, IsMissing numbers missing → shared < missing

/-- The numbers from the least to the greatest are all given. -/
def IsContiguous (numbers : List Nat) : Prop :=
  ∀ low ∈ numbers, ∀ high ∈ numbers, ∀ number, low ≤ number → number ≤ high → number ∈ numbers

theorem isContiguous_iff : IsContiguous numbers ↔ ∀ number, ¬ IsMissing numbers number := by
  constructor
  · rintro contiguous number ⟨absent, ⟨low, lowGiven, above⟩, high, highGiven, below⟩
    exact absent (contiguous low lowGiven high highGiven number above.le below.le)
  · intro noneMissing low lowGiven high highGiven number above below
    by_contra absent
    have notLow : low ≠ number := fun same => absent (same ▸ lowGiven)
    have notHigh : number ≠ high := fun same => absent (same ▸ highGiven)
    exact noneMissing number ⟨absent, ⟨low, lowGiven, by omega⟩, high, highGiven, by omega⟩

theorem nodup_iff : numbers.Nodup ↔ ∀ number, ¬ IsShared numbers number := by
  simp only [List.nodup_iff_count_le_one, IsShared, not_lt]

theorem isMissing_perm {reordered : List Nat} (same : numbers.Perm reordered) :
    IsMissing numbers = IsMissing reordered := by
  funext number
  simp only [IsMissing, same.mem_iff]

theorem isShared_perm {reordered : List Nat} (same : numbers.Perm reordered) :
    IsShared numbers = IsShared reordered := by
  funext number
  simp only [IsShared, same.count_eq]

theorem isBreak_perm {reordered : List Nat} (same : numbers.Perm reordered) :
    IsBreak numbers number ↔ IsBreak reordered number := by
  rw [IsBreak, IsBreak, isMissing_perm same, isShared_perm same]

/-- Counting fails at one number at most. -/
theorem IsBreak.unique {other : Nat} (breaks : IsBreak numbers number)
    (breaks' : IsBreak numbers other) : number = other := by
  rcases breaks with ⟨missing, before⟩ | ⟨shared, rfl, isShared, before⟩ <;>
    rcases breaks' with ⟨missing', before'⟩ | ⟨shared', rfl, isShared', before'⟩
  · exact missing.unique missing'
  · have missingFirst := before shared' isShared'.1
    have sharedFirst := before' number missing.1
    omega
  · have missingFirst := before' shared isShared.1
    have sharedFirst := before other missing'.1
    omega
  · rw [isShared.unique isShared']

/-! ## Numbers in order -/

section ordered

variable {length next : Nat} {behind : List Nat}

theorem count_range'_le (start length number : Nat) :
    (List.range' start length).count number ≤ 1 :=
  List.nodup_iff_count_le_one.mp List.nodup_range' number

/-- Numbers in order that have counted up to some place break there. -/
theorem isBreak_of_counted (counted : 0 < length)
    (inOrder : (List.range' expected length ++ next :: behind).Pairwise (· ≤ ·))
    (other : next ≠ expected + length) :
    IsBreak (List.range' expected length ++ next :: behind) (expected + length) := by
  obtain ⟨-, laterInOrder, before⟩ := List.pairwise_append.mp inOrder
  have later : ∀ number ∈ next :: behind, next ≤ number :=
    List.forall_mem_cons.mpr ⟨le_rfl, (List.pairwise_cons.mp laterInOrder).1⟩
  have last : expected + length - 1 ≤ next :=
    before _ (List.mem_range'_1.mpr (by omega)) next List.mem_cons_self
  have isFirst : ∀ number ∈ List.range' expected length ++ next :: behind, expected ≤ number := by
    intro number member
    rcases List.mem_append.mp member with counting | behind
    · exact (List.mem_range'_1.mp counting).1
    · have notBelow := later number behind
      omega
  have notMissing : ∀ number, IsMissing (List.range' expected length ++ next :: behind) number →
      expected + length ≤ number := by
    rintro number ⟨absent, ⟨low, lowGiven, above⟩, -⟩
    by_contra within
    have fromFirst := isFirst low lowGiven
    exact absent (List.mem_append_left _ (List.mem_range'_1.mpr (by omega)))
  have notShared : ∀ number, IsShared (List.range' expected length ++ next :: behind) number →
      next ≤ number := by
    intro number shared
    by_contra below
    have absent : number ∉ next :: behind := fun member => below (later number member)
    rw [IsShared, List.count_append, List.count_eq_zero_of_not_mem absent] at shared
    have once := count_range'_le expected length number
    omega
  -- The next number has been counted before, or it leaves out the one that is expected.
  rcases Nat.lt_or_gt_of_ne other with twice | jumps
  · have isShared : IsShared (List.range' expected length ++ next :: behind) next := by
      have counts : 0 < (List.range' expected length).count next :=
        List.count_pos_iff.mpr (List.mem_range'_1.mpr (by omega))
      rw [IsShared, List.count_append, List.count_cons_self]
      omega
    refine .inr ⟨next, by omega, ⟨isShared, notShared⟩, fun missing isMissing => ?_⟩
    have notBelow := notMissing missing isMissing
    omega
  · refine .inl ⟨⟨⟨?_, ?_, ?_⟩, notMissing⟩, fun shared isShared => ?_⟩
    · intro member
      rcases List.mem_append.mp member with counting | member
      · have counted := (List.mem_range'_1.mp counting).2
        omega
      · have notBelow := later _ member
        omega
    · exact ⟨expected, List.mem_append_left _ (List.mem_range'_1.mpr (by omega)), by omega⟩
    · exact ⟨next, List.mem_append_right _ List.mem_cons_self, jumps⟩
    · have notBelow := notShared shared isShared
      omega

end ordered

theorem isContiguous_range' (start length : Nat) : IsContiguous (List.range' start length) := by
  intro low lowGiven high highGiven number above below
  rw [List.mem_range'_1] at *
  omega

/-- Counting does not fail where no number is missing and none is shared. -/
theorem not_isBreak_of_isContiguous (contiguous : IsContiguous numbers) (distinct : numbers.Nodup) :
    ¬ IsBreak numbers number := by
  rintro (⟨missing, -⟩ | ⟨shared, -, isShared, -⟩)
  · exact isContiguous_iff.mp contiguous number missing.1
  · exact nodup_iff.mp distinct shared isShared.1

/-! ## Numbers in any order -/

theorem ordered_perm (numbers : List Nat) : (numbers.mergeSort (· ≤ ·)).Perm numbers :=
  List.mergeSort_perm numbers _

theorem pairwise_ordered (numbers : List Nat) : (numbers.mergeSort (· ≤ ·)).Pairwise (· ≤ ·) := by
  have ordered : (numbers.mergeSort (· ≤ ·)).Pairwise fun left right : Nat =>
      decide (left ≤ right) = true := by
    apply List.pairwise_mergeSort
    · simp only [decide_eq_true_eq]
      exact fun _ _ _ => Nat.le_trans
    · simp only [Bool.or_eq_true, decide_eq_true_eq]
      exact Nat.le_total
  exact ordered.imp of_decide_eq_true

theorem isBreak_of_gap? (found : gap? numbers = some number) : IsBreak numbers number := by
  obtain ⟨first, isFirst, found⟩ := Option.bind_eq_some_iff.mp found
  obtain ⟨length, next, behind, rfl, split, other⟩ := firstGap?_eq_some_iff.mp found
  have counted : 0 < length := by
    rw [Nat.pos_iff_ne_zero]
    rintro rfl
    rw [split] at isFirst
    exact other (Option.some.inj isFirst)
  have inOrder := pairwise_ordered numbers
  rw [split] at inOrder
  rw [← isBreak_perm (ordered_perm numbers), split]
  exact isBreak_of_counted counted inOrder other

/-- No number is told exactly where the numbers are those of a range, each given once. -/
theorem gap?_eq_none_iff : gap? numbers = none ↔ IsContiguous numbers ∧ numbers.Nodup := by
  constructor
  · intro none
    have same := ordered_perm numbers
    cases ordered : numbers.mergeSort (· ≤ ·) with
    | nil =>
      rw [ordered] at same
      obtain rfl := same.symm.eq_nil
      exact ⟨fun _ given => absurd given List.not_mem_nil, List.nodup_nil⟩
    | cons first rest =>
      rw [gap?, ordered, List.head?_cons, Option.bind_some] at none
      have counts := firstGap?_eq_none_iff.mp none
      rw [ordered, counts] at same
      exact ⟨fun low lowGiven high highGiven number above below => same.mem_iff.mp
          (isContiguous_range' _ _ low (same.mem_iff.mpr lowGiven) high (same.mem_iff.mpr highGiven)
            number above below),
        same.nodup_iff.mp List.nodup_range'⟩
  · rintro ⟨contiguous, distinct⟩
    rw [Option.eq_none_iff_forall_ne_some]
    intro number found
    exact not_isBreak_of_isContiguous contiguous distinct (isBreak_of_gap? found)

theorem gap?_eq_some_iff : gap? numbers = some number ↔ IsBreak numbers number := by
  refine ⟨isBreak_of_gap?, fun breaks => ?_⟩
  cases told : gap? numbers with
  | none =>
    obtain ⟨contiguous, distinct⟩ := gap?_eq_none_iff.mp told
    exact absurd breaks (not_isBreak_of_isContiguous contiguous distinct)
  | some other => rw [breaks.unique (isBreak_of_gap? told)]

/-- Where no number is shared, the number told is the least one that is missing. -/
theorem isBreak_iff_of_nodup (distinct : numbers.Nodup) :
    IsBreak numbers number ↔ IsLeast {missing | IsMissing numbers missing} number := by
  have noneShared := nodup_iff.mp distinct
  constructor
  · rintro (⟨missing, -⟩ | ⟨shared, -, isShared, -⟩)
    · exact missing
    · exact absurd isShared.1 (noneShared shared)
  · exact fun missing => .inl ⟨missing, fun shared isShared => absurd isShared (noneShared shared)⟩

end DocAudit.FolderNumbering
