import DocAudit.Proofs.Pattern.FoundInOrder
import DocAudit.Proofs.Rules.StandardPatterns

/-!
Where single tests and repetitions of one test end. A test moves over one character that it
accepts; rounds of it move over any number of them, and nothing is recorded on the way. So the ends
are told by the characters alone.
-/

namespace DocAudit.Pattern

theorem Cursor.passes_append_iff {cursor later : Cursor} {front back : List Char} :
    cursor.Passes (front ++ back) later ↔
      ∃ between, cursor.Passes front between ∧ between.Passes back later := by
  constructor
  · intro passes
    induction front generalizing cursor with
    | nil => exact ⟨cursor, .stay cursor, passes⟩
    | cons c front induction =>
      obtain ⟨next, isNext, rest⟩ := passes_cons_iff.mp passes
      obtain ⟨between, passed, further⟩ := induction rest
      exact ⟨between, passes_cons_iff.mpr ⟨next, isNext, passed⟩, further⟩
  · rintro ⟨between, passed, further⟩
    exact passed.trans further

theorem Cursor.passes_cons_iff_singleton {cursor later : Cursor} {c : Char} {word : List Char} :
    cursor.Passes (c :: word) later ↔
      ∃ between, cursor.Passes [c] between ∧ between.Passes word later :=
  show cursor.Passes ([c] ++ word) later ↔ _ from passes_append_iff

/-- Some characters further. -/
def Cursor.skip (cursor : Cursor) (count : Nat) : Cursor where
  before := (cursor.after.take count).reverse ++ cursor.before
  after := cursor.after.drop count
  index := cursor.index + count

namespace Cursor

variable {cursor later : Cursor} {c : Char} {rest : List Char}

theorem passes_skip {count : Nat} (within : count ≤ cursor.after.length) :
    cursor.Passes (cursor.after.take count) (cursor.skip count) where
  before := rfl
  after := (List.take_append_drop count cursor.after).symm
  index := by rw [List.length_take, Nat.min_eq_left within]; rfl

theorem Passes.eq_skip {word : List Char} (passes : cursor.Passes word later) :
    later = cursor.skip word.length := by
  have before := passes.before
  have after := passes.after
  have index := passes.index
  cases later
  simp_all [skip]

theorem next?_eq_skip (ahead : cursor.after = c :: rest) :
    cursor.next? = some (c, cursor.skip 1) := by
  rw [next?, ahead, skip, ahead]
  rfl

theorem skip_skip (cursor : Cursor) (count more : Nat) :
    (cursor.skip count).skip more = cursor.skip (count + more) := by
  simp only [skip, List.drop_drop, List.take_add, List.reverse_append, List.append_assoc,
    Nat.add_assoc]

theorem after_skip_one (ahead : cursor.after = c :: rest) : (cursor.skip 1).after = rest := by
  rw [skip, ahead, List.drop_one, List.tail_cons]

end Cursor

variable {test : Single} {found after : Match} {word : List Char}

/-- A match that has moved over a word and has recorded nothing. -/
def Match.Moves (found : Match) (word : List Char) (after : Match) : Prop :=
  found.cursor.Passes word after.cursor ∧ after.captures = found.captures

namespace Match.Moves

theorem trans {between : Match} {behind : List Char} (moves : found.Moves word between)
    (further : between.Moves behind after) : found.Moves (word ++ behind) after :=
  ⟨moves.1.trans further.1, further.2.trans moves.2⟩

theorem eq_moved (moves : found.Moves word after) : after = found.moved after.cursor := by
  have recorded := moves.2
  cases after
  simp_all [Match.moved]

theorem append_iff {front back : List Char} :
    found.Moves (front ++ back) after ↔
      ∃ between, found.Moves front between ∧ between.Moves back after := by
  constructor
  · rintro ⟨passes, recorded⟩
    obtain ⟨later, passed, further⟩ := Cursor.passes_append_iff.mp passes
    exact ⟨found.moved later, ⟨passed, rfl⟩, further, recorded⟩
  · rintro ⟨between, first, further⟩
    exact first.trans further

theorem cons_iff {c : Char} :
    found.Moves (c :: word) after ↔
      ∃ between, found.Moves [c] between ∧ between.Moves word after :=
  show found.Moves ([c] ++ word) after ↔ _ from append_iff

end Match.Moves

theorem mem_ends_one :
    after ∈ (Part.one test).ends found ↔ ∃ c, test.accepts c = true ∧ found.Moves [c] after := by
  constructor
  · intro member
    rw [Part.ends] at member
    split at member
    · cases member
    · next c next isNext =>
      split at member
      · next accepted =>
        rw [List.mem_singleton.mp member]
        exact ⟨c, accepted, Cursor.passes_of_next? isNext, rfl⟩
      · cases member
  · rintro ⟨c, accepted, passes, recorded⟩
    obtain ⟨next, isNext, further⟩ := Cursor.passes_cons_iff.mp passes
    have same : after = found.moved next := by
      rw [Match.Moves.eq_moved ⟨passes, recorded⟩, Cursor.passes_nil_iff.mp further]
    rw [Part.ends, isNext, same]
    simp [accepted]

/-! ## Rounds of one test -/

theorem ends_one_of_next {c : Char} {rest : List Char} (ahead : found.cursor.after = c :: rest) :
    (Part.one test).ends found =
      if test.accepts c then [found.moved (found.cursor.skip 1)] else [] := by
  rw [Part.ends, Cursor.next?_eq_skip ahead]

theorem ends_one_cases (test : Single) (found : Match) :
    (Part.one test).ends found = [] ∨
      ∃ c rest, found.cursor.after = c :: rest ∧ test.accepts c = true ∧
        (Part.one test).ends found = [found.moved (found.cursor.skip 1)] := by
  cases ahead : found.cursor.after with
  | nil =>
    left
    rw [Part.ends, Cursor.next?, ahead]
  | cons c rest =>
    rw [ends_one_of_next ahead]
    split
    · next accepted => exact .inr ⟨c, rest, rfl, accepted, rfl⟩
    · exact .inl rfl

/-- How many characters that a test accepts stand ahead. -/
def Match.runLength (test : Single) (found : Match) : Nat :=
  (found.cursor.after.takeWhile test.accepts).length

/-- Where a run of accepted characters can be left, if some of them are needed: behind the whole run
first, then one character earlier each time. -/
def Match.runEnds (test : Single) (needed : Nat) (found : Match) : List Match :=
  (List.range (found.runLength test + 1 - needed)).map fun fewer =>
    found.moved (found.cursor.skip (found.runLength test - fewer))

theorem Match.runLength_le (test : Single) (found : Match) :
    found.runLength test ≤ found.cursor.after.length :=
  (List.takeWhile_sublist _).length_le

/-- The other way round: behind the needed characters first, then one character later each time. -/
theorem Match.reverse_runEnds (test : Single) (needed : Nat) (found : Match) :
    (found.runEnds test needed).reverse =
      (List.range (found.runLength test + 1 - needed)).map fun more =>
        found.moved (found.cursor.skip (needed + more)) := by
  refine List.ext_getElem (by simp [runEnds]) fun place _ within => ?_
  rw [List.length_map, List.length_range] at within
  simp only [runEnds, List.getElem_reverse, List.getElem_map, List.getElem_range, List.length_map,
    List.length_range]
  congr 2
  omega

theorem Match.runLength_of_ends_eq_nil (stops : (Part.one test).ends found = []) :
    found.runLength test = 0 := by
  rw [runLength]
  cases ahead : found.cursor.after with
  | nil => rfl
  | cons c rest =>
    rw [ends_one_of_next ahead] at stops
    split at stops
    · cases stops
    · next refused => rw [List.takeWhile_cons_of_neg refused, List.length_nil]

theorem Match.runLength_of_accepts {c : Char} {rest : List Char}
    (ahead : found.cursor.after = c :: rest) (accepted : test.accepts c = true) :
    found.runLength test = (found.moved (found.cursor.skip 1)).runLength test + 1 := by
  have behind : (found.moved (found.cursor.skip 1)).cursor.after = rest :=
    Cursor.after_skip_one ahead
  rw [runLength, runLength, behind, ahead, List.takeWhile_cons_of_pos accepted, List.length_cons]

/-- A run is left behind its first character or further on, and right away if none is needed. -/
theorem Match.runEnds_eq (test : Single) (needed : Nat) (found : Match) :
    found.runEnds test needed =
      ((Part.one test).ends found).flatMap (Match.runEnds test (needed - 1)) ++
        if needed = 0 then [found] else [] := by
  rcases ends_one_cases test found with stops | ⟨c, rest, ahead, accepted, goes⟩
  · rw [stops, List.flatMap_nil, List.nil_append, runEnds, runLength_of_ends_eq_nil stops]
    split
    · next none => rw [none]; rfl
    · next some => rw [show 0 + 1 - needed = 0 by omega]; rfl
  · rw [goes, List.flatMap_singleton, runEnds, runEnds, runLength_of_accepts ahead accepted]
    generalize (found.moved (found.cursor.skip 1)).runLength test = run
    have same : ∀ fewer ∈ List.range (run + 1 - (needed - 1)),
        (found.moved (found.cursor.skip 1)).moved
            ((found.moved (found.cursor.skip 1)).cursor.skip (run - fewer)) =
          found.moved (found.cursor.skip (run + 1 - fewer)) := by
      intro fewer member
      have inside : fewer < run + 1 - (needed - 1) := List.mem_range.mp member
      have next := found.cursor.skip_skip 1 (run - fewer)
      rw [show 1 + (run - fewer) = run + 1 - fewer by omega] at next
      exact congrArg found.moved next
    rw [List.map_congr_left same]
    by_cases none : needed = 0
    · rw [if_pos none, none, show run + 1 + 1 - 0 = run + 1 + 1 by omega, List.range_succ,
        List.map_append, List.map_singleton, Nat.sub_self]
      rfl
    · rw [if_neg none, List.append_nil,
        show run + 1 + 1 - needed = run + 1 - (needed - 1) by omega]

/-- Ends from the longest one on, as a repetition tries them that takes all it can get, or one that
takes as little as it can. -/
def inOrder (lazy : Bool) (ends : List Match) : List Match :=
  if lazy then ends.reverse else ends

/-- Rounds of a test, when the last one began before and enough are left. -/
theorem roundEnds_one {least bound count : Nat} {lazy : Bool} {lastStart : Option Nat}
    (moved : ∀ place ∈ lastStart, place < found.cursor.index)
    (enough : found.cursor.after.length < bound) :
    roundEnds (Part.one test).ends least none lazy bound count lastStart found =
      inOrder lazy (found.runEnds test (least - count)) := by
  induction bound generalizing count lastStart found with
  | zero => cases enough
  | succ bound induction =>
    have going : (lastStart != some found.cursor.index) = true := by
      rw [bne_iff_ne]
      intro same
      exact Nat.lt_irrefl _ (moved _ same)
    have further {lastStart' : Option Nat}
        (before : ∀ place ∈ lastStart', place ≤ found.cursor.index) :
        ((Part.one test).ends found).flatMap
            (roundEnds (Part.one test).ends least none lazy bound (count + 1) lastStart') =
          inOrder lazy
            (((Part.one test).ends found).flatMap (Match.runEnds test (least - count - 1))) := by
      rcases ends_one_cases test found with stops | ⟨c, rest, ahead, accepted, goes⟩
      · rw [stops, inOrder]
        split <;> rfl
      · have fewer : (found.moved (found.cursor.skip 1)).cursor.after.length < bound := by
          rw [Match.moved, Cursor.after_skip_one ahead]
          rw [ahead, List.length_cons] at enough
          omega
        rw [goes, List.flatMap_singleton, List.flatMap_singleton,
          induction (fun place isLast => Nat.lt_succ_of_le (before place isLast)) fewer,
          Nat.sub_sub]
    rw [roundEnds, Match.runEnds_eq]
    by_cases below : count < least
    · rw [if_pos below, further fun place isLast => Nat.le_of_lt (moved place isLast),
        if_neg (by omega), List.append_nil]
    · have none : least - count = 0 := by omega
      rw [if_neg below, if_pos none]
      simp only [Option.all_none, going, Bool.and_self, if_true]
      rw [further fun place isLast => Nat.le_of_eq (Option.some.inj isLast).symm]
      cases lazy with
      | false => rfl
      | true => exact List.reverse_concat.symm

theorem ends_greedy (least : Nat) (found : Match) :
    (Part.repeated .greedy least none (.one test)).ends found = found.runEnds test least :=
  roundEnds_one nofun (by rw [roundBound]; omega)

theorem ends_lazy (least : Nat) (found : Match) :
    (Part.repeated .lazy least none (.one test)).ends found =
      (found.runEnds test least).reverse :=
  roundEnds_one nofun (by rw [roundBound]; omega)

/-- A greedy repetition of a test ends behind each row of accepted characters that is long
enough. -/
theorem mem_ends_greedy {least : Nat} :
    after ∈ (Part.repeated .greedy least none (.one test)).ends found ↔
      ∃ word, least ≤ word.length ∧ (∀ c ∈ word, test.accepts c = true) ∧
        found.Moves word after := by
  rw [ends_greedy, Match.runEnds, List.mem_map]
  have within := found.runLength_le test
  constructor
  · rintro ⟨fewer, member, rfl⟩
    rw [List.mem_range] at member
    refine ⟨found.cursor.after.take (found.runLength test - fewer), ?_, fun c among => ?_,
      Cursor.passes_skip (by omega), rfl⟩
    · rw [List.length_take]
      omega
    · have split := List.takeWhile_append_dropWhile (p := test.accepts) (l := found.cursor.after)
      have inRun : found.runLength test - fewer ≤
          (found.cursor.after.takeWhile test.accepts).length := Nat.sub_le _ _
      rw [← split, List.take_append_of_le_length inRun] at among
      exact List.mem_takeWhile_imp (List.mem_of_mem_take among)
  · rintro ⟨word, long, all, moves⟩
    have inRun : word.length ≤ found.runLength test := by
      rw [Match.runLength, moves.1.after, List.takeWhile_append_of_pos all, List.length_append]
      exact Nat.le_add_right _ _
    refine ⟨found.runLength test - word.length, List.mem_range.mpr (by omega), ?_⟩
    rw [Nat.sub_sub_self inRun, ← moves.1.eq_skip]
    exact moves.eq_moved.symm

theorem mem_ends_capture {index : Nat} {body : Part} :
    after ∈ (Part.capture index body).ends found ↔
      ∃ inner ∈ body.ends found, found.record index inner = after :=
  List.mem_map

theorem mem_ends_sequence {first second : Part} :
    after ∈ (Part.sequence first second).ends found ↔
      ∃ between ∈ first.ends found, after ∈ second.ends between :=
  List.mem_flatMap

/-! ## Letters -/

open StandardPatterns

/-- Every character but one. -/
def allBut (c : Char) : Single :=
  .set true [.single c.toNat] .exact false

theorem accepts_allBut_iff {c other : Char} : (allBut c).accepts other = true ↔ other ≠ c := by
  rw [allBut, Single.accepts, List.any_cons, List.any_nil, Bool.or_false, bne_iff_ne, ne_eq,
    Bool.not_eq_true, SetItem.holds, CaseMode.variants, ← Bool.not_eq_true, List.contains_iff_mem,
    List.mem_singleton, Char.toNat_inj, eq_comm]

theorem mem_ends_letter {c : Char} :
    after ∈ (letter c).ends found ↔ found.Moves [c] after := by
  rw [letter, StandardPatterns.set, mem_ends_one]
  constructor
  · rintro ⟨other, accepted, moves⟩
    rwa [eq_of_accepts_letter accepted] at moves
  · intro moves
    refine ⟨c, ?_, moves⟩
    rw [Single.accepts, List.any_cons, SetItem.holds, CaseMode.variants,
      List.contains_iff_mem.mpr (List.mem_singleton_self _)]
    rfl

end DocAudit.Pattern
