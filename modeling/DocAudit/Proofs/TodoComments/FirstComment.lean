import DocAudit.Rules.TodoComments
import Mathlib.Data.List.Forall2
import Mathlib.Data.Option.Basic

/-!
The comment that is read off a line: of the places where one of the tags stands it begins at the
first, and of the tags that stand there it is the longest. There is none only where no tag stands.
-/

namespace DocAudit.TodoComments

/-- In a line, `written` stands for a tag: its letters are those of the tag in some case, words
begin or end at both its ends, and it does not end the line. -/
structure StandsIn (line front written behind tag : List Char) : Prop where
  split : line = front ++ (written ++ behind)
  letters : List.Forall₂ (fun expected c => Text.sameLetter expected c = true) tag written
  opens : Text.isWordBoundary front.getLast? (written ++ behind).head? = true
  closes : Text.isWordBoundary (front ++ written).getLast? behind.head? = true
  followed : behind ≠ []

/-- A comment of a line, which no other comment comes before. -/
structure IsFirstComment (tags : List String) (line front : List Char) (comment : Comment) :
    Prop where
  stands : ∃ tag ∈ tags, StandsIn line front comment.tag comment.behind tag.toList
  text : commentText? comment.behind = some comment.text
  leftmost : ∀ tag ∈ tags, ∀ front' written behind,
    StandsIn line front' written behind tag.toList → front.length ≤ front'.length
  longest : ∀ tag ∈ tags, ∀ written behind,
    StandsIn line front written behind tag.toList → written.length ≤ comment.tag.length

/-- A line has one first comment. -/
theorem IsFirstComment.unique {tags : List String} {line front front' : List Char}
    {comment comment' : Comment} (first : IsFirstComment tags line front comment)
    (first' : IsFirstComment tags line front' comment') : comment = comment' := by
  obtain ⟨tag, known, stands⟩ := first.stands
  obtain ⟨tag', known', stands'⟩ := first'.stands
  have sameFront : front = front' := by
    have sameLength := Nat.le_antisymm (first.leftmost tag' known' _ _ _ stands')
      (first'.leftmost tag known _ _ _ stands)
    exact (List.append_inj (stands.split.symm.trans stands'.split) sameLength).1
  subst sameFront
  obtain ⟨sameTag, sameBehind⟩ : comment.tag = comment'.tag ∧ comment.behind = comment'.behind := by
    have sameLength := Nat.le_antisymm (first'.longest tag known _ _ stands)
      (first.longest tag' known' _ _ stands')
    have sameRest := List.append_cancel_left (stands.split.symm.trans stands'.split)
    exact List.append_inj sameRest sameLength
  have sameText := first.text
  rw [sameBehind, first'.text, Option.some.injEq] at sameText
  cases comment
  cases comment'
  simp_all

/-! ## Behind a tag -/

theorem behindTag?_eq_some_iff {tag text behind : List Char} :
    behindTag? tag text = some behind ↔
      ∃ written, text = written ++ behind ∧
        List.Forall₂ (fun expected c => Text.sameLetter expected c = true) tag written := by
  induction tag generalizing text with
  | nil =>
    rw [behindTag?, Option.some.injEq]
    constructor
    · rintro rfl
      exact ⟨[], rfl, .nil⟩
    · rintro ⟨written, rfl, letters⟩
      cases letters
      rfl
  | cons expected tag induction =>
    cases text with
    | nil =>
      refine iff_of_false nofun ?_
      rintro ⟨written, split, letters⟩
      cases letters
      cases split
    | cons c text =>
      rw [behindTag?]
      constructor
      · intro found
        split at found
        · next same =>
          obtain ⟨written, rfl, others⟩ := induction.mp found
          exact ⟨c :: written, rfl, .cons same others⟩
        · cases found
      · rintro ⟨written, split, letters⟩
        cases letters with
        | cons same others =>
          obtain ⟨rfl, rfl⟩ := List.cons.inj split
          rw [if_pos same]
          exact induction.mpr ⟨_, rfl, others⟩

theorem eq_nil_of_skipBlanks {last : Option Char} {text : List Char}
    (noBlank : (skipBlanks last text).1 = none) (empty : (skipBlanks last text).2 = []) :
    text = [] := by
  induction text generalizing last with
  | nil => rfl
  | cons c rest induction =>
    rw [skipBlanks] at noBlank empty
    split at noBlank
    · next blank =>
      rw [if_pos blank] at empty
      cases rest with
      | nil => cases noBlank
      | cons d rest => cases induction noBlank empty
    · next visible =>
      rw [if_neg visible] at empty
      cases empty

/-- Whatever stands behind a tag has a text. -/
theorem exists_commentText? {behind : List Char} (followed : behind ≠ []) :
    ∃ text, commentText? behind = some text := by
  rw [← Option.ne_none_iff_exists', commentText?]
  intro nothing
  dsimp only at nothing
  split at nothing
  · next empty =>
    obtain ⟨noBlank, noColon⟩ := Option.or_eq_none_iff.mp (Option.map_eq_none_iff.mp nothing)
    rw [noColon] at noBlank empty
    exact followed (eq_nil_of_skipBlanks noBlank (List.isEmpty_iff.mp empty))
  · cases nothing

/-! ## A comment at a place -/

/-- The comment that begins a text with one tag. -/
def commentOf? (before : Option Char) (text tag : List Char) : Option Comment := do
  let behind ← behindTag? tag text
  let written := text.take tag.length
  guard (Text.isWordBoundary (written.getLast?.or before) behind.head?)
  return ⟨written, behind, ← commentText? behind⟩

theorem commentAt?_eq (tags : List (List Char)) (before : Option Char) (text : List Char) :
    commentAt? tags before text =
      if Text.isWordBoundary before text.head? then tags.findSome? (commentOf? before text)
      else none :=
  rfl

theorem commentOf?_eq_some_iff {front text tag : List Char} {comment : Comment}
    (opens : Text.isWordBoundary front.getLast? text.head? = true) :
    commentOf? front.getLast? text tag = some comment ↔
      StandsIn (front ++ text) front comment.tag comment.behind tag ∧
        commentText? comment.behind = some comment.text := by
  constructor
  · intro found
    obtain ⟨behind, read, found⟩ := Option.bind_eq_some_iff.mp found
    obtain ⟨written, rfl, letters⟩ := behindTag?_eq_some_iff.mp read
    rw [letters.length_eq, List.take_left] at found
    dsimp only at found
    rw [← List.getLast?_append] at found
    obtain ⟨_, closes, found⟩ := Option.bind_eq_some_iff.mp found
    obtain ⟨text, hasText, same⟩ := Option.bind_eq_some_iff.mp found
    cases same
    refine ⟨⟨rfl, letters, opens, ?_, ?_⟩, hasText⟩
    · by_contra notClosed
      rw [guard, if_neg notClosed] at closes
      cases closes
    · rintro rfl
      cases hasText
  · rintro ⟨⟨split, letters, -, closes, -⟩, hasText⟩
    obtain rfl := List.append_cancel_left split
    rw [commentOf?, behindTag?_eq_some_iff.mpr ⟨comment.tag, rfl, letters⟩]
    simp [letters.length_eq, ← List.getLast?_append, closes, hasText]

theorem commentAt?_eq_none_iff {tags : List (List Char)} {front text : List Char} :
    commentAt? tags front.getLast? text = none ↔
      ∀ tag ∈ tags, ∀ written behind, ¬ StandsIn (front ++ text) front written behind tag := by
  rw [commentAt?_eq]
  by_cases opens : Text.isWordBoundary front.getLast? text.head? = true
  · rw [if_pos opens, List.findSome?_eq_none_iff]
    refine forall₂_congr fun tag _ => ?_
    rw [Option.eq_none_iff_forall_ne_some]
    constructor
    · intro noComment written behind stands
      obtain ⟨text, hasText⟩ := exists_commentText? stands.followed
      exact noComment ⟨written, behind, text⟩
        ((commentOf?_eq_some_iff opens).mpr ⟨stands, hasText⟩)
    · intro noTag comment found
      exact noTag _ _ ((commentOf?_eq_some_iff opens).mp found).1
  · rw [if_neg opens]
    refine iff_of_true rfl fun tag _ written behind stands => opens ?_
    rw [List.append_cancel_left stands.split]
    exact stands.opens

/-- The comment at a place begins with the first of the tags that stand there. -/
theorem of_commentAt?_eq_some {tags : List (List Char)} {front text : List Char} {comment : Comment}
    (found : commentAt? tags front.getLast? text = some comment) :
    ∃ before tag after, tags = before ++ tag :: after ∧
      StandsIn (front ++ text) front comment.tag comment.behind tag ∧
      commentText? comment.behind = some comment.text ∧
      ∀ other ∈ before, ∀ written behind,
        ¬ StandsIn (front ++ text) front written behind other := by
  have opens : Text.isWordBoundary front.getLast? text.head? = true := by
    by_contra closed
    rw [commentAt?_eq, if_neg closed] at found
    cases found
  rw [commentAt?_eq, if_pos opens, List.findSome?_eq_some_iff] at found
  obtain ⟨before, tag, after, split, found, notBefore⟩ := found
  obtain ⟨stands, hasText⟩ := (commentOf?_eq_some_iff opens).mp found
  refine ⟨before, tag, after, split, stands, hasText, ?_⟩
  rw [← commentAt?_eq_none_iff, commentAt?_eq, if_pos opens, List.findSome?_eq_none_iff]
  exact notBefore

/-! ## The first place -/

/-- A comment of a text behind `front` begins at the first place where there is one. -/
theorem of_comment?_eq_some {tags : List (List Char)} {front text : List Char} {comment : Comment}
    (found : comment? tags front.getLast? text = some comment) :
    ∃ skipped here, text = skipped ++ here ∧
      commentAt? tags (front ++ skipped).getLast? here = some comment ∧
      ∀ skipped' here', text = skipped' ++ here' → skipped'.length < skipped.length →
        commentAt? tags (front ++ skipped').getLast? here' = none := by
  induction text generalizing front with
  | nil => exact ⟨[], [], rfl, by rwa [List.append_nil], fun _ _ _ => nofun⟩
  | cons c rest induction =>
    rw [comment?, Option.or_eq_some_iff] at found
    rcases found with atOnce | ⟨notHere, found⟩
    · exact ⟨[], c :: rest, rfl, by rwa [List.append_nil], fun _ _ _ => nofun⟩
    · rw [← List.getLast?_concat (l := front)] at found
      obtain ⟨skipped, here, rfl, found, earlier⟩ := induction found
      refine ⟨c :: skipped, here, rfl, by rwa [List.append_cons], ?_⟩
      intro skipped' here' split shorter
      cases skipped' with
      | nil =>
        rw [List.nil_append] at split
        rw [List.append_nil, ← split, notHere]
      | cons d skipped' =>
        obtain ⟨rfl, rest⟩ := List.cons.inj split
        rw [List.append_cons]
        exact earlier skipped' here' rest (Nat.lt_of_succ_lt_succ shorter)

theorem comment?_eq_none {tags : List (List Char)} {front text : List Char}
    (nothing : comment? tags front.getLast? text = none) {skipped here : List Char}
    (split : text = skipped ++ here) :
    commentAt? tags (front ++ skipped).getLast? here = none := by
  induction text generalizing front skipped with
  | nil =>
    obtain ⟨rfl, rfl⟩ := List.append_eq_nil_iff.mp split.symm
    rwa [List.append_nil]
  | cons c rest induction =>
    rw [comment?, Option.or_eq_none_iff] at nothing
    obtain ⟨notHere, notLater⟩ := nothing
    cases skipped with
    | nil =>
      rw [List.nil_append] at split
      rw [List.append_nil, ← split, notHere]
    | cons d skipped =>
      obtain ⟨rfl, rest⟩ := List.cons.inj split
      rw [← List.getLast?_concat (l := front)] at notLater
      rw [List.append_cons]
      exact induction notLater rest

/-! ## The first comment -/

theorem pairwise_longestFirst (tags : List String) :
    (longestFirst tags).Pairwise fun left right => right.length ≤ left.length := by
  let notShorter (left right : List Char) : Bool := right.length ≤ left.length
  have transitive : ∀ a b c, notShorter a b = true → notShorter b c = true →
      notShorter a c = true := by
    simpa [notShorter] using fun _ _ _ longer longer' => Nat.le_trans longer' longer
  have total : ∀ a b, (notShorter a b || notShorter b a) = true := by
    simpa [notShorter] using fun _ _ => Nat.le_total _ _
  have sorted := List.pairwise_mergeSort transitive total (tags.map String.toList)
  simpa [longestFirst, notShorter] using sorted

theorem mem_longestFirst {tags : List String} {tag : List Char} :
    tag ∈ longestFirst tags ↔ ∃ name ∈ tags, name.toList = tag := by
  rw [longestFirst, List.mem_mergeSort, List.mem_map]

/-- What is read off a line is its first comment. -/
theorem isFirstComment_of_comment? {tags : List String} {line : List Char} {comment : Comment}
    (found : comment? (longestFirst tags) none line = some comment) :
    ∃ front, IsFirstComment tags line front comment := by
  change comment? (longestFirst tags) (List.getLast? []) line = some comment at found
  obtain ⟨front, here, rfl, found, earlier⟩ := of_comment?_eq_some found
  obtain ⟨before, tag, after, split, stands, hasText, notBefore⟩ := of_commentAt?_eq_some found
  have sorted := pairwise_longestFirst tags
  have member : tag ∈ longestFirst tags := by simp [split]
  obtain ⟨name, known, rfl⟩ := mem_longestFirst.mp member
  refine ⟨front, ⟨name, known, stands⟩, hasText, ?_, ?_⟩
  · intro other otherKnown front' written behind otherStands
    by_contra shorter
    have noComment := earlier front' (written ++ behind) otherStands.split (by omega)
    refine commentAt?_eq_none_iff.mp noComment other.toList
      (mem_longestFirst.mpr ⟨other, otherKnown, rfl⟩) written behind ?_
    rw [List.nil_append, ← otherStands.split]
    exact otherStands
  · intro other otherKnown written behind otherStands
    rw [← stands.letters.length_eq, ← otherStands.letters.length_eq]
    have among : other.toList ∈ longestFirst tags :=
      mem_longestFirst.mpr ⟨other, otherKnown, rfl⟩
    rw [split] at sorted among
    rcases List.mem_append.mp among with inBefore | inRest
    · exact absurd otherStands (notBefore _ inBefore _ _)
    · rcases List.mem_cons.mp inRest with same | inAfter
      · exact Nat.le_of_eq (congrArg List.length same)
      · exact List.rel_of_pairwise_cons (List.pairwise_append.mp sorted).2.1 inAfter

/-- Where a tag stands there is a comment. -/
theorem exists_comment? {tags : List String} {tag : String} (known : tag ∈ tags)
    {line front written behind : List Char}
    (stands : StandsIn line front written behind tag.toList) :
    ∃ comment, comment? (longestFirst tags) none line = some comment := by
  rw [← Option.ne_none_iff_exists']
  intro nothing
  change comment? (longestFirst tags) (List.getLast? []) line = none at nothing
  have noComment := comment?_eq_none nothing stands.split
  refine commentAt?_eq_none_iff.mp noComment tag.toList (mem_longestFirst.mpr ⟨tag, known, rfl⟩)
    written behind ?_
  rw [List.nil_append, ← stands.split]
  exact stands

theorem comment?_eq_some_iff {tags : List String} {line : List Char} {comment : Comment} :
    comment? (longestFirst tags) none line = some comment ↔
      ∃ front, IsFirstComment tags line front comment := by
  refine ⟨isFirstComment_of_comment?, ?_⟩
  rintro ⟨front, first⟩
  obtain ⟨tag, known, stands⟩ := first.stands
  obtain ⟨other, found⟩ := exists_comment? known stands
  obtain ⟨front', first'⟩ := isFirstComment_of_comment? found
  rw [found, first.unique first']

end DocAudit.TodoComments
