import DocAudit.Pattern.Search
import DocAudit.Proofs.Pattern.Context
import DocAudit.Proofs.Pattern.Words
import DocAudit.Proofs.Text.Lines

/-!
What a search finds in a text, for patterns that look at nothing but what they match and match
nothing empty. From the left, at each character the pattern has a match or has none; after a match
the search goes on behind it. So a search can be cut wherever no match crosses.
-/

namespace DocAudit

open Pattern

namespace Pattern

/-- What rules read of a match: its text and its captures. -/
abbrev View := List Char × List (Nat × List Char)

def Found.view (found : Found) : View :=
  (found.text, found.finish.captures)

/-- A pattern whose matches depend on their own characters only, of which each has one at least. -/
structure IsSolid (pattern : Pattern) : Prop where
  plain : pattern.part.isPlain = true
  nonempty : pattern.part.canBeEmpty = false

/-- What is seen of the match that begins a text, if one does. -/
def glimpse (pattern : Pattern) (text : List Char) : Option View :=
  (pattern.matchStart? text).map Found.view

/-- What is seen in a text from the left; `covered` characters still belong to the match seen
last. -/
def seenFrom (pattern : Pattern) (covered : Nat) : List Char → List View
  | [] => []
  | c :: rest =>
    match covered with
    | left + 1 => seenFrom pattern left rest
    | 0 =>
      match pattern.glimpse (c :: rest) with
      | some view => view :: seenFrom pattern (view.1.length - 1) rest
      | none => seenFrom pattern 0 rest

def seen (pattern : Pattern) (text : List Char) : List View :=
  pattern.seenFrom 0 text

/-! ## Single matches -/

variable {pattern : Pattern}

theorem matchAt?_eq (solid : pattern.IsSolid) (cursor : Cursor) (advance : Bool) :
    pattern.matchAt? cursor advance =
      (pattern.part.ends ⟨cursor, []⟩).head?.map fun finish => ⟨cursor, finish⟩ := by
  have accepted : ∀ found ∈ pattern.part.ends ⟨cursor, []⟩,
      ¬(advance && found.cursor.index == cursor.index) = true := by
    intro found member same
    rcases pattern.part.spells_of_mem_ends _ found member with ⟨word, spells, passes⟩
    have index := passes.index
    have length := List.length_pos_of_ne_nil (Part.ne_nil_of_spells solid.nonempty spells)
    rw [Bool.and_eq_true, beq_iff_eq] at same
    simp only at index
    omega
  rw [matchAt?, Part.run_eq_findSome?, ← findSome?_some, ← List.head?_filterMap,
    ← List.head?_filterMap]
  congr 2
  apply List.filterMap_congr
  intro found member
  exact if_neg (accepted found member)

/-- A match lies where it was looked for, and it is a word of its pattern. -/
theorem passes_of_matchAt? (solid : pattern.IsSolid) {cursor : Cursor} {advance : Bool}
    {found : Found} (matched : pattern.matchAt? cursor advance = some found) :
    cursor.Passes found.text found.finish.cursor ∧ pattern.part.Spells found.text := by
  rw [matchAt?_eq solid, Option.map_eq_some_iff] at matched
  rcases matched with ⟨finish, first, rfl⟩
  rcases pattern.part.spells_of_mem_ends _ finish (List.mem_of_head? first) with
    ⟨word, spells, passes⟩
  have text : Found.text ⟨cursor, finish⟩ = word := passes.textTo
  rw [text]
  exact ⟨passes, spells⟩

/-- The same view from a place in a wide text and from one in a narrow text that it extends, when
no match of the wide one reaches into the tail. -/
theorem map_view_matchAt? (solid : pattern.IsSolid) {tail : List Char} {shift : Nat}
    {wide narrow : Cursor} (alike : SeesAlike tail shift ⟨wide, []⟩ ⟨narrow, []⟩)
    (before : ∀ found ∈ pattern.part.ends ⟨wide, []⟩, isBefore tail found = true)
    (advance : Bool) :
    (pattern.matchAt? wide advance).map Found.view =
      (pattern.matchAt? narrow false).map Found.view := by
  have sameEnds := Part.ends_alike solid.plain alike
  rw [EndsAlike, List.filter_eq_self.mpr before] at sameEnds
  rw [matchAt?_eq solid, matchAt?_eq solid]
  cases wideEnds : pattern.part.ends ⟨wide, []⟩ with
  | nil =>
    rw [wideEnds, List.forall₂_nil_left_iff] at sameEnds
    rw [sameEnds]
    rfl
  | cons found rest =>
    cases narrowEnds : pattern.part.ends ⟨narrow, []⟩ with
    | nil =>
      rw [wideEnds, narrowEnds] at sameEnds
      cases sameEnds
    | cons narrowFound narrowRest =>
      rw [wideEnds, narrowEnds] at sameEnds
      have first := (List.forall₂_cons.mp sameEnds).1
      have member : found ∈ pattern.part.ends ⟨wide, []⟩ := by
        rw [wideEnds]
        exact List.mem_cons_self
      rcases pattern.part.spells_of_mem_ends _ found member with ⟨word, -, passes⟩
      have captures := (record_alike alike first passes 0).captures
      simp only [Match.record, List.cons.injEq, Prod.mk.injEq] at captures
      simp only [List.head?_cons, Option.map_some, Found.view, Found.text, captures]

theorem glimpse_of_matchAt? (solid : pattern.IsSolid) (cursor : Cursor) (advance : Bool) :
    (pattern.matchAt? cursor advance).map Found.view = pattern.glimpse cursor.after := by
  have alike : SeesAlike [] cursor.index ⟨cursor, []⟩ ⟨.start cursor.after, []⟩ :=
    ⟨(List.append_nil _).symm, (Nat.zero_add _).symm, rfl⟩
  exact map_view_matchAt? solid alike (fun _ _ => decide_eq_true (Nat.zero_le _)) advance

theorem spells_of_glimpse (solid : pattern.IsSolid) {text : List Char} {view : View}
    (glimpsed : pattern.glimpse text = some view) :
    pattern.part.Spells view.1 ∧ ∃ rest, text = view.1 ++ rest := by
  rcases Option.map_eq_some_iff.mp glimpsed with ⟨found, matched, rfl⟩
  rcases passes_of_matchAt? solid matched with ⟨passes, spells⟩
  exact ⟨spells, found.finish.cursor.after, passes.after⟩

theorem glimpse_nil (solid : pattern.IsSolid) : pattern.glimpse [] = none := by
  rw [Option.eq_none_iff_forall_ne_some]
  intro view glimpsed
  rcases spells_of_glimpse solid glimpsed with ⟨spells, rest, split⟩
  exact Part.ne_nil_of_spells solid.nonempty spells (List.append_eq_nil_iff.mp split.symm).1

/-- No word of a pattern goes on into a text. -/
def Avoids (pattern : Pattern) (tail : List Char) : Prop :=
  ∀ front back, pattern.part.Spells (front ++ back) → back <+: tail → back = []

theorem glimpse_append (solid : pattern.IsSolid) {tail : List Char} (avoids : pattern.Avoids tail)
    (text : List Char) : pattern.glimpse (text ++ tail) = pattern.glimpse text := by
  have alike : SeesAlike tail 0 ⟨.start (text ++ tail), []⟩ ⟨.start text, []⟩ := ⟨rfl, rfl, rfl⟩
  refine map_view_matchAt? solid alike (fun found member => ?_) false
  rcases pattern.part.spells_of_mem_ends _ found member with ⟨word, spells, passes⟩
  have whole : text ++ tail = word ++ found.cursor.after := passes.after
  rw [isBefore, decide_eq_true_eq]
  rcases List.append_eq_append_iff.mp whole with ⟨back, split, behind⟩ | ⟨back, split, behind⟩
  · rw [split] at spells
    have stays := avoids text back spells (behind ▸ List.prefix_append back _)
    rw [behind, stays]
    exact Nat.le_refl _
  · rw [behind, List.length_append]
    exact Nat.le_add_left _ _

/-! ## Whole texts -/

theorem seenFrom_eq_drop (pattern : Pattern) (covered : Nat) (text : List Char) :
    pattern.seenFrom covered text = pattern.seen (text.drop covered) := by
  induction text generalizing covered with
  | nil => rw [List.drop_nil]; rfl
  | cons c rest induction =>
    cases covered with
    | zero => rfl
    | succ covered => exact induction covered

theorem seen_of_glimpse {c : Char} {rest : List Char} {view : View}
    (glimpsed : pattern.glimpse (c :: rest) = some view) :
    pattern.seen (c :: rest) = view :: pattern.seenFrom (view.1.length - 1) rest := by
  rw [seen, seenFrom, glimpsed]

theorem seen_of_glimpse_eq_none {c : Char} {rest : List Char}
    (none : pattern.glimpse (c :: rest) = none) :
    pattern.seen (c :: rest) = pattern.seen rest := by
  rw [seen, seenFrom, none]
  rfl

/-- What a search at the beginning of a text says about all that is seen in it. -/
def Finds (pattern : Pattern) (text : List Char) : Option Found → Prop
  | none => pattern.seen text = []
  | some found =>
    pattern.seen text = found.view :: pattern.seen found.finish.cursor.after ∧
      found.finish.cursor.after.length < text.length

theorem finds_searchFrom? (solid : pattern.IsSolid) (text : List Char) {cursor : Cursor}
    (ahead : cursor.after = text) (advance : Bool) :
    pattern.Finds text (pattern.searchFrom? text.length cursor advance) := by
  induction text generalizing cursor advance with
  | nil =>
    have here := glimpse_of_matchAt? solid cursor advance
    rw [ahead, glimpse_nil solid, Option.map_eq_none_iff] at here
    rw [List.length_nil]
    unfold searchFrom?
    rw [here]
    rfl
  | cons c rest induction =>
    have here := glimpse_of_matchAt? solid cursor advance
    rw [ahead] at here
    rw [List.length_cons]
    unfold searchFrom?
    cases matched : pattern.matchAt? cursor advance with
    | some found =>
      rw [matched, Option.map_some] at here
      rcases passes_of_matchAt? solid matched with ⟨passes, spells⟩
      have whole : c :: rest = found.text ++ found.finish.cursor.after := ahead ▸ passes.after
      cases text : found.text with
      | nil => exact absurd text (Part.ne_nil_of_spells solid.nonempty spells)
      | cons first more =>
        have behind : rest = more ++ found.finish.cursor.after := by
          rw [text, List.cons_append, List.cons.injEq] at whole
          exact whole.2
        have length : found.view.1.length - 1 = more.length := by
          rw [Found.view, text, List.length_cons, Nat.add_sub_cancel]
        refine ⟨?_, ?_⟩
        · rw [seen_of_glimpse here.symm, seenFrom_eq_drop, length, behind, List.drop_left]
        · rw [behind, List.length_cons, List.length_append]
          omega
    | none =>
      rw [matched, Option.map_none] at here
      have next : cursor.next? = some (c, ⟨c :: cursor.before, rest, cursor.index + 1⟩) := by
        rw [Cursor.next?, ahead]
      rw [next]
      simp only
      generalize behind : Cursor.mk (c :: cursor.before) rest (cursor.index + 1) = beyond
      have later := induction (congrArg Cursor.after behind).symm false
      cases searched : pattern.searchFrom? rest.length beyond false with
      | none =>
        rw [searched] at later
        exact (seen_of_glimpse_eq_none here.symm).trans later
      | some found =>
        rw [searched] at later
        exact ⟨(seen_of_glimpse_eq_none here.symm).trans later.1, Nat.lt_succ_of_lt later.2⟩

theorem map_view_findFrom (solid : pattern.IsSolid) {bound : Nat} {cursor : Cursor}
    (enough : cursor.after.length < bound) (advance : Bool) :
    (pattern.findFrom bound cursor advance).map Found.view = pattern.seen cursor.after := by
  induction bound generalizing cursor advance with
  | zero => cases enough
  | succ bound induction =>
    have finds := finds_searchFrom? solid cursor.after rfl advance
    rw [findFrom]
    cases searched : pattern.searchFrom? cursor.after.length cursor advance with
    | none =>
      rw [searched] at finds
      exact finds.symm
    | some found =>
      rw [searched] at finds
      have fewer := finds.2
      simp only
      rw [List.map_cons, induction (by omega), finds.1]

theorem map_view_findAll (solid : pattern.IsSolid) (text : List Char) :
    (pattern.findAll text).map Found.view = pattern.seen text := by
  have enough : (Cursor.start text).after.length < 2 * text.length + 2 := by
    change text.length < 2 * text.length + 2
    omega
  exact map_view_findFrom solid enough false

theorem occursIn_eq (solid : pattern.IsSolid) (text : List Char) :
    pattern.occursIn text = !(pattern.seen text).isEmpty := by
  have finds : pattern.Finds text (pattern.searchFrom? text.length (.start text) false) :=
    finds_searchFrom? solid text rfl false
  rw [occursIn, search?]
  cases searched : pattern.searchFrom? text.length (.start text) false with
  | none =>
    rw [searched] at finds
    rw [show pattern.seen text = [] from finds]
    rfl
  | some found =>
    rw [searched] at finds
    rw [finds.1]
    rfl

/-! ## Cutting a text -/

/-- A character that begins no word can be left out at the beginning. -/
theorem seen_cons_of_not (solid : pattern.IsSolid) {c : Char}
    (other : ∀ behind, ¬pattern.part.Spells (c :: behind)) (rest : List Char) :
    pattern.seen (c :: rest) = pattern.seen rest := by
  apply seen_of_glimpse_eq_none
  rw [Option.eq_none_iff_forall_ne_some]
  intro view glimpsed
  rcases spells_of_glimpse solid glimpsed with ⟨spells, behind, split⟩
  cases word : view.1 with
  | nil => exact Part.ne_nil_of_spells solid.nonempty spells word
  | cons first more =>
    rw [word, List.cons_append, List.cons.injEq] at split
    rw [word, ← split.1] at spells
    exact other more spells

theorem seen_eq_nil (solid : pattern.IsSolid) {text : List Char}
    (other : ∀ c ∈ text, ∀ behind, ¬pattern.part.Spells (c :: behind)) :
    pattern.seen text = [] := by
  induction text with
  | nil => rfl
  | cons c rest induction =>
    rw [seen_cons_of_not solid (other c List.mem_cons_self)]
    exact induction fun other' member => other other' (List.mem_cons_of_mem c member)

theorem seenFrom_append (solid : pattern.IsSolid) {tail : List Char}
    (avoids : pattern.Avoids tail) {covered : Nat} {text : List Char}
    (within : covered ≤ text.length) :
    pattern.seenFrom covered (text ++ tail) =
      pattern.seenFrom covered text ++ pattern.seen tail := by
  induction text generalizing covered with
  | nil =>
    rw [Nat.le_zero.mp within]
    rfl
  | cons c rest induction =>
    rw [List.length_cons] at within
    cases covered with
    | succ covered => exact induction (by omega)
    | zero =>
      have same : pattern.glimpse (c :: (rest ++ tail)) = pattern.glimpse (c :: rest) :=
        glimpse_append solid avoids (c :: rest)
      rw [List.cons_append, seenFrom, seenFrom, same]
      cases glimpsed : pattern.glimpse (c :: rest) with
      | none => exact induction (Nat.zero_le _)
      | some view =>
        rcases spells_of_glimpse solid glimpsed with ⟨-, behind, split⟩
        have length := congrArg List.length split
        rw [List.length_cons, List.length_append] at length
        simp only
        rw [induction (by omega), List.cons_append]

theorem seen_append (solid : pattern.IsSolid) {tail : List Char} (avoids : pattern.Avoids tail)
    (text : List Char) : pattern.seen (text ++ tail) = pattern.seen text ++ pattern.seen tail :=
  seenFrom_append solid avoids (Nat.zero_le _)

/-- Where no word holds a line feed, a text is searched line by line. -/
theorem seen_unlines (solid : pattern.IsSolid)
    (inLine : ∀ word, pattern.part.Spells word → '\n' ∉ word) (items : List (List Char)) :
    pattern.seen (Text.unlines items) = items.flatMap pattern.seen := by
  induction items with
  | nil => rfl
  | cons line rest induction =>
    by_cases single : rest = []
    · rw [single, Text.unlines_singleton, List.flatMap_cons, List.flatMap_nil, List.append_nil]
    · have avoids : pattern.Avoids ('\n' :: Text.unlines rest) := by
        intro front back spells ahead
        cases back with
        | nil => rfl
        | cons c back =>
          have newline : c = '\n' := (List.cons_prefix_cons.mp ahead).1
          have inWord : c ∈ front ++ c :: back := List.mem_append_right front List.mem_cons_self
          exact absurd (newline ▸ inWord) (inLine _ spells)
      have notFirst : ∀ behind, ¬pattern.part.Spells ('\n' :: behind) :=
        fun behind spells => inLine _ spells List.mem_cons_self
      rw [Text.unlines_cons single, seen_append solid avoids, seen_cons_of_not solid notFirst,
        induction, List.flatMap_cons]

theorem occursIn_eq_any_lines (solid : pattern.IsSolid)
    (inLine : ∀ word, pattern.part.Spells word → '\n' ∉ word) (text : List Char) :
    pattern.occursIn text = !((Text.lines text).flatMap pattern.seen).isEmpty := by
  rw [occursIn_eq solid, ← seen_unlines solid inLine, Text.unlines_lines]

end Pattern

end DocAudit
