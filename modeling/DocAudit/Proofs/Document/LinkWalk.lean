import DocAudit.Proofs.Document.LinkExpression
import DocAudit.Proofs.Document.Views

/-!
The links of a line as a walk comes to them. A link is told by the places of its brackets and its
parenthesis. From the left, the walk takes the first link that begins where it stands or behind, and
goes on behind the closing parenthesis; so a link that is passed over overlaps one that is taken.
-/

namespace DocAudit

namespace LinkSyntax

/-- The places of the opening bracket, of the closing one and of the closing parenthesis. -/
structure Place where
  opening : Nat
  middle : Nat
  closing : Nat

namespace Place

def text (place : Place) (line : List Char) : List Char :=
  line.extract (place.opening + 1) place.middle

def target (place : Place) (line : List Char) : List Char :=
  line.extract (place.middle + 2) place.closing

def link (place : Place) (line : List Char) (number : Nat) : Link :=
  ⟨place.text line, place.target line, number⟩

end Place

/-- The first place of a character from a place on. -/
structure IsFirstFrom (c : Char) (letters : List Char) (start place : Nat) : Prop where
  behind : start ≤ place
  here : letters[place]? = some c
  first : ∀ earlier, start ≤ earlier → earlier < place → letters[earlier]? ≠ some c

/-- A link stands in a line, with text and target between the first marks that can close them. -/
structure LinksAt (letters : List Char) (place : Place) : Prop where
  opens : letters[place.opening]? = some '['
  closesText : IsFirstFrom ']' letters (place.opening + 1) place.middle
  nonempty : place.opening + 1 < place.middle
  opensTarget : letters[place.middle + 1]? = some '('
  closesTarget : IsFirstFrom ')' letters (place.middle + 2) place.closing
  longer : extension.length < (place.target letters).length
  markdown : extension <:+ place.target letters

/-- The links that a walk takes from a place on. -/
inductive Walk (line : List Char) : Nat → List Place → Prop where
  | finish {start : Nat} :
      (∀ place, LinksAt line place → place.opening < start) → Walk line start []
  | take {start : Nat} {place : Place} {rest : List Place} :
      LinksAt line place → start ≤ place.opening →
      (∀ other, LinksAt line other → other.opening < place.opening → other.opening < start) →
      Walk line (place.closing + 1) rest → Walk line start (place :: rest)

variable {line : List Char} {start : Nat} {place other : Place} {places : List Place}

/-! ## A link and its places -/

theorem drop_eq_cons_iff {c : Char} {letters rest : List Char} :
    letters.drop start = c :: rest ↔ letters[start]? = some c ∧ letters.drop (start + 1) = rest := by
  constructor
  · intro split
    refine ⟨?_, ?_⟩
    · rw [← Nat.add_zero start, ← List.getElem?_drop, split, List.getElem?_cons_zero]
    · rw [← List.drop_drop, split, List.drop_one, List.tail_cons]
  · rintro ⟨here, rfl⟩
    obtain ⟨within, rfl⟩ := List.getElem?_eq_some_iff.mp here
    exact List.drop_eq_getElem_cons within

theorem extract_append_drop {stop : Nat} (inOrder : start ≤ stop) :
    line.extract start stop ++ line.drop stop = line.drop start := by
  have split := List.take_append_drop (stop - start) (line.drop start)
  rwa [List.drop_drop, Nat.add_sub_cancel' inOrder] at split

theorem length_extract {stop : Nat} (within : stop ≤ line.length) :
    (line.extract start stop).length = stop - start := by
  rw [List.extract_eq_take_drop, List.length_take, List.length_drop]
  omega

/-- Where what begins at the start is cut by a character, that is the first place of it. -/
theorem isFirstFrom_of_drop {c : Char} {letters front back : List Char}
    (split : letters.drop start = front ++ c :: back) (absent : c ∉ front) :
    IsFirstFrom c letters start (start + front.length) ∧
      letters.extract start (start + front.length) = front ∧
        letters.drop (start + front.length + 1) = back := by
  have same (index : Nat) : letters[start + index]? = (front ++ c :: back)[index]? := by
    rw [← split, List.getElem?_drop]
  refine ⟨⟨Nat.le_add_right _ _, ?_, ?_⟩, ?_, ?_⟩
  · rw [same, List.getElem?_append_right (Nat.le_refl _), Nat.sub_self, List.getElem?_cons_zero]
  · intro earlier behind before here
    obtain ⟨index, rfl⟩ := Nat.exists_eq_add_of_le behind
    rw [same, List.getElem?_append_left (by omega)] at here
    exact absent (List.mem_of_getElem? here)
  · rw [List.extract_eq_take_drop, split, Nat.add_sub_cancel_left, List.take_left]
  · rw [Nat.add_assoc, ← List.drop_drop, split, List.drop_append, List.drop_of_length_le (by omega),
      Nat.add_sub_cancel_left, List.nil_append, List.drop_one, List.tail_cons]

namespace IsFirstFrom

variable {c : Char} {stop stop' : Nat}

theorem lt_length (isFirst : IsFirstFrom c line start stop) : stop < line.length :=
  (List.getElem?_eq_some_iff.mp isFirst.here).1

theorem not_mem_extract (isFirst : IsFirstFrom c line start stop) :
    c ∉ line.extract start stop := by
  intro member
  obtain ⟨index, here⟩ := List.mem_iff_getElem?.mp member
  have inside : index < stop - start := by
    obtain ⟨inside, -⟩ := List.getElem?_eq_some_iff.mp here
    rwa [length_extract isFirst.lt_length.le] at inside
  rw [List.extract_eq_take_drop, List.getElem?_take_of_lt inside, List.getElem?_drop] at here
  exact isFirst.first (start + index) (by omega) (by omega) here

theorem drop_eq (isFirst : IsFirstFrom c line start stop) :
    line.drop start = line.extract start stop ++ c :: line.drop (stop + 1) := by
  rw [← drop_eq_cons_iff.mpr ⟨isFirst.here, rfl⟩, extract_append_drop isFirst.behind]

theorem unique (isFirst : IsFirstFrom c line start stop)
    (isFirst' : IsFirstFrom c line start stop') : stop = stop' := by
  rcases Nat.lt_trichotomy stop stop' with before | same | after
  · exact absurd isFirst.here (isFirst'.first stop isFirst.behind before)
  · exact same
  · exact absurd isFirst'.here (isFirst.first stop' isFirst'.behind after)

end IsFirstFrom

theorem LinksAt.beginsWith (links : LinksAt line place) :
    BeginsWith (line.drop place.opening) (place.text line) (place.target line)
      (line.drop (place.closing + 1)) where
  written := by
    rw [drop_eq_cons_iff.mpr ⟨links.opens, rfl⟩, links.closesText.drop_eq,
      drop_eq_cons_iff.mpr ⟨links.opensTarget, rfl⟩, links.closesTarget.drop_eq]
    rfl
  nonempty := by
    apply List.ne_nil_of_length_pos
    rw [Place.text, length_extract links.closesText.lt_length.le]
    exact Nat.sub_pos_of_lt links.nonempty
  inBrackets := links.closesText.not_mem_extract
  inParentheses := links.closesTarget.not_mem_extract
  longer := links.longer
  markdown := links.markdown

theorem exists_linksAt {text target rest : List Char}
    (begins : BeginsWith (line.drop start) text target rest) :
    ∃ place, place.opening = start ∧ LinksAt line place ∧ place.text line = text ∧
      place.target line = target ∧ place.closing + 1 = start + linkLength text target := by
  obtain ⟨opens, behindOpening⟩ := drop_eq_cons_iff.mp begins.written
  obtain ⟨closesText, isText, behindText⟩ := isFirstFrom_of_drop behindOpening begins.inBrackets
  obtain ⟨opensTarget, behindMiddle⟩ := drop_eq_cons_iff.mp behindText
  obtain ⟨closesTarget, isTarget, -⟩ := isFirstFrom_of_drop behindMiddle begins.inParentheses
  have nonempty := List.length_pos_of_ne_nil begins.nonempty
  let place : Place :=
    ⟨start, start + 1 + text.length, start + 1 + text.length + 1 + 1 + target.length⟩
  have targetHere : place.target line = target := isTarget
  refine ⟨place, rfl, ⟨opens, closesText, ?_, opensTarget, closesTarget, ?_, ?_⟩, isText,
    targetHere, ?_⟩
  · exact Nat.lt_add_of_pos_right nonempty
  · rw [targetHere]
    exact begins.longer
  · rw [targetHere]
    exact begins.markdown
  · simp only [place, linkLength]
    omega

/-- The opening bracket tells the other places. -/
theorem LinksAt.unique (links : LinksAt line place) (links' : LinksAt line other)
    (same : place.opening = other.opening) : place = other := by
  obtain ⟨opening, middle, closing⟩ := place
  obtain ⟨opening', middle', closing'⟩ := other
  obtain rfl : opening = opening' := same
  obtain rfl : middle = middle' := links.closesText.unique links'.closesText
  obtain rfl : closing = closing' := links.closesTarget.unique links'.closesTarget
  rfl

theorem LinksAt.opening_lt (links : LinksAt line place) :
    place.opening < place.middle ∧ place.middle + 1 < place.closing := by
  have behind := links.nonempty
  have behind' := links.closesTarget.behind
  omega

/-! ## The walk -/

namespace Walk

/-- There is one walk from each place. -/
theorem unique {places' : List Place} (walk : Walk line start places)
    (walk' : Walk line start places') : places' = places := by
  induction walk generalizing places' with
  | finish none =>
    cases walk' with
    | finish _ => rfl
    | @take _ place _ links behind _ _ => exact absurd (none place links) (Nat.not_lt.mpr behind)
  | @take start place rest links behind first _ induction =>
    cases walk' with
    | finish none => exact absurd (none place links) (Nat.not_lt.mpr behind)
    | @take _ place' rest' links' behind' first' further' =>
      have same : place.opening = place'.opening := by
        by_contra apart
        rcases Nat.lt_or_gt_of_ne apart with before | after
        · exact Nat.not_lt.mpr behind (first' place links before)
        · exact Nat.not_lt.mpr behind' (first place' links' after)
      obtain rfl := links.unique links' same
      rw [induction further']

/-- A walk goes on from the next place where no link begins here. -/
theorem of_succ (none : ∀ place, LinksAt line place → place.opening ≠ start)
    (walk : Walk line (start + 1) places) : Walk line start places := by
  cases walk with
  | finish nowhere =>
    refine .finish fun place links => ?_
    have before := nowhere place links
    have apart := none place links
    omega
  | take links behind first further =>
    refine .take links (Nat.le_of_succ_le behind) (fun other links' before => ?_) further
    have before' := first other links' before
    have apart := none other links'
    omega

/-- A link that is passed over overlaps one that is taken and begins before it. -/
theorem mem_or_overlaps (walk : Walk line start places) (links : LinksAt line place)
    (behind : start ≤ place.opening) :
    place ∈ places ∨ ∃ taken ∈ places,
      taken.opening < place.opening ∧ place.opening ≤ taken.closing := by
  induction walk with
  | finish none => exact absurd (none place links) (Nat.not_lt.mpr behind)
  | @take start taken rest links' _ first _ induction =>
    rcases Nat.lt_trichotomy place.opening taken.opening with before | same | after
    · exact absurd (first place links before) (Nat.not_lt.mpr behind)
    · exact .inl (links.unique links' same ▸ List.mem_cons_self)
    · by_cases inside : place.opening ≤ taken.closing
      · exact .inr ⟨taken, List.mem_cons_self, after, inside⟩
      · rcases induction (by omega) with member | ⟨other, member, overlaps⟩
        · exact .inl (List.mem_cons_of_mem taken member)
        · exact .inr ⟨other, List.mem_cons_of_mem taken member, overlaps⟩

end Walk

theorem linksFrom_eq_drop (covered : Nat) (line : List Char) :
    linksFrom covered line = links (line.drop covered) := by
  induction line generalizing covered with
  | nil => rw [List.drop_nil]; rfl
  | cons c rest induction =>
    cases covered with
    | zero => rfl
    | succ covered => exact induction covered

/-- The links of a line are those that the walk takes. -/
theorem exists_walk (line : List Char) (start : Nat) :
    ∃ places, Walk line start places ∧
      links (line.drop start) = places.map fun place => (place.text line, place.target line) := by
  induction left : line.length - start using Nat.strong_induction_on generalizing start with
  | _ left induction =>
    subst left
    cases ahead : line.drop start with
    | nil =>
      have atEnd : line.length ≤ start := List.drop_eq_nil_iff.mp ahead
      refine ⟨[], .finish fun place links => ?_, rfl⟩
      exact Nat.lt_of_lt_of_le (List.getElem?_eq_some_iff.mp links.opens).1 atEnd
    | cons c rest =>
      obtain ⟨here, rfl⟩ := drop_eq_cons_iff.mp ahead
      have within := (List.getElem?_eq_some_iff.mp here).1
      rw [links, linksFrom]
      cases found : linkAt? (c :: line.drop (start + 1)) with
      | none =>
        obtain ⟨places, walk, taken⟩ := induction (line.length - (start + 1)) (by omega) _ rfl
        refine ⟨places, walk.of_succ fun place links same => ?_, taken⟩
        have begins := links.beginsWith
        rw [same, ahead] at begins
        rw [linkAt?_of_beginsWith begins] at found
        cases found
      | some link =>
        obtain ⟨behind, begins⟩ := beginsWith_of_linkAt? (found : _ = some (link.1, link.2))
        rw [← ahead] at begins
        obtain ⟨place, rfl, links, isText, isTarget, closes⟩ := exists_linksAt begins
        have inOrder := links.opening_lt
        obtain ⟨places, walk, taken⟩ :=
          induction (line.length - (place.closing + 1)) (by omega) _ rfl
        refine ⟨place :: places, .take links (Nat.le_refl _) (fun _ _ before => before) walk, ?_⟩
        have next : place.opening + 1 + (linkLength link.1 link.2 - 1) = place.closing + 1 := by
          omega
        simp only [List.map_cons, isText, isTarget, linksFrom_eq_drop, List.drop_drop, next, taken]

end LinkSyntax

/-! ## The links of a document -/

open LinkSyntax

theorem filter_links_numberLines {number index : Nat} {inBlock : Bool} {items : List (List Char)}
    {line : List Char} (here : items[index]? = some line) :
    ((numberLines number inBlock items).flatMap Line.links).filter (·.line == number + index) =
      (links line).map fun link => ⟨link.1, link.2, number + index⟩ := by
  induction items generalizing number index inBlock with
  | nil => cases here
  | cons text rest induction =>
    rw [numberLines, List.flatMap_cons, List.filter_append]
    cases index with
    | zero =>
      obtain rfl : text = line := Option.some.inj here
      have own : (Line.links ⟨number, lineKind inBlock text, text⟩).filter (·.line == number) =
          Line.links ⟨number, lineKind inBlock text, text⟩ := by
        rw [List.filter_eq_self]
        exact fun link member => beq_iff_eq.mpr (line_of_mem_links member)
      have later : ((numberLines (number + 1) (inBlockAfter inBlock text) rest).flatMap
          Line.links).filter (·.line == number) = [] := by
        rw [List.filter_eq_nil_iff]
        intro link member same
        obtain ⟨line, inLines, onLine⟩ := List.mem_flatMap.mp member
        have after := number_le_of_mem_numberLines inLines
        rw [beq_iff_eq, line_of_mem_links onLine] at same
        omega
      rw [Nat.add_zero, own, later, List.append_nil]
      rfl
    | succ index =>
      have before : (Line.links ⟨number, lineKind inBlock text, text⟩).filter
          (·.line == number + (index + 1)) = [] := by
        rw [List.filter_eq_nil_iff]
        intro link member same
        rw [beq_iff_eq, line_of_mem_links member] at same
        simp only at same
        omega
      have next : number + (index + 1) = number + 1 + index := by omega
      rw [before, List.nil_append, next]
      exact induction here

/-- What a document records of the links of its lines. -/
structure Document.RecordsLinks (document : Document) (lines : List (List Char)) : Prop where
  onLine : ∀ index line, lines[index]? = some line → ∃ places, Walk line 0 places ∧
    (∀ others, Walk line 0 others → others = places) ∧
    document.links.filter (·.line == index + 1) = places.map (·.link line (index + 1)) ∧
    ∀ place, LinksAt line place → place ∈ places ∨
      ∃ taken ∈ places, taken.opening < place.opening ∧ place.opening ≤ taken.closing
  byExpression : ∃ pattern, Pattern.parse expressionText.toList = .ok pattern ∧
    ∀ index line, lines[index]? = some line →
      (document.links.filter (·.line == index + 1)).map (fun link =>
        (some link.text, some link.target)) = (pattern.findAll line).map captured
  numbered : ∀ link ∈ document.links, 1 ≤ link.line ∧ link.line ≤ lines.length
  inOrder : document.links.Pairwise (·.line ≤ ·.line)

/-- On each line of a text, in code or not, the links are those that the walk from its beginning
takes, and the matches of the expression; so a link is missed only where it overlaps one that is
taken. -/
theorem Document.ofText_records_links (file : String) (text : List Char) :
    (Document.ofText file text).RecordsLinks (Text.lines text) := by
  have recorded {index : Nat} {line : List Char} (here : (Text.lines text)[index]? = some line) :
      (Document.ofText file text).links.filter (·.line == index + 1) =
        (LinkSyntax.links line).map fun link => ⟨link.1, link.2, index + 1⟩ := by
    rw [Nat.add_comm]
    exact filter_links_numberLines here
  refine ⟨fun index line here => ?_, ⟨_, parse_expression, fun index line here => ?_⟩, ?_,
    pairwise_line_links file text⟩
  · obtain ⟨places, walk, taken⟩ := exists_walk line 0
    refine ⟨places, walk, fun others walk' => walk.unique walk', ?_, fun place links =>
      walk.mem_or_overlaps links (Nat.zero_le _)⟩
    rw [recorded here, show LinkSyntax.links line = _ from taken, List.map_map]
    rfl
  · rw [recorded here, map_captured_findAll, List.map_map]
    rfl
  · intro link member
    obtain ⟨line, inLines, onLine⟩ := List.mem_flatMap.mp member
    have least := number_le_of_mem_numberLines inLines
    have place := (List.getElem?_eq_some_iff.mp (getElem?_number_numberLines inLines)).1
    rw [length_numberLines] at place
    rw [line_of_mem_links onLine]
    omega

end DocAudit
