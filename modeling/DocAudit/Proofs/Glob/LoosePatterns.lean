import DocAudit.Proofs.Faults
import DocAudit.Proofs.Glob.Language
import DocAudit.Proofs.Text.Lines
import DocAudit.Value.Access

/-!
What a loose pattern describes, told without looking for anything: the pieces between its asterisks
stand in the path one after another, and no line feed stands between two of them. A pattern without
an asterisk is the case of one piece. An asterisk in the place of some characters, or of none,
describes all paths of one line that these characters described.
-/

namespace DocAudit

namespace LoosePattern

/-- Pieces one after another in a text: anything may stand before the first and behind the last,
and characters of one line between two of them. -/
def IsPlaced : List (List Char) → List Char → Prop
  | [], _ => True
  | first :: rest, text =>
    ∃ before gaps after, gaps.length = rest.length ∧ (∀ gap ∈ gaps, '\n' ∉ gap) ∧
      text = before ++ first ++ (List.zipWith (· ++ ·) gaps rest).flatten ++ after

/-! ## Looking for pieces -/

theorem mem_ends {text last : List Char} : last ∈ ends text ↔ ∃ before, text = before ++ last := by
  induction text with
  | nil => simp [ends]
  | cons c text induction =>
    rw [ends, List.mem_cons, induction]
    constructor
    · rintro (rfl | ⟨before, rfl⟩)
      · exact ⟨[], rfl⟩
      · exact ⟨c :: before, rfl⟩
    · rintro ⟨before, cut⟩
      cases before with
      | nil => exact .inl cut.symm
      | cons first before => exact .inr ⟨before, (List.cons.inj cut).2⟩

theorem isPrefixOf_and_drop_iff {piece text : List Char} {further : List Char → Bool} :
    (piece.isPrefixOf text && further (text.drop piece.length)) = true ↔
      ∃ rest, text = piece ++ rest ∧ further rest = true := by
  rw [Bool.and_eq_true, List.isPrefixOf_iff_prefix]
  constructor
  · rintro ⟨⟨rest, rfl⟩, holds⟩
    exact ⟨rest, rfl, by rwa [List.drop_left] at holds⟩
  · rintro ⟨rest, rfl, holds⟩
    exact ⟨List.prefix_append piece rest, by rwa [List.drop_left]⟩

theorem follows_iff {pieces : List (List Char)} {text : List Char} :
    follows pieces text = true ↔
      ∃ gaps after, gaps.length = pieces.length ∧ (∀ gap ∈ gaps, '\n' ∉ gap) ∧
        text = (List.zipWith (· ++ ·) gaps pieces).flatten ++ after := by
  induction pieces generalizing text with
  | nil => simp [follows]
  | cons piece pieces induction =>
    simp only [follows, List.any_eq_true, Glob.mem_behindRun, isPrefixOf_and_drop_iff, induction]
    constructor
    · rintro ⟨_, ⟨gap, inLine, rfl⟩, _, rfl, gaps, after, length, inLines, rfl⟩
      refine ⟨gap :: gaps, after, by simp [length], ?_, by simp⟩
      rw [List.forall_mem_cons]
      exact ⟨fun newline => by simpa using inLine _ newline, inLines⟩
    · rintro ⟨gaps, after, length, inLines, rfl⟩
      cases gaps with
      | nil => cases length
      | cons gap gaps =>
        obtain ⟨inLine, inLines⟩ := List.forall_mem_cons.mp inLines
        refine ⟨_, ⟨gap, fun c member => ?_, by simp only [List.zipWith_cons_cons,
          List.flatten_cons, List.append_assoc]⟩, _, rfl, gaps, after, by simpa using length,
          inLines, rfl⟩
        exact bne_iff_ne.mpr fun newline => inLine (newline ▸ member)

theorem occursIn_iff_isPlaced {pattern path : String} :
    occursIn pattern path = true ↔ IsPlaced (pattern.toList.splitOn '*') path.toList := by
  rw [occursIn]
  cases pattern.toList.splitOn '*' with
  | nil => exact iff_of_true rfl trivial
  | cons first rest =>
    simp only [List.any_eq_true, mem_ends, isPrefixOf_and_drop_iff, follows_iff]
    constructor
    · rintro ⟨_, ⟨before, cut⟩, _, rfl, gaps, after, length, inLines, rfl⟩
      exact ⟨before, gaps, after, length, inLines, by simp [cut]⟩
    · rintro ⟨before, gaps, after, length, inLines, cut⟩
      exact ⟨_, ⟨before, by rw [cut, List.append_assoc, List.append_assoc]⟩, _, rfl, gaps, after,
        length, inLines, rfl⟩

/-! ## Asterisks one at a time -/

/-- A pattern stands for a text: an asterisk for characters of one line, any other character for
itself. -/
inductive StandsFor : List Char → List Char → Prop where
  | nil : StandsFor [] []
  | asterisk {gap pattern text : List Char} : '\n' ∉ gap → StandsFor pattern text →
      StandsFor ('*' :: pattern) (gap ++ text)
  | letter {c : Char} {pattern text : List Char} : c ≠ '*' → StandsFor pattern text →
      StandsFor (c :: pattern) (c :: text)

theorem standsFor_append_iff {front back text : List Char} :
    StandsFor (front ++ back) text ↔
      ∃ first second, text = first ++ second ∧ StandsFor front first ∧ StandsFor back second := by
  constructor
  · intro stands
    induction front generalizing text with
    | nil => exact ⟨[], text, rfl, .nil, stands⟩
    | cons c front induction =>
      cases stands with
      | asterisk inLine stands =>
        obtain ⟨first, second, rfl, before, behind⟩ := induction stands
        exact ⟨_, second, (List.append_assoc ..).symm, .asterisk inLine before, behind⟩
      | letter notStar stands =>
        obtain ⟨first, second, rfl, before, behind⟩ := induction stands
        exact ⟨c :: first, second, rfl, .letter notStar before, behind⟩
  · rintro ⟨first, second, rfl, before, behind⟩
    induction before with
    | nil => exact behind
    | asterisk inLine _ induction =>
      rw [List.append_assoc]
      exact .asterisk inLine induction
    | letter notStar _ induction => exact .letter notStar induction

theorem standsFor_iff_of_not_mem {piece text : List Char} (noStar : '*' ∉ piece) :
    StandsFor piece text ↔ text = piece := by
  induction piece generalizing text with
  | nil =>
    constructor
    · rintro ⟨⟩
      rfl
    · rintro rfl
      exact .nil
  | cons c piece induction =>
    rw [List.mem_cons, not_or] at noStar
    obtain ⟨notStar, noStar⟩ := noStar
    constructor
    · intro stands
      cases stands with
      | asterisk => exact absurd rfl notStar
      | letter _ stands => rw [(induction noStar).mp stands]
    · rintro rfl
      exact .letter (Ne.symm notStar) ((induction noStar).mpr rfl)

theorem standsFor_asterisk_iff {pattern text : List Char} :
    StandsFor ('*' :: pattern) text ↔
      ∃ gap rest, '\n' ∉ gap ∧ text = gap ++ rest ∧ StandsFor pattern rest := by
  constructor
  · intro stands
    cases stands with
    | asterisk inLine stands => exact ⟨_, _, inLine, rfl, stands⟩
    | letter notStar => exact absurd rfl notStar
  · rintro ⟨gap, rest, inLine, rfl, stands⟩
    exact .asterisk inLine stands

/-- The pieces of a pattern with one asterisk between two of them. -/
theorem standsFor_intercalate_iff {first text : List Char} {rest : List (List Char)}
    (noStars : ∀ piece ∈ first :: rest, '*' ∉ piece) :
    StandsFor (['*'].intercalate (first :: rest)) text ↔
      ∃ gaps, gaps.length = rest.length ∧ (∀ gap ∈ gaps, '\n' ∉ gap) ∧
        text = first ++ (List.zipWith (· ++ ·) gaps rest).flatten := by
  induction rest generalizing first text with
  | nil =>
    rw [List.intercalate_singleton, standsFor_iff_of_not_mem (noStars first List.mem_cons_self)]
    simp
  | cons second rest induction =>
    obtain ⟨noStar, noStars⟩ := List.forall_mem_cons.mp noStars
    rw [List.intercalate_cons_cons, List.append_assoc, List.singleton_append,
      standsFor_append_iff]
    simp only [standsFor_iff_of_not_mem noStar, standsFor_asterisk_iff, induction noStars]
    constructor
    · rintro ⟨_, _, rfl, rfl, gap, _, inLine, rfl, gaps, length, inLines, rfl⟩
      exact ⟨gap :: gaps, by simp [length], List.forall_mem_cons.mpr ⟨inLine, inLines⟩, by simp⟩
    · rintro ⟨gaps, length, inLines, rfl⟩
      cases gaps with
      | nil => cases length
      | cons gap gaps =>
        obtain ⟨inLine, inLines⟩ := List.forall_mem_cons.mp inLines
        exact ⟨first, _, rfl, rfl, gap, _, inLine, by simp only [List.zipWith_cons_cons,
          List.flatten_cons, List.append_assoc], gaps, by simpa using length, inLines, rfl⟩

theorem isPlaced_iff_standsFor {pattern text : List Char} :
    IsPlaced (pattern.splitOn '*') text ↔
      ∃ before middle after, text = before ++ middle ++ after ∧ StandsFor pattern middle := by
  have noStars : ∀ piece ∈ pattern.splitOn '*', '*' ∉ piece :=
    fun _ member => Text.not_mem_of_mem_splitOn member
  have whole : ['*'].intercalate (pattern.splitOn '*') = pattern := List.intercalate_splitOn '*'
  cases pieces : pattern.splitOn '*' with
  | nil => exact absurd pieces (List.splitOnP_ne_nil _ pattern)
  | cons first rest =>
    rw [pieces] at noStars whole
    rw [← whole]
    simp only [IsPlaced, standsFor_intercalate_iff noStars]
    constructor
    · rintro ⟨before, gaps, after, length, inLines, rfl⟩
      exact ⟨before, _, after, by simp only [List.append_assoc], gaps, length, inLines, rfl⟩
    · rintro ⟨before, _, after, rfl, gaps, length, inLines, rfl⟩
      exact ⟨before, gaps, after, length, inLines, by simp only [List.append_assoc]⟩

/-- In a path of one line an asterisk may stand where other characters of a pattern stand. -/
theorem isPlaced_asterisk_of_isPlaced {front piece back path : List Char} (inLine : '\n' ∉ path)
    (placed : IsPlaced ((front ++ piece ++ back).splitOn '*') path) :
    IsPlaced ((front ++ '*' :: back).splitOn '*') path := by
  rw [isPlaced_iff_standsFor] at placed ⊢
  obtain ⟨before, _, after, rfl, stands⟩ := placed
  simp only [standsFor_append_iff] at stands
  obtain ⟨_, last, rfl, ⟨first, gap, rfl, stands, -⟩, standsBehind⟩ := stands
  have inGap : '\n' ∉ gap := fun member => inLine (by simp [member])
  refine ⟨before, first ++ (gap ++ last), after, by simp, ?_⟩
  exact standsFor_append_iff.mpr ⟨first, gap ++ last, rfl, stands, .asterisk inGap standsBehind⟩

theorem isPlaced_singleton {piece text : List Char} : IsPlaced [piece] text ↔ piece <:+: text := by
  constructor
  · rintro ⟨before, gaps, after, length, -, rfl⟩
    obtain rfl := List.eq_nil_of_length_eq_zero length
    exact ⟨before, after, by simp⟩
  · rintro ⟨before, after, rfl⟩
    exact ⟨before, [], after, rfl, nofun, by simp⟩

end LoosePattern

/-! ## Rows of patterns -/

theorem Value.anyMatchesLoosely_ofTexts (patterns : List String) (path : String) :
    (Value.ofTexts patterns).anyMatchesLoosely path =
      .ok (patterns.any (LoosePattern.occursIn · path)) := by
  have asMapped : (Value.ofTexts patterns).anyMatchesLoosely path =
      (patterns.map Value.text).anyM (·.matchesLoosely path) := rfl
  rw [asMapped]
  apply anyM_map_eq_ok_any
  exact fun _ => rfl

/-- A row of loose patterns describes a path where the pieces of one of them stand in it one after
another with no line feed between them; for a pattern without an asterisk that is, where it is a
part of the path. An asterisk for some characters of a pattern, or put between two of them, keeps
each path of one line that the pattern describes. -/
theorem anyMatchesLoosely_iff_isPlaced :
    (∀ (patterns : List String) (path : String),
      ∃ answer, (Value.ofTexts patterns).anyMatchesLoosely path = .ok answer ∧
        (answer = true ↔ ∃ pattern ∈ patterns,
          LoosePattern.IsPlaced (pattern.toList.splitOn '*') path.toList)) ∧
    (∀ pattern path : String, '*' ∉ pattern.toList →
      (LoosePattern.IsPlaced (pattern.toList.splitOn '*') path.toList ↔
        pattern.toList <:+: path.toList)) ∧
    ∀ front piece back path : String, '\n' ∉ path.toList →
      LoosePattern.occursIn (front ++ piece ++ back) path = true →
      LoosePattern.occursIn (front ++ "*" ++ back) path = true := by
  refine ⟨fun patterns path => ?_, fun pattern path noStar => ?_, ?_⟩
  · refine ⟨_, Value.anyMatchesLoosely_ofTexts patterns path, ?_⟩
    simp only [List.any_eq_true, LoosePattern.occursIn_iff_isPlaced]
  · rw [List.splitOn_eq_singleton noStar, LoosePattern.isPlaced_singleton]
  · intro front piece back path inLine described
    rw [LoosePattern.occursIn_iff_isPlaced] at described ⊢
    simp only [String.toList_append] at described ⊢
    simpa using LoosePattern.isPlaced_asterisk_of_isPlaced inLine described

/-- The pieces of the second pattern overlap in the first path and stand apart in the second. -/
theorem anyMatchesLoosely_iff_isPlaced_overlapping :
    let patterns : List String := ["ce", "ab*ba"]
    (Value.ofTexts patterns).anyMatchesLoosely "xaba" = .ok false ∧
      (Value.ofTexts patterns).anyMatchesLoosely "xabcba" = .ok true ∧
      (∃ pattern ∈ patterns,
        LoosePattern.IsPlaced (pattern.toList.splitOn '*') "xabcba".toList) ∧
      '*' ∉ "ce".toList ∧ '\n' ∉ "xabcba".toList ∧
      LoosePattern.occursIn ("ab*" ++ "b" ++ "a") "xabcba" = true ∧
      LoosePattern.occursIn ("ab*" ++ "*" ++ "a") "xabcba" = true := by
  intro patterns
  have overlapping : patterns.any (LoosePattern.occursIn · "xaba") = false := by decide +kernel
  have apart : patterns.any (LoosePattern.occursIn · "xabcba") = true := by decide +kernel
  have missed := Value.anyMatchesLoosely_ofTexts patterns "xaba"
  have found := Value.anyMatchesLoosely_ofTexts patterns "xabcba"
  rw [overlapping] at missed
  rw [apart] at found
  obtain ⟨answer, answered, placed⟩ := anyMatchesLoosely_iff_isPlaced.1 patterns "xabcba"
  obtain rfl := Except.ok.inj (found.symm.trans answered)
  have inLine : '\n' ∉ "xabcba".toList := by decide
  have described : LoosePattern.occursIn ("ab*" ++ "b" ++ "a") "xabcba" = true := by
    decide +kernel
  exact ⟨missed, found, placed.mp rfl, by decide, inLine, described,
    anyMatchesLoosely_iff_isPlaced.2.2 "ab*" "b" "a" "xabcba" inLine described⟩

end DocAudit
