import DocAudit.Proofs.Document.Headings
import DocAudit.Proofs.Document.ReadDocuments
import DocAudit.Proofs.Pairs
import DocAudit.Rules.Outline
import Mathlib

/-!
Headings that skip a level on the way down. The check compares each heading with the one before it
only. That is enough for the whole outline: where no step down is longer than one level, each level
between two headings is met on the way from the upper one to the lower one.
-/

namespace DocAudit.Outline

variable {file : String} {text : List Char} {before heading : Heading}
  {headings rest : List Heading}

/-! ## Neighbours -/

/-- Each heading but the first, behind the one before it. -/
def neighbours (headings : List Heading) : List (Heading × Heading) :=
  headings.zip headings.tail

/-- The second heading lies more than one level below the first. -/
def SkipsLevel (step : Heading × Heading) : Prop :=
  step.1.level + 1 < step.2.level

instance : DecidablePred SkipsLevel :=
  fun step => inferInstanceAs (Decidable (step.1.level + 1 < step.2.level))

def skips (headings : List Heading) : List (Heading × Heading) :=
  (neighbours headings).filter (SkipsLevel ·)

theorem neighbours_cons_cons (before heading : Heading) (rest : List Heading) :
    neighbours (before :: heading :: rest) = (before, heading) :: neighbours (heading :: rest) :=
  rfl

theorem jumps_eq (file : String) (headings : List Heading) :
    jumps file headings = (skips headings).map fun step => jumpFinding file step.1 step.2 := by
  induction headings with
  | nil => rfl
  | cons before rest induction =>
    cases rest with
    | nil => rfl
    | cons heading rest =>
      rw [jumps, induction, skips, skips, neighbours_cons_cons, List.filter_cons]
      by_cases skipped : SkipsLevel (before, heading)
      · rw [if_pos (decide_eq_true skipped)]
        exact if_pos skipped
      · rw [if_neg (mt of_decide_eq_true skipped)]
        exact if_neg skipped

theorem line_le_of_mem {first : Heading} (sorted : (first :: rest).Pairwise (·.line < ·.line))
    (member : heading ∈ first :: rest) : first.line ≤ heading.line := by
  rcases List.mem_cons.mp member with rfl | member
  · exact Nat.le_refl _
  · exact Nat.le_of_lt ((List.pairwise_cons.mp sorted).1 heading member)

theorem mem_tail_of_earlier {first : Heading} (sorted : (first :: rest).Pairwise (·.line < ·.line))
    (member : before ∈ first :: rest) (member' : heading ∈ first :: rest)
    (earlier : before.line < heading.line) : heading ∈ rest := by
  refine (List.mem_cons.mp member').resolve_left ?_
  rintro rfl
  exact Nat.not_le_of_lt earlier (line_le_of_mem sorted member)

/-- In the order of their lines, two headings are neighbours if none stands between them. -/
theorem mem_neighbours_iff (sorted : headings.Pairwise (·.line < ·.line)) :
    (before, heading) ∈ neighbours headings ↔
      before ∈ headings ∧ heading ∈ headings ∧ before.line < heading.line ∧
        ∀ other ∈ headings, before.line < other.line → heading.line ≤ other.line := by
  induction headings with
  | nil => simp [neighbours]
  | cons first rest induction =>
    obtain ⟨behindFirst, sortedRest⟩ := List.pairwise_cons.mp sorted
    cases rest with
    | nil =>
      refine iff_of_false List.not_mem_nil ?_
      rintro ⟨member, member', earlier, -⟩
      exact List.not_mem_nil (mem_tail_of_earlier sorted member member' earlier)
    | cons second rest =>
      rw [neighbours_cons_cons, List.mem_cons, induction sortedRest, Prod.mk.injEq]
      constructor
      · rintro (⟨rfl, rfl⟩ | ⟨member, member', earlier, none⟩)
        · refine ⟨List.mem_cons_self, List.mem_cons_of_mem _ List.mem_cons_self,
            behindFirst _ List.mem_cons_self, fun other among later => ?_⟩
          exact line_le_of_mem sortedRest
            (mem_tail_of_earlier sorted List.mem_cons_self among later)
        · have inAll := List.mem_cons_of_mem first member
          exact ⟨inAll, List.mem_cons_of_mem _ member', earlier, fun other among later =>
            none other (mem_tail_of_earlier sorted inAll among later) later⟩
      · rintro ⟨member, member', earlier, none⟩
        have behind := mem_tail_of_earlier sorted member member' earlier
        rcases List.mem_cons.mp member with rfl | member
        · left
          refine ⟨rfl, ?_⟩
          have notLater := none second (by simp) (behindFirst second List.mem_cons_self)
          rcases List.mem_cons.mp behind with rfl | behind
          · rfl
          · have later := (List.pairwise_cons.mp sortedRest).1 heading behind
            exact absurd later (Nat.not_lt.mpr notLater)
        · exact .inr ⟨member, behind, earlier,
            fun other among => none other (List.mem_cons_of_mem _ among)⟩

theorem pairwise_neighbours (sorted : headings.Pairwise (·.line < ·.line)) :
    (neighbours headings).Pairwise fun left right => left.2.line < right.2.line := by
  have seconds : ((neighbours headings).map Prod.snd).Pairwise (·.line < ·.line) := by
    rw [neighbours, List.map_snd_zip (by simp)]
    exact sorted.sublist (List.tail_sublist headings)
  rwa [List.pairwise_map] at seconds

/-! ## The whole outline -/

/-- A level below the first heading and above a later one is met between them. -/
theorem exists_between (sorted : (before :: rest).Pairwise (·.line < ·.line))
    (steps : ∀ step ∈ neighbours (before :: rest), ¬ SkipsLevel step) (member : heading ∈ rest)
    {level : Nat} (below : before.level < level) (above : level < heading.level) :
    ∃ between ∈ rest, between.line < heading.line ∧ between.level = level := by
  induction rest generalizing before with
  | nil => cases member
  | cons next rest induction =>
    rw [neighbours_cons_cons, List.forall_mem_cons] at steps
    obtain ⟨first, further⟩ := steps
    have sortedRest := (List.pairwise_cons.mp sorted).2
    have step : next.level ≤ before.level + 1 := Nat.not_lt.mp first
    have behind : heading ∈ rest := by
      rcases List.mem_cons.mp member with rfl | behind
      · omega
      · exact behind
    rcases Nat.lt_or_ge next.level level with deeper | reached
    · obtain ⟨between, among, earlier, same⟩ := induction sortedRest further behind deeper
      exact ⟨between, List.mem_cons_of_mem _ among, earlier, same⟩
    · exact ⟨next, List.mem_cons_self, (List.pairwise_cons.mp sortedRest).1 heading behind,
        by omega⟩

/-- Each level between those of a heading and a deeper one behind it is met on the way. -/
def MeetsEachLevel (document : Document) : Prop :=
  ∀ upper lower, document.HasHeading upper → document.HasHeading lower → upper.line < lower.line →
    ∀ level, upper.level < level → level < lower.level →
      ∃ between, document.HasHeading between ∧ upper.line < between.line ∧
        between.line < lower.line ∧ between.level = level

theorem exists_between_of_mem (sorted : headings.Pairwise (·.line < ·.line))
    (steps : ∀ step ∈ neighbours headings, ¬ SkipsLevel step) (member : before ∈ headings)
    (member' : heading ∈ headings) (earlier : before.line < heading.line) {level : Nat}
    (below : before.level < level) (above : level < heading.level) :
    ∃ between ∈ headings, before.line < between.line ∧ between.line < heading.line ∧
      between.level = level := by
  induction headings with
  | nil => cases member
  | cons first rest induction =>
    obtain ⟨behindFirst, sortedRest⟩ := List.pairwise_cons.mp sorted
    have stepsRest : ∀ step ∈ neighbours rest, ¬ SkipsLevel step := by
      cases rest with
      | nil => exact nofun
      | cons next rest => exact (List.forall_mem_cons.mp steps).2
    have behind := mem_tail_of_earlier sorted member member' earlier
    rcases List.mem_cons.mp member with rfl | inRest
    · obtain ⟨between, among, passed, same⟩ := exists_between sorted steps behind below above
      exact ⟨between, List.mem_cons_of_mem _ among, behindFirst between among, passed, same⟩
    · obtain ⟨between, among, facts⟩ := induction sortedRest stepsRest inRest behind
      exact ⟨between, List.mem_cons_of_mem _ among, facts⟩

theorem skips_eq_nil_iff (file : String) (text : List Char) :
    skips (Document.ofText file text).headings = [] ↔
      MeetsEachLevel (Document.ofText file text) := by
  have sorted := pairwise_line_headings file text
  simp only [skips, List.filter_eq_nil_iff, decide_eq_true_eq, MeetsEachLevel,
    ← Document.mem_headings_iff]
  constructor
  · intro steps upper lower member member' earlier level below above
    exact exists_between_of_mem sorted steps member member' earlier below above
  · rintro meets ⟨before, heading⟩ neighbour skipped
    obtain ⟨member, member', earlier, none⟩ := (mem_neighbours_iff sorted).mp neighbour
    obtain ⟨between, among, later, passed, -⟩ :=
      meets before heading member member' earlier (before.level + 1) (Nat.lt_succ_self _) skipped
    exact Nat.not_le_of_lt passed (none between among later)

/-! ## The check -/

/-- A heading stands right behind another one and more than one level below it. -/
structure IsSkip (document : Document) (before heading : Heading) : Prop where
  hasUpper : document.HasHeading before
  hasLower : document.HasHeading heading
  earlier : before.line < heading.line
  next : ∀ other, document.HasHeading other → before.line < other.line →
    heading.line ≤ other.line
  deeper : before.level + 1 < heading.level

theorem mem_skips_iff :
    (before, heading) ∈ skips (Document.ofText file text).headings ↔
      IsSkip (.ofText file text) before heading := by
  rw [skips, List.mem_filter, mem_neighbours_iff (pairwise_line_headings file text),
    decide_eq_true_eq]
  simp only [Document.mem_headings_iff]
  exact ⟨fun ⟨⟨first, second, earlier, next⟩, deeper⟩ => ⟨first, second, earlier, next, deeper⟩,
    fun skip => ⟨⟨skip.hasUpper, skip.hasLower, skip.earlier, skip.next⟩, skip.deeper⟩⟩

/-- Which headings of some files are told of, each with the one before it, and how often. -/
structure TellsSkips (docs : Docs) (files : List String)
    (told : List (String × Heading × Heading)) : Prop where
  exactly : ∀ file before heading, (file, before, heading) ∈ told ↔
    file ∈ files ∧ ∃ document, docs.document file = .ok document ∧ IsSkip document before heading
  ordered : told.Pairwise (InOrder files fun left right => left.2.line < right.2.line)

theorem tellsSkips_listUnder (docs : Docs) (files : List String) :
    TellsSkips docs files (listUnder files (docs.shown (skips ·.headings))) where
  exactly file before heading := by
    rw [mem_listUnder_iff, Docs.mem_shown_iff]
    refine and_congr_right fun _ => exists_congr fun document => and_congr_right fun read => ?_
    obtain ⟨text, rfl⟩ := Docs.exists_ofText read
    exact mem_skips_iff
  ordered := by
    refine pairwise_listUnder fun file _ => ?_
    cases read : docs.document file with
    | error fault =>
      rw [Docs.shown, read]
      exact .nil
    | ok document =>
      obtain ⟨text, rfl⟩ := Docs.exists_ofText read
      rw [Docs.shown_of_document read]
      exact (pairwise_neighbours (pairwise_line_headings file text)).filter _

theorem shown_jumps (docs : Docs) (file : String) :
    docs.shown (fun document => jumps document.file document.headings) file =
      (docs.shown (skips ·.headings) file).map fun step => jumpFinding file step.1 step.2 := by
  cases read : docs.document file with
  | error fault =>
    rw [Docs.shown, Docs.shown, read]
    rfl
  | ok document =>
    obtain ⟨text, rfl⟩ := Docs.exists_ofText read
    rw [Docs.shown_of_document read, Docs.shown_of_document read]
    exact jumps_eq _ _

end DocAudit.Outline
