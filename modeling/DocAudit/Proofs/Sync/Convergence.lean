import DocAudit.Proofs.Sync.Writes
import Mathlib

/-!
Copying templates converges. A run touches the files that it reports and no others, the copies that
it has written have the bytes of their templates, and another run finds nothing left to do.

Whether there is a copy is asked before its folder is made. Where dots lead to the folder through
one that is missing, that folder comes to be reached by being made, and then a copy that was there
all along is overwritten as if it were new. Nothing else is lost without overwriting being asked
for.
-/

namespace DocAudit.Sync

open Disk

variable {mode : Mode} {source target : FilePath} {disk next after : Disk} {name : String}
  {outcome : Outcome} {listed : List String} {steps : List (String × Outcome)}

/-! ## Outcomes -/

theorem namesOf_eq_nil (never : ∀ step ∈ steps, step.2 ≠ outcome) : namesOf steps outcome = [] := by
  rw [List.eq_nil_iff_forall_not_mem]
  intro name member
  exact never _ (mem_namesOf.mp member) rfl

/-- The outcomes of a run that may write. -/
def Outcome.IsDone (outcome : Outcome) : Prop :=
  outcome = .created ∨ outcome = .updated ∨ outcome = .skipped

theorem perm_namesOf (done : ∀ step ∈ steps, step.2.IsDone) :
    (namesOf steps .created ++ namesOf steps .updated ++ namesOf steps .skipped).Perm
      (steps.map (·.1)) := by
  induction steps with
  | nil => exact .refl []
  | cons step rest induction =>
    obtain ⟨name, outcome⟩ := step
    obtain ⟨doneName, doneOthers⟩ := List.forall_mem_cons.mp done
    have others := (induction doneOthers).cons name
    obtain rfl | rfl | rfl : outcome.IsDone := doneName
    · simpa [namesOf] using others
    · simpa [namesOf] using (List.perm_middle.append_right _).trans others
    · simpa [namesOf] using List.perm_middle.trans others

namespace Step

variable {template copy : FilePath}

theorem isDone (step : Step mode template copy disk outcome next) (writes : mode ≠ .check) :
    outcome.IsDone := by
  cases step with
  | missing checks | changed checks | unchanged checks => exact absurd checks writes
  | skipped => exact .inr (.inr rfl)
  | updated => exact .inr (.inl rfl)
  | created => exact .inl rfl

theorem overwrites (step : Step mode template copy disk .updated next) : mode = .overwrite := by
  cases step with
  | updated overwrites => exact overwrites

end Step

theorem Trace.exists_step (trace : Trace mode source target disk steps after)
    {step : String × Outcome} (member : step ∈ steps) :
    ∃ before next, Step mode (source.child step.1) (target.child step.1) before step.2 next := by
  induction trace with
  | none disk => cases member
  | step first others induction =>
    rcases List.mem_cons.mp member with rfl | member
    · exact ⟨_, _, first⟩
    · exact induction member

/-! ## Checks -/

/-- A template whose copy is missing or has other bytes. -/
def IsMissingOrDifferent (disk : Disk) (template copy : FilePath) : Prop :=
  disk.isPresent copy = .ok false ∨
    ∃ own standard, disk.readBytes copy = .ok own ∧ disk.readBytes template = .ok standard ∧
      own ≠ standard

theorem not_isMissingOrDifferent {template copy : FilePath} {content : ByteArray}
    (ownRead : disk.readBytes copy = .ok content) (read : disk.readBytes template = .ok content) :
    ¬ IsMissingOrDifferent disk template copy := by
  rintro (absent | ⟨own, standard, ownRead', read', differ⟩)
  · obtain ⟨nameable, place, walked, -⟩ := readBytes_iff.mp ownRead
    have present : disk.isPresent copy = .ok true := isPresent_iff.mpr ⟨nameable, place, walked⟩
    rw [absent] at present
    cases present
  · rw [ownRead] at ownRead'
    rw [read] at read'
    cases ownRead'
    cases read'
    exact differ rfl

namespace Step

variable {template copy : FilePath}

theorem eq_of_check (step : Step .check template copy disk outcome next) : next = disk := by
  cases step with
  | missing | changed | unchanged => rfl
  | skipped writes | created writes => exact absurd rfl writes
  | updated overwrites => cases overwrites

theorem different_or_same (step : Step .check template copy disk outcome next) :
    outcome = .different ∧ IsMissingOrDifferent disk template copy ∨
      outcome = .same ∧ ¬ IsMissingOrDifferent disk template copy := by
  cases step with
  | missing checks absent => exact .inl ⟨rfl, .inl absent⟩
  | changed checks ownRead read differ => exact .inl ⟨rfl, .inr ⟨_, _, ownRead, read, differ⟩⟩
  | unchanged checks ownRead read => exact .inr ⟨rfl, not_isMissingOrDifferent ownRead read⟩
  | skipped writes | created writes => exact absurd rfl writes
  | updated overwrites => cases overwrites

end Step

theorem Trace.check (trace : Trace .check source target disk steps after) :
    after = disk ∧ ∀ step ∈ steps,
      Step .check (source.child step.1) (target.child step.1) disk step.2 disk := by
  induction steps generalizing disk with
  | nil =>
    cases trace
    exact ⟨rfl, by simp⟩
  | cons step rest induction =>
    cases trace with
    | step first others =>
      obtain rfl := first.eq_of_check
      obtain ⟨unchanged, steps⟩ := induction others
      exact ⟨unchanged, List.forall_mem_cons.mpr ⟨first, steps⟩⟩

/-- What a check reports: the templates whose copies are missing or have other bytes, in order. -/
structure Compares (disk : Disk) (source target : FilePath) (names : List String)
    (report : Report) : Prop where
  only : report = { different := report.different }
  increasing : report.different.Pairwise (· < ·)
  exactly : ∀ name, name ∈ report.different ↔
    name ∈ names ∧ IsMissingOrDifferent disk (source.child name) (target.child name)

theorem Trace.compares (trace : Trace .check source target disk steps after)
    (increasing : (steps.map (·.1)).Pairwise (· < ·)) :
    Compares disk source target (steps.map (·.1)) (Report.extend {} steps) := by
  have answers := trace.check.2
  have never {outcome : Outcome} (written : outcome ≠ .different ∧ outcome ≠ .same) :
      namesOf steps outcome = [] := by
    apply namesOf_eq_nil
    rintro step member rfl
    rcases (answers step member).different_or_same with ⟨different, -⟩ | ⟨same, -⟩
    · exact written.1 different
    · exact written.2 same
  refine ⟨?_, increasing.sublist (namesOf_sublist steps .different), ?_⟩
  · simp [Report.extend, never]
  · intro name
    change name ∈ [] ++ namesOf steps .different ↔ _
    rw [List.nil_append, mem_namesOf, List.mem_map]
    constructor
    · intro member
      rcases (answers _ member).different_or_same with ⟨-, differs⟩ | ⟨same, -⟩
      · exact ⟨⟨_, member, rfl⟩, differs⟩
      · cases same
    · rintro ⟨⟨⟨name, outcome⟩, member, rfl⟩, differs⟩
      rcases (answers _ member).different_or_same with ⟨rfl, -⟩ | ⟨-, current⟩
      · exact member
      · exact absurd differs current

/-! ## Files that were there -/

/-- A path that leads to a folder, or would by names alone, without dots. -/
def LeadsStraight (disk : Disk) (path : FilePath) : Prop :=
  disk.isFolder path = .ok true ∨ ".." ∉ disk.absoluteParts path

theorem LeadsStraight.extended (straight : LeadsStraight disk target)
    (extended : disk.Extends next) : LeadsStraight next target := by
  rcases straight with isFolder | undotted
  · obtain ⟨nameable, place, walked, folder⟩ := isFolder_iff.mp isFolder
    exact .inl (isFolder_iff.mpr
      ⟨nameable, place, extended.walk walked, extended.keeps.folder place folder⟩)
  · right
    rw [absoluteParts, extended.workingFolder]
    exact undotted

/-- On a straight way a copy that is missing is not there either when it is written. -/
theorem LeadsStraight.contentAt_eq_none (straight : LeadsStraight disk target)
    (plain : FilePath.IsPlain name) (absent : disk.isPresent (target.child name) = .ok false)
    (extended : disk.Extends next) {outer : List String} {content : ByteArray}
    (copy : Holds next target outer name content) : disk.contentAt (outer ++ [name]) = none := by
  have reached : disk.walk target = .ok outer ∧ disk.stands outer = some .folder ∨
      ".." ∉ disk.absoluteParts target ∧ outer = disk.absoluteParts target := by
    rcases straight with isFolder | undotted
    · obtain ⟨_, place, walked, folder⟩ := isFolder_iff.mp isFolder
      obtain rfl := copy.place_eq (extended.walk walked)
      exact .inl ⟨walked, folder⟩
    · have sameParts : next.absoluteParts target = disk.absoluteParts target := by
        rw [absoluteParts, absoluteParts, extended.workingFolder]
      have walked := copy.folderWalked
      rw [Disk.walk, sameParts] at walked
      exact .inr ⟨undotted, eq_append_of_walk undotted walked⟩
  rw [contentAt, stands_eq_none_of_absent plain copy.nameable absent reached]

theorem Trace.keeps_files (trace : Trace .add source target disk steps after)
    (plain : ∀ step ∈ steps, FilePath.IsPlain step.1) (found : disk.walk source = .ok listed)
    (straight : LeadsStraight disk target) {place : List String} {content : ByteArray}
    (there : disk.contentAt place = some content) : after.contentAt place = some content := by
  induction steps generalizing disk with
  | nil =>
    cases trace
    exact there
  | cons step rest induction =>
    obtain ⟨plainName, plainOthers⟩ := List.forall_mem_cons.mp plain
    cases trace with
    | @step _ next _ name outcome _ first others =>
      apply induction others plainOthers (first.extended.walk found)
        (straight.extended first.extended)
      cases written : outcome.writes with
      | false =>
        rw [first.eq_of_not_writes written]
        exact there
      | true =>
        obtain ⟨outer, bytes, writes⟩ := first.exists_writes plainName found written
        rw [writes.other, there]
        rintro rfl
        cases first with
        | missing | changed | unchanged | skipped => cases written
        | updated overwrites => cases overwrites
        | created _ absent grows copies =>
          rw [straight.contentAt_eq_none plainName absent
            (grows.extended.trans copies.extended) writes.copy] at there
          cases there

/-! ## What is written -/

/-- What a run that may write has done. The templates are shared out among the outcomes, only the
copies that are created or updated have changed, and they have the bytes of their templates. -/
structure Copies (disk after : Disk) (source target : FilePath) (mode : Mode)
    (names : List String) (report : Report) : Prop where
  shared : (report.created ++ report.updated ++ report.skipped).Perm names
  inOrder : report.created.Sublist names ∧ report.updated.Sublist names ∧
    report.skipped.Sublist names
  only : report.different = []
  equal : ∀ name ∈ report.created ++ report.updated, ∃ content,
    disk.readBytes (source.child name) = .ok content ∧
      after.readBytes (target.child name) = .ok content
  inFolder : ∀ name ∈ report.created ++ report.updated, ∃ folder,
    after.walk target = .ok folder ∧ after.walk (target.child name) = .ok (folder ++ [name])
  elsewhere : ∀ place, (∀ name ∈ report.created ++ report.updated,
    after.walk (target.child name) ≠ .ok place) → after.contentAt place = disk.contentAt place
  skipped : ∀ name ∈ report.skipped, ∃ place content, after.walk (target.child name) = .ok place ∧
    disk.contentAt place = some content ∧ after.contentAt place = some content
  adds : mode = .add → report.updated = []
  keeps : mode = .add → LeadsStraight disk target → ∀ place content,
    disk.contentAt place = some content → after.contentAt place = some content

theorem mem_written {name : String} :
    name ∈ (Report.extend {} steps).created ++ (Report.extend {} steps).updated ↔
      ∃ outcome, (name, outcome) ∈ steps ∧ outcome.writes = true := by
  change name ∈ ([] ++ namesOf steps .created) ++ ([] ++ namesOf steps .updated) ↔ _
  rw [List.nil_append, List.nil_append, List.mem_append, mem_namesOf, mem_namesOf]
  constructor
  · rintro (created | updated)
    · exact ⟨.created, created, rfl⟩
    · exact ⟨.updated, updated, rfl⟩
  · rintro ⟨outcome, member, writes⟩
    cases outcome with
    | created => exact .inl member
    | updated => exact .inr member
    | skipped | different | same => cases writes

theorem Trace.copies (trace : Trace mode source target disk steps after) (writes : mode ≠ .check)
    (plain : ∀ step ∈ steps, FilePath.IsPlain step.1) (found : disk.walk source = .ok listed)
    (distinct : (steps.map (·.1)).Nodup) :
    Copies disk after source target mode (steps.map (·.1)) (Report.extend {} steps) where
  shared := by
    apply perm_namesOf
    intro step member
    obtain ⟨before, next, first⟩ := trace.exists_step member
    exact first.isDone writes
  inOrder :=
    ⟨namesOf_sublist steps .created, namesOf_sublist steps .updated, namesOf_sublist steps .skipped⟩
  only := by
    apply namesOf_eq_nil
    intro step member different
    obtain ⟨before, next, first⟩ := trace.exists_step member
    have done := first.isDone writes
    rw [different] at done
    rcases done with done | done | done <;> cases done
  equal := by
    intro name member
    obtain ⟨outcome, member, written⟩ := mem_written.mp member
    obtain ⟨outer, own, standard, settled⟩ :=
      trace.exists_settled writes plain found distinct member
    obtain rfl := settled.current (.inl written)
    have before := settled.template.content
    rw [trace.contentAt_template plain found] at before
    exact ⟨own, (settled.template.before (plain _ member) trace.extended found before).read,
      settled.copy.read⟩
  inFolder := by
    intro name member
    obtain ⟨outcome, member, written⟩ := mem_written.mp member
    obtain ⟨outer, own, standard, settled⟩ :=
      trace.exists_settled writes plain found distinct member
    exact ⟨outer, settled.copy.folderWalked, settled.copy.walked⟩
  elsewhere := by
    intro place free
    apply trace.contentAt plain found
    rintro ⟨name, outcome⟩ member written outer walked rfl
    obtain ⟨outer', own, standard, settled⟩ :=
      trace.exists_settled writes plain found distinct member
    obtain rfl := settled.copy.place_eq walked
    exact free name (mem_written.mpr ⟨outcome, member, written⟩) settled.copy.walked
  skipped := by
    intro name member
    obtain ⟨outer, own, standard, settled⟩ :=
      trace.exists_settled writes plain found distinct (mem_namesOf.mp member)
    exact ⟨_, own, settled.copy.walked, settled.untouched rfl, settled.copy.content⟩
  adds := by
    rintro rfl
    apply namesOf_eq_nil
    rintro ⟨name, outcome⟩ member rfl
    obtain ⟨before, next, first⟩ := trace.exists_step member
    cases first.overwrites
  keeps := by
    rintro rfl straight place content there
    exact trace.keeps_files plain found straight there

/-! ## Runs after runs -/

theorem perform_of_idle (disk : Disk) (idle : outcome.writes = false) (template copy : FilePath) :
    perform disk outcome template copy = (disk, .ok ()) := by
  cases outcome with
  | created | updated => cases idle
  | skipped | different | same => rfl

/-- Where every template has the same plan, and nothing is to be written, the report says so. -/
theorem copyNames_of_idle (idle : outcome.writes = false) {names : List String}
    (planned : ∀ name ∈ names,
      plan disk mode (source.child name) (target.child name) = .ok outcome) (report : Report) :
    copyNames mode source target disk report names =
      (disk, .ok (report.extend (names.map fun name => (name, outcome)))) := by
  induction names generalizing report with
  | nil => rw [copyNames, List.map_nil, Report.extend_nil]
  | cons name rest induction =>
    obtain ⟨plannedName, plannedOthers⟩ := List.forall_mem_cons.mp planned
    rw [copyNames]
    simp only [plannedName, perform_of_idle disk idle]
    rw [induction plannedOthers, List.map_cons, Report.extend_cons]

theorem namesOf_map (names : List String) (outcome other : Outcome) :
    namesOf (names.map fun name => (name, outcome)) other =
      if outcome = other then names else [] := by
  by_cases same : outcome = other <;>
    simp [namesOf, List.filter_map, Function.comp_def, same]

theorem copyNames_of_skipped {names : List String}
    (planned : ∀ name ∈ names,
      plan disk mode (source.child name) (target.child name) = .ok .skipped) :
    copyNames mode source target disk {} names = (disk, .ok { skipped := names }) := by
  rw [copyNames_of_idle rfl planned]
  simp [Report.extend, namesOf_map]

theorem copyNames_of_same {names : List String}
    (planned : ∀ name ∈ names,
      plan disk mode (source.child name) (target.child name) = .ok .same) :
    copyNames mode source target disk {} names = (disk, .ok {}) := by
  rw [copyNames_of_idle rfl planned]
  simp [Report.extend, namesOf_map]

namespace Trace

variable {own standard : ByteArray} {outer : List String} {step : String × Outcome}

theorem Settled.plan_again
    (settled : Settled mode source target listed disk after step outer own standard)
    (writes : mode ≠ .check) :
    plan after mode (source.child step.1) (target.child step.1) = .ok .skipped := by
  rw [plan_of_read settled.copy.read settled.template.read]
  cases mode with
  | check => exact absurd rfl writes
  | add => rfl
  | overwrite => rw [settled.current (.inr rfl), bne_self_eq_false]; rfl

theorem Settled.plan_check
    (settled : Settled .overwrite source target listed disk after step outer own standard) :
    plan after .check (source.child step.1) (target.child step.1) = .ok .same := by
  rw [plan_of_read settled.copy.read settled.template.read, settled.current (.inr rfl),
    bne_self_eq_false]
  rfl

end Trace

/-- What runs do where the first of them has returned. -/
structure Converges (disk after : Disk) (docs templates : FilePath) (category : String)
    (mode : Mode) (names : List String) (report : Report) : Prop where
  copies : Copies disk after (templates.child category) (docs.child category) mode names report
  again : run after docs templates category mode = (after, .ok { skipped := names })
  check : mode = .overwrite → run after docs templates category .check = (after, .ok {})

/-- A run of copying that returns has listed the templates of its category. A check leaves the disk
as it is and reports the templates whose copies are missing or differ; other runs converge. -/
theorem run_converges {docs templates : FilePath} {category : String} {report : Report}
    (distinct : disk.root.HasDistinctNames) (slashless : disk.root.HasSlashlessNames)
    (returned : run disk docs templates category mode = (after, .ok report)) :
    ∃ place names, IsListing disk (templates.child category) place names ∧
      (mode = .check → after = disk ∧
        Compares disk (templates.child category) (docs.child category) names report) ∧
      (mode ≠ .check → Converges disk after docs templates category mode names report) := by
  rw [run] at returned
  cases listed : templateNames disk templates category with
  | error fault => rw [listed] at returned; cases returned
  | ok names =>
    rw [listed] at returned
    obtain ⟨place, listing⟩ := (templateNames_iff distinct).mp listed
    obtain ⟨steps, rfl, rfl, trace⟩ := exists_trace_of_copyNames returned
    have plain : ∀ step ∈ steps, FilePath.IsPlain step.1 := fun step member =>
      listing.isPlain slashless (List.mem_map_of_mem member)
    have nodup : (steps.map (·.1)).Nodup := listing.increasing.imp ne_of_lt
    refine ⟨place, steps.map (·.1), listing, ?_, ?_⟩
    · rintro rfl
      exact ⟨trace.check.1, trace.compares listing.increasing⟩
    · intro writes
      have listedAfter : templateNames after templates category = .ok (steps.map (·.1)) := by
        refine (templateNames_iff (trace.extended.distinct distinct)).mpr ⟨place, ?_⟩
        apply listing.extended trace.extended
        intro name
        rw [trace.contentAt_template plain listing.walked]
      have settled (step : String × Outcome) (member : step ∈ steps) :=
        trace.exists_settled writes plain listing.walked nodup member
      refine ⟨trace.copies writes plain listing.walked nodup, ?_, ?_⟩
      · rw [run, listedAfter]
        apply copyNames_of_skipped
        rw [List.forall_mem_map]
        intro step member
        obtain ⟨outer, own, standard, settled⟩ := settled step member
        exact settled.plan_again writes
      · rintro rfl
        rw [run, listedAfter]
        apply copyNames_of_same
        rw [List.forall_mem_map]
        intro step member
        obtain ⟨outer, own, standard, settled⟩ := settled step member
        exact settled.plan_check

theorem run_converges_create_and_update :
    let template (c : Char) : Node := .file (Text.encode ['#', ' ', c, '\n'])
    let disk : Disk :=
      { root := .folder
          [("templates", .folder
              [("guides", .folder [("B.md", template 'B'), ("A.md", template 'A')])]),
            ("docs", .folder [("guides", .folder [("B.md", .file (Text.encode ['m', '\n']))])])]
        workingFolder := [] }
    let docs : FilePath := .fromTop ["docs"]
    let templates : FilePath := .fromTop ["templates"]
    let report : Report := { created := ["A.md"], updated := ["B.md"] }
    ∃ after, disk.root.HasDistinctNames ∧ disk.root.HasSlashlessNames ∧
      run disk docs templates "guides" .overwrite = (after, .ok report) ∧
      ∃ place names, IsListing disk (templates.child "guides") place names ∧
        Converges disk after docs templates "guides" .overwrite names report := by
  intro template disk docs templates report
  have distinct : disk.root.HasDistinctNames := by
    simp [Node.HasDistinctNames, Node.EachHasDistinctNames, disk, template]
  have slashless : disk.root.HasSlashlessNames := by
    simp [Node.HasSlashlessNames, Node.files, Node.filesOf, disk, template]
  have answer : (run disk docs templates "guides" .overwrite).2 = .ok report := by cbv
  have returned : run disk docs templates "guides" .overwrite =
      ((run disk docs templates "guides" .overwrite).1, .ok report) := Prod.ext rfl answer
  obtain ⟨place, names, listing, -, converges⟩ := run_converges distinct slashless returned
  exact ⟨_, distinct, slashless, returned, place, names, listing, converges (by decide)⟩

/-- Without overwriting being asked for, a copy that dots lead to is lost: the folder before the
dots is missing until the run makes it. -/
theorem run_adds_over_file_behind_dots :
    let own := Text.encode ['m', 'i', 'n', 'e', '\n']
    let standard := Text.encode ['#', ' ', 'T', '\n']
    let disk : Disk :=
      { root := .folder
          [("templates", .folder
              [("a", .folder []), ("c", .folder [("A.md", .file standard)])]),
            ("docs", .folder [("c", .folder [("A.md", .file own)])])]
        workingFolder := [] }
    let ran := run disk (.fromTop ["docs"]) (.fromTop ["templates"]) "a/../c" .add
    ran.2 = .ok { created := ["A.md"] } ∧ disk.contentAt ["docs", "c", "A.md"] = some own ∧
      ran.1.contentAt ["docs", "c", "A.md"] = some standard ∧ own ≠ standard := by
  intro own standard disk
  refine ⟨by cbv, by cbv, by cbv, ?_⟩
  decide

end DocAudit.Sync
