import DocAudit.Proofs.Sync.Steps

/-!
What copying leaves on the disk. A step that writes changes the content at one place, the copy of
its template, and this is not the place of any template. So the copies are settled one by one, and
the templates that later steps read are those that there were.
-/

namespace DocAudit.Sync

open Disk

/-- The outcomes of the steps that change a file. -/
def Outcome.writes : Outcome → Bool
  | .created | .updated => true
  | .skipped | .different | .same => false

/-! ## A step -/

/-- A copy in a folder has been given the content of its template. -/
structure Writes (disk next : Disk) (source target : FilePath) (listed outer : List String)
    (name : String) (content : ByteArray) : Prop where
  copy : Holds next target outer name content
  template : Holds next source listed name content
  before : disk.contentAt (listed ++ [name]) = some content
  apart : outer ≠ listed
  other : ∀ place, place ≠ outer ++ [name] → next.contentAt place = disk.contentAt place

variable {mode : Mode} {source target : FilePath} {disk next after : Disk} {name : String}
  {outcome : Outcome} {listed : List String} {steps : List (String × Outcome)}

theorem exists_writes_of_copiesTo {made : Disk} {place : List String} {content : ByteArray}
    (plain : FilePath.IsPlain name) (found : disk.walk source = .ok listed)
    (grows : disk.Grows made)
    (copies : CopiesTo made next (source.child name) (target.child name) place content) :
    ∃ outer, Writes disk next source target listed outer name content := by
  obtain ⟨outer, targetWalked, -, rfl⟩ := exists_of_walk_child plain copies.walked
  obtain ⟨folder, template⟩ := exists_holds_of_readBytes plain copies.read
  obtain rfl := template.place_eq (grows.extended.walk found)
  have apart : outer ≠ folder := by
    rintro rfl
    exact copies.apart template.walked
  have templateKept : next.contentAt (folder ++ [name]) = made.contentAt (folder ++ [name]) :=
    copies.puts.contentAt_other (by simp [Ne.symm apart])
  refine ⟨outer, ⟨copies.nameable, targetWalked, copies.walked, copies.puts.contentAt⟩,
    template.extended copies.extended templateKept, ?_, apart, ?_⟩
  · rw [← grows.contentAt, template.content]
  · intro place different
    rw [copies.puts.contentAt_other different, grows.contentAt]

namespace Step

theorem extended {template copy : FilePath} (step : Step mode template copy disk outcome next) :
    disk.Extends next := by
  cases step with
  | missing | changed | unchanged | skipped => exact .refl disk
  | updated overwrites copies => exact copies.extended
  | created writes absent grows copies => exact grows.extended.trans copies.extended

theorem eq_of_not_writes {template copy : FilePath}
    (step : Step mode template copy disk outcome next) (idle : outcome.writes = false) :
    next = disk := by
  cases step with
  | missing | changed | unchanged | skipped => rfl
  | updated | created => cases idle

theorem exists_read {template copy : FilePath}
    (step : Step mode template copy disk outcome next) (writes : mode ≠ .check)
    (idle : outcome.writes = false) :
    ∃ own standard, disk.readBytes copy = .ok own ∧ disk.readBytes template = .ok standard ∧
      (mode = .overwrite → own = standard) := by
  cases step with
  | missing checks | changed checks | unchanged checks => exact absurd checks writes
  | skipped _ ownRead read current => exact ⟨_, _, ownRead, read, current⟩
  | updated | created => cases idle

theorem exists_writes (plain : FilePath.IsPlain name) (found : disk.walk source = .ok listed)
    (step : Step mode (source.child name) (target.child name) disk outcome next)
    (writes : outcome.writes = true) :
    ∃ outer content, Writes disk next source target listed outer name content := by
  cases step with
  | missing | changed | unchanged | skipped => cases writes
  | updated overwrites copies =>
    obtain ⟨outer, written⟩ := exists_writes_of_copiesTo plain found (.refl disk) copies
    exact ⟨outer, _, written⟩
  | created _ absent grows copies =>
    obtain ⟨outer, written⟩ := exists_writes_of_copiesTo plain found grows copies
    exact ⟨outer, _, written⟩

/-- Only the place of the copy can have got another content. -/
theorem contentAt (plain : FilePath.IsPlain name) (found : disk.walk source = .ok listed)
    (step : Step mode (source.child name) (target.child name) disk outcome next)
    {place : List String} (free : outcome.writes = true → ∀ outer, next.walk target = .ok outer →
      place ≠ outer ++ [name]) :
    next.contentAt place = disk.contentAt place := by
  cases writes : outcome.writes with
  | false => rw [step.eq_of_not_writes writes]
  | true =>
    obtain ⟨outer, content, written⟩ := step.exists_writes plain found writes
    exact written.other place (free writes outer written.copy.folderWalked)

end Step

/-! ## All steps -/

namespace Trace

theorem extended (trace : Trace mode source target disk steps after) : disk.Extends after := by
  induction trace with
  | none disk => exact .refl disk
  | step first others induction => exact first.extended.trans induction

/-- Only the places of copies that have been written can have got another content. -/
theorem contentAt (trace : Trace mode source target disk steps after)
    (plain : ∀ step ∈ steps, FilePath.IsPlain step.1) (found : disk.walk source = .ok listed)
    {place : List String} (free : ∀ step ∈ steps, step.2.writes = true → ∀ outer,
      after.walk target = .ok outer → place ≠ outer ++ [step.1]) :
    after.contentAt place = disk.contentAt place := by
  induction trace with
  | none disk => rfl
  | step first others induction =>
    obtain ⟨plainName, plainOthers⟩ := List.forall_mem_cons.mp plain
    obtain ⟨freeName, freeOthers⟩ := List.forall_mem_cons.mp free
    rw [induction plainOthers (first.extended.walk found) freeOthers]
    apply first.contentAt plainName found
    intro writes outer walked
    exact freeName writes outer (others.extended.walk walked)

/-- Where anything has been written, the copies do not stand among the templates. -/
theorem exists_apart (trace : Trace mode source target disk steps after)
    (plain : ∀ step ∈ steps, FilePath.IsPlain step.1) (found : disk.walk source = .ok listed)
    {step : String × Outcome} (member : step ∈ steps) (writes : step.2.writes = true) :
    ∃ outer, after.walk target = .ok outer ∧ outer ≠ listed := by
  induction trace with
  | none disk => cases member
  | step first others induction =>
    obtain ⟨plainName, plainOthers⟩ := List.forall_mem_cons.mp plain
    rcases List.mem_cons.mp member with rfl | member
    · obtain ⟨outer, content, written⟩ := first.exists_writes plainName found writes
      exact ⟨outer, others.extended.walk written.copy.folderWalked, written.apart⟩
    · exact induction plainOthers (first.extended.walk found) member

theorem contentAt_template (trace : Trace mode source target disk steps after)
    (plain : ∀ step ∈ steps, FilePath.IsPlain step.1) (found : disk.walk source = .ok listed)
    (name : String) :
    after.contentAt (listed ++ [name]) = disk.contentAt (listed ++ [name]) := by
  apply trace.contentAt plain found
  intro step member writes outer walked same
  obtain ⟨outer', walked', apart⟩ := trace.exists_apart plain found member writes
  rw [walked] at walked'
  cases walked'
  exact apart (List.append_inj_left' same rfl).symm

/-- What has become of a copy at the end of all steps. -/
structure Settled (mode : Mode) (source target : FilePath) (listed : List String)
    (disk after : Disk) (step : String × Outcome) (outer : List String)
    (own standard : ByteArray) : Prop where
  copy : Holds after target outer step.1 own
  template : Holds after source listed step.1 standard
  current : step.2.writes = true ∨ mode = .overwrite → own = standard
  untouched : step.2.writes = false → disk.contentAt (outer ++ [step.1]) = some own

theorem exists_settled (trace : Trace mode source target disk steps after) (writes : mode ≠ .check)
    (plain : ∀ step ∈ steps, FilePath.IsPlain step.1) (found : disk.walk source = .ok listed)
    (distinct : (steps.map (·.1)).Nodup) {step : String × Outcome} (member : step ∈ steps) :
    ∃ outer own standard, Settled mode source target listed disk after step outer own standard := by
  induction trace with
  | none disk => cases member
  | @step disk next after name outcome rest first others induction =>
    obtain ⟨plainName, plainOthers⟩ := List.forall_mem_cons.mp plain
    rw [List.map_cons, List.nodup_cons] at distinct
    have foundNext := first.extended.walk found
    -- The copies of other names stand at other places.
    have elsewhere (outer outer' : List String) :
        ∀ step ∈ rest, outer ++ [name] ≠ outer' ++ [step.1] := by
      intro step member same
      have sameName := List.singleton_injective (List.append_inj_right' same rfl)
      exact distinct.1 (List.mem_map.mpr ⟨step, member, sameName.symm⟩)
    have kept (outer : List String) :
        after.contentAt (outer ++ [name]) = next.contentAt (outer ++ [name]) :=
      others.contentAt plainOthers foundNext fun step member _ outer' _ =>
        elsewhere outer outer' step member
    have templateKept := others.contentAt_template plainOthers foundNext name
    rcases List.mem_cons.mp member with rfl | member
    · cases written : outcome.writes with
      | true =>
        obtain ⟨outer, content, writes⟩ := first.exists_writes plainName found written
        exact ⟨outer, content, content, writes.copy.extended others.extended (kept outer),
          writes.template.extended others.extended templateKept, fun _ => rfl,
          fun idle => absurd (written.symm.trans idle) (by decide)⟩
      | false =>
        obtain rfl := first.eq_of_not_writes written
        obtain ⟨own, standard, ownRead, read, current⟩ := first.exists_read writes written
        obtain ⟨outer, copy⟩ := exists_holds_of_readBytes plainName ownRead
        obtain ⟨folder, template⟩ := exists_holds_of_readBytes plainName read
        obtain rfl := template.place_eq found
        refine ⟨outer, own, standard, copy.extended others.extended (kept outer),
          template.extended others.extended templateKept, ?_, fun _ => copy.content⟩
        rintro (writes | overwrites)
        · exact absurd (written.symm.trans writes) (by decide)
        · exact current overwrites
    · obtain ⟨outer, own, standard, settled⟩ := induction plainOthers foundNext distinct.2 member
      refine ⟨outer, own, standard, settled.copy, settled.template, settled.current, ?_⟩
      intro idle
      rw [← settled.untouched idle]
      apply Eq.symm
      apply first.contentAt plainName found
      intro _ outer' _
      exact (elsewhere outer' outer step member).symm

end Trace

end DocAudit.Sync
