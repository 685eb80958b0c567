import DocAudit.Proofs.Sync.Listing

/-!
The steps of copying. Each template has an outcome, and only two outcomes write: a new copy gets its
folder and the bytes of the template, a changed one gets these bytes back.
-/

namespace DocAudit.Sync

instance lawfulBEqByteArray : LawfulBEq ByteArray where
  eq_of_beq same := ByteArray.ext (eq_of_beq same)
  rfl {content} := beq_self_eq_true content.data

/-! ## One file -/

/-- A file has been copied to a place, which is not its own. -/
structure CopiesTo (disk next : Disk) (template copy : FilePath) (place : List String)
    (content : ByteArray) : Prop where
  read : disk.readBytes template = .ok content
  puts : disk.Puts next place (.file content)
  extended : disk.Extends next
  nameable : copy.IsNameable
  walked : next.walk copy = .ok place
  apart : disk.walk template ≠ .ok place

variable {disk next after : Disk} {mode : Mode} {outcome : Outcome}

theorem leadTogether_of_walk {left right : FilePath} {place : List String}
    (leftNameable : left.IsNameable) (leftWalked : disk.walk left = .ok place)
    (rightNameable : right.IsNameable) (rightWalked : disk.walk right = .ok place) :
    leadTogether disk left right = true := by
  obtain ⟨node, leftFound⟩ := (Disk.lookup_of_nameable leftNameable).mpr leftWalked
  obtain ⟨node', rightFound⟩ := (Disk.lookup_of_nameable rightNameable).mpr rightWalked
  rw [leadTogether, leftFound, rightFound]
  exact beq_self_eq_true place

theorem exists_of_copyFile {template copy : FilePath}
    (copied : copyFile disk template copy = (next, .ok ())) :
    ∃ place content, CopiesTo disk next template copy place content := by
  rw [copyFile] at copied
  split at copied
  · cases copied
  · next notTogether =>
    cases wrote : disk.readBytes template >>= disk.writeBytes copy with
    | error fault => rw [wrote] at copied; cases copied
    | ok finished =>
      rw [wrote] at copied
      cases copied
      obtain ⟨content, read, written⟩ := exists_of_bind_eq_ok wrote
      obtain ⟨templateNameable, own, ownWalked, isFile⟩ := Disk.readBytes_iff.mp read
      obtain ⟨place, puts, isFree | ⟨nameable, walked, old, here⟩⟩ :=
        Disk.exists_of_writeBytes written
      · have extended := puts.extends_of_free isFree.free
        have walked := isFree.leads _ extended (by rw [puts.here]; rfl)
        refine ⟨place, content, read, puts, extended, isFree.nameable, walked, ?_⟩
        intro ontoItself
        rw [ownWalked] at ontoItself
        cases ontoItself
        rw [isFree.free] at isFile
        cases isFile
      · have extended := puts.extends_of_file here
        refine ⟨place, content, read, puts, extended, nameable, extended.walk walked, ?_⟩
        intro ontoItself
        exact notTogether (leadTogether_of_walk templateNameable ontoItself nameable walked)

/-- What becomes of one template, and the disk after it. -/
inductive Step (mode : Mode) (template copy : FilePath) (disk : Disk) : Outcome → Disk → Prop
  | missing (checks : mode = .check) (absent : disk.isPresent copy = .ok false) :
    Step mode template copy disk .different disk
  | changed {own standard : ByteArray} (checks : mode = .check)
    (ownRead : disk.readBytes copy = .ok own) (read : disk.readBytes template = .ok standard)
    (differ : own ≠ standard) : Step mode template copy disk .different disk
  | unchanged {content : ByteArray} (checks : mode = .check)
    (ownRead : disk.readBytes copy = .ok content) (read : disk.readBytes template = .ok content) :
    Step mode template copy disk .same disk
  | skipped {own standard : ByteArray} (writes : mode ≠ .check)
    (ownRead : disk.readBytes copy = .ok own) (read : disk.readBytes template = .ok standard)
    (current : mode = .overwrite → own = standard) : Step mode template copy disk .skipped disk
  | updated {next : Disk} {place : List String} {content : ByteArray}
    (overwrites : mode = .overwrite) (copies : CopiesTo disk next template copy place content) :
    Step mode template copy disk .updated next
  | created {made next : Disk} {place : List String} {content : ByteArray} (writes : mode ≠ .check)
    (absent : disk.isPresent copy = .ok false) (grows : disk.Grows made)
    (copies : CopiesTo made next template copy place content) :
    Step mode template copy disk .created next

/-- The plan for a template that there is a copy of. -/
def planFor (mode : Mode) (differ : Bool) : Outcome :=
  match mode with
  | .check => if differ then .different else .same
  | .overwrite => if differ then .updated else .skipped
  | .add => .skipped

section plan

variable {template copy : FilePath}

theorem plan_of_absent (absent : disk.isPresent copy = .ok false) :
    plan disk mode template copy = .ok (if mode = .check then .different else .created) := by
  rw [plan, absent]
  rfl

theorem plan_of_read {own standard : ByteArray} (ownRead : disk.readBytes copy = .ok own)
    (read : disk.readBytes template = .ok standard) :
    plan disk mode template copy = .ok (planFor mode (own != standard)) := by
  obtain ⟨nameable, place, walked, -⟩ := Disk.readBytes_iff.mp ownRead
  have present : disk.isPresent copy = .ok true := Disk.isPresent_iff.mpr ⟨nameable, place, walked⟩
  have asked : disk.differ copy template = .ok (own != standard) := by
    rw [Disk.differ, ownRead, read]
    rfl
  rw [plan, present]
  simp only [asked, bind, Except.bind, if_true]
  cases mode <;> rfl

/-- Where there is a copy, nothing is planned before both files have been read. -/
theorem exists_read_of_plan (present : disk.isPresent copy = .ok true)
    (planned : plan disk mode template copy = .ok outcome) :
    ∃ own standard, disk.readBytes copy = .ok own ∧ disk.readBytes template = .ok standard := by
  rw [plan, present] at planned
  obtain ⟨_, asked, planned⟩ := exists_of_bind_eq_ok planned
  cases asked
  obtain ⟨differ, compared, -⟩ := exists_of_bind_eq_ok planned
  obtain ⟨own, ownRead, compared⟩ := exists_of_bind_eq_ok compared
  obtain ⟨standard, read, -⟩ := exists_of_bind_eq_ok compared
  exact ⟨own, standard, ownRead, read⟩

theorem step_of_absent (absent : disk.isPresent copy = .ok false)
    (planned : plan disk mode template copy = .ok outcome)
    (done : perform disk outcome template copy = (next, .ok ())) :
    Step mode template copy disk outcome next := by
  rw [plan_of_absent absent] at planned
  cases planned
  by_cases checks : mode = .check
  · rw [if_pos checks] at done ⊢
    cases done
    exact .missing checks absent
  · rw [if_neg checks] at done ⊢
    rw [perform] at done
    cases made : disk.makeFolders copy.parent with
    | mk grown result =>
      rw [made] at done
      cases result with
      | error fault => cases done
      | ok =>
        obtain ⟨place, content, copies⟩ := exists_of_copyFile done
        exact .created checks absent (Disk.grows_of_makeFolders made) copies

theorem step_of_present (present : disk.isPresent copy = .ok true)
    (planned : plan disk mode template copy = .ok outcome)
    (done : perform disk outcome template copy = (next, .ok ())) :
    Step mode template copy disk outcome next := by
  obtain ⟨own, standard, ownRead, read⟩ := exists_read_of_plan present planned
  rw [plan_of_read ownRead read] at planned
  cases planned
  by_cases same : own = standard
  · subst same
    rw [bne_self_eq_false] at done ⊢
    cases mode with
    | check => cases done; exact .unchanged rfl ownRead read
    | overwrite => cases done; exact .skipped nofun ownRead read fun _ => rfl
    | add => cases done; exact .skipped nofun ownRead read nofun
  · rw [bne_iff_ne.mpr same] at done ⊢
    cases mode with
    | check => cases done; exact .changed rfl ownRead read same
    | add => cases done; exact .skipped nofun ownRead read nofun
    | overwrite =>
      obtain ⟨place, content, copies⟩ := exists_of_copyFile done
      exact .updated rfl copies

theorem step_of_plan (planned : plan disk mode template copy = .ok outcome)
    (done : perform disk outcome template copy = (next, .ok ())) :
    Step mode template copy disk outcome next := by
  cases asked : disk.isPresent copy with
  | error fault =>
    rw [plan, asked] at planned
    cases planned
  | ok present =>
    cases present with
    | false => exact step_of_absent asked planned done
    | true => exact step_of_present asked planned done

end plan

/-! ## One name after another -/

/-- Names with their outcomes, step by step. -/
inductive Trace (mode : Mode) (source target : FilePath) :
    Disk → List (String × Outcome) → Disk → Prop
  | none (disk : Disk) : Trace mode source target disk [] disk
  | step {disk next after : Disk} {name : String} {outcome : Outcome}
    {rest : List (String × Outcome)}
    (first : Step mode (source.child name) (target.child name) disk outcome next)
    (others : Trace mode source target next rest after) :
    Trace mode source target disk ((name, outcome) :: rest) after

/-- The names with an outcome, in order. -/
def namesOf (steps : List (String × Outcome)) (outcome : Outcome) : List String :=
  (steps.filter (·.2 = outcome)).map (·.1)

theorem mem_namesOf {steps : List (String × Outcome)} {name : String} :
    name ∈ namesOf steps outcome ↔ (name, outcome) ∈ steps := by
  simp [namesOf]

theorem namesOf_sublist (steps : List (String × Outcome)) (outcome : Outcome) :
    (namesOf steps outcome).Sublist (steps.map (·.1)) :=
  List.filter_sublist.map _

/-- A report that names are added to as they are done. -/
def Report.extend (report : Report) (steps : List (String × Outcome)) : Report where
  created := report.created ++ namesOf steps .created
  updated := report.updated ++ namesOf steps .updated
  skipped := report.skipped ++ namesOf steps .skipped
  different := report.different ++ namesOf steps .different

theorem Report.extend_nil (report : Report) : report.extend [] = report := by
  simp [Report.extend, namesOf]

theorem Report.extend_cons (report : Report) (name : String) (outcome : Outcome)
    (steps : List (String × Outcome)) :
    report.extend ((name, outcome) :: steps) = (report.record name outcome).extend steps := by
  cases outcome <;> simp [Report.extend, Report.record, namesOf]

theorem exists_trace_of_copyNames {source target : FilePath} {report final : Report}
    {names : List String}
    (copied : copyNames mode source target disk report names = (after, .ok final)) :
    ∃ steps, steps.map (·.1) = names ∧ final = report.extend steps ∧
      Trace mode source target disk steps after := by
  induction names generalizing disk report with
  | nil =>
    cases copied
    exact ⟨[], rfl, (Report.extend_nil _).symm, .none _⟩
  | cons name rest induction =>
    rw [copyNames] at copied
    cases planned : plan disk mode (source.child name) (target.child name) with
    | error fault => simp only [planned] at copied; cases copied
    | ok outcome =>
      simp only [planned] at copied
      cases done : perform disk outcome (source.child name) (target.child name) with
      | mk next result =>
        rw [done] at copied
        cases result with
        | error fault => cases copied
        | ok =>
          obtain ⟨steps, sameNames, sameReport, trace⟩ := induction copied
          refine ⟨(name, outcome) :: steps, ?_, ?_, .step (step_of_plan planned done) trace⟩
          · rw [List.map_cons, sameNames]
          · rw [sameReport, Report.extend_cons]

end DocAudit.Sync
