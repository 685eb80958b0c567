import DocAudit.Proofs.Faults
import DocAudit.Proofs.Fixing.Calls
import DocAudit.Proofs.Tree.ListedNames

/-!
A dry run tells what the run that writes will do. Whether a file needs changes, or cannot be read,
depends on what it holds and on nothing else, and the run that writes changes nothing but the files
that it has come to. So the two agree at each file as long as no two paths lead to the same one.
-/

namespace DocAudit

open Text DocAudit.Fix

/-! ## One file -/

/-- Whether the text of a file is not yet as the fixes make it. -/
def Disk.needsFix (disk : Disk) (path : FilePath) : Except Fault Bool :=
  (disk.readText path).map fun text => decide (fixText text ≠ text)

namespace FixSession

variable {session : FixSession} {path : FilePath}

/-- The session after a file of which this is known. -/
def advance (session : FixSession) (path : FilePath) : Except Fault Bool → FixSession
  | .ok true => session.record ⟨path, session.afterFix path⟩
  | _ => session

theorem fixed_record (fix : FixedFile) :
    (session.record fix).fixed = session.fixed ++ [fix.path] :=
  List.map_append

/-- What a file holds decides the answer, dry run or not. -/
theorem fixFile_eq (distinct : session.disk.root.HasDistinctNames) (path : FilePath) :
    session.fixFile path =
      (session.advance path (session.disk.needsFix path), session.disk.needsFix path) := by
  rw [fixFile, Disk.needsFix]
  cases bytes : session.disk.readBytes path with
  | error fault =>
    have unread : session.disk.readText path = .error fault := by rw [readText_eq, bytes]; rfl
    rw [unread]
    rfl
  | ok content =>
    have readText : session.disk.readText path = textOf content := by rw [readText_eq, bytes]; rfl
    rw [readText]
    cases read : textOf content with
    | error fault => rfl
    | ok text =>
      by_cases stays : fixText text = text
      · simp [stays, Except.map, advance]
      · simp [stays, Except.map, advance, store_fixText distinct bytes read]

end FixSession

/-! ## Paths apart -/

/-- No place on the disk is where both paths lead. -/
def Disk.Apart (disk : Disk) (left right : FilePath) : Prop :=
  ∀ place, disk.walk left = .ok place → disk.walk right ≠ .ok place

/-- A docs-relative path as it is written: slashes between parts, none of which is empty or means
another folder. -/
structure IsDocsRelative (file : String) : Prop where
  written : (FilePath.ofString file).toString = file
  relative : (FilePath.ofString file).slashes = 0
  undotted : ".." ∉ (FilePath.ofString file).parts

namespace IsDocsRelative

variable {file other : String} {disk : Disk} {docs : FilePath} {place : List String}

theorem absoluteParts_child (isRelative : IsDocsRelative file) (disk : Disk) (docs : FilePath) :
    disk.absoluteParts (docs.child file) =
      disk.absoluteParts docs ++ (FilePath.ofString file).parts := by
  rw [FilePath.child, docs.join_of_relative _ isRelative.relative, disk.absoluteParts_extend]

/-- Below the docs folder, wherever that is, a file stands where its parts say. -/
theorem exists_of_walk (isRelative : IsDocsRelative file)
    (walked : disk.walk (docs.child file) = .ok place) :
    ∃ base, disk.walk docs = .ok base ∧ place = base ++ (FilePath.ofString file).parts := by
  rw [Disk.walk, isRelative.absoluteParts_child, walk_append_eq_ok_iff] at walked
  obtain ⟨base, started, walked⟩ := walked
  exact ⟨base, started, eq_append_of_walk isRelative.undotted walked⟩

theorem apart (isRelative : IsDocsRelative file) (otherIsRelative : IsDocsRelative other)
    (different : file ≠ other) (disk : Disk) (docs : FilePath) :
    disk.Apart (docs.child file) (docs.child other) := by
  intro place walked otherWalked
  obtain ⟨base, started, filePlace⟩ := isRelative.exists_of_walk walked
  obtain ⟨base', started', otherPlace⟩ := otherIsRelative.exists_of_walk otherWalked
  obtain rfl := Except.ok.inj (started.symm.trans started')
  have sameParts := List.append_cancel_left (filePlace.symm.trans otherPlace)
  apply different
  rw [← isRelative.written, ← otherIsRelative.written, FilePath.toString, FilePath.toString,
    isRelative.relative, otherIsRelative.relative, sameParts]

end IsDocsRelative

/-! ## Discovered files -/

theorem isDocsRelative_joinSlashes {folders : List String} {name : String}
    (plain : ∀ part ∈ folders ++ [name], IsPlainPart part) :
    IsDocsRelative (FilePath.joinSlashes (folders ++ [name])) := by
  have whole := ofString_joinSlashes plain
  refine ⟨?_, ?_, ?_⟩ <;> rw [whole]
  · simp [FilePath.toString]
  · exact fun member => (plain ".." member).notAbove rfl

/-- What discovery lists is named once, and docs-relative. -/
theorem discovered_isDocsRelative {docs : Docs} {included excluded : Value} {files : List String}
    (named : ∀ entries, docs.disk.node? docs.root = .ok (some (.folder entries)) →
      (Node.folder entries).HasPlainNames)
    (found : docs.discover included excluded = .ok files) :
    files.Nodup ∧ ∀ file ∈ files, IsDocsRelative file := by
  obtain ⟨distinct, written⟩ := discovered_written named found
  refine ⟨distinct, fun file member => ?_⟩
  obtain ⟨folders, name, plain, rfl⟩ := written file member
  exact isDocsRelative_joinSlashes plain

/-! ## Two runs -/

/-- A dry run that is as far as the run that writes: they have found the same files to need
changes, and only the second has left the disk that both have started on. -/
structure Foretells (disk : Disk) (dry real : FixSession) : Prop where
  soFar : FixedSoFar disk real
  isDry : dry.dryRun = true
  untouched : dry.disk = disk
  sameFixed : dry.fixed = real.fixed

namespace Foretells

variable {disk : Disk} {dry real : FixSession} {path : FilePath}

theorem start (disk : Disk) :
    Foretells disk { disk := disk, dryRun := true } { disk := disk, dryRun := false } where
  soFar := .start disk
  isDry := rfl
  untouched := rfl
  sameFixed := rfl

theorem needsFix_eq (foretells : Foretells disk dry real)
    (apart : ∀ other ∈ real.fixed, disk.Apart other path) :
    real.disk.needsFix path = disk.needsFix path := by
  have sameBytes : real.disk.readBytes path = disk.readBytes path := by
    by_contra changed
    obtain ⟨other, fixed, place, otherWalked, walked⟩ :=
      foretells.soFar.mem_of_readBytes_ne changed
    exact apart other fixed place otherWalked walked
  rw [Disk.needsFix, Disk.needsFix, readText_eq, readText_eq, sameBytes]

/-- At a file that has not been fixed yet, both runs give one answer, and go on alike. -/
theorem fixFile (foretells : Foretells disk dry real) (distinct : disk.root.HasDistinctNames)
    (apart : ∀ other ∈ real.fixed, disk.Apart other path) :
    (dry.fixFile path).2 = (real.fixFile path).2 ∧
      Foretells disk (dry.fixFile path).1 (real.fixFile path).1 := by
  have dryDistinct : dry.disk.root.HasDistinctNames := by rwa [foretells.untouched]
  have realDistinct := foretells.soFar.distinctNames distinct
  have soFar : FixedSoFar disk (real.fixFile path).1 :=
    foretells.soFar.step (fixStep_of_fixFile realDistinct rfl)
  rw [FixSession.fixFile_eq realDistinct, foretells.needsFix_eq apart] at soFar
  rw [FixSession.fixFile_eq dryDistinct, FixSession.fixFile_eq realDistinct,
    foretells.needsFix_eq apart, foretells.untouched]
  refine ⟨rfl, ?_⟩
  cases known : disk.needsFix path with
  | error fault => exact foretells
  | ok needs =>
    rw [known] at soFar
    cases needs with
    | false => exact foretells
    | true =>
      have stays : dry.afterFix path = disk := by
        rw [FixSession.afterFix, foretells.isDry]
        exact foretells.untouched
      have sameFixed : (dry.record ⟨path, dry.afterFix path⟩).fixed =
          (real.record ⟨path, real.afterFix path⟩).fixed := by
        rw [FixSession.fixed_record, FixSession.fixed_record, foretells.sameFixed]
      exact ⟨soFar, foretells.isDry, stays, sameFixed⟩

theorem fixed_fixFile_subset (foretells : Foretells disk dry real)
    (distinct : disk.root.HasDistinctNames) (path : FilePath) :
    (real.fixFile path).1.fixed ⊆ real.fixed ++ [path] := by
  obtain ⟨group, advances⟩ := foretells.soFar.exists_fixFile_advances distinct path
  rw [advances.fixed]
  exact List.append_subset.mpr ⟨List.subset_append_left _ _,
    List.subset_append_of_subset_right _ advances.asked⟩

/-- Files up to the first fault: the dry run has the fault at the same file. -/
theorem fixFiles (foretells : Foretells disk dry real) (distinct : disk.root.HasDistinctNames)
    {paths : List FilePath} (apart : paths.Pairwise disk.Apart)
    (new : ∀ other ∈ real.fixed, ∀ path ∈ paths, disk.Apart other path) :
    (dry.fixFiles paths).2 = (real.fixFiles paths).2 ∧
      Foretells disk (dry.fixFiles paths).1 (real.fixFiles paths).1 := by
  induction paths generalizing dry real with
  | nil => exact ⟨rfl, foretells⟩
  | cons path rest induction =>
    rw [List.pairwise_cons] at apart
    obtain ⟨sameAnswer, further⟩ := foretells.fixFile distinct
      fun other fixed => new other fixed path List.mem_cons_self
    have newRest : ∀ other ∈ (real.fixFile path).1.fixed, ∀ later ∈ rest,
        disk.Apart other later := by
      intro other fixed later member
      rcases List.mem_append.mp (foretells.fixed_fixFile_subset distinct path fixed) with
        before | now
      · exact new other before later (List.mem_cons_of_mem _ member)
      · rw [List.mem_singleton.mp now]
        exact apart.1 later member
    cases dryFixed : dry.fixFile path with
    | mk dryNext answer =>
      cases realFixed : real.fixFile path with
      | mk realNext realAnswer =>
        simp only [dryFixed, realFixed] at sameAnswer further newRest
        subst sameAnswer
        cases answer with
        | error fault =>
          rw [FixSession.fixFiles_cons_of_error dryFixed,
            FixSession.fixFiles_cons_of_error realFixed]
          exact ⟨rfl, further⟩
        | ok changed =>
          rw [FixSession.fixFiles_cons_of_ok dryFixed, FixSession.fixFiles_cons_of_ok realFixed]
          obtain ⟨sameRest, last⟩ := induction further apart.2 newRest
          exact ⟨congrArg (Except.map (· + changed.toNat)) sameRest, last⟩

end Foretells

/-- How a dry run and the run that writes have ended: only the second has left the disk, and both
tell the same count or the same fault, with the same files that needed changes up to there. -/
structure Predicts (disk : Disk) (dry real : FixSession × Except Fault Nat) : Prop where
  untouched : dry.1.disk = disk
  sameAnswer : dry.2 = real.2
  sameModified : dry.1.modified = real.1.modified

end DocAudit
