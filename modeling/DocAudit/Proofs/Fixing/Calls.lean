import DocAudit.Proofs.Fixing.Session
import DocAudit.Proofs.Tree.Standing
import Mathlib

/-!
A session over all of its calls. However files and folders are asked for, and whatever faults come
between, a file is fixed at most once: it holds what it held, or its fixed text from then on. The
answers count each of these files once.
-/

namespace DocAudit

/-- One call of a session: for a file, or for files of a docs folder. -/
inductive FixCall where
  | file (path : FilePath)
  | directory (docs : FilePath) (files : List String)

namespace FixCall

def paths : FixCall → List FilePath
  | .file path => [path]
  | .directory docs files => files.map docs.child

/-- The answer counts the files that needed changes. -/
def run (session : FixSession) : FixCall → FixSession × Except Fault Nat
  | .file path => ((session.fixFile path).1, (session.fixFile path).2.map Bool.toNat)
  | .directory docs files => session.fixFiles (files.map docs.child)

end FixCall

namespace FixSession

/-- Runs calls one after another, faults or not, and keeps each with its answer. -/
def runCalls (session : FixSession) :
    List FixCall → FixSession × List (FixCall × Except Fault Nat)
  | [] => (session, [])
  | call :: rest =>
    let last := (call.run session).1.runCalls rest
    (last.1, (call, (call.run session).2) :: last.2)

/-- What a session is like at some moment: between two calls, or when a call for a docs folder has
some of its files behind it. -/
inductive IsMoment (start : FixSession) (calls : List FixCall) : FixSession → Prop
  | between {done rest : List FixCall} (split : calls = done ++ rest) :
    IsMoment start calls (start.runCalls done).1
  | within {done rest : List FixCall} {docs : FilePath} {files more : List String}
    (split : calls = done ++ .directory docs (files ++ more) :: rest) :
    IsMoment start calls ((start.runCalls done).1.fixFiles (files.map docs.child)).1

end FixSession

/-! ## Paths in one form -/

/-- A path without dots that starts where all others of its form do. -/
structure FilePath.IsNormal (slashes : Nat) (path : FilePath) : Prop where
  start : path.slashes = slashes
  undotted : ".." ∉ path.parts

namespace FilePath.IsNormal

variable {slashes : Nat} {disk : Disk} {place : List String}

/-- All paths of one form start from one place, and then go down by their parts. -/
theorem exists_base (disk : Disk) (slashes : Nat) :
    ∃ start : Except Refusal (List String), ∀ path : FilePath, path.IsNormal slashes →
      ∀ place, disk.walk path = .ok place →
        ∃ base, start = .ok base ∧ place = base ++ path.parts := by
  refine ⟨DocAudit.walk disk.stands [] (if 0 < slashes then [] else disk.workingFolder), ?_⟩
  rintro path normal place walked
  have parts_eq : disk.absoluteParts path =
      (if 0 < slashes then [] else disk.workingFolder) ++ path.parts := by
    rw [Disk.absoluteParts, isAbsolute, normal.start]
    by_cases absolute : 0 < slashes <;> simp [absolute]
  rw [Disk.walk, parts_eq, walk_append] at walked
  cases started : DocAudit.walk disk.stands [] (if 0 < slashes then [] else disk.workingFolder) with
  | error refusal => rw [started] at walked; cases walked
  | ok base =>
    rw [started] at walked
    exact ⟨base, rfl, eq_append_of_walk normal.undotted walked⟩

/-- No two paths of one form lead to one place. -/
theorem eq_of_walk {left right : FilePath} (leftNormal : left.IsNormal slashes)
    (rightNormal : right.IsNormal slashes) (leftWalked : disk.walk left = .ok place)
    (rightWalked : disk.walk right = .ok place) : left = right := by
  obtain ⟨start, reached⟩ := exists_base disk slashes
  obtain ⟨base, started, leftPlace⟩ := reached left leftNormal place leftWalked
  obtain ⟨base', started', rightPlace⟩ := reached right rightNormal place rightWalked
  obtain rfl := Except.ok.inj (started.symm.trans started')
  have sameParts := List.append_cancel_left (leftPlace.symm.trans rightPlace)
  have sameStart := leftNormal.start.trans rightNormal.start.symm
  cases left
  cases right
  simp_all

end FilePath.IsNormal

/-! ## Fixed so far -/

namespace FixSession

/-- The files that a session has fixed, in the order of the fixes. -/
def fixed (session : FixSession) : List FilePath :=
  session.fixes.map (·.path)

/-- Where these files stand on a disk. -/
def fixedPlaces (session : FixSession) (disk : Disk) : List (List String) :=
  session.fixed.map disk.place

end FixSession

/-- A session that writes has fixed some files of the disk that it has started on: these needed
changes, they stand at different places, and nothing else is any different. -/
structure FixedSoFar (disk : Disk) (session : FixSession) : Prop where
  writes : session.dryRun = false
  onDisk : session.disk = disk.fixedAt (session.fixedPlaces disk)
  needed : ∀ path ∈ session.fixed, ∃ content, disk.readBytes path = .ok content ∧
    fixContent content ≠ content
  distinct : (session.fixedPlaces disk).Nodup

namespace FixedSoFar

open Text DocAudit.Fix

variable {disk : Disk} {session next : FixSession} {path : FilePath} {answer : Except Fault Bool}

theorem start (disk : Disk) : FixedSoFar disk { disk := disk, dryRun := false } where
  writes := rfl
  onDisk := disk.fixedAt_nil.symm
  needed _ member := absurd member List.not_mem_nil
  distinct := List.nodup_nil

theorem distinctNames (soFar : FixedSoFar disk session) (distinct : disk.root.HasDistinctNames) :
    session.disk.root.HasDistinctNames := by
  rw [soFar.onDisk]
  exact Node.HasDistinctNames.overwrite _ _ distinct

theorem place_eq (soFar : FixedSoFar disk session) (path : FilePath) :
    session.disk.place path = disk.place path := by
  rw [soFar.onDisk]
  exact disk.place_overwrite _ path

theorem readBytes (soFar : FixedSoFar disk session) (path : FilePath) :
    session.disk.readBytes path =
      if disk.place path ∈ session.fixedPlaces disk then (disk.readBytes path).map fixContent
      else disk.readBytes path := by
  rw [soFar.onDisk, Disk.fixedAt, Disk.readBytes_overwrite]
  split
  · rfl
  · cases disk.readBytes path <;> rfl

theorem readBytes_of_mem (soFar : FixedSoFar disk session) (fixed : path ∈ session.fixed) :
    session.disk.readBytes path = (disk.readBytes path).map fixContent := by
  have placed : disk.place path ∈ session.fixedPlaces disk := List.mem_map_of_mem fixed
  rw [soFar.readBytes, if_pos placed]

/-- What still needs changes has not been fixed. -/
theorem not_mem_of_needs (soFar : FixedSoFar disk session) {content : ByteArray}
    (read : session.disk.readBytes path = .ok content) (needs : fixContent content ≠ content) :
    disk.place path ∉ session.fixedPlaces disk := by
  intro member
  rw [soFar.readBytes, if_pos member] at read
  cases before : disk.readBytes path with
  | error fault => rw [before] at read; cases read
  | ok old =>
    rw [before] at read
    cases read
    exact needs (fixContent_fixContent old)

theorem step (soFar : FixedSoFar disk session) (step : FixStep session path next answer) :
    FixedSoFar disk next := by
  cases step with
  | failed | kept => exact soFar
  | @changed content read needs =>
    have new := soFar.not_mem_of_needs read needs
    have before := read
    rw [soFar.readBytes, if_neg new] at before
    have fixed_eq : (session.record ⟨path, session.afterFix path⟩).fixed =
        session.fixed ++ [path] := List.map_append
    have places_eq : (session.record ⟨path, session.afterFix path⟩).fixedPlaces disk =
        session.fixedPlaces disk ++ [disk.place path] := by
      rw [FixSession.fixedPlaces, fixed_eq, List.map_append]
      rfl
    refine ⟨soFar.writes, ?_, ?_, ?_⟩
    · rw [places_eq, ← Disk.fixedAt_fixedAt, ← soFar.onDisk, ← soFar.place_eq]
      change session.afterFix path = _
      rw [FixSession.afterFix, soFar.writes]
      rfl
    · rw [fixed_eq, List.forall_mem_append, List.forall_mem_singleton]
      exact ⟨soFar.needed, content, before, needs⟩
    · rw [places_eq, List.nodup_append]
      refine ⟨soFar.distinct, List.nodup_singleton _, ?_⟩
      rintro place known other member rfl
      rw [List.mem_singleton] at member
      exact new (member ▸ known)

/-- The content of a file is the one that it had or, if it had a text, the fixed text. -/
theorem readBytes_cases (soFar : FixedSoFar disk session) {content : ByteArray}
    (before : disk.readBytes path = .ok content) :
    session.disk.readBytes path = .ok content ∨ ∃ text, decode content = .ok text ∧
      session.disk.readBytes path = .ok (encode (fixText (unifyNewlines text))) := by
  rw [soFar.readBytes, before]
  split
  · cases read : decode content with
    | error fault =>
      left
      simp only [Except.map, fixContent, read]
    | ok text =>
      right
      refine ⟨text, rfl, ?_⟩
      simp only [Except.map, fixContent, read]
  · exact .inl rfl

/-- Only a path that leads to a file that has been fixed reads anything new. -/
theorem mem_of_readBytes_ne (soFar : FixedSoFar disk session)
    (changed : session.disk.readBytes path ≠ disk.readBytes path) :
    ∃ other ∈ session.fixed, ∃ place, disk.walk other = .ok place ∧ disk.walk path = .ok place := by
  rw [soFar.readBytes] at changed
  split at changed
  · next member =>
    cases before : disk.readBytes path with
    | error fault =>
      rw [before] at changed
      exact absurd rfl changed
    | ok content =>
      obtain ⟨other, fixed, samePlace⟩ := List.mem_map.mp member
      obtain ⟨otherContent, otherBefore, -⟩ := soFar.needed other fixed
      refine ⟨other, fixed, disk.place path, ?_, Disk.walk_of_readBytes before⟩
      rw [← samePlace]
      exact Disk.walk_of_readBytes otherBefore
  · exact absurd rfl changed

theorem readBytes_ne_of_mem (soFar : FixedSoFar disk session) (fixed : path ∈ session.fixed) :
    session.disk.readBytes path ≠ disk.readBytes path := by
  obtain ⟨content, before, needs⟩ := soFar.needed path fixed
  rw [soFar.readBytes_of_mem fixed, before]
  exact fun same => needs (Except.ok.inj same)

/-- A file that has been fixed is not written or counted again. -/
theorem fixFile_of_mem (soFar : FixedSoFar disk session) (fixed : path ∈ session.fixed) :
    session.fixFile path = (session, .ok false) := by
  obtain ⟨content, before, needs⟩ := soFar.needed path fixed
  cases read : decode content with
  | error fault =>
    simp only [fixContent, read] at needs
    exact absurd rfl needs
  | ok raw =>
    have stable : fixText (fixText (unifyNewlines raw)) = fixText (unifyNewlines raw) := by
      rw [fixText_eq (unifyNewlines raw), fixText_unlines_fixedLines]
    have readText : session.disk.readText path = .ok (fixText (unifyNewlines raw)) := by
      rw [readText_eq, soFar.readBytes_of_mem fixed, before]
      change textOf (fixContent content) = _
      rw [textOf_fixContent, textOf, read]
      rfl
    rw [FixSession.fixFile, readText]
    simp only [stable, if_true]

end FixedSoFar

/-! ## Calls -/

/-- The files that a call has fixed are among those that it was made for. If it returns, its answer
is their number. -/
structure Counts (done : FixCall × Except Fault Nat) (group : List FilePath) : Prop where
  asked : group ⊆ done.1.paths
  counted : ∀ count, done.2 = .ok count → count = group.length

/-- A session has gone on by the fixes of some of the files that it was asked for. If there is an
answer, it counts them. -/
structure Advances (disk : Disk) (asked : List FilePath) (session next : FixSession)
    (answer : Except Fault Nat) (group : List FilePath) : Prop where
  soFar : FixedSoFar disk next
  fixed : next.fixed = session.fixed ++ group
  asked : group ⊆ asked
  counted : ∀ count, answer = .ok count → count = group.length

namespace FixSession

variable {session next : FixSession} {path : FilePath}

theorem fixFiles_cons_of_error {fault : Fault}
    (failed : session.fixFile path = (next, .error fault)) (rest : List FilePath) :
    session.fixFiles (path :: rest) = (next, .error fault) := by
  rw [fixFiles, failed]

theorem fixFiles_cons_of_ok {changed : Bool} (fixed : session.fixFile path = (next, .ok changed))
    (rest : List FilePath) :
    session.fixFiles (path :: rest) =
      ((next.fixFiles rest).1, (next.fixFiles rest).2.map (· + changed.toNat)) := by
  rw [fixFiles, fixed]
  cases others : next.fixFiles rest with
  | mk last answer => cases answer <;> simp only [others] <;> rfl

end FixSession

theorem Advances.append {disk : Disk} {asked more : List FilePath} {session next last : FixSession}
    {answer further : Except Fault Nat} {group others : List FilePath}
    (first : Advances disk asked session next answer group)
    (second : Advances disk more next last further others) {total : Except Fault Nat}
    (counted : ∀ count, total = .ok count → count = (group ++ others).length) :
    Advances disk (asked ++ more) session last total (group ++ others) where
  soFar := second.soFar
  fixed := by rw [second.fixed, first.fixed, List.append_assoc]
  asked := List.append_subset.mpr
    ⟨List.subset_append_of_subset_left _ first.asked,
      List.subset_append_of_subset_right _ second.asked⟩
  counted := counted

namespace FixedSoFar

variable {disk : Disk} {session : FixSession}

theorem exists_fixFile_advances (soFar : FixedSoFar disk session)
    (distinct : disk.root.HasDistinctNames) (path : FilePath) :
    ∃ group, Advances disk [path] session (session.fixFile path).1
      ((session.fixFile path).2.map Bool.toNat) group := by
  cases fixed : session.fixFile path with
  | mk next answer =>
    have step := fixStep_of_fixFile (soFar.distinctNames distinct) fixed
    have after := soFar.step step
    cases step with
    | failed =>
      refine ⟨[], after, (List.append_nil _).symm, List.nil_subset _, ?_⟩
      rintro count answered
      cases answered
    | kept =>
      refine ⟨[], after, (List.append_nil _).symm, List.nil_subset _, ?_⟩
      rintro count answered
      cases answered
      rfl
    | changed =>
      refine ⟨[path], after, List.map_append, List.Subset.refl _, ?_⟩
      rintro count answered
      cases answered
      rfl

theorem exists_fixFiles_advances (soFar : FixedSoFar disk session)
    (distinct : disk.root.HasDistinctNames) (paths : List FilePath) :
    ∃ group, Advances disk paths session (session.fixFiles paths).1 (session.fixFiles paths).2
      group := by
  induction paths generalizing session with
  | nil =>
    refine ⟨[], soFar, (List.append_nil _).symm, List.nil_subset _, ?_⟩
    rintro count answered
    cases answered
    rfl
  | cons path rest induction =>
    obtain ⟨first, advances⟩ := soFar.exists_fixFile_advances distinct path
    cases fixed : session.fixFile path with
    | mk next answer =>
      rw [fixed] at advances
      cases answer with
      | error fault =>
        rw [FixSession.fixFiles_cons_of_error fixed]
        exact ⟨first, advances.soFar, advances.fixed,
          List.subset_append_of_subset_left rest advances.asked, nofun⟩
      | ok changed =>
        rw [FixSession.fixFiles_cons_of_ok fixed]
        obtain ⟨others, further⟩ := induction advances.soFar
        refine ⟨first ++ others, advances.append further ?_⟩
        intro total answered
        cases counts : (next.fixFiles rest).2 with
        | error fault => rw [counts] at answered; cases answered
        | ok count =>
          rw [counts] at answered
          cases answered
          rw [List.length_append, ← further.counted count counts,
            ← advances.counted changed.toNat rfl, Nat.add_comm]

theorem exists_run_advances (soFar : FixedSoFar disk session)
    (distinct : disk.root.HasDistinctNames) (call : FixCall) :
    ∃ group, Advances disk call.paths session (call.run session).1 (call.run session).2 group := by
  cases call with
  | file path => exact soFar.exists_fixFile_advances distinct path
  | directory docs files => exact soFar.exists_fixFiles_advances distinct (files.map docs.child)

/-- What the calls of a run have fixed, group by group. -/
theorem exists_runCalls_groups (soFar : FixedSoFar disk session)
    (distinct : disk.root.HasDistinctNames) (calls : List FixCall) :
    FixedSoFar disk (session.runCalls calls).1 ∧
      ∃ groups, (session.runCalls calls).1.fixed = session.fixed ++ groups.flatten ∧
        List.Forall₂ Counts (session.runCalls calls).2 groups := by
  induction calls generalizing session with
  | nil => exact ⟨soFar, [], (List.append_nil _).symm, .nil⟩
  | cons call rest induction =>
    obtain ⟨group, advances⟩ := soFar.exists_run_advances distinct call
    obtain ⟨soFarLast, groups, fixed, counts⟩ := induction advances.soFar
    refine ⟨soFarLast, group :: groups, ?_, .cons ⟨advances.asked, advances.counted⟩ counts⟩
    rw [FixSession.runCalls, fixed, advances.fixed, List.flatten_cons, List.append_assoc]

theorem fixed_runCalls_subset (soFar : FixedSoFar disk session)
    (distinct : disk.root.HasDistinctNames) (calls : List FixCall) :
    (session.runCalls calls).1.fixed ⊆ session.fixed ++ calls.flatMap FixCall.paths := by
  induction calls generalizing session with
  | nil => exact List.subset_append_left _ _
  | cons call rest induction =>
    obtain ⟨group, advances⟩ := soFar.exists_run_advances distinct call
    have others := induction advances.soFar
    rw [advances.fixed, List.append_assoc] at others
    rw [FixSession.runCalls, List.flatMap_cons]
    intro path member
    rcases List.mem_append.mp (others member) with before | after
    · exact List.mem_append_left _ before
    · refine List.mem_append_right _ (List.mem_append.mpr ?_)
      exact (List.mem_append.mp after).imp_left fun inGroup => advances.asked inGroup

theorem of_isMoment {calls : List FixCall} (distinct : disk.root.HasDistinctNames)
    (moment : FixSession.IsMoment { disk := disk, dryRun := false } calls session) :
    FixedSoFar disk session ∧ session.fixed ⊆ calls.flatMap FixCall.paths := by
  have ran (done : List FixCall) := (start disk).exists_runCalls_groups distinct done
  have asked (done : List FixCall) := (start disk).fixed_runCalls_subset distinct done
  cases moment with
  | @between done rest split =>
    refine ⟨(ran done).1, ?_⟩
    rw [split, List.flatMap_append]
    exact List.subset_append_of_subset_left _ (asked done)
  | @within done rest docs files more split =>
    obtain ⟨group, advances⟩ :=
      (ran done).1.exists_fixFiles_advances distinct (files.map docs.child)
    refine ⟨advances.soFar, ?_⟩
    rw [advances.fixed, split, List.flatMap_append, List.flatMap_cons]
    have inCall : group ⊆ (FixCall.directory docs (files ++ more)).paths := by
      rw [FixCall.paths, List.map_append]
      exact List.subset_append_of_subset_left _ advances.asked
    exact List.append_subset.mpr ⟨List.subset_append_of_subset_left _ (asked done),
      List.subset_append_of_subset_right _ (List.subset_append_of_subset_left _ inCall)⟩

end FixedSoFar

/-- What holds at a moment of a session that writes and has been asked for some files by paths of
one form. -/
structure FixedOnce (disk : Disk) (slashes : Nat) (asked : List FilePath) (session : FixSession) :
    Prop where
  onDisk : session.disk = disk.fixedAt (session.modified.map disk.place)
  originalOrFixed : ∀ path content, disk.readBytes path = .ok content →
    session.disk.readBytes path = .ok content ∨ ∃ text, Text.decode content = .ok text ∧
      session.disk.readBytes path =
        .ok (Text.encode (Fix.fixText (Text.unifyNewlines text)))
  modifiedIff : ∀ path : FilePath, path.IsNormal slashes →
    (path ∈ session.modified ↔ session.disk.readBytes path ≠ disk.readBytes path)
  notAgain : ∀ path ∈ session.modified, session.fixFile path = (session, .ok false)
  untouched : ∀ path, (∀ other ∈ asked, ∀ place, disk.walk other = .ok place →
    disk.walk path ≠ .ok place) → session.disk.readBytes path = disk.readBytes path

namespace FixedSoFar

variable {disk : Disk} {session : FixSession}

theorem mem_modified {path : FilePath} : path ∈ session.modified ↔ path ∈ session.fixed :=
  List.mem_eraseDups

theorem fixedOnce (soFar : FixedSoFar disk session) {slashes : Nat} {asked : List FilePath}
    (among : session.fixed ⊆ asked) (normal : ∀ path ∈ asked, path.IsNormal slashes) :
    FixedOnce disk slashes asked session where
  onDisk := by
    rw [soFar.onDisk, Disk.fixedAt, Disk.fixedAt]
    congr 1
    funext place content
    simp only [FixSession.fixedPlaces, List.mem_map, mem_modified]
  originalOrFixed path content before := soFar.readBytes_cases before
  modifiedIff path isNormal := by
    rw [mem_modified]
    constructor
    · exact soFar.readBytes_ne_of_mem
    · intro changed
      obtain ⟨other, fixed, place, otherWalked, walked⟩ := soFar.mem_of_readBytes_ne changed
      rw [isNormal.eq_of_walk (normal other (among fixed)) walked otherWalked]
      exact fixed
  notAgain path modified := soFar.fixFile_of_mem (mem_modified.mp modified)
  untouched path notAsked := by
    by_contra changed
    obtain ⟨other, fixed, place, otherWalked, walked⟩ := soFar.mem_of_readBytes_ne changed
    exact notAsked other (among fixed) place otherWalked walked

end FixedSoFar

end DocAudit
