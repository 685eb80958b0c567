import DocAudit.FixSession
import DocAudit.Proofs.Document.FixedText
import DocAudit.Proofs.Tree.OverwrittenDisk

/-!
What a session of fixes leaves on the disk: the files at some places hold fixed texts, and nothing
else is any different. A file that is fixed again stays as it is, so the order of the fixes and
how often a file is named do not matter.
-/

namespace DocAudit

open Text DocAudit.Fix Node

/-! ## Contents of files -/

/-- The text that is read from a content. -/
def textOf (content : ByteArray) : Except Fault (List Char) :=
  match decode content with
  | .ok text => .ok (unifyNewlines text)
  | .error fault => .error (.undecodable fault)

/-- What is written back once the text of a content is fixed. What is no text stays. -/
def fixContent (content : ByteArray) : ByteArray :=
  match decode content with
  | .ok text => encode (fixText (unifyNewlines text))
  | .error _ => content

theorem readText_eq (disk : Disk) (path : FilePath) :
    disk.readText path = (disk.readBytes path).bind textOf :=
  rfl

/-- Fixing writes no carriage return. -/
theorem not_mem_fixText_of_unified {text : List Char} (unified : '\r' ∉ text) :
    '\r' ∉ fixText text := by
  intro member
  rcases mem_fixText member with inText | newline | space | inMark | inLanguage
  · exact unified inText
  · exact absurd newline (by decide)
  · exact absurd space (by decide)
  · exact absurd inMark (by decide)
  · exact absurd inLanguage (by decide)

theorem unifyNewlines_fixText {text : List Char} (unified : '\r' ∉ text) :
    unifyNewlines (fixText text) = fixText text :=
  unifyNewlines_of_not_mem (not_mem_fixText_of_unified unified)

theorem textOf_fixContent (content : ByteArray) :
    textOf (fixContent content) = (textOf content).map fixText := by
  cases read : decode content with
  | error fault => simp only [fixContent, textOf, read, Except.map]
  | ok text =>
    simp only [fixContent, textOf, read, decode_encode, Except.map,
      unifyNewlines_fixText (not_mem_unifyNewlines text)]

theorem fixContent_fixContent (content : ByteArray) :
    fixContent (fixContent content) = fixContent content := by
  cases read : decode content with
  | error fault => simp only [fixContent, read]
  | ok text =>
    simp only [fixContent, read, decode_encode,
      unifyNewlines_fixText (not_mem_unifyNewlines text)]
    rw [fixText_eq (unifyNewlines text), fixText_unlines_fixedLines]

theorem fixContent_of_textOf {content : ByteArray} {text : List Char}
    (read : textOf content = .ok text) : fixContent content = encode (fixText text) := by
  cases decoded : decode content with
  | error fault =>
    simp only [textOf, decoded] at read
    cases read
  | ok raw =>
    simp only [textOf, decoded] at read
    cases read
    simp only [fixContent, decoded]

/-! ## Disks with fixed files -/

namespace Disk

/-- A disk on which the files at some places hold fixed texts. -/
def fixedAt (disk : Disk) (places : List (List String)) : Disk :=
  disk.overwrite fun parts content => if parts ∈ places then fixContent content else content

theorem fixedAt_nil (disk : Disk) : disk.fixedAt [] = disk := by
  simp only [fixedAt, List.not_mem_nil, if_false]
  exact disk.overwrite_keep

theorem fixedAt_singleton (disk : Disk) (place : List String) :
    disk.fixedAt [place] = disk.overwrite (.only place fixContent) := by
  simp only [fixedAt, List.mem_singleton]
  rfl

theorem fixedAt_fixedAt (disk : Disk) (places more : List (List String)) :
    (disk.fixedAt places).fixedAt more = disk.fixedAt (places ++ more) := by
  rw [fixedAt, fixedAt, overwrite_overwrite, fixedAt]
  congr 1
  funext parts content
  by_cases before : parts ∈ places <;> by_cases now : parts ∈ more <;>
    simp [before, now, fixContent_fixContent]

theorem readText_fixedAt (disk : Disk) (places : List (List String)) (path : FilePath) :
    (disk.fixedAt places).readText path =
      if disk.place path ∈ places then (disk.readText path).map fixText
      else disk.readText path := by
  rw [readText_eq, fixedAt, readBytes_overwrite, readText_eq]
  cases disk.readBytes path with
  | error fault => split <;> rfl
  | ok content =>
    simp only [Except.map, Except.bind]
    split
    · exact textOf_fixContent content
    · rfl

end Disk

/-! ## Sessions -/

theorem fixContent_ne {content : ByteArray} {text : List Char} (read : textOf content = .ok text)
    (needs : fixText text ≠ text) : fixContent content ≠ content := by
  intro same
  have readAgain := textOf_fixContent content
  rw [same, read] at readAgain
  exact needs (Except.ok.inj readAgain).symm

/-- The disk after a fix of a file, which a dry run leaves as it is. -/
def FixSession.afterFix (session : FixSession) (path : FilePath) : Disk :=
  if session.dryRun then session.disk else session.disk.fixedAt [session.disk.place path]

/-- Nothing keeps the text of a file that can be read from being replaced. -/
theorem FixSession.store_fixText {session : FixSession} {path : FilePath} {content : ByteArray}
    {text : List Char} (distinct : session.disk.root.HasDistinctNames)
    (bytes : session.disk.readBytes path = .ok content) (read : textOf content = .ok text) :
    session.store path (fixText text) = .ok (session.afterFix path) := by
  rw [FixSession.store, FixSession.afterFix]
  split
  · rfl
  · rw [Disk.writeText, ← fixContent_of_textOf read,
      Disk.writeBytes_eq_overwrite distinct bytes, Disk.fixedAt_singleton]

/-- What fixing a file can come to. -/
inductive FixStep (session : FixSession) (path : FilePath) :
    FixSession → Except Fault Bool → Prop
  | failed (fault : Fault) : FixStep session path session (.error fault)
  | kept : FixStep session path session (.ok false)
  | changed {content : ByteArray} (read : session.disk.readBytes path = .ok content)
    (needs : fixContent content ≠ content) :
    FixStep session path (session.record ⟨path, session.afterFix path⟩) (.ok true)

theorem fixStep_of_fixFile {session next : FixSession} {path : FilePath}
    {answer : Except Fault Bool} (distinct : session.disk.root.HasDistinctNames)
    (fixed : session.fixFile path = (next, answer)) : FixStep session path next answer := by
  rw [FixSession.fixFile] at fixed
  cases bytes : session.disk.readBytes path with
  | error fault =>
    have unread : session.disk.readText path = .error fault := by rw [readText_eq, bytes]; rfl
    rw [unread] at fixed
    cases fixed
    exact .failed fault
  | ok content =>
    have readText : session.disk.readText path = textOf content := by rw [readText_eq, bytes]; rfl
    rw [readText] at fixed
    cases read : textOf content with
    | error fault =>
      rw [read] at fixed
      cases fixed
      exact .failed fault
    | ok text =>
      simp only [read] at fixed
      split at fixed
      · cases fixed
        exact .kept
      · next needs =>
        simp only [FixSession.store_fixText distinct bytes read] at fixed
        cases fixed
        exact .changed bytes (fixContent_ne read needs)

theorem fixFile_disk (session : FixSession) (path : FilePath)
    (distinct : session.disk.root.HasDistinctNames) :
    ∃ places, places ⊆ [session.disk.place path] ∧
      (session.fixFile path).1.disk = session.disk.fixedAt places := by
  have unchanged : ∃ places, places ⊆ [session.disk.place path] ∧
      session.disk = session.disk.fixedAt places :=
    ⟨[], List.nil_subset _, session.disk.fixedAt_nil.symm⟩
  cases fixed : session.fixFile path with
  | mk next answer =>
    cases fixStep_of_fixFile distinct fixed with
    | failed | kept => exact unchanged
    | changed read needs =>
      change ∃ places, _ ∧ session.afterFix path = session.disk.fixedAt places
      rw [FixSession.afterFix]
      split
      · exact unchanged
      · exact ⟨[session.disk.place path], List.Subset.refl _, rfl⟩

/-- Whatever files a session is asked to fix and however far it comes, the disk after it is the disk
before with fixed texts at some of their places. -/
theorem fixFiles_disk (session : FixSession) (paths : List FilePath)
    (distinct : session.disk.root.HasDistinctNames) :
    ∃ places, places ⊆ paths.map session.disk.place ∧
      (session.fixFiles paths).1.disk = session.disk.fixedAt places := by
  induction paths generalizing session with
  | nil => exact ⟨[], List.nil_subset _, session.disk.fixedAt_nil.symm⟩
  | cons path rest induction =>
    rcases fixFile_disk session path distinct with ⟨first, firstPlace, firstDisk⟩
    have firstPlaces : [session.disk.place path] ⊆ (path :: rest).map session.disk.place :=
      List.cons_subset_cons _ (List.nil_subset _)
    rw [FixSession.fixFiles]
    split
    · next after fault fixed =>
      rw [fixed] at firstDisk
      exact ⟨first, fun place member => firstPlaces (firstPlace member), firstDisk⟩
    · next after changed fixed =>
      rw [fixed] at firstDisk
      have distinctAfter : after.disk.root.HasDistinctNames := by
        rw [firstDisk]
        exact HasDistinctNames.overwrite _ _ distinct
      rcases induction after distinctAfter with ⟨others, otherPlaces, restDisk⟩
      have samePlace : after.disk.place = session.disk.place := by
        funext other
        rw [firstDisk]
        exact session.disk.place_overwrite _ other
      refine ⟨first ++ others, ?_, ?_⟩
      · rw [samePlace] at otherPlaces
        intro place member
        rcases List.mem_append.mp member with inFirst | inOthers
        · exact firstPlaces (firstPlace inFirst)
        · exact List.mem_cons_of_mem _ (otherPlaces inOthers)
      · rw [← Disk.fixedAt_fixedAt, ← firstDisk, ← restDisk]
        split <;> next fixedRest => rw [fixedRest]

end DocAudit
