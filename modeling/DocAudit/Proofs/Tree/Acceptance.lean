import DocAudit.Audit

/-!
Paths that a file system takes. One that holds no NUL and keeps within the limits on lengths can
be asked for: something stands there or nothing does, and no fault keeps one from telling.
-/

namespace DocAudit

theorem Node.follow_ne_nameTooLong (above : List (String × Node)) (node : Node)
    (parts : List String) (fit : ∀ part ∈ parts, part.utf8ByteSize ≤ longestName) :
    node.follow above parts ≠ .error .nameTooLong := by
  -- Each name that is gone along leads up or down, so where the walk stands is left open.
  induction parts generalizing above node with
  | nil => simp [follow]
  | cons part rest induction =>
    have restFits : ∀ other ∈ rest, other.utf8ByteSize ≤ longestName :=
      fun other member => fit other (List.mem_cons_of_mem _ member)
    cases node with
    | file content => simp [follow]
    | folder entries =>
      simp only [follow]
      split
      · cases above with
        | nil => exact induction _ _ restFits
        | cons outer further => exact induction _ _ restFits
      · rw [if_neg (Nat.not_lt.mpr (fit part List.mem_cons_self))]
        split
        · simp
        · exact induction _ _ restFits

namespace Disk

/-- The path from the top of the disk that a text stands for, with dots taken back by name. -/
def resolved (disk : Disk) (path : String) : FilePath :=
  (FilePath.fromTop (disk.absoluteParts (.ofString path))).collapsed

/-- A text that the file system takes for a path. -/
structure Accepts (disk : Disk) (path : String) : Prop where
  withoutNul : path.contains '\x00' = false
  namesFit : ∀ part ∈ (disk.resolved path).parts, part.utf8ByteSize ≤ Node.longestName
  pathFits : (disk.resolved path).toString.utf8ByteSize < pathLimit

/-- A path that keeps within the limits on lengths, name by name and as a whole. -/
structure Fits (disk : Disk) (path : FilePath) : Prop where
  namesFit : ∀ part ∈ disk.absoluteParts path, part.utf8ByteSize ≤ Node.longestName
  pathFits : path.toString.utf8ByteSize < pathLimit

theorem Fits.lookup_ne_nameTooLong {disk : Disk} {path : FilePath} (fits : disk.Fits path) :
    disk.lookup path ≠ .refused .nameTooLong := by
  have followed := Node.follow_ne_nameTooLong [] disk.root _ fits.namesFit
  simp only [lookup]
  split
  · simp
  · rw [if_neg (Nat.not_le.mpr fits.pathFits)]
    split
    · simp
    · next refusal reached =>
      rintro ⟨rfl⟩
      exact followed reached

theorem Fits.exists_node? {disk : Disk} {path : FilePath} (fits : disk.Fits path) :
    ∃ found, disk.node? path = .ok found := by
  have notTooLong := fits.lookup_ne_nameTooLong
  rw [node?]
  split
  · next parts node reached => exact ⟨some node, rfl⟩
  · next reached => exact absurd reached notTooLong
  · exact ⟨none, rfl⟩
  · exact ⟨none, rfl⟩

theorem node?_of_accepts {disk : Disk} {path : String} (accepted : disk.Accepts path) :
    ∃ found, disk.node? (disk.resolved path) = .ok found :=
  Fits.exists_node? ⟨accepted.namesFit, accepted.pathFits⟩

end Disk

theorem Audit.docsRoot_of_accepts {disk : Disk} {path : String} (accepted : disk.Accepts path) :
    docsRoot disk path = .ok (disk.resolved path) := by
  rw [docsRoot, accepted.withoutNul]
  rfl

end DocAudit
