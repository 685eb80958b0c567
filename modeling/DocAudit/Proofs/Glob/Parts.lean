import DocAudit.Proofs.Glob.Language
import DocAudit.Tree.Path

/-!
Globs on paths that are rows of parts. Parts hold no slash, so a slash of the path stands between
two of them, and what a glob says about slashes is said about the parts.
-/

namespace DocAudit.Glob

/-- The characters of a path. -/
def pathText (parts : List String) : List Char :=
  (FilePath.joinSlashes parts).toList

@[simp] theorem pathText_singleton (part : String) : pathText [part] = part.toList := by
  simp [pathText, FilePath.joinSlashes]

theorem pathText_cons {rest : List String} (nonempty : rest ≠ []) (part : String) :
    pathText (part :: rest) = part.toList ++ '/' :: pathText rest := by
  simp [pathText, FilePath.joinSlashes, String.intercalate_cons_of_ne_nil nonempty]

theorem mem_pathText_of_ne {c : Char} (noSlash : c ≠ '/') {parts : List String} :
    c ∈ pathText parts ↔ ∃ part ∈ parts, c ∈ part.toList := by
  induction parts with
  | nil => simp [pathText, FilePath.joinSlashes]
  | cons part rest induction =>
    by_cases last : rest = []
    · simp [last]
    · simp [pathText_cons last, induction, noSlash]

/-- Where the parts hold no slash, every slash of the path stands between two parts. -/
theorem pathText_eq_append_slash_iff {parts : List String}
    (slashless : ∀ part ∈ parts, '/' ∉ part.toList) {front back : List Char} :
    pathText parts = front ++ '/' :: back ↔
      ∃ before after, parts = before ++ after ∧ before ≠ [] ∧ after ≠ [] ∧
        front = pathText before ∧ back = pathText after := by
  induction parts generalizing front with
  | nil => simp [pathText, FilePath.joinSlashes]
  | cons part rest induction =>
    obtain ⟨noSlash, others⟩ := List.forall_mem_cons.mp slashless
    by_cases last : rest = []
    · subst last
      constructor
      · intro cut
        rw [pathText_singleton] at cut
        rw [cut] at noSlash
        simp at noSlash
      · rintro ⟨before, after, split, someBefore, someAfter, -⟩
        rcases List.append_eq_cons_iff.mp split.symm with ⟨none, -⟩ | ⟨more, -, none⟩
        · exact absurd none someBefore
        · exact absurd (List.append_eq_nil_iff.mp none.symm).2 someAfter
    · rw [pathText_cons last]
      constructor
      · intro cut
        rcases List.append_eq_append_iff.mp cut with ⟨more, rfl, behind⟩ | ⟨more, front', behind⟩
        · cases more with
          | nil =>
            obtain ⟨-, rfl⟩ := List.cons.inj behind
            exact ⟨[part], rest, rfl, by simp, last, by simp, rfl⟩
          | cons c more =>
            obtain ⟨rfl, further⟩ := List.cons.inj behind
            obtain ⟨before, after, rfl, someBefore, someAfter, rfl, rfl⟩ :=
              (induction others).mp further
            exact ⟨part :: before, after, rfl, by simp, someAfter,
              (pathText_cons someBefore part).symm, rfl⟩
        · cases more with
          | nil =>
            obtain ⟨-, rfl⟩ := List.cons.inj behind
            exact ⟨[part], rest, rfl, by simp, last, by simpa using front'.symm, rfl⟩
          | cons c more =>
            obtain ⟨rfl, -⟩ := List.cons.inj behind
            exact absurd (front' ▸ List.mem_append_right front List.mem_cons_self) noSlash
      · rintro ⟨before, after, split, someBefore, someAfter, rfl, rfl⟩
        cases before with
        | nil => exact absurd rfl someBefore
        | cons first before =>
          obtain ⟨rfl, rfl⟩ := List.cons.inj split
          by_cases lone : before = []
          · subst lone
            simp
          · rw [pathText_cons lone, (induction others).mpr
              ⟨before, after, rfl, lone, someAfter, rfl, rfl⟩, List.append_assoc]
            rfl

/-- A path without a slash has one part. -/
theorem exists_eq_singleton_of_slashless {parts : List String} (nonempty : parts ≠ [])
    (noSlash : '/' ∉ pathText parts) : ∃ part, parts = [part] := by
  obtain ⟨part, rest, rfl⟩ := List.exists_cons_of_ne_nil nonempty
  by_cases last : rest = []
  · exact ⟨part, by rw [last]⟩
  · rw [pathText_cons last] at noSlash
    simp at noSlash

/-! ## Tokens one at a time -/

theorem accepts_folders_cons {row : List Token} {path : List Char} :
    accepts (.folders :: row) path = true ↔
      accepts row path = true ∨
        ∃ names rest, '\n' ∉ names ∧ path = names ++ '/' :: rest ∧ accepts row rest = true := by
  simp only [accepts, Token.behind, List.any_cons, Bool.or_eq_true, List.any_eq_true,
    mem_behindFolders]
  grind

theorem accepts_segment_cons {row : List Token} {path : List Char} :
    accepts (.segment :: row) path = true ↔
      ∃ run rest, '/' ∉ run ∧ path = run ++ rest ∧ accepts row rest = true := by
  simp only [accepts, Token.behind, List.any_eq_true, mem_behindRun]
  grind

theorem accepts_literal_cons {c : Char} {row : List Token} {path : List Char} :
    accepts (.literal c :: row) path = true ↔
      ∃ rest, path = c :: rest ∧ accepts row rest = true := by
  cases path with
  | nil => simp [accepts, Token.behind]
  | cons first path =>
    by_cases same : first = c
    · simp [accepts, Token.behind, same]
    · simp [accepts, Token.behind, same]

theorem accepts_nil {path : List Char} : accepts [] path = true ↔ path = [] := by
  rw [accepts, List.isEmpty_iff]

theorem accepts_anything {path : List Char} :
    accepts [.anything] path = true ↔ '\n' ∉ path := by
  simp only [accepts, Token.behind, List.any_eq_true, mem_behindRun, List.isEmpty_iff,
    exists_eq_right, List.append_nil, bne_iff_ne]
  constructor
  · rintro ⟨run, inLine, rfl⟩
    exact fun member => inLine _ member rfl
  · exact fun inLine => ⟨path, fun c member newline => inLine (newline ▸ member), rfl⟩

variable {parts : List String}

/-- Folders of a glob stand for the first parts of a path, as far as these hold no line feed. -/
theorem accepts_folders_pathText (nonempty : parts ≠ [])
    (slashless : ∀ part ∈ parts, '/' ∉ part.toList) {row : List Token} :
    accepts (.folders :: row) (pathText parts) = true ↔
      ∃ before after, parts = before ++ after ∧ after ≠ [] ∧
        (∀ part ∈ before, '\n' ∉ part.toList) ∧ accepts row (pathText after) = true := by
  have inLine (before : List String) :
      '\n' ∉ pathText before ↔ ∀ part ∈ before, '\n' ∉ part.toList := by
    simp [mem_pathText_of_ne (c := '\n') (by decide)]
  rw [accepts_folders_cons]
  constructor
  · rintro (here | ⟨names, rest, onLine, cut, further⟩)
    · exact ⟨[], parts, rfl, nonempty, nofun, here⟩
    · obtain ⟨before, after, split, -, someAfter, rfl, rfl⟩ :=
        (pathText_eq_append_slash_iff slashless).mp cut
      exact ⟨before, after, split, someAfter, (inLine before).mp onLine, further⟩
  · rintro ⟨before, after, rfl, someAfter, onLine, further⟩
    by_cases none : before = []
    · subst none
      exact .inl further
    · exact .inr ⟨pathText before, pathText after, (inLine before).mpr onLine,
        (pathText_eq_append_slash_iff slashless).mpr
          ⟨before, after, rfl, none, someAfter, rfl, rfl⟩, further⟩

/-! ## The globs of the standard configuration -/

/-- Whether a name ends as the names of documents do. -/
def EndsInMd (name : String) : Prop :=
  ['.', 'm', 'd'] <:+ name.toList

theorem matchesPath_markdown_iff (nonempty : parts ≠ [])
    (slashless : ∀ part ∈ parts, '/' ∉ part.toList) :
    matchesPath "**/*.md" (FilePath.joinSlashes parts) = true ↔
      ∃ folders name, parts = folders ++ [name] ∧ EndsInMd name ∧
        ∀ folder ∈ folders, '\n' ∉ folder.toList := by
  have row : tokens "**/*.md".toList =
      [.folders, .segment, .literal '.', .literal 'm', .literal 'd'] := by decide
  rw [matchesPath, row]
  change accepts _ (pathText parts) = true ↔ _
  rw [accepts_folders_pathText nonempty slashless]
  simp only [accepts_segment_cons, accepts_literal_cons, accepts_nil]
  constructor
  · rintro ⟨folders, after, rfl, someAfter, inLine, run, _, noSlash, cut, _, rfl, _, rfl, _, rfl,
      rfl⟩
    obtain ⟨name, rfl⟩ := exists_eq_singleton_of_slashless someAfter (by rw [cut]; simp [noSlash])
    exact ⟨folders, name, rfl, ⟨run, by simpa using cut.symm⟩, inLine⟩
  · rintro ⟨folders, name, rfl, ⟨run, cut⟩, inLine⟩
    have noSlash : '/' ∉ name.toList := slashless name (by simp)
    refine ⟨folders, [name], rfl, by simp, inLine, run, _, ?_, by simpa using cut.symm, _, rfl, _,
      rfl, _, rfl, rfl⟩
    rw [← cut] at noSlash
    exact fun member => noSlash (List.mem_append_left _ member)

/-- Whether a name marks what is set aside. -/
def IsSetAside (name : String) : Prop :=
  name.toList.head? = some '_'

theorem matchesPath_setAsideFolder_iff (nonempty : parts ≠ [])
    (slashless : ∀ part ∈ parts, '/' ∉ part.toList) :
    matchesPath "**/_*/**" (FilePath.joinSlashes parts) = true ↔
      ∃ above folder below, parts = above ++ folder :: below ∧ below ≠ [] ∧ IsSetAside folder ∧
        ∀ part ∈ above ++ below, '\n' ∉ part.toList := by
  have row : tokens "**/_*/**".toList =
      [.folders, .literal '_', .segment, .literal '/', .anything] := by decide
  rw [matchesPath, row]
  change accepts _ (pathText parts) = true ↔ _
  rw [accepts_folders_pathText nonempty slashless]
  simp only [accepts_segment_cons, accepts_literal_cons, accepts_anything]
  constructor
  · rintro ⟨above, after, rfl, someAfter, inLine, _, cut, run, _, noSlash, rfl, behind, rfl,
      onLine⟩
    have slashlessAfter : ∀ part ∈ after, '/' ∉ part.toList :=
      fun part member => slashless part (List.mem_append_right above member)
    rw [← List.cons_append] at cut
    obtain ⟨first, below, rfl, someFirst, someBelow, same, rfl⟩ :=
      (pathText_eq_append_slash_iff slashlessAfter).mp cut
    obtain ⟨folder, rfl⟩ :=
      exists_eq_singleton_of_slashless someFirst (by rw [← same]; simp [noSlash])
    refine ⟨above, folder, below, rfl, someBelow, ?_, ?_⟩
    · rw [pathText_singleton] at same
      rw [IsSetAside, ← same]
      rfl
    · rw [List.forall_mem_append]
      exact ⟨inLine, fun part member newline =>
        onLine ((mem_pathText_of_ne (by decide)).mpr ⟨part, member, newline⟩)⟩
  · rintro ⟨above, folder, below, rfl, someBelow, aside, inLine⟩
    rw [List.forall_mem_append] at inLine
    obtain ⟨run, begins⟩ := List.head?_eq_some_iff.mp aside
    have noSlash : '/' ∉ folder.toList := slashless folder (by simp)
    refine ⟨above, folder :: below, rfl, by simp, inLine.1, _, ?_, run, _, ?_, rfl, pathText below,
      rfl, ?_⟩
    · rw [pathText_cons someBelow, begins]
      rfl
    · rw [begins] at noSlash
      exact fun member => noSlash (List.mem_cons_of_mem _ member)
    · intro member
      obtain ⟨part, among, newline⟩ := (mem_pathText_of_ne (by decide)).mp member
      exact inLine.2 part among newline

theorem matchesPath_setAsideFile_iff (nonempty : parts ≠ [])
    (slashless : ∀ part ∈ parts, '/' ∉ part.toList) :
    matchesPath "**/_*.md" (FilePath.joinSlashes parts) = true ↔
      ∃ folders name, parts = folders ++ [name] ∧ IsSetAside name ∧ EndsInMd name ∧
        ∀ folder ∈ folders, '\n' ∉ folder.toList := by
  have row : tokens "**/_*.md".toList =
      [.folders, .literal '_', .segment, .literal '.', .literal 'm', .literal 'd'] := by decide
  rw [matchesPath, row]
  change accepts _ (pathText parts) = true ↔ _
  rw [accepts_folders_pathText nonempty slashless]
  simp only [accepts_segment_cons, accepts_literal_cons, accepts_nil]
  constructor
  · rintro ⟨folders, after, rfl, someAfter, inLine, _, cut, run, _, noSlash, rfl, _, rfl, _, rfl,
      _, rfl, rfl⟩
    obtain ⟨name, rfl⟩ := exists_eq_singleton_of_slashless someAfter (by rw [cut]; simp [noSlash])
    rw [pathText_singleton] at cut
    refine ⟨folders, name, rfl, ?_, ⟨'_' :: run, cut.symm⟩, inLine⟩
    rw [IsSetAside, cut]
    rfl
  · rintro ⟨folders, name, rfl, aside, ⟨front, ends⟩, inLine⟩
    have noSlash : '/' ∉ name.toList := slashless name (by simp)
    rw [IsSetAside, ← ends] at aside
    -- The name is longer than its ending, which begins with another character.
    cases front with
    | nil => simp at aside
    | cons first run =>
      obtain rfl : first = '_' := by simpa using aside
      rw [← ends] at noSlash
      refine ⟨folders, [name], rfl, by simp, inLine, _, by simpa using ends.symm, run, _, ?_,
        rfl, _, rfl, _, rfl, _, rfl, rfl⟩
      exact fun member => noSlash (by simp [member])

end DocAudit.Glob
