import DocAudit.Glob
import Mathlib.Data.List.Forall2

/-!
What a glob describes, told without looking for anything: the glob is cut into tokens, the longest
first, and a path that it describes is cut into one piece for each of them. Matching, which goes
through all that a token may leave of a path, finds such pieces wherever there are some.
-/

namespace DocAudit.Glob

namespace Token

/-- How a token stands in a glob. -/
def spelling : Token → List Char
  | folders => ['*', '*', '/']
  | anything => ['*', '*']
  | segment => ['*']
  | character => ['?']
  | literal c => [c]

/-- A character that is a token of its own is no literal. -/
def IsProper : Token → Prop
  | literal c => c ≠ '*' ∧ c ≠ '?'
  | _ => True

/-- Whether no longer token stands where this one does, in front of the rest of a glob. -/
def IsLongest (token : Token) (rest : List Char) : Prop :=
  ∀ other : Token, other.spelling <+: token.spelling ++ rest →
    other.spelling.length ≤ token.spelling.length

/-- The pieces of a path that a token stands for. -/
inductive StandsFor : Token → List Char → Prop where
  | noFolders : StandsFor folders []
  | folders {names : List Char} : '\n' ∉ names → StandsFor folders (names ++ ['/'])
  | anything {piece : List Char} : '\n' ∉ piece → StandsFor anything piece
  | segment {piece : List Char} : '/' ∉ piece → StandsFor segment piece
  | character {c : Char} : c ≠ '/' → StandsFor character [c]
  | literal (c : Char) : StandsFor (literal c) [c]

end Token

/-- A glob is cut from the left, at each place into the longest token that stands there. -/
inductive IsCut : List Char → List Token → Prop where
  | nil : IsCut [] []
  | cons {token : Token} {rest : List Char} {row : List Token} :
      token.IsProper → token.IsLongest rest → IsCut rest row →
      IsCut (token.spelling ++ rest) (token :: row)

/-! ## Cutting a glob -/

/-- Only asterisks can begin a longer token. -/
theorem Token.isLongest_iff {token : Token} (proper : token.IsProper) (rest : List Char) :
    token.IsLongest rest ↔
      (token = .anything → rest.head? ≠ some '/') ∧ (token = .segment → rest.head? ≠ some '*') := by
  constructor
  · intro longest
    refine ⟨?_, ?_⟩
    · rintro rfl slash
      obtain ⟨further, rfl⟩ := List.head?_eq_some_iff.mp slash
      exact absurd (longest .folders ⟨further, rfl⟩) (by decide)
    · rintro rfl star
      obtain ⟨further, rfl⟩ := List.head?_eq_some_iff.mp star
      exact absurd (longest .anything ⟨further, rfl⟩) (by decide)
  · rintro ⟨noSlash, noStar⟩ other ⟨further, same⟩
    -- A longer token begins with two asterisks, so it meets what the token or its rest begins with.
    cases token with
    | folders => cases other <;> simp [spelling]
    | anything =>
      cases other with
      | folders =>
        obtain rfl : '/' :: further = rest := by simpa [spelling] using same
        exact absurd rfl (noSlash rfl)
      | _ => simp [spelling]
    | segment =>
      cases other with
      | folders | anything =>
        have star : some '*' = rest.head? := by
          simpa [spelling] using congrArg (fun text => text.tail.head?) same
        exact absurd star.symm (noStar rfl)
      | _ => simp [spelling]
    | character =>
      cases other with
      | folders | anything => simp [spelling] at same
      | _ => simp [spelling]
    | literal c =>
      cases other with
      | folders | anything => exact absurd (List.cons.inj same).1.symm proper.1
      | _ => simp [spelling]

theorem IsCut.cons_of_next (token : Token) {rest : List Char} {row : List Token}
    (proper : token.IsProper) (noSlash : token = .anything → rest.head? ≠ some '/')
    (noStar : token = .segment → rest.head? ≠ some '*') (cut : IsCut rest row) :
    IsCut (token.spelling ++ rest) (token :: row) :=
  .cons proper ((Token.isLongest_iff proper rest).mpr ⟨noSlash, noStar⟩) cut

theorem isCut_tokens (glob : List Char) : IsCut glob (tokens glob) := by
  fun_induction tokens glob with
  | case1 rest induction => exact .cons_of_next .folders trivial nofun nofun induction
  | case2 rest noSlash induction =>
    refine .cons_of_next .anything trivial (fun _ slash => ?_) nofun induction
    obtain ⟨further, same⟩ := List.head?_eq_some_iff.mp slash
    exact noSlash further same
  | case3 rest _ noStar induction =>
    refine .cons_of_next .segment trivial nofun (fun _ star => ?_) induction
    obtain ⟨further, same⟩ := List.head?_eq_some_iff.mp star
    exact noStar further same
  | case4 rest induction => exact .cons_of_next .character trivial nofun nofun induction
  | case5 c rest _ _ notStar notMark induction =>
    exact .cons_of_next (.literal c) ⟨notStar, notMark⟩ nofun nofun induction
  | case6 => exact .nil

theorem tokens_spelling_append {token : Token} {rest : List Char} (proper : token.IsProper)
    (longest : token.IsLongest rest) : tokens (token.spelling ++ rest) = token :: tokens rest := by
  rw [Token.isLongest_iff proper] at longest
  cases token with
  | folders => rfl
  | anything =>
    cases rest with
    | nil => rfl
    | cons c rest => simp_all [Token.spelling, tokens]
  | segment =>
    cases rest with
    | nil => rfl
    | cons c rest => simp_all [Token.spelling, tokens]
  | character => rfl
  | literal c => simp_all [Token.spelling, tokens, Token.IsProper]

/-- A glob has one cut. -/
theorem isCut_iff {glob : List Char} {row : List Token} : IsCut glob row ↔ row = tokens glob := by
  constructor
  · intro cut
    induction cut with
    | nil => rfl
    | cons proper longest _ induction =>
      rw [tokens_spelling_append proper longest, ← induction]
  · rintro rfl
    exact isCut_tokens glob

/-! ## Cutting a path -/

theorem mem_behindRun {inClass : Char → Bool} {path rest : List Char} :
    rest ∈ behindRun inClass path ↔
      ∃ run, (∀ c ∈ run, inClass c = true) ∧ path = run ++ rest := by
  induction path with
  | nil => simp [behindRun]
  | cons c path induction =>
    rw [behindRun, List.mem_cons]
    constructor
    · rintro (rfl | further)
      · exact ⟨[], by simp, rfl⟩
      · by_cases held : inClass c = true
        · rw [if_pos held] at further
          obtain ⟨run, inRun, rfl⟩ := induction.mp further
          exact ⟨c :: run, List.forall_mem_cons.mpr ⟨held, inRun⟩, rfl⟩
        · rw [if_neg held] at further
          cases further
    · rintro ⟨run, inRun, cut⟩
      cases run with
      | nil => exact .inl cut.symm
      | cons first run =>
        obtain ⟨rfl, rfl⟩ := List.cons.inj cut
        obtain ⟨held, inRun⟩ := List.forall_mem_cons.mp inRun
        rw [if_pos held]
        exact .inr (induction.mpr ⟨run, inRun, rfl⟩)

theorem mem_behindFolders {path rest : List Char} :
    rest ∈ behindFolders path ↔ ∃ names, '\n' ∉ names ∧ path = names ++ '/' :: rest := by
  induction path with
  | nil => simp [behindFolders]
  | cons c path induction =>
    have later : (∃ names, '\n' ∉ names ∧ c :: path = names ++ '/' :: rest) ↔
        (c = '/' ∧ path = rest) ∨
          c ≠ '\n' ∧ ∃ names, '\n' ∉ names ∧ path = names ++ '/' :: rest := by
      constructor
      · rintro ⟨names, inLine, cut⟩
        cases names with
        | nil => exact .inl (by simpa using cut)
        | cons first names =>
          obtain ⟨rfl, further⟩ := List.cons.inj cut
          rw [List.mem_cons, not_or] at inLine
          exact .inr ⟨Ne.symm inLine.1, names, inLine.2, further⟩
      · rintro (⟨rfl, rfl⟩ | ⟨inLine, names, inNames, rfl⟩)
        · exact ⟨[], by simp, rfl⟩
        · exact ⟨c :: names, by simp [Ne.symm inLine, inNames], rfl⟩
    rw [later, ← induction, behindFolders]
    by_cases lineEnd : c = '\n'
    · simp [lineEnd]
    · by_cases slash : c = '/'
      · simp [slash, eq_comm]
      · simp [lineEnd, slash]

/-- What a token may leave of a path is what stands behind a piece that it stands for. -/
theorem Token.mem_behind {token : Token} {path rest : List Char} :
    rest ∈ token.behind path ↔ ∃ piece, token.StandsFor piece ∧ path = piece ++ rest := by
  cases token with
  | folders =>
    rw [behind, List.mem_cons, mem_behindFolders]
    constructor
    · rintro (rfl | ⟨names, inLine, rfl⟩)
      · exact ⟨[], .noFolders, rfl⟩
      · exact ⟨names ++ ['/'], .folders inLine, by simp⟩
    · rintro ⟨piece, stands, rfl⟩
      cases stands with
      | noFolders => exact .inl rfl
      | folders inLine => exact .inr ⟨_, inLine, by simp⟩
  | anything =>
    rw [behind, mem_behindRun]
    constructor
    · rintro ⟨run, inLine, rfl⟩
      exact ⟨run, .anything (by grind), rfl⟩
    · rintro ⟨piece, stands, rfl⟩
      cases stands with
      | anything inLine => exact ⟨piece, by grind, rfl⟩
  | segment =>
    rw [behind, mem_behindRun]
    constructor
    · rintro ⟨run, inName, rfl⟩
      exact ⟨run, .segment (by grind), rfl⟩
    · rintro ⟨piece, stands, rfl⟩
      cases stands with
      | segment inName => exact ⟨piece, by grind, rfl⟩
  | character =>
    constructor
    · intro left
      cases path with
      | nil => cases left
      | cons c path =>
        rw [behind] at left
        by_cases slash : c = '/'
        · rw [if_pos slash] at left
          cases left
        · rw [if_neg slash, List.mem_singleton] at left
          exact ⟨[c], .character slash, by rw [left]; rfl⟩
    · rintro ⟨piece, stands, rfl⟩
      cases stands with
      | character noSlash => simp [behind, noSlash]
  | literal expected =>
    constructor
    · intro left
      cases path with
      | nil => cases left
      | cons c path =>
        rw [behind] at left
        by_cases same : c = expected
        · rw [if_pos same, List.mem_singleton] at left
          exact ⟨[c], same ▸ .literal c, by rw [left]; rfl⟩
        · rw [if_neg same] at left
          cases left
    · rintro ⟨piece, stands, rfl⟩
      cases stands with
      | literal => simp [behind]

theorem accepts_iff {row : List Token} {path : List Char} :
    accepts row path = true ↔
      ∃ pieces, List.Forall₂ Token.StandsFor row pieces ∧ path = pieces.flatten := by
  induction row generalizing path with
  | nil => simp [accepts]
  | cons token row induction =>
    simp only [accepts, List.any_eq_true, Token.mem_behind, induction]
    constructor
    · rintro ⟨rest, ⟨piece, stands, rfl⟩, pieces, others, rfl⟩
      exact ⟨piece :: pieces, .cons stands others, rfl⟩
    · rintro ⟨pieces, stand, rfl⟩
      cases stand with
      | cons stands others => exact ⟨_, ⟨_, stands, rfl⟩, _, others, rfl⟩

/-- A glob describes the paths that can be cut into pieces, one for each token of its cut and in
their order. -/
theorem matchesPath_iff_pieces (glob path : String) :
    matchesPath glob path = true ↔
      ∃ row pieces, IsCut glob.toList row ∧ List.Forall₂ Token.StandsFor row pieces ∧
        path.toList = pieces.flatten := by
  simp only [matchesPath, accepts_iff, isCut_iff]
  constructor
  · rintro ⟨pieces, stand, cut⟩
    exact ⟨_, pieces, rfl, stand, cut⟩
  · rintro ⟨row, pieces, rfl, stand, cut⟩
    exact ⟨pieces, stand, cut⟩

end DocAudit.Glob
