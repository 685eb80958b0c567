import DocAudit.Document.Link
import DocAudit.Proofs.Text.Blank

/-!
The grammar of links. A link is found where its brackets and parentheses stand, so that blanks
behind a line and characters before its first bracket make no difference to the links of the line.
-/

namespace DocAudit.LinkSyntax

/-- How a link begins a line. -/
structure BeginsWith (line text target rest : List Char) : Prop where
  written : line = '[' :: (text ++ ']' :: '(' :: (target ++ ')' :: rest))
  nonempty : text ≠ []
  inBrackets : ']' ∉ text
  inParentheses : ')' ∉ target
  longer : extension.length < target.length
  markdown : extension <:+ target

theorem takeWhile_ne_append {c : Char} {before : List Char} (absent : c ∉ before)
    (behind : List Char) : (before ++ c :: behind).takeWhile (· ≠ c) = before := by
  rw [List.takeWhile_append_of_pos, List.takeWhile_cons, if_neg (by simp), List.append_nil]
  intro other member
  rw [decide_eq_true_eq]
  rintro rfl
  exact absent member

/-- A run of other characters that ends before the text does is followed by the one looked for. -/
theorem exists_eq_takeWhile_ne_append {c : Char} {text : List Char}
    (ends : (text.takeWhile (· ≠ c)).length < text.length) :
    ∃ rest, text = text.takeWhile (· ≠ c) ++ c :: rest := by
  induction text with
  | nil => simp at ends
  | cons first text induction =>
    by_cases here : first = c
    · refine ⟨text, ?_⟩
      rw [List.takeWhile_cons, if_neg (by simp [here]), here, List.nil_append]
    · have more : (first :: text).takeWhile (· ≠ c) = first :: text.takeWhile (· ≠ c) := by
        rw [List.takeWhile_cons, if_pos (by simp [here])]
      rw [more, List.length_cons, List.length_cons, Nat.succ_lt_succ_iff] at ends
      rcases induction ends with ⟨rest, split⟩
      refine ⟨rest, ?_⟩
      rw [more, List.cons_append, ← split]

theorem not_mem_takeWhile_ne (c : Char) (text : List Char) : c ∉ text.takeWhile (· ≠ c) := by
  intro member
  simpa using List.mem_takeWhile_imp member

theorem linkAt?_of_beginsWith {line text target rest : List Char}
    (link : BeginsWith line text target rest) : linkAt? line = some (text, target) := by
  have textRun := takeWhile_ne_append link.inBrackets ('(' :: (target ++ ')' :: rest))
  have targetRun := takeWhile_ne_append link.inParentheses rest
  have closed : target.length < (target ++ ')' :: rest).length := by simp
  rw [link.written, linkAt?]
  simp only [textRun, List.drop_left, targetRun]
  rw [if_pos ⟨closed, link.nonempty, link.longer, List.isSuffixOf_iff_suffix.mpr link.markdown⟩]

theorem beginsWith_of_linkAt? {line text target : List Char}
    (found : linkAt? line = some (text, target)) : ∃ rest, BeginsWith line text target rest := by
  unfold linkAt? at found
  split at found
  · next body =>
    have whole := List.prefix_iff_eq_append.mp
      (List.takeWhile_prefix (l := body) (decide <| · ≠ ']'))
    simp only at found
    split at found
    · next inside behindText =>
      split at found
      · next conditions =>
        rcases conditions with ⟨closed, nonempty, longer, markdown⟩
        rcases exists_eq_takeWhile_ne_append closed with ⟨rest, split⟩
        rw [Option.some.injEq, Prod.mk.injEq] at found
        rcases found with ⟨rfl, rfl⟩
        refine ⟨rest, ?_, nonempty, not_mem_takeWhile_ne _ _, not_mem_takeWhile_ne _ _, longer,
          List.isSuffixOf_iff_suffix.mp markdown⟩
        rw [← split, ← behindText, whole]
      · cases found
    · cases found
  · cases found

/-- A link is found exactly where one is written. -/
theorem linkAt?_eq_some_iff {line text target : List Char} :
    linkAt? line = some (text, target) ↔ ∃ rest, BeginsWith line text target rest := by
  constructor
  · exact beginsWith_of_linkAt?
  · rintro ⟨rest, link⟩
    exact linkAt?_of_beginsWith link

theorem linkAt?_cons_of_ne {c : Char} (different : c ≠ '[') (rest : List Char) :
    linkAt? (c :: rest) = none := by
  rw [Option.eq_none_iff_forall_ne_some]
  rintro ⟨text, target⟩ found
  rcases linkAt?_eq_some_iff.mp found with ⟨behind, link⟩
  exact different (List.cons.inj link.written).1

/-- A text behind a line adds no link to its beginning unless it closes one. -/
theorem linkAt?_append (line : List Char) {tail : List Char} (unclosed : ')' ∉ tail) :
    linkAt? (line ++ tail) = linkAt? line := by
  rw [Option.ext_iff]
  rintro ⟨text, target⟩
  rw [linkAt?_eq_some_iff, linkAt?_eq_some_iff]
  constructor
  · rintro ⟨rest, link⟩
    have closedInLine : ∃ rest', line =
        ('[' :: (text ++ ']' :: '(' :: target)) ++ ')' :: rest' := by
      have written : line ++ tail = ('[' :: (text ++ ']' :: '(' :: target)) ++ ')' :: rest := by
        rw [link.written]
        simp
      rcases List.append_eq_append_iff.mp written with ⟨middle, split, behind⟩ |
        ⟨middle, split, behind⟩
      · exact absurd (by rw [behind]; simp) unclosed
      · cases middle with
        | nil =>
          rw [List.nil_append] at behind
          exact absurd (behind ▸ List.mem_cons_self) unclosed
        | cons first middle =>
          rw [List.cons_append, List.cons.injEq] at behind
          exact ⟨middle, by rw [split, behind.1]⟩
    rcases closedInLine with ⟨rest', split⟩
    exact ⟨rest', { link with written := by rw [split]; simp }⟩
  · rintro ⟨rest, link⟩
    exact ⟨rest ++ tail, { link with written := by rw [link.written]; simp }⟩

theorem linksFrom_of_not_mem {line : List Char} (absent : '[' ∉ line) (covered : Nat) :
    linksFrom covered line = [] := by
  induction line generalizing covered with
  | nil => rfl
  | cons c rest induction =>
    have absentLater := fun member => absent (List.mem_cons_of_mem c member)
    have different : c ≠ '[' := by
      rintro rfl
      exact absent List.mem_cons_self
    cases covered with
    | succ covered => rw [linksFrom, induction absentLater]
    | zero =>
      rw [linksFrom, linkAt?_cons_of_ne different]
      exact induction absentLater 0

theorem linksFrom_append {tail : List Char} (unopened : '[' ∉ tail) (unclosed : ')' ∉ tail)
    (covered : Nat) (line : List Char) :
    linksFrom covered (line ++ tail) = linksFrom covered line := by
  induction line generalizing covered with
  | nil => exact linksFrom_of_not_mem unopened covered
  | cons c rest induction =>
    cases covered with
    | succ covered => rw [List.cons_append, linksFrom, induction, linksFrom]
    | zero =>
      have sameLink : linkAt? (c :: (rest ++ tail)) = linkAt? (c :: rest) :=
        linkAt?_append (c :: rest) unclosed
      rw [List.cons_append, linksFrom, linksFrom, sameLink]
      split
      · rw [induction]
      · exact induction 0

/-- Blanks behind a line are no part of a link. -/
theorem links_append_of_allBlank (line : List Char) {tail : List Char}
    (blank : Text.AllBlank tail) : links (line ++ tail) = links line :=
  linksFrom_append (blank.not_mem (by decide)) (blank.not_mem (by decide)) 0 line

theorem links_cons_of_ne {c : Char} (different : c ≠ '[') (rest : List Char) :
    links (c :: rest) = links rest := by
  rw [links, linksFrom, linkAt?_cons_of_ne different]
  rfl

end DocAudit.LinkSyntax
