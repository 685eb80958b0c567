import DocAudit.Proofs.Document.TrimmedLine

/-!
What fixing does to a single line. A fixed line is a fence line exactly if the line was one, so
that all lines keep their kinds, it has text exactly if the line had, and fixing it again changes
nothing.
-/

namespace DocAudit.Fix

open Text

theorem fixLine_inside {inBlock : Bool} {line : List Char}
    (kind : lineKind inBlock line = .inside) (next : List Char) :
    fixLine inBlock line next = line := by
  rw [fixLine, kind]

theorem fixLine_opening {inBlock : Bool} {line : List Char}
    (kind : lineKind inBlock line = .opening) (next : List Char) :
    fixLine inBlock line next = labelFence (trimLine line next) := by
  rw [fixLine, kind]

theorem fixLine_closing {inBlock : Bool} {line : List Char}
    (kind : lineKind inBlock line = .closing) (next : List Char) :
    fixLine inBlock line next = trimLine line next := by
  rw [fixLine, kind]

theorem fixLine_prose {inBlock : Bool} {line : List Char}
    (kind : lineKind inBlock line = .prose) (next : List Char) :
    fixLine inBlock line next = spaceHeading (trimLine line next) := by
  rw [fixLine, kind]

theorem isFenceLine_of_opening {inBlock : Bool} {line : List Char}
    (kind : lineKind inBlock line = .opening) : isFenceLine line = true := by
  unfold lineKind at kind
  split at kind
  · assumption
  · split at kind <;> cases kind

/-- On an opening fence nothing is left of the blanks at the end. -/
theorem fixLine_opening_eq {inBlock : Bool} {line : List Char}
    (kind : lineKind inBlock line = .opening) (next : List Char) :
    fixLine inBlock line next =
      if strip line = fenceMark then labelled line else stripRight line := by
  have fence := isFenceLine_of_opening kind
  rw [fixLine_opening kind, trimLine_of_not_hard (endsInHardBreak_of_isFenceLine fence),
    labelFence_eq, strip_stripRight]
  split
  · rcases exists_eq_stripRight_append line with ⟨tail, -, split⟩
    have kept : hasText (stripRight line) = true := by
      rw [hasText_stripRight, hasText_of_isFenceLine fence]
    rw [labelled, labelled]
    conv_rhs => rw [split, takeWhile_append_of_hasText kept]
  · rfl

theorem isFenceLine_spaceHeading (line : List Char) :
    isFenceLine (spaceHeading line) = isFenceLine line := by
  rcases exists_eq_signs_append line with ⟨count, rest, behind, rfl⟩
  rw [spaceHeading_signs_append behind]
  split
  · next missing =>
    have different : '#' ≠ '\x60' := by decide
    rw [isFenceLine_of_visible (head_stripLeft_signs_append missing.1 _) different,
      isFenceLine_of_visible (head_stripLeft_signs_append missing.1 _) different]
  · rfl

@[simp] theorem isFenceLine_fixLine (inBlock : Bool) (line next : List Char) :
    isFenceLine (fixLine inBlock line next) = isFenceLine line := by
  cases kind : lineKind inBlock line with
  | inside => rw [fixLine_inside kind]
  | closing => rw [fixLine_closing kind, isFenceLine_trimLine]
  | prose => rw [fixLine_prose kind, isFenceLine_spaceHeading, isFenceLine_trimLine]
  | opening =>
    have fence := isFenceLine_of_opening kind
    rw [fixLine_opening_eq kind]
    split
    · rw [isFenceLine_labelled, fence]
    · rw [isFenceLine_stripRight]

@[simp] theorem lineKind_fixLine (inBlock inBlock' : Bool) (line next : List Char) :
    lineKind inBlock' (fixLine inBlock line next) = lineKind inBlock' line := by
  rw [lineKind, isFenceLine_fixLine, lineKind]

@[simp] theorem inBlockAfter_fixLine (inBlock inBlock' : Bool) (line next : List Char) :
    inBlockAfter inBlock' (fixLine inBlock line next) = inBlockAfter inBlock' line := by
  rw [inBlockAfter, isFenceLine_fixLine, inBlockAfter]

theorem hasText_spaceHeading (line : List Char) :
    hasText (spaceHeading line) = hasText line := by
  rcases exists_eq_signs_append line with ⟨count, rest, behind, rfl⟩
  rw [spaceHeading_signs_append behind]
  split
  · rw [hasText_append, hasText_append, hasText_cons, show isBlank ' ' = true by decide]
    rfl
  · rfl

@[simp] theorem hasText_fixLine (inBlock : Bool) (line next : List Char) :
    hasText (fixLine inBlock line next) = hasText line := by
  cases kind : lineKind inBlock line with
  | inside => rw [fixLine_inside kind]
  | closing => rw [fixLine_closing kind, hasText_trimLine]
  | prose => rw [fixLine_prose kind, hasText_spaceHeading, hasText_trimLine]
  | opening =>
    have wasFence := isFenceLine_of_opening kind
    have fence := (isFenceLine_fixLine inBlock line next).trans wasFence
    rw [hasText_of_isFenceLine fence, hasText_of_isFenceLine wasFence]

theorem spaceHeading_trimLine_idempotent (line : List Char) {next next' : List Char}
    (sameNext : hasText next' = hasText next) :
    spaceHeading (trimLine (spaceHeading (trimLine line next)) next') =
      spaceHeading (trimLine line next) := by
  rcases exists_eq_signs_append line with ⟨count, rest, behind, rfl⟩
  rcases Nat.eq_zero_or_pos count with rfl | positive
  · have noSigns : (signs 0 ++ rest).head? ≠ some '#' := behind
    rw [spaceHeading_trimLine_of_head noSigns, trimLine_trimLine _ sameNext,
      spaceHeading_trimLine_of_head noSigns]
  · rw [spaceHeading_trimLine_signs positive behind]
    by_cases missing : LacksBlank count rest
    · have visible : hasText (stripRight rest) = true := by
        rw [hasText_stripRight, hasText_of_head_any missing.2.2]
      rw [if_pos missing]
      apply spaceHeading_trimLine_again positive
      · exact fun first => absurd (Option.some.inj first) (by decide)
      · rw [show ' ' :: stripRight rest = [' '] ++ stripRight rest from rfl,
          stripRight_append_of_hasText _ visible, stripRight_stripRight]
      · exact fun lacks => absurd (show (!isBlank ' ') = true from lacks.2.2) (by decide)
    · rw [if_neg missing]
      apply spaceHeading_trimLine_again positive (head_stripRight_ne behind)
        (stripRight_stripRight rest)
      rw [LacksBlank, head_any_visible_stripRight]
      exact missing

/-- A fixed line needs no more fixing, as long as there is text on the next line where there was
before, and none where there was none. -/
theorem fixLine_fixLine (inBlock : Bool) (line : List Char) {next next' : List Char}
    (sameNext : hasText next' = hasText next) :
    fixLine inBlock (fixLine inBlock line next) next' = fixLine inBlock line next := by
  have sameKind := lineKind_fixLine inBlock inBlock line next
  cases kind : lineKind inBlock line with
  | inside => rw [fixLine_inside kind, fixLine_inside kind]
  | closing =>
    rw [fixLine_closing (sameKind.trans kind), fixLine_closing kind,
      trimLine_trimLine line sameNext]
  | prose =>
    rw [fixLine_prose (sameKind.trans kind), fixLine_prose kind,
      spaceHeading_trimLine_idempotent line sameNext]
  | opening =>
    rw [fixLine_opening_eq (sameKind.trans kind), fixLine_opening_eq kind]
    by_cases bare : strip line = fenceMark
    · rw [if_pos bare, strip_labelled, if_neg (by decide), stripRight_labelled]
    · rw [if_neg bare, strip_stripRight, if_neg bare, stripRight_stripRight]

/-! ## What fixing writes -/

theorem mem_trimLine {line next : List Char} {c : Char} (member : c ∈ trimLine line next) :
    c ∈ line ∨ c = ' ' := by
  rw [trimLine_eq, List.mem_append] at member
  rcases member with inLine | inBreak
  · exact .inl (mem_of_mem_stripRight inLine)
  · split at inBreak
    · exact .inr (by simpa [hardBreak] using inBreak)
    · cases inBreak

theorem mem_spaceHeading {line : List Char} {c : Char} (member : c ∈ spaceHeading line) :
    c ∈ line ∨ c = ' ' := by
  rcases exists_eq_signs_append line with ⟨count, rest, behind, rfl⟩
  rw [spaceHeading_signs_append behind] at member
  split at member
  · simp only [List.mem_append, List.mem_cons] at member ⊢
    tauto
  · exact .inl member

theorem mem_labelled {line : List Char} {c : Char} (member : c ∈ labelled line) :
    c ∈ line ∨ c ∈ fenceMark ∨ c ∈ defaultLanguage := by
  rw [labelled, List.mem_append, List.mem_append] at member
  rcases member with (inLead | inMark) | inLanguage
  · exact .inl (List.takeWhile_subset _ inLead)
  · exact .inr (.inl inMark)
  · exact .inr (.inr inLanguage)

/-- Fixing writes no characters but blanks, marks and the default language. -/
theorem mem_fixLine {inBlock : Bool} {line next : List Char} {c : Char}
    (member : c ∈ fixLine inBlock line next) :
    c ∈ line ∨ c = ' ' ∨ c ∈ fenceMark ∨ c ∈ defaultLanguage := by
  cases kind : lineKind inBlock line with
  | inside =>
    rw [fixLine_inside kind] at member
    exact .inl member
  | closing =>
    rw [fixLine_closing kind] at member
    exact (mem_trimLine member).imp_right .inl
  | prose =>
    rw [fixLine_prose kind] at member
    rcases mem_spaceHeading member with inLine | space
    · exact (mem_trimLine inLine).imp_right .inl
    · exact .inr (.inl space)
  | opening =>
    rw [fixLine_opening_eq kind] at member
    split at member
    · exact (mem_labelled member).imp_right .inr
    · exact .inl (mem_of_mem_stripRight member)

/-! ## What does not tell a line from its fix -/

/-- A view of a line that blanks at its end, blanks and number signs at its beginning and the label
of a bare fence make no difference to. -/
structure IgnoresSpacing {β : Type} (view : List Char → β) : Prop where
  behind : ∀ line tail, AllBlank tail → view (line ++ tail) = view line
  blankAhead : ∀ c rest, isBlank c = true → view (c :: rest) = view rest
  signAhead : ∀ rest, view ('#' :: rest) = view rest
  label : view (fenceMark ++ defaultLanguage) = view fenceMark

namespace IgnoresSpacing

variable {β : Type} {view : List Char → β}

theorem view_stripRight (ignores : IgnoresSpacing view) (line : List Char) :
    view (stripRight line) = view line := by
  rcases exists_eq_stripRight_append line with ⟨tail, blank, split⟩
  conv_rhs => rw [split, ignores.behind _ _ blank]

theorem view_trimLine (ignores : IgnoresSpacing view) (line next : List Char) :
    view (trimLine line next) = view line := by
  rw [← ignores.view_stripRight, stripRight_trimLine, ignores.view_stripRight]

theorem view_signs_append (ignores : IgnoresSpacing view) (count : Nat) (rest : List Char) :
    view (signs count ++ rest) = view rest := by
  induction count with
  | zero => rfl
  | succ count induction =>
    rw [signs, List.replicate_succ, List.cons_append, ignores.signAhead]
    exact induction

theorem view_blank_append (ignores : IgnoresSpacing view) {lead : List Char}
    (blank : AllBlank lead) (rest : List Char) : view (lead ++ rest) = view rest := by
  induction lead with
  | nil => rfl
  | cons c lead induction =>
    rw [List.cons_append, ignores.blankAhead c _ (blank c List.mem_cons_self)]
    exact induction fun other member => blank other (List.mem_cons_of_mem c member)

theorem view_spaceHeading (ignores : IgnoresSpacing view) (line : List Char) :
    view (spaceHeading line) = view line := by
  rcases exists_eq_signs_append line with ⟨count, rest, behind, rfl⟩
  rw [spaceHeading_signs_append behind]
  split
  · rw [ignores.view_signs_append, ignores.view_signs_append,
      ignores.blankAhead ' ' _ (by decide)]
  · rfl

theorem view_labelled (ignores : IgnoresSpacing view) {line : List Char}
    (bare : strip line = fenceMark) : view (labelled line) = view line := by
  rcases strip_eq_fenceMark_iff.mp bare with ⟨tail, blank, split⟩
  have blankLead := allBlank_takeWhile line
  conv_rhs => rw [split, ignores.behind _ _ blank, ignores.view_blank_append blankLead]
  rw [labelled, List.append_assoc, ignores.view_blank_append blankLead, ignores.label]

theorem view_fixLine (ignores : IgnoresSpacing view) (inBlock : Bool) (line next : List Char) :
    view (fixLine inBlock line next) = view line := by
  cases kind : lineKind inBlock line with
  | inside => rw [fixLine_inside kind]
  | closing => rw [fixLine_closing kind, ignores.view_trimLine]
  | prose => rw [fixLine_prose kind, ignores.view_spaceHeading, ignores.view_trimLine]
  | opening =>
    rw [fixLine_opening_eq kind]
    split
    · next bare => exact ignores.view_labelled bare
    · exact ignores.view_stripRight line

end IgnoresSpacing

end DocAudit.Fix
