import DocAudit.Console.Terminal
import DocAudit.Proofs.Faults
import DocAudit.Proofs.Text.Lines
import Mathlib.Data.List.TakeWhile

/-!
Texts that a console shows as they are. Rendering leaves out tags, the backslashes that escape and
hidden characters, and adds nothing, so a text comes out whole just if there is none of these in it.
-/

namespace DocAudit

namespace Markup

/-! ## Pieces -/

/-- What a piece was read from. -/
def Piece.source : Piece → List Char
  | .character c => [c]
  | .tag count content => backslashes count ++ bracketed content

def Piece.IsTag : Piece → Prop
  | .character _ => False
  | .tag .. => True

theorem exists_of_tagContent? {text content : List Char} (found : tagContent? text = some content) :
    ∃ rest, text = bracketed content ++ rest := by
  unfold tagContent? at found
  split at found
  · next c rest =>
    simp only [Option.ite_none_right_eq_some, Option.some.injEq] at found
    obtain ⟨⟨-, closes⟩, rfl⟩ := found
    obtain ⟨after, behind⟩ := List.head?_eq_some_iff.mp closes
    have parts := List.prefix_iff_eq_append.mp
      (List.takeWhile_prefix (fun c => decide (c ≠ '[' ∧ c ≠ ']')) (l := rest))
    refine ⟨after, ?_⟩
    rw [behind] at parts
    simp only [bracketed, List.cons_append, List.append_assoc, List.nil_append, parts]
  · cases found

theorem exists_of_tagPiece? {text content : List Char} {count : Nat}
    (found : tagPiece? text = some (count, content)) :
    ∃ rest, text = (Piece.tag count content).source ++ rest := by
  rw [tagPiece?] at found
  obtain ⟨inner, tag, same⟩ := Option.map_eq_some_iff.mp found
  obtain ⟨rfl, rfl⟩ := Prod.mk.inj same
  obtain ⟨rest, behind⟩ := exists_of_tagContent? tag
  have front : text.takeWhile (· == '\\') =
      backslashes (text.takeWhile (· == '\\')).length :=
    List.eq_replicate_of_mem fun c member => by simpa using List.mem_takeWhile_imp member
  have parts := List.prefix_iff_eq_append.mp (List.takeWhile_prefix (· == '\\') (l := text))
  refine ⟨rest, ?_⟩
  rw [Piece.source, ← front, List.append_assoc, ← behind, parts]

theorem flatMap_source_piecesFrom (covered : Nat) (text : List Char) :
    (piecesFrom covered text).flatMap Piece.source = text.drop covered := by
  induction text generalizing covered with
  | nil => simp [piecesFrom]
  | cons c rest induction =>
    cases covered with
    | succ left => exact induction left
    | zero =>
      rw [piecesFrom]
      cases found : tagPiece? (c :: rest) with
      | none => simp [Piece.source, induction]
      | some tag =>
        obtain ⟨count, content⟩ := tag
        obtain ⟨after, whole⟩ := exists_of_tagPiece? found
        have length : count + content.length + 1 + 1 = (Piece.tag count content).source.length := by
          simp [Piece.source, backslashes, bracketed]
          omega
        have behind : rest.drop (count + content.length + 1) = after := by
          rw [← List.drop_succ_cons (a := c), length, whole, List.drop_left]
        simp only [List.flatMap_cons, induction, behind, List.drop_zero, whole]

/-- The pieces of a text are all of it. -/
theorem flatMap_source_pieces (text : List Char) : (pieces text).flatMap Piece.source = text :=
  flatMap_source_piecesFrom 0 text

/-! ## What is shown -/

/-- The text that pieces show, behind a run of characters in reverse. The styles are left out. -/
def visible (run : List Char) : List Piece → List Char
  | [] => unescapeBrackets run.reverse
  | .character c :: rest => visible (c :: run) rest
  | .tag count content :: rest =>
    unescapeBrackets run.reverse ++ backslashes (count / 2) ++
      (if count % 2 = 1 then bracketed content else []) ++ visible [] rest

/-- What a rendering has shown once its run ends. -/
def Rendering.text (rendering : Rendering) : List Char :=
  rendering.endRun.shown.reverse.flatten

theorem applyTag_shown {rendering applied : Rendering} {content : List Char}
    (tag : applyTag rendering content = .ok applied) :
    applied.run = rendering.run ∧ applied.shown = rendering.shown := by
  unfold applyTag at tag
  split at tag
  · simp only at tag
    split at tag
    · split at tag
      · cases tag
      · cases tag
        exact ⟨rfl, rfl⟩
    · split at tag
      · cases tag
        exact ⟨rfl, rfl⟩
      · cases tag
  · cases tag
    exact ⟨rfl, rfl⟩

/-- A tag ends the run before it. It is shown if it is escaped, and sets a style else. -/
theorem shown_of_renderPiece {rendering next : Rendering} {count : Nat} {content : List Char}
    (rendered : renderPiece rendering (.tag count content) = .ok next) :
    next.run = [] ∧ next.shown.reverse.flatten = rendering.shown.reverse.flatten ++
      (unescapeBrackets rendering.run.reverse ++ backslashes (count / 2) ++
        if count % 2 = 1 then bracketed content else []) := by
  simp only [renderPiece] at rendered
  split at rendered
  · next odd =>
    cases rendered
    rw [if_pos odd]
    simp [Rendering.show, Rendering.endRun]
  · next even =>
    obtain ⟨applied, tag, same⟩ := exists_of_bind_eq_ok rendered
    cases same
    obtain ⟨run, shown⟩ := applyTag_shown tag
    rw [if_neg even, run, shown]
    simp [Rendering.show, Rendering.endRun]

theorem text_of_foldlM {pieces : List Piece} {rendering last : Rendering}
    (rendered : pieces.foldlM renderPiece rendering = .ok last) :
    last.text = rendering.shown.reverse.flatten ++ visible rendering.run pieces := by
  induction pieces generalizing rendering with
  | nil =>
    cases rendered
    simp [Rendering.text, Rendering.endRun, visible]
  | cons piece rest induction =>
    rw [List.foldlM_cons] at rendered
    obtain ⟨next, first, others⟩ := exists_of_bind_eq_ok rendered
    rw [induction others]
    cases piece with
    | character c =>
      cases first
      rfl
    | tag count content =>
      obtain ⟨run, shown⟩ := shown_of_renderPiece first
      rw [run, shown, visible]
      simp only [List.append_assoc]

theorem unescapeBrackets_sublist (text : List Char) : (unescapeBrackets text).Sublist text := by
  fun_induction unescapeBrackets text with
  | case1 rest induction => exact .cons _ (.cons_cons _ induction)
  | case2 c rest _ induction => exact .cons_cons _ induction
  | case3 => exact .slnil

/-- Whether a bracket has a backslash before it. -/
def HasEscape (text : List Char) : Prop :=
  ['\\', '['] <:+: text

theorem unescapeBrackets_eq_iff {text : List Char} :
    unescapeBrackets text = text ↔ ¬HasEscape text := by
  fun_induction unescapeBrackets text with
  | case1 rest =>
    have shorter := (unescapeBrackets_sublist rest).length_le
    have escape : HasEscape ('\\' :: '[' :: rest) := ⟨[], rest, rfl⟩
    refine iff_of_false (fun same => ?_) fun none => none escape
    have lengths := congrArg List.length same
    simp only [List.length_cons] at lengths
    omega
  | case2 c rest single induction =>
    rw [List.cons_inj_right, induction, HasEscape, HasEscape, List.infix_cons_iff, not_or]
    refine (and_iff_right fun front => ?_).symm
    obtain ⟨after, parts⟩ := front
    obtain ⟨isBackslash, isRest⟩ := List.cons.inj parts
    exact single after isBackslash.symm isRest.symm
  | case3 => simp [HasEscape]

theorem visible_sublist (run : List Char) (pieces : List Piece) :
    (visible run pieces).Sublist (run.reverse ++ pieces.flatMap Piece.source) := by
  induction pieces generalizing run with
  | nil => simpa [visible] using unescapeBrackets_sublist run.reverse
  | cons piece rest induction =>
    cases piece with
    | character c => simpa [visible, Piece.source] using induction (c :: run)
    | tag count content =>
      have marks : (backslashes (count / 2)).Sublist (backslashes count) :=
        (List.replicate_sublist_replicate _).mpr (Nat.div_le_self count 2)
      have tag : (if count % 2 = 1 then bracketed content else []).Sublist (bracketed content) := by
        split
        · exact .refl _
        · exact List.nil_sublist _
      rw [visible, List.flatMap_cons, Piece.source, List.append_assoc, List.append_assoc,
        List.append_assoc]
      exact (unescapeBrackets_sublist run.reverse).append (marks.append (tag.append (induction [])))

/-- A tag is never shown with all that it was read from. -/
theorem length_visible_lt (run : List Char) {pieces : List Piece}
    (tagged : ∃ piece ∈ pieces, piece.IsTag) :
    (visible run pieces).length < (run.reverse ++ pieces.flatMap Piece.source).length := by
  induction pieces generalizing run with
  | nil => simp at tagged
  | cons piece rest induction =>
    cases piece with
    | character c =>
      have others : ∃ piece ∈ rest, piece.IsTag := by simpa [Piece.IsTag] using tagged
      simpa [visible, Piece.source] using induction (c :: run) others
    | tag count content =>
      have front := (unescapeBrackets_sublist run.reverse).length_le
      have behind := (visible_sublist [] rest).length_le
      have tag : (if count % 2 = 1 then bracketed content else []).length + count / 2 <
          count + (bracketed content).length := by
        split
        · omega
        · simp [bracketed]
          omega
      simp only [visible, Piece.source, backslashes, List.length_append, List.length_replicate,
        List.flatMap_cons, List.reverse_nil, List.nil_append] at front behind tag ⊢
      omega

/-! ## Literal texts -/

/-- Whether what looks like a tag stands somewhere in a text. -/
def HasTag (text : List Char) : Prop :=
  ∃ rest content, rest <:+ text ∧ tagContent? rest = some content

/-- Whether a text has nothing in it that a console leaves out. -/
structure IsLiteral (text : List Char) : Prop where
  untagged : ¬HasTag text
  unescaped : ¬HasEscape text
  shown : ∀ c ∈ text, isHidden c = false

theorem tagPiece?_of_tagContent? {text content : List Char}
    (found : tagContent? text = some content) : tagPiece? text = some (0, content) := by
  obtain ⟨rest, rfl⟩ := exists_of_tagContent? found
  rw [tagPiece?]
  simp [bracketed] at found ⊢
  exact found

theorem pieces_of_untagged {text : List Char} (untagged : ¬HasTag text) :
    pieces text = text.map .character := by
  induction text with
  | nil => rfl
  | cons c rest induction =>
    have none : tagPiece? (c :: rest) = none := by
      rw [tagPiece?, Option.map_eq_none_iff]
      cases found : tagContent? ((c :: rest).drop
          ((c :: rest).takeWhile (· == '\\')).length) with
      | none => rfl
      | some content => exact absurd ⟨_, content, List.drop_suffix _ _, found⟩ untagged
    rw [pieces, piecesFrom, none]
    exact congrArg _ (induction fun ⟨inner, content, suffix, found⟩ =>
      untagged ⟨inner, content, suffix.trans (List.suffix_cons c rest), found⟩)

theorem exists_isTag_of_hasTag {text : List Char} (tagged : HasTag text) :
    ∃ piece ∈ pieces text, piece.IsTag := by
  obtain ⟨inner, content, suffix, found⟩ := tagged
  induction text with
  | nil =>
    rw [List.suffix_nil.mp suffix] at found
    cases found
  | cons c rest induction =>
    rw [pieces, piecesFrom]
    cases first : tagPiece? (c :: rest) with
    | some tag => exact ⟨_, List.mem_cons_self, trivial⟩
    | none =>
      rcases List.suffix_cons_iff.mp suffix with rfl | later
      · rw [tagPiece?_of_tagContent? found] at first
        cases first
      · obtain ⟨piece, member, isTag⟩ := induction later
        exact ⟨piece, List.mem_cons_of_mem _ member, isTag⟩

theorem visible_characters (run text : List Char) :
    visible run (text.map .character) = unescapeBrackets (run.reverse ++ text) := by
  induction text generalizing run with
  | nil => simp [visible]
  | cons c rest induction => simp [visible, induction]

theorem not_hasTag_of_not_mem {text : List Char} (none : '[' ∉ text) : ¬HasTag text := by
  rintro ⟨inner, content, suffix, found⟩
  obtain ⟨rest, rfl⟩ := exists_of_tagContent? found
  exact none (suffix.subset List.mem_cons_self)

theorem not_hasEscape_of_not_mem {text : List Char} (none : '[' ∉ text) : ¬HasEscape text :=
  fun escape => none (escape.subset (by simp))

/-- What is shown of a text is what its pieces show, but for hidden characters. -/
theorem eq_of_render {text shown : List Char} (rendered : render text = .ok shown) :
    shown = (visible [] (pieces text)).filter (!isHidden ·) := by
  rw [render] at rendered
  split at rendered
  · next bare =>
    have none : '[' ∉ text := by simpa using bare
    rw [pieces_of_untagged (not_hasTag_of_not_mem none), visible_characters, List.reverse_nil,
      List.nil_append, unescapeBrackets_eq_iff.mpr (not_hasEscape_of_not_mem none)]
    exact (Except.ok.inj rendered).symm
  · obtain ⟨last, folded, same⟩ := exists_of_bind_eq_ok rendered
    have told := text_of_foldlM folded
    rw [Rendering.text] at told
    rw [told] at same
    exact (Except.ok.inj same).symm

theorem render_sublist {text shown : List Char} (rendered : render text = .ok shown) :
    shown.Sublist text := by
  rw [eq_of_render rendered]
  have kept := visible_sublist [] (pieces text)
  rw [List.reverse_nil, List.nil_append, flatMap_source_pieces] at kept
  exact List.filter_sublist.trans kept

theorem foldlM_characters (text : List Char) (rendering : Rendering) :
    ∃ last, (text.map Piece.character).foldlM renderPiece rendering = .ok last := by
  induction text generalizing rendering with
  | nil => exact ⟨rendering, rfl⟩
  | cons c rest induction => exact induction _

theorem render_of_untagged {text : List Char} (untagged : ¬HasTag text) :
    render text = .ok ((unescapeBrackets text).filter (!isHidden ·)) := by
  have succeeds : ∃ shown, render text = .ok shown := by
    rw [render]
    split
    · exact ⟨_, rfl⟩
    · obtain ⟨last, folded⟩ := foldlM_characters text ⟨0, [], [], []⟩
      rw [← pieces_of_untagged untagged] at folded
      rw [folded]
      exact ⟨_, rfl⟩
  obtain ⟨shown, rendered⟩ := succeeds
  rw [rendered, eq_of_render rendered, pieces_of_untagged untagged, visible_characters]
  rfl

/-- A text is shown as it is just if it has no tag, no escaped bracket and no hidden character. -/
theorem render_eq_self_iff {text : List Char} : render text = .ok text ↔ IsLiteral text := by
  constructor
  · intro rendered
    have shown := eq_of_render rendered
    have kept := visible_sublist [] (pieces text)
    rw [List.reverse_nil, List.nil_append, flatMap_source_pieces] at kept
    have filtered :=
      (List.filter_sublist (p := (!isHidden ·)) (l := visible [] (pieces text))).length_le
    rw [← shown] at filtered
    have whole : visible [] (pieces text) = text :=
      kept.eq_of_length (Nat.le_antisymm kept.length_le filtered)
    have untagged : ¬HasTag text := by
      intro tagged
      have shorter := length_visible_lt [] (exists_isTag_of_hasTag tagged)
      rw [List.reverse_nil, List.nil_append, flatMap_source_pieces, whole] at shorter
      exact Nat.lt_irrefl _ shorter
    refine ⟨untagged, ?_, ?_⟩
    · rw [pieces_of_untagged untagged, visible_characters] at whole
      exact unescapeBrackets_eq_iff.mp whole
    · rw [whole] at shown
      simpa using List.filter_eq_self.mp shown.symm
  · rintro ⟨untagged, unescaped, shown⟩
    rw [render_of_untagged untagged, unescapeBrackets_eq_iff.mpr unescaped]
    exact congrArg _ (List.filter_eq_self.mpr (by simpa using shown))

theorem hasTag_cons_iff {c : Char} {text : List Char} (noBracket : c ≠ '[') :
    HasTag (c :: text) ↔ HasTag text := by
  constructor
  · rintro ⟨inner, content, suffix, found⟩
    rcases List.suffix_cons_iff.mp suffix with rfl | later
    · obtain ⟨rest, whole⟩ := exists_of_tagContent? found
      exact absurd (List.cons.inj whole).1 noBracket
    · exact ⟨inner, content, later, found⟩
  · rintro ⟨inner, content, suffix, found⟩
    exact ⟨inner, content, suffix.trans (List.suffix_cons c text), found⟩

theorem hasEscape_cons_iff {c : Char} {text : List Char} (noBackslash : c ≠ '\\') :
    HasEscape (c :: text) ↔ HasEscape text := by
  rw [HasEscape, List.infix_cons_iff, HasEscape]
  refine or_iff_right fun ⟨after, parts⟩ => ?_
  exact noBackslash (List.cons.inj parts).1.symm

/-- Text in front that cannot belong to a tag or an escape changes nothing. -/
theorem isLiteral_append_iff {front text : List Char}
    (plain : ∀ c ∈ front, c ≠ '[' ∧ c ≠ '\\' ∧ isHidden c = false) :
    IsLiteral (front ++ text) ↔ IsLiteral text := by
  induction front with
  | nil => rfl
  | cons c rest induction =>
    obtain ⟨⟨noBracket, noBackslash, shown⟩, others⟩ := List.forall_mem_cons.mp plain
    rw [← induction others, List.cons_append]
    constructor
    · rintro ⟨untagged, unescaped, allShown⟩
      rw [hasTag_cons_iff noBracket] at untagged
      rw [hasEscape_cons_iff noBackslash] at unescaped
      exact ⟨untagged, unescaped, fun c member => allShown c (List.mem_cons_of_mem _ member)⟩
    · rintro ⟨untagged, unescaped, allShown⟩
      rw [← hasTag_cons_iff noBracket] at untagged
      rw [← hasEscape_cons_iff noBackslash] at unescaped
      exact ⟨untagged, unescaped, List.forall_mem_cons.mpr ⟨shown, allShown⟩⟩

theorem pieces_success (text : List Char) :
    pieces ("[green]✓[/green] ".toList ++ text) =
      [.tag 0 ['g', 'r', 'e', 'e', 'n'], .character '✓', .tag 0 ['/', 'g', 'r', 'e', 'e', 'n'],
        .character ' '] ++ pieces text := by
  rfl

theorem render_success {text : List Char} (literal : IsLiteral text) :
    render ("[green]✓[/green] ".toList ++ text) = .ok ("✓ ".toList ++ text) := by
  have front : [.tag 0 ['g', 'r', 'e', 'e', 'n'], .character '✓',
      .tag 0 ['/', 'g', 'r', 'e', 'e', 'n'], .character ' '].foldlM renderPiece ⟨0, [], [], []⟩ =
        .ok ⟨17, [], [' '], [[], ['✓'], [], []]⟩ := by rfl
  obtain ⟨last, folded⟩ := foldlM_characters text ⟨17, [], [' '], [[], ['✓'], [], []]⟩
  have whole : (pieces ("[green]✓[/green] ".toList ++ text)).foldlM renderPiece ⟨0, [], [], []⟩ =
      .ok last := by
    rw [pieces_success, pieces_of_untagged literal.untagged, List.foldlM_append, front]
    exact folded
  have rendered : render ("[green]✓[/green] ".toList ++ text) =
      .ok (last.endRun.shown.reverse.flatten.filter (!isHidden ·)) := by
    rw [render, whole]
    rfl
  have unescaped : ¬HasEscape (' ' :: text) := by
    rw [hasEscape_cons_iff (by decide)]
    exact literal.unescaped
  have told := text_of_foldlM folded
  rw [Rendering.text, visible_characters, List.reverse_singleton, List.singleton_append,
    unescapeBrackets_eq_iff.mpr unescaped] at told
  have shown : ∀ c ∈ "✓ ".toList ++ text, (!isHidden c) = true := by
    intro c member
    rcases List.mem_append.mp member with inFront | inText
    · have mark : "✓ ".toList.all (!isHidden ·) = true := by decide +kernel
      exact List.all_eq_true.mp mark c inFront
    · simpa using literal.shown c inText
  rw [rendered, told]
  exact congrArg Except.ok (List.filter_eq_self.mpr shown)

end Markup

/-! ## Lines -/

theorem expandTabs_of_not_mem {line : List Char} (none : '\t' ∉ line) (column : Nat) :
    expandTabs column line = line := by
  induction line generalizing column with
  | nil => rfl
  | cons c rest induction =>
    rw [List.mem_cons, not_or] at none
    rw [expandTabs]
    · rw [induction none.2]
    · exact fun isTab => none.1 isTab.symm

theorem not_mem_expandTabs (column : Nat) (line : List Char) : '\t' ∉ expandTabs column line := by
  fun_induction expandTabs column line with
  | case1 => simp
  | case2 column rest width induction =>
    rw [List.mem_append, not_or]
    exact ⟨fun member => by simp at member, induction⟩
  | case3 column c rest noTab induction =>
    rw [List.mem_cons, not_or]
    exact ⟨fun isTab => noTab isTab.symm, induction⟩

/-- The text that lines are printed as, before the line break at its end. -/
def printed (shown : List Char) : List Char :=
  Text.unlines ((Text.lines shown).map (expandTabs 0))

theorem styledText_eq (message : String) :
    styledText message =
      (Markup.render message.toList).map fun shown => String.ofList (printed shown ++ ['\n']) := by
  rw [styledText, shownLines]
  cases Markup.render message.toList <;> rfl

theorem printed_of_not_mem {shown : List Char} (none : '\t' ∉ shown) : printed shown = shown := by
  have same : (Text.lines shown).map (expandTabs 0) = Text.lines shown := by
    refine (List.map_congr_left fun line member => ?_).trans (List.map_id (Text.lines shown))
    exact expandTabs_of_not_mem (fun tab => none (Text.mem_of_mem_lines member tab)) 0
  rw [printed, same, Text.unlines_lines]

theorem not_mem_printed (shown : List Char) : '\t' ∉ printed shown := by
  intro tab
  rcases Text.mem_unlines tab with feed | ⟨line, member, inLine⟩
  · cases feed
  · obtain ⟨before, -, rfl⟩ := List.mem_map.mp member
    exact not_mem_expandTabs 0 before inLine

/-- A message is written as it is just if it is literal and has no tab in it. -/
theorem styledText_eq_self_iff {message : String} :
    styledText message = .ok (message ++ "\n") ↔
      Markup.IsLiteral message.toList ∧ '\t' ∉ message.toList := by
  rw [styledText_eq, ← Markup.render_eq_self_iff]
  constructor
  · intro written
    cases rendered : Markup.render message.toList with
    | error fault =>
      rw [rendered] at written
      cases written
    | ok shown =>
      rw [rendered] at written
      have same := congrArg String.toList (Except.ok.inj written)
      rw [String.toList_ofList, String.toList_append] at same
      have whole : printed shown = message.toList := List.append_cancel_right same
      have none : '\t' ∉ message.toList := whole ▸ not_mem_printed shown
      have noneShown := fun tab => none ((Markup.render_sublist rendered).subset tab)
      rw [printed_of_not_mem noneShown] at whole
      exact ⟨by rw [whole], none⟩
  · rintro ⟨rendered, none⟩
    rw [rendered]
    refine congrArg Except.ok (String.toList_inj.mp ?_)
    rw [String.toList_ofList, String.toList_append, printed_of_not_mem none]
    rfl

theorem styledText_success {message : String} (literal : Markup.IsLiteral message.toList)
    (noTab : '\t' ∉ message.toList) :
    styledText (Notice.success message) = .ok ("✓ " ++ message ++ "\n") := by
  have spelled :
      (Notice.success message).toList = "[green]✓[/green] ".toList ++ message.toList := by
    rw [← String.toList_append]
    rfl
  have none : '\t' ∉ "✓ ".toList ++ message.toList := by
    rw [List.mem_append, not_or]
    exact ⟨by decide, noTab⟩
  rw [styledText_eq, spelled, Markup.render_success literal]
  refine congrArg Except.ok (String.toList_inj.mp ?_)
  rw [String.toList_ofList, printed_of_not_mem none, String.toList_append, String.toList_append]
  rfl

end DocAudit
