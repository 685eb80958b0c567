import DocAudit.Proofs.Pattern.EnclosedItems

/-!
Texts in named groups. A text that can be read alone as an expression, sets no flags for it and asks
for no capture is read alike as the body of a named group, wherever the group stands.
-/

namespace DocAudit.Pattern

open Reader

/-! ## Tokens -/

theorem tokens_cons {c : Char} (bare : c ≠ '\\') (rest : List Char) :
    tokens (c :: rest) = [c] :: tokens rest := by
  rw [tokens.eq_def]
  simp [bare]

theorem tokens_append {first : List Char} (whole : ['\\'] ∉ tokens first) (second : List Char) :
    tokens (first ++ second) = tokens first ++ tokens second := by
  induction first using tokens.induct with
  | case1 => rfl
  | case2 => exact absurd (List.mem_singleton_self _) whole
  | case3 c rest induction =>
    exact congrArg (List.cons _) (induction fun alone => whole (List.mem_cons_of_mem _ alone))
  | case4 c rest notLast notEscape induction =>
    have bare : c ≠ '\\' := by
      rintro rfl
      cases rest with
      | nil => exact notLast rfl rfl
      | cons next rest => exact notEscape next rest rfl rfl
    rw [tokens_cons bare] at whole
    rw [List.cons_append, tokens_cons bare, tokens_cons bare, induction, List.cons_append]
    exact fun alone => whole (List.mem_cons_of_mem _ alone)

/-! ## Whole expressions -/

/-- Where reading an expression begins. -/
def State.start (tokens : List Token) : State :=
  ⟨tokens, 0, [], 0, [], [], none, []⟩

/-- What is asked of the state at the end of an expression. -/
structure State.Finishes (state : State) (part : Part) : Prop where
  compatible : ¬(state.flags.contains 'a' && state.flags.contains 'u') = true
  tokens : state.tokens = []
  conditions : ∀ entry ∈ state.conditions, entry.1 ≤ state.captures
  matchable : unmatchable? (state.flags.contains 't') part = none

/-- What is left of reading an expression, once its part has been read. -/
def ending (part : Part) : Reader Part := do
  let state ← get
  if state.flags.contains 'a' && state.flags.contains 'u' then
    throw ⟨.incompatibleGlobalFlags, none⟩
  if (← peek).isSome then stop .unbalancedParenthesis 0
  match state.conditions.reverse.find? fun (group, _) => state.captures < group with
  | some (group, place) => stopAt place (.invalidReference group)
  | none =>
    match unmatchable? (state.flags.contains 't') part with
    | some cause => throw ⟨cause, none⟩
    | none => return part

theorem run_ending_eq_ok_iff {state last : State} {part value : Part} :
    (ending part).run state = .ok (value, last) ↔
      state.Finishes part ∧ value = part ∧ last = state := by
  constructor
  · intro ran
    change StateT.run (ite _ _ _) state = _ at ran
    split at ran
    · cases ran
    next compatible =>
    change StateT.run (ite _ _ _) state = _ at ran
    split at ran
    · obtain ⟨_, between, stopped, -⟩ := exists_of_run_bind ran
      exact ((Stops.stop _ _) _ _ _ stopped).elim
    next ended =>
    split at ran
    · cases ran
    next met =>
    split at ran
    · cases ran
    next matchable =>
    cases ran
    refine ⟨⟨compatible, ?_, fun entry member => ?_, matchable⟩, rfl, rfl⟩
    · simpa using ended
    · simpa using List.find?_eq_none.mp met entry (List.mem_reverse.mpr member)
  · rintro ⟨finishes, rfl, rfl⟩
    change StateT.run (ite _ _ _) last = _
    rw [if_neg finishes.compatible]
    change StateT.run (ite _ _ _) last = _
    rw [if_neg (by rw [finishes.tokens]; exact Bool.false_ne_true)]
    split
    · next group place met =>
      have within := finishes.conditions _ (List.mem_reverse.mp (List.mem_of_find?_eq_some met))
      have beyond := List.find?_some met
      simp only [decide_eq_true_eq] at beyond
      omega
    · rw [finishes.matchable]
      rfl

theorem run_expression_eq_ok_iff {fuel : Nat} {state last : State} {part : Part} :
    (expression fuel).run state = .ok (part, last) ↔
      state.tokens.head? ≠ some ['\\'] ∧
        (alternatives fuel true true []).run state = .ok (part, last) ∧ last.Finishes part := by
  have steps : expression fuel =
      checkNext >>= fun _ => alternatives fuel true true [] >>= ending := rfl
  have checked := run_checkNext state
  rw [steps]
  constructor
  · intro ran
    obtain ⟨_, between, begun, goesOn⟩ := exists_of_run_bind ran
    rw [checked] at begun
    split at begun
    · cases begun
    next whole =>
    cases begun
    obtain ⟨read, after, alternativesRan, ended⟩ := exists_of_run_bind goesOn
    obtain ⟨finishes, rfl, rfl⟩ := run_ending_eq_ok_iff.mp ended
    exact ⟨whole, alternativesRan, finishes⟩
  · rintro ⟨whole, alternativesRan, finishes⟩
    rw [if_neg whole] at checked
    rw [run_bind_of_ok checked, run_bind_of_ok alternativesRan]
    exact run_ending_eq_ok_iff.mpr ⟨finishes, rfl, rfl⟩

theorem parse_eq_ok_iff {text : List Char} {pattern : Pattern} :
    parse text = .ok pattern ↔ ∃ last,
      (expression (2 * (tokens text).length + 2)).run (.start (tokens text)) =
        .ok (pattern.part, last) ∧ last.names = pattern.names := by
  have steps : parse text =
      ((expression (2 * (tokens text).length + 2)).run (.start (tokens text))).map
        fun read => ⟨read.1, read.2.names⟩ := rfl
  rw [steps]
  cases (expression (2 * (tokens text).length + 2)).run (.start (tokens text)) with
  | error stop => simp [Except.map]
  | ok read =>
    rw [Except.map, Except.ok.injEq]
    constructor
    · rintro rfl
      exact ⟨read.2, rfl, rfl⟩
    · rintro ⟨last, ⟨⟩, names⟩
      rw [names]

/-! ## Single steps -/

section Steps

variable {state : State} {token : Token} {rest : List Token}

theorem run_skip_of_whole (known : state.tokens = token :: rest)
    (whole : rest.head? ≠ some ['\\']) : skip.run state = .ok ((), state.advanced) := by
  rw [run_skip, State.advanced, known]
  exact if_neg whole

theorem run_next (known : state.tokens = token :: rest) (whole : rest.head? ≠ some ['\\']) :
    next.run state = .ok (some token, state.advanced) := by
  have steps : next = peek >>= fun token => skip >>= fun _ => pure token := rfl
  have peeked : peek.run state = .ok (some token, state) := by
    change Except.ok (state.tokens.head?, state) = _
    rw [known]
    rfl
  rw [steps, run_bind_of_ok peeked, run_bind_of_ok (run_skip_of_whole known whole)]
  rfl

theorem run_accept {c : Char} (known : state.tokens = [c] :: rest)
    (whole : rest.head? ≠ some ['\\']) : (accept c).run state = .ok (true, state.advanced) := by
  change StateT.run (ite _ _ _) state = _
  rw [if_pos (by rw [known]; rfl), run_bind_of_ok (run_skip_of_whole known whole)]
  rfl

theorem run_accept_of_ne {c : Char} (different : state.tokens.head? ≠ some [c]) :
    (accept c).run state = .ok (false, state) := by
  change StateT.run (ite _ _ _) state = _
  rw [if_neg different]
  rfl

/-- An item that a token begins. -/
theorem run_items_of_token (known : state.tokens = token :: rest)
    (whole : rest.head? ≠ some ['\\']) (noBar : token ≠ ['|']) (notClosing : token ≠ [')'])
    (fuel : Nat) (mayFlag : Bool) (flags : Flags) (read : List Part) :
    (items (fuel + 1) mayFlag flags read).run state =
      (itemsFromToken fuel mayFlag flags read state.position token).run state.advanced := by
  have peeked : peek.run state = .ok (some token, state) := by
    change Except.ok (state.tokens.head?, state) = _
    rw [known]
    rfl
  rw [items_succ, run_bind_of_ok peeked, itemsAt.eq_def]
  split
  · next none => cases none
  · next bar => exact absurd (Option.some.inj bar) noBar
  · next closing => exact absurd (Option.some.inj closing) notClosing
  · next same =>
    obtain rfl := Option.some.inj same
    have placed : position.run state = .ok (state.position, state) := rfl
    rw [run_bind_of_ok placed, run_bind_of_ok (run_skip_of_whole known whole)]

end Steps

/-! ## Named groups -/

theorem head?_name_tokens {terminator : Char} {name : List Char} {rest : List Token}
    (bare : '\\' ∉ name) (notEscape : terminator ≠ '\\') :
    (name.map ([·]) ++ [terminator] :: rest).head? ≠ some ['\\'] := by
  cases name with
  | nil => simpa using notEscape
  | cons next name =>
    have first : next ≠ '\\' := fun same => bare (same ▸ List.mem_cons_self ..)
    simpa using first

theorem run_takeUntil {terminator : Char} {what : String} (name : List Char) {fuel : Nat}
    {read : List Char} {rest : List Token} {state : State}
    (known : state.tokens = name.map ([·]) ++ [terminator] :: rest)
    (whole : rest.head? ≠ some ['\\']) (other : terminator ∉ name) (bare : '\\' ∉ name)
    (notEscape : terminator ≠ '\\') (enough : name.length < fuel) (some : read ++ name ≠ []) :
    ∃ position, (takeUntil terminator what fuel read).run state =
      .ok (read ++ name, { state with tokens := rest, position := position }) := by
  induction name generalizing fuel read state with
  | nil =>
    obtain ⟨fuel, rfl⟩ : ∃ less, fuel = less + 1 := Nat.exists_eq_succ_of_ne_zero (by omega)
    rw [List.append_nil] at some ⊢
    rw [takeUntil, run_bind_of_ok (run_next known whole)]
    dsimp only
    rw [if_pos rfl, if_neg (by simpa using some)]
    refine ⟨state.advanced.position, ?_⟩
    rw [State.advanced, known]
    rfl
  | cons c name induction =>
    obtain ⟨fuel, rfl⟩ : ∃ less, fuel = less + 1 := Nat.exists_eq_succ_of_ne_zero (by omega)
    rw [List.mem_cons, not_or] at other bare
    rw [List.map_cons, List.cons_append] at known
    have differs : [c] ≠ [terminator] := fun same => other.1 (List.singleton_inj.mp same).symm
    have further : ∃ position, (takeUntil terminator what fuel (read ++ [c])).run state.advanced =
        .ok (read ++ [c] ++ name, { state.advanced with tokens := rest, position := position }) :=
      induction (by rw [State.advanced, known]; rfl) other.2 bare.2 (Nat.lt_of_succ_lt_succ enough)
        (by simp)
    obtain ⟨position, ran⟩ := further
    refine ⟨position, ?_⟩
    rw [takeUntil, run_bind_of_ok (run_next known (head?_name_tokens bare.2 notEscape))]
    dsimp only
    rw [if_neg differs, ran, List.append_assoc]
    rfl

/-- What can be the name of a group. -/
structure IsGroupName (name : List Char) : Prop where
  isName : Text.isName name = true
  bare : '\\' ∉ name
  closed : '>' ∉ name

/-- The tokens of a parenthesis that opens a named group. -/
def nameTokens (name : List Char) : List Token :=
  ['?'] :: ['P'] :: ['<'] :: (name.map ([·]) ++ [['>']])

theorem run_opening_named {name : List Char} (isGroupName : IsGroupName name) {rest : List Token}
    {state : State} (known : state.tokens = nameTokens name ++ rest)
    (whole : rest.head? ≠ some ['\\']) (flags : Flags) (start : Nat) :
    ∃ position, (opening flags start).run state =
      .ok (.capture (some name), { state with tokens := rest, position := position }) := by
  let behindName := name.map ([·]) ++ ['>'] :: rest
  have known : state.tokens = ['?'] :: ['P'] :: ['<'] :: behindName := by
    rw [known, nameTokens]
    simp [behindName]
  have kindKnown : state.advanced.tokens = ['P'] :: ['<'] :: behindName := by
    rw [State.advanced, known]
    rfl
  have markKnown : state.advanced.advanced.tokens = ['<'] :: behindName := by
    rw [State.advanced, kindKnown]
    rfl
  have nameKnown : state.advanced.advanced.advanced.tokens = behindName := by
    rw [State.advanced, markKnown]
    rfl
  have extended := run_accept known (show some ['P'] ≠ some ['\\'] by decide)
  have kind := run_next kindKnown (show some ['<'] ≠ some ['\\'] by decide)
  have named := run_accept markKnown (head?_name_tokens isGroupName.bare (by decide))
  obtain ⟨position, taken⟩ : ∃ position,
      (takeName '>' "group name").run state.advanced.advanced.advanced =
        .ok (name, { state with tokens := rest, position := position }) := by
    have some : [] ++ name ≠ [] := by
      rintro none
      have isName := isGroupName.isName
      rw [List.nil_append] at none
      rw [none] at isName
      cases isName
    refine run_takeUntil name nameKnown whole isGroupName.closed isGroupName.bare (by decide) ?_
      some
    rw [nameKnown, List.length_append, List.length_map]
    omega
  have checked (state : State) : (checkGroupName name).run state = .ok ((), state) := by
    rw [checkGroupName, isGroupName.isName]
    rfl
  refine ⟨position, ?_⟩
  rw [opening, run_bind_of_ok extended]
  change StateT.run (next >>= _) state.advanced = _
  rw [run_bind_of_ok kind]
  change (namedOpening flags).run _ = _
  rw [namedOpening, run_bind_of_ok named]
  change StateT.run (takeName '>' "group name" >>= _) _ = _
  rw [run_bind_of_ok taken, run_bind_of_ok (checked _)]
  rfl

/-- A text reads alone as an expression that sets no flags for the whole of it and asks for no
capture. -/
structure ReadsAlone (text : List Char) (part : Part) (last : State) : Prop where
  read : (expression (2 * (tokens text).length + 2)).run (.start (tokens text)) = .ok (part, last)
  unflagged : last.flags = []
  refersNowhere : part.refersNowhere = true

namespace ReadsAlone

variable {text : List Char} {part : Part} {last : State}

theorem finishes (alone : ReadsAlone text part last) : last.Finishes part :=
  (run_expression_eq_ok_iff.mp alone.read).2.2

theorem plain (alone : ReadsAlone text part last) : last.Plain :=
  ⟨alone.unflagged, by rw [alone.finishes.tokens]; exact List.not_mem_nil⟩

/-- The text is read alike as the body of a group, at any place. -/
theorem enclosed (alone : ReadsAlone text part last) (surroundings : Surroundings)
    (apart : ∀ name ∈ last.names.map Prod.fst, name ∉ surroundings.names.map Prod.fst) {fuel : Nat}
    (enough : 2 * (tokens text).length + 2 ≤ fuel) :
    surroundings.Fits (.start (tokens text)) ∧ last.inside = none ∧
      (alternatives fuel false false []).run (surroundings.around (.start (tokens text))) =
        .ok (part.renumber surroundings.captures, surroundings.around last) :=
  (carriesOn surroundings _).onAlternatives fuel true true false [] _ enough (fun _ => rfl) part
    last (run_expression_eq_ok_iff.mp alone.read).2.1 ⟨alone.refersNowhere, nofun⟩ ⟨alone.plain, apart⟩

/-- No backslash stands alone at the end of the text. -/
theorem whole (alone : ReadsAlone text part last) : ['\\'] ∉ tokens text := by
  have plain := (alone.enclosed .empty (fun _ _ => List.not_mem_nil) (Nat.le_refl _)).1.plain
  have first := (run_expression_eq_ok_iff.mp alone.read).1
  intro member
  cases known : tokens text with
  | nil =>
    rw [known] at member
    cases member
  | cons token rest =>
    rw [known] at member plain first
    rcases List.mem_cons.mp member with same | further
    · exact first (congrArg some same.symm)
    · exact plain.2 further

end ReadsAlone

/-- The flags that an expression sets for the whole of it, if it can be read. -/
def wholeFlags? (text : List Char) : Option Flags :=
  ((expression (2 * (tokens text).length + 2)).run (.start (tokens text))).toOption.map (·.2.flags)

/-- A text is read as a pattern that sets no flags for the whole of it and asks for no capture. -/
structure IsSelfContained (text : List Char) (pattern : Pattern) : Prop where
  parse : Pattern.parse text = .ok pattern
  unflagged : wholeFlags? text = some []
  refersNowhere : pattern.part.refersNowhere = true

theorem IsSelfContained.readsAlone {text : List Char} {pattern : Pattern}
    (selfContained : IsSelfContained text pattern) :
    ∃ last, ReadsAlone text pattern.part last ∧ last.names = pattern.names := by
  obtain ⟨last, read, names⟩ := parse_eq_ok_iff.mp selfContained.parse
  have unflagged := selfContained.unflagged
  rw [wholeFlags?, read] at unflagged
  exact ⟨last, ⟨read, Option.some.inj unflagged, selfContained.refersNowhere⟩, names⟩

/-- What is known behind a named group, with the state before it and the state at the end of its
body read alone. -/
structure IsBehindGroup (name : List Char) (last before after : State) (behind : List Token) :
    Prop where
  tokens : after.tokens = behind
  flags : after.flags = []
  captures : after.captures = last.captures + (before.captures + 1)
  names : after.names = last.names.map (fun entry => (entry.1, entry.2 + (before.captures + 1))) ++
    (name, before.captures + 1) :: before.names
  inside : after.inside = none
  conditions : after.conditions = last.conditions ++ before.conditions

theorem IsBehindGroup.keys {name : List Char} {last before after : State} {behind : List Token}
    (isBehind : IsBehindGroup name last before after behind) :
    after.names.map Prod.fst = last.names.map Prod.fst ++ name :: before.names.map Prod.fst := by
  rw [isBehind.names, List.map_append, List.map_map]
  rfl

theorem run_items_named {text name : List Char} {part : Part} {last state : State}
    {behind : List Token} {fuel : Nat} (alone : ReadsAlone text part last)
    (isGroupName : IsGroupName name)
    (known : state.tokens = ['('] :: (nameTokens name ++ (tokens text ++ [')'] :: behind)))
    (whole : behind.head? ≠ some ['\\']) (unflagged : state.flags = [])
    (outside : state.inside = none) (new : name ∉ state.names.map Prod.fst)
    (apart : ∀ other ∈ last.names.map Prod.fst, other ∉ name :: state.names.map Prod.fst)
    (enough : 2 * (tokens text).length + 2 ≤ fuel) (mayFlag : Bool) (read : List Part) :
    ∃ after, IsBehindGroup name last state after behind ∧
      (items (fuel + 1) mayFlag [] read).run state =
        (items fuel mayFlag []
          (.capture (state.captures + 1) (part.renumber (state.captures + 1)) :: read)).run
            after := by
  have bodyWhole : (tokens text ++ [')'] :: behind).head? ≠ some ['\\'] := by
    have first : (tokens text).head? ≠ some ['\\'] := (run_expression_eq_ok_iff.mp alone.read).1
    cases known : tokens text with
    | nil => exact (show some [')'] ≠ some ['\\'] by decide)
    | cons token rest =>
      rw [known] at first
      exact first
  have begun := run_items_of_token known (show some ['?'] ≠ some ['\\'] by decide) (by decide)
    (by decide) fuel mayFlag [] read
  have markKnown : state.advanced.tokens =
      nameTokens name ++ (tokens text ++ [')'] :: behind) := by
    rw [State.advanced, known]
    rfl
  obtain ⟨position, opened⟩ := run_opening_named isGroupName markKnown bodyWhole [] state.position
  have newName : state.names.lookup name = none := by
    rw [List.lookup_eq_none_iff]
    intro entry member
    rw [bne_iff_ne]
    rintro rfl
    exact new (List.mem_map_of_mem member)
  let surroundings : Surroundings :=
    ⟨behind, position, state.captures + 1, (name, state.captures + 1) :: state.names, state.closed,
      state.conditions⟩
  have bodyRan := (alone.enclosed surroundings apart enough).2.2
  let entered : State :=
    { state.advanced with
      tokens := tokens text ++ [')'] :: behind
      position := position }
  have captured : (openCapture (some name)).run entered =
      .ok (state.captures + 1, surroundings.around (.start (tokens text))) := by
    have newEntered : entered.names.lookup name = none := newName
    rw [run_openCapture_some newEntered]
    simp [Surroundings.around, State.start, State.opened, State.advanced, surroundings, entered,
      unflagged, outside]
  have closing : (surroundings.around last).tokens = [')'] :: behind := by
    rw [Surroundings.around, alone.finishes.tokens]
    rfl
  have closed : (closeGroup state.position).run (surroundings.around last) =
      .ok ((), (surroundings.around last).advanced) := by
    rw [closeGroup, run_bind_of_ok (run_accept closing whole)]
    rfl
  let group := state.captures + 1
  let body := part.renumber group
  let after : State :=
    { (surroundings.around last).advanced with
      closed := (group, body.width) :: (surroundings.around last).closed }
  refine ⟨after, ⟨?_, alone.unflagged, rfl, rfl, ?_, rfl⟩, ?_⟩
  · change (surroundings.around last).tokens.drop 1 = behind
    rw [closing]
    rfl
  · change last.inside.map _ = none
    rw [(alone.enclosed surroundings apart enough).2.1]
    rfl
  rw [begun]
  change StateT.run (opening [] state.position >>= _) state.advanced = _
  rw [run_bind_of_ok opened]
  change StateT.run (openCapture (some name) >>= _) entered = _
  rw [run_bind_of_ok captured, run_bind_of_ok bodyRan, run_bind_of_ok closed]
  rfl

end DocAudit.Pattern
