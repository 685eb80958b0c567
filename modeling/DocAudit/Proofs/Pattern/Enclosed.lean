import DocAudit.Proofs.Pattern.SideBySide

/-!
Reading an expression inside a group of a larger one. The reader meets the same tokens there, with
the closing parenthesis of the group behind them, and goes through the same states but for what has
been read before the group: captures are counted on from those of the larger expression.
-/

namespace DocAudit.Pattern

open Reader

/-- No flags have been set for the whole expression, and no backslash stands alone behind the next
token. -/
def State.Plain (state : State) : Prop :=
  state.flags = [] ∧ ['\\'] ∉ state.tokens.drop 1

/-- What stands around an expression that is enclosed in a group: the tokens behind the group, and
what has been read before it. -/
structure Surroundings where
  behind : List Token
  position : Nat
  captures : Nat
  names : List (List Char × Nat)
  closed : List (Nat × Width)
  conditions : List (Nat × Nat)

namespace Surroundings

/-- A state of reading the enclosed expression, as a state of reading the larger one. -/
def around (surroundings : Surroundings) (state : State) : State where
  tokens := state.tokens ++ [')'] :: surroundings.behind
  position := state.position + surroundings.position
  flags := state.flags
  captures := state.captures + surroundings.captures
  names := state.names.map (fun entry => (entry.1, entry.2 + surroundings.captures)) ++
    surroundings.names
  closed := state.closed.map (fun entry => (entry.1 + surroundings.captures, entry.2)) ++
    surroundings.closed
  inside := state.inside.map (· + surroundings.captures)
  conditions := state.conditions ++ surroundings.conditions

/-- What has been read up to a state may stand in a group: it is plain and has given no name that
the surroundings give too. -/
structure Fits (surroundings : Surroundings) (state : State) : Prop where
  plain : state.Plain
  apart : ∀ name ∈ state.names.map Prod.fst, name ∉ surroundings.names.map Prod.fst

end Surroundings

/-! ## Running readers -/

variable {α β γ δ : Type}

theorem exists_of_run_bind {first : Reader α} {next : α → Reader β} {state last : State}
    {value : β} (ran : (first >>= next).run state = .ok (value, last)) :
    ∃ middle between, first.run state = .ok (middle, between) ∧
      (next middle).run between = .ok (value, last) := by
  rw [StateT.run_bind] at ran
  cases begun : first.run state with
  | error stop =>
    rw [begun] at ran
    cases ran
  | ok reached =>
    rw [begun] at ran
    exact ⟨reached.1, reached.2, rfl, ran⟩

theorem run_bind_of_ok {first : Reader α} {next : α → Reader β} {state between : State}
    {middle : α} (ran : first.run state = .ok (middle, between)) :
    (first >>= next).run state = (next middle).run between := by
  rw [StateT.run_bind, ran]
  rfl

/-- What can be said of every value that a reader gives. -/
def Gives (Says : α → Prop) (reader : Reader α) : Prop :=
  ∀ state value last, reader.run state = .ok (value, last) → Says value

/-- A reader gives nothing. -/
def Stops (reader : Reader α) : Prop :=
  Gives (fun _ => False) reader

namespace Gives

variable {Says : α → Prop}

theorem stops {reader : Reader α} (stops : Stops reader) : Gives Says reader :=
  fun state value last ran => (stops state value last ran).elim

theorem pure {value : α} (holds : Says value) : Gives Says (pure value) := by
  rintro state _ last ⟨⟩
  exact holds

theorem bind {Before : β → Prop} {first : Reader β} {next : β → Reader α}
    (before : Gives Before first) (further : ∀ middle, Before middle → Gives Says (next middle)) :
    Gives Says (first >>= next) := by
  intro state value last ran
  obtain ⟨middle, between, begun, goesOn⟩ := exists_of_run_bind ran
  exact further middle (before state middle between begun) between value last goesOn

theorem behind (first : Reader β) {next : β → Reader α}
    (further : ∀ middle, Gives Says (next middle)) : Gives Says (first >>= next) :=
  bind (show Gives (fun _ => True) first from fun _ _ _ _ => trivial) fun middle _ => further middle

theorem ite {yes no : Reader α} {test : Prop} [Decidable test]
    (whenYes : test → Gives Says yes) (whenNo : ¬test → Gives Says no) :
    Gives Says (if test then yes else no) := by
  split
  · next holds => exact whenYes holds
  · next fails => exact whenNo fails

end Gives

namespace Stops

theorem stopAt (position : Nat) (cause : Cause) : Stops (stopAt position cause : Reader α) := by
  rintro state value last ⟨⟩

theorem bind {first : Reader α} (stops : Stops first) (next : α → Reader β) :
    Stops (first >>= next) :=
  Gives.bind stops fun _ => False.elim

theorem behind (first : Reader α) {next : α → Reader β} (stops : ∀ middle, Stops (next middle)) :
    Stops (first >>= next) :=
  Gives.behind first stops

theorem stop (cause : Cause) (back : Nat) : Stops (Reader.stop cause back : Reader α) :=
  behind _ fun _ => stopAt _ cause

end Stops

/-! ## Readers that go on alike inside a group -/

variable {surroundings : Surroundings} {state : State}

/-- From a state of the enclosed expression one reader goes on alone and the other in the larger
expression: it goes to the same state and gives a view of the same value. This is said of values
that are of use where they are given. -/
def CarriesAt (surroundings : Surroundings) (state : State) (Useful : α → State → Prop)
    (view : α → β) (inner : Reader α) (outer : Reader β) : Prop :=
  ∀ value last, inner.run state = .ok (value, last) → Useful value last →
    surroundings.Fits last → surroundings.Fits state ∧ last.inside = state.inside ∧
      outer.run (surroundings.around state) = .ok (view value, surroundings.around last)

/-- The same from every state, and of every value. -/
def Carries (surroundings : Surroundings) (inner outer : Reader α) : Prop :=
  ∀ state, CarriesAt surroundings state (fun _ _ => True) id inner outer

section Steps

variable {Useful : α → State → Prop} {view : α → β}

theorem CarriesAt.stops {inner : Reader α} (stops : Stops inner) (outer : Reader β) :
    CarriesAt surroundings state Useful view inner outer :=
  fun value last ran => (stops state value last ran).elim

theorem CarriesAt.pure (value : α) :
    CarriesAt surroundings state Useful view (pure value) (pure (view value)) := by
  rintro _ last ⟨⟩ - fits
  exact ⟨fits, rfl, rfl⟩

theorem CarriesAt.bind {inner : Reader γ} {outer : Reader δ} {Useful' : γ → State → Prop}
    {view' : γ → δ} {next : γ → Reader α} {next' : δ → Reader β}
    (first : CarriesAt surroundings state Useful' view' inner outer)
    (useful : ∀ value between, inner.run state = .ok (value, between) → ∀ result last,
      (next value).run between = .ok (result, last) → Useful result last →
      surroundings.Fits last → Useful' value between)
    (further : ∀ value between, inner.run state = .ok (value, between) → Useful' value between →
      CarriesAt surroundings between Useful view (next value) (next' (view' value))) :
    CarriesAt surroundings state Useful view (inner >>= next) (outer >>= next') := by
  intro result last ran isUseful fits
  obtain ⟨value, between, begun, goesOn⟩ := exists_of_run_bind ran
  have ofUse := useful value between begun result last goesOn isUseful fits
  obtain ⟨fitsBetween, keepsOn, goesOn⟩ :=
    further value between begun ofUse result last goesOn isUseful fits
  obtain ⟨fitsState, keeps, begins⟩ := first value between begun ofUse fitsBetween
  exact ⟨fitsState, keepsOn.trans keeps, (run_bind_of_ok begins).trans goesOn⟩

theorem CarriesAt.step {inner : Reader γ} {outer : Reader δ} {view' : γ → δ} {next : γ → Reader α}
    {next' : δ → Reader β}
    (first : CarriesAt surroundings state (fun _ _ => True) view' inner outer)
    (further : ∀ value between, inner.run state = .ok (value, between) →
      CarriesAt surroundings between Useful view (next value) (next' (view' value))) :
    CarriesAt surroundings state Useful view (inner >>= next) (outer >>= next') :=
  first.bind (fun _ _ _ _ _ _ _ _ => trivial) fun value between begun _ =>
    further value between begun

theorem Carries.bind {inner outer : Reader γ} {next : γ → Reader α} {next' : γ → Reader β}
    (first : Carries surroundings inner outer)
    (further : ∀ value between, inner.run state = .ok (value, between) →
      CarriesAt surroundings between Useful view (next value) (next' value)) :
    CarriesAt surroundings state Useful view (inner >>= next) (outer >>= next') :=
  (first state).step further

theorem CarriesAt.ite {yes no : Reader α} {yes' no' : Reader β} {test : Prop} [Decidable test]
    (whenYes : test → CarriesAt surroundings state Useful view yes yes')
    (whenNo : ¬test → CarriesAt surroundings state Useful view no no') :
    CarriesAt surroundings state Useful view (if test then yes else no)
      (if test then yes' else no') := by
  split
  · next holds => exact whenYes holds
  · next fails => exact whenNo fails

theorem CarriesAt.get {next : State → Reader α} {next' : State → Reader β}
    (further : CarriesAt surroundings state Useful view (next state)
      (next' (surroundings.around state))) :
    CarriesAt surroundings state Useful view (get >>= next) (get >>= next') :=
  further

theorem CarriesAt.position {next : Nat → Reader α} {next' : Nat → Reader β}
    (further : CarriesAt surroundings state Useful view (next state.position)
      (next' (surroundings.around state).position)) :
    CarriesAt surroundings state Useful view (position >>= next) (position >>= next') :=
  further

theorem CarriesAt.modify {change change' : State → State} {next : Unit → Reader α}
    {next' : Unit → Reader β}
    (same : change' (surroundings.around state) = surroundings.around (change state))
    (fits : surroundings.Fits (change state) → surroundings.Fits state)
    (keeps : (change state).inside = state.inside)
    (further : CarriesAt surroundings (change state) Useful view (next ()) (next' ())) :
    CarriesAt surroundings state Useful view (modify change >>= next)
      (modify change' >>= next') := by
  intro value last ran isUseful fitsLast
  obtain ⟨fitsChanged, keepsOn, goesOn⟩ := further value last ran isUseful fitsLast
  refine ⟨fits fitsChanged, keepsOn.trans keeps, ?_⟩
  rw [← same] at goesOn
  exact goesOn

end Steps

/-! ## Tokens -/

/-- A state after its next token. -/
def State.advanced (state : State) : State :=
  { state with
    tokens := state.tokens.drop 1
    position := state.position + (state.tokens.head?.getD []).length }

theorem run_checkNext (state : State) :
    checkNext.run state =
      if state.tokens.head? = some ['\\'] then .error ⟨.danglingBackslash, some state.position⟩
      else .ok ((), state) := by
  change StateT.run (ite _ _ _) state = _
  split <;> rfl

theorem run_skip (state : State) :
    skip.run state =
      if state.advanced.tokens.head? = some ['\\'] then
        .error ⟨.danglingBackslash, some state.advanced.position⟩
      else .ok ((), state.advanced) :=
  run_checkNext state.advanced

theorem eq_advanced_of_run_skip {last : State} {value : Unit}
    (ran : skip.run state = .ok (value, last)) : last = state.advanced := by
  rw [run_skip] at ran
  split at ran
  · cases ran
  · cases ran
    rfl

theorem head?_tokens_around (state : State) :
    (surroundings.around state).tokens.head? = some (state.tokens.head?.getD [')']) := by
  rw [Surroundings.around]
  cases state.tokens <;> rfl

theorem length_tokens_around_ge (surroundings : Surroundings) (state : State) :
    state.tokens.length ≤ (surroundings.around state).tokens.length := by
  rw [Surroundings.around, List.length_append]
  exact Nat.le_add_right _ _

theorem around_advanced (nonempty : state.tokens ≠ []) :
    surroundings.around state.advanced = (surroundings.around state).advanced := by
  obtain ⟨token, rest, known⟩ := List.exists_cons_of_ne_nil nonempty
  simp only [Surroundings.around, State.advanced, known, List.cons_append, List.drop_succ_cons,
    List.drop_zero, List.head?_cons, Option.getD_some, State.mk.injEq, and_true, true_and]
  omega

theorem plain_of_run_skip {last : State} {value : Unit} (ran : skip.run state = .ok (value, last))
    (plain : last.Plain) : state.Plain := by
  obtain rfl := eq_advanced_of_run_skip ran
  rw [run_skip] at ran
  split at ran
  · cases ran
  · next different =>
    refine ⟨plain.1, ?_⟩
    have further := plain.2
    rw [State.advanced] at different further
    cases behind : state.tokens.drop 1 with
    | nil => exact List.not_mem_nil
    | cons token rest =>
      rw [behind] at different further
      rw [List.mem_cons, not_or]
      exact ⟨fun same => different (congrArg some same.symm), further⟩

theorem run_skip_around {last : State} {value : Unit} (nonempty : state.tokens ≠ [])
    (ran : skip.run state = .ok (value, last)) :
    skip.run (surroundings.around state) = .ok ((), surroundings.around state.advanced) := by
  rw [run_skip] at ran ⊢
  rw [← around_advanced nonempty, head?_tokens_around]
  split at ran
  · cases ran
  · next further =>
    rw [if_neg]
    cases known : state.advanced.tokens.head? with
    | none => decide
    | some token =>
      rw [known] at further
      exact further

theorem next_bind (go : Option Token → Reader α) :
    next >>= go = peek >>= fun token => skip >>= fun _ => go token := by
  simp only [next, bind_assoc, pure_bind]

section Tokens

variable {Useful : α → State → Prop} {view : α → β}

theorem CarriesAt.skip {go : Unit → Reader α} {go' : Unit → Reader β}
    (nonempty : state.tokens ≠ [])
    (further : CarriesAt surroundings state.advanced Useful view (go ()) (go' ())) :
    CarriesAt surroundings state Useful view (skip >>= go) (skip >>= go') := by
  intro value last ran isUseful fits
  obtain ⟨_, between, skipped, goesOn⟩ := exists_of_run_bind ran
  obtain rfl := eq_advanced_of_run_skip skipped
  obtain ⟨fitsBetween, keeps, goesOn⟩ := further value last goesOn isUseful fits
  exact ⟨⟨plain_of_run_skip skipped fitsBetween.plain, fitsBetween.apart⟩, keeps,
    (run_bind_of_ok (run_skip_around nonempty skipped)).trans goesOn⟩

/-- Where the expression ends, the larger one goes on with the parenthesis. -/
theorem CarriesAt.peek {go : Option Token → Reader α} {go' : Option Token → Reader β}
    (atEnd : state.tokens = [] →
      CarriesAt surroundings state Useful view (go none) (go' (some [')'])))
    (before : ∀ token rest, state.tokens = token :: rest →
      CarriesAt surroundings state Useful view (go (some token)) (go' (some token))) :
    CarriesAt surroundings state Useful view (peek >>= go) (peek >>= go') := by
  intro value last ran isUseful fits
  change (go state.tokens.head?).run state = _ at ran
  change _ ∧ _ ∧ (go' (surroundings.around state).tokens.head?).run (surroundings.around state) = _
  rw [head?_tokens_around]
  cases known : state.tokens with
  | nil =>
    rw [known] at ran
    exact atEnd known value last ran isUseful fits
  | cons token rest =>
    rw [known] at ran
    exact before token rest known value last ran isUseful fits

theorem CarriesAt.next {go : Option Token → Reader α} {go' : Option Token → Reader β}
    (never : Stops (go none))
    (each : ∀ token, CarriesAt surroundings state.advanced Useful view (go (some token))
      (go' (some token))) :
    CarriesAt surroundings state Useful view (Reader.next >>= go) (Reader.next >>= go') := by
  rw [next_bind, next_bind]
  refine .peek (fun _ => .stops (.behind _ fun _ => never) _) ?_
  intro token rest known
  exact .skip (by rw [known]; exact List.cons_ne_nil _ _) (each token)

theorem CarriesAt.accept {c : Char} (different : c ≠ ')') {go : Bool → Reader α}
    {go' : Bool → Reader β}
    (whenNext : CarriesAt surroundings state.advanced Useful view (go true) (go' true))
    (whenNot : CarriesAt surroundings state Useful view (go false) (go' false)) :
    CarriesAt surroundings state Useful view (Reader.accept c >>= go)
      (Reader.accept c >>= go') := by
  have shape {ε : Type} (go : Bool → Reader ε) :
      Reader.accept c >>= go = Reader.peek >>= fun token =>
        if token = some [c] then Reader.skip >>= fun _ => go true else go false := by
    rw [Reader.accept, bind_assoc]
    congr 1
    funext token
    split
    · simp only [bind_assoc, pure_bind]
    · rw [pure_bind]
  have notClosing : some [')'] ≠ some [c] := by simpa using Ne.symm different
  rw [shape, shape]
  refine .peek (fun _ => ?_) fun token rest known => .ite (fun _ => ?_) fun _ => whenNot
  · rw [if_neg (Option.some_ne_none _).symm, if_neg notClosing]
    exact whenNot
  · exact .skip (by rw [known]; exact List.cons_ne_nil _ _) whenNext

end Tokens

theorem carries_accept {c : Char} (different : c ≠ ')') :
    Carries surroundings (accept c) (accept c) := by
  intro state
  rw [← bind_pure (accept c)]
  exact .accept different (.pure _) (.pure _)

end DocAudit.Pattern
