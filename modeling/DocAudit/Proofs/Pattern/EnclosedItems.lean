import DocAudit.Proofs.Pattern.EnclosedTokens

/-!
Reading the items and the alternatives of an expression inside a group of a larger one. A part that
refers nowhere and sets no flags for the whole expression is read there as it is read alone, with
its captures numbered on.
-/

namespace DocAudit.Pattern

open Reader

variable {α : Type} {surroundings : Surroundings} {state : State}

/-! ## Steps of reading items -/

/-- The items from the body of a look-behind on. Behind the body, what was known outside of it counts
again. -/
def itemsBehindLookBehind (fuel : Nat) (mayFlag : Bool) (flags : Flags) (read : List Part)
    (mark : Nat) (positive : Bool) (inside : Option Nat) : Reader Part := do
  let body ← alternatives fuel false false flags
  modify fun state => { state with inside := inside }
  closeGroup mark
  items fuel mayFlag flags (.lookBehind positive body :: read)

/-- The items from what a parenthesis begins on. -/
def itemsBehind (fuel : Nat) (mayFlag : Bool) (flags : Flags) (read : List Part) (mark : Nat) :
    Opening → Reader Part
  | .comment => items fuel mayFlag flags read
  | .reference part => items fuel mayFlag flags (part :: read)
  | .flags added => do
    modify fun state => { state with flags := state.flags ++ added }
    if !mayFlag || !read.isEmpty then stopAt mark .lateFlags
    items fuel mayFlag (← get).flags read
  | .capture name => do
    let group ← openCapture name
    let body ← alternatives fuel false false flags
    closeGroup mark
    closeCapture group body
    items fuel mayFlag flags (.capture group body :: read)
  | .group added removed => do
    let body ← alternatives fuel false false (flags.within added removed)
    closeGroup mark
    items fuel mayFlag flags (.group body :: read)
  | .atomic => do
    let body ← alternatives fuel false false flags
    closeGroup mark
    items fuel mayFlag flags (.atomic body :: read)
  | .lookAhead positive => do
    let body ← alternatives fuel false false flags
    closeGroup mark
    items fuel mayFlag flags (.lookAhead positive body :: read)
  | .lookBehind positive => do
    let outer := (← get).inside
    if outer.isNone then
      modify fun state => { state with inside := some state.captures }
    itemsBehindLookBehind fuel mayFlag flags read mark positive outer
  | .conditional group => do
    let met ← items fuel false flags []
    let unmet ← if ← accept '|' then items fuel false flags [] else pure .empty
    if (← peek) = some ['|'] then stop .thirdConditionalBranch 0
    closeGroup mark
    items fuel mayFlag flags (.conditional group met unmet :: read)

/-- The items from a character on that has just been read. -/
def itemsFrom (fuel : Nat) (mayFlag : Bool) (flags : Flags) (read : List Part) (mark : Nat)
    (c : Char) : Reader Part := do
  if flags.contains 'x' && (c = ' ' || (9 ≤ c.toNat && c.toNat ≤ 13)) then
    items fuel mayFlag flags read
  else if flags.contains 'x' && c = '#' then
    lineComment ((← get).tokens.length + 1)
    items fuel mayFlag flags read
  else if c = '[' then items fuel mayFlag flags ((← set flags) :: read)
  else if c = '.' then
    items fuel mayFlag flags (.one (if flags.contains 's' then .any else .anyInLine) :: read)
  else if c = '^' then
    items fuel mayFlag flags
      (.anchor (if flags.contains 'm' then .lineStart else .textStart) :: read)
  else if c = '$' then
    items fuel mayFlag flags
      (.anchor (if flags.contains 'm' then .lineEnd else .lastLineEnd) :: read)
  else if c = '(' then itemsBehind fuel mayFlag flags read mark (← opening flags mark)
  else if c = '*' || c = '+' || c = '?' || c = '\x7b' then
    match ← bounds c with
    | none => items fuel mayFlag flags (literal flags c.toNat :: read)
    | some (least, most) => items fuel mayFlag flags (← repeatLatest mark least most read)
  else items fuel mayFlag flags (literal flags c.toNat :: read)

/-- The items from a token on that has just been read. -/
def itemsFromToken (fuel : Nat) (mayFlag : Bool) (flags : Flags) (read : List Part) (mark : Nat) :
    Token → Reader Part
  | [c] => itemsFrom fuel mayFlag flags read mark c
  | [escape, c] => do
    if escape = '\\' then items fuel mayFlag flags ((← partEscape flags c) :: read)
    else stop .danglingBackslash 0
  | _ => stop .danglingBackslash 0

/-- The items from the token on that comes next. -/
def itemsAt (fuel : Nat) (mayFlag : Bool) (flags : Flags) (read : List Part) :
    Option Token → Reader Part
  | none | some ['|'] | some [')'] => return Part.ofList read.reverse
  | some token => do
    let mark ← position
    skip
    itemsFromToken fuel mayFlag flags read mark token

theorem items_succ (fuel : Nat) (mayFlag : Bool) (flags : Flags) (read : List Part) :
    items (fuel + 1) mayFlag flags read = peek >>= itemsAt fuel mayFlag flags read :=
  rfl

theorem items_zero (mayFlag : Bool) (flags : Flags) (read : List Part) :
    items 0 mayFlag flags read = stop .unterminatedGroup 0 :=
  rfl

/-- The rest of some alternatives, once one has been read. -/
def alternativesBehind (fuel : Nat) (top : Bool) (flags : Flags) (part : Part) : Reader Part := do
  if ← accept '|' then
    let current := (← get).flags
    let rest ← alternatives fuel top false (if top then current else flags)
    return .choice part rest
  return part

theorem alternatives_succ (fuel : Nat) (top first : Bool) (flags : Flags) :
    alternatives (fuel + 1) top first flags =
      items fuel (top && first) flags [] >>= alternativesBehind fuel top flags := by
  rw [alternatives]
  rfl

/-! ## Looking back from the end -/

/-- Where a part has been read that refers nowhere, and its end is plain, the state before was plain
too, and something is known there. -/
def Leads (state : State) (Known : Prop) (reader : Reader Part) : Prop :=
  ∀ part last, reader.run state = .ok (part, last) → part.refersNowhere = true → last.Plain →
    state.Plain ∧ Known

namespace Leads

variable {Known Known' : Prop} {first : Reader α} {next : α → Reader Part}

theorem mono {reader : Reader Part} (leads : Leads state Known reader) (further : Known → Known') :
    Leads state Known' reader :=
  fun part last ran nowhere plain =>
    (leads part last ran nowhere plain).imp_right further

theorem stops {reader : Reader Part} (stops : Stops reader) : Leads state Known reader :=
  fun part last ran => (stops state part last ran).elim

theorem pure {part : Part} (known : part.refersNowhere = true → Known) :
    Leads state Known (pure part) := by
  rintro _ last ⟨⟩ nowhere plain
  exact ⟨plain, known nowhere⟩

/-- What is known of the value of one step from the steps behind it is of use for that step. -/
theorem bind (Useful : α → Prop)
    (plain : ∀ value between, first.run state = .ok (value, between) → Useful value →
      between.Plain → state.Plain)
    (further : ∀ value between, first.run state = .ok (value, between) →
      Leads between (Useful value ∧ Known) (next value)) :
    Leads state Known (first >>= next) := by
  intro part last ran nowhere lastPlain
  obtain ⟨value, between, begun, goesOn⟩ := exists_of_run_bind ran
  obtain ⟨betweenPlain, useful, known⟩ :=
    further value between begun part last goesOn nowhere lastPlain
  exact ⟨plain value between begun useful betweenPlain, known⟩

theorem step
    (plain : ∀ value between, first.run state = .ok (value, between) →
      between.Plain → state.Plain)
    (further : ∀ value between, Leads between Known (next value)) :
    Leads state Known (first >>= next) :=
  .bind (fun _ => True) (fun value between ran _ => plain value between ran)
    fun value between _ => (further value between).mono (⟨trivial, ·⟩)

theorem never (never : ∀ value between, Leads between False (next value)) :
    Leads state Known (first >>= next) :=
  .bind (fun _ => False) (fun _ _ _ => False.elim)
    fun value between _ => (never value between).mono False.elim

theorem ite {yes no : Reader Part} {test : Prop} [Decidable test]
    (whenYes : Leads state Known yes) (whenNo : Leads state Known no) :
    Leads state Known (if test then yes else no) := by
  split
  · exact whenYes
  · exact whenNo

theorem get {next : State → Reader Part} (further : ∀ before, Leads state Known (next before)) :
    Leads state Known (get >>= next) :=
  further state

theorem modify {change : State → State} {next : Unit → Reader Part}
    (plain : (change state).Plain → state.Plain)
    (further : Leads (change state) Known (next ())) :
    Leads state Known (modify change >>= next) :=
  fun part last ran nowhere lastPlain =>
    (further part last ran nowhere lastPlain).imp_left plain

end Leads

/-- Surroundings in which nothing has been read. -/
def Surroundings.empty : Surroundings :=
  ⟨[], 0, 0, [], [], []⟩

theorem CarriesAt.plain {β : Type} {Useful : α → State → Prop} {view : α → β}
    {inner : Reader α} {outer : Reader β}
    (carries : CarriesAt .empty state Useful view inner outer) {value : α} {last : State}
    (ran : inner.run state = .ok (value, last)) (useful : Useful value last)
    (plain : last.Plain) : state.Plain :=
  (carries value last ran useful ⟨plain, fun _ _ => List.not_mem_nil⟩).1.plain

theorem Carries.plain {inner outer : Reader α} (carries : Carries .empty inner outer)
    {value : α} {last : State} (ran : inner.run state = .ok (value, last))
    (plain : last.Plain) : state.Plain :=
  (carries state).plain ran trivial plain

theorem Leads.closed {Known : Prop} (mark : Nat) {next : Unit → Reader Part}
    (further : ∀ between, Leads between Known (next ())) :
    Leads state Known (closeGroup mark >>= next) :=
  .step (fun _ _ ran => (carries_closeGroup mark mark).plain ran) fun _ => further

theorem plain_of_run_lineComment {fuel : Nat} {last : State} {value : Unit}
    (ran : (lineComment fuel).run state = .ok (value, last)) (plain : last.Plain) :
    state.Plain := by
  induction fuel generalizing state with
  | zero =>
    cases ran
    exact plain
  | succ fuel induction =>
    rw [lineComment, next_bind] at ran
    obtain ⟨token, between, peeked, goesOn⟩ := exists_of_run_bind ran
    cases peeked
    obtain ⟨_, between, skipped, goesOn⟩ := exists_of_run_bind goesOn
    refine plain_of_run_skip skipped ?_
    split at goesOn
    · split at goesOn
      · cases goesOn
        exact plain
      · exact induction goesOn
    · cases goesOn
      exact plain

/-- The two readers of parts of an expression look back from their ends. -/
structure LooksBack (fuel : Nat) : Prop where
  onItems : ∀ mayFlag flags read state,
    Leads state (∀ part ∈ read, part.refersNowhere = true) (items fuel mayFlag flags read)
  onAlternatives : ∀ top first flags state, Leads state True (alternatives fuel top first flags)

namespace LooksBack

variable {fuel : Nat} {mayFlag : Bool} {flags : Flags} {read : List Part}

theorem after (looksBack : LooksBack fuel) (part : Part) (state : State) :
    Leads state (part.refersNowhere = true ∧ ∀ part ∈ read, part.refersNowhere = true)
      (items fuel mayFlag flags (part :: read)) :=
  (looksBack.onItems _ _ _ _).mono List.forall_mem_cons.mp

theorem piece (looksBack : LooksBack fuel) {inner outer : Reader Part}
    (carries : CarriesParts .empty inner outer) :
    Leads state (∀ part ∈ read, part.refersNowhere = true)
      (inner >>= fun part => items fuel mayFlag flags (part :: read)) :=
  .bind _ (fun _ _ ran nowhere => (carries state).plain ran nowhere) fun part between _ =>
    looksBack.after part between

theorem literal (looksBack : LooksBack fuel) (part : Part) :
    Leads state (∀ part ∈ read, part.refersNowhere = true)
      (items fuel mayFlag flags (part :: read)) :=
  (looksBack.after part state).mono And.right

/-- A body in parentheses and the items behind it. -/
theorem body (looksBack : LooksBack fuel) {flags : Flags} {next : Part → Reader Part}
    {Known : Prop}
    (further : ∀ body between, Leads between (body.refersNowhere = true ∧ Known) (next body)) :
    Leads state Known (alternatives fuel false false flags >>= next) :=
  .bind _
    (fun body between ran nowhere plain =>
      (looksBack.onAlternatives _ _ _ _ body between ran nowhere plain).1)
    fun body between _ => further body between

theorem behind (looksBack : LooksBack fuel) (mark : Nat) {opening : Opening}
    (wellRead : opening.WellRead) :
    Leads state (opening.refersNowhere = true ∧ ∀ part ∈ read, part.refersNowhere = true)
      (itemsBehind fuel mayFlag flags read mark opening) := by
  cases opening with
  | capture name =>
    refine .mono ?_ (⟨rfl, ·⟩)
    refine .step (fun _ _ ran => (carriesAt_openCapture name).plain ran trivial) ?_
    refine fun group between => looksBack.body fun body between => .closed mark fun between => ?_
    exact .modify id (looksBack.after (.capture group body) _)
  | group added removed =>
    refine .mono ?_ (⟨rfl, ·⟩)
    exact looksBack.body fun body between => .closed mark (looksBack.after (.group body))
  | atomic =>
    refine .mono ?_ (⟨rfl, ·⟩)
    exact looksBack.body fun body between => .closed mark (looksBack.after (.atomic body))
  | lookAhead positive =>
    refine .mono ?_ (⟨rfl, ·⟩)
    exact looksBack.body fun body between =>
      .closed mark (looksBack.after (.lookAhead positive body))
  | lookBehind positive =>
    refine .mono (.get fun before => ?_) (⟨rfl, ·⟩)
    have further (state : State) : Leads state (∀ part ∈ read, part.refersNowhere = true)
        (itemsBehindLookBehind fuel mayFlag flags read mark positive before.inside) :=
      looksBack.body fun body between =>
        .modify id (.closed mark (looksBack.after (.lookBehind positive body)))
    exact .ite (.modify id (further _)) (further _)
  | conditional group =>
    have further (met unmet : Part) (state : State) : Leads state False
        (do
          if (← peek) = some ['|'] then stop .thirdConditionalBranch 0
          closeGroup mark
          items fuel mayFlag flags (.conditional group met unmet :: read)) := by
      refine .never fun token between => .ite (.stops ((Stops.stop _ _).bind _)) ?_
      refine .never fun _ between => (looksBack.after (.conditional group met unmet) _).mono ?_
      exact fun known => nomatch known.1
    refine .never fun met between => .never fun another between => .ite ?_ ?_
    · exact .never fun unmet between => further met unmet between
    · exact .never fun unmet between => further met unmet between
  | reference part =>
    refine (looksBack.after part state).mono fun known => ?_
    rw [wellRead] at known
    cases known.1
  | comment => exact (looksBack.onItems _ _ _ _).mono (⟨rfl, ·⟩)
  | flags added =>
    refine .mono (.modify (fun plain => ⟨?_, plain.2⟩) ?_) (⟨rfl, ·⟩)
    · exact (List.append_eq_nil_iff.mp plain.1).1
    · exact .ite (.stops ((Stops.stopAt _ _).bind _)) (.get fun _ => looksBack.onItems _ _ _ _)

theorem opened (looksBack : LooksBack fuel) (mark : Nat) :
    Leads state (∀ part ∈ read, part.refersNowhere = true)
      (opening flags mark >>= itemsBehind fuel mayFlag flags read mark) := by
  refine .bind _ (fun opening between ran nowhere => ?_) fun opening between ran =>
    looksBack.behind mark (gives_opening flags mark state opening between ran)
  exact (carriesAt_opening flags mark mark).plain ran nowhere

theorem fromCharacter (looksBack : LooksBack fuel) (mark : Nat) (c : Char) :
    Leads state (∀ part ∈ read, part.refersNowhere = true)
      (itemsFrom fuel mayFlag flags read mark c) := by
  refine .ite (looksBack.onItems _ _ _ _) (.ite ?_ (.ite ?_ ?_))
  · refine .get fun before => .step (fun _ _ ran plain => ?_) fun _ _ => looksBack.onItems _ _ _ _
    exact plain_of_run_lineComment ran plain
  · exact looksBack.piece (carriesParts_set flags)
  refine .ite (looksBack.literal _) (.ite (looksBack.literal _) (.ite (looksBack.literal _) ?_))
  refine .ite ?_ (.ite ?_ (looksBack.literal _))
  · exact looksBack.opened mark
  · refine .step (fun _ _ ran => (carries_bounds c).plain ran) fun known between => ?_
    rcases known with _ | ⟨least, most⟩
    · exact looksBack.literal _
    · refine .bind (fun parts => ∀ part ∈ parts, part.refersNowhere = true)
        (fun parts last ran _ => ?_) fun parts last ran => ?_
      · exact (carriesAt_repeatLatest mark mark least most read).plain ran trivial
      · have earlier := gives_repeatLatest mark least most read between parts last ran
        exact (looksBack.onItems _ _ _ _).mono fun nowhere => ⟨nowhere, earlier nowhere⟩

theorem fromToken (looksBack : LooksBack fuel) (mark : Nat) (token : Token) :
    Leads state (∀ part ∈ read, part.refersNowhere = true)
      (itemsFromToken fuel mayFlag flags read mark token) := by
  rw [itemsFromToken.eq_def]
  split
  · next c => exact looksBack.fromCharacter mark c
  · next escape c =>
    split
    · exact looksBack.piece (carriesParts_partEscape flags c)
    · exact .stops (.stop _ _)
  · exact .stops (.stop _ _)

theorem rest (looksBack : LooksBack fuel) (top : Bool) (part : Part) :
    Leads state (part.refersNowhere = true)
      (do
        let rest ← alternatives fuel top false flags
        return .choice part rest) := by
  refine .bind _
    (fun rest last ran nowhere plain =>
      (looksBack.onAlternatives _ _ _ _ rest last ran nowhere plain).1)
    fun rest last _ => .pure fun nowhere => ?_
  exact (Bool.and_eq_true_iff.mp nowhere).symm

theorem another (looksBack : LooksBack fuel) (top : Bool) (part : Part) :
    Leads state (part.refersNowhere = true) (alternativesBehind fuel top flags part) := by
  refine .step (fun _ _ ran => (carries_accept (by decide)).plain ran) fun more between => ?_
  exact .ite (.get fun before => looksBack.rest top part) (.pure id)

theorem succ (looksBack : LooksBack fuel) : LooksBack (fuel + 1) where
  onItems mayFlag flags read state := by
    rw [items_succ]
    have ended (state : State) : Leads state (∀ part ∈ read, part.refersNowhere = true)
        (Pure.pure (Part.ofList read.reverse)) :=
      .pure fun nowhere part member =>
        Part.refersNowhere_ofList.mp nowhere part (List.mem_reverse.mpr member)
    refine .step (fun _ _ ran => by cases ran; exact id) fun token between => ?_
    rw [itemsAt.eq_def]
    split
    · exact ended _
    · exact ended _
    · exact ended _
    · next token _ _ =>
      refine .step (fun _ _ ran => by cases ran; exact id) fun mark between => ?_
      exact .step (fun _ _ ran => plain_of_run_skip ran) fun _ between =>
        looksBack.fromToken mark token
  onAlternatives top first flags state := by
    rw [alternatives_succ]
    refine .bind _
      (fun part between ran nowhere plain =>
        (looksBack.onItems _ _ _ _ part between ran nowhere plain).1)
      fun part between _ => ?_
    exact (looksBack.another top part).mono (⟨·, trivial⟩)

end LooksBack

theorem looksBack (fuel : Nat) : LooksBack fuel := by
  induction fuel with
  | zero =>
    refine ⟨fun mayFlag flags read state => ?_, fun top first flags state => ?_⟩
    · rw [items_zero]
      exact .stops (.stop _ _)
    · rw [alternatives]
      exact .stops (.stop _ _)
  | succ fuel induction => exact induction.succ

/-! ## Going on alike -/

/-- A part is of use inside a group if it refers nowhere and no comment of one line may have been
cut off at its end. -/
def IsEnclosed (flags : Flags) (part : Part) (last : State) : Prop :=
  part.refersNowhere = true ∧ (flags.contains 'x' = true → last.tokens ≠ [])

/-- The two readers of parts of an expression go on alike inside a group. -/
structure CarriesOn (surroundings : Surroundings) (fuel : Nat) : Prop where
  onItems : ∀ fuel' mayFlag mayFlag' flags read state, fuel ≤ fuel' →
    CarriesAt surroundings state (IsEnclosed flags) (Part.renumber surroundings.captures)
      (items fuel mayFlag flags read)
      (items fuel' mayFlag' flags (read.map (Part.renumber surroundings.captures)))
  onAlternatives : ∀ fuel' top first first' flags state, fuel ≤ fuel' →
    (top = true → flags = []) →
    CarriesAt surroundings state (IsEnclosed flags) (Part.renumber surroundings.captures)
      (alternatives fuel top first flags) (alternatives fuel' false first' flags)

/-- At the end of an expression nothing more is read. -/
theorem tokens_eq_nil_of_run_items {fuel : Nat} {mayFlag : Bool} {flags : Flags} {read : List Part}
    {part : Part} {last : State} (none : state.tokens = [])
    (ran : (items fuel mayFlag flags read).run state = .ok (part, last)) : last.tokens = [] := by
  cases fuel with
  | zero =>
    rw [items_zero] at ran
    exact ((Stops.stop _ _) state part last ran).elim
  | succ fuel =>
    rw [items_succ] at ran
    obtain ⟨token, between, peeked, goesOn⟩ := exists_of_run_bind ran
    cases peeked
    rw [none] at goesOn
    cases goesOn
    exact none

theorem tokens_eq_nil_of_run_another {fuel : Nat} {top : Bool} {flags : Flags} {part whole : Part}
    {last : State} (none : state.tokens = [])
    (ran : (alternativesBehind fuel top flags part).run state = .ok (whole, last)) :
    last.tokens = [] := by
  obtain ⟨more, between, accepted, goesOn⟩ := exists_of_run_bind ran
  obtain ⟨token, seen, peeked, further⟩ := exists_of_run_bind accepted
  cases peeked
  rw [none] at further
  cases further
  cases goesOn
  exact none

namespace CarriesOn

variable {fuel fuel' : Nat} {mayFlag mayFlag' : Bool} {flags : Flags} {read : List Part}

theorem literal (carriesOn : CarriesOn surroundings fuel) (enough : fuel ≤ fuel') (part : Part) :
    CarriesAt surroundings state (IsEnclosed flags) (Part.renumber surroundings.captures)
      (items fuel mayFlag flags (part :: read))
      (items fuel' mayFlag' flags
        (part.renumber surroundings.captures :: read.map (Part.renumber surroundings.captures))) :=
  carriesOn.onItems _ _ _ _ (part :: read) _ enough

theorem piece (carriesOn : CarriesOn surroundings fuel) (enough : fuel ≤ fuel')
    {inner outer : Reader Part} (carries : CarriesParts surroundings inner outer) :
    CarriesAt surroundings state (IsEnclosed flags) (Part.renumber surroundings.captures)
      (inner >>= fun part => items fuel mayFlag flags (part :: read))
      (outer >>= fun part => items fuel' mayFlag' flags
        (part :: read.map (Part.renumber surroundings.captures))) := by
  refine (carries state).bind ?_ fun part between _ _ => carriesOn.literal enough part
  intro part between _ result last ran useful fits
  have leads := (looksBack fuel).onItems mayFlag flags (part :: read) between
  exact (leads result last ran useful.1 fits.plain).2 part (List.mem_cons_self ..)

/-- A body in parentheses and what follows it. -/
theorem body (carriesOn : CarriesOn surroundings fuel) (enough : fuel ≤ fuel') {inside : Flags}
    {next next' : Part → Reader Part}
    (leads : ∀ body between, Leads between (body.refersNowhere = true) (next body))
    (closes : ∀ body between part last, (next body).run between = .ok (part, last) →
      between.tokens ≠ [])
    (further : ∀ body between, CarriesAt surroundings between (IsEnclosed flags)
      (Part.renumber surroundings.captures) (next body)
      (next' (body.renumber surroundings.captures))) :
    CarriesAt surroundings state (IsEnclosed flags) (Part.renumber surroundings.captures)
      (alternatives fuel false false inside >>= next)
      (alternatives fuel' false false inside >>= next') := by
  refine (carriesOn.onAlternatives fuel' false false false inside state enough nofun).bind ?_
    fun body between _ _ => further body between
  intro body between _ part last ran useful fits
  exact ⟨(leads body between part last ran useful.1 fits.plain).2,
    fun _ => closes body between part last ran⟩

/-- A body that is closed at once. -/
theorem closed (carriesOn : CarriesOn surroundings fuel) (enough : fuel ≤ fuel') (mark mark' : Nat)
    {inside : Flags} {form : Part → Part}
    (nowhere : ∀ body, (form body).refersNowhere = body.refersNowhere)
    (renumber : ∀ body, (form body).renumber surroundings.captures =
      form (body.renumber surroundings.captures)) :
    CarriesAt surroundings state (IsEnclosed flags) (Part.renumber surroundings.captures)
      (do
        let body ← alternatives fuel false false inside
        closeGroup mark
        items fuel mayFlag flags (form body :: read))
      (do
        let body ← alternatives fuel' false false inside
        closeGroup mark'
        items fuel' mayFlag' flags
          (form body :: read.map (Part.renumber surroundings.captures))) := by
  refine carriesOn.body enough (fun body between => .closed mark fun _ => ?_)
    (fun body between part last ran => tokens_ne_nil_of_closeGroup ran) fun body between => ?_
  · exact ((looksBack fuel).after (form body) _).mono fun known => nowhere body ▸ known.1
  · refine (carries_closeGroup mark mark').bind fun _ _ _ => ?_
    rw [← renumber]
    exact carriesOn.literal enough (form body)

theorem lookBehind (carriesOn : CarriesOn surroundings fuel) (enough : fuel ≤ fuel')
    {mark mark' : Nat} {positive : Bool} {inside : Option Nat} {part : Part} {last : State}
    (ran : (itemsBehindLookBehind fuel mayFlag flags read mark positive inside).run state =
      .ok (part, last))
    (useful : IsEnclosed flags part last) (fits : surroundings.Fits last) :
    surroundings.Fits state ∧ last.inside = inside ∧
      (itemsBehindLookBehind fuel' mayFlag' flags (read.map (Part.renumber surroundings.captures))
          mark' positive (inside.map (· + surroundings.captures))).run (surroundings.around state) =
        .ok (part.renumber surroundings.captures, surroundings.around last) := by
  obtain ⟨body, between, bodyRan, goesOn⟩ := exists_of_run_bind ran
  change (closeGroup mark >>= fun _ => _).run { between with inside := inside } = _ at goesOn
  have some := tokens_ne_nil_of_closeGroup goesOn
  have leads : Leads { between with inside := inside } (body.refersNowhere = true)
      (do
        closeGroup mark
        items fuel mayFlag flags (.lookBehind positive body :: read)) :=
    .closed mark fun _ => ((looksBack fuel).after (.lookBehind positive body) _).mono And.left
  have nowhere := (leads part last goesOn useful.1 fits.plain).2
  have carries : CarriesAt surroundings { between with inside := inside } (IsEnclosed flags)
      (Part.renumber surroundings.captures)
      (do
        closeGroup mark
        items fuel mayFlag flags (.lookBehind positive body :: read))
      (do
        closeGroup mark'
        items fuel' mayFlag' flags
          ((Part.lookBehind positive body).renumber surroundings.captures ::
            read.map (Part.renumber surroundings.captures))) :=
    (carries_closeGroup mark mark').bind fun _ _ _ =>
      carriesOn.literal enough (.lookBehind positive body)
  obtain ⟨fitsBehind, keeps, endsOn⟩ := carries part last goesOn useful fits
  obtain ⟨fitsState, -, begins⟩ := carriesOn.onAlternatives fuel' false false false flags state
    enough nofun body between bodyRan ⟨nowhere, fun _ => some⟩ ⟨fitsBehind.plain, fitsBehind.apart⟩
  exact ⟨fitsState, keeps, (run_bind_of_ok begins).trans endsOn⟩

theorem behind (carriesOn : CarriesOn surroundings fuel) (enough : fuel ≤ fuel') (mark mark' : Nat)
    {opening : Opening} (wellRead : opening.WellRead) (nowhere : opening.refersNowhere = true) :
    CarriesAt surroundings state (IsEnclosed flags) (Part.renumber surroundings.captures)
      (itemsBehind fuel mayFlag flags read mark opening)
      (itemsBehind fuel' mayFlag' flags (read.map (Part.renumber surroundings.captures)) mark'
        opening) := by
  cases opening with
  | capture name =>
    refine (carriesAt_openCapture name).step fun group _ _ => ?_
    refine carriesOn.body enough (fun body between => .closed mark fun _ => ?_)
      (fun body between part last ran => tokens_ne_nil_of_closeGroup ran) fun body between => ?_
    · refine .modify id ?_
      exact ((looksBack fuel).after (.capture group body) _).mono And.left
    · refine (carries_closeGroup mark mark').bind fun _ _ _ => .closeCapture group body fun _ => ?_
      exact carriesOn.literal enough (.capture group body)
  | group added removed => exact carriesOn.closed enough mark mark' (fun _ => rfl) fun _ => rfl
  | atomic => exact carriesOn.closed enough mark mark' (fun _ => rfl) fun _ => rfl
  | lookAhead positive => exact carriesOn.closed enough mark mark' (fun _ => rfl) fun _ => rfl
  | lookBehind positive =>
    intro part last ran useful fits
    have sameTest : (surroundings.around state).inside.isNone = state.inside.isNone :=
      Option.isNone_map
    change StateT.run (ite _ _ _) state = _ at ran
    change _ ∧ _ ∧ StateT.run (ite _ _ _) (surroundings.around state) = _
    rw [sameTest]
    split at ran
    · next outermost =>
      rw [if_pos outermost]
      obtain ⟨fitsChanged, keeps, goesOn⟩ := carriesOn.lookBehind enough ran useful fits
      exact ⟨⟨fitsChanged.plain, fitsChanged.apart⟩, keeps, goesOn⟩
    · next inner =>
      rw [if_neg inner]
      exact carriesOn.lookBehind enough ran useful fits
  | conditional group => cases nowhere
  | reference part => cases nowhere
  | comment => exact carriesOn.onItems _ _ _ _ _ _ enough
  | flags added =>
    -- Flags set here would still be set at the end.
    intro part last ran useful fits
    have rest : Leads { state with flags := state.flags ++ added } True
        (do
          if !mayFlag || !read.isEmpty then stopAt mark .lateFlags
          items fuel mayFlag (← get).flags read) :=
      .ite (.stops ((Stops.stopAt _ _).bind _)) <| .get fun _ =>
        ((looksBack fuel).onItems _ _ _ _).mono fun _ => trivial
    have none := (rest part last ran useful.1 fits.plain).1.1
    exact absurd (List.append_eq_nil_iff.mp none).2 wellRead

theorem fromCharacter (carriesOn : CarriesOn surroundings fuel) (enough : fuel ≤ fuel')
    (mark mark' : Nat) (c : Char) :
    CarriesAt surroundings state (IsEnclosed flags) (Part.renumber surroundings.captures)
      (itemsFrom fuel mayFlag flags read mark c)
      (itemsFrom fuel' mayFlag' flags (read.map (Part.renumber surroundings.captures)) mark'
        c) := by
  have again (state : State) := carriesOn.onItems fuel' mayFlag mayFlag' flags read state enough
  refine .ite (fun _ => again _) fun _ => .ite (fun comment => ?_) fun _ => .ite (fun _ => ?_) ?_
  · have verbose := (Bool.and_eq_true_iff.mp comment).1
    have enough := Nat.succ_le_succ (length_tokens_around_ge surroundings state)
    refine .get ((carriesAt_lineComment enough (Nat.lt_succ_self _)).bind ?_ fun _ _ _ _ => again _)
    rintro _ between _ part last ran ⟨-, some⟩ - none
    exact some verbose (tokens_eq_nil_of_run_items none ran)
  · exact carriesOn.piece enough (carriesParts_set flags)
  refine fun _ => .ite (fun _ => carriesOn.literal enough _) fun _ => ?_
  refine .ite (fun _ => carriesOn.literal enough (.anchor _)) fun _ => ?_
  refine .ite (fun _ => carriesOn.literal enough (.anchor _)) fun _ => ?_
  refine .ite (fun _ => ?_) fun _ => ?_
  · refine (carriesAt_opening flags mark mark').bind ?_ fun opening between begun nowhere =>
      carriesOn.behind enough mark mark' (gives_opening _ _ state opening between begun) nowhere
    intro opening between begun part last ran useful fits
    have wellRead := gives_opening flags mark state opening between begun
    have leads := (looksBack fuel).behind mark wellRead part last ran
    exact (leads useful.1 fits.plain).2.1
  refine .ite (fun _ => ?_) fun _ => carriesOn.literal enough (Pattern.literal flags c.toNat)
  refine (carries_bounds c).bind fun known between _ => ?_
  rcases known with _ | ⟨least, most⟩
  · exact carriesOn.literal enough (Pattern.literal flags c.toNat)
  · refine (carriesAt_repeatLatest mark mark' least most read).step fun parts last _ => ?_
    exact carriesOn.onItems _ _ _ _ parts _ enough

theorem fromToken (carriesOn : CarriesOn surroundings fuel) (enough : fuel ≤ fuel')
    (mark mark' : Nat) (token : Token) :
    CarriesAt surroundings state (IsEnclosed flags) (Part.renumber surroundings.captures)
      (itemsFromToken fuel mayFlag flags read mark token)
      (itemsFromToken fuel' mayFlag' flags (read.map (Part.renumber surroundings.captures)) mark'
        token) := by
  rw [itemsFromToken.eq_def, itemsFromToken.eq_def]
  split
  · next c => exact carriesOn.fromCharacter enough mark mark' c
  · next escape c =>
    split
    · exact carriesOn.piece enough (carriesParts_partEscape flags c)
    · exact .stops (.stop _ _) _
  · exact .stops (.stop _ _) _

theorem another (carriesOn : CarriesOn surroundings fuel) (enough : fuel ≤ fuel') {top : Bool}
    (bare : top = true → flags = []) (part : Part) :
    CarriesAt surroundings state (IsEnclosed flags) (Part.renumber surroundings.captures)
      (alternativesBehind fuel top flags part)
      (alternativesBehind fuel' false flags (part.renumber surroundings.captures)) := by
  refine .accept (by decide) (.get ?_) (.pure part)
  intro result last ran useful fits
  have plain := ((looksBack fuel).rest top part result last ran useful.1 fits.plain).1
  have sameFlags : (if top = true then state.advanced.flags else flags) = flags := by
    cases top with
    | false => rfl
    | true => exact plain.1.trans (bare rfl).symm
  dsimp only at ran
  rw [sameFlags] at ran
  refine CarriesAt.bind (carriesOn.onAlternatives fuel' top false false flags _ enough bare) ?_
    (fun rest between _ _ => .pure (Part.choice part rest)) result last ran useful fits
  rintro rest between - _ _ ⟨⟩ ⟨nowhere, some⟩ -
  exact ⟨(Bool.and_eq_true_iff.mp nowhere).2, some⟩

theorem succ (carriesOn : CarriesOn surroundings fuel) : CarriesOn surroundings (fuel + 1) where
  onItems fuel' mayFlag mayFlag' flags read state enough := by
    obtain ⟨fuel', rfl⟩ : ∃ less, fuel' = less + 1 := Nat.exists_eq_succ_of_ne_zero (by omega)
    have ended : CarriesAt surroundings state (IsEnclosed flags)
        (Part.renumber surroundings.captures) (pure (Part.ofList read.reverse))
        (pure (Part.ofList (read.map (Part.renumber surroundings.captures)).reverse)) := by
      rw [← List.map_reverse, ← Part.renumber_ofList]
      exact .pure _
    rw [items_succ, items_succ]
    refine .peek (fun _ => ended) fun token rest known => ?_
    rw [itemsAt.eq_def, itemsAt.eq_def]
    split
    · exact ended
    · exact ended
    · exact ended
    · refine .position (.skip (by rw [known]; exact List.cons_ne_nil _ _) ?_)
      exact carriesOn.fromToken (by omega) _ _ _
  onAlternatives fuel' top first first' flags state enough bare := by
    obtain ⟨fuel', rfl⟩ : ∃ less, fuel' = less + 1 := Nat.exists_eq_succ_of_ne_zero (by omega)
    rw [alternatives_succ, alternatives_succ]
    refine (carriesOn.onItems fuel' (top && first) (false && first') flags [] state (by omega)).bind
      ?_ fun part between _ _ => carriesOn.another (by omega) bare part
    intro part between _ result last ran useful fits
    refine ⟨((looksBack fuel).another top part result last ran useful.1 fits.plain).2, ?_⟩
    exact fun verbose none => useful.2 verbose (tokens_eq_nil_of_run_another none ran)

end CarriesOn

theorem carriesOn (surroundings : Surroundings) (fuel : Nat) : CarriesOn surroundings fuel := by
  induction fuel with
  | zero =>
    refine ⟨fun _ mayFlag _ flags read state _ => ?_, fun _ top first _ flags state _ _ => ?_⟩
    · rw [items_zero]
      exact .stops (.stop _ _) _
    · rw [alternatives]
      exact .stops (.stop _ _) _
  | succ fuel induction => exact induction.succ

end DocAudit.Pattern
