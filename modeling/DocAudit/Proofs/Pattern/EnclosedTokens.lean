import DocAudit.Proofs.Pattern.Enclosed

/-!
What the single readers of an expression do inside a group of a larger one: characters of classes,
escapes, sets, bounds of repetitions, names, flags and openings.
-/

namespace DocAudit.Pattern

open Reader

variable {α β : Type} {surroundings : Surroundings} {state : State}

/-! ## Classes and escapes -/

theorem carriesAt_takeClass {holds : Char → Bool} (refused : holds ')' = false) {most most' : Nat}
    (enough : most' = most ∨ most ≤ most' ∧ state.tokens.length ≤ most) :
    CarriesAt surroundings state (fun _ _ => True) id (takeClass holds most)
      (takeClass holds most') := by
  induction most generalizing most' state with
  | zero =>
    rcases enough with rfl | ⟨-, short⟩
    · exact .pure []
    · -- Behind the last token comes a parenthesis, which is in no class.
      have none := List.length_eq_zero_iff.mp (Nat.le_zero.mp short)
      cases most' with
      | zero => exact .pure []
      | succ most' =>
        have shape : takeClass holds 0 = peek >>= fun _ => pure [] := rfl
        rw [shape, takeClass]
        refine .peek (fun _ => ?_) fun token rest known => by rw [known] at none; cases none
        simp only [refused, Bool.false_eq_true, if_false]
        exact .pure []
  | succ most induction =>
    obtain ⟨most', rfl⟩ : ∃ less, most' = less + 1 :=
      Nat.exists_eq_succ_of_ne_zero (by omega)
    rw [takeClass, takeClass]
    refine .peek (fun _ => ?_) fun token rest known => ?_
    · simp only [refused, Bool.false_eq_true, if_false]
      exact .pure []
    · rcases token with _ | ⟨c, _ | ⟨d, more⟩⟩
      · exact .pure []
      · refine .ite (fun _ => ?_) fun _ => .pure []
        refine .skip (by rw [known]; exact List.cons_ne_nil _ _) ?_
        have shorter : state.advanced.tokens.length + 1 = state.tokens.length := by
          rw [State.advanced, known]
          rfl
        refine (induction (by omega)).step fun taken _ _ => ?_
        exact .pure (c :: taken)
      · exact .pure []

theorem carries_takeClass {holds : Char → Bool} (refused : holds ')' = false) (most : Nat) :
    Carries surroundings (takeClass holds most) (takeClass holds most) :=
  fun _ => carriesAt_takeClass refused (.inl rfl)

theorem carries_hexEscape (c : Char) (count : Nat) :
    Carries surroundings (hexEscape c count) (hexEscape c count) := by
  intro state
  rw [hexEscape]
  refine (carries_takeClass (by decide) count).bind fun digits between _ => ?_
  refine .ite (fun _ => .stops ((Stops.stop _ _).bind _) _) fun _ => ?_
  exact .ite (fun _ => .stops ((Stops.stop _ _).bind _) _) fun _ => .pure _

theorem stops_nameEscape : Stops nameEscape := by
  refine .behind _ fun answer => ?_
  have further : Stops (do
      let name ← takeName '\x7d' "character name"
      stop (.unknownCharacterName name) (name.length + 4) : Reader Nat) :=
    .behind _ fun name => .stop _ _
  cases answer with
  | true => exact further
  | false => exact (Stops.stop _ _).bind _

theorem carries_characterEscape (c : Char) :
    Carries surroundings (characterEscape c) (characterEscape c) := by
  intro state
  rw [characterEscape]
  cases controlEscape? c with
  | some code => exact .pure code
  | none =>
    refine .ite (fun _ => carries_hexEscape c 2 state) fun _ => ?_
    refine .ite (fun _ => carries_hexEscape c 4 state) fun _ => ?_
    refine .ite (fun _ => carries_hexEscape c 8 state) fun _ => ?_
    refine .ite (fun _ => .stops stops_nameEscape _) fun _ => ?_
    exact .ite (fun _ => .stops (.stop _ _) _) fun _ => .pure _

theorem carries_octalEscape (digits : List Char) :
    Carries surroundings (octalEscape digits) (octalEscape digits) := by
  intro state
  rw [octalEscape]
  exact .ite (fun _ => .stops ((Stops.stop _ _).bind _) _) fun _ => .pure _

theorem carries_setEscape (c : Char) :
    Carries surroundings (setEscape c) (setEscape c) := by
  intro state
  rw [setEscape]
  cases categoryEscape? c with
  | some item => exact .pure item
  | none =>
    refine .ite (fun _ => .pure _) fun _ => .ite (fun _ => ?_) fun _ => ?_
    · refine (carries_takeClass (by decide) 2).bind fun digits _ _ => ?_
      exact (carries_octalEscape (c :: digits)).bind fun code _ _ => .pure (SetItem.single code)
    · exact (carries_characterEscape c).bind fun code _ _ => .pure (SetItem.single code)

/-! ## Parts -/

/-- A reader of parts that goes on alike inside a group, apart from those that refer to captures. -/
def CarriesParts (surroundings : Surroundings) (inner outer : Reader Part) : Prop :=
  ∀ state, CarriesAt surroundings state (fun part _ => part.refersNowhere = true)
    (Part.renumber surroundings.captures) inner outer

theorem CarriesParts.of_gives {inner : Reader Part}
    (refers : Gives (fun part => part.refersNowhere = false) inner) (outer : Reader Part) :
    CarriesParts surroundings inner outer := by
  intro state part last ran nowhere
  rw [refers state part last ran] at nowhere
  cases nowhere

theorem gives_numberedReference (flags : Flags) (digits : List Char) :
    Gives (fun part => part.refersNowhere = false) (numberedReference flags digits) := by
  refine .behind _ fun state => ?_
  refine .ite (fun _ => .stops ((Stops.stop _ _).bind _)) fun _ => .behind _ fun state => ?_
  cases state.closed.lookup (numberIn 10 digits) with
  | none => exact .stops (.stop _ _)
  | some width => exact .behind _ fun _ => .pure rfl

theorem carriesParts_numberedReference (flags : Flags) (digits : List Char) :
    CarriesParts surroundings (numberedReference flags digits) (numberedReference flags digits) :=
  .of_gives (gives_numberedReference flags digits) _

theorem carriesParts_digitEscape (flags : Flags) (c : Char) :
    CarriesParts surroundings (digitEscape flags c) (digitEscape flags c) := by
  intro state
  rw [digitEscape]
  refine .ite (fun _ => ?_) fun _ => ?_
  · exact (carries_takeClass (by decide) 2).bind fun digits _ _ => .pure (literal flags _)
  · refine (carries_takeClass (by decide) 1).bind fun digits between _ => ?_
    rcases digits with _ | ⟨second, _ | ⟨third, more⟩⟩
    · exact carriesParts_numberedReference flags [c] between
    · refine .ite (fun _ => ?_) fun _ => carriesParts_numberedReference flags [c, second] between
      refine (carries_takeClass (by decide) 1).bind fun digits between _ => ?_
      rcases digits with _ | ⟨third, _ | ⟨fourth, more⟩⟩
      · exact carriesParts_numberedReference flags [c, second] between
      · exact (carries_octalEscape _).bind fun code _ _ => .pure (literal flags code)
      · exact carriesParts_numberedReference flags [c, second] between
    · exact carriesParts_numberedReference flags [c] between

theorem carriesParts_partEscape (flags : Flags) (c : Char) :
    CarriesParts surroundings (partEscape flags c) (partEscape flags c) := by
  intro state
  rw [partEscape]
  cases anchorEscape? flags c with
  | some place => exact .pure (Part.anchor place)
  | none =>
    cases categoryEscape? c with
    | some item => exact .pure (Part.one _)
    | none =>
      refine .ite (fun _ => carriesParts_digitEscape flags c state) fun _ => ?_
      exact (carries_characterEscape c).bind fun code _ _ => .pure (literal flags code)

/-! ## Sets -/

theorem carries_setMember (token : Token) :
    Carries surroundings (setMember token) (setMember token) := by
  intro state
  rw [setMember.eq_def]
  split
  · next c => exact carries_setEscape c state
  · exact .pure _

theorem carries_setItems (start start' : Nat) {fuel fuel' : Nat} (enough : fuel ≤ fuel')
    (read : List SetItem) :
    Carries surroundings (setItems start fuel read) (setItems start' fuel' read) := by
  induction fuel generalizing fuel' read with
  | zero => exact fun _ => .stops (.stopAt _ _) _
  | succ fuel induction =>
    obtain ⟨fuel', rfl⟩ : ∃ less, fuel' = less + 1 := Nat.exists_eq_succ_of_ne_zero (by omega)
    have further (read : List SetItem) : Carries surroundings (setItems start fuel read)
        (setItems start' fuel' read) := induction (by omega) read
    intro state
    rw [setItems, setItems]
    refine .next (.stopAt _ _) fun token => .ite (fun _ => .pure _) fun _ => ?_
    refine (carries_setMember token).bind fun item between _ => ?_
    refine .accept (by decide) ?_ (further _ _)
    refine .next (.stopAt _ _) fun last => .ite (fun _ => .pure _) fun _ => ?_
    refine (carries_setMember last).bind fun other between _ => ?_
    cases item with
    | single low =>
      cases other with
      | single high =>
        exact .ite (fun _ => .stops ((Stops.stop _ _).bind _) _) fun _ => further _ _
      | range | category => exact .stops (.stop _ _) _
    | range | category => exact .stops (.stop _ _) _

theorem carriesParts_set (flags : Flags) :
    CarriesParts surroundings (set flags) (set flags) := by
  intro state
  rw [set]
  have further (negated : Bool) (start start' : Nat) (state : State) :
      CarriesAt surroundings state (fun part _ => part.refersNowhere = true)
        (Part.renumber surroundings.captures)
        (do
          let items ← setItems start ((← get).tokens.length + 1) []
          return .one (.set negated items flags.caseMode flags.asciiOnly))
        (do
          let items ← setItems start' ((← get).tokens.length + 1) []
          return .one (.set negated items flags.caseMode flags.asciiOnly)) := by
    have enough := Nat.succ_le_succ (length_tokens_around_ge surroundings state)
    exact .get ((carries_setItems start start' enough []).bind fun items _ _ => .pure (Part.one _))
  exact .position (.accept (by decide) (further true _ _ _) (further false _ _ _))

/-! ## Taking tokens alone -/

/-- One state comes from another by tokens that have been taken, and nothing is known anew. -/
structure State.Follows (last state : State) : Prop where
  tokens : ∃ count, last.tokens = state.tokens.drop count
  flags : last.flags = state.flags
  names : last.names = state.names
  inside : last.inside = state.inside

namespace State.Follows

theorem refl (state : State) : state.Follows state :=
  ⟨⟨0, rfl⟩, rfl, rfl, rfl⟩

theorem trans {first second third : State} (later : third.Follows second)
    (earlier : second.Follows first) : third.Follows first := by
  obtain ⟨count, dropped⟩ := later.tokens
  obtain ⟨before, droppedBefore⟩ := earlier.tokens
  refine ⟨⟨before + count, ?_⟩, later.flags.trans earlier.flags, later.names.trans earlier.names,
    later.inside.trans earlier.inside⟩
  rw [dropped, droppedBefore, List.drop_drop]

theorem advanced (state : State) : state.advanced.Follows state :=
  ⟨⟨1, rfl⟩, rfl, rfl, rfl⟩

theorem length_tokens_le {last state : State} (follows : last.Follows state) :
    last.tokens.length ≤ state.tokens.length := by
  obtain ⟨count, dropped⟩ := follows.tokens
  rw [dropped, List.length_drop]
  exact Nat.sub_le _ _

theorem fits {last state : State} (follows : last.Follows state) (fits : surroundings.Fits state) :
    surroundings.Fits last := by
  refine ⟨⟨follows.flags ▸ fits.plain.1, fun alone => fits.plain.2 ?_⟩, follows.names ▸ fits.apart⟩
  obtain ⟨count, dropped⟩ := follows.tokens
  rw [dropped, List.drop_drop, Nat.add_comm, ← List.drop_drop] at alone
  exact List.mem_of_mem_drop alone

theorem of_takeClass {holds : Char → Bool} {most : Nat} {last : State} {taken : List Char}
    (ran : (takeClass holds most).run state = .ok (taken, last)) : last.Follows state := by
  induction most generalizing state taken with
  | zero =>
    cases ran
    exact .refl _
  | succ most induction =>
    rw [takeClass] at ran
    obtain ⟨token, between, peeked, further⟩ := exists_of_run_bind ran
    cases peeked
    split at further
    · split at further
      · obtain ⟨_, between, skipped, further⟩ := exists_of_run_bind further
        obtain rfl := eq_advanced_of_run_skip skipped
        obtain ⟨rest, between, taken, same⟩ := exists_of_run_bind further
        cases same
        exact (induction taken).trans (.advanced state)
      · cases further
        exact .refl _
    · cases further
      exact .refl _

end State.Follows

/-! ## Repetitions -/

theorem carries_checkRepetition (digits : List Char) :
    Carries surroundings (checkRepetition digits) (checkRepetition digits) := by
  intro state
  rw [checkRepetition]
  refine .ite (fun _ => .stops (Stops.bind ?_ _) _) fun _ => .pure _
  rintro state value last ⟨⟩

theorem carries_eagerness : Carries surroundings eagerness eagerness := by
  intro state
  rw [eagerness]
  exact .accept (by decide) (.pure _) (.accept (by decide) (.pure _) (.pure _))

/-- The rest of reading bounds in braces, once their digits are known. -/
def boundsBehind (start : State) (low high : List Char) : Reader (Option (Nat × Option Nat)) := do
  if !(← accept '\x7d') then
    bracedBounds.set start
    return none
  let least ← if low.isEmpty then pure 0 else checkRepetition low
  if high.isEmpty then return some (least, none)
  let most ← checkRepetition high
  if most < least then stopAt start.position .repeatBounds
  return some (least, some most)

/-- Where the braces are no bounds, reading goes back to where they begin. -/
theorem carriesAt_boundsBehind {start : State} (follows : state.Follows start)
    (low high : List Char) :
    CarriesAt surroundings state (fun _ _ => True) id (boundsBehind start low high)
      (boundsBehind (surroundings.around start) low high) := by
  rw [boundsBehind, boundsBehind]
  refine .accept (by decide) ?_ ?_
  · have further (least : Nat) (between : State) : CarriesAt surroundings between
        (fun _ _ => True) id
        (do
          if high.isEmpty then return some (least, none)
          let most ← checkRepetition high
          if most < least then stopAt start.position .repeatBounds
          return some (least, some most))
        (do
          if high.isEmpty then return some (least, none)
          let most ← checkRepetition high
          if most < least then stopAt (surroundings.around start).position .repeatBounds
          return some (least, some most)) := by
      refine .ite (fun _ => .pure _) fun _ => ?_
      refine (carries_checkRepetition high).bind fun most _ _ => ?_
      exact .ite (fun _ => .stops ((Stops.stopAt _ _).bind _) _) fun _ => .pure _
    refine .ite nofun fun _ => .ite (fun _ => ?_) fun _ => ?_
    · exact further 0 _
    · exact (carries_checkRepetition low).bind fun least between _ => further least between
  · rintro value last ⟨⟩ - fits
    exact ⟨follows.fits fits, follows.inside.symm, rfl⟩

theorem carries_bracedBounds : Carries surroundings bracedBounds bracedBounds := by
  intro start
  have enough {state : State} (follows : state.Follows start) :
      (surroundings.around start).tokens.length = start.tokens.length ∨
        start.tokens.length ≤ (surroundings.around start).tokens.length ∧
          state.tokens.length ≤ start.tokens.length :=
    .inr ⟨length_tokens_around_ge surroundings start, follows.length_tokens_le⟩
  have digits {state : State} (follows : state.Follows start) :
      CarriesAt surroundings state (fun _ _ => True) id
        (takeClass isAsciiDigit start.tokens.length)
        (takeClass isAsciiDigit (surroundings.around start).tokens.length) :=
    carriesAt_takeClass (by decide) (enough follows)
  have further : CarriesAt surroundings start (fun _ _ => True) id
      (do
        let low ← takeClass isAsciiDigit start.tokens.length
        let high ← if ← accept ',' then takeClass isAsciiDigit start.tokens.length else pure low
        boundsBehind start low high)
      (do
        let low ← takeClass isAsciiDigit (surroundings.around start).tokens.length
        let high ← if ← accept ',' then
            takeClass isAsciiDigit (surroundings.around start).tokens.length
          else pure low
        boundsBehind (surroundings.around start) low high) := by
    refine (digits (.refl start)).step fun low between took => ?_
    have follows := State.Follows.of_takeClass took
    refine .accept (by decide) ?_ ?_
    · have followsComma := (State.Follows.advanced between).trans follows
      refine (digits followsComma).step fun high after took => ?_
      exact carriesAt_boundsBehind ((State.Follows.of_takeClass took).trans followsComma) low high
    · exact carriesAt_boundsBehind follows low low
  rw [bracedBounds]
  refine .get (.peek (fun _ => ?_) fun token rest known => .ite (fun _ => .pure _) fun _ => ?_)
  · exact further
  · exact further

/-- A repetition is put on the same part under its other numbers. -/
theorem gives_repeatLatest (mark least : Nat) (most : Option Nat) (read : List Part) :
    Gives
      (fun parts => (∀ part ∈ parts, part.refersNowhere = true) →
        ∀ part ∈ read, part.refersNowhere = true)
      (repeatLatest mark least most read) := by
  rcases read with _ | ⟨latest, earlier⟩
  · exact .stops (.stopAt _ _)
  · rw [repeatLatest.eq_def]
    cases latest with
    | anchor | repeated => exact .stops (.stopAt _ _)
    | _ =>
      refine .behind _ fun eagerness => .pure fun nowhere => List.forall_mem_cons.mpr ?_
      exact List.forall_mem_cons.mp nowhere

theorem carriesAt_repeatLatest (mark mark' least : Nat) (most : Option Nat) (read : List Part) :
    CarriesAt surroundings state (fun _ _ => True) (List.map (Part.renumber surroundings.captures))
      (repeatLatest mark least most read)
      (repeatLatest mark' least most (read.map (Part.renumber surroundings.captures))) := by
  rcases read with _ | ⟨latest, earlier⟩
  · exact .stops (.stopAt _ _) _
  · cases latest with
    | anchor | repeated => exact .stops (.stopAt _ _) _
    | _ => exact carries_eagerness.bind fun eagerness _ _ => .pure (_ :: earlier)

theorem carries_bounds (c : Char) : Carries surroundings (bounds c) (bounds c) := by
  intro state
  rw [bounds.eq_def]
  split
  · exact .pure _
  · exact .pure _
  · exact .pure _
  · exact carries_bracedBounds state

/-! ## Names and flags -/

theorem carries_takeUntil (terminator : Char) (what : String) {fuel fuel' : Nat}
    (enough : fuel ≤ fuel') (read : List Char) :
    Carries surroundings (takeUntil terminator what fuel read)
      (takeUntil terminator what fuel' read) := by
  induction fuel generalizing fuel' read with
  | zero => exact fun _ => .stops (.stop _ _) _
  | succ fuel induction =>
    obtain ⟨fuel', rfl⟩ : ∃ less, fuel' = less + 1 := Nat.exists_eq_succ_of_ne_zero (by omega)
    intro state
    rw [takeUntil, takeUntil]
    refine .next ?_ fun token => .ite (fun _ => ?_) fun _ => induction (by omega) _ _
    · exact .ite (fun _ => (Stops.stop _ _).bind _) fun _ => Stops.stop _ _
    · exact .ite (fun _ => .stops ((Stops.stop _ _).bind _) _) fun _ => .pure _

theorem carries_takeName (terminator : Char) (what : String) :
    Carries surroundings (takeName terminator what) (takeName terminator what) := by
  intro state
  rw [takeName]
  have enough := Nat.succ_le_succ (length_tokens_around_ge surroundings state)
  exact .get (carries_takeUntil terminator what enough [] state)

theorem carries_checkGroupName (name : List Char) :
    Carries surroundings (checkGroupName name) (checkGroupName name) := by
  intro state
  rw [checkGroupName]
  exact .ite (fun _ => .stops (.stop _ _) _) fun _ => .pure _

theorem carries_addedFlags {fuel fuel' : Nat} (enough : fuel ≤ fuel') (c : Char) (added : Flags) :
    Carries surroundings (addedFlags fuel c added) (addedFlags fuel' c added) := by
  induction fuel generalizing fuel' c added with
  | zero => exact fun _ => .stops (.stop _ _) _
  | succ fuel induction =>
    obtain ⟨fuel', rfl⟩ : ∃ less, fuel' = less + 1 := Nat.exists_eq_succ_of_ne_zero (by omega)
    intro state
    rw [addedFlags, addedFlags]
    refine .ite (fun _ => .stops ((Stops.stop _ _).bind _) _) fun _ => ?_
    refine .ite (fun _ => .stops ((Stops.stop _ _).bind _) _) fun _ => ?_
    refine .next (.stop _ _) fun token => ?_
    rcases token with _ | ⟨next, _ | ⟨other, more⟩⟩
    · exact .stops (.stop _ _) _
    · refine .ite (fun _ => .pure _) fun _ => .ite (fun _ => ?_) fun _ => ?_
      · exact induction (by omega) next _ _
      · exact .ite (fun _ => .stops (.stop _ _) _) fun _ => .stops (.stop _ _) _
    · exact .stops (.stop _ _) _

theorem carries_removedFlags {fuel fuel' : Nat} (enough : fuel ≤ fuel') (awaited : String)
    (removed : Flags) :
    Carries surroundings (removedFlags fuel awaited removed)
      (removedFlags fuel' awaited removed) := by
  induction fuel generalizing fuel' awaited removed with
  | zero => exact fun _ => .stops (.stop _ _) _
  | succ fuel induction =>
    obtain ⟨fuel', rfl⟩ : ∃ less, fuel' = less + 1 := Nat.exists_eq_succ_of_ne_zero (by omega)
    intro state
    rw [removedFlags, removedFlags]
    refine .next (.stop _ _) fun token => ?_
    rcases token with _ | ⟨next, _ | ⟨other, more⟩⟩
    · exact .stops (.stop _ _) _
    · refine .ite (fun _ => .pure _) fun _ => .ite (fun _ => ?_) fun _ => ?_
      · refine .ite (fun _ => .stops ((Stops.stop _ _).bind _) _) fun _ => ?_
        exact induction (by omega) _ _ _
      · exact .ite (fun _ => .stops (.stop _ _) _) fun _ => .stops (.stop _ _) _
    · exact .stops (.stop _ _) _

/-- The rest of reading flags, once those that are added are known. -/
def flagsBehind (fuel : Nat) (added : Flags) (behind : Char) : Reader InlineFlags := do
  if behind = ')' then return .global added
  if added.any Flags.globalLetters.contains then stop .globalFlagTurnedOn 1
  let removed ← if behind = '-' then removedFlags fuel "flag" [] else pure []
  if removed.any Flags.globalLetters.contains then stop .globalFlagTurnedOff 1
  if added.any removed.contains then stop .flagTurnedOnAndOff 1
  return .scoped added removed

theorem carries_flagsBehind {fuel fuel' : Nat} (enough : fuel ≤ fuel') (added : Flags)
    (behind : Char) :
    Carries surroundings (flagsBehind fuel added behind) (flagsBehind fuel' added behind) := by
  intro state
  rw [flagsBehind, flagsBehind]
  have finish (removed : Flags) (state : State) :
      CarriesAt surroundings state (fun _ _ => True) id
        (do
          if removed.any Flags.globalLetters.contains then stop .globalFlagTurnedOff 1
          if added.any removed.contains then stop .flagTurnedOnAndOff 1
          return InlineFlags.scoped added removed)
        (do
          if removed.any Flags.globalLetters.contains then stop .globalFlagTurnedOff 1
          if added.any removed.contains then stop .flagTurnedOnAndOff 1
          return InlineFlags.scoped added removed) := by
    refine .ite (fun _ => .stops ((Stops.stop _ _).bind _) _) fun _ => ?_
    exact .ite (fun _ => .stops ((Stops.stop _ _).bind _) _) fun _ => .pure _
  refine .ite (fun _ => .pure _) fun _ => ?_
  refine .ite (fun _ => .stops ((Stops.stop _ _).bind _) _) fun _ => .ite (fun _ => ?_) fun _ => ?_
  · exact (carries_removedFlags enough "flag" []).bind fun removed between _ =>
      finish removed between
  · exact finish [] state

theorem carries_inlineFlags (c : Char) :
    Carries surroundings (inlineFlags c) (inlineFlags c) := by
  intro state
  have enough := Nat.succ_le_succ (length_tokens_around_ge surroundings state)
  refine .get (.ite (fun _ => ?_) fun _ => ?_)
  · exact carries_flagsBehind enough [] '-' state
  · exact (carries_addedFlags enough c []).bind fun both between _ =>
      carries_flagsBehind enough both.1 both.2 between

/-- Flags for a whole expression are never none. -/
theorem gives_addedFlags (fuel : Nat) (c : Char) (added : Flags) :
    Gives (fun both => both.1 ≠ []) (addedFlags fuel c added) := by
  induction fuel generalizing c added with
  | zero => exact .stops (.stop _ _)
  | succ fuel induction =>
    rw [addedFlags]
    refine .ite (fun _ => .stops ((Stops.stop _ _).bind _)) fun _ => ?_
    refine .ite (fun _ => .stops ((Stops.stop _ _).bind _)) fun _ => .behind _ fun token => ?_
    rcases token with _ | ⟨_ | ⟨next, _ | ⟨other, more⟩⟩⟩
    · exact .stops (.stop _ _)
    · exact .stops (.stop _ _)
    · refine .ite (fun _ => .pure (by simp)) fun _ => .ite (fun _ => induction _ _) fun _ => ?_
      exact .ite (fun _ => .stops (.stop _ _)) fun _ => .stops (.stop _ _)
    · exact .stops (.stop _ _)

theorem gives_flagsBehind (fuel : Nat) {added : Flags} {behind : Char}
    (some : behind = ')' → added ≠ []) :
    Gives (fun flags => flags ≠ .global []) (flagsBehind fuel added behind) := by
  rw [flagsBehind]
  have finish (removed : Flags) : Gives (fun flags => flags ≠ .global [])
      (do
        if removed.any Flags.globalLetters.contains then stop .globalFlagTurnedOff 1
        if added.any removed.contains then stop .flagTurnedOnAndOff 1
        return InlineFlags.scoped added removed) := by
    refine .ite (fun _ => .stops ((Stops.stop _ _).bind _)) fun _ => ?_
    exact .ite (fun _ => .stops ((Stops.stop _ _).bind _)) fun _ => .pure nofun
  refine .ite (fun closing => .pure ?_) fun _ => ?_
  · rintro ⟨⟩
    exact some closing rfl
  · refine .ite (fun _ => .stops ((Stops.stop _ _).bind _)) fun _ => .ite (fun _ => ?_) fun _ => ?_
    · exact .behind _ fun removed => finish removed
    · exact finish []

theorem gives_inlineFlags (c : Char) :
    Gives (fun flags => flags ≠ .global []) (inlineFlags c) := by
  refine .behind _ fun state => .ite (fun _ => ?_) fun _ => ?_
  · have notClosing : '-' = ')' → ([] : Flags) ≠ [] := by decide
    exact gives_flagsBehind _ notClosing
  · exact .bind (gives_addedFlags _ c []) fun both nonempty => gives_flagsBehind _ fun _ => nonempty

/-! ## Comments -/

theorem carries_comment (start start' : Nat) {fuel fuel' : Nat} (enough : fuel ≤ fuel') :
    Carries surroundings (comment start fuel) (comment start' fuel') := by
  induction fuel generalizing fuel' with
  | zero => exact fun _ => .stops (.stopAt _ _) _
  | succ fuel induction =>
    obtain ⟨fuel', rfl⟩ : ∃ less, fuel' = less + 1 := Nat.exists_eq_succ_of_ne_zero (by omega)
    intro state
    rw [comment, comment]
    exact .next (.stopAt _ _) fun token => .ite (fun _ => .pure _) fun _ => induction (by omega) _

/-- A comment of one line is read alike where the expression goes on behind it. At the end of the
expression it would go on into the larger one. -/
theorem carriesAt_lineComment {fuel fuel' : Nat} (enough : fuel ≤ fuel')
    (short : state.tokens.length < fuel) :
    CarriesAt surroundings state (fun _ last => last.tokens ≠ []) id (lineComment fuel)
      (lineComment fuel') := by
  induction fuel generalizing fuel' state with
  | zero => omega
  | succ fuel induction =>
    obtain ⟨fuel', rfl⟩ : ∃ less, fuel' = less + 1 := Nat.exists_eq_succ_of_ne_zero (by omega)
    rw [lineComment, lineComment, next_bind, next_bind]
    refine .peek (fun none => ?_) fun token rest known => ?_
    · intro value last ran nonempty
      obtain ⟨_, between, skipped, same⟩ := exists_of_run_bind ran
      cases same
      rw [eq_advanced_of_run_skip skipped, State.advanced, none] at nonempty
      exact absurd rfl nonempty
    · refine .skip (by rw [known]; exact List.cons_ne_nil _ _) ?_
      have shorter : state.advanced.tokens.length + 1 = state.tokens.length := by
        rw [State.advanced, known]
        rfl
      exact .ite (fun _ => .pure _) fun _ => induction (by omega) (by omega)


/-! ## Openings -/

/-- Whether what a parenthesis begins asks for no capture. -/
def Opening.refersNowhere : Opening → Bool
  | .conditional _ | .reference _ => false
  | _ => true

theorem carries_lookBehindOpening :
    Carries surroundings lookBehindOpening lookBehindOpening := by
  intro state
  rw [lookBehindOpening]
  refine .next (.stop _ _) fun token => ?_
  split
  · next none => cases none
  · exact .pure _
  · exact .pure _
  · exact .stops (.stop _ _) _

theorem carriesAt_namedOpening (flags : Flags) :
    CarriesAt surroundings state (fun opening _ => opening.refersNowhere = true) id
      (namedOpening flags) (namedOpening flags) := by
  rw [namedOpening]
  refine .accept (by decide) ?_ (.accept (by decide) ?_ ?_)
  · refine (carries_takeName '>' "group name").bind fun name between _ => ?_
    exact (carries_checkGroupName name).bind fun _ _ _ => .pure (Opening.capture (some name))
  · rintro opening last ran nowhere
    obtain ⟨part, between, -, same⟩ := exists_of_run_bind ran
    cases same
    cases nowhere
  · exact .next (.stop _ _) fun token => .stops (.stop _ _) _

theorem carriesAt_opening (flags : Flags) (start start' : Nat) :
    CarriesAt surroundings state (fun opening _ => opening.refersNowhere = true) id
      (opening flags start) (opening flags start') := by
  rw [opening, opening]
  refine .accept (by decide) ?_ (.pure _)
  refine .next (.stop _ _) fun token => ?_
  split
  · next none => cases none
  · exact carriesAt_namedOpening flags
  · exact .pure _
  · refine .get ?_
    have enough := Nat.succ_le_succ (length_tokens_around_ge surroundings state.advanced.advanced)
    exact (carries_comment start start' enough).bind fun _ _ _ => .pure _
  · exact .pure _
  · exact .pure _
  · exact fun opening last ran _ => carries_lookBehindOpening _ opening last ran trivial
  · rintro opening last ran nowhere
    obtain ⟨part, between, -, same⟩ := exists_of_run_bind ran
    cases same
    cases nowhere
  · exact .pure _
  · split
    · refine .ite (fun _ => ?_) fun _ => .stops (.stop _ _) _
      refine (carries_inlineFlags _).bind fun flags between _ => ?_
      rcases flags with added | ⟨added, removed⟩
      · exact .pure _
      · exact .pure _
    · exact .stops (.stop _ _) _

/-- What sets flags for the whole expression sets some, and what is read as a reference is one. -/
def Opening.WellRead : Opening → Prop
  | .flags added => added ≠ []
  | .reference part => part.refersNowhere = false
  | _ => True

theorem gives_namedReference (flags : Flags) :
    Gives (fun part => part.refersNowhere = false) (namedReference flags) := by
  refine .behind _ fun name => .behind _ fun _ => .behind _ fun state => ?_
  cases state.names.lookup name with
  | none => exact .stops (.stop _ _)
  | some group =>
    refine .behind _ fun state => ?_
    cases state.closed.lookup group with
    | none => exact .stops (.stop _ _)
    | some width => exact .behind _ fun _ => .pure rfl

theorem gives_namedOpening (flags : Flags) : Gives Opening.WellRead (namedOpening flags) := by
  refine .behind _ fun named => .ite (fun _ => ?_) fun _ => .behind _ fun referred => ?_
  · exact .behind _ fun name => .behind _ fun _ => .pure trivial
  · refine .ite (fun _ => ?_) fun _ => .behind _ fun token => ?_
    · exact .bind (gives_namedReference flags) fun part refers => .pure refers
    · cases token with
      | none => exact .stops (.stop _ _)
      | some token => exact .stops (.stop _ _)

theorem gives_opening (flags : Flags) (start : Nat) :
    Gives Opening.WellRead (opening flags start) := by
  refine .behind _ fun extended => .ite (fun _ => .pure trivial) fun _ => .behind _ fun token => ?_
  split
  · exact .stops (.stop _ _)
  · exact gives_namedOpening flags
  · exact .pure trivial
  · exact .behind _ fun state => .behind _ fun _ => .pure trivial
  · exact .pure trivial
  · exact .pure trivial
  · refine .behind _ fun token => ?_
    split
    · exact .stops (.stop _ _)
    · exact .pure trivial
    · exact .pure trivial
    · exact .stops (.stop _ _)
  · exact .behind _ fun group => .pure trivial
  · exact .pure trivial
  · split
    · refine .ite (fun _ => .bind (gives_inlineFlags _) fun flags some => ?_) fun _ =>
        .stops (.stop _ _)
      rcases flags with added | ⟨added, removed⟩
      · refine .pure ?_
        rintro rfl
        exact some rfl
      · exact .pure trivial
    · exact .stops (.stop _ _)

/-! ## Captures -/

/-- A state in which a capture has been opened. -/
def State.opened (state : State) (names : List (List Char × Nat)) : State :=
  { state with captures := state.captures + 1, names := names }

theorem around_opened (state : State) (names : List (List Char × Nat)) :
    surroundings.around (state.opened names) =
      (surroundings.around state).opened
        (names.map (fun entry => (entry.1, entry.2 + surroundings.captures)) ++
          surroundings.names) := by
  simp only [Surroundings.around, State.opened, State.mk.injEq, and_true, true_and]
  omega

theorem run_openCapture_none (state : State) :
    (openCapture none).run state = .ok (state.captures + 1, state.opened state.names) :=
  rfl

/-- The capture of a name, by the number that the name has already. -/
def captureNamed (name : List Char) (group : Nat) : Option Nat → Reader Nat
  | some earlier => stop (.redefinedGroup name group earlier) (name.length + 1)
  | none => do
    modify fun state => { state with names := (name, group) :: state.names }
    return group

theorem run_openCapture_named (state : State) (name : List Char) :
    (openCapture (some name)).run state =
      (captureNamed name (state.captures + 1) (state.names.lookup name)).run
        (state.opened state.names) :=
  rfl

theorem run_openCapture_some {name : List Char} (new : state.names.lookup name = none) :
    (openCapture (some name)).run state =
      .ok (state.captures + 1, state.opened ((name, state.captures + 1) :: state.names)) := by
  rw [run_openCapture_named, new]
  rfl

theorem lookup_eq_none_of_run_openCapture {name : List Char} {group : Nat} {last : State}
    (ran : (openCapture (some name)).run state = .ok (group, last)) :
    state.names.lookup name = none := by
  cases known : state.names.lookup name with
  | none => rfl
  | some earlier =>
    rw [run_openCapture_named, known] at ran
    cases ran

/-- A capture is opened under its later number, and a name of its own is new in the larger
expression too. -/
theorem carriesAt_openCapture (name : Option (List Char)) :
    CarriesAt surroundings state (fun _ _ => True) (· + surroundings.captures) (openCapture name)
      (openCapture name) := by
  have number : (surroundings.around state).captures + 1 =
      state.captures + 1 + surroundings.captures := Nat.add_right_comm _ _ _
  rintro group last ran - fits
  cases name with
  | none =>
    rw [run_openCapture_none] at ran
    cases ran
    refine ⟨⟨fits.plain, fits.apart⟩, rfl, ?_⟩
    rw [run_openCapture_none, number, around_opened]
    rfl
  | some name =>
    have new := lookup_eq_none_of_run_openCapture ran
    rw [run_openCapture_some new] at ran
    cases ran
    have newAround : (surroundings.around state).names.lookup name = none := by
      have apart := fits.apart name (List.mem_cons_self ..)
      rw [List.lookup_eq_none_iff] at new ⊢
      intro entry member
      rcases List.mem_append.mp member with own | other
      · obtain ⟨before, known, rfl⟩ := List.mem_map.mp own
        exact new before known
      · rw [bne_iff_ne]
        rintro rfl
        exact apart (List.mem_map_of_mem other)
    have apart (other) (known : other ∈ _) := fits.apart other (List.mem_cons_of_mem _ known)
    refine ⟨⟨fits.plain, apart⟩, rfl, ?_⟩
    rw [run_openCapture_some newAround, number, around_opened]
    rfl

theorem closeGroup_bind (mark : Nat) (go : Unit → Reader α) :
    closeGroup mark >>= go = peek >>= fun token =>
      if token = some [')'] then skip >>= fun _ => go ()
      else stopAt mark .unterminatedGroup >>= go := by
  rw [closeGroup, accept, bind_assoc, bind_assoc]
  congr 1
  funext token
  split
  · simp
  · simp

section Captures

variable {Useful : α → State → Prop} {view : α → β} {go : Unit → Reader α} {go' : Unit → Reader β}

theorem CarriesAt.closeCapture (group : Nat) (body : Part)
    (further : ∀ state, CarriesAt surroundings state Useful view (go ()) (go' ())) :
    CarriesAt surroundings state Useful view (closeCapture group body >>= go)
      (closeCapture (group + surroundings.captures) (body.renumber surroundings.captures) >>=
        go') := by
  refine .modify ?_ (fun fits => ⟨fits.plain, fits.apart⟩) rfl (further _)
  rw [Part.width_renumber]
  rfl

end Captures

theorem carries_closeGroup (mark mark' : Nat) :
    Carries surroundings (closeGroup mark) (closeGroup mark') := by
  intro state
  rw [← bind_pure (closeGroup mark), ← bind_pure (closeGroup mark'), closeGroup_bind,
    closeGroup_bind]
  refine .peek (fun _ => .stops ((Stops.stopAt _ _).bind _) _) fun token rest known => ?_
  refine .ite (fun _ => ?_) fun _ => .stops ((Stops.stopAt _ _).bind _) _
  exact .skip (by rw [known]; exact List.cons_ne_nil _ _) (.pure _)

/-- A group is closed by a token, so its body does not reach the end. -/
theorem tokens_ne_nil_of_closeGroup {mark : Nat} {go : Unit → Reader α} {value : α} {last : State}
    (ran : (closeGroup mark >>= go).run state = .ok (value, last)) : state.tokens ≠ [] := by
  intro none
  rw [closeGroup_bind] at ran
  obtain ⟨token, between, peeked, further⟩ := exists_of_run_bind ran
  cases peeked
  rw [none] at further
  exact ((Stops.stopAt _ _).bind go) state value last further

end DocAudit.Pattern
