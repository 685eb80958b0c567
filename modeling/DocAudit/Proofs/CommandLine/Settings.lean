import DocAudit.CommandLine.Arguments
import Mathlib

/-!
A flag in front of other arguments. What is set first counts least, so the flag is set and the
other arguments are read as they are without it.
-/

namespace DocAudit.CommandLine

/-! ## Settings -/

/-- More settings, as if they had come first. -/
def Reading.over (reading : Reading) (below : List (String × String)) : Reading :=
  { reading with settings := reading.settings ++ below }

theorem set_over (reading : Reading) (below : List (String × String)) (switch : Switch)
    (value : String) :
    (reading.over below).set switch value = (reading.set switch value).map (·.over below) := by
  rw [Reading.set, Reading.set]
  cases switch.arity with
  | help => rfl
  | flag => rfl
  | value choices =>
    dsimp only
    split <;> rfl

theorem setAll_over (reading : Reading) (below : List (String × String)) (switches : List Switch)
    (value : String) :
    setAll (reading.over below) switches value =
      (setAll reading switches value).map (·.over below) := by
  induction switches generalizing reading with
  | nil => rfl
  | cons switch rest induction =>
    rw [setAll, setAll, List.foldlM_cons, List.foldlM_cons, set_over]
    cases reading.set switch value with
    | error stop => rfl
    | ok next => exact induction next

theorem setAll_over_bind (reading : Reading) {below : List (String × String)}
    (switches : List Switch) (value : String) {next : Reading → Except Stop Reading}
    (further : ∀ reading, next (reading.over below) = (next reading).map (·.over below)) :
    (setAll (reading.over below) switches value >>= next) =
      (setAll reading switches value >>= next).map (·.over below) := by
  rw [setAll_over]
  cases setAll reading switches value with
  | error stop => rfl
  | ok reading => exact further reading

theorem readSettings_over (switches : List Switch) (reading : Reading)
    (below : List (String × String)) (words : List (String × Word)) :
    readSettings switches (reading.over below) words =
      (readSettings switches reading words).map (·.over below) := by
  induction length : words.length using Nat.strong_induction_on generalizing words reading with
  | _ count induction =>
    subst length
    cases words with
    | nil => rfl
    | cons first rest =>
      have further (next : Reading) := induction rest.length (Nat.lt_succ_self _) next rest rfl
      obtain ⟨argument, word⟩ := first
      cases word with
      | plain => exact further (reading.leave argument)
      | separator => exact further (reading.leave argument)
      | mention mention =>
        cases mention with
        | none => exact further (reading.leave argument)
        | some mention =>
          rw [readSettings, readSettings]
          cases unfoldMention switches mention.switch mention.spelling mention.explicit with
          | error stop => rfl
          | ok meant =>
            obtain ⟨meant, explicit⟩ := meant
            cases explicit with
            | some value =>
              exact setAll_over_bind reading meant (String.ofList value) further
            | none =>
              change (if _ then _ else _) = Except.map _ (if _ then _ else _)
              split
              · cases rest with
                | nil => rfl
                | cons second rest =>
                  obtain ⟨value, word⟩ := second
                  cases word with
                  | plain =>
                    have further (next : Reading) := induction rest.length (by simp) next rest rfl
                    exact setAll_over_bind reading meant value further
                  | _ => rfl
              · exact setAll_over_bind reading meant "" further

theorem readWords_cons (switches : List Switch) {argument : String} (other : argument ≠ "--")
    (rest : List String) :
    readWords switches (argument :: rest) = do
      let word ← readWord switches argument
      return (argument, word) :: (← readWords switches rest) := by
  rw [readWords]
  exact other

theorem map_fst_of_readWords {switches : List Switch} {arguments : List String}
    {words : List (String × Word)} (read : readWords switches arguments = .ok words) :
    words.map (·.1) = arguments := by
  induction arguments generalizing words with
  | nil =>
    cases read
    rfl
  | cons argument rest induction =>
    by_cases separator : argument = "--"
    · subst separator
      cases read
      simp [Function.comp_def]
    · rw [readWords_cons switches separator] at read
      cases word : readWord switches argument with
      | error stop => rw [word] at read; cases read
      | ok word' =>
        cases others : readWords switches rest with
        | error stop => rw [word, others] at read; cases read
        | ok words' =>
          rw [word, others] at read
          cases read
          exact congrArg _ (induction others)

/-! ## The command line of a linter -/

def verboseSwitch : Switch :=
  (Command.lint.switches.find? (·.spellings.contains "--verbose")).getD Command.helpSwitch

theorem findCommand_lint {arguments : List String} {words : List (String × Word)}
    (read : readWords topSwitches arguments = .ok words) :
    findCommand ("lint" :: arguments) = .ok (.lint, ⟨[], "lint", arguments⟩) := by
  rw [findCommand, readWords_cons _ (by decide), read]
  change (Except.ok (Command.lint, Split.mk [] "lint" (words.map (·.1))) : Except Stop _) = _
  rw [map_fst_of_readWords read]

/-- Reading a command line of the linter: its arguments have to make sense in front of the command,
too, where nothing but a plea for help is known. -/
theorem parse_lint_iff {arguments : List String} {invocation : Invocation} :
    parse ("lint" :: arguments) = .ok invocation ↔
      (∃ words, readWords topSwitches arguments = .ok words) ∧
        ∃ reading, readArguments .lint arguments = .ok reading ∧ reading.leftOver = [] ∧
          Command.lint.invocation reading = invocation := by
  rw [parse]
  cases read : readWords topSwitches arguments with
  | error stop =>
    have failed : findCommand ("lint" :: arguments) = .error stop := by
      rw [findCommand, readWords_cons _ (by decide), read]
      rfl
    rw [failed]
    refine iff_of_false nofun ?_
    rintro ⟨⟨words, ⟨⟩⟩, -⟩
  | ok words =>
    rw [findCommand_lint read, and_iff_right ⟨words, rfl⟩]
    cases set : readArguments .lint arguments with
    | error stop =>
      refine iff_of_false ?_ ?_
      · intro parsed
        simp only [bind, Except.bind, Except.mapError, set] at parsed
        cases parsed
      · rintro ⟨reading, ⟨⟩, -⟩
    | ok reading =>
      simp only [bind, Except.bind, Except.mapError, set, List.nil_append, Except.ok.injEq,
        exists_eq_left']
      cases reading.leftOver with
      | nil => simp [pure, Except.pure]
      | cons argument others => simp [throw, throwThe, MonadExceptOf.throw]

theorem readArguments_verbose {arguments : List String} {reading : Reading}
    (read : readArguments .lint arguments = .ok reading) :
    readArguments .lint ("--verbose" :: arguments) =
      .ok (reading.over [("--verbose", "")]) := by
  have word : readWord Command.lint.switches "--verbose" =
      .ok (.mention (some ⟨verboseSwitch, "--verbose", none⟩)) := by
    decide +kernel
  rw [readArguments] at read ⊢
  rw [readWords_cons _ (by decide), word]
  cases spelled : readWords Command.lint.switches arguments with
  | error stop => rw [spelled] at read; cases read
  | ok words =>
    rw [spelled] at read
    have set := readSettings_over Command.lint.switches {} [("--verbose", "")] words
    change readSettings Command.lint.switches {} words = .ok reading at read
    rw [read] at set
    have first : readSettings Command.lint.switches {}
        (("--verbose", .mention (some ⟨verboseSwitch, "--verbose", none⟩)) :: words) =
          readSettings Command.lint.switches (Reading.over {} [("--verbose", "")]) words := by
      rw [readSettings]
      rfl
    exact first.trans set

theorem lookup_over (reading : Reading) {name : String} (other : name ≠ "--verbose") :
    (reading.over [("--verbose", "")]).value? name = reading.value? name := by
  rw [Reading.value?, Reading.over, Reading.value?, List.lookup_append]
  have missing : [("--verbose", "")].lookup name = none := by
    rw [List.lookup_cons, beq_false_of_ne other]
    rfl
  rw [missing, Option.or_none]

/-- A flag in front of the arguments makes the linter verbose and changes nothing else. -/
theorem parse_verbose {arguments : List String} {lint : LintArguments}
    (parsed : parse ("lint" :: arguments) = .ok (.lint lint)) :
    parse ("lint" :: "--verbose" :: arguments) = .ok (.lint { lint with verbose := true }) := by
  rw [parse_lint_iff] at parsed ⊢
  obtain ⟨⟨words, front⟩, reading, read, complete, meant⟩ := parsed
  have word : readWord topSwitches "--verbose" = .ok (.mention none) := by decide +kernel
  refine ⟨⟨("--verbose", .mention none) :: words, ?_⟩, reading.over [("--verbose", "")],
    readArguments_verbose read, complete, ?_⟩
  · rw [readWords_cons _ (by decide), word, front]
    rfl
  · rw [Command.invocation] at meant ⊢
    cases meant
    simp only [lookup_over, ne_eq, String.reduceEq, not_false_eq_true]
    simp [Reading.over, Reading.isSet]

end DocAudit.CommandLine
