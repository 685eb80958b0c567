import DocAudit.Proofs.Logging.Turns
import Mathlib.Data.List.Induction

/-!
Sessions of calls to the registry of loggers, in any order. It is told by the turns of a session
which handlers there are and which levels.
-/

namespace DocAudit.Logging.Registry

variable {start : Registry} {turns : List Turn} {name : String}

def run (registry : Registry) (turns : List Turn) : Registry :=
  turns.foldl (fun registry turn => (registry.take turn).1) registry

theorem IsKept.run {holds : Registry → Prop} (kept : IsKept holds) (held : holds start)
    (turns : List Turn) : holds (start.run turns) := by
  induction turns generalizing start with
  | nil => exact held
  | cons turn rest induction => exact induction (kept.take held turn)

theorem run_append (start : Registry) (first second : List Turn) :
    start.run (first ++ second) = (start.run first).run second :=
  List.foldl_append

/-- Whether a turn gets through after the turns before it. -/
def Accepts (start : Registry) (earlier : List Turn) (turn : Turn) : Prop :=
  ((start.run earlier).take turn).2 = .ok ()

/-- Whether some turn of a session that is as told gets through. -/
def Has (start : Registry) (turns : List Turn) (told : Turn → Prop) : Prop :=
  ∃ earlier turn later, turns = earlier ++ turn :: later ∧ told turn ∧ start.Accepts earlier turn

/-- The parts of a list around an item are those of the list without its last item, or the item is
the last one. -/
theorem exists_append_cons_iff {α : Type} {items : List α} {last : α}
    (holds : List α → α → List α → Prop) :
    (∃ earlier item later, items ++ [last] = earlier ++ item :: later ∧ holds earlier item later) ↔
      (∃ earlier item later, items = earlier ++ item :: later ∧
        holds earlier item (later ++ [last])) ∨ holds items last [] := by
  constructor
  · rintro ⟨earlier, item, later, parts, held⟩
    rcases List.eq_nil_or_concat later with rfl | ⟨later, final, rfl⟩
    · obtain ⟨rfl, rfl⟩ : items = earlier ∧ last = item := by simpa using parts
      exact .inr held
    · have same : items ++ [last] = (earlier ++ item :: later) ++ [final] := by simpa using parts
      obtain ⟨rfl, ends⟩ := List.append_inj' same rfl
      cases ends
      exact .inl ⟨earlier, item, later, rfl, by simpa using held⟩
  · rintro (⟨earlier, item, later, rfl, held⟩ | held)
    · exact ⟨earlier, item, later ++ [last], by simp, held⟩
    · exact ⟨items, last, [], rfl, held⟩

theorem has_append_iff {start : Registry} {turns : List Turn} {turn : Turn} {told : Turn → Prop} :
    start.Has (turns ++ [turn]) told ↔
      start.Has turns told ∨ told turn ∧ start.Accepts turns turn :=
  exists_append_cons_iff fun earlier turn _ => told turn ∧ start.Accepts earlier turn

/-- Whether a session obtains the logger of a name. -/
def Obtains (start : Registry) (turns : List Turn) (name : String) : Prop :=
  start.Has turns (Turn.Gets name)

/-- Whether no turn asks for the root logger. -/
def AllNamed (turns : List Turn) : Prop :=
  ∀ turn ∈ turns, turn.call.IsNamed

theorem AllNamed.of_append {first second : List Turn} (named : AllNamed (first ++ second)) :
    AllNamed first :=
  fun turn member => named turn (List.mem_append_left second member)

theorem AllNamed.last {turn : Turn} (named : AllNamed (turns ++ [turn])) : turn.call.IsNamed :=
  named turn (List.mem_append_right turns (List.mem_singleton.mpr rfl))

theorem effect_last {turn : Turn} (areMet : start.AreMet) (named : AllNamed (turns ++ [turn])) :
    Effect ((start.run turns).around turn) turn (start.run (turns ++ [turn]))
      ((start.run turns).take turn).2 := by
  rw [run_append]
  exact effect_take (isKept_areMet.run areMet turns) named.last

theorem isRoot_of_gets {turn : Turn} (named : turn.call.IsNamed) (gets : turn.Gets name) :
    isRoot name = false := by
  obtain ⟨level, isGet⟩ := gets
  rwa [isGet] at named

theorem Obtains.isRoot (obtained : start.Obtains turns name) (named : AllNamed turns) :
    isRoot name = false := by
  obtain ⟨earlier, turn, later, rfl, gets, -⟩ := obtained
  exact isRoot_of_gets (named turn (by simp)) gets

/-- A named logger shows its messages on the console once it has been obtained, and nowhere
before. -/
theorem handlers_run (areMet : start.AreMet) (isNamed : isRoot name = false)
    (bare : (start.showing name).2 = []) (named : AllNamed turns) :
    (start.Obtains turns name → ((start.run turns).showing name).2 = [.console]) ∧
      (¬start.Obtains turns name → ((start.run turns).showing name).2 = []) := by
  induction turns using List.reverseRecOn with
  | nil => exact ⟨fun ⟨_, _, _, parts, _⟩ => by simp at parts, fun _ => bare⟩
  | append_singleton turns turn induction =>
    obtain ⟨after, before⟩ := induction named.of_append
    have effect := effect_last areMet named
    by_cases last : turn.Gets name ∧ start.Accepts turns turn
    · refine ⟨fun _ => ?_, fun missing => absurd (has_append_iff.mpr (.inr last)) missing⟩
      obtain ⟨kept, readied⟩ := effect.showing_of_gets last.1 last.2
      by_cases handled : ((start.run turns).showing name).2 = []
      · obtain ⟨level, -, shown⟩ := readied handled
        rw [shown]
      · rw [kept handled]
        exact after (Classical.not_not.mp fun missing => handled (before missing))
    · have same := effect.handlers_eq isNamed last
      rw [same, Obtains, has_append_iff, or_iff_left last]
      exact ⟨after, before⟩

/-- A logger that is not of the program keeps the level with which it was obtained first. -/
theorem level_run (areMet : start.AreMet) (bare : (start.showing name).2 = [])
    (foreign : isOfProgram name = false) {earlier later : List Turn} {turn : Turn}
    (named : AllNamed (earlier ++ [turn] ++ later)) (gets : turn.Gets name)
    (accepted : start.Accepts earlier turn) (first : ¬start.Obtains earlier name) :
    ∃ level, Level.ofName turn.wanted = .ok level ∧
      (start.run (earlier ++ [turn] ++ later)).showing name = (level, [.console]) := by
  have isNamed := isRoot_of_gets named.of_append.last gets
  induction later using List.reverseRecOn with
  | nil =>
    rw [List.append_nil] at named ⊢
    have unhandled := (handlers_run areMet isNamed bare named.of_append).2 first
    exact ((effect_last areMet named).showing_of_gets gets accepted).2 unhandled
  | append_singleton later last induction =>
    rw [← List.append_assoc] at named ⊢
    obtain ⟨level, known, shown⟩ := induction named.of_append
    refine ⟨level, known, ?_⟩
    rw [← shown]
    refine (effect_last areMet named).showing_of_handled isNamed foreign ?_
    change ((start.run (earlier ++ [turn] ++ later)).showing name).2 ≠ []
    rw [shown]
    exact List.cons_ne_nil _ _

/-- Whether handlers of the root logger are those of the start that got through last. There may be
none at all. -/
def IsOfLastStart (start : Registry) (turns : List Turn) (handlers : List Handler) : Prop :=
  handlers = [] ∨ ∃ earlier turn later level file, turns = earlier ++ turn :: later ∧
    turn.call = .setup level file ∧ start.Accepts earlier turn ∧
    ¬(start.run (earlier ++ [turn])).Has later Turn.Starts ∧
    handlers = rootHandlers turn.terminal.disk file

theorem IsOfLastStart.append {handlers : List Handler} {last : Turn}
    (started : start.IsOfLastStart turns handlers)
    (silent : ¬(last.Starts ∧ start.Accepts turns last)) :
    start.IsOfLastStart (turns ++ [last]) handlers := by
  rcases started with none | ⟨earlier, turn, later, level, file, rfl, called, accepted, final, same⟩
  · exact .inl none
  · refine .inr ⟨earlier, turn, later ++ [last], level, file, by simp, called, accepted, ?_, same⟩
    rw [has_append_iff, not_or]
    refine ⟨final, ?_⟩
    rwa [Accepts, ← run_append, List.append_assoc]

theorem isOfLastStart_run (areMet : start.AreMet) (bare : start.root.handlers = [])
    (named : AllNamed turns) : start.IsOfLastStart turns (start.run turns).root.handlers := by
  induction turns using List.reverseRecOn with
  | nil => exact .inl bare
  | append_singleton turns last induction =>
    have before := induction named.of_append
    have effect := effect_last areMet named
    by_cases starts : last.Starts
    · obtain ⟨level, file, isSetup⟩ := starts
      obtain ⟨through, stopped⟩ := effect.root_handlers_of_setup isSetup
      by_cases accepted : start.Accepts turns last
      · exact .inr ⟨turns, last, [], level, file, rfl, isSetup, accepted,
          fun ⟨_, _, _, parts, _⟩ => by simp at parts, through accepted⟩
      · rcases stopped accepted with none | same
        · exact .inl none
        · rw [same]
          exact before.append fun both => accepted both.2
    · rw [effect.root_handlers_eq starts]
      exact before.append fun both => starts both.1

theorem length_rootHandlers_le (disk : Disk) (file : Option String) :
    (rootHandlers disk file).length ≤ 1 := by
  rw [rootHandlers, List.length_map, Option.length_toList]
  split <;> simp

theorem IsOfLastStart.length_le {handlers : List Handler}
    (started : start.IsOfLastStart turns handlers) : handlers.length ≤ 1 := by
  rcases started with none | ⟨_, turn, _, _, file, _, _, _, _, same⟩
  · simp [none]
  · rw [same]
    exact length_rootHandlers_le turn.terminal.disk file

/-- What a session keeps, whatever its turns are. -/
structure KeepsInvariant (start : Registry) (turns : List Turn) : Prop where
  single : ∀ name, ((start.run turns).showing name).2.length ≤ 1
  obtained : ∀ name, start.Obtains turns name →
    ((start.run turns).showing name).2 = [.console]
  root : start.IsOfLastStart turns (start.run turns).root.handlers
  /-- A start that gets through leaves the root logger its file, if one is given. -/
  file : ∀ earlier turn level file, turns = earlier ++ [turn] → turn.call = .setup level file →
    start.Accepts earlier turn →
    (start.run turns).root.handlers = rootHandlers turn.terminal.disk file
  /-- A new level is that of every logger of the program. -/
  program : ∀ earlier turn name seen, turns = earlier ++ [turn] → turn.Relevels →
    start.Accepts earlier turn → isOfProgram name = true →
    (start.run turns).showing? name = some seen → Level.ofName turn.wanted = .ok seen.1
  /-- All other loggers keep the level with which they were obtained first. -/
  foreign : ∀ earlier turn later name, turns = earlier ++ [turn] ++ later →
    isOfProgram name = false → turn.Gets name → start.Accepts earlier turn →
    ¬start.Obtains earlier name →
    Level.ofName turn.wanted = .ok ((start.run turns).showing name).1
  /-- A turn changes no logger that there is if its level has an unknown name. -/
  rejected : ∀ earlier turn level, turns = earlier ++ [turn] →
    ((start.run earlier).take turn).2 = .error (.unknownLevel level) →
    (start.run earlier).KeepsAll (start.run turns)

theorem showing_blank (environment : Environment) (disk : Disk) (isNamed : isRoot name = false) :
    (blank environment disk).showing name = (.unset, []) := by
  rw [showing, showing?_of_named _ isNamed]
  rfl

theorem session_keeps_invariant (environment : Environment) (disk : Disk) (turns : List Turn)
    (named : AllNamed turns) : KeepsInvariant (blank environment disk) turns := by
  have areMet := areMet_blank environment disk
  have root := isOfLastStart_run areMet rfl named
  have handlers (name : String) (isNamed : isRoot name = false) :=
    handlers_run areMet isNamed (by rw [showing_blank environment disk isNamed]) named
  refine ⟨fun name => ?_, fun name obtained => ?_, root, ?_, ?_, ?_, ?_⟩
  · cases isNamed : isRoot name with
    | true =>
      rw [showing_of_showing? (showing?_of_isRoot _ isNamed)]
      exact root.length_le
    | false =>
      obtain ⟨after, before⟩ := handlers name isNamed
      by_cases obtained : (blank environment disk).Obtains turns name
      · simp [after obtained]
      · simp [before obtained]
  · exact (handlers name (obtained.isRoot named)).1 obtained
  · rintro earlier turn level file rfl isSetup accepted
    exact ((effect_last areMet named).root_handlers_of_setup isSetup).1 accepted
  · rintro earlier turn name seen rfl relevels accepted program shown
    exact (effect_last areMet named).level_of_relevels relevels accepted program shown
  · rintro earlier turn later name rfl foreign gets accepted first
    have isNamed := isRoot_of_gets named.of_append.last gets
    obtain ⟨level, known, shown⟩ :=
      level_run areMet (by rw [showing_blank environment disk isNamed]) foreign named gets accepted
        first
    rw [known, shown]
  · rintro earlier turn level rfl rejected
    exact (effect_last areMet named).keepsAll rejected

def emptyDisk : Disk := { root := .folder [], workingFolder := [] }

/-- Turns of each kind, the last of which is rejected. -/
def mixedTurns : List Turn :=
  [.get "docs_lint.tool" (some "debug"), .get "other" none, .setup "warning" none,
    .setLevel "loud"].map fun call =>
      { environment := [], terminal := { disk := emptyDisk }, call := call }

theorem session_keeps_invariant_mixed :
    AllNamed mixedTurns ∧ KeepsInvariant (blank [] emptyDisk) mixedTurns ∧
      ((blank [] emptyDisk).run mixedTurns).showing "docs_lint.tool" = (.warning, [.console]) ∧
      ((blank [] emptyDisk).run mixedTurns).showing "other" = (.info, [.console]) := by
  have named : AllNamed mixedTurns := by
    simp [AllNamed, mixedTurns, Call.IsNamed, isRoot, rootName]
  refine ⟨named, session_keeps_invariant [] emptyDisk mixedTurns named, ?_, ?_⟩
  · decide +kernel
  · decide +kernel

end DocAudit.Logging.Registry
