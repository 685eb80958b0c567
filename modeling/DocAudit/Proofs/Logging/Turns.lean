import DocAudit.Logging.Registry
import DocAudit.Proofs.Faults

/-!
What a call to the registry of loggers can do to levels and handlers, in the environment and on the
terminal of its turn.
-/

namespace DocAudit.Logging

inductive Call where
  | get (name : String) (level : Option String)
  | setLevel (level : String)
  | setup (level : String) (file : Option String)

/-- Whether a call asks for no other logger than a named one. -/
def Call.IsNamed : Call → Prop
  | get name _ => isRoot name = false
  | _ => True

/-- A call, and what it finds around the registry. -/
structure Turn where
  environment : Environment
  terminal : Terminal
  call : Call

/-- The name of the level that a call asks for. -/
def Turn.wanted (turn : Turn) : String :=
  match turn.call with
  | .get _ level => (level.filter (· ≠ "")).getD turn.environment.logLevel
  | .setLevel level => level
  | .setup level _ => turn.environment.logLevel level

namespace Registry

/-- The registry where a turn takes place. -/
def around (registry : Registry) (turn : Turn) : Registry :=
  { registry with environment := turn.environment, terminal := turn.terminal }

def take (registry : Registry) (turn : Turn) : Registry × Except Fault Unit :=
  match turn.call with
  | .get name level =>
    let result := (registry.around turn).get name level
    (result.1, result.2.map fun _ => ())
  | .setLevel level => (registry.around turn).setLevel level
  | .setup level file =>
    let result := (registry.around turn).setup level file
    (result.1, result.2.map fun _ => ())

/-! ## Levels and handlers of loggers -/

/-- What decides on messages to the logger of a name. -/
def showing? (registry : Registry) (name : String) : Option (Level × List Handler) :=
  (registry.logger? name).map fun logger => (logger.level, logger.handlers)

/-- The same for a logger that may be a new one. -/
def showing (registry : Registry) (name : String) : Level × List Handler :=
  (registry.showing? name).getD (.unset, [])

theorem showing_of_showing? {registry : Registry} {name : String} {seen : Level × List Handler}
    (known : registry.showing? name = some seen) : registry.showing name = seen := by
  rw [showing, known]
  rfl

theorem showing?_of_isRoot (registry : Registry) {name : String} (root : isRoot name = true) :
    registry.showing? name = some (registry.root.level, registry.root.handlers) := by
  simp [showing?, logger?, root]

theorem showing?_of_named (registry : Registry) {name : String} (named : isRoot name = false) :
    registry.showing? name =
      (registry.loggers.find? (·.name == name)).map fun logger =>
        (logger.level, logger.handlers) := by
  simp [showing?, logger?, named]

theorem showing_of_handlers {registry : Registry} {name : String}
    (handled : (registry.showing name).2 ≠ []) :
    registry.showing? name = some (registry.showing name) := by
  rw [showing] at handled ⊢
  cases known : registry.showing? name with
  | none => simp [known] at handled
  | some seen => rfl

/-- Each change of loggers that keeps their names is met where their names are looked up. -/
theorem find?_map_of_name {change : Logger → Logger}
    (keeps : ∀ logger, (change logger).name = logger.name) (loggers : List Logger)
    (name : String) :
    (loggers.map change).find? (·.name == name) =
      (loggers.find? (·.name == name)).map change := by
  rw [List.find?_map]
  congr 2
  funext logger
  simp [keeps]

end Registry

namespace Logger

@[simp] theorem name_beside (name : String) (logger : Logger) :
    (logger.beside name).name = logger.name := by
  rw [beside]
  split <;> rfl

@[simp] theorem level_beside (name : String) (logger : Logger) :
    (logger.beside name).level = logger.level := by
  rw [beside]
  split <;> rfl

@[simp] theorem handlers_beside (name : String) (logger : Logger) :
    (logger.beside name).handlers = logger.handlers := by
  rw [beside]
  split <;> rfl

end Logger

namespace Registry

variable {registry : Registry} {name other : String}

theorem register_of_isSome (known : (registry.logger? name).isSome) :
    registry.register name = registry := by
  rw [register, if_pos known]

@[simp] theorem root_register (registry : Registry) (name : String) :
    (registry.register name).root = registry.root := by
  rw [register]
  split <;> rfl

theorem logger?_eq_none_iff : registry.logger? name = none ↔ registry.showing? name = none := by
  rw [showing?, Option.map_eq_none_iff]

theorem isRoot_of_absent (absent : registry.logger? name = none) : isRoot name = false := by
  cases root : isRoot name with
  | true => simp [logger?, root] at absent
  | false => rfl

theorem showing?_register_of_ne (different : other ≠ name) :
    (registry.register name).showing? other = registry.showing? other := by
  rw [register]
  split
  · rfl
  · cases named : isRoot other with
    | true => rw [showing?_of_isRoot _ named, showing?_of_isRoot _ named]
    | false =>
      rw [showing?_of_named _ named, showing?_of_named _ named, List.find?_append,
        find?_map_of_name (Logger.name_beside name)]
      cases registry.loggers.find? (·.name == other) with
      | none => simp [different.symm]
      | some logger => simp

theorem showing?_register_self (registry : Registry) (name : String) :
    (registry.register name).showing? name = some (registry.showing name) := by
  rw [register]
  split
  · next known =>
    obtain ⟨logger, found⟩ := Option.isSome_iff_exists.mp known
    simp [showing, showing?, found]
  · next unknown =>
    have absent : registry.logger? name = none := by simpa using unknown
    have named := isRoot_of_absent absent
    have missing : registry.loggers.find? (·.name == name) = none := by
      simpa [logger?, named] using absent
    rw [showing, logger?_eq_none_iff.mp absent, showing?_of_named _ named, List.find?_append,
      find?_map_of_name (Logger.name_beside name), missing]
    simp

theorem showing?_register (registry : Registry) (name other : String) :
    (registry.register name).showing? other =
      if other = name then some (registry.showing name) else registry.showing? other := by
  split
  · next same => rw [same, showing?_register_self]
  · next different => exact showing?_register_of_ne different

@[simp] theorem showing_register (registry : Registry) (name other : String) :
    (registry.register name).showing other = registry.showing other := by
  rw [showing, showing?_register]
  split
  · next same =>
    rw [same]
    rfl
  · rfl

theorem ne_of_isRoot (named : isRoot name = false) (root : isRoot other = true) :
    other ≠ name := by
  rintro rfl
  rw [named] at root
  cases root

/-- A change of a named logger that keeps its name. -/
theorem logger?_update (named : isRoot name = false) {change : Logger → Logger}
    (keeps : ∀ logger, (change logger).name = logger.name) (other : String) :
    (registry.update name change).logger? other =
      if other = name then (registry.logger? name).map change else registry.logger? other := by
  rw [update, if_neg (by simp [named])]
  cases otherNamed : isRoot other with
  | true => simp [logger?, otherNamed, ne_of_isRoot named otherNamed]
  | false =>
    have keepsEach : ∀ logger : Logger,
        (if logger.name == name then change logger else logger).name = logger.name := by
      intro logger
      split
      · exact keeps logger
      · rfl
    simp only [logger?, otherNamed, named, Bool.false_eq_true, if_false,
      find?_map_of_name keepsEach]
    cases found : registry.loggers.find? (·.name == other) with
    | none =>
      split
      · next same =>
        rw [← same, found]
        rfl
      · rfl
    | some logger =>
      have isOther : logger.name = other := by simpa using List.find?_some found
      split
      · next same =>
        rw [← same, found]
        simp [isOther]
      · next different => simp [isOther, different]

@[simp] theorem root_update (named : isRoot name = false) (change : Logger → Logger) :
    (registry.update name change).root = registry.root := by
  rw [update, if_neg (by simp [named])]

/-! ## Asking for a logger -/

/-- No logger that there is has changed. -/
def KeepsAll (before after : Registry) : Prop :=
  ∀ name seen, before.showing? name = some seen → after.showing? name = some seen

theorem keepsAll_register (registry : Registry) (name : String) :
    registry.KeepsAll (registry.register name) := by
  intro other seen known
  rw [showing?_register]
  split
  · next same => rw [← same, showing_of_showing? known]
  · exact known

theorem exists_ensure (registry : Registry) (name : String) :
    ∃ logger, registry.ensure name = (registry.register name, logger) ∧
      (registry.register name).logger? name = some logger ∧
      (logger.level, logger.handlers) = registry.showing name := by
  have shown := showing?_register_self registry name
  obtain ⟨logger, found, seen⟩ := Option.map_eq_some_iff.mp shown
  exact ⟨logger, by simp [ensure, found], found, seen⟩

/-- A logger is changed once it is there; nothing else is any different then. -/
theorem showing?_update_register (named : isRoot name = false) (change : Logger → Logger)
    (keeps : ∀ logger, (change logger).name = logger.name) {logger : Logger}
    (found : (registry.register name).logger? name = some logger) (other : String) :
    ((registry.register name).update name change).showing? other =
      if other = name then some ((change logger).level, (change logger).handlers)
      else registry.showing? other := by
  rw [showing?, logger?_update named keeps, found]
  split
  · rfl
  · next different => exact showing?_register_of_ne different

/-- The three ways in which a call for a named logger can end. -/
inductive Asked (before : Registry) (name wanted : String) :
    Registry → Except Fault Unit → Prop where
  | found {after : Registry} (handled : (before.showing name).2 ≠ [])
    (same : ∀ other, after.showing? other = before.showing? other) :
    Asked before name wanted after (.ok ())
  | readied {after : Registry} {level : Level} (bare : (before.showing name).2 = [])
    (known : Level.ofName wanted = .ok level)
    (changed : ∀ other, after.showing? other =
      if other = name then some (level, [.console]) else before.showing? other) :
    Asked before name wanted after (.ok ())
  | rejected {after : Registry} {fault : Fault} (bare : (before.showing name).2 = [])
    (unknown : Level.ofName wanted = .error fault)
    (changed : ∀ other, after.showing? other =
      if other = name then some (before.showing name) else before.showing? other) :
    Asked before name wanted after (.error fault)

theorem asked_get (registry : Registry) (named : isRoot name = false) (level : Option String) :
    Asked registry name ((level.filter (· ≠ "")).getD registry.environment.logLevel)
      (registry.get name level).1 ((registry.get name level).2.map fun _ => ()) := by
  obtain ⟨logger, ensured, found, seen⟩ := exists_ensure registry name
  have handlers : logger.handlers = (registry.showing name).2 := by rw [← seen]
  have environment : (registry.register name).environment = registry.environment := by
    rw [register]
    split <;> rfl
  simp only [get, ensured, environment]
  by_cases bare : (registry.showing name).2 = []
  · have noHandler : logger.handlers = [] := handlers.trans bare
    simp only [noHandler, List.isEmpty_nil, Bool.not_true, Bool.false_eq_true, if_false]
    cases known : Level.ofName ((level.filter (· ≠ "")).getD registry.environment.logLevel) with
    | error fault => exact .rejected bare known (showing?_register registry name)
    | ok wanted =>
      refine .readied bare known fun other => ?_
      have changed := showing?_update_register named
        (fun logger =>
          { logger with level := wanted, handlers := logger.handlers ++ [.console] })
        (fun _ => rfl) found other
      simpa only [noHandler, List.nil_append] using changed
  · have handled : logger.handlers.isEmpty = false := by
      rw [List.isEmpty_eq_false_iff, handlers]
      exact bare
    simp only [handled, Bool.not_false, if_true]
    refine .found bare fun other => ?_
    rw [showing?_register]
    split
    · next same => rw [same, showing_of_handlers bare]
    · rfl

/-! ## What every call keeps -/

/-- A call for a logger changes no other registry than that in which the logger is there. -/
theorem get_eq_or (registry : Registry) (name : String) (level : Option String) :
    (registry.get name level).1 = registry.register name ∨
      ∃ change : Logger → Logger,
        (∀ logger, (change logger).name = logger.name ∧ (change logger).above = logger.above) ∧
        (registry.get name level).1 = (registry.register name).update name change := by
  obtain ⟨logger, ensured, -⟩ := exists_ensure registry name
  simp only [get, ensured]
  cases logger.handlers.isEmpty with
  | false => exact .inl rfl
  | true =>
    cases Level.ofName ((level.filter (· ≠ "")).getD
        (registry.register name).environment.logLevel) with
    | error fault => exact .inl rfl
    | ok wanted =>
      exact .inr ⟨fun logger =>
        { logger with level := wanted, handlers := logger.handlers ++ [.console] },
        fun _ => ⟨rfl, rfl⟩, rfl⟩

/-- A property of names and loggers that new loggers keep, and so do changes of a logger that stays
in its place. -/
structure IsKept (holds : Registry → Prop) : Prop where
  register : ∀ registry name, holds registry → holds (registry.register name)
  change : ∀ registry name (change : Logger → Logger),
    (∀ logger, (change logger).name = logger.name ∧ (change logger).above = logger.above) →
    holds registry → holds { registry with
      loggers := registry.loggers.map fun logger =>
        if logger.name == name then change logger else logger }
  congr : ∀ first second, first.names = second.names → first.loggers = second.loggers →
    holds first → holds second

namespace IsKept

variable {holds : Registry → Prop}

theorem update (kept : IsKept holds) (name : String) {change : Logger → Logger}
    (keeps : ∀ logger, (change logger).name = logger.name ∧ (change logger).above = logger.above)
    (held : holds registry) : holds (registry.update name change) := by
  rw [Registry.update]
  split
  · exact kept.congr registry _ rfl rfl held
  · exact kept.change registry name change keeps held

theorem get (kept : IsKept holds) (held : holds registry) (name : String) (level : Option String) :
    holds (registry.get name level).1 := by
  have registered := kept.register registry name held
  rcases get_eq_or registry name level with same | ⟨change, keeps, changed⟩
  · rwa [same]
  · rw [changed]
    exact kept.update name keeps registered

theorem setLevels (kept : IsKept holds) (held : holds registry) (level : String)
    (names : List String) : holds (registry.setLevels level names).1 := by
  induction names generalizing registry with
  | nil => exact held
  | cons name rest induction =>
    have registered := kept.register registry name held
    rw [Registry.setLevels]
    split
    · exact registered
    · exact induction (kept.update name (fun _ => ⟨rfl, rfl⟩) registered)

theorem setLevel (kept : IsKept holds) (held : holds registry) (level : String) :
    holds (registry.setLevel level).1 :=
  kept.setLevels held level (registry.names.filter isOfProgram)

theorem setup (kept : IsKept holds) (held : holds registry) (level : String)
    (file : Option String) : holds (registry.setup level file).1 := by
  rw [Registry.setup]
  split
  · exact held
  · next wanted _ =>
    let bare : Logger := { registry.root with level := wanted, handlers := [] }
    let start : Registry := { registry with root := bare }
    have startHeld : holds start := kept.congr registry start rfl rfl held
    have levelled := kept.setLevel startHeld (registry.environment.logLevel level)
    simp only
    split
    · exact levelled
    · split
      · exact levelled
      · exact kept.congr (start.setLevel (registry.environment.logLevel level)).1 _ rfl rfl levelled

theorem take (kept : IsKept holds) (held : holds registry) (turn : Turn) :
    holds (registry.take turn).1 := by
  have heldAround : holds (registry.around turn) := kept.congr registry _ rfl rfl held
  rw [Registry.take]
  cases turn.call with
  | get name level => exact kept.get heldAround name level
  | setLevel level => exact kept.setLevel heldAround level
  | setup level file =>
    dsimp only
    exact kept.setup heldAround level file

end IsKept

/-- The names of all loggers have been met. -/
def AreMet (registry : Registry) : Prop :=
  ∀ logger ∈ registry.loggers, logger.name ∈ registry.names

theorem AreMet.mem_names (areMet : registry.AreMet) (named : isRoot name = false)
    {seen : Level × List Handler} (shown : registry.showing? name = some seen) :
    name ∈ registry.names := by
  rw [showing?_of_named _ named] at shown
  obtain ⟨logger, found, -⟩ := Option.map_eq_some_iff.mp shown
  have isName : logger.name = name := by simpa using List.find?_some found
  rw [← isName]
  exact areMet logger (List.mem_of_find?_eq_some found)

theorem isKept_areMet : IsKept AreMet where
  register registry name areMet := by
    rw [register]
    split
    · exact areMet
    · intro logger member
      rw [List.mem_eraseDups, List.mem_append, List.mem_cons]
      rcases List.mem_append.mp member with old | new
      · obtain ⟨before, among, rfl⟩ := List.mem_map.mp old
        rw [Logger.name_beside]
        exact .inl (areMet before among)
      · rw [List.mem_singleton.mp new]
        exact .inr (.inl rfl)
  change registry name change keeps areMet logger member := by
    obtain ⟨before, among, rfl⟩ := List.mem_map.mp member
    split
    · rw [(keeps before).1]
      exact areMet before among
    · exact areMet before among
  congr first second names loggers areMet := by
    rw [AreMet, ← names, ← loggers]
    exact areMet

/-! ## Setting the levels of the program -/

/-- The loggers of the program have a level, whatever level they had, and nothing else is any
different. -/
structure Levelled (level : Level) (before after : Registry) : Prop where
  program : ∀ name seen, isOfProgram name = true → after.showing? name = some seen →
    seen.1 = level
  handlers : ∀ name, isRoot name = false → (after.showing name).2 = (before.showing name).2
  others : ∀ name, isRoot name = false → isOfProgram name = false →
    after.showing? name = before.showing? name

theorem isRoot_of_isOfProgram (program : isOfProgram name = true) : isRoot name = false := by
  rw [isOfProgram, Bool.or_eq_true, beq_iff_eq, List.isPrefixOf_iff_prefix] at program
  rcases program with rfl | ⟨rest, spelled⟩
  · rfl
  · cases root : isRoot name with
    | false => rfl
    | true =>
      rw [isRoot, Bool.or_eq_true, beq_iff_eq, beq_iff_eq] at root
      rcases root with rfl | rfl <;> cases spelled

theorem showing?_setLevels {level : String} {wanted : Level}
    (known : Level.ofName level = .ok wanted) {names : List String}
    (named : ∀ name ∈ names, isRoot name = false) (other : String) :
    (registry.setLevels level names).1.showing? other =
      if other ∈ names then some (wanted, (registry.showing other).2)
      else registry.showing? other := by
  induction names generalizing registry with
  | nil => rfl
  | cons name rest induction =>
    obtain ⟨nameNamed, restNamed⟩ := List.forall_mem_cons.mp named
    simp only [setLevels, known]
    have shown : ∀ other, ((registry.register name).update name fun logger =>
        { logger with level := wanted }).showing? other =
          if other = name then some (wanted, (registry.showing name).2)
          else registry.showing? other := by
      intro other
      obtain ⟨logger, -, found, seen⟩ := exists_ensure registry name
      rw [← seen]
      exact showing?_update_register nameNamed
        (fun logger => { logger with level := wanted }) (fun _ => rfl) found other
    rw [induction restNamed, shown]
    by_cases same : other = name
    · subst same
      simp [showing, shown]
    · simp [showing, shown, same]

theorem setLevels_of_known {level : String} {wanted : Level}
    (known : Level.ofName level = .ok wanted) (names : List String) :
    (registry.setLevels level names).2 = .ok () := by
  induction names generalizing registry with
  | nil => rfl
  | cons name rest induction =>
    simp only [setLevels, known]
    exact induction

theorem root_setLevels (level : String) {names : List String}
    (named : ∀ name ∈ names, isRoot name = false) :
    (registry.setLevels level names).1.root = registry.root := by
  induction names generalizing registry with
  | nil => rfl
  | cons name rest induction =>
    obtain ⟨nameNamed, restNamed⟩ := List.forall_mem_cons.mp named
    rw [setLevels]
    split
    · exact root_register registry name
    · rw [induction restNamed, root_update nameNamed, root_register]

theorem isRoot_of_mem_names (registry : Registry) :
    ∀ name ∈ registry.names.filter isOfProgram, isRoot name = false :=
  fun _ member => isRoot_of_isOfProgram (List.mem_filter.mp member).2

@[simp] theorem root_setLevel (registry : Registry) (level : String) :
    (registry.setLevel level).1.root = registry.root :=
  root_setLevels level registry.isRoot_of_mem_names

theorem levelled_setLevel (areMet : registry.AreMet) {level : String} {wanted : Level}
    (known : Level.ofName level = .ok wanted) :
    Levelled wanted registry (registry.setLevel level).1 := by
  have shown (name : String) : (registry.setLevel level).1.showing? name =
      if name ∈ registry.names.filter isOfProgram then some (wanted, (registry.showing name).2)
      else registry.showing? name :=
    showing?_setLevels known registry.isRoot_of_mem_names name
  refine ⟨fun name seen program after => ?_, fun name _ => ?_, fun name _ other => ?_⟩
  · rw [shown] at after
    split at after
    · rw [← Option.some.inj after]
    · next unmet =>
      have met := areMet.mem_names (isRoot_of_isOfProgram program) after
      exact absurd (List.mem_filter.mpr ⟨met, program⟩) unmet
  · rw [showing, shown]
    split <;> rfl
  · rw [shown, if_neg (by simp [other])]

/-- The three ways in which a call for new levels can end. It says nothing of a level that no
logger is given. -/
inductive Relevelled (before : Registry) (wanted : String) :
    Registry → Except Fault Unit → Prop where
  | levelled {after : Registry} {level : Level} (known : Level.ofName wanted = .ok level)
    (levelled : Levelled level before after) : Relevelled before wanted after (.ok ())
  | unheard {after : Registry} (none : ∀ name, isOfProgram name = true →
      after.showing? name = .none) (same : ∀ other, after.showing? other = before.showing? other) :
    Relevelled before wanted after (.ok ())
  | rejected {after : Registry} {fault : Fault} (unknown : Level.ofName wanted = .error fault)
    (kept : before.KeepsAll after) (same : ∀ name, after.showing name = before.showing name) :
    Relevelled before wanted after (.error fault)

theorem relevelled_setLevel (areMet : registry.AreMet) (level : String) :
    Relevelled registry level (registry.setLevel level).1 (registry.setLevel level).2 := by
  cases known : Level.ofName level with
  | ok wanted =>
    have succeeds : (registry.setLevel level).2 = .ok () := setLevels_of_known known _
    rw [succeeds]
    exact .levelled known (levelled_setLevel areMet known)
  | error fault =>
    rw [setLevel]
    cases met : registry.names.filter isOfProgram with
    | nil =>
      refine .unheard (fun name program => ?_) fun _ => rfl
      cases shown : registry.showing? name with
      | none => exact shown
      | some seen =>
        have among := areMet.mem_names (isRoot_of_isOfProgram program) shown
        have listed := List.mem_filter.mpr ⟨among, program⟩
        rw [met] at listed
        cases listed
    | cons name rest =>
      simp only [setLevels, known]
      exact .rejected known (keepsAll_register registry name) (showing_register registry name)

/-! ## Starting anew -/

theorem openFile_ne_unknownLevel (registry : Registry) (path : FilePath) (name : String) :
    registry.openFile path ≠ .error (.unknownLevel name) := by
  have unread : registry.terminal.disk.readBytes path ≠ .error (.unknownLevel name) := by
    rw [Disk.readBytes]
    split <;> simp
  have unwritten (content : ByteArray) :
      registry.terminal.disk.writeBytes path content ≠ .error (.unknownLevel name) := by
    rw [Disk.writeBytes]
    split
    all_goals try simp
    split <;> simp
  rw [openFile]
  split
  · exact nofun
  · exact unwritten .empty
  · next fault _ read =>
    rintro ⟨⟩
    exact unread read

/-- The handlers of the root logger once it has been set up. -/
def rootHandlers (disk : Disk) (file : Option String) : List Handler :=
  (file.filter (· ≠ "")).toList.map fun file => .file (logPath disk file)

/-- The three ways in which logging can start anew. -/
inductive Started (before : Registry) (wanted : String) (file : Option String) :
    Registry → Except Fault Unit → Prop where
  | started {after : Registry} {level : Level} (known : Level.ofName wanted = .ok level)
    (levelled : Levelled level before after)
    (root : after.root.handlers = rootHandlers before.terminal.disk file) :
    Started before wanted file after (.ok ())
  | unopened {after : Registry} {level : Level} {fault : Fault}
    (known : Level.ofName wanted = .ok level) (levelled : Levelled level before after)
    (root : after.root.handlers = []) (other : ∀ name, fault ≠ .unknownLevel name) :
    Started before wanted file after (.error fault)
  | rejected {fault : Fault} (unknown : Level.ofName wanted = .error fault) :
    Started before wanted file before (.error fault)

theorem showing?_congr {first second : Registry} (same : first.loggers = second.loggers)
    (named : isRoot name = false) : first.showing? name = second.showing? name := by
  rw [showing?_of_named _ named, showing?_of_named _ named, same]

theorem Levelled.congr {level : Level} {before after first last : Registry}
    (levelled : Levelled level before after) (atFirst : first.loggers = before.loggers)
    (atLast : last.loggers = after.loggers) : Levelled level first last := by
  refine ⟨fun name seen program shown => ?_, fun name named => ?_, fun name named other => ?_⟩
  · rw [showing?_congr atLast (isRoot_of_isOfProgram program)] at shown
    exact levelled.program name seen program shown
  · rw [showing, showing, showing?_congr atLast named, showing?_congr atFirst named]
    exact levelled.handlers name named
  · rw [showing?_congr atLast named, showing?_congr atFirst named]
    exact levelled.others name named other

@[simp] theorem terminal_register (registry : Registry) (name : String) :
    (registry.register name).terminal = registry.terminal := by
  rw [register]
  split <;> rfl

@[simp] theorem terminal_update (registry : Registry) (name : String) (change : Logger → Logger) :
    (registry.update name change).terminal = registry.terminal := by
  rw [update]
  split <;> rfl

theorem terminal_setLevels (registry : Registry) (level : String) (names : List String) :
    (registry.setLevels level names).1.terminal = registry.terminal := by
  induction names generalizing registry with
  | nil => rfl
  | cons name rest induction =>
    rw [setLevels]
    split
    · exact terminal_register registry name
    · rw [induction, terminal_update, terminal_register]

theorem started_setup (areMet : registry.AreMet) (level : String) (file : Option String) :
    Started registry (registry.environment.logLevel level) file
      (registry.setup level file).1 ((registry.setup level file).2.map fun _ => ()) := by
  rw [setup]
  cases known : Level.ofName (registry.environment.logLevel level) with
  | error fault => exact .rejected known
  | ok wanted =>
    let bare : Logger := { registry.root with level := wanted, handlers := [] }
    let start : Registry := { registry with root := bare }
    have startMet : start.AreMet := areMet
    have levelled : Levelled wanted registry
        (start.setLevel (registry.environment.logLevel level)).1 :=
      (levelled_setLevel startMet known).congr rfl rfl
    have root := root_setLevel start (registry.environment.logLevel level)
    have terminal : (start.setLevel (registry.environment.logLevel level)).1.terminal =
        registry.terminal := terminal_setLevels start _ _
    cases kept : file.filter (· ≠ "") with
    | none =>
      refine .started known levelled ?_
      rw [rootHandlers, kept]
      exact congrArg Logger.handlers root
    | some file =>
      simp only
      split
      · next fault failed =>
        refine .unopened known levelled (by rw [root]) fun name unknown => ?_
        exact openFile_ne_unknownLevel _ _ name (failed.trans (by rw [unknown]))
      · refine .started known (levelled.congr rfl rfl) ?_
        rw [rootHandlers, kept]
        exact congrArg (fun terminal : Terminal =>
          [Handler.file (logPath terminal.disk file)]) terminal

/-! ## What a turn can do -/

theorem root_get (named : isRoot name = false) (level : Option String) :
    (registry.get name level).1.root = registry.root := by
  rcases get_eq_or registry name level with same | ⟨change, -, changed⟩
  · rw [same, root_register]
  · rw [changed, root_update named, root_register]

theorem areMet_blank (environment : Environment) (disk : Disk) :
    (blank environment disk).AreMet :=
  nofun

end Registry

/-- Whether a turn asks for the logger of a name. -/
def Turn.Gets (name : String) (turn : Turn) : Prop :=
  ∃ level, turn.call = .get name level

/-- Whether a turn starts logging anew. -/
def Turn.Starts (turn : Turn) : Prop :=
  ∃ level file, turn.call = .setup level file

/-- Whether a turn gives the program a level. -/
def Turn.Relevels (turn : Turn) : Prop :=
  turn.Starts ∨ ∃ level, turn.call = .setLevel level

namespace Registry

variable {registry : Registry} {name : String}

/-- What a turn can do, told by its call. -/
inductive Effect (before : Registry) (turn : Turn) (after : Registry)
    (outcome : Except Fault Unit) : Prop where
  | asked {name : String} {level : Option String} (called : turn.call = .get name level)
    (asked : Asked before name turn.wanted after outcome) (root : after.root = before.root)
  | relevelled {level : String} (called : turn.call = .setLevel level)
    (relevelled : Relevelled before turn.wanted after outcome) (root : after.root = before.root)
  | started {level : String} {file : Option String} (called : turn.call = .setup level file)
    (started : Started before turn.wanted file after outcome)

theorem effect_take (areMet : registry.AreMet) {turn : Turn} (named : turn.call.IsNamed) :
    Effect (registry.around turn) turn (registry.take turn).1 (registry.take turn).2 := by
  have met : (registry.around turn).AreMet := areMet
  rw [take]
  cases called : turn.call with
  | get name level =>
    rw [called] at named
    have asked := asked_get (registry.around turn) named level
    refine .asked called ?_ (root_get named level)
    rw [Turn.wanted, called]
    exact asked
  | setLevel level =>
    refine .relevelled called ?_ (root_setLevel _ level)
    rw [Turn.wanted, called]
    exact relevelled_setLevel met level
  | setup level file =>
    refine .started called ?_
    rw [Turn.wanted, called]
    dsimp only
    exact started_setup met level file

namespace Effect

variable {before after : Registry} {turn : Turn} {outcome : Except Fault Unit}

/-- Only a call for a logger can give it a handler. -/
theorem handlers_eq (effect : Effect before turn after outcome) (named : isRoot name = false)
    (silent : ¬(turn.Gets name ∧ outcome = .ok ())) :
    (after.showing name).2 = (before.showing name).2 := by
  cases effect with
  | asked called asked =>
    cases asked with
    | found _ same => rw [showing, showing, same]
    | readied _ _ changed =>
      rw [showing, showing, changed]
      split
      · next isName => exact absurd ⟨⟨_, by rw [called, isName]⟩, rfl⟩ silent
      · rfl
    | rejected _ _ changed =>
      rw [showing, changed]
      split
      · next isName =>
        rw [isName]
        rfl
      · rfl
  | relevelled _ relevelled =>
    cases relevelled with
    | levelled _ levelled => exact levelled.handlers name named
    | unheard _ same => rw [showing, showing, same]
    | rejected _ _ same => rw [same]
  | started _ started =>
    cases started with
    | started _ levelled => exact levelled.handlers name named
    | unopened _ levelled => exact levelled.handlers name named
    | rejected => rfl

/-- A logger that is asked for is as it was if it has handlers. Else it gets the level asked for and
shows its messages on the console. -/
theorem showing_of_gets (effect : Effect before turn after outcome) (gets : turn.Gets name)
    (accepted : outcome = .ok ()) :
    ((before.showing name).2 ≠ [] → after.showing name = before.showing name) ∧
      ((before.showing name).2 = [] → ∃ level, Level.ofName turn.wanted = .ok level ∧
        after.showing name = (level, [.console])) := by
  obtain ⟨level, isGet⟩ := gets
  cases effect with
  | asked called asked =>
    cases called.symm.trans isGet
    cases asked with
    | found handled same =>
      exact ⟨fun _ => by rw [showing, showing, same], fun bare => absurd bare handled⟩
    | readied bare known changed =>
      refine ⟨fun handled => absurd bare handled, fun _ => ⟨_, known, ?_⟩⟩
      rw [showing, changed, if_pos rfl]
      rfl
    | rejected => cases accepted
  | relevelled called => cases called.symm.trans isGet
  | started called => cases called.symm.trans isGet

/-- A logger with handlers that is not of the program stays as it is. -/
theorem showing_of_handled (effect : Effect before turn after outcome)
    (named : isRoot name = false) (foreign : isOfProgram name = false)
    (handled : (before.showing name).2 ≠ []) : after.showing name = before.showing name := by
  cases effect with
  | asked called asked =>
    cases asked with
    | found _ same => rw [showing, showing, same]
    | readied bare _ changed =>
      rw [showing, showing, changed, if_neg]
      rintro rfl
      exact handled bare
    | rejected bare _ changed =>
      rw [showing, showing, changed, if_neg]
      rintro rfl
      exact handled bare
  | relevelled _ relevelled =>
    cases relevelled with
    | levelled _ levelled => rw [showing, showing, levelled.others name named foreign]
    | unheard _ same => rw [showing, showing, same]
    | rejected _ _ same => rw [same]
  | started _ started =>
    cases started with
    | started _ levelled => rw [showing, showing, levelled.others name named foreign]
    | unopened _ levelled => rw [showing, showing, levelled.others name named foreign]
    | rejected => rfl

/-- A new level is that of every logger of the program. -/
theorem level_of_relevels (effect : Effect before turn after outcome) (relevels : turn.Relevels)
    (accepted : outcome = .ok ()) {seen : Level × List Handler}
    (program : isOfProgram name = true) (shown : after.showing? name = some seen) :
    Level.ofName turn.wanted = .ok seen.1 := by
  cases effect with
  | asked called =>
    rcases relevels with ⟨_, _, isOther⟩ | ⟨_, isOther⟩ <;> cases called.symm.trans isOther
  | relevelled _ relevelled =>
    cases relevelled with
    | levelled known levelled => rw [known, levelled.program name seen program shown]
    | unheard none => cases (none name program).symm.trans shown
    | rejected => cases accepted
  | started _ started =>
    cases started with
    | started known levelled => rw [known, levelled.program name seen program shown]
    | unopened => cases accepted
    | rejected => cases accepted

/-- No logger changes if there is no level of the name. -/
theorem keepsAll (effect : Effect before turn after outcome)
    (rejected : outcome = .error (.unknownLevel name)) : before.KeepsAll after := by
  cases effect with
  | asked _ asked =>
    cases asked with
    | found => cases rejected
    | readied => cases rejected
    | rejected _ _ changed =>
      intro other seen shown
      rw [changed]
      split
      · next isName => rw [← isName, showing_of_showing? shown]
      · exact shown
  | relevelled _ relevelled =>
    cases relevelled with
    | levelled => cases rejected
    | unheard => cases rejected
    | rejected _ kept => exact kept
  | started _ started =>
    cases started with
    | started => cases rejected
    | unopened _ _ _ other => exact absurd (Except.error.inj rejected) (other name)
    | rejected => exact fun _ _ shown => shown

theorem root_handlers_eq (effect : Effect before turn after outcome) (silent : ¬turn.Starts) :
    after.root.handlers = before.root.handlers := by
  cases effect with
  | asked _ _ root => rw [root]
  | relevelled _ _ root => rw [root]
  | started called => exact absurd ⟨_, _, called⟩ silent

/-- A start that does not get through may leave the root logger without its handlers. -/
theorem root_handlers_of_setup (effect : Effect before turn after outcome) {level : String}
    {file : Option String} (isSetup : turn.call = .setup level file) :
    (outcome = .ok () → after.root.handlers = rootHandlers before.terminal.disk file) ∧
      (outcome ≠ .ok () →
        after.root.handlers = [] ∨ after.root.handlers = before.root.handlers) := by
  cases effect with
  | asked called => cases called.symm.trans isSetup
  | relevelled called => cases called.symm.trans isSetup
  | started called started =>
    cases called.symm.trans isSetup
    cases started with
    | started _ _ root => exact ⟨fun _ => root, fun refused => absurd rfl refused⟩
    | unopened _ _ root => exact ⟨nofun, fun _ => .inl root⟩
    | rejected => exact ⟨nofun, fun _ => .inr rfl⟩

end Effect

end Registry

end DocAudit.Logging
