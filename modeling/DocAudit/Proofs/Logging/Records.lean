import DocAudit.Proofs.Logging.Sessions

/-!
Who shows a message. Loggers stand below one another as their names do, each shows what reaches it
on the console, and a message goes on from its logger to all those above it.
-/

namespace DocAudit.Logging

/-! ## Names above a name -/

/-- Whether a name goes on from another one with a dot. -/
def IsBelow (name above : String) : Prop :=
  above.toList ++ ['.'] <+: name.toList

/-- Whether a name has two dots side by side. -/
def HasGap (name : String) : Prop :=
  ['.', '.'] <:+: name.toList

/-- Whether a name is the beginning of that of the root logger. -/
def BeginsRoot (name : String) : Prop :=
  name.toList <+: rootName.toList

theorem suffix_of_mem_beginnings {chars above : List Char} (member : above ∈ beginnings chars) :
    '.' :: above <:+ chars := by
  fun_induction beginnings chars with
  | case1 c rest induction =>
    rcases List.mem_cons.mp member with rfl | farther
    · exact List.suffix_rfl
    · exact (induction farther).trans ((List.suffix_cons c rest).trans (List.suffix_cons '.' _))
  | case2 c rest _ induction => exact (induction member).trans (List.suffix_cons c rest)
  | case3 => cases member

theorem pairwise_beginnings (chars : List Char) :
    (beginnings chars).Pairwise fun nearer farther => farther <:+ nearer := by
  fun_induction beginnings chars with
  | case1 c rest induction =>
    refine List.pairwise_cons.mpr ⟨fun farther member => ?_, induction⟩
    have dotted := suffix_of_mem_beginnings member
    exact (List.suffix_cons '.' farther).trans (dotted.trans (List.suffix_cons c rest))
  | case2 _ _ _ induction => exact induction
  | case3 => exact .nil

theorem mem_beginnings_of_suffix {chars above : List Char} (whole : ¬['.', '.'] <:+: chars)
    (some : above ≠ []) (dotted : '.' :: above <:+ chars) : above ∈ beginnings chars := by
  fun_induction beginnings chars with
  | case1 c rest induction =>
    rcases List.suffix_cons_iff.mp dotted with same | farther
    · rw [(List.cons.inj same).2]
      exact List.mem_cons_self
    · rcases List.suffix_cons_iff.mp farther with same | farther
      · refine absurd ?_ whole
        rw [← (List.cons.inj same).1]
        exact ⟨[], rest, rfl⟩
      · refine List.mem_cons_of_mem _ (induction (fun gap => whole ?_) farther)
        exact gap.trans ((List.suffix_cons c rest).trans (List.suffix_cons '.' _)).isInfix
  | case2 c rest single induction =>
    rcases List.suffix_cons_iff.mp dotted with same | farther
    · obtain ⟨first, others, rfl⟩ := List.exists_cons_of_ne_nil some
      obtain ⟨isDot, isRest⟩ := List.cons.inj same
      exact absurd isRest.symm (single first others isDot.symm)
    · exact induction (fun gap => whole (gap.trans (List.suffix_cons c rest).isInfix)) farther
  | case3 => simp at dotted

theorem mem_namesAbove {name above : String} :
    above ∈ namesAbove name ↔ above.toList.reverse ∈ beginnings name.toList.reverse := by
  rw [namesAbove, List.mem_map]
  constructor
  · rintro ⟨spelled, member, rfl⟩
    rwa [String.toList_ofList, List.reverse_reverse]
  · intro member
    exact ⟨_, member, by rw [List.reverse_reverse, String.ofList_toList]⟩

theorem isBelow_of_mem_namesAbove {name above : String} (member : above ∈ namesAbove name) :
    IsBelow name above := by
  have dotted := suffix_of_mem_beginnings (mem_namesAbove.mp member)
  rw [IsBelow, ← List.reverse_suffix]
  simpa using dotted

theorem pairwise_namesAbove (name : String) :
    (namesAbove name).Pairwise fun nearer farther => farther.toList <+: nearer.toList := by
  rw [namesAbove, List.pairwise_map]
  refine (pairwise_beginnings _).imp fun suffix => ?_
  rw [String.toList_ofList, String.toList_ofList]
  exact List.reverse_prefix.mpr suffix

theorem mem_namesAbove_of_isBelow {name above : String} (whole : ¬HasGap name) (some : above ≠ "")
    (below : IsBelow name above) : above ∈ namesAbove name := by
  refine mem_namesAbove.mpr (mem_beginnings_of_suffix (fun gap => whole ?_) ?_ ?_)
  · rw [HasGap, ← List.reverse_infix]
    exact gap
  · simpa using some
  · rw [IsBelow, ← List.reverse_suffix] at below
    simpa using below

namespace IsBelow

variable {name middle above : String}

theorem isPrefix (below : IsBelow name above) : above.toList <+: name.toList :=
  (List.prefix_append _ _).trans below

theorem length_lt (below : IsBelow name above) : above.length < name.length := by
  have shorter := List.IsPrefix.length_le below
  rw [List.length_append, List.length_singleton] at shorter
  exact shorter

theorem trans (first : IsBelow name middle) (second : IsBelow middle above) : IsBelow name above :=
  List.IsPrefix.trans second first.isPrefix

/-- Of two names above a name, the shorter one is above the other. -/
theorem of_prefix (below : IsBelow name above) (nearer : IsBelow name middle)
    (begins : above.toList <+: middle.toList) (different : above ≠ middle) :
    IsBelow middle above := by
  refine List.prefix_of_prefix_length_le below nearer.isPrefix ?_
  rw [List.length_append, List.length_singleton]
  refine Nat.lt_of_le_of_ne begins.length_le fun same => different ?_
  exact String.toList_inj.mp (begins.eq_of_length same)

end IsBelow

namespace Registry

variable {registry start : Registry} {turns : List Turn} {name : String}

/-! ## The tree of loggers -/

/-- Whether the next logger above one is the nearest that has been asked for. For a name that is the
beginning of that of the root logger it may be the root logger still. -/
structure IsPlaced (registry : Registry) (logger : Logger) : Prop where
  above : logger.above = rootName ∨
    logger.above ∈ namesAbove logger.name ∧ registry.isTaken logger.above = true
  nearest : ∀ other ∈ namesAbove logger.name, registry.isTaken other = true → ¬BeginsRoot other →
    other.toList <+: logger.above.toList

structure IsTree (registry : Registry) : Prop where
  named : ∀ logger ∈ registry.loggers, isRoot logger.name = false
  placed : ∀ logger ∈ registry.loggers, registry.IsPlaced logger

theorem isTaken_iff :
    registry.isTaken name = true ↔ ∃ logger ∈ registry.loggers, logger.name = name := by
  simp [isTaken]

/-- The logger above one that is placed is that of the nearest name. -/
theorem IsPlaced.mem_of_nearest {logger : Logger} {other : String}
    (placed : registry.IsPlaced logger)
    (member : other ∈ namesAbove logger.name) (taken : registry.isTaken other = true)
    (free : ¬BeginsRoot other) :
    logger.above ∈ namesAbove logger.name ∧ registry.isTaken logger.above = true := by
  rcases placed.above with isRoot | above
  · refine absurd ?_ free
    rw [BeginsRoot, ← isRoot]
    exact placed.nearest other member taken free
  · exact above

theorem not_mem_namesAbove_self (name : String) : name ∉ namesAbove name :=
  fun member => Nat.lt_irrefl _ (isBelow_of_mem_namesAbove member).length_lt

/-- Of the names above a name that have been asked for, the first one is the nearest. -/
theorem isPlaced_new (registry : Registry) (name : String) :
    registry.IsPlaced
      { name := name, above := ((namesAbove name).find? registry.isTaken).getD rootName } := by
  constructor
  · cases found : (namesAbove name).find? registry.isTaken with
    | none => exact .inl rfl
    | some nearest =>
      exact .inr ⟨List.mem_of_find?_eq_some found, List.find?_some found⟩
  · intro other member taken _
    dsimp only at member ⊢
    have ordered := pairwise_namesAbove name
    obtain ⟨nearest, found⟩ := Option.isSome_iff_exists.mp
      (List.find?_isSome.mpr ⟨other, member, taken⟩)
    obtain ⟨nearestTaken, before, after, parts, untaken⟩ := List.find?_eq_some_iff_append.mp found
    rw [found]
    rw [parts] at member ordered
    rcases List.mem_append.mp member with early | late
    · exact absurd taken (by simpa using untaken other early)
    · rcases List.mem_cons.mp late with rfl | late
      · exact List.prefix_rfl
      · exact (List.pairwise_cons.mp (List.pairwise_append.mp ordered).2.1).1 other late

/-- A logger beside a new one is placed as well. -/
theorem IsPlaced.beside {after : Registry} {logger : Logger} (placed : registry.IsPlaced logger)
    (taken : ∀ other, after.isTaken other = true ↔ registry.isTaken other = true ∨ other = name) :
    after.IsPlaced (logger.beside name) := by
  have kept (above : logger.above = rootName ∨
      logger.above ∈ namesAbove logger.name ∧ registry.isTaken logger.above = true) :
      logger.above = rootName ∨
        logger.above ∈ namesAbove logger.name ∧ after.isTaken logger.above = true :=
    above.imp_right fun ⟨member, isTaken⟩ => ⟨member, (taken _).mpr (.inl isTaken)⟩
  rw [Logger.beside]
  split
  · next nearer =>
    rw [Bool.and_eq_true, List.contains_iff_mem, Bool.not_eq_true', ← Bool.not_eq_true,
      List.isPrefixOf_iff_prefix] at nearer
    obtain ⟨among, notBegun⟩ := nearer
    refine ⟨.inr ⟨among, (taken _).mpr (.inr rfl)⟩, fun other member isTaken free => ?_⟩
    dsimp only at member ⊢
    rcases (taken other).mp isTaken with old | rfl
    · have above := (placed.mem_of_nearest member old free).1
      have begins := placed.nearest other member old free
      -- Both names above the logger begin its own name, so one of them begins the other.
      rcases List.prefix_or_prefix_of_prefix (isBelow_of_mem_namesAbove above).isPrefix
        (isBelow_of_mem_namesAbove among).isPrefix with shorter | longer
      · exact begins.trans shorter
      · exact absurd longer notBegun
    · exact List.prefix_rfl
  · next farther =>
    refine ⟨kept placed.above, fun other member isTaken free => ?_⟩
    rcases (taken other).mp isTaken with old | rfl
    · exact placed.nearest other member old free
    · rw [Bool.and_eq_true, List.contains_iff_mem, Bool.not_eq_true', ← Bool.not_eq_true,
        List.isPrefixOf_iff_prefix] at farther
      exact Classical.not_not.mp fun notBegun => farther ⟨member, notBegun⟩

/-- It matters to the place of a logger only who else has been asked for above it. -/
theorem IsPlaced.congr {after : Registry} {logger other : Logger}
    (placed : registry.IsPlaced logger)
    (sameName : other.name = logger.name) (sameAbove : other.above = logger.above)
    (taken : ∀ above ∈ namesAbove logger.name, after.isTaken above = registry.isTaken above) :
    after.IsPlaced other := by
  refine ⟨?_, fun above member isTaken free => ?_⟩
  · rw [sameName, sameAbove]
    refine placed.above.imp_right fun ⟨member, isTaken⟩ => ⟨member, ?_⟩
    rwa [taken _ member]
  · rw [sameName] at member
    rw [sameAbove]
    rw [taken above member] at isTaken
    exact placed.nearest above member isTaken free

theorem isTaken_register (registry : Registry) (named : isRoot name = false) (other : String) :
    (registry.register name).isTaken other = true ↔
      registry.isTaken other = true ∨ other = name := by
  rw [register]
  split
  · next known =>
    refine (or_iff_left_of_imp fun same => ?_).symm
    rw [logger?, named] at known
    obtain ⟨logger, found⟩ := Option.isSome_iff_exists.mp known
    exact isTaken_iff.mpr ⟨logger, List.mem_of_find?_eq_some found,
      by simpa [same] using List.find?_some found⟩
  · simp only [isTaken, List.any_append, List.any_map, List.any_cons, List.any_nil, Bool.or_false,
      Function.comp_def, Logger.name_beside, Bool.or_eq_true, beq_iff_eq]
    rw [@eq_comm _ name other]

theorem IsTree.register (tree : registry.IsTree) (name : String) :
    (registry.register name).IsTree := by
  rw [Registry.register]
  split
  · exact tree
  · next unknown =>
    have absent : registry.logger? name = none := by simpa using unknown
    have named := isRoot_of_absent absent
    have taken := isTaken_register registry named
    rw [Registry.register, if_neg unknown] at taken
    refine ⟨fun logger member => ?_, fun logger member => ?_⟩
    · rcases List.mem_append.mp member with old | new
      · obtain ⟨before, among, rfl⟩ := List.mem_map.mp old
        rw [Logger.name_beside]
        exact tree.named before among
      · rw [List.mem_singleton.mp new]
        exact named
    · rcases List.mem_append.mp member with old | new
      · obtain ⟨before, among, rfl⟩ := List.mem_map.mp old
        exact (tree.placed before among).beside taken
      · rw [List.mem_singleton.mp new]
        refine (isPlaced_new registry name).congr rfl rfl fun above member => ?_
        have different : above ≠ name := fun same => not_mem_namesAbove_self name (same ▸ member)
        rw [Bool.eq_iff_iff, taken, or_iff_left different]

theorem isTaken_map {change : Logger → Logger}
    (keeps : ∀ logger, (change logger).name = logger.name) (other : String) :
    Registry.isTaken { registry with loggers := registry.loggers.map change } other =
      registry.isTaken other := by
  rw [isTaken, isTaken, List.any_map]
  congr 1
  funext logger
  rw [Function.comp_apply, keeps]

/-- Loggers that keep their names and places make up the same tree. -/
theorem IsTree.map (tree : registry.IsTree) {change : Logger → Logger}
    (keeps : ∀ logger, (change logger).name = logger.name ∧ (change logger).above = logger.above) :
    Registry.IsTree { registry with loggers := registry.loggers.map change } := by
  refine ⟨fun logger member => ?_, fun logger member => ?_⟩
  · obtain ⟨before, among, rfl⟩ := List.mem_map.mp member
    rw [(keeps before).1]
    exact tree.named before among
  · obtain ⟨before, among, rfl⟩ := List.mem_map.mp member
    exact (tree.placed before among).congr (keeps before).1 (keeps before).2
      fun above _ => isTaken_map (fun logger => (keeps logger).1) above

theorem isKept_isTree : IsKept IsTree where
  register _ name tree := tree.register name
  change registry name change keeps tree := by
    refine tree.map fun logger => ?_
    split
    · exact keeps logger
    · exact ⟨rfl, rfl⟩
  congr first second _ loggers tree := by
    refine ⟨?_, fun logger member => ?_⟩
    · rw [← loggers]
      exact tree.named
    · rw [← loggers] at member
      refine (tree.placed logger member).congr rfl rfl fun above _ => ?_
      rw [isTaken, isTaken, loggers]

theorem isTree_blank (environment : Environment) (disk : Disk) : (blank environment disk).IsTree :=
  ⟨nofun, nofun⟩

/-! ## The way up -/

theorem climb_of_missing (missing : registry.loggers.find? (·.name == name) = none) (steps : Nat) :
    registry.climb steps name = [] := by
  cases steps with
  | zero => rfl
  | succ steps => rw [climb, missing]

theorem climb_of_found {logger : Logger}
    (found : registry.loggers.find? (·.name == name) = some logger) (steps : Nat) :
    registry.climb (steps + 1) name = logger :: registry.climb steps logger.above := by
  rw [climb, found]

theorem IsTree.climb_root (tree : registry.IsTree) (steps : Nat) :
    registry.climb steps rootName = [] := by
  refine climb_of_missing (List.find?_eq_none.mpr fun logger member isName => ?_) steps
  have named := tree.named logger member
  rw [beq_iff_eq.mp isName] at named
  cases named

/-- Each logger on the way is the one of its name. -/
theorem find?_of_mem_climb {steps : Nat} {logger : Logger}
    (member : logger ∈ registry.climb steps name) :
    registry.loggers.find? (·.name == logger.name) = some logger := by
  induction steps generalizing name with
  | zero => cases member
  | succ steps induction =>
    cases found : registry.loggers.find? (·.name == name) with
    | none =>
      rw [climb_of_missing found] at member
      cases member
    | some first =>
      rw [climb_of_found found] at member
      rcases List.mem_cons.mp member with rfl | later
      · have isName : logger.name = name := by simpa using List.find?_some found
        rw [isName]
        exact found
      · exact induction later

theorem IsTree.isBelow_above (tree : registry.IsTree) {logger : Logger}
    (member : logger ∈ registry.loggers) (inner : logger.above ≠ rootName) :
    IsBelow logger.name logger.above :=
  isBelow_of_mem_namesAbove ((tree.placed logger member).above.resolve_left inner).1

/-- Names on the way up get shorter and shorter. -/
theorem IsTree.isBelow_of_mem_climb (tree : registry.IsTree) {steps : Nat} {first logger : Logger}
    (known : first ∈ registry.loggers) (member : logger ∈ registry.climb steps first.above) :
    IsBelow first.name logger.name := by
  induction steps generalizing first with
  | zero => cases member
  | succ steps induction =>
    cases found : registry.loggers.find? (·.name == first.above) with
    | none =>
      rw [climb_of_missing found] at member
      cases member
    | some second =>
      have inner : first.above ≠ rootName := by
        intro isRoot
        rw [isRoot, tree.climb_root] at member
        cases member
      have below := tree.isBelow_above known inner
      have isAbove : second.name = first.above := by simpa using List.find?_some found
      rw [← isAbove] at below
      rw [climb_of_found found] at member
      rcases List.mem_cons.mp member with rfl | later
      · exact below
      · exact below.trans (induction (List.mem_of_find?_eq_some found) later)

theorem IsTree.pairwise_climb (tree : registry.IsTree) (steps : Nat) (name : String) :
    (registry.climb steps name).Pairwise fun nearer farther =>
      IsBelow nearer.name farther.name := by
  induction steps generalizing name with
  | zero => exact .nil
  | succ steps induction =>
    cases found : registry.loggers.find? (·.name == name) with
    | none =>
      rw [climb_of_missing found]
      exact .nil
    | some first =>
      rw [climb_of_found found]
      exact List.pairwise_cons.mpr
        ⟨fun _ later => tree.isBelow_of_mem_climb (List.mem_of_find?_eq_some found) later,
          induction first.above⟩

theorem IsTree.ne_empty (tree : registry.IsTree) (taken : registry.isTaken name = true) :
    name ≠ "" := by
  obtain ⟨logger, member, isName⟩ := isTaken_iff.mp taken
  rintro rfl
  have named := tree.named logger member
  rw [isName] at named
  cases named

theorem find?_of_isTaken (taken : registry.isTaken name = true) :
    ∃ logger ∈ registry.loggers, logger.name = name ∧
      registry.loggers.find? (·.name == name) = some logger := by
  obtain ⟨logger, found⟩ := Option.isSome_iff_exists.mp
    (List.find?_isSome.mpr (List.any_eq_true.mp taken))
  exact ⟨logger, List.mem_of_find?_eq_some found, by simpa using List.find?_some found, found⟩

/-- Every name above a name that has been asked for is met on the way up. -/
theorem IsTree.mem_climb (tree : registry.IsTree) {steps : Nat} {other : String}
    (enough : name.length ≤ steps) (taken : registry.isTaken name = true) (whole : ¬HasGap name)
    (otherTaken : registry.isTaken other = true) (free : ¬BeginsRoot other)
    (upward : name = other ∨ IsBelow name other) :
    other ∈ (registry.climb steps name).map (·.name) := by
  induction steps generalizing name with
  | zero =>
    exact absurd (String.length_eq_zero_iff.mp (Nat.le_zero.mp enough)) (tree.ne_empty taken)
  | succ steps induction =>
    obtain ⟨logger, member, rfl, found⟩ := find?_of_isTaken taken
    rw [climb_of_found found, List.map_cons, List.mem_cons]
    rcases upward with same | below
    · exact .inl same.symm
    · right
      have placed := tree.placed logger member
      have among := mem_namesAbove_of_isBelow whole (tree.ne_empty otherTaken) below
      obtain ⟨aboveAmong, aboveTaken⟩ := placed.mem_of_nearest among otherTaken free
      have aboveBelow := isBelow_of_mem_namesAbove aboveAmong
      refine induction ?_ aboveTaken ?_ ?_
      · exact Nat.le_of_lt_succ (Nat.lt_of_lt_of_le aboveBelow.length_lt enough)
      · exact fun gap => whole (gap.trans aboveBelow.isPrefix.isInfix)
      · by_cases same : logger.above = other
        · exact .inl same
        · exact .inr (below.of_prefix aboveBelow
            (placed.nearest other among otherTaken free) (Ne.symm same))

/-- The names of the loggers above that of a name, nearest first and without the root logger. -/
def namesOver (registry : Registry) (name : String) : List String :=
  ((registry.climb name.length name).drop 1).map (·.name)

/-- The way up from a name begins at its own logger. -/
theorem IsTree.exists_climb_eq (tree : registry.IsTree) (taken : registry.isTaken name = true) :
    ∃ first rest, first.name = name ∧
      registry.climb name.length name = first :: rest ∧
      registry.namesOver name = rest.map (·.name) := by
  obtain ⟨first, -, isName, found⟩ := find?_of_isTaken taken
  obtain ⟨steps, isLength⟩ : ∃ steps, name.length = steps + 1 :=
    Nat.exists_eq_succ_of_ne_zero fun none =>
      tree.ne_empty taken (String.length_eq_zero_iff.mp none)
  have climbed : registry.climb name.length name = first :: registry.climb steps first.above := by
    rw [isLength, climb_of_found found]
  refine ⟨first, _, isName, climbed, ?_⟩
  rw [namesOver, climbed]
  rfl

theorem IsTree.isBelow_of_mem_namesOver (tree : registry.IsTree)
    (taken : registry.isTaken name = true) {other : String}
    (member : other ∈ registry.namesOver name) : IsBelow name other := by
  obtain ⟨first, rest, rfl, climbed, names⟩ := tree.exists_climb_eq taken
  have ordered := tree.pairwise_climb first.name.length first.name
  rw [climbed] at ordered
  rw [names] at member
  obtain ⟨logger, later, rfl⟩ := List.mem_map.mp member
  exact (List.pairwise_cons.mp ordered).1 logger later

theorem IsTree.mem_namesOver (tree : registry.IsTree) (taken : registry.isTaken name = true)
    (whole : ¬HasGap name) {other : String} (otherTaken : registry.isTaken other = true)
    (free : ¬BeginsRoot other) (below : IsBelow name other) : other ∈ registry.namesOver name := by
  obtain ⟨first, rest, isName, climbed, names⟩ := tree.exists_climb_eq taken
  have met := tree.mem_climb (Nat.le_refl name.length) taken whole otherTaken free (.inr below)
  rw [climbed, List.map_cons, List.mem_cons] at met
  rw [names]
  refine met.resolve_left fun same => Nat.ne_of_lt below.length_lt ?_
  rw [same, isName]

/-! ## Messages -/

/-- A message is shown once for each console among its handlers. -/
theorem handleAll_consoles (name : String) {level : Level} {text line : String}
    (shown : recordText level text = .ok line) (terminal : Terminal) (count : Nat)
    (rest : List Handler) :
    handleAll name level text terminal (List.replicate count .console ++ rest) =
      handleAll name level text (terminal.print (String.join (List.replicate count line)))
        rest := by
  induction count generalizing terminal with
  | zero => simp [Terminal.print]
  | succ count induction =>
    have first : handle name level text terminal .console = .ok (terminal.print line) := by
      rw [handle, Terminal.log, shown]
      rfl
    rw [List.replicate_succ, List.cons_append, handleAll, first]
    dsimp only
    rw [induction, List.replicate_succ, String.join_cons]
    simp [Terminal.print, String.append_assoc]

theorem handleAll_files (name : String) (level : Level) (text : String) {handlers : List Handler}
    (files : ∀ handler ∈ handlers, handler ≠ .console) (terminal : Terminal) :
    (handleAll name level text terminal handlers).1.out = terminal.out ∧
      (handleAll name level text terminal handlers).1.err = terminal.err := by
  induction handlers generalizing terminal with
  | nil => exact ⟨rfl, rfl⟩
  | cons handler rest induction =>
    obtain ⟨isFile, others⟩ := List.forall_mem_cons.mp files
    cases handler with
    | console => exact absurd rfl isFile
    | file path =>
      rw [handleAll]
      split
      · next next handled =>
        obtain ⟨disk, -, written⟩ := exists_of_bind_eq_ok handled
        cases written
        exact induction others _
      · exact ⟨rfl, rfl⟩

theorem IsOfLastStart.ne_console {handlers : List Handler}
    (started : start.IsOfLastStart turns handlers) : ∀ handler ∈ handlers, handler ≠ .console := by
  intro handler member
  rcases started with none | ⟨_, turn, _, _, file, _, _, _, _, same⟩
  · rw [none] at member
    cases member
  · rw [same, rootHandlers] at member
    obtain ⟨path, -, rfl⟩ := List.mem_map.mp member
    rintro ⟨⟩

/-! ## Consoles on the way up -/

/-- Just the loggers with wanted names have a console, and nothing else. -/
def HasConsolesOf (registry : Registry) (wanted : String → Prop) : Prop :=
  ∀ logger, registry.loggers.find? (·.name == logger.name) = some logger →
    (wanted logger.name → logger.handlers = [.console]) ∧
      (¬wanted logger.name → logger.handlers = [])

/-- The names of the loggers above that of a name that have a console. -/
def consolesOver (registry : Registry) (name : String) : List String :=
  (((registry.climb name.length name).drop 1).filter (·.handlers ≠ [])).map (·.name)

theorem flatMap_handlers {loggers : List Logger}
    (each : ∀ logger ∈ loggers, logger.handlers = [] ∨ logger.handlers = [.console]) :
    loggers.flatMap (·.handlers) =
      List.replicate (loggers.filter (·.handlers ≠ [])).length .console := by
  induction loggers with
  | nil => rfl
  | cons logger rest induction =>
    obtain ⟨first, others⟩ := List.forall_mem_cons.mp each
    rw [List.flatMap_cons, induction others]
    rcases first with bare | handled
    · simp [bare]
    · simp [handled, List.replicate_succ]

theorem IsTree.nodup_consolesOver (tree : registry.IsTree) (name : String) :
    (registry.consolesOver name).Nodup := by
  refine List.pairwise_map.mpr ?_
  have ordered := (tree.pairwise_climb name.length name).sublist (List.drop_sublist 1 _)
  refine (ordered.filter _).imp fun {_ _} isBelow same => ?_
  exact Nat.ne_of_gt isBelow.length_lt (congrArg String.length same)

namespace HasConsolesOf

variable {wanted : String → Prop}

theorem either (consoles : registry.HasConsolesOf wanted) {steps : Nat} {logger : Logger}
    (member : logger ∈ registry.climb steps name) :
    wanted logger.name ∧ logger.handlers = [.console] ∨
      ¬wanted logger.name ∧ logger.handlers = [] := by
  obtain ⟨handled, bare⟩ := consoles logger (find?_of_mem_climb member)
  by_cases isWanted : wanted logger.name
  · exact .inl ⟨isWanted, handled isWanted⟩
  · exact .inr ⟨isWanted, bare isWanted⟩

theorem handlers_ne_nil_iff (consoles : registry.HasConsolesOf wanted) {steps : Nat}
    {logger : Logger} (member : logger ∈ registry.climb steps name) :
    logger.handlers ≠ [] ↔ wanted logger.name := by
  rcases consoles.either member with ⟨isWanted, handled⟩ | ⟨unwanted, bare⟩
  · rw [handled]
    exact iff_of_true (List.cons_ne_nil _ _) isWanted
  · exact iff_of_false (fun handled => handled bare) unwanted

theorem mem_consolesOver_iff (consoles : registry.HasConsolesOf wanted) {other : String} :
    other ∈ registry.consolesOver name ↔ other ∈ registry.namesOver name ∧ wanted other := by
  rw [consolesOver, namesOver, List.mem_map, List.mem_map]
  constructor
  · rintro ⟨logger, among, rfl⟩
    obtain ⟨onWay, handled⟩ := List.mem_filter.mp among
    rw [decide_eq_true_eq, consoles.handlers_ne_nil_iff (List.mem_of_mem_drop onWay)] at handled
    exact ⟨⟨logger, onWay, rfl⟩, handled⟩
  · rintro ⟨⟨logger, onWay, rfl⟩, isWanted⟩
    refine ⟨logger, List.mem_filter.mpr ⟨onWay, ?_⟩, rfl⟩
    rwa [decide_eq_true_eq, consoles.handlers_ne_nil_iff (List.mem_of_mem_drop onWay)]

/-- One console for the logger itself, and one for each that has one above it. -/
theorem flatMap_climb (consoles : registry.HasConsolesOf wanted) (tree : registry.IsTree)
    (taken : registry.isTaken name = true) (isWanted : wanted name) :
    (registry.climb name.length name).flatMap (·.handlers) =
      List.replicate ((registry.consolesOver name).length + 1) .console := by
  obtain ⟨first, rest, isName, climbed, -⟩ := tree.exists_climb_eq taken
  have each : ∀ logger ∈ registry.climb name.length name,
      logger.handlers = [] ∨ logger.handlers = [.console] := by
    intro logger member
    rcases consoles.either member with ⟨-, handled⟩ | ⟨-, bare⟩
    · exact .inr handled
    · exact .inl bare
  have shows : first.handlers ≠ [] := by
    rw [consoles.handlers_ne_nil_iff (by rw [climbed]; exact List.mem_cons_self), isName]
    exact isWanted
  rw [flatMap_handlers each, consolesOver, climbed, List.filter_cons_of_pos (by simpa using shows)]
  simp

end HasConsolesOf

/-- Just the loggers that have been obtained have a console. -/
theorem hasConsolesOf_run {environment : Environment} {disk : Disk} (named : AllNamed turns) :
    ((blank environment disk).run turns).HasConsolesOf
      ((blank environment disk).Obtains turns) := by
  intro logger found
  have tree := isKept_isTree.run (isTree_blank environment disk) turns
  have isNamed := tree.named logger (List.mem_of_find?_eq_some found)
  have bare : ((blank environment disk).showing logger.name).2 = [] := by
    rw [showing_blank environment disk isNamed]
  have shown : ((blank environment disk).run turns).showing logger.name =
      (logger.level, logger.handlers) := by
    rw [showing, showing?_of_named _ isNamed, found]
    rfl
  have told := handlers_run (areMet_blank environment disk) isNamed bare named
  rwa [shown] at told

/-- How a message comes out that is shown as often as told. The root logger may have a file that it
cannot be written to. -/
structure ShowsCopies (registry : Registry) (name : String) (level : Level) (text line : String)
    (copies : Nat) : Prop where
  out : (registry.log name level text).1.terminal.out =
    registry.terminal.out ++ String.join (List.replicate copies line)
  err : (registry.log name level text).1.terminal.err = registry.terminal.err
  outcome : registry.root.handlers = [] → (registry.log name level text).2 = .ok ()

theorem showsCopies_log {level : Level} {text line : String} {count : Nat}
    (taken : registry.isTaken name = true) (isNamed : isRoot name = false)
    (enabled : registry.isEnabled name level = true) (shown : recordText level text = .ok line)
    (consoles : (registry.climb name.length name).flatMap (·.handlers) =
      List.replicate (count + 1) .console)
    (files : ∀ handler ∈ registry.root.handlers, handler ≠ .console) :
    ShowsCopies registry name level text line (count + 1) := by
  obtain ⟨logger, ensured, -⟩ := exists_ensure registry name
  have known : (registry.logger? name).isSome := by
    obtain ⟨first, -, -, found⟩ := find?_of_isTaken taken
    simp [logger?, isNamed, found]
  rw [register_of_isSome known] at ensured
  have handlers : (registry.chain name).flatMap (·.handlers) =
      .console :: (List.replicate count .console ++ registry.root.handlers) := by
    rw [chain, List.flatMap_append, consoles, List.replicate_succ]
    simp
  have handled := handleAll_consoles logger.name shown registry.terminal (count + 1)
    registry.root.handlers
  rw [List.replicate_succ, List.cons_append] at handled
  have logged : registry.log name level text =
      ({ registry with
          terminal := (handleAll logger.name level text (registry.terminal.print
            (String.join (List.replicate (count + 1) line))) registry.root.handlers).1 },
        (handleAll logger.name level text (registry.terminal.print
          (String.join (List.replicate (count + 1) line))) registry.root.handlers).2) := by
    simp only [log, ensured, enabled, if_true, handlers, handled]
  obtain ⟨out, err⟩ := handleAll_files logger.name level text files
    (registry.terminal.print (String.join (List.replicate (count + 1) line)))
  refine ⟨by rw [logged]; exact out, by rw [logged]; exact err, fun none => ?_⟩
  rw [logged, none]
  rfl

theorem Obtains.isTaken {environment : Environment} {disk : Disk} (named : AllNamed turns)
    (obtained : (blank environment disk).Obtains turns name) :
    ((blank environment disk).run turns).isTaken name = true := by
  have isNamed := obtained.isRoot named
  have handlers := (handlers_run (areMet_blank environment disk) isNamed
    (by rw [showing_blank environment disk isNamed]) named).1 obtained
  have shown := showing_of_handlers (by rw [handlers]; exact List.cons_ne_nil _ _)
  rw [showing?_of_named _ isNamed] at shown
  obtain ⟨logger, found, -⟩ := Option.map_eq_some_iff.mp shown
  exact isTaken_iff.mpr
    ⟨logger, List.mem_of_find?_eq_some found, by simpa using List.find?_some found⟩

/-- A message through a logger that has been obtained is shown once by that logger, and once more by
each obtained logger above it. These have names that its name goes on from with a dot, and where it
has no two dots side by side, all such names are above it, but for one that begins the name of the
root logger. -/
theorem record_is_shown_along_its_way (environment : Environment) (disk : Disk) (turns : List Turn)
    (named : AllNamed turns) {name : String}
    (obtained : (blank environment disk).Obtains turns name) {level : Level} {text line : String}
    (enabled : ((blank environment disk).run turns).isEnabled name level = true)
    (shown : recordText level text = .ok line) :
    ∃ above : List String, above.Nodup ∧
      (∀ other, other ∈ above ↔ other ∈ ((blank environment disk).run turns).namesOver name ∧
        (blank environment disk).Obtains turns other) ∧
      (∀ other ∈ above, IsBelow name other) ∧
      (¬HasGap name → ∀ other, (blank environment disk).Obtains turns other →
        IsBelow name other → ¬BeginsRoot other → other ∈ above) ∧
      ShowsCopies ((blank environment disk).run turns) name level text line (above.length + 1) := by
  have tree := isKept_isTree.run (isTree_blank environment disk) turns
  have files := (isOfLastStart_run (areMet_blank environment disk) rfl named).ne_console
  have taken := obtained.isTaken named
  have consoles : ((blank environment disk).run turns).HasConsolesOf
    ((blank environment disk).Obtains turns) := hasConsolesOf_run named
  have mem_iff (other : String) : other ∈ ((blank environment disk).run turns).consolesOver name ↔
      other ∈ ((blank environment disk).run turns).namesOver name ∧
        (blank environment disk).Obtains turns other := consoles.mem_consolesOver_iff
  refine ⟨_, tree.nodup_consolesOver name, mem_iff, fun other member => ?_,
    fun whole other known below free => ?_, ?_⟩
  · exact tree.isBelow_of_mem_namesOver taken ((mem_iff other).mp member).1
  · exact (mem_iff other).mpr
      ⟨tree.mem_namesOver taken whole (known.isTaken named) free below, known⟩
  · exact showsCopies_log taken (obtained.isRoot named) enabled shown
      (consoles.flatMap_climb tree taken obtained) files

/-- A name is obtained after one that it goes on from. -/
def nestedTurns : List Turn :=
  [.get "tool" none, .get "tool.part" none].map fun call =>
    { environment := [], terminal := { disk := emptyDisk }, call := call }

theorem allNamed_nestedTurns : AllNamed nestedTurns := by
  simp [AllNamed, nestedTurns, Call.IsNamed, isRoot, rootName]

theorem obtains_nestedTurns : (blank [] emptyDisk).Obtains nestedTurns "tool.part" :=
  ⟨nestedTurns.take 1, _, [], rfl, ⟨none, rfl⟩, rfl⟩

theorem isEnabled_nestedTurns :
    ((blank [] emptyDisk).run nestedTurns).isEnabled "tool.part" .info = true := by
  decide +kernel

theorem record_is_shown_along_its_way_nested :
    AllNamed nestedTurns ∧ (blank [] emptyDisk).Obtains nestedTurns "tool.part" ∧
      ((blank [] emptyDisk).run nestedTurns).isEnabled "tool.part" .info = true ∧
      recordText .info "ready" = .ok "INFO     ready\n" ∧
      ∃ above : List String, ShowsCopies ((blank [] emptyDisk).run nestedTurns) "tool.part" .info
        "ready" "INFO     ready\n" (above.length + 1) := by
  have shown : recordText .info "ready" = .ok "INFO     ready\n" := by cbv
  obtain ⟨above, -, -, -, -, copies⟩ := record_is_shown_along_its_way [] emptyDisk nestedTurns
    allNamed_nestedTurns obtains_nestedTurns isEnabled_nestedTurns shown
  exact ⟨allNamed_nestedTurns, obtains_nestedTurns, isEnabled_nestedTurns, shown, above, copies⟩

theorem nested_record_is_shown_twice :
    AllNamed nestedTurns ∧ (blank [] emptyDisk).Obtains nestedTurns "tool.part" ∧
      ((blank [] emptyDisk).run nestedTurns).isEnabled "tool.part" .info = true ∧
      recordText .info "ready" = .ok "INFO     ready\n" ∧
      (((blank [] emptyDisk).run nestedTurns).log "tool.part" .info "ready").1.terminal.out =
        "INFO     ready\nINFO     ready\n" := by
  refine ⟨allNamed_nestedTurns, obtains_nestedTurns, isEnabled_nestedTurns, ?_, ?_⟩
  · cbv
  · decide +kernel

end Registry

end DocAudit.Logging
