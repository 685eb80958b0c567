import DocAudit.Proofs.CommandLine.Exit
import DocAudit.Proofs.Console.Literal
import DocAudit.Proofs.Fixing.DryRun

/-!
The lines in which the fix command names the files that it has changed. A path is put into a line as
it is, so it is read as markup there: it comes out whole just where nothing in it looks like any.
-/

namespace DocAudit

/-! ## Files that a run fixes -/

namespace FixSession

/-- A dry run over files that can be read comes to the end and tells those that need changes. -/
theorem fixFiles_dry (session : FixSession) (distinct : session.disk.root.HasDistinctNames)
    (isDry : session.dryRun = true)
    {needs : FilePath → Bool} {paths : List FilePath}
    (known : ∀ path ∈ paths, session.disk.needsFix path = .ok (needs path)) :
    (session.fixFiles paths).2 = .ok (paths.filter needs).length ∧
      (session.fixFiles paths).1.fixed = session.fixed ++ paths.filter needs := by
  induction paths generalizing session with
  | nil => exact ⟨rfl, (List.append_nil _).symm⟩
  | cons path rest induction =>
    obtain ⟨knownHere, knownThere⟩ := List.forall_mem_cons.mp known
    have fixed := fixFile_eq distinct path
    rw [knownHere] at fixed
    rw [fixFiles_cons_of_ok fixed]
    cases needed : needs path with
    | false =>
      obtain ⟨count, told⟩ := induction session distinct isDry knownThere
      rw [List.filter_cons_of_neg (by simp [needed])]
      refine ⟨?_, told⟩
      change ((session.fixFiles rest).2.map _) = _
      rw [count]
      rfl
    | true =>
      have sameDisk : (session.record ⟨path, session.afterFix path⟩).disk = session.disk := by
        change session.afterFix path = _
        rw [afterFix, isDry]
        rfl
      have distinctAfter := distinct
      rw [← sameDisk] at distinctAfter knownThere
      obtain ⟨count, told⟩ := induction _ distinctAfter isDry knownThere
      rw [List.filter_cons_of_pos needed, List.length_cons]
      refine ⟨?_, ?_⟩
      · change ((session.record ⟨path, session.afterFix path⟩).fixFiles rest).2.map _ = _
        rw [count]
        rfl
      · change ((session.record ⟨path, session.afterFix path⟩).fixFiles rest).1.fixed = _
        rw [told, fixed_record, List.append_assoc]
        rfl

end FixSession

/-- Paths of files that are named once each lead to different places. -/
theorem pairwise_apart {files : List String} (once : files.Nodup)
    (isRelative : ∀ file ∈ files, IsDocsRelative file) (disk : Disk) (docs : FilePath) :
    (files.map docs.child).Pairwise disk.Apart := by
  rw [List.pairwise_map]
  refine once.imp_of_mem fun member otherMember different => ?_
  exact (isRelative _ member).apart (isRelative _ otherMember) different disk docs

/-- The run that writes tells the same files as the dry run. -/
theorem fixFiles_told {disk : Disk} (distinct : disk.root.HasDistinctNames) {docs : FilePath}
    {files : List String} (once : files.Nodup)
    (isRelative : ∀ file ∈ files, IsDocsRelative file) {needs : FilePath → Bool}
    (known : ∀ path ∈ files.map docs.child, disk.needsFix path = .ok (needs path))
    (dryRun : Bool) :
    let result := FixSession.fixFiles { disk := disk, dryRun := dryRun } (files.map docs.child)
    result.2 = .ok ((files.map docs.child).filter needs).length ∧
      result.1.fixed = (files.map docs.child).filter needs := by
  have dry := FixSession.fixFiles_dry { disk := disk, dryRun := true } distinct rfl known
  cases dryRun with
  | true => exact dry
  | false =>
    obtain ⟨sameAnswer, last⟩ := (Foretells.start disk).fixFiles distinct
      (pairwise_apart once isRelative disk docs) fun _ fixed => absurd fixed List.not_mem_nil
    exact ⟨sameAnswer ▸ dry.1, last.sameFixed ▸ dry.2⟩

/-! ## The order of paths -/

namespace FilePath

theorem lessOrEqualParts_trans {first second third : List String}
    (firstBelow : lessOrEqualParts first second = true)
    (secondBelow : lessOrEqualParts second third = true) : lessOrEqualParts first third = true := by
  induction first generalizing second third with
  | nil => rfl
  | cons left lefts induction =>
    cases second with
    | nil => cases firstBelow
    | cons middle middles =>
      cases third with
      | nil => cases secondBelow
      | cons right rights =>
        simp only [lessOrEqualParts, Bool.or_eq_true, Bool.and_eq_true, decide_eq_true_eq,
          beq_iff_eq] at firstBelow secondBelow ⊢
        rcases firstBelow with less | ⟨rfl, below⟩
        · rcases secondBelow with further | ⟨rfl, -⟩
          · exact .inl (less.trans further)
          · exact .inl less
        · rcases secondBelow with further | ⟨rfl, further⟩
          · exact .inl further
          · exact .inr ⟨rfl, induction below further⟩

theorem lessOrEqualParts_total (left right : List String) :
    lessOrEqualParts left right = true ∨ lessOrEqualParts right left = true := by
  induction left generalizing right with
  | nil => exact .inl rfl
  | cons first lefts induction =>
    cases right with
    | nil => exact .inr rfl
    | cons second rights =>
      simp only [lessOrEqualParts, Bool.or_eq_true, Bool.and_eq_true, decide_eq_true_eq, beq_iff_eq]
      rcases lt_trichotomy first second with less | rfl | more
      · exact .inl (.inl less)
      · exact (induction rights).imp (fun below => .inr ⟨rfl, below⟩) fun below => .inr ⟨rfl, below⟩
      · exact .inr (.inl more)

end FilePath

theorem FixSession.pairwise_modifiedInOrder (session : FixSession) :
    session.modifiedInOrder.Pairwise fun left right => left.lessOrEqual right = true := by
  apply List.pairwise_mergeSort
  · exact fun _ _ _ => FilePath.lessOrEqualParts_trans
  · intro left right
    rw [Bool.or_eq_true]
    exact FilePath.lessOrEqualParts_total left.parts right.parts

theorem FixSession.mem_modifiedInOrder {session : FixSession} {path : FilePath} :
    path ∈ session.modifiedInOrder ↔ path ∈ session.fixed := by
  rw [FixSession.modifiedInOrder, List.mem_mergeSort, FixSession.modified, List.mem_eraseDups]
  rfl

theorem FixSession.nodup_modifiedInOrder (session : FixSession) : session.modifiedInOrder.Nodup :=
  (List.mergeSort_perm _ _).nodup_iff.mpr (nodup_eraseDups _)

/-! ## What events write -/

namespace CommandLine

/-- The texts of some outcomes behind one another, up to the first fault. -/
def allOf : List (Except Fault String) → Except Fault String
  | [] => .ok ""
  | first :: rest => do return (← first) ++ (← allOf rest)

theorem allOf_append (front rest : List (Except Fault String)) :
    allOf (front ++ rest) = do return (← allOf front) ++ (← allOf rest) := by
  induction front with
  | nil =>
    cases known : allOf rest with
    | error fault => simp [allOf, known]; rfl
    | ok text => simp [allOf, known]; rfl
  | cons first others induction =>
    rw [List.cons_append, allOf, allOf, induction]
    cases first with
    | error fault => rfl
    | ok text =>
      cases allOf others with
      | error fault => rfl
      | ok more =>
        cases allOf rest with
        | error fault => rfl
        | ok last => exact congrArg Except.ok String.append_assoc.symm

/-- What an event puts on the output stream. -/
def Event.toOut (threshold : Level) : Event → Except Fault String
  | .log level markup => if threshold.shows level then recordText level markup else .ok ""
  | .print text => .ok text
  | .display markup => styledText markup
  | .printError _ | .displayError _ | .save _ => .ok ""

/-- Whether an event leaves the error stream alone. -/
def Event.IsQuiet : Event → Prop
  | .printError _ | .displayError _ => False
  | _ => True

/-- What performing some events comes to: the texts, or the first fault. -/
structure Puts (terminal after : Terminal) (ended : Except Fault Unit)
    (written : Except Fault String) : Prop where
  text : ∀ text, written = .ok text →
    ended = .ok () ∧ after.out = terminal.out ++ text ∧ after.err = terminal.err
  fault : ∀ fault, written = .error fault → ended = .error fault

theorem Puts.ok {terminal after : Terminal} {text : String}
    (out : after.out = terminal.out ++ text) (err : after.err = terminal.err) :
    Puts terminal after (.ok ()) (.ok text) := by
  constructor
  · rintro _ ⟨⟩
    exact ⟨rfl, out, err⟩
  · rintro _ ⟨⟩

theorem Puts.error (terminal after : Terminal) (fault : Fault) :
    Puts terminal after (.error fault) (.error fault) := by
  constructor
  · rintro _ ⟨⟩
  · rintro _ ⟨⟩
    rfl

theorem Event.perform_of_isQuiet {event : Event} (quiet : event.IsQuiet) (threshold : Level)
    (terminal : Terminal) :
    (∃ fault, event.toOut threshold = .error fault ∧
      event.perform threshold terminal = .error fault) ∨
    ∃ text next, event.toOut threshold = .ok text ∧ event.perform threshold terminal = .ok next ∧
      next.out = terminal.out ++ text ∧ next.err = terminal.err := by
  cases event with
  | log level markup =>
    rw [Event.perform, Event.toOut]
    split
    · rw [Terminal.log]
      cases recordText level markup with
      | error fault => exact .inl ⟨fault, rfl, rfl⟩
      | ok text => exact .inr ⟨text, _, rfl, rfl, rfl, rfl⟩
    · exact .inr ⟨"", terminal, rfl, rfl, String.append_empty.symm, rfl⟩
  | print text => exact .inr ⟨text, _, rfl, rfl, rfl, rfl⟩
  | display markup =>
    rw [Event.perform, Event.toOut, Terminal.display]
    cases styledText markup with
    | error fault => exact .inl ⟨fault, rfl, rfl⟩
    | ok text => exact .inr ⟨text, _, rfl, rfl, rfl, rfl⟩
  | save disk =>
    exact .inr ⟨"", { terminal with disk := disk }, rfl, rfl, String.append_empty.symm, rfl⟩
  | printError text => exact absurd quiet id
  | displayError markup => exact absurd quiet id

theorem puts_performAll (threshold : Level) {events : List Event}
    (quiet : ∀ event ∈ events, event.IsQuiet) (terminal : Terminal) :
    Puts terminal (performAll threshold terminal events).1 (performAll threshold terminal events).2
      (allOf (events.map (Event.toOut threshold))) := by
  induction events generalizing terminal with
  | nil => exact .ok String.append_empty.symm rfl
  | cons event rest induction =>
    obtain ⟨quietHere, quietThere⟩ := List.forall_mem_cons.mp quiet
    rw [List.map_cons, allOf, performAll]
    rcases event.perform_of_isQuiet quietHere threshold terminal with
      ⟨fault, written, performed⟩ | ⟨text, next, written, performed, out, err⟩
    · rw [written, performed]
      exact .error terminal _ fault
    · rw [written, performed]
      have further := induction quietThere next
      cases others : allOf (rest.map (Event.toOut threshold)) with
      | error fault =>
        rw [others] at further
        change Puts terminal (performAll threshold next rest).1 (performAll threshold next rest).2
          (.error fault)
        rw [further.fault fault rfl]
        exact .error terminal _ fault
      | ok more =>
        rw [others] at further
        obtain ⟨ended, restOut, restErr⟩ := further.text more rfl
        change Puts terminal (performAll threshold next rest).1 (performAll threshold next rest).2
          (.ok (text ++ more))
        rw [ended]
        exact .ok (by rw [restOut, out, String.append_assoc]) (restErr.trans err)

/-! ## The lines of the fix command -/

namespace Fixing

def verb (dryRun : Bool) : String :=
  if dryRun then "Would fix" else "Fixed"

def namingLine (dryRun : Bool) (name : String) : String :=
  s!"  {verb dryRun} {name}"

def countLine (dryRun : Bool) (fixed total : Nat) : String :=
  s!"{verb dryRun} {fixed} of {total} file(s)"

/-- Whether a console takes a character for nothing else, wherever it stands. -/
def isSafe (c : Char) : Bool :=
  c != '[' && c != '\\' && c != '\t' && !Markup.isHidden c

theorem isSafe_iff {c : Char} :
    isSafe c = true ↔ (c ≠ '[' ∧ c ≠ '\\' ∧ Markup.isHidden c = false) ∧ c ≠ '\t' := by
  simp only [isSafe, Bool.and_eq_true, bne_iff_ne, Bool.not_eq_true']
  tauto

def IsSafe (text : List Char) : Prop :=
  text.all isSafe = true

namespace IsSafe

variable {text : List Char}

theorem of_mem (safe : IsSafe text) {c : Char} (member : c ∈ text) :
    (c ≠ '[' ∧ c ≠ '\\' ∧ Markup.isHidden c = false) ∧ c ≠ '\t' :=
  isSafe_iff.mp (List.all_eq_true.mp safe c member)

theorem append {front : List Char} (first : IsSafe front) (second : IsSafe text) :
    IsSafe (front ++ text) := by
  rw [IsSafe, List.all_append, first, second]
  rfl

theorem noTab (safe : IsSafe text) : '\t' ∉ text :=
  fun tab => (safe.of_mem tab).2 rfl

theorem isLiteral (safe : IsSafe text) : Markup.IsLiteral text := by
  have empty : Markup.IsLiteral [] := Markup.render_eq_self_iff.mp rfl
  have whole := (Markup.isLiteral_append_iff fun c member => (safe.of_mem member).1).mpr empty
  rwa [List.append_nil] at whole

end IsSafe

theorem isSafe_toString (number : Nat) : IsSafe (toString number).toList := by
  refine List.all_eq_true.mpr fun c member => isSafe_iff.mpr ?_
  change c ∈ (Nat.repr number).toList at member
  rw [Nat.toList_repr] at member
  have digit := Nat.isDigit_of_mem_toDigits (by decide) (by decide) member
  have large : 48 ≤ c.toNat := by
    rw [Char.isDigit, Bool.and_eq_true, decide_eq_true_eq] at digit
    exact digit.1
  have shown : Markup.isHidden c = false := by
    simp [Markup.isHidden]
    omega
  refine ⟨⟨?_, ?_, shown⟩, ?_⟩ <;> rintro rfl <;> revert digit <;> decide

/-- What is printed of a path: it comes out whole just if it is literal and has no tab in it. -/
theorem styledText_namingLine_iff (dryRun : Bool) (name : String) :
    styledText (namingLine dryRun name) = .ok (namingLine dryRun name ++ "\n") ↔
      Markup.IsLiteral name.toList ∧ '\t' ∉ name.toList := by
  have spelled : (namingLine dryRun name).toList =
      ("  " ++ verb dryRun ++ " ").toList ++ name.toList := by
    rw [← String.toList_append]
    rfl
  have safe : IsSafe ("  " ++ verb dryRun ++ " ").toList := by
    cases dryRun <;> rfl
  rw [styledText_eq_self_iff, spelled, List.mem_append, or_iff_right safe.noTab,
    Markup.isLiteral_append_iff fun c member => (safe.of_mem member).1]

theorem styledText_countLine (dryRun : Bool) (fixed total : Nat) :
    styledText (Notice.success (countLine dryRun fixed total)) =
      .ok ("✓ " ++ countLine dryRun fixed total ++ "\n") := by
  have spelled : (countLine dryRun fixed total).toList =
      (verb dryRun ++ " ").toList ++ ((toString fixed).toList ++ (" of ".toList ++
        ((toString total).toList ++ " file(s)".toList))) := by
    simp only [← String.toList_append, ← String.append_assoc]
    rfl
  have front : IsSafe (verb dryRun ++ " ").toList := by
    cases dryRun <;> rfl
  have middle : IsSafe " of ".toList := rfl
  have last : IsSafe " file(s)".toList := rfl
  have safe : IsSafe (countLine dryRun fixed total).toList := by
    rw [spelled]
    exact front.append ((isSafe_toString fixed).append
      (middle.append ((isSafe_toString total).append last)))
  exact styledText_success safe.isLiteral safe.noTab

/-! ## The fix command -/

/-- The debug messages of a run. -/
def debugMessages (log : List String) (fixed : List FilePath) : List String :=
  log ++ fixed.map fun path => s!"Fixed {path.toString}"

/-- What a run writes in front of its last line. -/
def written (threshold : Level) (dryRun : Bool) (messages names : List String) :
    Except Fault String :=
  allOf (messages.map (fun message => Event.toOut threshold (.log .debug message)) ++
    names.map fun name => styledText (namingLine dryRun name))

theorem allOf_fixEvents (threshold : Level) (fixes : List FixedFile) :
    allOf ((fixes.flatMap fixEvents).map (Event.toOut threshold)) =
      allOf (fixes.map fun fix =>
        Event.toOut threshold (.log .debug s!"Fixed {fix.path.toString}")) := by
  induction fixes with
  | nil => rfl
  | cons fix rest induction =>
    have first : allOf ((fixEvents fix).map (Event.toOut threshold)) =
        Event.toOut threshold (.log .debug s!"Fixed {fix.path.toString}") := by
      change allOf [.ok "", Event.toOut threshold (.log .debug s!"Fixed {fix.path.toString}")] = _
      cases Event.toOut threshold (.log .debug s!"Fixed {fix.path.toString}") with
      | error fault => rfl
      | ok text =>
        refine congrArg Except.ok ?_
        rw [String.empty_append, String.append_empty]
    rw [List.flatMap_cons, List.map_append, allOf_append, induction, first, List.map_cons, allOf]

theorem isQuiet_of_mem_events {log : List String} {docs : FilePath} {dryRun : Bool}
    {session : FixSession} {fixed total : Nat} {event : Event}
    (member : event ∈ Script.debug log ++ (session.fixes.flatMap fixEvents ++
      summary docs dryRun session fixed total)) : event.IsQuiet := by
  rcases List.mem_append.mp member with logged | member
  · obtain ⟨message, -, rfl⟩ := List.mem_map.mp logged
    trivial
  · rcases List.mem_append.mp member with ofFix | ofSummary
    · obtain ⟨fix, -, inFix⟩ := List.mem_flatMap.mp ofFix
      rcases List.mem_cons.mp inFix with rfl | isLog
      · trivial
      · rw [List.mem_singleton.mp isLog]
        trivial
    · rcases List.mem_append.mp ofSummary with names | last
      · obtain ⟨path, -, rfl⟩ := List.mem_map.mp names
        trivial
      · rw [List.mem_singleton.mp last]
        trivial

/-- What the events of a run write: its messages, the lines with the names and the count. -/
theorem allOf_events (threshold : Level) (log : List String) (docs : FilePath) (dryRun : Bool)
    (session : FixSession) (fixed total : Nat) :
    allOf ((Script.debug log ++ (session.fixes.flatMap fixEvents ++
        summary docs dryRun session fixed total)).map (Event.toOut threshold)) =
      (written threshold dryRun (debugMessages log session.fixed)
        (session.modifiedInOrder.map (nameIn docs))).map
          fun text => text ++ ("✓ " ++ countLine dryRun fixed total ++ "\n") := by
  have logged : (Script.debug log).map (Event.toOut threshold) =
      log.map fun message => Event.toOut threshold (.log .debug message) := by
    rw [Script.debug, List.map_map]
    rfl
  have fixes : (session.fixes.map fun fix =>
      Event.toOut threshold (.log .debug s!"Fixed {fix.path.toString}")) =
        (session.fixed.map fun path => s!"Fixed {path.toString}").map fun message =>
          Event.toOut threshold (.log .debug message) := by
    rw [FixSession.fixed, List.map_map, List.map_map]
    rfl
  have named : (summary docs dryRun session fixed total).map (Event.toOut threshold) =
      ((session.modifiedInOrder.map (nameIn docs)).map fun name =>
        styledText (namingLine dryRun name)) ++
          [styledText (Notice.success (countLine dryRun fixed total))] := by
    rw [summary, List.map_append, List.map_map, List.map_map]
    rfl
  rw [written, debugMessages, List.map_append, List.map_append, logged, named, allOf_append,
    allOf_append, allOf_fixEvents, fixes, allOf_append, allOf_append, List.map_append, allOf_append]
  simp only [allOf, styledText_countLine]
  generalize allOf (log.map _) = first
  generalize allOf (List.map _ (session.fixed.map _)) = second
  generalize allOf (List.map _ (session.modifiedInOrder.map _)) = third
  cases first with
  | error fault => rfl
  | ok first =>
    cases second with
    | error fault => rfl
    | ok second =>
      cases third with
      | error fault => rfl
      | ok third =>
        refine congrArg Except.ok ?_
        simp only [String.append_assoc, String.append_empty]

theorem nameIn_child {docs : FilePath} {folders : List String} {name : String}
    (plain : ∀ part ∈ folders ++ [name], IsPlainPart part) :
    nameIn docs (docs.child (FilePath.joinSlashes (folders ++ [name]))) =
      FilePath.joinSlashes (folders ++ [name]) := by
  rw [nameIn, FilePath.child, ofString_joinSlashes plain, docs.join_of_relative _ rfl]
  exact congrArg FilePath.joinSlashes List.drop_left

/-- The names that a session is told by which has fixed what needed changes among some files. -/
structure TellsNames (disk : Disk) (docs : FilePath) (files : List String) (session : FixSession)
    (names : List String) : Prop where
  distinct : names.Nodup
  modified : ∀ name, name ∈ names ↔ name ∈ files ∧ disk.needsFix (docs.child name) = .ok true
  ordered : session.modifiedInOrder = names.map docs.child
  fixed : session.fixed = (files.filter (· ∈ names)).map docs.child
  shown : session.modifiedInOrder.map (nameIn docs) = names

theorem tellsNames {disk : Disk} {docs : FilePath} {files : List String} {session : FixSession}
    (named : ∀ file ∈ files, nameIn docs (docs.child file) = file)
    {needs : FilePath → Bool}
    (known : ∀ path ∈ files.map docs.child, disk.needsFix path = .ok (needs path))
    (fixed : session.fixed = (files.map docs.child).filter needs) :
    TellsNames disk docs files session (session.modifiedInOrder.map (nameIn docs)) := by
  have exists_file (path : FilePath) (member : path ∈ session.modifiedInOrder) :
      ∃ file ∈ files, needs (docs.child file) = true ∧ docs.child file = path := by
    rw [FixSession.mem_modifiedInOrder, fixed, List.mem_filter] at member
    obtain ⟨among, needed⟩ := member
    obtain ⟨file, isFile, rfl⟩ := List.mem_map.mp among
    exact ⟨file, isFile, needed, rfl⟩
  have mem_iff (name : String) : name ∈ session.modifiedInOrder.map (nameIn docs) ↔
      name ∈ files ∧ needs (docs.child name) = true := by
    constructor
    · intro member
      obtain ⟨path, among, rfl⟩ := List.mem_map.mp member
      obtain ⟨file, isFile, needed, rfl⟩ := exists_file path among
      rw [named file isFile]
      exact ⟨isFile, needed⟩
    · rintro ⟨isFile, needed⟩
      refine List.mem_map.mpr ⟨docs.child name, ?_, named name isFile⟩
      rw [FixSession.mem_modifiedInOrder, fixed, List.mem_filter]
      exact ⟨List.mem_map_of_mem isFile, needed⟩
  have back : ∀ path ∈ session.modifiedInOrder, docs.child (nameIn docs path) = path := by
    intro path member
    obtain ⟨file, isFile, -, rfl⟩ := exists_file path member
    rw [named file isFile]
  refine ⟨?_, fun name => ?_, ?_, ?_, rfl⟩
  · refine List.Nodup.map_on (fun left leftMember right rightMember same => ?_)
      session.nodup_modifiedInOrder
    rw [← back left leftMember, same, back right rightMember]
  · rw [mem_iff]
    refine and_congr_right fun isFile => ?_
    rw [known _ (List.mem_map_of_mem isFile), Except.ok.injEq]
  · rw [List.map_map]
    exact ((List.map_congr_left back).trans (List.map_id _)).symm
  · rw [fixed, List.filter_map]
    refine congrArg (List.map docs.child) (List.filter_congr fun file isFile => ?_)
    rw [Function.comp_apply, Bool.eq_iff_iff, decide_eq_true_eq, mem_iff, and_iff_right isFile]

/-- A list of names is as long as that of the fixes. -/
theorem TellsNames.length_eq {disk : Disk} {docs : FilePath} {files : List String}
    {session : FixSession} {names : List String} (tells : TellsNames disk docs files session names)
    (once : files.Nodup) : names.length = session.fixed.length := by
  rw [tells.fixed, List.length_map]
  refine List.Perm.length_eq ((List.perm_ext_iff_of_nodup tells.distinct (once.filter _)).mpr ?_)
  intro name
  rw [List.mem_filter, decide_eq_true_eq]
  exact ⟨fun member => ⟨((tells.modified name).mp member).1, member⟩, fun both => both.2⟩

/-- Just the files that need changes are named, in the order of their paths. -/
structure NamesFixed (disk : Disk) (docs : FilePath) (files names : List String) : Prop where
  distinct : names.Nodup
  modified : ∀ name, name ∈ names ↔ name ∈ files ∧ disk.needsFix (docs.child name) = .ok true
  inOrder : names.Pairwise fun left right =>
    (docs.child left).lessOrEqual (docs.child right) = true

/-- A run writes a text to the output stream and succeeds, or it stops at the first fault. -/
structure Prints (terminal : Terminal) (result : Terminal × Except Fault Nat)
    (written : Except Fault String) : Prop where
  text : ∀ text, written = .ok text →
    result.2 = .ok 0 ∧ result.1.out = terminal.out ++ text ∧ result.1.err = terminal.err
  fault : ∀ fault, written = .error fault → result.2 = .error fault

theorem script_eq {place : Place} {arguments : FixArguments} {config : Config}
    {files : List String} {session : FixSession} {fixed : Nat}
    (loaded : (loadConfig place arguments.config arguments.docsDir).outcome = .ok config)
    (folder : place.disk.isFolder (.ofString config.docsDir) = .ok true)
    (found : Docs.discover ⟨place.disk, .ofString config.docsDir⟩ (.ofTexts config.included)
      (.ofTexts config.excluded) = .ok files)
    (ended : FixSession.fixFiles { disk := place.disk, dryRun := arguments.dryRun }
      (files.map (FilePath.ofString config.docsDir).child) = (session, .ok fixed)) :
    script place arguments =
      ⟨Script.debug (loadConfig place arguments.config arguments.docsDir).log ++
        (session.fixes.flatMap fixEvents ++ summary (.ofString config.docsDir) arguments.dryRun
          session fixed files.length), .ok 0⟩ := by
  have docs : docsScript place.disk config arguments.dryRun =
      .after (session.fixes.flatMap fixEvents) ⟨summary (.ofString config.docsDir) arguments.dryRun
        session fixed files.length, .ok 0⟩ := by
    rw [docsScript]
    simp only [folder, found, fixScript, ended]
  rw [script, Script.ofLogged, loaded]
  simp only [docs]
  rfl

theorem prints_perform (threshold : Level) {events : List Event}
    (quiet : ∀ event ∈ events, event.IsQuiet) (terminal : Terminal) :
    Prints terminal (Script.perform threshold terminal ⟨events, .ok 0⟩)
      (allOf (events.map (Event.toOut threshold))) := by
  have puts := puts_performAll threshold quiet terminal
  rw [Script.perform]
  dsimp only
  cases performed : performAll threshold terminal events with
  | mk after ended =>
    rw [performed] at puts
    refine ⟨fun text isText => ?_, fun fault isFault => ?_⟩
    · obtain ⟨rfl, out, err⟩ := puts.text text isText
      exact ⟨rfl, out, err⟩
    · obtain rfl := puts.fault fault isFault
      rfl

theorem prints_script {place : Place} {arguments : FixArguments} {config : Config}
    {files : List String} {session : FixSession} {fixed : Nat}
    (loaded : (loadConfig place arguments.config arguments.docsDir).outcome = .ok config)
    (folder : place.disk.isFolder (.ofString config.docsDir) = .ok true)
    (found : Docs.discover ⟨place.disk, .ofString config.docsDir⟩ (.ofTexts config.included)
      (.ofTexts config.excluded) = .ok files)
    (ended : FixSession.fixFiles { disk := place.disk, dryRun := arguments.dryRun }
      (files.map (FilePath.ofString config.docsDir).child) = (session, .ok fixed))
    (threshold : Level) (terminal : Terminal) :
    Prints terminal ((script place arguments).perform threshold terminal)
      ((written threshold arguments.dryRun
          (debugMessages (loadConfig place arguments.config arguments.docsDir).log session.fixed)
          (session.modifiedInOrder.map (nameIn (.ofString config.docsDir)))).map
        (· ++ ("✓ " ++ countLine arguments.dryRun fixed files.length ++ "\n"))) := by
  rw [script_eq loaded folder found ended, ← allOf_events]
  exact prints_perform threshold (fun _ => isQuiet_of_mem_events) terminal

/-- Files that can be read are all gone through, and those that need changes can be told. -/
theorem exists_tellsNames {disk : Disk} {docs : FilePath} {included excluded : Value}
    {files : List String} (found : Docs.discover ⟨disk, docs⟩ included excluded = .ok files)
    (distinct : disk.root.HasDistinctNames)
    (plain : ∀ entries, disk.node? docs = .ok (some (.folder entries)) →
      (Node.folder entries).HasPlainNames)
    (readable : ∀ file ∈ files, ∃ text, disk.readText (docs.child file) = .ok text)
    (dryRun : Bool) :
    ∃ session names, TellsNames disk docs files session names ∧
      FixSession.fixFiles { disk := disk, dryRun := dryRun } (files.map docs.child) =
        (session, .ok names.length) := by
  let needs (path : FilePath) : Bool := (disk.needsFix path).toOption.getD false
  let docsThere : Docs := ⟨disk, docs⟩
  have plainThere : ∀ entries, docsThere.disk.node? docsThere.root = .ok (some (.folder entries)) →
      (Node.folder entries).HasPlainNames := plain
  obtain ⟨once, isRelative⟩ := discovered_isDocsRelative plainThere found
  obtain ⟨-, spelled⟩ := discovered_written plainThere found
  have named : ∀ file ∈ files, nameIn docs (docs.child file) = file := by
    intro file member
    obtain ⟨folders, name, parts, rfl⟩ := spelled file member
    exact nameIn_child parts
  have known : ∀ path ∈ files.map docs.child, disk.needsFix path = .ok (needs path) := by
    intro path member
    obtain ⟨file, among, rfl⟩ := List.mem_map.mp member
    obtain ⟨text, read⟩ := readable file among
    have told : disk.needsFix (docs.child file) = .ok (decide (Fix.fixText text ≠ text)) := by
      rw [Disk.needsFix, read]
      rfl
    simp only [needs, told]
    rfl
  obtain ⟨counted, fixed⟩ := fixFiles_told distinct once isRelative known dryRun
  have tells := tellsNames named known fixed
  refine ⟨_, _, tells, Prod.ext rfl ?_⟩
  rw [counted, tells.length_eq once, fixed]

/-- Where debug messages are hidden, only the lines with the names are written. -/
theorem written_of_hidden {threshold : Level} (hidden : threshold.shows .debug = false)
    (dryRun : Bool) (messages names : List String) :
    written threshold dryRun messages names =
      allOf (names.map fun name => styledText (namingLine dryRun name)) := by
  have silent : Event.toOut threshold ∘ Event.log .debug = fun _ => .ok "" := by
    funext message
    rw [Function.comp_apply, Event.toOut, hidden, if_neg Bool.false_ne_true]
  change allOf (messages.map (Event.toOut threshold ∘ Event.log .debug) ++ _) = _
  rw [silent]
  induction messages with
  | nil => rfl
  | cons message rest induction =>
    rw [List.map_cons, List.cons_append, allOf, induction]
    cases allOf (names.map fun name => styledText (namingLine dryRun name)) with
    | error fault => rfl
    | ok text => exact congrArg Except.ok String.empty_append

/-- Where no path looks like markup, each comes out whole in its line. -/
theorem allOf_namingLine (dryRun : Bool) {names : List String}
    (literal : ∀ name ∈ names, Markup.IsLiteral name.toList ∧ '\t' ∉ name.toList) :
    allOf (names.map fun name => styledText (namingLine dryRun name)) =
      .ok (String.join (names.map fun name => namingLine dryRun name ++ "\n")) := by
  induction names with
  | nil => rfl
  | cons name rest induction =>
    obtain ⟨literalHere, literalThere⟩ := List.forall_mem_cons.mp literal
    rw [List.map_cons, List.map_cons, allOf,
      (styledText_namingLine_iff dryRun name).mpr literalHere, induction literalThere, String.join_cons]
    rfl

/-- How a run of the fix command with these names ends. A line is what becomes of a path as markup,
and it gives the path as it is just where nothing in that looks like any. -/
structure NamesFiles (place : Place) (arguments : FixArguments) (docs : FilePath)
    (files : List String) (threshold : Level) (terminal : Terminal) (names : List String) :
    Prop where
  named : NamesFixed place.disk docs files names
  printed :
    let log := (loadConfig place arguments.config arguments.docsDir).log
    let messages := debugMessages log ((files.filter (· ∈ names)).map docs.child)
    let count := "✓ " ++ countLine arguments.dryRun names.length files.length ++ "\n"
    Prints terminal ((script place arguments).perform threshold terminal)
      ((written threshold arguments.dryRun messages names).map (· ++ count))
  whole : ∀ name ∈ names,
    styledText (namingLine arguments.dryRun name) =
        .ok (namingLine arguments.dryRun name ++ "\n") ↔
      Markup.IsLiteral name.toList ∧ '\t' ∉ name.toList
  literal : threshold.shows .debug = false →
    (∀ name ∈ names, Markup.IsLiteral name.toList ∧ '\t' ∉ name.toList) →
    ∀ messages, written threshold arguments.dryRun messages names = .ok (String.join
      (names.map fun name => namingLine arguments.dryRun name ++ "\n"))

/-- The fix command goes through files that can be read to the end, and it names those that it
changes, or would change, each in a line of its own. -/
theorem fix_names_files (place : Place) (arguments : FixArguments) {config : Config}
    {files : List String}
    (loaded : (loadConfig place arguments.config arguments.docsDir).outcome = .ok config)
    (folder : place.disk.isFolder (.ofString config.docsDir) = .ok true)
    (found : Docs.discover ⟨place.disk, .ofString config.docsDir⟩ (.ofTexts config.included)
      (.ofTexts config.excluded) = .ok files)
    (distinct : place.disk.root.HasDistinctNames)
    (plain : ∀ entries, place.disk.node? (.ofString config.docsDir) = .ok (some (.folder entries)) →
      (Node.folder entries).HasPlainNames)
    (readable : ∀ file ∈ files, ∃ text,
      place.disk.readText ((FilePath.ofString config.docsDir).child file) = .ok text)
    (threshold : Level) (terminal : Terminal) :
    ∃ names, NamesFiles place arguments (.ofString config.docsDir) files threshold terminal
      names := by
  obtain ⟨session, names, tells, ended⟩ :=
    exists_tellsNames found distinct plain readable arguments.dryRun
  refine ⟨names, ⟨tells.distinct, tells.modified, ?_⟩, ?_,
    fun name _ => styledText_namingLine_iff arguments.dryRun name,
    fun hidden literal messages =>
      (written_of_hidden hidden arguments.dryRun messages names).trans
        (allOf_namingLine arguments.dryRun literal)⟩
  · have ordered := session.pairwise_modifiedInOrder
    rw [tells.ordered, List.pairwise_map] at ordered
    exact ordered
  · have printed := prints_script loaded folder found ended threshold terminal
    rw [tells.shown, tells.fixed] at printed
    exact printed

theorem fix_names_files_in_order :
    let entries : List (String × Node) :=
      [("b.md", .file (Text.encode ['b', ' '])), ("c.md", .file (Text.encode ['\n'])),
        ("a.md", .file (Text.encode ['a', ' ', '\n']))]
    let place : Place :=
      { environment := []
        disk := { root := .folder [("docs", .folder entries)], workingFolder := [] }
        templates := .fromTop ["templates"] }
    let arguments : FixArguments := { docsDir := none, config := none, dryRun := true }
    let config : Config := .standard place.environment
    let files : List String := ["a.md", "b.md", "c.md"]
    ∃ names, NamesFiles place arguments (.ofString config.docsDir) files .info
      { disk := place.disk } names := by
  intro entries place arguments config files
  have loaded : loadConfig place none none = { outcome := .ok config } := by
    have noFile : Config.find? place.environment place.disk none = .ok none := by cbv
    simp only [loadConfig, Config.load, noFile]
    rfl
  have folder : place.disk.isFolder (.ofString config.docsDir) = .ok true := by cbv
  have found : Docs.discover ⟨place.disk, .ofString config.docsDir⟩ (.ofTexts config.included)
      (.ofTexts config.excluded) = .ok files := by cbv
  have distinct : place.disk.root.HasDistinctNames := by
    simp [Node.HasDistinctNames, Node.EachHasDistinctNames, place, entries]
  have plain : ∀ others, place.disk.node? (.ofString config.docsDir) =
      .ok (some (.folder others)) → (Node.folder others).HasPlainNames := by
    have there : place.disk.node? (.ofString config.docsDir) = .ok (some (.folder entries)) := by
      cbv
    have each : ∀ file ∈ (Node.folder entries).files, ∀ part ∈ file.1,
        '/' ∉ part.toList ∧ part ≠ "" ∧ part ≠ "." ∧ part ≠ ".." := by
      simp [entries, Node.files, Node.filesOf]
    intro others same file member part among
    obtain rfl := Node.folder.inj (Option.some.inj (Except.ok.inj (there.symm.trans same)))
    obtain ⟨slashless, nonempty, notHere, notAbove⟩ := each file member part among
    exact ⟨slashless, nonempty, notHere, notAbove⟩
  have readable : ∀ file ∈ files, ∃ text,
      place.disk.readText ((FilePath.ofString config.docsDir).child file) = .ok text := by
    have first : place.disk.readText ((FilePath.ofString config.docsDir).child "a.md") =
      .ok ['a', ' ', '\n'] := by cbv
    have second : place.disk.readText ((FilePath.ofString config.docsDir).child "b.md") =
      .ok ['b', ' '] := by cbv
    have third : place.disk.readText ((FilePath.ofString config.docsDir).child "c.md") =
      .ok ['\n'] := by cbv
    intro file member
    simp only [files, List.mem_cons, List.not_mem_nil, or_false] at member
    rcases member with rfl | rfl | rfl
    exacts [⟨_, first⟩, ⟨_, second⟩, ⟨_, third⟩]
  exact fix_names_files place arguments (congrArg Logged.outcome loaded) folder found distinct plain
    readable .info { disk := place.disk }

theorem tagged_name_is_lost :
    let place : Place :=
      { environment := []
        disk :=
          { root := .folder
              [("docs", .folder [("[id].md", .file (Text.encode ['a', ' ', '\n']))])]
            workingFolder := [] }
        templates := .fromTop ["templates"] }
    let arguments : FixArguments := { docsDir := none, config := none, dryRun := false }
    let result := (script place arguments).perform .info { disk := place.disk }
    result.2 = .ok 0 ∧ result.1.out = "  Fixed .md\n✓ Fixed 1 of 1 file(s)\n" := by
  intro place arguments result
  let config : Config := .standard place.environment
  have loaded : loadConfig place none none = { outcome := .ok config } := by
    have noFile : Config.find? place.environment place.disk none = .ok none := by cbv
    simp only [loadConfig, Config.load, noFile]
    rfl
  have found : Docs.discover ⟨place.disk, .ofString config.docsDir⟩ (.ofTexts config.included)
      (.ofTexts config.excluded) = .ok ["[id].md"] := by cbv
  have folder : place.disk.isFolder (.ofString config.docsDir) = .ok true := by cbv
  let start : FixSession := { disk := place.disk, dryRun := arguments.dryRun }
  let paths := ["[id].md"].map (FilePath.ofString config.docsDir).child
  obtain ⟨session, ended, named⟩ : ∃ session, start.fixFiles paths = (session, .ok 1) ∧
      session.modifiedInOrder.map (nameIn (.ofString config.docsDir)) = ["[id].md"] := by
    refine ⟨(start.fixFiles paths).1, Prod.ext rfl ?_, ?_⟩
    · cbv
    · cbv
  have shown : styledText (namingLine false "[id].md") = .ok "  Fixed .md\n" := by cbv
  have printed := prints_script (congrArg Logged.outcome loaded) folder found ended .info
    { disk := place.disk }
  rw [named, written_of_hidden rfl, List.map_cons, allOf, shown] at printed
  obtain ⟨exit, out, -⟩ := printed.text _ rfl
  exact ⟨exit, out⟩

end Fixing

end CommandLine

end DocAudit
