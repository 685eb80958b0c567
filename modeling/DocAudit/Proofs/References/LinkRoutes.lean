import DocAudit.Proofs.Tree.ListedNames

/-!
Links from one file to another. What a link means is written in normal form, so two links mean the
same file exactly if they come to the same text: steps that lead nowhere make no difference, and a
target that goes up to a folder which two files share, and down from there, leads from one of them
to the other.
-/

namespace DocAudit

/-- Parts in normal form: those that lead above the top come first, and behind them stand names. -/
def AreNormal (parts : List String) : Prop :=
  ∃ count names, parts = List.replicate count ".." ++ names ∧ ∀ name ∈ names, IsPlainPart name

namespace AreNormal

variable {parts front behind : List String}

theorem isStep (normal : AreNormal parts) : ∀ part ∈ parts, IsStep part := by
  obtain ⟨count, names, rfl, plain⟩ := normal
  rw [List.forall_mem_append]
  constructor
  · intro part member
    rw [List.eq_of_mem_replicate member]
    exact isStep_above
  · exact fun name member => (plain name member).isStep

theorem concat {name : String} (normal : AreNormal parts) (plain : IsPlainPart name) :
    AreNormal (parts ++ [name]) := by
  obtain ⟨count, names, rfl, plainNames⟩ := normal
  refine ⟨count, names ++ [name], List.append_assoc _ _ _, ?_⟩
  rw [List.forall_mem_append, List.forall_mem_singleton]
  exact ⟨plainNames, plain⟩

theorem left (normal : AreNormal (front ++ behind)) : AreNormal front := by
  obtain ⟨count, names, whole, plain⟩ := normal
  have cut : front = (front ++ behind).take front.length := List.take_left.symm
  rw [cut, whole]
  refine ⟨min front.length count, names.take (front.length - count), ?_, ?_⟩
  · rw [List.take_append, List.take_replicate, List.length_replicate]
  · exact fun name member => plain name (List.mem_of_mem_take member)

theorem right (normal : AreNormal (front ++ behind)) : AreNormal behind := by
  obtain ⟨count, names, whole, plain⟩ := normal
  have cut : behind = (front ++ behind).drop front.length := List.drop_left.symm
  rw [cut, whole]
  refine ⟨count - front.length, names.drop (front.length - count), ?_, ?_⟩
  · rw [List.drop_append, List.drop_replicate, List.length_replicate]
  · exact fun name member => plain name (List.mem_of_mem_drop member)

theorem replicate_append (normal : AreNormal parts) (count : Nat) :
    AreNormal (List.replicate count ".." ++ parts) := by
  obtain ⟨above, names, rfl, plain⟩ := normal
  refine ⟨count + above, names, ?_, plain⟩
  rw [← List.append_assoc, List.replicate_append_replicate]

/-- No name stands before what leads above the top. -/
theorem eq_replicate (normal : AreNormal (front ++ ".." :: behind)) :
    front = List.replicate front.length ".." := by
  obtain ⟨count, names, whole, plain⟩ := normal
  rcases List.append_eq_append_iff.mp whole with ⟨rest, aboves, -⟩ | ⟨rest, -, split⟩
  · refine List.eq_replicate_of_mem fun part member => ?_
    exact List.eq_of_mem_replicate (aboves ▸ List.mem_append_left rest member)
  · have among : ".." ∈ names := split ▸ List.mem_append_right rest List.mem_cons_self
    exact absurd rfl (plain ".." among).notAbove

end AreNormal

/-! ## Taking parts back -/

namespace FilePath

theorem pushPart_replicate (count : Nat) :
    pushPart false (List.replicate count "..") ".." = List.replicate (count + 1) ".." := by
  cases count with
  | zero => rfl
  | succ count => rw [List.replicate_succ, pushPart_above, if_pos rfl, ← List.replicate_succ,
      ← List.replicate_succ]

/-- What has been read so far stays in normal form. -/
theorem areNormal_pushPart {done : List String} {part : String}
    (normal : AreNormal done.reverse) (step : IsStep part) :
    AreNormal (pushPart false done part).reverse := by
  by_cases above : part = ".."
  · subst above
    cases done with
    | nil => exact ⟨1, [], rfl, List.forall_mem_nil _⟩
    | cons top rest =>
      rw [List.reverse_cons] at normal
      rw [pushPart_above]
      split
      · next again =>
        subst again
        have aboves := normal.eq_replicate
        rw [List.reverse_cons, List.reverse_cons, aboves]
        refine ⟨rest.reverse.length + 1 + 1, [], ?_, List.forall_mem_nil _⟩
        rw [List.append_nil, List.replicate_succ', List.replicate_succ']
      · exact normal.left
  · rw [pushPart_of_ne above, List.reverse_cons]
    exact normal.concat ⟨step.slashless, step.nonempty, step.notHere, above⟩

theorem areNormal_foldl_pushPart {done parts : List String} (normal : AreNormal done.reverse)
    (steps : ∀ part ∈ parts, IsStep part) :
    AreNormal (parts.foldl (pushPart false) done).reverse := by
  induction parts generalizing done with
  | nil => exact normal
  | cons part rest induction =>
    obtain ⟨step, others⟩ := List.forall_mem_cons.mp steps
    exact induction (areNormal_pushPart normal step) others

/-- Nothing is taken back of what is in normal form. -/
theorem foldl_pushPart_of_normal {done parts : List String}
    (normal : AreNormal (done.reverse ++ parts)) :
    parts.foldl (pushPart false) done = parts.reverse ++ done := by
  induction parts generalizing done with
  | nil => rfl
  | cons part rest induction =>
    have pushed : pushPart false done part = part :: done := by
      by_cases above : part = ".."
      · subst above
        have aboves := normal.eq_replicate
        rw [List.length_reverse, List.reverse_eq_iff, List.reverse_replicate] at aboves
        rw [aboves, pushPart_replicate, ← List.replicate_succ]
      · exact pushPart_of_ne above false done
    have further : AreNormal ((part :: done).reverse ++ rest) := by
      rwa [List.reverse_cons, List.append_assoc, List.singleton_append]
    rw [List.foldl_cons, pushed, induction further, List.reverse_cons, List.append_assoc,
      List.singleton_append]

/-- As many steps up as there were names lead back to where the names began. -/
theorem foldl_pushPart_back {names : List String} (plain : ∀ name ∈ names, IsPlainPart name)
    (done : List String) :
    (List.replicate names.length "..").foldl (pushPart false) (names.reverse ++ done) = done := by
  induction names using List.reverseRecOn with
  | nil => rfl
  | append_singleton front name induction =>
    rw [List.forall_mem_append, List.forall_mem_singleton] at plain
    rw [List.length_append, List.length_singleton, List.replicate_succ, List.foldl_cons,
      List.reverse_append, List.reverse_singleton, List.append_assoc, List.singleton_append,
      pushPart_above, if_neg plain.2.notAbove]
    exact induction plain.1

theorem foldl_pushPart_aboves (count more : Nat) :
    (List.replicate more "..").foldl (pushPart false) (List.replicate count "..") =
      List.replicate (count + more) ".." := by
  induction more generalizing count with
  | zero => rfl
  | succ more induction =>
    rw [List.replicate_succ, List.foldl_cons, pushPart_replicate, induction, Nat.add_right_comm,
      Nat.add_assoc]

end FilePath

/-! ## Texts in normal form -/

theorem joinSlashes_inj {parts parts' : List String} (steps : ∀ part ∈ parts, IsStep part)
    (steps' : ∀ part ∈ parts', IsStep part) :
    FilePath.joinSlashes parts = FilePath.joinSlashes parts' ↔ parts = parts' := by
  refine ⟨fun same => ?_, congrArg FilePath.joinSlashes⟩
  have read := congrArg FilePath.ofString same
  rw [ofString_joinSlashes_of_isStep steps, ofString_joinSlashes_of_isStep steps'] at read
  exact congrArg FilePath.parts read

theorem FilePath.toString_relative {parts : List String} (nonempty : parts ≠ []) :
    FilePath.toString { slashes := 0, parts := parts } = FilePath.joinSlashes parts := by
  rw [FilePath.toString, if_neg fun none => nonempty none.2]
  exact String.empty_append

namespace LinkPath

theorem leadingSlashes_eq_replicate (path : List Char) :
    leadingSlashes path = List.replicate (leadingSlashes path).length '/' := by
  rcases leadingSlashes_cases path with slashes | slashes | slashes <;> rw [slashes] <;> rfl

/-- The normal form of a text is the text of its normal form. -/
theorem ofList_normalize (path : List Char) :
    String.ofList (normalize path) =
      (FilePath.ofString (String.ofList path)).normal.toString := by
  have lead : ∀ part ∈ normalSteps path, '/' ∉ part ∧ part ≠ [] ∧ part ≠ ['.'] :=
    fun part step => mem_normalSteps step
  have slashes : (FilePath.ofString (String.ofList path)).normal.slashes =
      (leadingSlashes path).length := by
    rw [ofString_ofList]
    rfl
  have empty : ['/'].intercalate (normalSteps path) = [] ↔ normalSteps path = [] := by
    refine ⟨fun blank => ?_, fun none => by rw [none]; rfl⟩
    by_contra some
    obtain ⟨first, rest, steps⟩ := List.exists_cons_of_ne_nil some
    have nonempty := (lead first (steps ▸ List.mem_cons_self)).2.1
    rw [steps] at blank
    cases rest with
    | nil => exact nonempty (List.intercalate_singleton.symm.trans blank)
    | cons second rest =>
      rw [List.intercalate_cons_cons, List.append_assoc] at blank
      exact nonempty (List.append_eq_nil_iff.mp blank).1
  have written : FilePath.joinSlashes ((normalSteps path).map String.ofList) =
      String.ofList (['/'].intercalate (normalSteps path)) := by
    rw [FilePath.joinSlashes, ← String.toList_inj, String.toList_intercalate, List.map_map]
    simp [Function.comp_def]
  rw [FilePath.toString, ← map_normalSteps, slashes, ← leadingSlashes_eq_replicate, written,
    ← String.ofList_append]
  change String.ofList
    (if (leadingSlashes path ++ ['/'].intercalate (normalSteps path)).isEmpty then ['.']
      else leadingSlashes path ++ ['/'].intercalate (normalSteps path)) = _
  simp only [List.isEmpty_iff, List.append_eq_nil_iff, empty, List.length_eq_zero_iff,
    List.map_eq_nil_iff]
  split <;> rfl

end LinkPath

namespace Link

/-- Where a relative target leads is told by the steps of the folder and those of the target. -/
theorem resolve_of_relative (source : String) {link : Link}
    (relative : link.target.head? ≠ some '/') :
    link.resolve source =
      { slashes := (leadingSlashes source.toList).length
        parts := (LinkPath.steps (LinkPath.folder source.toList)).map String.ofList ++
          (LinkPath.steps link.target).map String.ofList : FilePath }.normal.toString := by
  rw [resolve, LinkPath.resolve, LinkPath.ofList_normalize, LinkPath.ofString_ofList,
    LinkPath.leadingSlashes_join relative, LinkPath.steps_join relative, List.map_append]

theorem resolve_in_docs {source : String} {link : Link}
    (within : source.toList.head? ≠ some '/') (relative : link.target.head? ≠ some '/') :
    link.resolve source =
      { slashes := 0
        parts := (((LinkPath.steps (LinkPath.folder source.toList)).map String.ofList ++
          (LinkPath.steps link.target).map String.ofList).foldl
            (FilePath.pushPart false) []).reverse : FilePath }.toString := by
  have slashes : (leadingSlashes source.toList).length = 0 := by
    rw [← List.nil_append source.toList, leadingSlashes_append [] within]
    rfl
  rw [resolve_of_relative source relative, slashes]
  rfl

end Link

/-! ## Detours -/

/-- What can be written between the parts of a target without leading anywhere. -/
inductive Detour where
  | here
  | slash
  | through (name : String) (plain : IsPlainPart name)

namespace Detour

def text : Detour → List Char
  | here => ['.', '/']
  | slash => ['/']
  | through name _ => name.toList ++ ['/', '.', '.', '/']

def steps : Detour → List String
  | here => []
  | slash => []
  | through name _ => [name, ".."]

theorem steps_text_append (detour : Detour) (behind : List Char) :
    (LinkPath.steps (detour.text ++ behind)).map String.ofList =
      detour.steps ++ (LinkPath.steps behind).map String.ofList := by
  cases detour with
  | here => exact congrArg (List.map String.ofList) (LinkPath.steps_append_slash ['.'] behind)
  | slash => exact congrArg (List.map String.ofList) (LinkPath.steps_slash_cons behind)
  | through name plain =>
    have named : LinkPath.steps name.toList = [name.toList] :=
      LinkPath.steps_of_lead plain.slashless (fun empty => plain.nonempty (String.toList_inj.mp empty))
        fun here => plain.notHere (String.toList_inj.mp here)
    have cut : (through name plain).text ++ behind =
        name.toList ++ '/' :: (['.', '.'] ++ '/' :: behind) :=
      List.append_assoc _ _ _
    rw [cut, LinkPath.steps_append_slash, LinkPath.steps_append_slash, named, List.map_append,
      List.map_append, List.map_singleton, String.ofList_toList]
    rfl

theorem foldl_pushPart_steps (detour : Detour) (absolute : Bool) (done : List String) :
    detour.steps.foldl (FilePath.pushPart absolute) done = done := by
  cases detour with
  | here => rfl
  | slash => rfl
  | through name plain =>
    rw [steps, List.foldl_cons, List.foldl_cons, List.foldl_nil,
      FilePath.pushPart_of_ne plain.notAbove, FilePath.pushPart_above, if_neg plain.notAbove]

end Detour

/-- A target and the same target with detours in it. -/
inductive WithDetours (target : List Char) : List Char → Prop where
  | none : WithDetours target target
  | ahead {longer : List Char} (detour : Detour) (relative : detour.text.head? ≠ some '/')
      (before : WithDetours target longer) : WithDetours target (detour.text ++ longer)
  | between {front behind : List Char} (detour : Detour)
      (before : WithDetours target (front ++ '/' :: behind)) :
      WithDetours target (front ++ '/' :: (detour.text ++ behind))

namespace WithDetours

variable {target longer : List Char}

theorem head?_ne (detours : WithDetours target longer) (relative : target.head? ≠ some '/') :
    longer.head? ≠ some '/' := by
  induction detours with
  | none => exact relative
  | @ahead longer detour begins before induction =>
    cases text : detour.text with
    | nil => exact induction
    | cons c rest =>
      rw [text] at begins
      exact begins
  | @between front behind detour before induction =>
    cases front with
    | nil => exact absurd rfl induction
    | cons c front => exact induction

theorem foldl_pushPart (detours : WithDetours target longer) (absolute : Bool)
    (done : List String) :
    ((LinkPath.steps longer).map String.ofList).foldl (FilePath.pushPart absolute) done =
      ((LinkPath.steps target).map String.ofList).foldl (FilePath.pushPart absolute) done := by
  induction detours with
  | none => rfl
  | ahead detour begins before induction =>
    rw [detour.steps_text_append, List.foldl_append, detour.foldl_pushPart_steps, induction]
  | between detour before induction =>
    rw [← induction, LinkPath.steps_append_slash, LinkPath.steps_append_slash, List.map_append,
      List.map_append, detour.steps_text_append, List.foldl_append, List.foldl_append,
      List.foldl_append, detour.foldl_pushPart_steps]

end WithDetours

/-! ## Routes -/

theorem head?_ne_of_isStep {parts : List String} (steps : ∀ part ∈ parts, IsStep part) :
    (FilePath.joinSlashes parts).toList.head? ≠ some '/' := by
  intro begins
  have absolute := (LinkPath.isAbsolute_ofString_iff _).mpr begins
  rw [String.ofList_toList, ofString_joinSlashes_of_isStep steps] at absolute
  exact Bool.false_ne_true absolute

/-- Two files in the folders that they share, from the top on, and the folders below those. -/
structure Route where
  shared : List String
  left : List String
  entered : List String
  source : String
  goal : String
  normalLeft : AreNormal (shared ++ left)
  normalEntered : AreNormal (shared ++ entered)
  plainSource : IsPlainPart source
  plainGoal : IsPlainPart goal

namespace Route

variable (route : Route)

def start : String :=
  FilePath.joinSlashes (route.shared ++ route.left ++ [route.source])

/-- Down from the folders that are shared. -/
def descent : List String :=
  route.entered ++ [route.goal]

def finish : String :=
  FilePath.joinSlashes (route.shared ++ route.descent)

/-- Up from each folder that is left, and down into those that are entered. -/
def parts : List String :=
  List.replicate route.left.length ".." ++ route.descent

def target : List Char :=
  (FilePath.joinSlashes route.parts).toList

theorem normal_descent : AreNormal route.descent :=
  route.normalEntered.right.concat route.plainGoal

theorem normal_finish : AreNormal (route.shared ++ route.descent) := by
  have whole := route.normalEntered.concat route.plainGoal
  rwa [List.append_assoc] at whole

theorem isStep_parts : ∀ part ∈ route.parts, IsStep part :=
  (route.normal_descent.replicate_append _).isStep

theorem steps_target : (LinkPath.steps route.target).map String.ofList = route.parts := by
  have read := ofString_joinSlashes_of_isStep route.isStep_parts
  have written := LinkPath.ofString_ofList route.target
  rw [target, String.ofList_toList, read] at written
  exact (congrArg FilePath.parts written).symm

theorem isStep_start : ∀ part ∈ route.shared ++ route.left ++ [route.source], IsStep part :=
  (route.normalLeft.concat route.plainSource).isStep

theorem steps_folder :
    (LinkPath.steps (LinkPath.folder route.start.toList)).map String.ofList =
      route.shared ++ route.left := by
  have above := ofString_parent (endsInName_of_isStep route.isStep_start)
  rw [ofString_joinSlashes_of_isStep route.isStep_start] at above
  exact (congrArg FilePath.parts above).symm.trans List.dropLast_concat

theorem foldl_down : (route.shared ++ route.left).foldl (FilePath.pushPart false) [] =
    (route.shared ++ route.left).reverse := by
  have down := @FilePath.foldl_pushPart_of_normal [] _ route.normalLeft
  rwa [List.append_nil] at down

/-- Where each folder that is left has a name, the way up leads to the folders that are shared. -/
theorem foldl_of_named (named : ".." ∉ route.left) :
    (route.shared ++ route.left ++ route.parts).foldl (FilePath.pushPart false) [] =
      (route.shared ++ route.descent).reverse := by
  have plain : ∀ name ∈ route.left, IsPlainPart name := by
    intro name member
    have step := route.normalLeft.right.isStep name member
    refine ⟨step.slashless, step.nonempty, step.notHere, ?_⟩
    rintro rfl
    exact named member
  have down : (route.shared ++ route.left).foldl (FilePath.pushPart false) [] =
      route.left.reverse ++ route.shared.reverse := by
    rw [route.foldl_down, List.reverse_append]
  have further : AreNormal (route.shared.reverse.reverse ++ route.descent) := by
    rw [List.reverse_reverse]
    exact route.normal_finish
  rw [parts, List.foldl_append, List.foldl_append, down, FilePath.foldl_pushPart_back plain,
    FilePath.foldl_pushPart_of_normal further, List.reverse_append]

/-- There is no way back from above the top: each step up leads further above it. -/
theorem exists_foldl_of_above (above : ".." ∈ route.left) :
    ∃ count, route.shared.length < count ∧
      (route.shared ++ route.left ++ route.parts).foldl (FilePath.pushPart false) [] =
        (List.replicate count ".." ++ route.descent).reverse := by
  obtain ⟨count, names, left, plain⟩ := route.normalLeft.right
  have positive : 0 < count := by
    rw [Nat.pos_iff_ne_zero]
    rintro rfl
    rw [left] at above
    exact (plain ".." above).notAbove rfl
  have shared : route.shared = List.replicate route.shared.length ".." := by
    obtain ⟨before, behind, split⟩ := List.append_of_mem above
    have normal := route.normalLeft
    rw [split, ← List.append_assoc] at normal
    have aboves := normal.eq_replicate
    refine List.eq_replicate_of_mem fun part member => ?_
    exact List.eq_of_mem_replicate (aboves ▸ List.mem_append_left before member)
  have down : (route.shared ++ route.left).foldl (FilePath.pushPart false) [] =
      names.reverse ++ List.replicate (count + route.shared.length) ".." := by
    rw [route.foldl_down, List.reverse_append, left, List.reverse_append, List.reverse_replicate,
      List.append_assoc, ← List.replicate_append_replicate]
    conv_lhs => rw [shared, List.reverse_replicate]
  have ups : List.replicate route.left.length ".." =
      List.replicate names.length ".." ++ List.replicate count ".." := by
    rw [left, List.length_append, List.length_replicate, Nat.add_comm,
      List.replicate_append_replicate]
  have further : AreNormal
      ((List.replicate (count + route.shared.length + count) "..").reverse ++ route.descent) := by
    rw [List.reverse_replicate]
    exact route.normal_descent.replicate_append _
  refine ⟨count + route.shared.length + count, by omega, ?_⟩
  rw [parts, List.foldl_append, List.foldl_append, down, ups, List.foldl_append,
    FilePath.foldl_pushPart_back plain, FilePath.foldl_pushPart_aboves,
    FilePath.foldl_pushPart_of_normal further, List.reverse_append, List.reverse_replicate]

theorem resolve_eq {link : Link} (written : link.target = route.target) :
    link.resolve route.start =
      { slashes := 0
        parts := ((route.shared ++ route.left ++ route.parts).foldl
          (FilePath.pushPart false) []).reverse : FilePath }.toString := by
  have within : route.start.toList.head? ≠ some '/' := head?_ne_of_isStep route.isStep_start
  have relative : link.target.head? ≠ some '/' := written ▸ head?_ne_of_isStep route.isStep_parts
  rw [link.resolve_in_docs within relative, written, route.steps_target, route.steps_folder]

/-- The target leads to the end of the route exactly if each folder that is left has a name. -/
theorem resolve_eq_finish_iff {link : Link} (written : link.target = route.target) :
    link.resolve route.start = route.finish ↔ ".." ∉ route.left := by
  have leads : route.descent ≠ [] := List.concat_ne_nil _ _
  rw [route.resolve_eq written, finish]
  by_cases above : ".." ∈ route.left
  · obtain ⟨count, further, reached⟩ := route.exists_foldl_of_above above
    rw [reached, List.reverse_reverse, FilePath.toString_relative (by simp [leads]),
      joinSlashes_inj (route.normal_descent.replicate_append count).isStep
        route.normal_finish.isStep]
    refine iff_of_false (fun same => ?_) (not_not.mpr above)
    have lengths := congrArg List.length same
    rw [List.length_append, List.length_append, List.length_replicate] at lengths
    omega
  · rw [route.foldl_of_named above, List.reverse_reverse,
      FilePath.toString_relative (by simp [leads])]
    exact iff_of_true rfl above

end Route

/-! ## What links are resolved to -/

theorem LinkPath.isStep_steps (path : List Char) :
    ∀ part ∈ (steps path).map String.ofList, IsStep part := by
  rw [List.forall_mem_map]
  intro part member
  obtain ⟨slashless, nonempty, notHere⟩ := mem_steps member
  refine ⟨?_, fun empty => nonempty (String.ofList_inj.mp empty),
    fun here => notHere (String.ofList_inj.mp here)⟩
  rwa [String.toList_ofList]

namespace Link

/-- What a link means within the docs is written in normal form. -/
theorem areNormal_resolve {source : String} {link : Link} (within : source.toList.head? ≠ some '/')
    (relative : link.target.head? ≠ some '/') :
    link.resolve source = "." ∨ AreNormal (splitSlashes (link.resolve source)) := by
  rw [link.resolve_in_docs within relative]
  generalize read : ((LinkPath.steps (LinkPath.folder source.toList)).map String.ofList ++
    (LinkPath.steps link.target).map String.ofList).foldl (FilePath.pushPart false) [] = done
  have normal : AreNormal done.reverse := by
    rw [← read]
    refine FilePath.areNormal_foldl_pushPart ⟨0, [], rfl, List.forall_mem_nil _⟩ ?_
    rw [List.forall_mem_append]
    exact ⟨LinkPath.isStep_steps _, LinkPath.isStep_steps _⟩
  by_cases none : done.reverse = []
  · left
    rw [none]
    rfl
  · right
    rw [FilePath.toString_relative none, splitSlashes_joinSlashes_of_isStep none normal.isStep]
    exact normal

theorem resolve_of_withDetours (source : String) {link longer : Link}
    (relative : link.target.head? ≠ some '/')
    (detours : WithDetours link.target longer.target) :
    longer.resolve source = link.resolve source := by
  rw [resolve_of_relative source relative, resolve_of_relative source (detours.head?_ne relative),
    FilePath.normal, FilePath.normal, List.foldl_append, List.foldl_append,
    detours.foldl_pushPart]
  rfl

/-- A target that goes up to a folder which two normal paths share and down from there leads from
one to the other exactly if each folder that it leaves has a name; detours in a relative target make
no difference; and within the docs every link is resolved to a normal path, or to the top. -/
theorem resolve_follows_routes :
    (∀ (route : Route) (link : Link), link.target = route.target →
      (link.resolve route.start = route.finish ↔ ".." ∉ route.left)) ∧
      (∀ (source : String) (link longer : Link), link.target.head? ≠ some '/' →
        WithDetours link.target longer.target → longer.resolve source = link.resolve source) ∧
      ∀ (source : String) (link : Link), source.toList.head? ≠ some '/' →
        link.target.head? ≠ some '/' →
        link.resolve source = "." ∨ AreNormal (splitSlashes (link.resolve source)) := by
  refine ⟨fun route link written => ?_, fun source link longer relative detours => ?_,
    fun source link within relative => ?_⟩
  · exact route.resolve_eq_finish_iff written
  · exact resolve_of_withDetours source relative detours
  · exact areNormal_resolve within relative

theorem resolve_follows_routes_to_sibling :
    let link : Link := ⟨['b'], "../api/b.md".toList, 1⟩
    let longer : Link := ⟨['b'], "../x/../api/b.md".toList, 1⟩
    link.resolve "guide/setup/a.md" = "guide/api/b.md" ∧
      longer.resolve "guide/setup/a.md" = link.resolve "guide/setup/a.md" ∧
      (link.resolve "guide/setup/a.md" = "." ∨
        AreNormal (splitSlashes (link.resolve "guide/setup/a.md"))) := by
  intro link longer
  let names := ["guide", "setup", "api", "a.md", "b.md", "x"]
  have checked : ∀ name ∈ names,
      '/' ∉ name.toList ∧ name ≠ "" ∧ name ≠ "." ∧ name ≠ ".." := by
    decide
  have plain (name : String) (member : name ∈ names) : IsPlainPart name :=
    let ⟨slashless, nonempty, notHere, notAbove⟩ := checked name member
    ⟨slashless, nonempty, notHere, notAbove⟩
  have left : ["guide", "setup"] ⊆ names := by decide
  have entered : ["guide", "api"] ⊆ names := by decide
  let route : Route :=
    { shared := ["guide"]
      left := ["setup"]
      entered := ["api"]
      source := "a.md"
      goal := "b.md"
      normalLeft := ⟨0, ["guide", "setup"], rfl, fun name member => plain name (left member)⟩
      normalEntered := ⟨0, ["guide", "api"], rfl, fun name member => plain name (entered member)⟩
      plainSource := plain "a.md" (by decide)
      plainGoal := plain "b.md" (by decide) }
  have detours : WithDetours link.target longer.target :=
    @WithDetours.between _ "..".toList "api/b.md".toList
      (.through "x" (plain "x" (by decide))) .none
  have written : "../api/b.md".toList = (FilePath.joinSlashes ["..", "api", "b.md"]).toList := by
    decide +kernel
  have named : ".." ∉ ["setup"] := by decide
  obtain ⟨routes, same, normal⟩ := resolve_follows_routes
  exact ⟨(routes route link written).mpr named, same _ link longer (by decide) detours,
    normal _ link (by decide) (by decide)⟩

/-- From above the top one step up leads further above it, and not to the top. -/
theorem resolve_from_above_top :
    AreNormal (splitSlashes "../a.md") ∧ AreNormal (splitSlashes "b.md") ∧
      resolve ⟨['b'], "../b.md".toList, 1⟩ "../a.md" ≠ "b.md" ∧
      resolve ⟨['b'], "../b.md".toList, 1⟩ "../a.md" = "../../b.md" := by
  have plain : ∀ name ∈ ["a.md", "b.md"], IsPlainPart name := by
    intro name member
    rcases List.mem_pair.mp member with rfl | rfl <;> constructor <;> decide
  refine ⟨⟨1, ["a.md"], by decide +kernel, ?_⟩, ⟨0, ["b.md"], by decide +kernel, ?_⟩,
    by decide +kernel, by decide +kernel⟩
  · exact List.forall_mem_singleton.mpr (plain "a.md" (by decide))
  · exact List.forall_mem_singleton.mpr (plain "b.md" (by decide))

end Link

end DocAudit
