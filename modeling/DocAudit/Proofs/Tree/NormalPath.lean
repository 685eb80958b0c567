import DocAudit.Proofs.Text.Lines
import DocAudit.Document.Link
import Mathlib.Data.List.DropRight

/-!
The normal form of a path, in which two dots take back the part before them without a look at the
files. What a link is resolved to is the normal form of the path from the folder of its source.
-/

namespace DocAudit

namespace FilePath

/-- One part after those before it, nearest first. -/
def pushPart (absolute : Bool) (done : List String) (part : String) : List String :=
  if part ≠ ".." then part :: done
  else match done with
    | [] => if absolute then [] else [part]
    | top :: rest => if top = ".." then part :: done else rest

def normal (path : FilePath) : FilePath :=
  { path with parts := (path.parts.foldl (pushPart path.isAbsolute) []).reverse }

theorem pushPart_of_ne {part : String} (down : part ≠ "..") (absolute : Bool)
    (done : List String) : pushPart absolute done part = part :: done :=
  if_pos down

theorem pushPart_above (absolute : Bool) (top : String) (rest : List String) :
    pushPart absolute (top :: rest) ".." = if top = ".." then ".." :: top :: rest else rest :=
  if_neg (not_not.mpr rfl)

theorem pushPart_sublist (absolute : Bool) (done : List String) (part : String) :
    (pushPart absolute done part).Sublist (part :: done) := by
  rw [pushPart.eq_def]
  split
  · exact List.Sublist.refl _
  · split
    · split
      · exact List.nil_sublist _
      · exact List.Sublist.refl _
    · split
      · exact List.Sublist.refl _
      · exact (List.sublist_cons_self _ _).trans (List.sublist_cons_self _ _)

theorem foldl_pushPart_sublist (absolute : Bool) (done parts : List String) :
    (parts.foldl (pushPart absolute) done).Sublist (parts.reverse ++ done) := by
  induction parts generalizing done with
  | nil => exact List.Sublist.refl _
  | cons part rest induction =>
    rw [List.foldl_cons, List.reverse_cons, List.append_assoc, List.singleton_append]
    exact (induction _).trans ((pushPart_sublist absolute done part).append_left _)

/-- Parts are only taken away. -/
theorem normal_parts_sublist (path : FilePath) : path.normal.parts.Sublist path.parts := by
  have fewer := (foldl_pushPart_sublist path.isAbsolute [] path.parts).reverse
  rwa [List.append_nil, List.reverse_reverse] at fewer

theorem foldl_pushPart_undotted {parts : List String} (undotted : ".." ∉ parts) (absolute : Bool)
    (done : List String) : parts.foldl (pushPart absolute) done = parts.reverse ++ done := by
  induction parts generalizing done with
  | nil => rfl
  | cons part rest induction =>
    rw [List.mem_cons, not_or] at undotted
    rw [List.foldl_cons, pushPart_of_ne (Ne.symm undotted.1), induction undotted.2,
      List.reverse_cons, List.append_assoc, List.singleton_append]

theorem join_assoc (first second third : FilePath) :
    (first.join second).join third = first.join (second.join third) := by
  cases second with
  | mk slashes parts =>
    cases third with
    | mk slashes' parts' =>
      rcases Nat.eq_zero_or_pos slashes' with rfl | below
      · rcases Nat.eq_zero_or_pos slashes with rfl | above
        · simp [join, isAbsolute]
        · simp [join, isAbsolute, above]
      · simp [join, isAbsolute, below]

theorem parent_join (folder : FilePath) {path : FilePath} (nonempty : path.parts ≠ []) :
    (folder.join path).parent = folder.join path.parent := by
  rw [join, join, parent, parent, isAbsolute, isAbsolute]
  split
  · rfl
  · rw [List.dropLast_append_of_ne_nil nonempty]

end FilePath

/-! ## Texts -/

/-- Only the slashes that lead a path count. -/
theorem leadingSlashes_takeWhile (path : List Char) :
    leadingSlashes (path.takeWhile (· == '/')) = leadingSlashes path := by
  rcases path with _ | ⟨first, _ | ⟨second, _ | ⟨third, rest⟩⟩⟩
  · rfl
  · by_cases one : first = '/' <;> simp [leadingSlashes, one]
  · by_cases one : first = '/' <;> by_cases two : second = '/' <;>
      simp [leadingSlashes, one, two]
  · by_cases one : first = '/' <;> by_cases two : second = '/' <;> by_cases three : third = '/' <;>
      simp [leadingSlashes, one, two, three]

theorem leadingSlashes_append (front : List Char) {behind : List Char}
    (other : behind.head? ≠ some '/') :
    leadingSlashes (front ++ behind) = leadingSlashes front := by
  have ends : behind.takeWhile (· == '/') = [] := by
    cases behind with
    | nil => rfl
    | cons c rest => exact List.takeWhile_cons_of_neg (by simpa using other)
  rw [← leadingSlashes_takeWhile, List.takeWhile_append, ends, List.append_nil]
  split
  · rfl
  · exact leadingSlashes_takeWhile front

theorem leadingSlashes_append_of_mem {front : List Char} {c : Char} (member : c ∈ front)
    (other : c ≠ '/') (behind : List Char) :
    leadingSlashes (front ++ behind) = leadingSlashes front := by
  rw [← leadingSlashes_takeWhile, List.takeWhile_append, if_neg, leadingSlashes_takeWhile]
  intro whole
  have slashes := List.takeWhile_eq_self_iff.mp
    ((List.takeWhile_prefix (· == '/')).eq_of_length whole)
  exact other (beq_iff_eq.mp (slashes c member))

theorem leadingSlashes_cases (path : List Char) :
    leadingSlashes path = [] ∨ leadingSlashes path = ['/'] ∨ leadingSlashes path = ['/', '/'] := by
  rw [leadingSlashes.eq_def]
  split <;> simp

theorem leadingSlashes_leadingSlashes (path : List Char) :
    leadingSlashes (leadingSlashes path) = leadingSlashes path := by
  rcases leadingSlashes_cases path with slashes | slashes | slashes <;> rw [slashes] <;> rfl

/-- The text of a path ends in the name of the file. -/
structure EndsInName (file : String) : Prop where
  named : fileName file ≠ ""
  last : (splitSlashes file).getLast? = some (fileName file)

namespace LinkPath

/-- The parts of a text that lead somewhere. -/
def steps (path : List Char) : List (List Char) :=
  (path.splitOn '/').filter fun part => part ≠ [] ∧ part ≠ ['.']

theorem ofString_ofList (path : List Char) :
    FilePath.ofString (String.ofList path) =
      { slashes := (leadingSlashes path).length, parts := (steps path).map String.ofList } := by
  have blank (part : List Char) : String.ofList part = "" ↔ part = [] := String.ofList_inj
  have here (part : List Char) : String.ofList part = "." ↔ part = ['.'] := String.ofList_inj
  rw [FilePath.ofString, splitSlashes, String.toList_ofList, List.filter_map, steps]
  simp only [Function.comp_def, Ne, blank, here]

theorem mem_steps {path part : List Char} (step : part ∈ steps path) :
    '/' ∉ part ∧ part ≠ [] ∧ part ≠ ['.'] := by
  obtain ⟨among, meant⟩ := List.mem_filter.mp step
  exact ⟨Text.not_mem_of_mem_splitOn among, of_decide_eq_true meant⟩

theorem steps_append_slash (front behind : List Char) :
    steps (front ++ '/' :: behind) = steps front ++ steps behind := by
  rw [steps, List.splitOn_append_cons_self, List.filter_append]
  rfl

theorem steps_concat_slash (path : List Char) : steps (path ++ ['/']) = steps path := by
  rw [steps_append_slash]
  exact List.append_nil _

theorem steps_slash_cons (path : List Char) : steps ('/' :: path) = steps path :=
  steps_append_slash [] path

theorem steps_leadingSlashes_append (path rest : List Char) :
    steps (leadingSlashes path ++ rest) = steps rest := by
  rcases leadingSlashes_cases path with slashes | slashes | slashes <;> rw [slashes]
  · rfl
  · exact steps_slash_cons rest
  · exact (steps_slash_cons _).trans (steps_slash_cons rest)

theorem steps_intercalate {parts : List (List Char)}
    (lead : ∀ part ∈ parts, '/' ∉ part ∧ part ≠ [] ∧ part ≠ ['.']) :
    steps (['/'].intercalate parts) = parts := by
  cases parts with
  | nil => rfl
  | cons first rest =>
    rw [steps, List.splitOn_intercalate '/' (fun part member => (lead part member).1)
      (List.cons_ne_nil first rest), List.filter_eq_self]
    exact fun part member => decide_eq_true (lead part member).2

theorem steps_of_lead {part : List Char} (slashless : '/' ∉ part) (nonempty : part ≠ [])
    (notHere : part ≠ ['.']) : steps part = [part] := by
  rw [steps, List.splitOn_eq_singleton slashless, List.filter_eq_self, List.forall_mem_singleton]
  exact decide_eq_true ⟨nonempty, notHere⟩

theorem head?_intercalate {parts : List (List Char)}
    (lead : ∀ part ∈ parts, '/' ∉ part ∧ part ≠ [] ∧ part ≠ ['.']) :
    (['/'].intercalate parts).head? ≠ some '/' := by
  cases parts with
  | nil => exact Option.some_ne_none '/' |>.symm
  | cons first rest =>
    obtain ⟨slashless, nonempty, -⟩ := lead first List.mem_cons_self
    obtain ⟨c, letters, rfl⟩ := List.exists_cons_of_ne_nil nonempty
    have begins : (['/'].intercalate ((c :: letters) :: rest)).head? = some c := by
      cases rest <;> simp [List.intercalate_cons_cons]
    rw [begins]
    rintro ⟨⟩
    exact slashless List.mem_cons_self

/-! ## Normal texts -/

theorem map_push (absolute : Bool) (done : List (List Char)) {part : List Char}
    (nonempty : part ≠ []) (notHere : part ≠ ['.']) :
    (push absolute done part).map String.ofList =
      FilePath.pushPart absolute (done.map String.ofList) (String.ofList part) := by
  have above (part : List Char) : String.ofList part = ".." ↔ part = ['.', '.'] :=
    String.ofList_inj
  rw [push.eq_def, if_neg (not_or.mpr ⟨nonempty, notHere⟩), FilePath.pushPart.eq_def]
  simp only [ne_eq, above]
  split
  · rfl
  · cases done with
    | nil => cases absolute <;> rfl
    | cons top rest =>
      simp only [List.map_cons, above]
      split <;> rfl

theorem map_foldl_push (absolute : Bool) (done parts : List (List Char)) :
    (parts.foldl (push absolute) done).map String.ofList =
      ((parts.filter fun part => part ≠ [] ∧ part ≠ ['.']).map String.ofList).foldl
        (FilePath.pushPart absolute) (done.map String.ofList) := by
  induction parts generalizing done with
  | nil => rfl
  | cons part rest induction =>
    rw [List.foldl_cons, induction, List.filter_cons]
    by_cases blank : part = [] ∨ part = ['.']
    · have dropped : ¬ (part ≠ [] ∧ part ≠ ['.']) := fun meant => blank.elim meant.1 meant.2
      rw [if_neg (by simpa using dropped), push.eq_def, if_pos blank]
    · obtain ⟨nonempty, notHere⟩ := not_or.mp blank
      rw [if_pos (decide_eq_true ⟨nonempty, notHere⟩), List.map_cons, List.foldl_cons,
        map_push absolute done nonempty notHere]

/-- The parts of a text in normal form. -/
def normalSteps (path : List Char) : List (List Char) :=
  ((path.splitOn '/').foldl (push (!(leadingSlashes path).isEmpty)) []).reverse

theorem map_normalSteps (path : List Char) :
    (normalSteps path).map String.ofList =
      (FilePath.ofString (String.ofList path)).normal.parts := by
  have absolute : (!(leadingSlashes path).isEmpty) =
      (FilePath.ofString (String.ofList path)).isAbsolute := by
    rw [ofString_ofList, FilePath.isAbsolute]
    cases leadingSlashes path <;> rfl
  rw [normalSteps, List.map_reverse, map_foldl_push, absolute, FilePath.normal, ofString_ofList,
    steps]
  rfl

theorem mem_normalSteps {path part : List Char} (step : part ∈ normalSteps path) :
    '/' ∉ part ∧ part ≠ [] ∧ part ≠ ['.'] := by
  have among : String.ofList part ∈ (steps path).map String.ofList := by
    have kept := FilePath.normal_parts_sublist (FilePath.ofString (String.ofList path))
    rw [← map_normalSteps, ofString_ofList] at kept
    exact kept.subset (List.mem_map_of_mem step)
  obtain ⟨other, member, same⟩ := List.mem_map.mp among
  obtain rfl := String.ofList_inj.mp same
  exact mem_steps member

theorem ofString_normalize (path : List Char) :
    FilePath.ofString (String.ofList (normalize path)) =
      (FilePath.ofString (String.ofList path)).normal := by
  have lead : ∀ part ∈ normalSteps path, '/' ∉ part ∧ part ≠ [] ∧ part ≠ ['.'] :=
    fun part step => mem_normalSteps step
  have whole : FilePath.ofString
      (String.ofList (leadingSlashes path ++ ['/'].intercalate (normalSteps path))) =
        (FilePath.ofString (String.ofList path)).normal := by
    rw [ofString_ofList, steps_leadingSlashes_append, steps_intercalate lead, map_normalSteps,
      leadingSlashes_append _ (head?_intercalate lead), leadingSlashes_leadingSlashes,
      ofString_ofList]
    rfl
  change FilePath.ofString (String.ofList
    (if (leadingSlashes path ++ ['/'].intercalate (normalSteps path)).isEmpty then ['.']
      else leadingSlashes path ++ ['/'].intercalate (normalSteps path))) = _
  split
  · next empty =>
    rw [List.isEmpty_iff.mp empty] at whole
    exact whole
  · exact whole

/-! ## Folders -/

theorem steps_rdropWhile (path : List Char) :
    steps (path.rdropWhile (· == '/')) = steps path := by
  induction path using List.reverseRecOn with
  | nil => rfl
  | append_singleton front c induction =>
    rw [List.rdropWhile_concat]
    split
    · next slash =>
      rw [induction, beq_iff_eq.mp slash, steps_concat_slash]
    · rfl

/-- A path is cut behind its last slash. -/
theorem exists_cut (source : List Char) :
    ∃ upToSlash last, source = upToSlash ++ last ∧ '/' ∉ last ∧
      (upToSlash = [] ∨ ∃ front, upToSlash = front ++ ['/']) ∧
      folder source =
        if upToSlash.all (· == '/') then upToSlash else upToSlash.rdropWhile (· == '/') := by
  refine ⟨source.rdropWhile (· ≠ '/'), source.rtakeWhile (· ≠ '/'),
    List.rdropWhile_append_rtakeWhile.symm, ?_, ?_, rfl⟩
  · intro slash
    simpa using List.mem_rtakeWhile_imp slash
  · rw [or_iff_not_imp_left]
    intro nonempty
    have slash := List.rdropWhile_last_not _ _ nonempty
    refine ⟨(source.rdropWhile (· ≠ '/')).dropLast, ?_⟩
    rw [← List.dropLast_append_getLast nonempty]
    simpa using slash

theorem steps_folder (source : List Char) :
    ∃ last, '/' ∉ last ∧ (source.splitOn '/').getLast? = some last ∧
      steps source = steps (folder source) ++ steps last := by
  obtain ⟨upToSlash, last, whole, slashless, cut, isFolder⟩ := exists_cut source
  have same : steps (folder source) = steps upToSlash := by
    rw [isFolder]
    split
    · rfl
    · exact steps_rdropWhile upToSlash
  have alone : last.splitOn '/' = [last] := List.splitOn_eq_singleton slashless
  refine ⟨last, slashless, ?_⟩
  rw [same, whole]
  rcases cut with rfl | ⟨front, rfl⟩
  · rw [List.nil_append, alone]
    exact ⟨rfl, rfl⟩
  · rw [List.append_assoc, List.singleton_append, List.splitOn_append_cons_self, alone,
      steps_append_slash, steps_concat_slash]
    exact ⟨List.getLast?_concat, rfl⟩

theorem steps_join {target : List Char} (relative : target.head? ≠ some '/')
    (folder : List Char) : steps (join folder target) = steps folder ++ steps target := by
  rw [join, if_neg relative]
  split
  · next ends =>
    rcases ends with empty | slash
    · rw [List.isEmpty_iff.mp empty]
      rfl
    · obtain ⟨front, rfl⟩ := List.getLast?_eq_some_iff.mp slash
      rw [List.append_assoc, List.singleton_append, steps_append_slash, steps_concat_slash]
  · exact steps_append_slash folder target

theorem leadingSlashes_join {target : List Char} (relative : target.head? ≠ some '/')
    (source : List Char) :
    leadingSlashes (join (folder source) target) = leadingSlashes source := by
  obtain ⟨upToSlash, last, whole, slashless, cut, isFolder⟩ := exists_cut source
  have lastRelative : last.head? ≠ some '/' := fun begins =>
    slashless (List.mem_of_mem_head? begins)
  rw [whole, leadingSlashes_append upToSlash lastRelative, ← whole, isFolder, join,
    if_neg relative]
  split
  · next slashes =>
    have noMark : upToSlash.isEmpty = true ∨ upToSlash.getLast? = some '/' := by
      rcases cut with rfl | ⟨front, rfl⟩
      · exact .inl rfl
      · exact .inr List.getLast?_concat
    rw [if_pos noMark]
    exact leadingSlashes_append upToSlash relative
  · next mixed =>
    obtain ⟨c, member, other⟩ : ∃ c ∈ upToSlash, c ≠ '/' := by
      simpa using mixed
    have trimmed : upToSlash =
        upToSlash.rdropWhile (· == '/') ++ upToSlash.rtakeWhile (· == '/') :=
      List.rdropWhile_append_rtakeWhile.symm
    have kept : c ∈ upToSlash.rdropWhile (· == '/') := by
      rw [trimmed, List.mem_append] at member
      refine member.resolve_right fun slash => other ?_
      simpa using List.mem_rtakeWhile_imp slash
    have same : leadingSlashes upToSlash = leadingSlashes (upToSlash.rdropWhile (· == '/')) := by
      conv_lhs => rw [trimmed]
      exact leadingSlashes_append_of_mem kept other _
    rw [same]
    split <;> exact leadingSlashes_append_of_mem kept other _

theorem isAbsolute_ofString_iff (path : List Char) :
    (FilePath.ofString (String.ofList path)).isAbsolute = true ↔ path.head? = some '/' := by
  rw [ofString_ofList, FilePath.isAbsolute, decide_eq_true_iff]
  constructor
  · intro slashes
    by_contra relative
    rw [← List.nil_append path, leadingSlashes_append [] relative] at slashes
    exact Nat.lt_irrefl 0 slashes
  · intro begins
    obtain ⟨rest, rfl⟩ := List.head?_eq_some_iff.mp begins
    rw [leadingSlashes.eq_def]
    split <;> simp_all

end LinkPath

theorem fileName_ne_dot (file : String) : fileName file ≠ "." := by
  rw [fileName, FilePath.name]
  cases found : (FilePath.ofString file).parts.getLast? with
  | none => decide
  | some part =>
    have meant := (List.mem_filter.mp (List.mem_of_getLast? found)).2
    exact (of_decide_eq_true meant).2

theorem ofString_parent {source : String} (ends : EndsInName source) :
    (FilePath.ofString source).parent =
      { slashes := (leadingSlashes source.toList).length
        parts := (LinkPath.steps (LinkPath.folder source.toList)).map String.ofList } := by
  obtain ⟨last, slashless, isLast, split⟩ := LinkPath.steps_folder source.toList
  have isName : String.ofList last = fileName source := by
    have found := ends.last
    rw [splitSlashes, List.getLast?_map, isLast] at found
    exact Option.some.inj found
  have nonempty : last ≠ [] := by
    rintro rfl
    exact ends.named isName.symm
  have notHere : last ≠ ['.'] := by
    rintro rfl
    exact fileName_ne_dot source isName.symm
  have single := LinkPath.steps_of_lead slashless nonempty notHere
  have whole := LinkPath.ofString_ofList source.toList
  rw [String.ofList_toList, split, single, List.map_append] at whole
  rw [whole, FilePath.parent]
  exact congrArg _ List.dropLast_concat

/-- A link is resolved to the normal form of its path from the folder of its source. -/
theorem ofString_resolve {source : String} (ends : EndsInName source) (link : Link) :
    FilePath.ofString (link.resolve source) =
      ((FilePath.ofString source).parent.child (String.ofList link.target)).normal := by
  rw [Link.resolve, LinkPath.resolve, LinkPath.ofString_normalize, FilePath.child]
  congr 1
  by_cases absolute : link.target.head? = some '/'
  · rw [LinkPath.join, if_pos absolute, FilePath.join,
      if_pos ((LinkPath.isAbsolute_ofString_iff _).mpr absolute)]
  · rw [FilePath.join, if_neg (fun begins => absolute ((LinkPath.isAbsolute_ofString_iff _).mp begins)),
      LinkPath.ofString_ofList, LinkPath.steps_join absolute, LinkPath.leadingSlashes_join absolute,
      ofString_parent ends, LinkPath.ofString_ofList, List.map_append]

end DocAudit
