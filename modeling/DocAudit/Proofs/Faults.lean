import DocAudit.Fault

/-!
Which faults can come out of a computation, and when none does. What is put together fails only with
faults of its parts, and succeeds only where every part does.
-/

namespace DocAudit

variable {α β : Type} {allowed : Fault → Prop}

theorem error_ne_ok {fault : Fault} {value : α} : (.error fault : Except Fault α) ≠ .ok value := by
  rintro ⟨⟩

theorem exists_of_bind_eq_ok {outcome : Except Fault α} {next : α → Except Fault β}
    {value : β} (succeeds : outcome >>= next = .ok value) :
    ∃ first, outcome = .ok first ∧ next first = .ok value := by
  cases outcome with
  | ok first => exact ⟨first, rfl, succeeds⟩
  | error fault => cases succeeds

def FailsOnly (allowed : Fault → Prop) (outcome : Except Fault α) : Prop :=
  ∀ fault, outcome = .error fault → allowed fault

namespace FailsOnly

theorem ok (value : α) : FailsOnly allowed (.ok value) := by
  rintro fault ⟨⟩

theorem error {fault : Fault} (allows : allowed fault) :
    FailsOnly allowed (.error fault : Except Fault α) := by
  rintro other ⟨⟩
  exact allows

theorem mono {further : Fault → Prop} {outcome : Except Fault α} (fails : FailsOnly allowed outcome)
    (weaker : ∀ fault, allowed fault → further fault) : FailsOnly further outcome :=
  fun fault failed => weaker fault (fails fault failed)

theorem bind {outcome : Except Fault α} {next : α → Except Fault β}
    (first : FailsOnly allowed outcome)
    (further : ∀ value, outcome = .ok value → FailsOnly allowed (next value)) :
    FailsOnly allowed (outcome >>= next) := by
  cases outcome with
  | ok value => exact further value rfl
  | error fault => exact .error (first fault rfl)

theorem mapError {rename : Fault → Fault} {outcome : Except Fault α}
    (allows : ∀ fault, outcome = .error fault → allowed (rename fault)) :
    FailsOnly allowed (outcome.mapError rename) := by
  cases outcome with
  | ok value => exact .ok value
  | error fault => exact .error (allows fault rfl)

theorem mapM {run : α → Except Fault β} {items : List α}
    (each : ∀ item ∈ items, FailsOnly allowed (run item)) : FailsOnly allowed (items.mapM run) := by
  induction items with
  | nil => exact .ok []
  | cons item rest induction =>
    obtain ⟨first, others⟩ := List.forall_mem_cons.mp each
    rw [List.mapM_cons]
    exact first.bind fun _ _ => (induction others).bind fun _ _ => .ok _

theorem forM {run : α → Except Fault Unit} {items : List α}
    (each : ∀ item ∈ items, FailsOnly allowed (run item)) : FailsOnly allowed (items.forM run) := by
  induction items with
  | nil => exact .ok ()
  | cons item rest induction =>
    obtain ⟨first, others⟩ := List.forall_mem_cons.mp each
    exact first.bind fun _ _ => induction others

theorem foldlM {run : β → α → Except Fault β} {items : List α}
    (each : ∀ item ∈ items, ∀ state, FailsOnly allowed (run state item)) (start : β) :
    FailsOnly allowed (items.foldlM run start) := by
  induction items generalizing start with
  | nil => exact .ok start
  | cons item rest induction =>
    obtain ⟨first, others⟩ := List.forall_mem_cons.mp each
    rw [List.foldlM_cons]
    exact (first start).bind fun state _ => induction others state

theorem anyM {ask : α → Except Fault Bool} {items : List α}
    (each : ∀ item ∈ items, FailsOnly allowed (ask item)) : FailsOnly allowed (items.anyM ask) := by
  induction items with
  | nil => exact .ok false
  | cons item rest induction =>
    obtain ⟨first, others⟩ := List.forall_mem_cons.mp each
    rw [List.anyM_cons]
    refine first.bind fun answer _ => ?_
    split
    · exact .ok true
    · exact induction others

theorem filterAuxM {ask : α → Except Fault Bool} {items : List α}
    (each : ∀ item ∈ items, FailsOnly allowed (ask item)) (before : List α) :
    FailsOnly allowed (List.filterAuxM ask items before) := by
  induction items generalizing before with
  | nil => exact .ok before
  | cons item rest induction =>
    obtain ⟨first, others⟩ := List.forall_mem_cons.mp each
    exact first.bind fun answer _ => induction others _

theorem filterM {ask : α → Except Fault Bool} {items : List α}
    (each : ∀ item ∈ items, FailsOnly allowed (ask item)) :
    FailsOnly allowed (items.filterM ask) :=
  (filterAuxM each []).bind fun _ _ => .ok _

end FailsOnly

def Succeeds (outcome : Except Fault α) : Prop :=
  ∃ value, outcome = .ok value

namespace Succeeds

theorem ok (value : α) : Succeeds (.ok value : Except Fault α) :=
  ⟨value, rfl⟩

theorem error_iff {fault : Fault} : Succeeds (.error fault : Except Fault α) ↔ False := by
  refine iff_false_intro ?_
  rintro ⟨value, ⟨⟩⟩

theorem bind_iff {outcome : Except Fault α} {next : α → Except Fault β} :
    Succeeds (outcome >>= next) ↔ ∃ value, outcome = .ok value ∧ Succeeds (next value) := by
  constructor
  · rintro ⟨result, succeeds⟩
    obtain ⟨first, reached, further⟩ := exists_of_bind_eq_ok succeeds
    exact ⟨first, reached, result, further⟩
  · rintro ⟨value, rfl, further⟩
    exact further

/-- What goes on without a fault succeeds where it begins without one. -/
theorem bind_ok_iff {outcome : Except Fault α} {next : α → β} :
    Succeeds (outcome >>= fun value => .ok (next value)) ↔ Succeeds outcome :=
  bind_iff.trans ⟨fun ⟨value, reached, _⟩ => ⟨value, reached⟩,
    fun ⟨value, reached⟩ => ⟨value, reached, _, rfl⟩⟩

theorem mapM_iff {run : α → Except Fault β} {items : List α} :
    Succeeds (items.mapM run) ↔ ∀ item ∈ items, Succeeds (run item) := by
  induction items with
  | nil => exact iff_of_true (ok []) nofun
  | cons item rest induction =>
    rw [List.mapM_cons, bind_iff, List.forall_mem_cons, ← induction]
    constructor
    · rintro ⟨first, reached, further⟩
      exact ⟨⟨first, reached⟩, bind_ok_iff.mp further⟩
    · rintro ⟨⟨first, reached⟩, further⟩
      exact ⟨first, reached, bind_ok_iff.mpr further⟩

/-- Steps that succeed whatever the state is succeed together where each does. -/
theorem foldlM_iff {run : β → α → Except Fault β} {reads : α → Prop} {items : List α}
    (each : ∀ state item, Succeeds (run state item) ↔ reads item) (start : β) :
    Succeeds (items.foldlM run start) ↔ ∀ item ∈ items, reads item := by
  induction items generalizing start with
  | nil => exact iff_of_true (ok start) nofun
  | cons item rest induction =>
    rw [List.foldlM_cons, bind_iff, List.forall_mem_cons, ← each start item]
    constructor
    · rintro ⟨state, reached, further⟩
      exact ⟨⟨state, reached⟩, (induction state).mp further⟩
    · rintro ⟨⟨state, reached⟩, further⟩
      exact ⟨state, reached, (induction state).mpr further⟩

end Succeeds

/-! ## What has been read -/

/-- What can be said of a result that goes on without a fault. -/
theorem exists_bind_ok_iff {outcome : Except Fault α} {next : α → β} {Says : β → Prop} :
    (∃ result, (outcome >>= fun value => .ok (next value)) = .ok result ∧ Says result) ↔
      ∃ value, outcome = .ok value ∧ Says (next value) := by
  cases outcome with
  | ok value => simp [bind, Except.bind]
  | error fault => simp [bind, Except.bind]

theorem exists_of_mem_mapM {run : α → Except Fault β} {items : List α} {results : List β}
    (succeeds : items.mapM run = .ok results) {result : β} (member : result ∈ results) :
    ∃ item ∈ items, run item = .ok result := by
  induction items generalizing results with
  | nil =>
    cases succeeds
    cases member
  | cons item rest induction =>
    rw [List.mapM_cons] at succeeds
    obtain ⟨first, read, succeeds⟩ := exists_of_bind_eq_ok succeeds
    obtain ⟨others, readOthers, succeeds⟩ := exists_of_bind_eq_ok succeeds
    cases succeeds
    rcases List.mem_cons.mp member with rfl | member
    · exact ⟨item, List.mem_cons_self, read⟩
    · obtain ⟨other, among, read⟩ := induction readOthers member
      exact ⟨other, List.mem_cons_of_mem item among, read⟩

/-- What is read together is what is read of each. -/
theorem mem_flatten_of_mapM {run : α → Except Fault (List β)} {items : List α}
    {results : List (List β)} (succeeds : items.mapM run = .ok results) {value : β} :
    value ∈ results.flatten ↔ ∃ item ∈ items, ∃ found, run item = .ok found ∧ value ∈ found := by
  induction items generalizing results with
  | nil =>
    cases succeeds
    simp
  | cons item rest induction =>
    rw [List.mapM_cons] at succeeds
    obtain ⟨first, read, succeeds⟩ := exists_of_bind_eq_ok succeeds
    obtain ⟨others, readOthers, ⟨⟩⟩ := exists_of_bind_eq_ok succeeds
    rw [List.flatten_cons, List.mem_append, induction readOthers]
    simp [read]

theorem mapM_eq_ok_map {run : α → Except Fault β} {value : α → β} {items : List α}
    (each : ∀ item ∈ items, run item = .ok (value item)) :
    items.mapM run = .ok (items.map value) := by
  induction items with
  | nil => rfl
  | cons item rest induction =>
    obtain ⟨first, others⟩ := List.forall_mem_cons.mp each
    rw [List.mapM_cons, first, induction others]
    rfl

/-- Steps that are known one by one are known together. -/
theorem mapM_eq_ok_iff {run : α → Except Fault β} {reads : α → Prop} {value : α → β}
    (each : ∀ item result, run item = .ok result ↔ reads item ∧ result = value item)
    {items : List α} {results : List β} :
    items.mapM run = .ok results ↔ (∀ item ∈ items, reads item) ∧ results = items.map value := by
  have together (all : ∀ item ∈ items, reads item) : items.mapM run = .ok (items.map value) :=
    mapM_eq_ok_map fun item member => (each item _).mpr ⟨all item member, rfl⟩
  constructor
  · intro read
    have all : ∀ item ∈ items, reads item := by
      intro item member
      obtain ⟨result, reached⟩ := Succeeds.mapM_iff.mp ⟨results, read⟩ item member
      exact ((each item result).mp reached).1
    exact ⟨all, Except.ok.inj (read.symm.trans (together all))⟩
  · rintro ⟨all, rfl⟩
    exact together all

/-- What is found in each item is found in all of them together. -/
theorem flatten_mapM_eq_ok_iff {run : α → Except Fault (List β)} {reads : α → Prop}
    {value : α → List β}
    (each : ∀ item result, run item = .ok result ↔ reads item ∧ result = value item)
    {items : List α} {found : List β} :
    (items.mapM run >>= fun results => .ok results.flatten) = .ok found ↔
      (∀ item ∈ items, reads item) ∧ found = items.flatMap value := by
  constructor
  · intro succeeds
    obtain ⟨results, read, same⟩ := exists_of_bind_eq_ok succeeds
    obtain ⟨all, rfl⟩ := (mapM_eq_ok_iff each).mp read
    cases same
    exact ⟨all, rfl⟩
  · rintro ⟨all, rfl⟩
    rw [(mapM_eq_ok_iff each).mpr ⟨all, rfl⟩]
    rfl

/-- What is found, and nothing where the search fails. -/
def foundBy (run : α → Except Fault (List β)) (item : α) : List β :=
  (run item).toOption.getD []

theorem foundBy_of_ok {run : α → Except Fault (List β)} {item : α} {found : List β}
    (succeeds : run item = .ok found) : foundBy run item = found := by
  rw [foundBy, succeeds]
  rfl

theorem flatten_mapM_foundBy {run : α → Except Fault (List β)} {items : List α} {found : List β} :
    (items.mapM run >>= fun results => .ok results.flatten) = .ok found ↔
      (∀ item ∈ items, Succeeds (run item)) ∧ found = items.flatMap (foundBy run) := by
  refine flatten_mapM_eq_ok_iff fun item result => ?_
  constructor
  · intro succeeds
    exact ⟨⟨result, succeeds⟩, (foundBy_of_ok succeeds).symm⟩
  · rintro ⟨⟨result, succeeds⟩, rfl⟩
    rw [foundBy_of_ok succeeds, succeeds]

theorem flatMap_filter (items : List α) (test : α → Bool) (each : α → List β) :
    (items.filter test).flatMap each =
      items.flatMap fun item => if test item then each item else [] := by
  induction items with
  | nil => rfl
  | cons item rest induction =>
    rw [List.filter_cons, List.flatMap_cons, ← induction]
    split <;> rfl

theorem flatMap_filterMap {γ : Type} (items : List α) (pick : α → Option γ) (each : γ → List β) :
    (items.filterMap pick).flatMap each =
      items.flatMap fun item => ((pick item).map each).getD [] := by
  induction items with
  | nil => rfl
  | cons item rest induction =>
    rw [List.filterMap_cons, List.flatMap_cons, ← induction]
    cases pick item <;> rfl

theorem mapM_bind_ok {γ : Type} {run : α → Except Fault β} {next : β → γ} (items : List α) :
    items.mapM (fun item => run item >>= fun value => .ok (next value)) =
      items.mapM run >>= fun values => .ok (values.map next) := by
  induction items with
  | nil => rfl
  | cons item rest induction =>
    rw [List.mapM_cons, List.mapM_cons, induction]
    cases run item with
    | error fault => rfl
    | ok value =>
      cases rest.mapM run with
      | error fault => rfl
      | ok values => rfl

theorem mapM_flatMap_eq_ok {γ : Type} {parts : α → List β} {run : β → Except Fault γ}
    {found : α → List γ} (each : ∀ item, (parts item).mapM run = .ok (found item))
    (items : List α) : (items.flatMap parts).mapM run = .ok (items.flatMap found) := by
  induction items with
  | nil => rfl
  | cons item rest induction =>
    rw [List.flatMap_cons, List.mapM_append, each, induction]
    rfl

/-- The answer to a question, and no where there is none. -/
def answerTo (ask : α → Except Fault Bool) (item : α) : Bool :=
  (ask item).toOption.getD false

theorem filterAuxM_eq_ok_iff {ask : α → Except Fault Bool} {items kept before : List α} :
    List.filterAuxM ask items before = .ok kept ↔
      (∀ item ∈ items, Succeeds (ask item)) ∧
        kept = (items.filter (answerTo ask)).reverse ++ before := by
  induction items generalizing before with
  | nil => simp [List.filterAuxM, pure, Except.pure, eq_comm]
  | cons item rest induction =>
    rw [List.filterAuxM, List.forall_mem_cons]
    cases asked : ask item with
    | error fault =>
      exact iff_of_false error_ne_ok fun answered => Succeeds.error_iff.mp answered.1.1
    | ok answer =>
      have answered : answerTo ask item = answer := by
        rw [answerTo, asked]
        rfl
      refine induction.trans ?_
      rw [iff_true_intro (Succeeds.ok answer), true_and]
      cases answer <;> simp [answered]

theorem filterM_eq_ok_iff {ask : α → Except Fault Bool} {items kept : List α} :
    items.filterM ask = .ok kept ↔
      (∀ item ∈ items, Succeeds (ask item)) ∧ kept = items.filter (answerTo ask) := by
  constructor
  · intro filtered
    obtain ⟨collected, gathered, same⟩ := exists_of_bind_eq_ok filtered
    cases same
    obtain ⟨answered, rfl⟩ := filterAuxM_eq_ok_iff.mp gathered
    exact ⟨answered, by simp⟩
  · rintro ⟨answered, rfl⟩
    rw [List.filterM, filterAuxM_eq_ok_iff.mpr ⟨answered, rfl⟩]
    simp [bind, Except.bind, pure, Except.pure]

theorem anyM_eq_ok_false_iff {ask : α → Except Fault Bool} {items : List α} :
    items.anyM ask = .ok false ↔ ∀ item ∈ items, ask item = .ok false := by
  induction items with
  | nil => exact iff_of_true rfl (List.forall_mem_nil _)
  | cons item rest induction =>
    rw [List.anyM_cons, List.forall_mem_cons, ← induction]
    cases ask item with
    | error fault => simp [bind, Except.bind]
    | ok answer => cases answer <;> simp [bind, Except.bind, pure, Except.pure]

theorem exists_of_anyM_eq_ok_true {ask : α → Except Fault Bool} {items : List α}
    (found : items.anyM ask = .ok true) : ∃ item ∈ items, ask item = .ok true := by
  induction items with
  | nil => cases found
  | cons item rest induction =>
    rw [List.anyM_cons] at found
    obtain ⟨answer, asked, found⟩ := exists_of_bind_eq_ok found
    cases answer with
    | true => exact ⟨item, List.mem_cons_self, asked⟩
    | false =>
      obtain ⟨other, among, asked⟩ := induction found
      exact ⟨other, List.mem_cons_of_mem item among, asked⟩

/-- A question that each item answers is answered by the row of them. -/
theorem anyM_map_eq_ok_any {make : β → α} {ask : α → Except Fault Bool} {test : β → Bool}
    (answers : ∀ item, ask (make item) = .ok (test item)) (items : List β) :
    (items.map make).anyM ask = .ok (items.any test) := by
  induction items with
  | nil => rfl
  | cons item rest induction =>
    rw [List.map_cons, List.anyM_cons, answers, induction, List.any_cons]
    cases test item <;> rfl

theorem foldlM_invariant {Holds : β → Prop} {run : β → α → Except Fault β} {items : List α}
    (each : ∀ item ∈ items, ∀ state next, Holds state → run state item = .ok next → Holds next)
    {start final : β} (holds : Holds start) (succeeds : items.foldlM run start = .ok final) :
    Holds final := by
  induction items generalizing start with
  | nil =>
    cases succeeds
    exact holds
  | cons item rest induction =>
    obtain ⟨first, others⟩ := List.forall_mem_cons.mp each
    rw [List.foldlM_cons] at succeeds
    obtain ⟨state, reached, succeeds⟩ := exists_of_bind_eq_ok succeeds
    exact induction others (first start state holds reached) succeeds

end DocAudit
