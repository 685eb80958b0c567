import DocAudit.Logged
import DocAudit.Proofs.Faults
import Mathlib.Data.List.Forall2

/-!
Two runs of one computation side by side. They agree when both fail with the same fault or both
succeed with values that are related; what goes on from related values in the same way agrees
again. What looks the same on related items looks the same on related lists of them.
-/

namespace DocAudit

variable {α β γ δ : Type}

theorem Logged.outcome_andThen (first : Logged α) (second : α → Logged β) :
    (first.andThen second).outcome = first.outcome >>= fun value => (second value).outcome := by
  rw [Logged.andThen]
  cases first.outcome <;> rfl

inductive Agree (Related : α → β → Prop) : Except Fault α → Except Fault β → Prop where
  | ok {left : α} {right : β} : Related left right → Agree Related (.ok left) (.ok right)
  | error (fault : Fault) : Agree Related (.error fault) (.error fault)

namespace Agree

theorem eq {left right : Except Fault α} (agree : Agree (· = ·) left right) : left = right := by
  cases agree with
  | ok same => rw [same]
  | error fault => rfl

/-- Outcomes whose values share a view are the same in that view. -/
theorem map_eq {view : α → γ} {view' : β → γ} {left : Except Fault α} {right : Except Fault β}
    (agree : Agree (fun value value' => view' value' = view value) left right) :
    right.map view' = left.map view := by
  cases agree with
  | ok same => exact congrArg Except.ok same
  | error fault => rfl

theorem refl {Related : α → α → Prop} (reflexive : ∀ value, Related value value)
    (outcome : Except Fault α) : Agree Related outcome outcome := by
  cases outcome with
  | ok value => exact .ok (reflexive value)
  | error fault => exact .error fault

theorem bind {Related : α → β → Prop} {Further : γ → δ → Prop} {left : Except Fault α}
    {right : Except Fault β} {next : α → Except Fault γ} {next' : β → Except Fault δ}
    (agree : Agree Related left right)
    (further : ∀ value value', Related value value' → Agree Further (next value) (next' value')) :
    Agree Further (left >>= next) (right >>= next') := by
  cases agree with
  | ok related => exact further _ _ related
  | error fault => exact .error fault

/-- Both go on from the same outcome. -/
theorem bind_same {Further : γ → δ → Prop} {outcome : Except Fault α}
    {next : α → Except Fault γ} {next' : α → Except Fault δ}
    (further : ∀ value, outcome = .ok value → Agree Further (next value) (next' value)) :
    Agree Further (outcome >>= next) (outcome >>= next') := by
  cases outcome with
  | ok value => exact further value rfl
  | error fault => exact .error fault

theorem mapM {Related : β → γ → Prop} {run : α → Except Fault β} {run' : α → Except Fault γ}
    {items : List α} (agree : ∀ item ∈ items, Agree Related (run item) (run' item)) :
    Agree (List.Forall₂ Related) (items.mapM run) (items.mapM run') := by
  induction items with
  | nil => exact .ok .nil
  | cons item rest induction =>
    obtain ⟨first, others⟩ := List.forall_mem_cons.mp agree
    rw [List.mapM_cons, List.mapM_cons]
    apply first.bind
    intro value value' related
    apply (induction others).bind
    intro values values' relatedValues
    exact .ok (.cons related relatedValues)

end Agree

/-! ## Lists side by side -/

theorem flatMap_eq_of_forall₂ {Related : α → α → Prop} {view : α → List β}
    (same : ∀ left right, Related left right → view right = view left) {lefts rights : List α}
    (related : List.Forall₂ Related lefts rights) :
    rights.flatMap view = lefts.flatMap view := by
  induction related with
  | nil => rfl
  | cons first rest induction =>
    rw [List.flatMap_cons, List.flatMap_cons, same _ _ first, induction]

theorem filterMap_eq_of_forall₂ {Related : α → α → Prop} {view view' : α → Option β}
    (same : ∀ left right, Related left right → view' right = view left) {lefts rights : List α}
    (related : List.Forall₂ Related lefts rights) :
    rights.filterMap view' = lefts.filterMap view := by
  induction related with
  | nil => rfl
  | cons first rest induction =>
    rw [List.filterMap_cons, List.filterMap_cons, same _ _ first, induction]

theorem mapM_congr {run run' : α → Except Fault β} {items : List α}
    (same : ∀ item ∈ items, run' item = run item) : items.mapM run' = items.mapM run := by
  induction items with
  | nil => rfl
  | cons item rest induction =>
    obtain ⟨first, others⟩ := List.forall_mem_cons.mp same
    rw [List.mapM_cons, List.mapM_cons, first, induction others]

theorem mapM_eq_of_forall₂ {Related : α → α → Prop} {run : α → Except Fault β}
    (same : ∀ left right, Related left right → run right = run left) {lefts rights : List α}
    (related : List.Forall₂ Related lefts rights) : rights.mapM run = lefts.mapM run := by
  induction related with
  | nil => rfl
  | cons first rest induction =>
    rw [List.mapM_cons, List.mapM_cons, same _ _ first, induction]

/-- Each result beside the item that it has been read of. -/
theorem forall₂_of_mapM {run : α → Except Fault β} {items : List α} {results : List β}
    (read : items.mapM run = .ok results) :
    List.Forall₂ (fun item result => run item = .ok result) items results := by
  induction items generalizing results with
  | nil =>
    cases read
    exact .nil
  | cons item rest induction =>
    rw [List.mapM_cons] at read
    obtain ⟨first, reached, read⟩ := exists_of_bind_eq_ok read
    obtain ⟨others, readOthers, ⟨⟩⟩ := exists_of_bind_eq_ok read
    exact .cons reached (induction readOthers)

end DocAudit
