import DocAudit.Proofs.Outcome
import DocAudit.Proofs.Sync.Convergence
import DocAudit.Rules.StandardsDrift

/-!
The rule on drift and a check of copies answer one question. For a category that there are templates
of, both stop with the same fault or go through, and then the findings are on the copies that the
check names.
-/

namespace DocAudit.Sync

open StandardsDrift

/-- How the rule names the copy of a template. -/
def copyName (category name : String) : String :=
  s!"{category}/{name}"

/-- Findings on the copies that a report calls different, one each and in order. -/
structure NamesSame (category : String) (issues : List Issue) (report : Report) : Prop where
  files : issues.map (·.file) = report.different.map (copyName category)
  none : issues = [] ↔ report.different = []

theorem NamesSame.of_files {category : String} {issues : List Issue} {report : Report}
    (files : issues.map (·.file) = report.different.map (copyName category)) :
    NamesSame category issues report where
  files := files
  none := by rw [← List.map_eq_nil_iff, files, List.map_eq_nil_iff]

/-- The options of the rule for a single category. -/
def onlyCategory (category : String) : StandardsDrift.Options where
  categories := .ofTexts [category]

variable {disk : Disk} {template copy : FilePath} {outcome : Outcome}

theorem idle_of_plan_check (planned : plan disk .check template copy = .ok outcome) :
    outcome.writes = false := by
  cases asked : disk.isPresent copy with
  | error fault =>
    rw [plan, asked] at planned
    cases planned
  | ok present =>
    cases present with
    | false =>
      rw [plan_of_absent asked] at planned
      cases planned
      rfl
    | true =>
      obtain ⟨own, standard, ownRead, read⟩ := exists_read_of_plan asked planned
      rw [plan_of_read ownRead read] at planned
      cases planned
      cases own != standard <;> rfl

theorem copyNames_check_cons (disk : Disk) (source target : FilePath) (report : Report)
    (name : String) (rest : List String) :
    (copyNames .check source target disk report (name :: rest)).2 =
      plan disk .check (source.child name) (target.child name) >>= fun outcome =>
        (copyNames .check source target disk (report.record name outcome) rest).2 := by
  rw [copyNames]
  cases planned : plan disk .check (source.child name) (target.child name) with
  | error fault => rfl
  | ok outcome =>
    simp only [perform_of_idle disk (idle_of_plan_check planned)]
    rfl

/-- One template: a finding stands for the plan to call its copy different. -/
theorem agree_findings (docs : Docs) (templates : FilePath) (category name : String) :
    Agree (fun issues outcome =>
        issues.map (·.file) = if outcome = .different then [copyName category name] else [])
      (findings docs templates (onlyCategory category) category name)
      (plan docs.disk .check ((templates.child category).child name)
        ((docs.root.child category).child name)) := by
  rw [findings, plan]
  apply Agree.bind_same
  intro present asked
  cases present with
  | false => exact .ok rfl
  | true =>
    apply Agree.bind_same
    intro differ compared
    cases differ with
    | true => exact .ok rfl
    | false => exact .ok rfl

theorem different_record (report : Report) (name : String) (other : outcome ≠ .different) :
    (report.record name outcome).different = report.different := by
  cases outcome with
  | different => exact absurd rfl other
  | created | updated | skipped | same => rfl

theorem agree_names (docs : Docs) (templates : FilePath) (category : String)
    (names : List String) (report : Report) :
    Agree (fun found final => ∃ differing, final.different = report.different ++ differing ∧
        found.flatten.map (·.file) = differing.map (copyName category))
      (names.mapM (findings docs templates (onlyCategory category) category))
      (copyNames .check (templates.child category) (docs.root.child category) docs.disk report
        names).2 := by
  induction names generalizing report with
  | nil => exact .ok ⟨[], (List.append_nil _).symm, rfl⟩
  | cons name rest induction =>
    rw [List.mapM_cons, copyNames_check_cons]
    apply (agree_findings docs templates category name).bind
    intro issues outcome named
    rw [← bind_pure (copyNames .check _ _ _ (report.record name outcome) rest).2]
    apply (induction _).bind
    rintro found final ⟨differing, grown, namedOthers⟩
    by_cases differs : outcome = .different
    · subst differs
      refine .ok ⟨name :: differing, ?_, ?_⟩
      · rw [grown, Report.record, List.append_assoc]
        rfl
      · rw [List.flatten_cons, List.map_append, named, if_pos rfl, namedOthers]
        rfl
    · refine .ok ⟨differing, ?_, ?_⟩
      · rw [grown, different_record report name differs]
      · rw [List.flatten_cons, List.map_append, named, if_neg differs, namedOthers]
        rfl

/-- Where there is a folder of templates for a category, the rule on drift, set to this category,
stops with a fault if and only if a check of the copies does, and with the same one. Otherwise its
findings are on the copies that the check calls different. -/
theorem drift_agrees_with_check (docs : Docs) (templates : FilePath) (category : String)
    (present : Templates.hasCategory docs.disk templates category = .ok true) :
    Agree (NamesSame category) (StandardsDrift.check docs templates (onlyCategory category))
      (run docs.disk docs.root templates category .check).2 := by
  have single : (onlyCategory category).categories.items = .ok [.text category] := rfl
  have check_eq : StandardsDrift.check docs templates (onlyCategory category) =
      categoryFindings docs templates (onlyCategory category) category >>= fun found =>
        pure (found ++ []) := by
    rw [StandardsDrift.check, single]
    simp only [List.mapM_cons, List.mapM_nil, Value.pathPart, bind, Except.bind, pure, Except.pure]
    cases categoryFindings docs templates (onlyCategory category) category <;> rfl
  have names_eq : templateNames docs.disk templates category =
      Templates.names docs.disk templates category := by
    rw [templateNames, present]
    rfl
  rw [check_eq, categoryFindings, present, run, names_eq]
  cases listed : Templates.names docs.disk templates category with
  | error fault => exact .error fault
  | ok names =>
    change Agree _ ((names.mapM _ >>= fun found => pure found.flatten) >>= fun found =>
      pure (found ++ [])) (copyNames .check _ _ _ {} names).2
    rw [bind_assoc, ← bind_pure (copyNames .check _ _ _ {} names).2]
    apply (agree_names docs templates category names {}).bind
    rintro found report ⟨differing, sameReport, named⟩
    refine .ok (.of_files ?_)
    rw [List.append_nil, named, sameReport]
    rfl

theorem drift_agrees_with_check_one_each :
    let template (c : Char) : Node := .file (Text.encode ['#', ' ', c, '\n'])
    let docs : Docs :=
      { disk :=
          { root := .folder
              [("templates", .folder
                  [("guides", .folder [("B.md", template 'B'), ("A.md", template 'A')])]),
                ("docs", .folder [("guides", .folder [("B.md", .file (Text.encode ['m', '\n']))])])]
            workingFolder := [] }
        root := .fromTop ["docs"] }
    let templates : FilePath := .fromTop ["templates"]
    Templates.hasCategory docs.disk templates "guides" = .ok true ∧
      (run docs.disk docs.root templates "guides" .check).2 =
        .ok { different := ["A.md", "B.md"] } ∧
      Agree (NamesSame "guides") (StandardsDrift.check docs templates (onlyCategory "guides"))
        (run docs.disk docs.root templates "guides" .check).2 := by
  intro template docs templates
  have present : Templates.hasCategory docs.disk templates "guides" = .ok true := by cbv
  exact ⟨present, by cbv, drift_agrees_with_check docs templates "guides" present⟩

end DocAudit.Sync
