import DocAudit.Audit
import DocAudit.Proofs.Rules.ListingOrder
import DocAudit.Sync

/-!
Runs and copies on disks that hold one tree, listed in two orders. Templates come by sorted names, so
the same copies are made, one after another. Files are discovered in one order and each rule has the
same findings, so reports are equal, and so are the messages on the way to them.
-/

/-! ## Copying templates -/

namespace DocAudit.Sync

open Disk

variable {disk disk' : Disk}

theorem plan_relisted (relisted : disk.Relisted disk') : plan disk' = plan disk := by
  funext mode template copy
  rw [plan, plan, relisted.isPresent, relisted.differ]

theorem leadTogether_relisted (relisted : disk.Relisted disk') :
    leadTogether disk' = leadTogether disk := by
  funext left right
  rw [leadTogether, leadTogether]
  have both := relisted.lookup left
  have others := relisted.lookup right
  generalize disk.lookup left = found, disk'.lookup left = found' at both ⊢
  generalize disk.lookup right = other, disk'.lookup right = other' at others ⊢
  cases both <;> cases others <;> rfl

theorem copyFile_relisted (relisted : disk.Relisted disk') (template copy : FilePath) :
    EndAlike (copyFile disk template copy) (copyFile disk' template copy) := by
  rw [copyFile, copyFile, leadTogether_relisted relisted, relisted.readBytes]
  split
  · exact ⟨relisted, rfl⟩
  · have written : Agree Disk.Relisted (disk.readBytes template >>= disk.writeBytes copy)
        (disk.readBytes template >>= disk'.writeBytes copy) :=
      Agree.bind_same fun content _ => relisted.writeBytes copy content
    generalize disk.readBytes template >>= disk.writeBytes copy = result,
      disk.readBytes template >>= disk'.writeBytes copy = result' at written ⊢
    cases written with
    | ok same => exact ⟨same, rfl⟩
    | error fault => exact ⟨relisted, rfl⟩

theorem perform_created (disk : Disk) (template copy : FilePath) :
    perform disk .created template copy =
      goOn (disk.makeFolders copy.parent) fun made _ => copyFile made template copy := by
  rw [perform, goOn]
  cases disk.makeFolders copy.parent with
  | mk made outcome => cases outcome <;> rfl

theorem perform_relisted (relisted : disk.Relisted disk') (outcome : Outcome)
    (template copy : FilePath) :
    EndAlike (perform disk outcome template copy) (perform disk' outcome template copy) := by
  cases outcome with
  | created =>
    rw [perform_created, perform_created]
    exact (relisted.makeFolders copy.parent).goOn fun _ _ _ same =>
      copyFile_relisted same template copy
  | updated => exact copyFile_relisted relisted template copy
  | _ => exact ⟨relisted, rfl⟩

theorem copyNames_cons (mode : Mode) (source target : FilePath) (disk : Disk) (report : Report)
    (name : String) (rest : List String) :
    copyNames mode source target disk report (name :: rest) =
      goOn (disk, plan disk mode (source.child name) (target.child name)) fun disk outcome =>
        goOn (perform disk outcome (source.child name) (target.child name)) fun next _ =>
          copyNames mode source target next (report.record name outcome) rest := by
  rw [copyNames, goOn]
  dsimp only
  cases plan disk mode (source.child name) (target.child name) with
  | error fault => rfl
  | ok outcome =>
    dsimp only
    rw [goOn]
    cases perform disk outcome (source.child name) (target.child name) with
    | mk next result => cases result <;> rfl

theorem copyNames_relisted (relisted : disk.Relisted disk') (mode : Mode)
    (source target : FilePath) (report : Report) (names : List String) :
    EndAlike (copyNames mode source target disk report names)
      (copyNames mode source target disk' report names) := by
  induction names generalizing disk disk' report with
  | nil => exact ⟨relisted, rfl⟩
  | cons name rest induction =>
    have planned : EndAlike (disk, plan disk mode (source.child name) (target.child name))
        (disk', plan disk' mode (source.child name) (target.child name)) :=
      ⟨relisted, by rw [plan_relisted relisted]⟩
    rw [copyNames_cons, copyNames_cons]
    refine planned.goOn fun before before' outcome same => ?_
    refine (perform_relisted same outcome _ _).goOn fun next next' _ same => ?_
    exact induction same (report.record name outcome)

theorem templateNames_relisted (relisted : disk.Relisted disk') (templates : FilePath)
    (category : String) :
    templateNames disk' templates category = templateNames disk templates category := by
  rw [templateNames, templateNames, Templates.hasCategory_relisted relisted,
    relisted.templateNames]

theorem run_relisted (relisted : disk.Relisted disk') (docs templates : FilePath)
    (category : String) (mode : Mode) :
    EndAlike (run disk docs templates category mode) (run disk' docs templates category mode) := by
  rw [run, run, templateNames_relisted relisted]
  cases templateNames disk templates category with
  | error fault => exact ⟨relisted, rfl⟩
  | ok names => exact copyNames_relisted relisted mode _ _ {} names

end DocAudit.Sync

/-! ## Runs -/

namespace DocAudit

/-- Runs that go on alike from outcomes that agree. -/
theorem Logged.ofOutcome_andThen_congr {α β γ : Type} {Related : α → β → Prop}
    {outcome : Except Fault α} {outcome' : Except Fault β} {next : α → Logged γ}
    {next' : β → Logged γ} (agree : Agree Related outcome outcome')
    (further : ∀ value value', Related value value' → next' value' = next value) :
    (Logged.ofOutcome outcome').andThen next' = (Logged.ofOutcome outcome).andThen next := by
  cases agree with
  | ok related =>
    rw [Logged.andThen, Logged.andThen, Logged.ofOutcome, Logged.ofOutcome]
    dsimp only
    rw [further _ _ related]
  | error fault => rfl

namespace Audit

variable {disk disk' : Disk} {docs docs' : Docs}

theorem docsRoot_relisted (relisted : disk.Relisted disk') : docsRoot disk' = docsRoot disk := by
  funext docsDir
  rw [docsRoot, docsRoot, relisted.absoluteParts]

theorem agree_docsOf_relisted (relisted : disk.Relisted disk') (config : Config) :
    Agree Docs.Relisted (docsOf disk config) (docsOf disk' config) := by
  rw [docsOf, docsOf, docsRoot_relisted relisted, relisted.isFolder]
  refine Agree.bind_same fun root _ => Agree.bind_same fun present _ => ?_
  split
  · exact .ok ⟨relisted, rfl⟩
  · exact .error _

theorem discover_relisted (relisted : docs.Relisted docs') (config : Config) :
    discover docs' config = discover docs config := by
  obtain ⟨disk, root⟩ := docs
  obtain ⟨disk', root'⟩ := docs'
  obtain ⟨sameTree, sameRoot⟩ := relisted
  obtain rfl : root' = root := sameRoot
  rw [discover, discover, sameTree.discover]

theorem step_relisted {input : Input} (relisted : input.docs.Relisted docs') (config : Config) :
    step config { input with docs := docs' } = step config input := by
  funext rule
  rw [step, step, ruleVisit, ruleVisit, rule.applies_relisted relisted,
    rule.check_relisted relisted]

theorem runRules_relisted {input : Input} (relisted : input.docs.Relisted docs') (config : Config)
    (selection : Selection) :
    runRules config selection { input with docs := docs' } = runRules config selection input := by
  rw [runRules, runRules, step_relisted relisted]

theorem layoutVisits_relisted {input : Input} (relisted : input.docs.Relisted docs')
    (config : Config) (layout : Layout) :
    layoutVisits config layout { input with docs := docs' } =
      layoutVisits config layout input := by
  have sameVisit (rule : Rule) (options : rule.Options) :
      ruleVisit config rule options { input with docs := docs' } =
        ruleVisit config rule options input := by
    rw [ruleVisit, ruleVisit, rule.check_relisted relisted]
  have sameFolders : layoutVisit config docs' layout = layoutVisit config input.docs layout := by
    rw [layoutVisit, layoutVisit, FolderStructure.check_relisted relisted]
  have sameNames := sameVisit .fileNaming (namingOptions config layout)
  have sameTitles :=
    sameVisit .duplicateContent (config.settings .duplicateContent).options
  rw [layoutVisits, layoutVisits, sameFolders, sameVisit .folderNumbering, sameNames, sameTitles]

theorem run_relisted (relisted : disk.Relisted disk') (templates : FilePath) (config : Config)
    (selection : Selection) :
    run disk' templates config selection = run disk templates config selection := by
  rw [run, run]
  refine Logged.ofOutcome_andThen_congr (agree_docsOf_relisted relisted config) ?_
  intro docs docs' same
  have sameFiles : requireFiles docs' = requireFiles docs := by
    funext files
    rw [requireFiles, requireFiles, same.root]
  have sameRules (files : List String) :
      runRules config selection (inputOf docs' files templates config) =
        runRules config selection (inputOf docs files templates config) := by
    have sameDocs : (inputOf docs files templates config).docs.Relisted docs' := same
    exact runRules_relisted sameDocs config selection
  rw [discover_relisted same, sameFiles, funext sameRules]

theorem runLayout_relisted (relisted : disk.Relisted disk') (templates : FilePath)
    (config : Config) (layout : Layout) :
    runLayout disk' templates config layout = runLayout disk templates config layout := by
  rw [runLayout, runLayout]
  refine Logged.ofOutcome_andThen_congr (agree_docsOf_relisted relisted config) ?_
  intro docs docs' same
  have sameVisits (files : List String) :
      layoutVisits config layout (inputOf docs' files templates config) =
        layoutVisits config layout (inputOf docs files templates config) := by
    have sameDocs : (inputOf docs files templates config).docs.Relisted docs' := same
    exact layoutVisits_relisted sameDocs config layout
  simp only [discover_relisted same, sameVisits]

end Audit

/-- What does not change with the order in which folders list their entries: reports, checks of the
layout and copies of templates, with their faults, their messages and the trees that they leave. -/
structure IgnoresListingOrder (disk disk' : Disk) : Prop where
  run : ∀ templates config selection,
    Audit.run disk' templates config selection = Audit.run disk templates config selection
  runLayout : ∀ templates config layout,
    Audit.runLayout disk' templates config layout = Audit.runLayout disk templates config layout
  sync : ∀ docs templates category mode, Disk.EndAlike
    (Sync.run disk docs templates category mode) (Sync.run disk' docs templates category mode)

/-- Where two disks hold the same at each place, however their folders list it, nothing else tells
them apart. -/
theorem listing_order_is_ignored (disk disk' : Disk) (relisted : disk.Relisted disk') :
    IgnoresListingOrder disk disk' where
  run := Audit.run_relisted relisted
  runLayout := Audit.runLayout_relisted relisted
  sync := Sync.run_relisted relisted

/-- Both the top and the docs folder are listed in two orders. -/
theorem listing_order_is_ignored_two_folders :
    let first : String × Node := ("a.md", .file (Text.encode ['#', ' ', 'A']))
    let second : String × Node := ("b.md", .file (Text.encode ['#', ' ', 'B']))
    let disk : Disk :=
      { root := .folder [("docs", .folder [first, second]), ("templates", .folder [])]
        workingFolder := [] }
    let disk' : Disk :=
      { root := .folder [("templates", .folder []), ("docs", .folder [second, first])]
        workingFolder := [] }
    disk'.root.entries.map (·.1) ≠ disk.root.entries.map (·.1) ∧
      disk.Relisted disk' ∧ IgnoresListingOrder disk disk' := by
  intro first second disk disk'
  have docsDistinct : (Node.folder [first, second]).HasDistinctNames := by
    simp [Node.HasDistinctNames, Node.EachHasDistinctNames, first, second]
  have docsDistinct' : (Node.folder [second, first]).HasDistinctNames := by
    simp [Node.HasDistinctNames, Node.EachHasDistinctNames, first, second]
  have docs : (Node.folder [first, second]).Relisted (.folder [second, first]) :=
    .of_perm docsDistinct docsDistinct' (.swap first second [])
  have templates : (Node.folder []).Relisted (.folder []) :=
    .refl (by simp [Node.HasDistinctNames, Node.EachHasDistinctNames])
  have root : disk.root.Relisted disk'.root := by
    rw [Node.relisted_folder_iff]
    · refine ⟨by decide, ?_⟩
      intro name child child' member member'
      simp only [List.mem_cons, Prod.mk.injEq, List.not_mem_nil, or_false] at member member'
      rcases member with ⟨rfl, rfl⟩ | ⟨rfl, rfl⟩ <;> rcases member' with ⟨same, rfl⟩ | ⟨same, rfl⟩
      · exact absurd same (by decide)
      · exact docs
      · exact templates
      · exact absurd same (by decide)
    · simp [Node.HasDistinctNames, Node.EachHasDistinctNames, first, second]
    · simp [Node.HasDistinctNames, Node.EachHasDistinctNames, first, second]
  have relisted : disk.Relisted disk' := ⟨root, rfl⟩
  exact ⟨by decide, relisted, listing_order_is_ignored disk disk' relisted⟩

end DocAudit
