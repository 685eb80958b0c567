import DocAudit.Docs
import DocAudit.Proofs.Faults
import DocAudit.Proofs.Outcome

/-!
What is found in documents that have to be read first. Where each file can be read, what is found
is what each document shows, file after file; otherwise nothing is.
-/

namespace DocAudit

variable {Shown : Type} {docs : Docs} {file : String} {document : Document}

theorem file_of_document (read : docs.document file = .ok document) : document.file = file := by
  obtain ⟨text, -, scanned⟩ := exists_of_bind_eq_ok read
  cases scanned
  rfl

theorem document_of_text {text : List Char} (read : docs.text file = .ok text) :
    docs.document file = .ok (.ofText file text) := by
  rw [Docs.document, read]
  rfl

namespace Docs

/-- What a document shows if its file can be read. -/
def shown (docs : Docs) (view : Document → List Shown) (file : String) : List Shown :=
  ((docs.document file).toOption.map view).getD []

theorem shown_of_document (read : docs.document file = .ok document)
    (view : Document → List Shown) : docs.shown view file = view document := by
  rw [shown, read]
  rfl

theorem mem_shown_iff {view : Document → List Shown} {item : Shown} :
    item ∈ docs.shown view file ↔
      ∃ document, docs.document file = .ok document ∧ item ∈ view document := by
  cases read : docs.document file with
  | error fault => simp [shown, read, Except.toOption]
  | ok document => simp [shown_of_document read]

/-- Every document that has been read is the scan of some text. -/
theorem exists_ofText (read : docs.document file = .ok document) :
    ∃ text, document = .ofText file text := by
  obtain ⟨text, -, scanned⟩ := exists_of_bind_eq_ok read
  exact ⟨text, (Except.ok.inj scanned).symm⟩

theorem inEachDocument_eq_ok_iff {files : List String} {findings : Document → List Issue}
    {issues : List Issue} :
    docs.inEachDocument files findings = .ok issues ↔
      (∀ file ∈ files, Succeeds (docs.document file)) ∧
        issues = files.flatMap (docs.shown findings) := by
  have each (file : String) (found : List Issue) :
      (docs.document file >>= fun document => .ok (findings document)) = .ok found ↔
        Succeeds (docs.document file) ∧ found = docs.shown findings file := by
    cases read : docs.document file with
    | error fault => exact iff_of_false error_ne_ok fun facts => Succeeds.error_iff.mp facts.1
    | ok document =>
      rw [shown_of_document read]
      exact ⟨fun same => ⟨.ok document, (Except.ok.inj same).symm⟩, fun facts => facts.2 ▸ rfl⟩
  change (files.mapM (fun file => docs.document file >>= fun document => .ok (findings document)) >>=
    fun found => Except.ok found.flatten) = _ ↔ _
  rw [List.flatMap_def]
  constructor
  · intro returned
    obtain ⟨found, read, same⟩ := exists_of_bind_eq_ok returned
    obtain ⟨readable, rfl⟩ := (mapM_eq_ok_iff each).mp read
    exact ⟨readable, (Except.ok.inj same).symm⟩
  · rintro ⟨readable, rfl⟩
    rw [(mapM_eq_ok_iff each).mpr ⟨readable, rfl⟩]
    rfl

theorem succeeds_inEachDocument_iff {files : List String} {findings : Document → List Issue} :
    Succeeds (docs.inEachDocument files findings) ↔
      ∀ file ∈ files, Succeeds (docs.document file) := by
  constructor
  · rintro ⟨issues, returned⟩
    exact (inEachDocument_eq_ok_iff.mp returned).1
  · intro readable
    exact ⟨_, inEachDocument_eq_ok_iff.mpr ⟨readable, rfl⟩⟩

/-- As far as the outcome goes, all documents are read before anything is found in them. -/
theorem inEachDocument_eq (docs : Docs) (files : List String) (findings : Document → List Issue) :
    docs.inEachDocument files findings =
      files.mapM docs.document >>= fun documents => .ok (documents.flatMap findings) := by
  change (files.mapM (fun file => docs.document file >>= fun document => .ok (findings document)) >>=
    fun found => Except.ok found.flatten) = _
  rw [mapM_bind_ok]
  cases files.mapM docs.document with
  | error fault => rfl
  | ok documents => exact congrArg Except.ok List.flatMap_def.symm

theorem inEachDocument_congr {files : List String} {findings findings' : Document → List Issue}
    (same : ∀ file ∈ files, ∀ document, docs.document file = .ok document →
      findings' document = findings document) :
    docs.inEachDocument files findings' = docs.inEachDocument files findings := by
  refine congrArg (· >>= fun found => Except.ok found.flatten) (mapM_congr fun file member => ?_)
  cases read : docs.document file with
  | error fault => rfl
  | ok document => exact congrArg Except.ok (same file member document read)

end Docs

end DocAudit
