import DocAudit.Proofs.Document.CodeChange
import DocAudit.Rules.DuplicateTitles
import DocAudit.Rules.LanguageFolders
import DocAudit.Rules.LegacyFileNames
import DocAudit.Rules.Outline
import DocAudit.Rules.Terminology
import DocAudit.Rules.TodoComments
import Mathlib

/-!
Rules that look at prose alone. Between docs whose documents differ in code alone they make no
difference: they find the same, or stop with the same fault.
-/

namespace DocAudit

variable {before after : Docs} {files : List String}

namespace Docs

/-- The files read alike in two docs: none can be read in either, or their texts differ in code
alone. -/
def DifferInCode (before after : Docs) (files : List String) : Prop :=
  ∀ file ∈ files, Agree DocAudit.DifferInCode (before.text file) (after.text file)

theorem DifferInCode.agree_document (inCode : before.DifferInCode after files) {file : String}
    (member : file ∈ files) :
    Agree Document.SeenAlike (before.document file) (after.document file) := by
  apply (inCode file member).bind
  intro text text' differ
  exact .ok (differ.seenAlike file)

/-- What is found in a document by what is seen outside of code. -/
theorem DifferInCode.bind_document {α : Type} (inCode : before.DifferInCode after files)
    {file : String} (member : file ∈ files) {view view' : Document → Except Fault α}
    (same : ∀ document document', document.SeenAlike document' →
      view' document' = view document) :
    (after.document file >>= view') = (before.document file >>= view) := by
  refine (Agree.eq ((inCode.agree_document member).bind ?_)).symm
  intro document document' alike
  rw [same document document' alike]
  exact .refl (fun _ => rfl) _

theorem inEach_congr {findings findings' : String → Except Fault (List Issue)}
    (same : ∀ file ∈ files, findings' file = findings file) :
    inEach files findings' = inEach files findings := by
  rw [inEach, mapM_congr same, inEach]

end Docs

namespace Outline

theorem checkHeadings_inCode (inCode : before.DifferInCode after files) :
    checkHeadings after files = checkHeadings before files := by
  apply Docs.inEach_congr
  intro file member
  apply inCode.bind_document member
  intro document document' alike
  have sameJumps : jumps document'.file document'.headings =
      jumps document.file document.headings := by
    rw [alike.file, alike.headings]
  exact congrArg Except.ok sameJumps

end Outline

namespace LegacyFileNames

theorem check_inCode (inCode : before.DifferInCode after files) (options : Options) :
    check after files options = check before files options := by
  rw [check, check]
  apply bind_congr
  intro pattern
  apply Docs.inEach_congr
  intro file member
  apply bind_congr
  intro leftOut
  cases leftOut with
  | true => rfl
  | false =>
    apply inCode.bind_document member
    intro document document' alike
    rw [findings, findings, alike.file, alike.proseLines]

end LegacyFileNames

namespace Terminology

theorem check_inCode (inCode : before.DifferInCode after files) (terms : List Term) :
    check after files terms = check before files terms := by
  rw [check, check]
  apply bind_congr
  intro entries
  apply Docs.inEach_congr
  intro file member
  apply inCode.bind_document member
  intro document document' alike
  have sameFindings : entryFindings document' = entryFindings document := by
    funext entry
    rw [entryFindings, entryFindings, alike.file, alike.proseLines]
  rw [sameFindings]

end Terminology

namespace TodoComments

/-- A line of code shows nothing, so it has no comments and no fault comes of it. -/
theorem lineFindings_of_code {options : Options} (ignores : options.ignoreCodeBlocks.truthy = true)
    (tags : List (List Char)) (excluded : List Pattern) (file : String) {line : Line}
    (code : line.kind ≠ .prose) : lineFindings options tags excluded file line = .ok [] := by
  have hidden : visiblePart? options line = none := by
    rw [visiblePart?, if_pos]
    rw [ignores, Bool.true_and]
    exact bne_iff_ne.mpr code
  rw [lineFindings, hidden]
  rfl

theorem check_inCode (inCode : before.DifferInCode after files) {options : Options}
    (ignores : options.ignoreCodeBlocks.truthy = true) :
    check after files options = check before files options := by
  rw [check, check]
  apply bind_congr
  intro vocabulary
  apply bind_congr
  intro patterns
  apply bind_congr
  intro excluded
  apply Docs.inEach_congr
  intro file member
  apply bind_congr
  intro leftOut
  cases leftOut with
  | true => rfl
  | false =>
    apply inCode.bind_document member
    intro document document' alike
    congr 1
    apply mapM_eq_of_forall₂ _ alike.lines
    intro line line' alikeLine
    cases alikeLine with
    | same => rfl
    | code number text text' =>
      rw [lineFindings_of_code ignores _ _ _ (by simp),
        lineFindings_of_code ignores _ _ _ (by simp)]

end TodoComments

namespace DuplicateTitles

theorem titles_inCode (inCode : before.DifferInCode after files) :
    titles after files = titles before files := by
  rw [titles, titles]
  refine (Agree.eq ((Agree.mapM fun _ => inCode.agree_document).bind ?_)).symm
  intro documents documents' related
  refine .ok (filterMap_eq_of_forall₂ ?_ related).symm
  intro document document' alike
  rw [title?, title?, Document.firstHeading?, Document.firstHeading?, alike.headings, alike.file]

theorem check_inCode (inCode : before.DifferInCode after files) :
    check after files = check before files := by
  rw [check, check, titles_inCode inCode]

end DuplicateTitles

theorem LanguageFolders.headingCounts_inCode {text text' : List Char}
    (inCode : DifferInCode text text') : headingCounts text' = headingCounts text := by
  have alike := inCode.seenAlike ""
  simp only [headingCounts, Document.countHeadings, alike.headings]

/-- The rules that look at prose alone find the same in two docs, whatever their options are, as
long as those of the comments leave code out. -/
structure FindAlike (before after : Docs) (files : List String) : Prop where
  headings : Outline.checkHeadings after files = Outline.checkHeadings before files
  fileNames : ∀ options, LegacyFileNames.check after files options =
    LegacyFileNames.check before files options
  terms : ∀ terms, Terminology.check after files terms = Terminology.check before files terms
  comments : ∀ options : TodoComments.Options, options.ignoreCodeBlocks.truthy = true →
    TodoComments.check after files options = TodoComments.check before files options
  titles : DuplicateTitles.check after files = DuplicateTitles.check before files

/-- Changes inside of blocks of code change no finding of the rules that look at prose alone, nor
the numbers of headings by which a translation is compared with its source. -/
theorem prose_rules_ignore_code (before after : Docs) (files : List String)
    (inCode : before.DifferInCode after files) :
    FindAlike before after files ∧
      ∀ text text', DifferInCode text text' →
        LanguageFolders.headingCounts text' = LanguageFolders.headingCounts text := by
  constructor
  · exact {
      headings := Outline.checkHeadings_inCode inCode
      fileNames := LegacyFileNames.check_inCode inCode
      terms := Terminology.check_inCode inCode
      comments := fun _ => TodoComments.check_inCode inCode
      titles := DuplicateTitles.check_inCode inCode }
  · exact fun _ _ => LanguageFolders.headingCounts_inCode

/-- In a block that is never closed a heading takes the place of a comment. -/
theorem prose_rules_ignore_code_unclosed :
    let docsWith (content : String) : Docs :=
      { disk :=
          { root := .folder [("docs", .folder [("a.md", .file (Text.encode content.toList))])]
            workingFolder := [] }
        root := .fromTop ["docs"] }
    let before := docsWith "# A\n\x60\x60\x60\nTODO x\n"
    let after := docsWith "# A\n\x60\x60\x60\n# B\n"
    before.DifferInCode after ["a.md"] ∧ FindAlike before after ["a.md"] := by
  intro docsWith before after
  have readBefore : before.text "a.md" = .ok "# A\n\x60\x60\x60\nTODO x\n".toList := by cbv
  have readAfter : after.text "a.md" = .ok "# A\n\x60\x60\x60\n# B\n".toList := by cbv
  have inCode : before.DifferInCode after ["a.md"] := by
    rw [Docs.DifferInCode, List.forall_mem_singleton, readBefore, readAfter]
    have changed : ChangedInside 0
        (["# A".toList, "\x60\x60\x60".toList] ++ "TODO x".toList :: [[]])
        (["# A".toList, "\x60\x60\x60".toList] ++ "# B".toList :: [[]]) :=
      .replace (by decide) (by decide) (by decide)
    exact .ok changed
  exact ⟨inCode, (prose_rules_ignore_code before after ["a.md"] inCode).1⟩

end DocAudit
