import DocAudit.Proofs.TodoComments.Reports

/-!
The names under which comments are reported. A tag is found in any case, but its setting is looked
up by the upper case of what is written. The two go together as long as the tag is spelled plainly.
-/

namespace DocAudit.TodoComments

variable {docs : Docs} {files : List String} {options : Options} {vocabulary : List String}
  {issues : List Issue}

/-- A reported comment has the setting of its own name, which is that of a tag it is taken for just
if each letter is the letter of the tag or neither of the two is a stray letter. -/
theorem check_names_spellings {given : Entries} (built : Options.ofEntries given = .ok options)
    (checked : check docs files options = .ok issues) {issue : Issue} (reported : issue ∈ issues) :
    ∃ vocabulary, options.vocabulary = .ok vocabulary ∧
      ∃ file ∈ files, ∃ line visible, LooksAt docs options file line visible ∧
        ∃ front comment, IsFirstComment vocabulary visible front comment ∧
          ∃ setting severity, options.tagSetting comment.name = .ok setting ∧
            setting.severity = .reported severity ∧
            issue = finding file line comment.name setting.label severity comment ∧
            ∀ tag ∈ vocabulary, StandsIn visible front comment.tag comment.behind tag.toList →
              (comment.name = tag ↔
                List.Forall₂ Text.SpelledPlainly tag.toList comment.tag) := by
  obtain ⟨vocabulary, excluded, words, -, checked⟩ := exists_of_check checked
  obtain ⟨file, inFiles, kept, document, read, line, member, inLine, found, among⟩ :=
    (mem_inEach_iff checked).mp reported
  obtain ⟨visible, front, comment, setting, severity, shown, isFirst, known, severe, same⟩ :=
    mem_lineFindings found among
  refine ⟨vocabulary, words, file, inFiles, line, visible, ⟨kept, ⟨document, read, member⟩, shown⟩,
    front, comment, isFirst, setting, severity, known, severe, same, ?_⟩
  intro tag inVocabulary stands
  rw [← Text.toUpper_eq_iff stands.letters (isUpper_of_known built words inVocabulary),
    Comment.name, String.ext_iff, String.toList_ofList]

theorem check_names_spellings_ask :
    let docs := docsOf "a.md" "Ask: why\n"
    let options : Options := { customTags := .ofTexts ["ask"] }
    let line : Line := ⟨1, .prose, "Ask: why".toList⟩
    let issue := finding "a.md" line "ASK" .null .warn
      ⟨"Ask".toList, ": why".toList, "why".toList⟩
    Options.ofEntries [("custom_tags", .ofTexts ["ask"])] = .ok options ∧
      check docs ["a.md"] options = .ok [issue] ∧ issue ∈ [issue] ∧
      ∃ setting severity, options.tagSetting "ASK" = .ok setting ∧
        setting.severity = .reported severity ∧ issue.severity = some severity := by
  intro docs options line issue
  have built : Options.ofEntries [("custom_tags", .ofTexts ["ask"])] = .ok options := by cbv
  have checked : check docs ["a.md"] options = .ok [issue] := by
    let vocabulary := standardTags.map Prod.fst ++ ["ASK"]
    have words : options.vocabulary = .ok vocabulary := by cbv
    let document := Document.ofText "a.md" "Ask: why\n".toList
    have read : docs.document "a.md" = .ok document := by cbv
    have lines : document.lines = [line, ⟨2, .prose, []⟩] := by decide +kernel
    have sorted : longestFirst vocabulary =
        ["OPTIMIZE", "QUESTION", "WARNING", "REVIEW", "FIXME", "TODO", "HACK", "NOTE", "XXX",
          "BUG", "ASK"].map String.toList := by
      cbv
    let comment : Comment := ⟨"Ask".toList, ": why".toList, "why".toList⟩
    have asked : (visiblePart? options line).bind (comment? (longestFirst vocabulary) none) =
        some comment := by
      rw [sorted]
      decide +kernel
    have name : comment.name = "ASK" := by decide +kernel
    have known : options.tagSetting comment.name = .ok { severity := .reported .warn } := by
      rw [name]
      cbv
    rw [check_of_single_line words rfl rfl read lines asked known, commentFindings, name]
    rfl
  have reported : issue ∈ [issue] := List.mem_singleton_self _
  refine ⟨built, checked, reported, ?_⟩
  obtain ⟨_, -, _, -, _, _, -, _, comment, -, setting, severity, known, severe, same, -⟩ :=
    check_names_spellings built checked reported
  have name : "ASK" = comment.name := NamesTag.unique ⟨_, _, _, _, _, rfl⟩ ⟨_, _, _, _, _, same⟩
  refine ⟨setting, severity, name ▸ known, severe, ?_⟩
  exact congrArg Issue.severity same

/-- A tag that is off is reported where a dotted letter stands for one of its own. -/
theorem check_reports_tag_at_off :
    let docs := docsOf "a.md" "H\u0130NT: x\n"
    let options : Options := { tags := standardTags ++ [("HINT", { severity := .off })] }
    let vocabulary := options.tags.map Prod.fst
    let line : Line := ⟨1, .prose, "H\u0130NT: x".toList⟩
    Options.ofEntries [("tags", .table [("hint", .text "off")])] = .ok options ∧
      options.tagSetting "HINT" = .ok { severity := .off } ∧
      options.vocabulary = .ok vocabulary ∧ "H\u0130NT" ∉ vocabulary ∧
      StandsIn line.text [] "H\u0130NT".toList ": x".toList "HINT".toList ∧
      check docs ["a.md"] options = .ok [finding "a.md" line "H\u0130NT" .null .warn
        ⟨"H\u0130NT".toList, ": x".toList, ['x']⟩] := by
  intro docs options vocabulary line
  have built : Options.ofEntries [("tags", .table [("hint", .text "off")])] = .ok options := by
    cbv
  have words : options.vocabulary = .ok vocabulary := by cbv
  let document := Document.ofText "a.md" "H\u0130NT: x\n".toList
  have read : docs.document "a.md" = .ok document := by cbv
  have lines : document.lines = [line, ⟨2, .prose, []⟩] := by decide +kernel
  have stands : StandsIn line.text [] "H\u0130NT".toList ": x".toList "HINT".toList :=
    ⟨rfl, by decide +kernel, by decide +kernel, by decide +kernel, by decide⟩
  refine ⟨built, by cbv, words, by decide, stands, ?_⟩
  have sorted : longestFirst vocabulary =
      ["OPTIMIZE", "QUESTION", "WARNING", "REVIEW", "FIXME", "TODO", "HACK", "NOTE", "HINT", "XXX",
        "BUG"].map String.toList := by
    cbv
  let comment : Comment := ⟨"H\u0130NT".toList, ": x".toList, ['x']⟩
  have dotted : (visiblePart? options line).bind (comment? (longestFirst vocabulary) none) =
      some comment := by
    rw [sorted]
    decide +kernel
  have name : comment.name = "H\u0130NT" := by decide +kernel
  have known : options.tagSetting comment.name = .ok { severity := .reported .warn } := by
    rw [name]
    cbv
  rw [check_of_single_line words rfl rfl read lines dotted known, commentFindings, name]
  rfl

end DocAudit.TodoComments
