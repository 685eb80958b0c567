import DocAudit.Proofs.Config.ReadOptions
import DocAudit.Proofs.Document.NumberedLines
import DocAudit.Proofs.Faults
import DocAudit.Proofs.Text.Case
import DocAudit.Proofs.TodoComments.FirstComment
import Mathlib

/-!
What is reported of a line: its first comment, under the upper case of the tag as it is written
there, unless that name is off. The comment takes up the line, so that no other tag of the line is
reported, whatever the first one means.
-/

namespace DocAudit.TodoComments

variable {docs : Docs} {files : List String} {options : Options} {vocabulary : List String}
  {issues : List Issue}

/-! ## Known tags -/

def IsUpper (name : String) : Prop :=
  ∀ c ∈ name.toList, Text.upperLetter c = [c]

theorem isUpper_upper (text : String) : IsUpper (upper text) := by
  intro c member
  rw [upper, String.toList_ofList] at member
  exact Text.upperLetter_of_mem_toUpper member

instance (name : String) : Decidable (IsUpper name) :=
  decidable_of_iff (name.toList.all fun c => Text.upperLetter c == [c]) (by simp [IsUpper])

def Tags.AreUpper (tags : Tags) : Prop :=
  ∀ entry ∈ tags, IsUpper entry.1

theorem areUpper_standardTags : Tags.AreUpper standardTags := by
  have known : standardTags.all (fun entry => decide (IsUpper entry.1)) = true := by decide +kernel
  exact fun entry member => of_decide_eq_true (List.all_eq_true.mp known entry member)

theorem areUpper_tags {defaultSeverity value : Value} {tags : Tags}
    (read : Tags.ofValue defaultSeverity value = .ok tags) : tags.AreUpper := by
  by_cases truthy : value.truthy = true
  · rw [Tags.ofValue.eq_def, if_neg (by simp [truthy])] at read
    cases value with
    | table entries =>
      refine foldlM_invariant (fun given _ tags next known read => ?_) areUpper_standardTags read
      obtain ⟨setting, -, ⟨⟩⟩ := exists_of_bind_eq_ok read
      intro entry member
      rcases Tags.mem_set member with rfl | among
      · exact isUpper_upper given.1
      · exact known entry among
    | _ => cases read
  · rw [Tags.ofValue_of_not_truthy defaultSeverity truthy] at read
    cases read
    exact areUpper_standardTags

theorem isUpper_customTag {value : Value} {tag : String}
    (read : Options.customTag value = .ok tag) : IsUpper tag := by
  cases value with
  | text given =>
    cases read
    exact isUpper_upper given
  | _ => cases read

/-- Options that have been read look for tags in upper case. -/
theorem isUpper_of_known {given : Entries} (built : Options.ofEntries given = .ok options)
    (words : options.vocabulary = .ok vocabulary) {tag : String} (known : tag ∈ vocabulary) :
    IsUpper tag := by
  rw [ofEntries_eq] at built
  obtain ⟨tags, readTags, built⟩ := exists_of_bind_eq_ok built
  obtain ⟨_, -, ⟨⟩⟩ := exists_of_bind_eq_ok built
  obtain ⟨items, -, words⟩ := exists_of_bind_eq_ok words
  obtain ⟨customs, readCustoms, ⟨⟩⟩ := exists_of_bind_eq_ok words
  rcases List.mem_append.mp (List.mem_eraseDups.mp known) with standing | custom
  · obtain ⟨entry, member, rfl⟩ := List.mem_map.mp standing
    exact areUpper_tags readTags entry member
  · obtain ⟨value, -, read⟩ := exists_of_mem_mapM readCustoms custom
    exact isUpper_customTag read

/-! ## What is found in a line -/

/-- The name under which a comment is reported. -/
def Comment.name (comment : Comment) : String :=
  String.ofList (Text.toUpper comment.tag)

/-- What is written as the tag itself is reported under it. -/
theorem name_of_own_spelling {comment : Comment} {tag : String} (isUpper : IsUpper tag)
    (spelled : comment.tag = tag.toList) : comment.name = tag := by
  rw [Comment.name, spelled, Text.toUpper_of_fixed isUpper, String.ofList_toList]

/-- What is reported of a comment by the setting of its name. -/
def commentFindings (excluded : List Pattern) (file : String) (line : Line) (comment : Comment)
    (setting : TagSetting) : List Issue :=
  match setting.severity with
  | .off => []
  | .reported severity =>
    if excluded.any (·.occursIn (comment.tag ++ comment.behind)) then []
    else [finding file line comment.name setting.label severity comment]

theorem mem_commentFindings {excluded : List Pattern} {file : String} {line : Line}
    {comment : Comment} {setting : TagSetting} {issue : Issue}
    (member : issue ∈ commentFindings excluded file line comment setting) :
    ∃ severity, setting.severity = .reported severity ∧
      issue = finding file line comment.name setting.label severity comment := by
  rw [commentFindings] at member
  split at member
  · cases member
  · next severity known =>
    split at member
    · cases member
    · exact ⟨severity, known, List.mem_singleton.mp member⟩

section lineFindings

variable {tags : List (List Char)} {excluded : List Pattern} {file : String} {line : Line}

theorem lineFindings_of_none
    (nothing : (visiblePart? options line).bind (comment? tags none) = none) :
    lineFindings options tags excluded file line = .ok [] := by
  rw [lineFindings, nothing]
  rfl

theorem lineFindings_of_comment {comment : Comment}
    (found : (visiblePart? options line).bind (comment? tags none) = some comment) :
    lineFindings options tags excluded file line =
      options.tagSetting comment.name >>= fun setting =>
        .ok (commentFindings excluded file line comment setting) := by
  rw [lineFindings, found]
  refine bind_congr fun setting => ?_
  rw [commentFindings]
  cases setting.severity with
  | off => rfl
  | reported severity =>
    dsimp only
    split <;> rfl

theorem succeeds_lineFindings (severe : Succeeds (TagSeverity.ofValue options.defaultSeverity)) :
    Succeeds (lineFindings options tags excluded file line) := by
  cases found : (visiblePart? options line).bind (comment? tags none) with
  | none =>
    rw [lineFindings_of_none found]
    exact .ok []
  | some comment =>
    rw [lineFindings_of_comment found]
    exact Succeeds.bind_ok_iff.mpr (Succeeds.bind_ok_iff.mpr severe)

/-- An issue tells of the first comment of its line. -/
theorem mem_lineFindings {found : List Issue} {issue : Issue}
    (read : lineFindings options (longestFirst vocabulary) excluded file line = .ok found)
    (member : issue ∈ found) :
    ∃ visible front comment setting severity, visiblePart? options line = some visible ∧
      IsFirstComment vocabulary visible front comment ∧
      options.tagSetting comment.name = .ok setting ∧ setting.severity = .reported severity ∧
      issue = finding file line comment.name setting.label severity comment := by
  cases commented : (visiblePart? options line).bind (comment? (longestFirst vocabulary) none) with
  | none =>
    cases (lineFindings_of_none commented).symm.trans read
    cases member
  | some comment =>
    rw [lineFindings_of_comment commented] at read
    obtain ⟨setting, known, ⟨⟩⟩ := exists_of_bind_eq_ok read
    obtain ⟨visible, shown, commented⟩ := Option.bind_eq_some_iff.mp commented
    obtain ⟨front, first⟩ := comment?_eq_some_iff.mp commented
    obtain ⟨severity, reported, same⟩ := mem_commentFindings member
    exact ⟨visible, front, comment, setting, severity, shown, first, known, reported, same⟩

end lineFindings

/-! ## What is found in documents -/

/-- A line of a file that is checked, and what is looked at of it. -/
structure LooksAt (docs : Docs) (options : Options) (file : String) (line : Line)
    (visible : List Char) : Prop where
  kept : isExcluded options file = .ok false
  stands : ∃ document, docs.document file = .ok document ∧ line ∈ document.lines
  shown : visiblePart? options line = some visible

/-- What is found in one file. -/
def fileFindings (docs : Docs) (options : Options) (tags : List (List Char))
    (excluded : List Pattern) (file : String) : Except Fault (List Issue) := do
  if ← isExcluded options file then return []
  let document ← docs.document file
  return (← document.lines.mapM (lineFindings options tags excluded file)).flatten

theorem check_eq (docs : Docs) (files : List String) (options : Options) :
    check docs files options =
      options.vocabulary >>= fun vocabulary =>
        options.excludePatterns.items >>= fun items =>
          items.mapM (·.pattern) >>= fun excluded =>
            Docs.inEach files (fileFindings docs options (longestFirst vocabulary) excluded) :=
  rfl

section fileFindings

variable {tags : List (List Char)} {excluded : List Pattern} {file : String}

theorem fileFindings_of_excluded (leftOut : isExcluded options file = .ok true) :
    fileFindings docs options tags excluded file = .ok [] := by
  rw [fileFindings, leftOut]
  rfl

theorem fileFindings_of_kept (kept : isExcluded options file = .ok false) :
    fileFindings docs options tags excluded file =
      docs.document file >>= fun document =>
        document.lines.mapM (lineFindings options tags excluded file) >>= fun found =>
          .ok found.flatten := by
  rw [fileFindings, kept]
  rfl

theorem mem_fileFindings_iff {found : List Issue}
    (read : fileFindings docs options tags excluded file = .ok found) {issue : Issue} :
    issue ∈ found ↔ isExcluded options file = .ok false ∧
      ∃ document, docs.document file = .ok document ∧ ∃ line ∈ document.lines,
        ∃ inLine, lineFindings options tags excluded file line = .ok inLine ∧ issue ∈ inLine := by
  cases leftOut : isExcluded options file with
  | error fault =>
    rw [fileFindings, leftOut] at read
    cases read
  | ok answer =>
    cases answer with
    | true =>
      cases (fileFindings_of_excluded leftOut).symm.trans read
      simp
    | false =>
      rw [fileFindings_of_kept leftOut] at read
      obtain ⟨document, readDocument, read⟩ := exists_of_bind_eq_ok read
      obtain ⟨inLines, readLines, ⟨⟩⟩ := exists_of_bind_eq_ok read
      rw [mem_flatten_of_mapM readLines]
      simp [readDocument]

theorem succeeds_fileFindings (severe : Succeeds (TagSeverity.ofValue options.defaultSeverity))
    (readable : isExcluded options file = .ok true ∨
      isExcluded options file = .ok false ∧ Succeeds (docs.document file)) :
    Succeeds (fileFindings docs options tags excluded file) := by
  rcases readable with leftOut | ⟨kept, document, read⟩
  · rw [fileFindings_of_excluded leftOut]
    exact .ok []
  · rw [fileFindings_of_kept kept, read]
    exact Succeeds.bind_ok_iff.mpr (Succeeds.mapM_iff.mpr fun _ _ => succeeds_lineFindings severe)

end fileFindings

/-- No two lines of a document have one number. -/
theorem line_unique {file : String} {document : Document} (read : docs.document file = .ok document)
    {line other : Line} (member : line ∈ document.lines) (otherMember : other ∈ document.lines)
    (same : line.number = other.number) : line = other := by
  obtain ⟨text, -, ⟨⟩⟩ := exists_of_bind_eq_ok read
  have found := getElem?_number_numberLines member
  have otherFound := getElem?_number_numberLines otherMember
  rw [same] at found
  exact Option.some_inj.mp (found.symm.trans otherFound)

/-- An issue that names a tag. -/
def NamesTag (issue : Issue) (tag : String) : Prop :=
  ∃ file line label severity comment, issue = finding file line tag label severity comment

theorem NamesTag.unique {issue : Issue} {tag other : String} (names : NamesTag issue tag)
    (namesOther : NamesTag issue other) : tag = other := by
  obtain ⟨_, _, _, _, _, rfl⟩ := names
  obtain ⟨_, _, _, _, _, same⟩ := namesOther
  have sameSuggestion := congrArg Issue.suggestion same
  simpa [finding, String.ext_iff, toString] using sameSuggestion

theorem exists_of_check (checked : check docs files options = .ok issues) :
    ∃ vocabulary excluded, options.vocabulary = .ok vocabulary ∧
      (options.excludePatterns.items >>= fun items => items.mapM (·.pattern)) = .ok excluded ∧
      Docs.inEach files (fileFindings docs options (longestFirst vocabulary) excluded) =
        .ok issues := by
  rw [check_eq] at checked
  obtain ⟨vocabulary, words, checked⟩ := exists_of_bind_eq_ok checked
  obtain ⟨items, hasItems, checked⟩ := exists_of_bind_eq_ok checked
  obtain ⟨excluded, patterns, checked⟩ := exists_of_bind_eq_ok checked
  refine ⟨vocabulary, excluded, words, ?_, checked⟩
  rw [hasItems]
  exact patterns

theorem mem_inEach_iff {tags : List (List Char)} {excluded : List Pattern}
    (checked : Docs.inEach files (fileFindings docs options tags excluded) = .ok issues)
    {issue : Issue} :
    issue ∈ issues ↔ ∃ file ∈ files, isExcluded options file = .ok false ∧
      ∃ document, docs.document file = .ok document ∧ ∃ line ∈ document.lines,
        ∃ inLine, lineFindings options tags excluded file line = .ok inLine ∧ issue ∈ inLine := by
  obtain ⟨found, readFiles, ⟨⟩⟩ := exists_of_bind_eq_ok checked
  rw [mem_flatten_of_mapM readFiles]
  refine exists_congr fun file => and_congr_right fun member => ?_
  obtain ⟨inFile, read⟩ := Succeeds.mapM_iff.mp ⟨found, readFiles⟩ file member
  rw [← mem_fileFindings_iff read]
  simp [read]

theorem succeeds_check (unfiltered : options.excludePatterns.items = .ok [])
    (words : options.vocabulary = .ok vocabulary)
    (severe : Succeeds (TagSeverity.ofValue options.defaultSeverity))
    (readable : ∀ file ∈ files, isExcluded options file = .ok true ∨
      isExcluded options file = .ok false ∧ Succeeds (docs.document file)) :
    Succeeds (check docs files options) := by
  rw [check_eq, words, unfiltered]
  exact Succeeds.bind_ok_iff.mpr (Succeeds.mapM_iff.mpr fun file member =>
    succeeds_fileFindings severe (readable file member))

/-- A tag is reported on a line when some issue of that line names it. -/
def IsReportedOn (issues : List Issue) (file : String) (line : Line) (tag : String) : Prop :=
  ∃ issue ∈ issues, issue.file = file ∧ issue.line = some line.number ∧ NamesTag issue tag

/-- What is reported on a line is its first comment. -/
theorem name_of_reported {file : String} {line : Line} {visible front : List Char}
    {first : Comment} {tag : String} (checked : check docs files options = .ok issues)
    (words : options.vocabulary = .ok vocabulary) (looked : LooksAt docs options file line visible)
    (isFirst : IsFirstComment vocabulary visible front first)
    (reported : IsReportedOn issues file line tag) : first.name = tag := by
  obtain ⟨issue, reported, inFile, onLine, names⟩ := reported
  obtain ⟨vocabulary', excluded, words', -, checked⟩ := exists_of_check checked
  cases words.symm.trans words'
  obtain ⟨file', -, -, document', read', line', member', inLine, found, among⟩ :=
    (mem_inEach_iff checked).mp reported
  obtain ⟨visible', front', first', setting, severity, shown', isFirst', -, -, rfl⟩ :=
    mem_lineFindings found among
  obtain ⟨document, read, member⟩ := looked.stands
  cases inFile
  cases read.symm.trans read'
  cases line_unique read member member' (Option.some_inj.mp onLine).symm
  cases looked.shown.symm.trans shown'
  rw [isFirst.unique isFirst']
  exact NamesTag.unique ⟨_, _, _, _, _, rfl⟩ names

/-- The first comment of a line is reported where no pattern leaves it out and its name is not
off. -/
theorem mem_of_first {file : String} {line : Line} {visible front : List Char} {first : Comment}
    {setting : TagSetting} {severity : IssueSeverity}
    (unfiltered : options.excludePatterns.items = .ok [])
    (checked : check docs files options = .ok issues)
    (words : options.vocabulary = .ok vocabulary) (inFiles : file ∈ files)
    (looked : LooksAt docs options file line visible)
    (isFirst : IsFirstComment vocabulary visible front first)
    (known : options.tagSetting first.name = .ok setting)
    (reported : setting.severity = .reported severity) :
    finding file line first.name setting.label severity first ∈ issues := by
  obtain ⟨vocabulary', excluded, words', patterns, checked⟩ := exists_of_check checked
  cases words.symm.trans words'
  rw [unfiltered] at patterns
  cases patterns
  obtain ⟨document, read, member⟩ := looked.stands
  have commented : (visiblePart? options line).bind (comment? (longestFirst vocabulary) none) =
      some first := by
    rw [looked.shown, Option.bind_some, comment?_eq_some_iff]
    exact ⟨front, isFirst⟩
  have found : lineFindings options (longestFirst vocabulary) [] file line =
      .ok [finding file line first.name setting.label severity first] := by
    rw [lineFindings_of_comment commented, known]
    refine congrArg Except.ok ?_
    rw [commentFindings, reported]
    rfl
  exact (mem_inEach_iff checked).mpr ⟨file, inFiles, looked.kept, document, read, line, member, _,
    found, List.mem_singleton_self _⟩

/-! ## What is reported of a single line -/

theorem lineFindings_of_empty {tags : List (List Char)} {excluded : List Pattern} {file : String}
    {line : Line} (empty : line.text = []) :
    lineFindings options tags excluded file line = .ok [] := by
  refine lineFindings_of_none ?_
  rw [visiblePart?, empty]
  split_ifs <;> rfl

/-- What is reported of a file with one line, which has a comment. -/
theorem check_of_single_line {file : String} {document : Document} {line : Line}
    {comment : Comment} {setting : TagSetting}
    (words : options.vocabulary = .ok vocabulary)
    (unfiltered : options.excludePatterns.items = .ok [])
    (kept : isExcluded options file = .ok false) (read : docs.document file = .ok document)
    (lines : document.lines = [line, ⟨2, .prose, []⟩])
    (found : (visiblePart? options line).bind (comment? (longestFirst vocabulary) none) =
      some comment)
    (known : options.tagSetting comment.name = .ok setting) :
    check docs [file] options = .ok (commentFindings [] file line comment setting) := by
  have inLines : document.lines.mapM (lineFindings options (longestFirst vocabulary) [] file) =
      .ok [commentFindings [] file line comment setting, []] := by
    rw [lines, List.mapM_cons, List.mapM_cons, lineFindings_of_comment found, known,
      lineFindings_of_empty rfl]
    rfl
  have inFile : fileFindings docs options (longestFirst vocabulary) [] file =
      .ok (commentFindings [] file line comment setting) := by
    rw [fileFindings_of_kept kept, read]
    change (document.lines.mapM _ >>= fun found => Except.ok found.flatten) = _
    rw [inLines]
    simp [bind, Except.bind]
  rw [check_eq, words, unfiltered]
  change Docs.inEach [file] (fileFindings docs options (longestFirst vocabulary) []) = _
  rw [Docs.inEach, List.mapM_cons, inFile]
  simp [pure, Except.pure, bind, Except.bind]

/-- Docs with one file. -/
def docsOf (name text : String) : Docs where
  disk :=
    { root := .folder [("docs", .folder [(name, .file (Text.encode text.toList))])]
      workingFolder := [] }
  root := .fromTop ["docs"]

/-- The tags that are looked for without options, longer ones first. -/
theorem longestFirst_standardTags :
    longestFirst (standardTags.map Prod.fst) =
      ["OPTIMIZE", "QUESTION", "WARNING", "REVIEW", "FIXME", "TODO", "HACK", "NOTE", "XXX",
        "BUG"].map String.toList := by
  cbv

/-! ## Which tags are reported -/

/-- Where nothing is left out and everything can be read the check returns. A tag that is not off
and stands in a line is reported there just if the first comment of the line has its name; so it is
where it begins that comment in its own spelling. -/
theorem check_reports_first_comments {given : Entries}
    (built : Options.ofEntries given = .ok options)
    (unfiltered : options.excludePatterns.items = .ok [])
    (words : options.vocabulary = .ok vocabulary)
    (severe : Succeeds (TagSeverity.ofValue options.defaultSeverity))
    (readable : ∀ file ∈ files, isExcluded options file = .ok true ∨
      isExcluded options file = .ok false ∧ Succeeds (docs.document file)) :
    ∃ issues, check docs files options = .ok issues ∧
      ∀ file ∈ files, ∀ line visible, LooksAt docs options file line visible →
        ∀ tag ∈ vocabulary, ∀ setting severity, options.tagSetting tag = .ok setting →
          setting.severity = .reported severity →
          ∀ front written behind, StandsIn visible front written behind tag.toList →
            ∃ front' first, IsFirstComment vocabulary visible front' first ∧
              (IsReportedOn issues file line tag ↔ first.name = tag) ∧
              (first.tag = tag.toList → IsReportedOn issues file line tag) := by
  obtain ⟨issues, checked⟩ := succeeds_check unfiltered words severe readable
  refine ⟨issues, checked, ?_⟩
  intro file inFiles line visible looked tag known setting severity hasSetting reported
    front written behind stands
  obtain ⟨first, found⟩ := exists_comment? known stands
  obtain ⟨front', isFirst⟩ := comment?_eq_some_iff.mp found
  have named : first.name = tag → IsReportedOn issues file line tag := by
    rintro rfl
    exact ⟨_, mem_of_first unfiltered checked words inFiles looked isFirst hasSetting reported,
      rfl, rfl, _, _, _, _, _, rfl⟩
  refine ⟨front', first, isFirst, ⟨name_of_reported checked words looked isFirst, named⟩, ?_⟩
  intro spelled
  exact named (name_of_own_spelling (isUpper_of_known built words known) spelled)

theorem check_reports_first_comments_fixme :
    let docs := docsOf "a.md" "FIXME: sort, then TODO: test\n"
    let options : Options := {}
    let vocabulary := standardTags.map Prod.fst
    let line : Line := ⟨1, .prose, "FIXME: sort, then TODO: test".toList⟩
    Options.ofEntries [] = .ok options ∧ options.excludePatterns.items = .ok [] ∧
      options.vocabulary = .ok vocabulary ∧
      Succeeds (TagSeverity.ofValue options.defaultSeverity) ∧
      (∀ file ∈ ["a.md"], isExcluded options file = .ok true ∨
        isExcluded options file = .ok false ∧ Succeeds (docs.document file)) ∧
      LooksAt docs options "a.md" line line.text ∧
      ∃ issues, check docs ["a.md"] options = .ok issues ∧
        IsReportedOn issues "a.md" line "FIXME" := by
  intro docs options vocabulary line
  have built : Options.ofEntries [] = .ok options := rfl
  have unfiltered : options.excludePatterns.items = .ok [] := rfl
  have words : options.vocabulary = .ok vocabulary := by cbv
  have severe : Succeeds (TagSeverity.ofValue options.defaultSeverity) := ⟨.reported .warn, rfl⟩
  have kept : isExcluded options "a.md" = .ok false := rfl
  let document := Document.ofText "a.md" "FIXME: sort, then TODO: test\n".toList
  have read : docs.document "a.md" = .ok document := by cbv
  have readable : ∀ file ∈ ["a.md"], isExcluded options file = .ok true ∨
      isExcluded options file = .ok false ∧ Succeeds (docs.document file) := by
    simpa using .inr ⟨kept, document, read⟩
  have looked : LooksAt docs options "a.md" line line.text :=
    ⟨kept, ⟨document, read, by decide +kernel⟩, by decide +kernel⟩
  have stands : StandsIn line.text [] "FIXME".toList ": sort, then TODO: test".toList
      "FIXME".toList :=
    ⟨rfl, by decide +kernel, by decide +kernel, by decide +kernel, by decide⟩
  refine ⟨built, unfiltered, words, severe, readable, looked, ?_⟩
  obtain ⟨issues, checked, told⟩ :=
    check_reports_first_comments built unfiltered words severe readable
  obtain ⟨front, first, isFirst, -, reported⟩ := told "a.md" (List.mem_singleton_self _) line
    line.text looked "FIXME" (by decide) _ .warn rfl rfl _ _ _ stands
  refine ⟨issues, checked, reported ?_⟩
  have found := comment?_eq_some_iff.mpr ⟨front, isFirst⟩
  have known : comment? (longestFirst vocabulary) none line.text =
      some ⟨"FIXME".toList, ": sort, then TODO: test".toList, "sort, then TODO: test".toList⟩ := by
    rw [longestFirst_standardTags]
    decide +kernel
  cases Option.some_inj.mp (found.symm.trans known)
  rfl

/-- A tag behind another one that is off is not reported. -/
theorem check_misses_tag_behind_note :
    let docs := docsOf "a.md" "NOTE: see FIXME: broken\n"
    let options : Options := {}
    let vocabulary := standardTags.map Prod.fst
    let line : Line := ⟨1, .prose, "NOTE: see FIXME: broken".toList⟩
    Options.ofEntries [] = .ok options ∧ options.excludePatterns.items = .ok [] ∧
      options.vocabulary = .ok vocabulary ∧ LooksAt docs options "a.md" line line.text ∧
      "FIXME" ∈ vocabulary ∧
      options.tagSetting "FIXME" = .ok (reportedTag .warn "Needs fix") ∧
      StandsIn line.text "NOTE: see ".toList "FIXME".toList ": broken".toList "FIXME".toList ∧
      check docs ["a.md"] options = .ok [] := by
  intro docs options vocabulary line
  have unfiltered : options.excludePatterns.items = .ok [] := rfl
  have words : options.vocabulary = .ok vocabulary := by cbv
  have kept : isExcluded options "a.md" = .ok false := rfl
  let document := Document.ofText "a.md" "NOTE: see FIXME: broken\n".toList
  have read : docs.document "a.md" = .ok document := by cbv
  have lines : document.lines = [line, ⟨2, .prose, []⟩] := by decide +kernel
  have looked : LooksAt docs options "a.md" line line.text :=
    ⟨kept, ⟨document, read, by simp [lines]⟩, by decide +kernel⟩
  have stands : StandsIn line.text "NOTE: see ".toList "FIXME".toList ": broken".toList
      "FIXME".toList :=
    ⟨by decide +kernel, by decide +kernel, by decide +kernel, by decide +kernel, by decide⟩
  refine ⟨rfl, unfiltered, words, looked, by decide, rfl, stands, ?_⟩
  have note : (visiblePart? options line).bind (comment? (longestFirst vocabulary) none) =
      some ⟨"NOTE".toList, ": see FIXME: broken".toList, "see FIXME: broken".toList⟩ := by
    rw [longestFirst_standardTags]
    decide +kernel
  exact check_of_single_line words unfiltered kept read lines note rfl

end DocAudit.TodoComments
