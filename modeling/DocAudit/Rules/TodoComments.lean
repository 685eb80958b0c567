import DocAudit.Docs
import DocAudit.Document.InlineCode
import DocAudit.Rules.Options
import DocAudit.Text.Case
import DocAudit.Text.Word

/-!
Comments that begin with a tag, such as `TODO`. Each tag has a severity of its own, which a finding
carries whatever the severity of the rule is.
-/

namespace DocAudit.TodoComments

/-- What a tag means. A tag that is off is not reported. -/
inductive TagSeverity where
  | off
  | reported (severity : IssueSeverity)
  deriving DecidableEq, Repr

namespace TagSeverity

def word : TagSeverity → String
  | .off => "off"
  | .reported severity => severity.word

def ofWord? (word : String) : Option TagSeverity :=
  if word == "off" then some .off else (IssueSeverity.ofWord? word).map .reported

def ofValue (value : Value) : Except Fault TagSeverity :=
  match value with
  | .text word => (ofWord? word).elim (.error (.badTagSeverity value)) .ok
  | value => .error (.badTagSeverity value)

theorem ofWord?_word (severity : TagSeverity) : ofWord? severity.word = some severity := by
  rcases severity with _ | severity
  · rfl
  · cases severity <;> rfl

end TagSeverity

/-- The severity of a tag and what is shown beside it. -/
structure TagSetting where
  severity : TagSeverity
  label : Value := .null

abbrev Tags := List (String × TagSetting)

def reportedTag (severity : IssueSeverity) (label : String) : TagSetting where
  severity := .reported severity
  label := .text label

def standardTags : Tags :=
  [("TODO", reportedTag .info "Planned work"),
    ("FIXME", reportedTag .warn "Needs fix"),
    ("XXX", reportedTag .warn "Needs attention"),
    ("HACK", reportedTag .warn "Workaround"),
    ("BUG", reportedTag .error "Known bug"),
    ("NOTE", { severity := .off }),
    ("REVIEW", reportedTag .info "Needs review"),
    ("OPTIMIZE", reportedTag .info "Optimization candidate"),
    ("WARNING", reportedTag .warn "Warning"),
    ("QUESTION", reportedTag .info "Needs confirmation")]

def upper (text : String) : String :=
  String.ofList (Text.toUpper text.toList)

structure Options where
  tags : Tags := standardTags
  customTags : Value := .ofTexts []
  ignoreInlineCode : Value := .bool true
  ignoreCodeBlocks : Value := .bool true
  ignoreInTables : Value := .bool false
  /-- Regular expressions; a comment in which one is found is left out. -/
  excludePatterns : Value := .ofTexts []
  /-- Loose patterns of files that are not checked. -/
  exclude : Value := .ofTexts []
  /-- The severity of tags without a setting. -/
  defaultSeverity : Value := .text "warn"

namespace TagSetting

/-- A setting is the word of its severity, or a table with severity and message. -/
def ofValue (defaultSeverity : Value) (value : Value) : Except Fault TagSetting :=
  match value with
  | .text _ => return { severity := ← TagSeverity.ofValue value }
  | value => do
    let severity ← value.fieldD "severity" defaultSeverity
    let label ← value.fieldD "message" .null
    return { severity := ← TagSeverity.ofValue severity, label := label }

def toValue (setting : TagSetting) : Value :=
  .table [("severity", .text setting.severity.word), ("label", setting.label)]

end TagSetting

namespace Tags

def set (tags : Tags) (name : String) (setting : TagSetting) : Tags :=
  if tags.any (·.1 == name) then
    tags.map fun entry => if entry.1 == name then (name, setting) else entry
  else tags ++ [(name, setting)]

/-- Given settings replace the standard ones, tag by tag. -/
def ofValue (defaultSeverity value : Value) : Except Fault Tags :=
  if !value.truthy then .ok standardTags
  else match value with
    | .table entries =>
      entries.foldlM (fun tags (name, setting) =>
        return set tags (upper name) (← TagSetting.ofValue defaultSeverity setting)) standardTags
    | value => .error (.noAttribute value.shape "items")

end Tags

namespace Options

def toEntries (options : Options) : Entries :=
  [("tags", .table (options.tags.map fun (name, setting) => (name, setting.toValue))),
    ("custom_tags", options.customTags),
    ("ignore_inline_code", options.ignoreInlineCode),
    ("ignore_code_blocks", options.ignoreCodeBlocks),
    ("ignore_in_tables", options.ignoreInTables),
    ("exclude_patterns", options.excludePatterns),
    ("exclude", options.exclude),
    ("default_severity", options.defaultSeverity)]

/-- Tags are read before names of options are checked. -/
def ofEntries (given : Entries) : Except Fault Options := do
  let standard : Options := {}
  let severity := (given.lookup "default_severity").getD standard.defaultSeverity
  let tags ← Tags.ofValue severity ((given.lookup "tags").getD .null)
  given.requireKnown standard.toEntries.keys
  return {
    tags := tags
    customTags := given.option "custom_tags" standard.customTags
    ignoreInlineCode := given.option "ignore_inline_code" standard.ignoreInlineCode
    ignoreCodeBlocks := given.option "ignore_code_blocks" standard.ignoreCodeBlocks
    ignoreInTables := given.option "ignore_in_tables" standard.ignoreInTables
    excludePatterns := given.option "exclude_patterns" standard.excludePatterns
    exclude := given.option "exclude" standard.exclude
    defaultSeverity := given.option "default_severity" standard.defaultSeverity }

/-- The setting of a tag. The default severity has to be one even where it is not needed. -/
def tagSetting (options : Options) (tag : String) : Except Fault TagSetting := do
  let fallback : TagSetting := { severity := ← TagSeverity.ofValue options.defaultSeverity }
  return (options.tags.lookup (upper tag)).getD fallback

def customTag : Value → Except Fault String
  | .text tag => .ok (upper tag)
  | value => .error (.noAttribute value.shape "upper")

/-- Every tag to look for, once. -/
def vocabulary (options : Options) : Except Fault (List String) :=
  return (options.tags.map (·.1) ++ (← (← options.customTags.items).mapM customTag)).eraseDups

end Options

/-! A comment is a tag in any case, between boundaries of words; then a colon and blanks, if there
are any; then the rest of the line, which is not empty. -/

structure Comment where
  tag : List Char
  /-- What stands behind the tag, up to the end of the line. -/
  behind : List Char
  text : List Char
  deriving DecidableEq, Repr

/-- What is left of a text behind a tag that begins it in some case. -/
def behindTag? : List Char → List Char → Option (List Char)
  | [], text => some text
  | _ :: _, [] => none
  | expected :: tag, c :: text =>
    if Text.sameLetter expected c then behindTag? tag text else none

def isColon (c : Char) : Bool :=
  c == ':' || c == '：'

/-- The last character of a run of blanks, if there is one, and what stands behind the run. -/
def skipBlanks (last : Option Char) : List Char → Option Char × List Char
  | [] => (last, [])
  | c :: rest => if Text.isBlank c then skipBlanks (some c) rest else (last, c :: rest)

/-- The text of a comment by what stands behind its tag. Where nothing but a colon and blanks
does, the last of them is the text. -/
def commentText? (behind : List Char) : Option (List Char) :=
  let colon := behind.head?.filter isColon
  let (last, text) := skipBlanks none (behind.drop (colon.elim 0 fun _ => 1))
  if text.isEmpty then (last.or colon).map ([·]) else some text

/-- The comment that begins a text with one of the tags; `before` is the character in front of
the text. -/
def commentAt? (tags : List (List Char)) (before : Option Char) (text : List Char) :
    Option Comment :=
  if Text.isWordBoundary before text.head? then
    tags.findSome? fun tag => do
      let behind ← behindTag? tag text
      let written := text.take tag.length
      guard (Text.isWordBoundary (written.getLast?.or before) behind.head?)
      return ⟨written, behind, ← commentText? behind⟩
  else none

/-- The first comment of a line; it takes up the rest of the line. -/
def comment? (tags : List (List Char)) (before : Option Char) : List Char → Option Comment
  | [] => commentAt? tags before []
  | c :: rest =>
    (commentAt? tags before (c :: rest)).or (comment? tags (some c) rest)

/-- Longer tags are tried first, so that none is cut short by another one. -/
def longestFirst (tags : List String) : List (List Char) :=
  (tags.map String.toList).mergeSort fun left right => right.length ≤ left.length

def previewLength : Nat := 50

def finding (file : String) (line : Line) (tag : String) (label : Value)
    (severity : IssueSeverity) (comment : Comment) : Issue where
  file := file
  line := some line.number
  message :=
    let shown := if label.truthy then label.plain else tag
    let text := String.ofList ((Text.strip comment.text).take previewLength)
    .text s!"{tag} ({shown}): {text}"
  suggestion := some s!"Resolve the {tag} or move it to the issue tracker"
  severity := some severity

/-- What of a line is looked at, if the line is. -/
def visiblePart? (options : Options) (line : Line) : Option (List Char) :=
  if options.ignoreCodeBlocks.truthy && line.kind != .prose then none
  else if options.ignoreInTables.truthy && isTableLine line.text then none
  else if options.ignoreInlineCode.truthy then some (InlineCode.blank line.text)
  else some line.text

def lineFindings (options : Options) (tags : List (List Char)) (excluded : List Pattern)
    (file : String) (line : Line) : Except Fault (List Issue) := do
  match (visiblePart? options line).bind (comment? tags none) with
  | none => return []
  | some comment =>
    let tag := String.ofList (Text.toUpper comment.tag)
    let setting ← options.tagSetting tag
    match setting.severity with
    | .off => return []
    | .reported severity =>
      if excluded.any (·.occursIn (comment.tag ++ comment.behind)) then return []
      return [finding file line tag setting.label severity comment]

def isExcluded (options : Options) (file : String) : Except Fault Bool :=
  if options.exclude.truthy then options.exclude.anyMatchesLoosely file else .ok false

def check (docs : Docs) (files : List String) (options : Options := {}) :
    Except Fault (List Issue) := do
  let tags := longestFirst (← options.vocabulary)
  let excluded ← (← options.excludePatterns.items).mapM (·.pattern)
  Docs.inEach files fun file => do
    if ← isExcluded options file then return []
    let document ← docs.document file
    return (← document.lines.mapM (lineFindings options tags excluded file)).flatten

end DocAudit.TodoComments
