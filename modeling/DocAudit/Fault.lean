import DocAudit.Json.Parser
import DocAudit.Pattern.Fault
import DocAudit.Text.Encoding

/-!
Everything that can go wrong, by cause. Options are not checked when they are read, so many causes
are a value of one shape where a rule needs another one.
-/

namespace DocAudit

/-- Why the file system refuses an access. -/
inductive Refusal where
  | noEntry
  | exists
  | notFolder
  | isFolder
  | nameTooLong
  deriving DecidableEq, Repr

def Refusal.number : Refusal → Nat
  | .noEntry => 2
  | .exists => 17
  | .notFolder => 20
  | .isFolder => 21
  | .nameTooLong => 36

def Refusal.text : Refusal → String
  | .noEntry => "No such file or directory"
  | .exists => "File exists"
  | .notFolder => "Not a directory"
  | .isFolder => "Is a directory"
  | .nameTooLong => "File name too long"

inductive Fault where
  /-- The severity of a rule is none of the three words. -/
  | badSeverity (rule : String) (given : Value)
  | ruleShape (rule : String)
  | optionsNotTaken (rule : String) (names : List String)
  | badOptions (rule : String) (cause : Fault)
  | listExpected (key : String)
  | rulesExpected
  | terminologyExpected
  | terminologyListExpected (key : String)
  | badTerminology (cause : Fault)
  | languagesExpected
  | objectExpected
  | configMissing (path : String)
  | badJson (path : String) (stop : Json.Stop) (text : List Char)
  | docsMissing (path : String)
  | noDocuments (path : String)
  | templateMissing (category : String)
  | unknownRules (names : List String)
  | unknownOptions (names : List String)
  | badTagSeverity (given : Value)
  | notARuleSeverity (given : Value)
  | notAnIssueSeverity (given : Value)
  | unknownLevel (name : String)
  | nulInName
  | nulInLookup
  | nulInNewFolder
  | notIterable (shape : Shape)
  | notSubscriptable (shape : Shape)
  | badIndex (shape : Shape)
  | notFoundIn (shape : Shape)
  | noContainer (shape : Shape)
  | notAPattern
  | unhashable (shape : Shape)
  | badSuffix (shape : Shape)
  | notOrdered (shape : Shape)
  | noLength (shape : Shape)
  | notAPathPart (shape : Shape)
  | badReplacement (shape : Shape)
  | notEscapable (shape : Shape)
  | notAText (shape : Shape)
  | noAttribute (shape : Shape) (name : String)
  | missingKey (key : String)
  | badPattern (stop : Pattern.Stop) (text : List Char)
  | undecodable (fault : Text.DecodeFault)
  | refused (refusal : Refusal) (path : String)
  /-- A file is to be copied onto itself. -/
  | sameFile (source target : String)
  | numberTooLarge
  /-- A closing tag closes nothing. -/
  | looseTag (tag : List Char) (position : Nat)

namespace Fault

def commaList (names : List String) : String :=
  ", ".intercalate names

def message : Fault → String
  | .badSeverity rule given =>
    s!"Invalid severity for rule '{rule}': {given.quoted} (expected off, warn or error)"
  | .ruleShape rule => s!"Rule '{rule}' must be a severity string or an object"
  | .optionsNotTaken rule names => s!"Rule '{rule}' does not take options: {commaList names}"
  | .badOptions rule cause => s!"Invalid options for rule '{rule}': {message cause}"
  | .listExpected key => s!"'{key}' must be a list"
  | .rulesExpected => "'rules' must be an object"
  | .terminologyExpected => "'terminology' must be a list"
  | .terminologyListExpected key => s!"Invalid terminology entry: '{key}' must be a list"
  | .badTerminology cause => s!"Invalid terminology entry: {message cause}"
  | .languagesExpected => "'i18n' must be an object with a 'sourceLanguage'"
  | .objectExpected => "Configuration must be a JSON object"
  | .configMissing path => s!"Config file not found: {path}"
  | .badJson path stop text => s!"Invalid JSON in {path}: {stop.message text}"
  | .docsMissing path => s!"Documentation directory not found: {path}"
  | .noDocuments path => s!"No markdown files found in {path}"
  | .templateMissing category => s!"Template category not found: {category}"
  | .unknownRules names => s!"Unknown rule(s): {commaList names}"
  | .unknownOptions names => s!"unknown option(s): {commaList names}"
  | .badTagSeverity given => s!"invalid tag severity '{given.plain}'"
  | .notARuleSeverity given => s!"{given.quoted} is not a valid RuleSeverity"
  | .notAnIssueSeverity given => s!"{given.quoted} is not a valid IssueSeverity"
  | .unknownLevel name => s!"Unknown level: {Text.quotedString name}"
  | .nulInName => "embedded null byte"
  | .nulInLookup => "lstat: embedded null character in path"
  | .nulInNewFolder => "mkdir: embedded null character in path"
  | .notIterable shape => s!"'{shape.name}' object is not iterable"
  | .notSubscriptable shape => s!"'{shape.name}' object is not subscriptable"
  | .badIndex .text => "string indices must be integers, not 'str'"
  | .badIndex shape => s!"{shape.name} indices must be integers or slices, not str"
  | .notFoundIn shape => s!"'in <string>' requires string as left operand, not {shape.name}"
  | .noContainer shape => s!"argument of type '{shape.name}' is not iterable"
  | .notAPattern => "first argument must be string or compiled pattern"
  | .unhashable shape => s!"unhashable type: '{shape.name}'"
  | .badSuffix shape => s!"endswith first arg must be str or a tuple of str, not {shape.name}"
  | .notOrdered shape => s!"'<' not supported between instances of 'float' and '{shape.name}'"
  | .noLength shape => s!"object of type '{shape.name}' has no len()"
  | .notAPathPart shape =>
    s!"unsupported operand type(s) for /: 'PosixPath' and '{shape.name}'"
  | .badReplacement shape => s!"replace() argument 1 must be str, not {shape.name}"
  | .notEscapable shape => s!"decoding to str: need a bytes-like object, {shape.name} found"
  | .notAText shape => s!"expected string or bytes-like object, got '{shape.name}'"
  | .noAttribute shape name => s!"'{shape.name}' object has no attribute '{name}'"
  | .missingKey key => Text.quotedString key
  | .badPattern stop text => stop.message text
  | .undecodable fault => fault.message
  | .refused refusal path =>
    s!"[Errno {refusal.number}] {refusal.text}: {Text.quotedString path}"
  | .sameFile source target =>
    s!"PosixPath({Text.quotedString source}) and PosixPath({Text.quotedString target}) "
      ++ "are the same file"
  | .numberTooLarge => "int too large to convert to float"
  | .looseTag tag position =>
    let tag := String.ofList tag
    if tag == "[/]" then s!"closing tag '[/]' at position {position} has nothing to close"
    else s!"closing tag '{tag}' at position {position} doesn't match any open tag"

end Fault

end DocAudit
