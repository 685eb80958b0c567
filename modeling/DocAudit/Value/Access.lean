import DocAudit.Glob
import DocAudit.Fault
import DocAudit.Pattern.Search

/-!
What rules ask of values whose shape nobody has checked. Each question says which shapes it is
answered for and which fault the other shapes raise. A text that stands for a list is the list of
its characters, and a table that stands for one is the list of its keys.
-/

namespace DocAudit.Value

def items : Value → Except Fault (List Value)
  | .list items => .ok items
  | .tuple items => .ok items
  | .text content => .ok (content.toList.map fun c => .text c.toString)
  | .table entries => .ok (entries.map fun (key, _) => .text key)
  | value => .error (.notIterable value.shape)

/-- The value of a key that has to be there. -/
def field (value : Value) (key : String) : Except Fault Value :=
  match value with
  | .table entries =>
    match entries.lookup key with
    | some found => .ok found
    | none => .error (.missingKey key)
  | .list _ => .error (.badIndex .list)
  | .tuple _ => .error (.badIndex .tuple)
  | .text _ => .error (.badIndex .text)
  | value => .error (.notSubscriptable value.shape)

/-- The value of a key that may be missing. -/
def fieldD (value : Value) (key : String) (default : Value) : Except Fault Value :=
  match value with
  | .table entries => .ok ((entries.lookup key).getD default)
  | value => .error (.noAttribute value.shape "get")

/-- Whether a value is this text. -/
def isText (value : Value) (content : String) : Bool :=
  match value with
  | .text given => given == content
  | _ => false

theorem isText_iff {value : Value} {content : String} :
    value.isText content = true ↔ value = .text content := by
  cases value <;> simp [isText]

/-- Lists are fixed when they become the value of an option. -/
def fixed : Value → Value
  | .list items => .tuple items
  | value => value

/-- A value as a piece to look for in a text. -/
def piece (value : Value) : Except Fault (List Char) :=
  match value with
  | .text content => .ok content.toList
  | value => .error (.notFoundIn value.shape)

def occursIn (value : Value) (text : List Char) : Except Fault Bool :=
  return Text.occursIn (← value.piece) text

/-- A value as a regular expression. -/
def pattern (value : Value) : Except Fault Pattern :=
  match value with
  | .text content =>
    match Pattern.parse content.toList with
    | .ok pattern => .ok pattern
    | .error stop => .error (.badPattern stop content.toList)
  | value =>
    match value.unhashable? with
    | some shape => .error (.unhashable shape)
    | none => .error .notAPattern

/-- Whether a value describes a path as a glob. -/
def matchesGlob (value : Value) (path : String) : Except Fault Bool :=
  match value with
  | .text glob => .ok (Glob.matchesPath glob path)
  | value =>
    match value.unhashable? with
    | some shape => .error (.unhashable shape)
    | none => .error (.noLength value.shape)

def anyGlobMatches (globs : Value) (path : String) : Except Fault Bool := do
  (← globs.items).anyM (·.matchesGlob path)

/-- Whether a value holds an asterisk, as a text or as a list does. -/
def holdsAsterisk : Value → Except Fault Bool
  | .text content => .ok (content.toList.contains '*')
  | .list items => .ok (items.any (·.isText "*"))
  | .tuple items => .ok (items.any (·.isText "*"))
  | .table entries => .ok (Entries.hasKey entries "*")
  | value => .error (.noContainer value.shape)

/-- Whether a value describes a piece of a path as a loose pattern. -/
def matchesLoosely (value : Value) (path : String) : Except Fault Bool := do
  match value, ← value.holdsAsterisk with
  | .text pattern, _ => return LoosePattern.occursIn pattern path
  | value, true => throw (.noAttribute value.shape "split")
  | value, false => throw (.notFoundIn value.shape)

def anyMatchesLoosely (patterns : Value) (path : String) : Except Fault Bool := do
  (← patterns.items).anyM (·.matchesLoosely path)

/-- A value as a path below a folder. -/
def pathPart (value : Value) : Except Fault String :=
  match value with
  | .text content => .ok content
  | value => .error (.notAPathPart value.shape)

end DocAudit.Value

namespace DocAudit

/-- The files that some glob describes, in their own order. -/
def selectFiles (files : List String) (globs : Value) : Except Fault (List String) :=
  files.filterM (globs.anyGlobMatches ·)

end DocAudit
