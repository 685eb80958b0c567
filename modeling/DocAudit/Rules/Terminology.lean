import DocAudit.Docs
import DocAudit.Text.Word

/-!
Preferred terms. A line of prose is reported when it still holds a variant of a term after every
exception in it has been blanked, one exception after another.
-/

namespace DocAudit.Terminology

/-- A preferred term, the variants that it should replace and the longer texts in which a variant
may stand. -/
structure Term where
  preferred : Value
  variants : List Value
  exceptions : List Value
  wordBoundary : Bool

/-- A line with an exception blanked. -/
def blankException (line : List Char) (exception : Value) : Except Fault (List Char) :=
  match exception with
  | .text content => .ok (Text.blankOccurrences content.toList line)
  | .list _ => .error (.badReplacement .list)
  | .tuple _ => .error (.badReplacement .tuple)
  | .table _ => .error (.badReplacement .table)
  | value => .error (.noLength value.shape)

def blankExceptions (exceptions : List Value) (line : List Char) : Except Fault (List Char) :=
  exceptions.foldlM blankException line

/-- Whether a variant stands in a text as whole words; `before` is the character in front of the
text. -/
def occursAsWords (variant : List Char) (before : Option Char) (text : List Char) : Bool :=
  let here := variant.isPrefixOf text
    && Text.isWordBoundary before text.head?
    && Text.isWordBoundary (variant.getLast?.or before) (text.drop variant.length).head?
  here || match text with
    | [] => false
    | c :: rest => occursAsWords variant (some c) rest

def occurs (wordBoundary : Bool) (variant text : List Char) : Bool :=
  if wordBoundary then occursAsWords variant none text else Text.occursIn variant text

/-- A variant with the term that it belongs to. -/
structure Entry where
  term : Term
  variant : String

def Term.entries (term : Term) : Except Fault (List Entry) :=
  term.variants.mapM fun
    | .text variant => .ok ⟨term, variant⟩
    | value => .error (.notEscapable value.shape)

def finding (file : String) (line : Line) (entry : Entry) : Issue where
  file := file
  line := some line.number
  message := .text s!"\"{entry.variant}\" should be \"{entry.term.preferred.plain}\""
  suggestion := some s!"Replace with \"{entry.term.preferred.plain}\""

def isReported (entry : Entry) (line : Line) : Except Fault Bool :=
  return occurs entry.term.wordBoundary entry.variant.toList
    (← blankExceptions entry.term.exceptions line.text)

def entryFindings (document : Document) (entry : Entry) : Except Fault (List Issue) :=
  return (← document.proseLines.filterM (isReported entry)).map (finding document.file · entry)

def check (docs : Docs) (files : List String) (terms : List Term) : Except Fault (List Issue) := do
  let entries := (← terms.mapM (·.entries)).flatten
  Docs.inEach files fun file => do
    let document ← docs.document file
    return (← entries.mapM (entryFindings document)).flatten

end DocAudit.Terminology
