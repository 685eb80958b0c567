import DocAudit.Document.Fence
import DocAudit.Document.Link

/-!
A document as the rules see it: its lines, each with its number and its kind, and the headings,
fences and links that follow from them. This is no parser of Markdown; each fact is read off a
line and the fences before it.
-/

namespace DocAudit

structure Line where
  number : Nat
  kind : LineKind
  text : List Char
  deriving DecidableEq, Repr

structure Heading where
  level : Nat
  text : List Char
  line : Nat
  deriving DecidableEq, Repr

/-- A block of code. A block that is never closed has no last line. -/
structure Fence where
  first : Nat
  last : Option Nat
  language : List Char
  deriving DecidableEq, Repr

structure Document where
  file : String
  lines : List Line
  deriving DecidableEq, Repr

def numberLines (number : Nat) (inBlock : Bool) : List (List Char) → List Line
  | [] => []
  | text :: rest =>
    ⟨number, lineKind inBlock text, text⟩ ::
      numberLines (number + 1) (inBlockAfter inBlock text) rest

/-- One to six number signs and a blank make a heading; the level is their number. -/
def headingLevel? (line : List Char) : Option Nat :=
  let signs := (line.takeWhile (· == '#')).length
  if 1 ≤ signs ∧ signs ≤ 6 ∧ (line.drop signs).head?.any Text.isBlank then some signs else none

def Line.heading? (line : Line) : Option Heading :=
  if line.kind = .prose then
    (headingLevel? line.text).map fun level =>
      ⟨level, Text.strip (line.text.drop level), line.number⟩
  else none

def Line.links (line : Line) : List Link :=
  (LinkSyntax.links line.text).map fun (text, target) => ⟨text, target, line.number⟩

/-- The blocks of the lines; `opened` is the first line and the language of one that has begun. -/
def fencesFrom (opened : Option (Nat × List Char)) : List Line → List Fence
  | [] =>
    match opened with
    | some (first, language) => [⟨first, none, language⟩]
    | none => []
  | line :: rest =>
    match line.kind, opened with
    | .opening, _ => fencesFrom (some (line.number, fenceLabel line.text)) rest
    | .closing, some (first, language) =>
      ⟨first, some line.number, language⟩ :: fencesFrom none rest
    | _, _ => fencesFrom opened rest

namespace Document

def ofText (file : String) (text : List Char) : Document where
  file := file
  lines := numberLines 1 false (Text.lines text)

def headings (document : Document) : List Heading :=
  document.lines.filterMap Line.heading?

def fences (document : Document) : List Fence :=
  fencesFrom none document.lines

/-- Links are read everywhere, in code too. -/
def links (document : Document) : List Link :=
  document.lines.flatMap Line.links

def relativeLinks (document : Document) : List Link :=
  document.links.filter (!·.isExternal)

/-- The lines outside of blocks of code. -/
def proseLines (document : Document) : List Line :=
  document.lines.filter (·.kind == .prose)

def inCode (document : Document) (number : Nat) : Bool :=
  document.lines.any fun line => line.number == number && line.kind != .prose

def firstHeading? (document : Document) (level : Nat) : Option Heading :=
  document.headings.find? (·.level == level)

def countHeadings (document : Document) (level : Nat) : Nat :=
  document.headings.countP (·.level == level)

end Document

/-- A row of a table has at least two bars and begins with one. -/
def isTableLine (line : List Char) : Bool :=
  let stripped := Text.strip line
  stripped.head? == some '|' && 2 ≤ stripped.count '|'

end DocAudit
