import DocAudit.Docs

/-!
Rules on the outline of single documents: headings that skip a level on the way down, and blocks
of code without a language.
-/

namespace DocAudit.Outline

def jumpFinding (file : String) (before heading : Heading) : Issue where
  file := file
  line := some heading.line
  message := .text s!"Heading jumps from h{before.level} to h{heading.level}"
  suggestion := some s!"Use h{before.level + 1} instead"

/-- Findings for headings more than one level below the heading before them. -/
def jumps (file : String) : List Heading → List Issue
  | before :: heading :: rest =>
    let found := jumps file (heading :: rest)
    if before.level + 1 < heading.level then jumpFinding file before heading :: found else found
  | _ => []

def checkHeadings (docs : Docs) (files : List String) : Except Fault (List Issue) :=
  docs.inEachDocument files fun document => jumps document.file document.headings

def codeFinding (file : String) (fence : Fence) : Issue where
  file := file
  line := some fence.first
  message := .text "Code block without language specifier"
  suggestion := some "Add a language (e.g., \x60\x60\x60python, \x60\x60\x60bash)"

def textAt (document : Document) (number : Nat) : List Char :=
  ((document.lines[number - 1]?).map (·.text)).getD []

/-- Whether a bare fence opens the block and the line behind it has text. -/
def isUnlabelled (document : Document) (fence : Fence) : Bool :=
  Text.strip (textAt document fence.first) == fenceMark
    && Text.hasText (textAt document (fence.first + 1))

def unlabelled (document : Document) : List Issue :=
  (document.fences.filter (isUnlabelled document)).map (codeFinding document.file)

def checkCode (docs : Docs) (files : List String) : Except Fault (List Issue) :=
  docs.inEachDocument files unlabelled

end DocAudit.Outline
