import DocAudit.Document.Fence

/-!
Mechanical fixes: blanks at the ends of lines go, a heading gets the blank it lacks, a bare fence
that opens a block gets a language, and a text ends with exactly one line feed. What stands inside
a block of code is left as it is, and so are the two blanks that break a line of prose before
another line of text.
-/

namespace DocAudit.Fix

def hardBreak : List Char := [' ', ' ']

def defaultLanguage : List Char := ['t', 'e', 'x', 't']

/-- Whether a line of prose ends in two or more spaces and in nothing but spaces. -/
def endsInHardBreak (line : List Char) : Bool :=
  let stripped := Text.stripRight line
  let trailing := line.drop stripped.length
  !stripped.isEmpty
    && (Text.stripLeft stripped).head? != some '#'
    && !isFenceLine stripped
    && hardBreak.isPrefixOf trailing
    && trailing.all (· == ' ')

/-- A line without blanks at its end, a hard break before text aside. -/
def trimLine (line next : List Char) : List Char :=
  if endsInHardBreak line && Text.hasText next then Text.stripRight line ++ hardBreak
  else Text.stripRight line

/-- A bare fence gets the default language behind it. -/
def labelFence (line : List Char) : List Char :=
  if Text.strip line = fenceMark then
    line.takeWhile Text.isBlank ++ fenceMark ++ defaultLanguage
  else line

/-- One to six number signs get a blank before the text that follows them at once. -/
def spaceHeading (line : List Char) : List Char :=
  let signs := line.takeWhile (· == '#')
  let rest := line.drop signs.length
  if 1 ≤ signs.length ∧ signs.length ≤ 6 ∧ rest.head?.any (!Text.isBlank ·) then
    signs ++ ' ' :: rest
  else line

def fixLine (inBlock : Bool) (line next : List Char) : List Char :=
  match lineKind inBlock line with
  | .inside => line
  | .opening => labelFence (trimLine line next)
  | .closing => trimLine line next
  | .prose => spaceHeading (trimLine line next)

def fixLines (inBlock : Bool) : List (List Char) → List (List Char)
  | [] => []
  | line :: rest =>
    fixLine inBlock line (rest.head?.getD []) :: fixLines (inBlockAfter inBlock line) rest

def dropFinalNewlines (text : List Char) : List Char :=
  (text.reverse.dropWhile (· == '\n')).reverse

def fixText (text : List Char) : List Char :=
  dropFinalNewlines (Text.unlines (fixLines false (Text.lines text))) ++ ['\n']

example : fixText "#a  \n\x60\x60\x60\nb  ".toList
    = "# a\n\x60\x60\x60text\nb  \n".toList := by decide

end DocAudit.Fix
