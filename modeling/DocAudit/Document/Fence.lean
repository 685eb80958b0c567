import DocAudit.Text.Blank
import DocAudit.Text.Lines

/-!
Fenced code. A line that starts with three backticks, blanks before it aside, opens a block of
code, and the next such line closes it; a block that is never closed goes on to the end.
-/

namespace DocAudit

def fenceMark : List Char := ['\x60', '\x60', '\x60']

def isFenceLine (line : List Char) : Bool :=
  fenceMark.isPrefixOf (Text.stripLeft line)

/-- What stands behind the mark of a fence line: the language of the block it opens. -/
def fenceLabel (line : List Char) : List Char :=
  Text.strip ((Text.strip line).drop fenceMark.length)

/-- What a line is, by the fences around it. -/
inductive LineKind where
  | opening
  | inside
  | closing
  | prose
  deriving DecidableEq, Repr

def lineKind (inBlock : Bool) (line : List Char) : LineKind :=
  if isFenceLine line then (if inBlock then .closing else .opening)
  else if inBlock then .inside
  else .prose

/-- Whether the line after a line lies in a block. -/
def inBlockAfter (inBlock : Bool) (line : List Char) : Bool :=
  if isFenceLine line then !inBlock else inBlock

end DocAudit
