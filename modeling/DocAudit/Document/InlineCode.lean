/-!
Inline code. A span begins with a run of backticks and ends with the nearest run of as many that
leaves at least one character between them. A longer run is tried first, then what is left of it
when some of its backticks count as content. Spans do not go over a line feed.
-/

namespace DocAudit.InlineCode

def backtick : Char := '\x60'

/-- How many characters stand before the first closing mark that has at least one before it;
`passed` of them have been passed. -/
def contentLength? (mark : List Char) (passed : Nat) : List Char → Option Nat
  | [] => none
  | c :: rest =>
    if 0 < passed ∧ mark.isPrefixOf (c :: rest) then some passed
    else if c = '\n' then none
    else contentLength? mark (passed + 1) rest

/-- The length of a span whose marks have `size` backticks. -/
def lengthWithMark? (text : List Char) (size : Nat) : Option Nat :=
  (contentLength? (List.replicate size backtick) 0 (text.drop size)).map (2 * size + ·)

/-- The length of the span that begins a text, if one does. -/
def spanLength? (text : List Char) : Option Nat :=
  let run := (text.takeWhile (· == backtick)).length
  (List.range run).findSome? fun fewer => lengthWithMark? text (run - fewer)

/-- Blanks for the spans of a line; `covered` characters still belong to the span met last. -/
def blankFrom (covered : Nat) : List Char → List Char
  | [] => []
  | c :: rest =>
    match covered with
    | left + 1 => ' ' :: blankFrom left rest
    | 0 =>
      match spanLength? (c :: rest) with
      | some length => ' ' :: blankFrom (length - 1) rest
      | none => c :: blankFrom 0 rest

/-- A line with blanks in place of its spans, so that all columns stay. -/
def blank (line : List Char) : List Char :=
  blankFrom 0 line

theorem length_blankFrom (covered : Nat) (line : List Char) :
    (blankFrom covered line).length = line.length := by
  induction line generalizing covered with
  | nil => rfl
  | cons c rest ih =>
    unfold blankFrom
    split
    · simp [ih]
    · split <;> simp [ih]

example : blank ['a', '\x60', 'b', '\x60', 'c'] = ['a', ' ', ' ', ' ', 'c'] := by decide

end DocAudit.InlineCode
