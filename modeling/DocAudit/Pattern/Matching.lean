import DocAudit.Pattern.Parser

/-!
Matching by trying alternatives in order. A part is run at a place of a text and hands each place
where it may end, best first, to what comes after it; the first end from which the rest succeeds
is the one that counts. So which of several matches is found follows from the order of the
alternatives and from how eager the repetitions are.

A place is a cursor: the characters before it, nearest first, and those after it. Parts are run by
recursion on the part. A repetition is run by recursion on a bound of its rounds, which cannot run
out: beyond the least number of rounds every further one but the last has to move the cursor.
-/

namespace DocAudit.Pattern

structure Cursor where
  before : List Char
  after : List Char
  index : Nat
  deriving DecidableEq, Repr

namespace Cursor

def start (text : List Char) : Cursor :=
  ⟨[], text, 0⟩

def next? (cursor : Cursor) : Option (Char × Cursor) :=
  match cursor.after with
  | [] => none
  | c :: rest => some (c, ⟨c :: cursor.before, rest, cursor.index + 1⟩)

def back? : Nat → Cursor → Option Cursor
  | 0, cursor => some cursor
  | count + 1, cursor =>
    match cursor.before with
    | [] => none
    | c :: rest => back? count ⟨rest, c :: cursor.after, cursor.index - 1⟩

/-- The text from one cursor to a later one. -/
def textTo (cursor later : Cursor) : List Char :=
  cursor.after.take (later.index - cursor.index)

end Cursor

def isAsciiWord (c : Char) : Bool :=
  c.isAlphanum || c == '_'

def Anchor.holds (place : Anchor) (cursor : Cursor) : Bool :=
  let isWord (asciiOnly : Bool) (c : Char) : Bool :=
    if asciiOnly then isAsciiWord c else Text.isWord c
  let atBoundary (asciiOnly : Bool) : Bool :=
    cursor.before.head?.any (isWord asciiOnly) != cursor.after.head?.any (isWord asciiOnly)
  match place with
  | .textStart => cursor.before.isEmpty
  | .lineStart => cursor.before.head?.all (· == '\n')
  | .textEnd => cursor.after.isEmpty
  | .lastLineEnd => cursor.after.isEmpty || cursor.after == ['\n']
  | .lineEnd => cursor.after.head?.all (· == '\n')
  | .boundary asciiOnly => atBoundary asciiOnly
  | .noBoundary asciiOnly =>
    !atBoundary asciiOnly && !(cursor.before.isEmpty && cursor.after.isEmpty)

/-- A cursor with what the captures have recorded, latest first. -/
structure Match where
  cursor : Cursor
  captures : List (Nat × List Char)
  deriving DecidableEq, Repr

namespace Match

def capture? (found : Match) (index : Nat) : Option (List Char) :=
  found.captures.lookup index

def moved (found : Match) (cursor : Cursor) : Match :=
  { found with cursor := cursor }

end Match

/-- Runs from a place and hands on every place where it may end. -/
abbrev Runner := Match → (Match → Option Match) → Option Match

def CaseMode.same (mode : CaseMode) (left right : Char) : Bool :=
  match mode with
  | .exact => left == right
  | .ascii => left.toLower == right.toLower
  | .unicode => Text.lowerLetter left == Text.lowerLetter right

/-- Moves over a text that has to stand at the cursor. -/
def literalRun (mode : CaseMode) : List Char → Runner
  | [], found, rest => rest found
  | c :: text, found, rest =>
    match found.cursor.next? with
    | none => none
    | some (other, cursor) =>
      if mode.same c other then literalRun mode text (found.moved cursor) rest else none

/-- Rounds of a repetition. Below the least number a round has to succeed; above it a further
round is tried unless the one before started at the same place. -/
def rounds (body : Runner) (least : Nat) (most : Option Nat) (lazy : Bool) :
    (bound count : Nat) → (lastStart : Option Nat) → Runner
  | 0, _, _, _, _ => none
  | bound + 1, count, lastStart, found, rest =>
    if count < least then
      body found fun after => rounds body least most lazy bound (count + 1) lastStart after rest
    else
      let place := found.cursor.index
      let another (_ : Unit) : Option Match :=
        if most.all (count < ·) && lastStart != some place then
          body found fun after =>
            rounds body least most lazy bound (count + 1) (some place) after rest
        else none
      if lazy then (rest found).orElse another
      else (another ()).orElse fun _ => rest found

/-- Rounds that are never taken back, each with the first end of its body. -/
def possessiveRounds (body : Runner) (least : Nat) (most : Option Nat) :
    (bound count : Nat) → Match → Option Match
  | 0, _, _ => none
  | bound + 1, count, found =>
    if count < least then
      (body found some).bind fun after => possessiveRounds body least most bound (count + 1) after
    else if most.all (count < ·) then
      match body found some with
      | none => some found
      | some after =>
        if after.cursor.index = found.cursor.index then some after
        else possessiveRounds body least most bound (count + 1) after
    else some found

def Part.run : Part → Runner
  | .empty, found, rest => rest found
  | .one test, found, rest =>
    match found.cursor.next? with
    | none => none
    | some (c, cursor) => if test.accepts c then rest (found.moved cursor) else none
  | .anchor place, found, rest => if place.holds found.cursor then rest found else none
  | .group body, found, rest => body.run found rest
  | .capture index body, found, rest =>
    body.run found fun after =>
      let content := found.cursor.textTo after.cursor
      rest { after with captures := (index, content) :: after.captures }
  | .sequence first second, found, rest => first.run found fun after => second.run after rest
  | .choice first second, found, rest =>
    (first.run found rest).orElse fun _ => second.run found rest
  | .repeated eagerness least most body, found, rest =>
    let bound := least + found.cursor.after.length + 2
    match eagerness with
    | .greedy => rounds body.run least most false bound 0 none found rest
    | .lazy => rounds body.run least most true bound 0 none found rest
    | .possessive => (possessiveRounds body.run least most bound 0 found).bind rest
  | .reference index _ case, found, rest =>
    match found.capture? index with
    | none => none
    | some content => literalRun case content found rest
  | .lookAhead positive body, found, rest =>
    match body.run found some, positive with
    | some after, true => rest (after.moved found.cursor)
    | none, false => rest found
    | _, _ => none
  | .lookBehind positive body, found, rest =>
    let earlier := found.cursor.back? body.width.least
    let seen := earlier.bind fun cursor => body.run (found.moved cursor) some
    match seen, positive with
    | some after, true => rest (after.moved found.cursor)
    | none, false => rest found
    | _, _ => none
  | .atomic body, found, rest => (body.run found some).bind rest
  | .conditional index met unmet, found, rest =>
    if (found.capture? index).isSome then met.run found rest else unmet.run found rest

end DocAudit.Pattern
