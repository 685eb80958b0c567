import DocAudit.Pattern.Matching

/-!
Finding matches in a text: at its start, at the first place that has one, and all of them from
the left. After a match the search goes on where it ended; a match may be empty unless it would
lie at the end of an empty one.
-/

namespace DocAudit

namespace Pattern

/-- A match with the place where it begins. -/
structure Found where
  start : Cursor
  finish : Match

namespace Found

def text (found : Found) : List Char :=
  found.start.textTo found.finish.cursor

def isEmpty (found : Found) : Bool :=
  found.finish.cursor.index == found.start.index

end Found

/-- A match that begins at the cursor. Where `advance` is set, an empty one does not count. -/
def matchAt? (pattern : Pattern) (cursor : Cursor) (advance : Bool) : Option Found :=
  let accept (found : Match) : Option Match :=
    if advance && found.cursor.index == cursor.index then none else some found
  (pattern.part.run ⟨cursor, []⟩ accept).map fun finish => ⟨cursor, finish⟩

/-- The first match at or behind a cursor, looking at up to `places` further places. -/
def searchFrom? (pattern : Pattern) : (places : Nat) → Cursor → (advance : Bool) → Option Found
  | places, cursor, advance =>
    match pattern.matchAt? cursor advance with
    | some found => some found
    | none =>
      match places, cursor.next? with
      | places + 1, some (_, next) => searchFrom? pattern places next false
      | _, _ => none

/-- A match that begins at the start of the text. -/
def matchStart? (pattern : Pattern) (text : List Char) : Option Found :=
  pattern.matchAt? (.start text) false

def search? (pattern : Pattern) (text : List Char) : Option Found :=
  pattern.searchFrom? text.length (.start text) false

def occursIn (pattern : Pattern) (text : List Char) : Bool :=
  (pattern.search? text).isSome

/-- Every further match; each but an empty one moves the cursor, and no two empty ones lie at one
place, which bounds their number. -/
def findFrom (pattern : Pattern) : (bound : Nat) → Cursor → (advance : Bool) → List Found
  | 0, _, _ => []
  | bound + 1, cursor, advance =>
    match pattern.searchFrom? cursor.after.length cursor advance with
    | none => []
    | some found => found :: findFrom pattern bound found.finish.cursor found.isEmpty

def findAll (pattern : Pattern) (text : List Char) : List Found :=
  pattern.findFrom (2 * text.length + 2) (.start text) false

/-- What a named capture of a match holds, if it took part in it. -/
def named? (pattern : Pattern) (found : Found) (name : List Char) : Option (List Char) :=
  (pattern.names.lookup name).bind found.finish.capture?

end Pattern

end DocAudit
