import DocAudit.Fault
import DocAudit.Text.Blank
import DocAudit.Text.Case

/-!
Markup of messages. A tag in brackets sets a style, which a console without styles drops; a
backslash before it makes it plain text. `escape` writes a text so that `render` shows it as it
is.
-/

namespace DocAudit.Markup

/-- A character, or what looks like a tag with the backslashes before it. -/
inductive Piece where
  | character (c : Char)
  | tag (backslashes : Nat) (content : List Char)
  deriving DecidableEq, Repr

def startsTag (c : Char) : Bool :=
  ('a' ≤ c && c ≤ 'z') || c = '#' || c = '/' || c = '@'

/-- What stands between the brackets that begin a text, if that can be a tag: no further bracket
opens before the one that closes. -/
def tagContent? : List Char → Option (List Char)
  | '[' :: c :: rest =>
    let content := rest.takeWhile fun c => c ≠ '[' ∧ c ≠ ']'
    if startsTag c ∧ (rest.drop content.length).head? = some ']' then some (c :: content) else none
  | _ => none

/-- The backslashes and the tag that begin a text, if they do. -/
def tagPiece? (text : List Char) : Option (Nat × List Char) :=
  let backslashes := (text.takeWhile (· == '\\')).length
  (tagContent? (text.drop backslashes)).map (backslashes, ·)

/-- The pieces of a text; `covered` characters still belong to the tag met last. -/
def piecesFrom (covered : Nat) : List Char → List Piece
  | [] => []
  | c :: rest =>
    match covered with
    | left + 1 => piecesFrom left rest
    | 0 =>
      match tagPiece? (c :: rest) with
      | some (backslashes, content) =>
        .tag backslashes content :: piecesFrom (backslashes + content.length + 1) rest
      | none => .character c :: piecesFrom 0 rest

def pieces (text : List Char) : List Piece :=
  piecesFrom 0 text

def backslashes (count : Nat) : List Char :=
  List.replicate count '\\'

def bracketed (content : List Char) : List Char :=
  '[' :: content ++ [']']

def escapePiece : Piece → List Char
  | .character c => [c]
  | .tag count content => backslashes (2 * count + 1) ++ bracketed content

/-- A single backslash at the end would escape what is written behind it. -/
def closeEnd (text : List Char) : List Char :=
  match text.reverse with
  | '\\' :: '\\' :: _ => text
  | '\\' :: _ => text ++ ['\\']
  | _ => text

def escape (text : List Char) : List Char :=
  closeEnd ((pieces text).flatMap escapePiece)

/-- Text between tags loses the backslash before a bracket that opens no tag. -/
def unescapeBrackets : List Char → List Char
  | '\\' :: '[' :: rest => '[' :: unescapeBrackets rest
  | c :: rest => c :: unescapeBrackets rest
  | [] => []

/-- The styles that are open, latest first, and the text shown so far in reversed runs. The
characters of the current run wait until it ends. -/
structure Rendering where
  position : Nat
  opened : List (List Char)
  run : List Char
  shown : List (List Char)

def Rendering.endRun (rendering : Rendering) : Rendering :=
  { rendering with
    run := []
    shown := unescapeBrackets rendering.run.reverse :: rendering.shown }

def Rendering.show (rendering : Rendering) (text : List Char) : Rendering :=
  { rendering with shown := text :: rendering.shown }

/-- Short names of styles, with the long ones. -/
def shortStyles : List (String × String) :=
  [("d", "dim"), ("b", "bold"), ("i", "italic"), ("u", "underline"), ("r", "reverse"),
    ("c", "conceal"), ("s", "strike"), ("uu", "underline2"), ("o", "overline")]

/-- The name in a tag, before any parameter, in its long form. -/
def tagName (content : List Char) : List Char :=
  let name := Text.toLower (Text.strip (content.takeWhile (· ≠ '=')))
  ((shortStyles.lookup (String.ofList name)).map String.toList).getD name

/-- Opens a style, or closes the latest open one of the name or, without a name, of any. -/
def applyTag (rendering : Rendering) (content : List Char) : Except Fault Rendering :=
  match content with
  | '/' :: closing =>
    let name := tagName closing
    let fault := Fault.looseTag (bracketed content) rendering.position
    if name.isEmpty then
      match rendering.opened with
      | [] => .error fault
      | _ :: rest => .ok { rendering with opened := rest }
    else if rendering.opened.contains name then
      .ok { rendering with opened := rendering.opened.erase name }
    else .error fault
  | _ => .ok { rendering with opened := tagName content :: rendering.opened }

/-- Two backslashes before a tag show one; one that is left over shows the tag itself. -/
def renderPiece (rendering : Rendering) : Piece → Except Fault Rendering
  | .character c =>
    .ok { rendering with run := c :: rendering.run, position := rendering.position + 1 }
  | .tag count content => do
    let shown := rendering.endRun.show (backslashes (count / 2))
    let atTag := { shown with position := shown.position + 2 * (count / 2) }
    let applied ←
      if count % 2 = 1 then pure (atTag.show (bracketed content)) else applyTag atTag content
    return { applied with position := rendering.position + count + content.length + 2 }

/-- Control characters that a console does not show. -/
def isHidden (c : Char) : Bool :=
  [7, 8, 11, 12, 13].contains c.toNat

def render (markup : List Char) : Except Fault (List Char) := do
  if !markup.contains '[' then return markup.filter (!isHidden ·)
  let rendering ← (pieces markup).foldlM renderPiece ⟨0, [], [], []⟩
  return rendering.endRun.shown.reverse.flatten.filter (!isHidden ·)

example : (render "[bold]a[/bold] [x y]\\[b] [1]".toList).toOption
    = some "a [b] [1]".toList := by decide +kernel

example : (render (escape "[id] \\[x]".toList)).toOption = some "[id] \\[x]".toList := by
  decide +kernel

end DocAudit.Markup
