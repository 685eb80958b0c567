import DocAudit.Text.Lines

/-!
Two ways to select paths by pattern. A glob describes a whole path: `**/` stands for any folders,
`**` for any characters, `*` for any but a slash and `?` for one that is no slash. A loose pattern
describes a piece of a path, in which `*` stands for any characters. No folders and no run of any
characters go over a line feed.
-/

namespace DocAudit

namespace Glob

inductive Token where
  | folders
  | anything
  | segment
  | character
  | literal (c : Char)
  deriving DecidableEq, Repr

/-- The longest token comes first at each place. -/
def tokens : List Char → List Token
  | '*' :: '*' :: '/' :: rest => .folders :: tokens rest
  | '*' :: '*' :: rest => .anything :: tokens rest
  | '*' :: rest => .segment :: tokens rest
  | '?' :: rest => .character :: tokens rest
  | c :: rest => .literal c :: tokens rest
  | [] => []

/-- What may be left of a path behind a run of characters of a class. -/
def behindRun (inClass : Char → Bool) : List Char → List (List Char)
  | [] => [[]]
  | c :: rest => (c :: rest) :: if inClass c then behindRun inClass rest else []

/-- What may be left of a path behind one or more folders with their slashes. -/
def behindFolders : List Char → List (List Char)
  | [] => []
  | c :: rest =>
    if c = '\n' then []
    else if c = '/' then rest :: behindFolders rest
    else behindFolders rest

/-- What may be left of a path behind the piece that a token stands for. -/
def Token.behind : Token → List Char → List (List Char)
  | .folders, path => path :: behindFolders path
  | .anything, path => behindRun (· != '\n') path
  | .segment, path => behindRun (· != '/') path
  | .character, [] => []
  | .character, c :: rest => if c = '/' then [] else [rest]
  | .literal _, [] => []
  | .literal expected, c :: rest => if c = expected then [rest] else []

def accepts : List Token → List Char → Bool
  | [], path => path.isEmpty
  | token :: rest, path => (token.behind path).any (accepts rest)

/-- Whether a glob describes a path. -/
def matchesPath (glob path : String) : Bool :=
  accepts (tokens glob.toList) path.toList

example : matchesPath "**/a?/*.md" "x/y/ab/c.md" = true := by decide +kernel

example : matchesPath "**/_*/**" "a/_b/c" = true := by decide +kernel

example : matchesPath "*.md" "a/b.md" = false := by decide +kernel

end Glob

namespace LoosePattern

/-- Every end of a text, the whole of it and the empty one included. -/
def ends : List Char → List (List Char)
  | [] => [[]]
  | c :: rest => (c :: rest) :: ends rest

/-- Whether the pieces stand in a text one after another, each behind any characters of a line. -/
def follows : List (List Char) → List Char → Bool
  | [], _ => true
  | piece :: rest, text =>
    (Glob.behindRun (· != '\n') text).any fun behind =>
      piece.isPrefixOf behind && follows rest (behind.drop piece.length)

/-- Whether a loose pattern describes a piece of a path. -/
def occursIn (pattern path : String) : Bool :=
  match pattern.toList.splitOn '*' with
  | [] => true
  | first :: rest =>
    (ends path.toList).any fun text =>
      first.isPrefixOf text && follows rest (text.drop first.length)

example : occursIn "b*d" "abcde" = true := by decide +kernel

example : occursIn "ce" "abcde" = false := by decide +kernel

end LoosePattern

end DocAudit
