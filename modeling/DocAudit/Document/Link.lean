import DocAudit.Tree.Path

/-!
Links to Markdown files: a text in brackets right before a target in parentheses that ends in
`.md`. A link is taken at the first place of a line that has one, and the next one is looked for
behind it.
-/

namespace DocAudit

structure Link where
  text : List Char
  target : List Char
  line : Nat
  deriving DecidableEq, Repr

namespace Link

/-- A target that starts like a web address does not lie in the docs. -/
def isExternal (link : Link) : Bool :=
  "http".toList.isPrefixOf link.target

/-- The docs-relative path that the link means in a source. -/
def resolve (link : Link) (source : String) : String :=
  String.ofList (LinkPath.resolve source.toList link.target)

end Link

namespace LinkSyntax

def extension : List Char := ['.', 'm', 'd']

/-- Text and target of the link that begins a line, if one does: the text goes to the first
closing bracket, the target to the first closing parenthesis. -/
def linkAt? : List Char → Option (List Char × List Char)
  | '[' :: body =>
    let text := body.takeWhile (· ≠ ']')
    match body.drop text.length with
    | ']' :: '(' :: inside =>
      let target := inside.takeWhile (· ≠ ')')
      let closed := target.length < inside.length
      if closed ∧ text ≠ [] ∧ extension.length < target.length ∧ extension.isSuffixOf target then
        some (text, target)
      else none
    | _ => none
  | _ => none

/-- The length of a link with its brackets and parentheses. -/
def linkLength (text target : List Char) : Nat :=
  text.length + target.length + 4

/-- Texts and targets of the links of a line; `covered` characters still belong to the link taken
last. -/
def linksFrom (covered : Nat) : List Char → List (List Char × List Char)
  | [] => []
  | c :: rest =>
    match covered with
    | left + 1 => linksFrom left rest
    | 0 =>
      match linkAt? (c :: rest) with
      | some (text, target) =>
        (text, target) :: linksFrom (linkLength text target - 1) rest
      | none => linksFrom 0 rest

def links (line : List Char) : List (List Char × List Char) :=
  linksFrom 0 line

example : links "[a](b.md) [c](d.txt) [[e](f.md)".toList
    = [(['a'], "b.md".toList), ("[e".toList, "f.md".toList)] := by decide +kernel

end LinkSyntax

end DocAudit
