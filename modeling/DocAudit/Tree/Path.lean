import DocAudit.Text.Lines

/-!
Paths in two readings. As a name of a file, a path is a row of parts: empty ones and single dots
carry no meaning and are dropped, and two dots are kept, since what they lead to depends on the
files. As the target of a link, a path is a text that is resolved against the folder of its
source, and there two dots take back the part before them.
-/

namespace DocAudit

def splitSlashes (path : String) : List String :=
  (path.toList.splitOn '/').map String.ofList

/-- Exactly two leading slashes are kept, three or more count as one. -/
def leadingSlashes (path : List Char) : List Char :=
  match path with
  | '/' :: '/' :: '/' :: _ => ['/']
  | '/' :: '/' :: _ => ['/', '/']
  | '/' :: _ => ['/']
  | _ => []

/-- A name of a file. Slashes lead an absolute path; two of them mean what one does. -/
structure FilePath where
  slashes : Nat
  parts : List String
  deriving DecidableEq, Repr

namespace FilePath

def ofString (path : String) : FilePath where
  slashes := (leadingSlashes path.toList).length
  parts := (splitSlashes path).filter fun part => part ≠ "" ∧ part ≠ "."

def fromTop (parts : List String) : FilePath where
  slashes := 1
  parts := parts

def isAbsolute (path : FilePath) : Bool :=
  0 < path.slashes

/-- An absolute path replaces what it is joined to. -/
def join (folder path : FilePath) : FilePath :=
  if path.isAbsolute then path else { folder with parts := folder.parts ++ path.parts }

def child (folder : FilePath) (path : String) : FilePath :=
  folder.join (ofString path)

def parent (path : FilePath) : FilePath :=
  { path with parts := path.parts.dropLast }

def name (path : FilePath) : String :=
  path.parts.getLast?.getD ""

def joinSlashes (parts : List String) : String :=
  "/".intercalate parts

def toString (path : FilePath) : String :=
  if path.slashes = 0 ∧ path.parts = [] then "."
  else String.ofList (List.replicate path.slashes '/') ++ joinSlashes path.parts

/-- Two dots take back the part before them; at the top of an absolute path they mean nothing. -/
def collapsed (path : FilePath) : FilePath :=
  { path with parts := (path.parts.foldl step []).reverse }
where
  step (done : List String) (part : String) : List String :=
    if part ≠ ".." then part :: done else done.tail

/-- Paths are ordered part by part. -/
def lessOrEqualParts : List String → List String → Bool
  | [], _ => true
  | _ :: _, [] => false
  | left :: lefts, right :: rights =>
    left < right || (left == right && lessOrEqualParts lefts rights)

def lessOrEqual (left right : FilePath) : Bool :=
  lessOrEqualParts left.parts right.parts

/-- Where the last dot of a name splits it, unless it leads or ends the name. -/
def splitName (name : String) : String × String :=
  let characters := name.toList
  let behind := characters.reverse.takeWhile (· ≠ '.')
  let split := characters.length - behind.length - 1
  if behind.length < characters.length ∧ 0 < split ∧ ¬ behind.isEmpty then
    (String.ofList (characters.take split), String.ofList (characters.drop split))
  else (name, "")

def stem (name : String) : String :=
  (splitName name).1

def suffix (name : String) : String :=
  (splitName name).2

end FilePath

/-- The last part of a docs-relative path. -/
def fileName (file : String) : String :=
  (FilePath.ofString file).name

namespace LinkPath

/-- Everything before the last slash; slashes at the end of it go, unless it has no other
character. -/
def folder (source : List Char) : List Char :=
  let upToSlash := (source.reverse.dropWhile (· ≠ '/')).reverse
  if upToSlash.all (· == '/') then upToSlash
  else (upToSlash.reverse.dropWhile (· == '/')).reverse

def join (folder target : List Char) : List Char :=
  if target.head? = some '/' then target
  else if folder.isEmpty ∨ folder.getLast? = some '/' then folder ++ target
  else folder ++ '/' :: target

/-- One part after those before it, nearest first. Two dots take back a part that is none
themselves; an absolute path has nothing above its top. -/
def push (absolute : Bool) (done : List (List Char)) (part : List Char) : List (List Char) :=
  if part = [] ∨ part = ['.'] then done
  else if part ≠ ['.', '.'] then part :: done
  else match done with
    | [] => if absolute then [] else [part]
    | top :: rest => if top = ['.', '.'] then part :: done else rest

def normalize (path : List Char) : List Char :=
  let slashes := leadingSlashes path
  let parts := ((path.splitOn '/').foldl (push (!slashes.isEmpty)) []).reverse
  let normal := slashes ++ ['/'].intercalate parts
  if normal.isEmpty then ['.'] else normal

/-- The docs-relative path that a target means in a source. -/
def resolve (source target : List Char) : List Char :=
  normalize (join (folder source) target)

example : resolve ['a', '/', 'b'] ['.', '.', '/', 'c', '/', '.', '/', 'd'] = ['c', '/', 'd'] := by
  decide

end LinkPath

end DocAudit
