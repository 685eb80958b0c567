import DocAudit.Decimal.Format
import DocAudit.Text.Quoted

/-!
Values as a configuration file gives them. Options are not checked when they are read, so a rule
may meet any shape of value where it expects another one.

A `tuple` is a list that has been fixed as the value of an option. A table keeps its entries in
the order in which their keys first came.
-/

namespace DocAudit

inductive Value where
  | null
  | bool (truth : Bool)
  | int (number : Int)
  | float (number : Float)
  | text (content : String)
  | list (items : List Value)
  | tuple (items : List Value)
  | table (entries : List (String × Value))
  deriving Inhabited

abbrev Entries := List (String × Value)

namespace Entries

/-- A repeated key keeps its first place and takes its last value. -/
def insert (entries : Entries) (key : String) (value : Value) : Entries :=
  if entries.any (·.1 == key) then
    entries.map fun entry => if entry.1 == key then (key, value) else entry
  else entries ++ [(key, value)]

def ofList (pairs : List (String × Value)) : Entries :=
  pairs.foldl (fun entries (key, value) => entries.insert key value) []

def erase (entries : Entries) (key : String) : Entries :=
  entries.filter (·.1 != key)

def keys (entries : Entries) : List String :=
  entries.map (·.1)

def hasKey (entries : Entries) (key : String) : Bool :=
  entries.any (·.1 == key)

end Entries

/-- The shapes that error messages tell apart. -/
inductive Shape where
  | null
  | bool
  | int
  | float
  | text
  | list
  | tuple
  | table
  deriving DecidableEq, Repr

def Shape.name : Shape → String
  | .null => "NoneType"
  | .bool => "bool"
  | .int => "int"
  | .float => "float"
  | .text => "str"
  | .list => "list"
  | .tuple => "tuple"
  | .table => "dict"

namespace Value

def shape : Value → Shape
  | .null => .null
  | .bool _ => .bool
  | .int _ => .int
  | .float _ => .float
  | .text _ => .text
  | .list _ => .list
  | .tuple _ => .tuple
  | .table _ => .table

/-- Nothing, zero and everything empty count as false. -/
def truthy : Value → Bool
  | .null => false
  | .bool truth => truth
  | .int number => number != 0
  | .float number => !(number == 0)
  | .text content => !content.isEmpty
  | .list items => !items.isEmpty
  | .tuple items => !items.isEmpty
  | .table entries => !entries.isEmpty

/-- Only values without a list or a table inside can be looked up or compiled as a key. The result
is the shape that stands in the way. -/
def unhashable? : Value → Option Shape
  | .list _ => some .list
  | .table _ => some .table
  | .tuple items => unhashableItem? items
  | _ => none
where
  unhashableItem? : List Value → Option Shape
    | [] => none
    | item :: rest => (unhashable? item).orElse fun _ => unhashableItem? rest

def ofTexts (texts : List String) : Value :=
  .tuple (texts.map .text)

def boolText (truth : Bool) : String :=
  if truth then "True" else "False"

mutual

/-- How a value is written inside another value and where a message quotes it. -/
def quoted : Value → String
  | .null => "None"
  | .bool truth => boolText truth
  | .int number => toString number
  | .float number => String.ofList (Decimal.shortestText number)
  | .text content => Text.quotedString content
  | .list items => "[" ++ quotedItems items ++ "]"
  | .tuple [item] => "(" ++ quoted item ++ ",)"
  | .tuple items => "(" ++ quotedItems items ++ ")"
  | .table entries => "\x7b" ++ quotedEntries entries ++ "\x7d"

def quotedItems : List Value → String
  | [] => ""
  | [item] => quoted item
  | item :: rest => quoted item ++ ", " ++ quotedItems rest

def quotedEntries : List (String × Value) → String
  | [] => ""
  | [(key, value)] => Text.quotedString key ++ ": " ++ quoted value
  | (key, value) :: rest =>
    Text.quotedString key ++ ": " ++ quoted value ++ ", " ++ quotedEntries rest

end

/-- How a value is written where it stands for itself: a text as it is. -/
def plain : Value → String
  | .text content => content
  | value => quoted value

end Value

example : (Value.tuple [.text "a"]).plain = "('a',)" := by decide +kernel

example : (Value.table [("k", .list [.null, .bool true])]).plain
    = "\x7b'k': [None, True]\x7d" := by decide +kernel

end DocAudit
