import DocAudit.Value.Basic

/-!
Writing values as JSON text, over several lines or on one. Only what JSON cannot hold in a string
is escaped.
-/

namespace DocAudit.Json

def escaped (c : Char) : List Char :=
  if c = '"' then ['\\', '"']
  else if c = '\\' then ['\\', '\\']
  else if c = '\n' then ['\\', 'n']
  else if c = '\r' then ['\\', 'r']
  else if c = '\t' then ['\\', 't']
  else if c = '\x08' then ['\\', 'b']
  else if c = '\x0c' then ['\\', 'f']
  else if c.toNat < 0x20 then '\\' :: 'u' :: Text.hexadecimal 4 c.toNat
  else [c]

def stringText (content : String) : String :=
  String.ofList ('"' :: content.toList.flatMap escaped ++ ['"'])

def floatText (number : Float) : String :=
  match Decimal.Binary.ofFloat number with
  | .notANumber => "NaN"
  | .infinite negative => if negative then "-Infinity" else "Infinity"
  | .finite .. => String.ofList (Decimal.shortestText number)

/-- How lines break: after what, and how deep they are indented. On one line nothing breaks. -/
inductive Layout where
  | oneLine
  | indented (width : Nat)

def Layout.lineBreak (layout : Layout) (depth : Nat) : String :=
  match layout with
  | .oneLine => ""
  | .indented width => String.ofList ('\n' :: List.replicate (width * depth) ' ')

def Layout.comma (layout : Layout) (depth : Nat) : String :=
  match layout with
  | .oneLine => ", "
  | .indented _ => "," ++ layout.lineBreak depth

/-- Brackets around what they hold, which stands one step deeper. -/
def Layout.enclosed (layout : Layout) (depth : Nat) (opening inside closing : String) : String :=
  opening ++ layout.lineBreak (depth + 1) ++ inside ++ layout.lineBreak depth ++ closing

mutual

def text (layout : Layout) (depth : Nat) : Value → String
  | .null => "null"
  | .bool truth => if truth then "true" else "false"
  | .int number => toString number
  | .float number => floatText number
  | .text content => stringText content
  | .list items =>
    if items.isEmpty then "[]"
    else layout.enclosed depth "[" (elementsText layout (depth + 1) items) "]"
  | .tuple items =>
    if items.isEmpty then "[]"
    else layout.enclosed depth "[" (elementsText layout (depth + 1) items) "]"
  | .table entries =>
    if entries.isEmpty then "\x7b\x7d"
    else layout.enclosed depth "\x7b" (membersText layout (depth + 1) entries) "\x7d"

def elementsText (layout : Layout) (depth : Nat) : List Value → String
  | [] => ""
  | [item] => text layout depth item
  | item :: rest =>
    text layout depth item ++ layout.comma depth ++ elementsText layout depth rest

def membersText (layout : Layout) (depth : Nat) : List (String × Value) → String
  | [] => ""
  | [(key, item)] => stringText key ++ ": " ++ text layout depth item
  | (key, item) :: rest =>
    stringText key ++ ": " ++ text layout depth item ++ layout.comma depth
      ++ membersText layout depth rest

end

def indentedText (value : Value) : String :=
  text (.indented 2) 0 value

def lineText (value : Value) : String :=
  text .oneLine 0 value

example : indentedText (.table [("a", .list [.int 1, .null]), ("b", .list [])])
    = "\x7b\n  \"a\": [\n    1,\n    null\n  ],\n  \"b\": []\n\x7d" := by decide +kernel

end DocAudit.Json
