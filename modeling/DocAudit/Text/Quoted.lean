import DocAudit.Text.Printable

/-!
Quoted texts: a text between quotation marks on one line, with everything unprintable escaped.
-/

namespace DocAudit.Text

/-- Hexadecimal digits of a number, filled with zeros up to `width`. -/
def hexadecimal (width number : Nat) : List Char :=
  let digits := Nat.toDigits 16 number
  List.replicate (width - digits.length) '0' ++ digits

def escapeSequence (c : Char) : List Char :=
  let code := c.toNat
  if c = '\n' then ['\\', 'n']
  else if c = '\r' then ['\\', 'r']
  else if c = '\t' then ['\\', 't']
  else if code < 0x100 then '\\' :: 'x' :: hexadecimal 2 code
  else if code < 0x10000 then '\\' :: 'u' :: hexadecimal 4 code
  else '\\' :: 'U' :: hexadecimal 8 code

def quotedCharacter (quote c : Char) : List Char :=
  if c = quote ∨ c = '\\' then ['\\', c]
  else if isPrintable c then [c]
  else escapeSequence c

/-- Single quotation marks, unless only double ones spare the text an escape. -/
def quoteFor (text : List Char) : Char :=
  if text.contains '\x27' && !text.contains '\x22' then '\x22' else '\x27'

def quoted (text : List Char) : List Char :=
  let quote := quoteFor text
  quote :: text.flatMap (quotedCharacter quote) ++ [quote]

def quotedString (text : String) : String :=
  String.ofList (quoted text.toList)

example : quotedString "a'b" = "\"a'b\"" := by decide

example : quotedString "a\n\u00a0" = "'a\\n\\xa0'" := by decide

end DocAudit.Text
