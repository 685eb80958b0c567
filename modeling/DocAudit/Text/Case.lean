import DocAudit.Text.CaseTable

/-!
Upper and lower case of whole texts, and letters that count as the same when case does not
matter. Upper-casing may lengthen a text (`ß` becomes `SS`); lower-casing a sigma depends on
whether it ends its word.
-/

namespace DocAudit.Text

/-- The lower-case form that is a single letter. -/
def lowerLetter (c : Char) : Char :=
  if c.toNat < 128 then c.toLower
  else match lowerRuns.image? c.toNat with
    | some code => Char.ofNat code
    | none => c

def upperLetter (c : Char) : List Char :=
  if c.toNat < 128 then [c.toUpper]
  else match upperSpecials.lookup c.toNat with
    | some codes => codes.map Char.ofNat
    | none => match upperRuns.image? c.toNat with
      | some code => [Char.ofNat code]
      | none => [c]

def toUpper (text : List Char) : List Char :=
  text.flatMap upperLetter

/-- Whether the first character that the final-sigma rule does not look past is a letter with
case. -/
def meetsCased (text : List Char) : Bool :=
  (text.find? fun c => !caseIgnorableRanges.contains c).any casedRanges.contains

/-- Lower case of one character between its neighbours; `before` runs backwards. -/
def lowerBetween (before : List Char) (c : Char) (after : List Char) : List Char :=
  if c = 'Σ' then [if meetsCased before && !meetsCased after then 'ς' else 'σ']
  else if c = 'İ' then ['i', '\u0307']
  else [lowerLetter c]

def toLower.from (before : List Char) : List Char → List Char
  | [] => []
  | c :: after => lowerBetween before c after ++ toLower.from (c :: before) after

def toLower (text : List Char) : List Char :=
  toLower.from [] text

/-- Other lower-case letters that share their upper case with the lower-case letter of `code`. -/
def partners (code : Nat) : List Nat :=
  (lowerPartners.lookup code).getD []

/-- Whether two characters are the same letter when case does not matter. -/
def sameLetter (left right : Char) : Bool :=
  let lower := (lowerLetter left).toNat
  let other := (lowerLetter right).toNat
  other == lower || (partners lower).contains other

/-- Every code point that is the same letter as `c` when case does not matter. -/
def caseVariants (c : Char) : List Nat :=
  let lower := (lowerLetter c).toNat
  (lower :: partners lower).flatMap fun code =>
    if (lowerLetter (Char.ofNat code)).toNat = code then code :: lowerRuns.preimages code
    else lowerRuns.preimages code

def hasCase (c : Char) : Bool :=
  lowerLetter c != c || upperLetter c != [c]

example : toUpper ['s', 'ß'] = ['S', 'S', 'S'] := by decide

example : toLower ['Σ', 'Σ'] = ['σ', 'ς'] := by decide +kernel

example : sameLetter 's' 'ſ' = true := by decide

end DocAudit.Text
