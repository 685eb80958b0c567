import DocAudit.Decimal.Digits

/-!
Floating-point numbers as texts: in the fewest digits that read back, with a fixed number of
places, and with a fixed number of significant digits.
-/

namespace DocAudit.Decimal

def numberText (number : Nat) : List Char :=
  Nat.toDigits 10 number

/-- Drops the zeros at the end of a run of digits. -/
def withoutTrailingZeros (digits : List Char) : List Char :=
  (digits.reverse.dropWhile (· == '0')).reverse

/-- Digits before and behind the decimal point; zeros fill up to the point on either side. -/
def positional (digits : List Char) (point : Int) : List Char × List Char :=
  if point ≤ 0 then (['0'], List.replicate (-point).toNat '0' ++ digits)
  else
    let before := point.toNat
    (digits.take before ++ List.replicate (before - digits.length) '0', digits.drop before)

/-- A sign and at least two digits. -/
def exponentText (exponent : Int) : List Char :=
  let digits := numberText exponent.natAbs
  (if exponent < 0 then '-' else '+') ::
    List.replicate (2 - digits.length) '0' ++ digits

def scientific (digits : List Char) (point : Int) : List Char :=
  let mantissa := match digits with
    | [] => ['0']
    | [digit] => [digit]
    | first :: rest => first :: '.' :: rest
  mantissa ++ 'e' :: exponentText (point - 1)

def signed (negative : Bool) (text : List Char) : List Char :=
  if negative then '-' :: text else text

def infinityText : List Char := ['i', 'n', 'f']

def notANumberText : List Char := ['n', 'a', 'n']

/-- The fewest digits that read back: positional from `0.0001` up to below `10 ^ 16`, always with
a digit behind the point, and scientific elsewhere. -/
def shortestText (number : Float) : List Char :=
  match Binary.ofFloat number with
  | .notANumber => notANumberText
  | .infinite negative => signed negative infinityText
  | .finite negative 0 _ => signed negative ['0', '.', '0']
  | .finite negative mantissa exponent =>
    let numeral := shortest mantissa exponent
    let digits := withoutTrailingZeros (numberText numeral.digits)
    signed negative <|
      if -3 ≤ numeral.point ∧ numeral.point ≤ 16 then
        let (before, behind) := positional digits numeral.point
        before ++ '.' :: (if behind.isEmpty then ['0'] else behind)
      else scientific digits numeral.point

/-- Exactly `places` digits behind the point. -/
def fixedText (places : Nat) (number : Float) : List Char :=
  match Binary.ofFloat number with
  | .notANumber => notANumberText
  | .infinite negative => signed negative infinityText
  | .finite negative mantissa exponent =>
    let digits := numberText (roundedAt mantissa exponent (-(places : Int)))
    let filled := List.replicate (places + 1 - digits.length) '0' ++ digits
    let before := filled.length - places
    signed negative <| filled.take before ++
      (if places = 0 then [] else '.' :: filled.drop before)

/-- Six significant digits without zeros at the end: positional from `0.0001` up to below
`10 ^ 6`, scientific elsewhere. -/
def generalText (number : Float) : List Char :=
  match Binary.ofFloat number with
  | .notANumber => notANumberText
  | .infinite negative => signed negative infinityText
  | .finite negative 0 _ => signed negative ['0']
  | .finite negative mantissa exponent =>
    let numeral := significant 6 mantissa exponent
    let digits := withoutTrailingZeros (numberText numeral.digits)
    signed negative <|
      if -3 ≤ numeral.point ∧ numeral.point ≤ 6 then
        let (before, behind) := positional digits numeral.point
        before ++ (if behind.isEmpty then [] else '.' :: behind)
      else scientific digits numeral.point

end DocAudit.Decimal
