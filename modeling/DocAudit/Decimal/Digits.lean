import DocAudit.Decimal.Binary

/-!
Decimal digits of a positive number `mantissa * 2 ^ exponent`, to a given place, to a given
count, or as few as identify it.

A numeral `⟨digits, point⟩` stands for `digits * 10 ^ (point - n)` where `n` counts the decimal
digits of `digits`, so `point` is the number of digits before the decimal point.
-/

namespace DocAudit.Decimal

structure Numeral where
  digits : Nat
  point : Int
  deriving DecidableEq, Repr

def digitCount (number : Nat) : Nat :=
  (Nat.toDigits 10 number).length

def Numeral.ofScaled (digits : Nat) (power : Int) : Numeral where
  digits := digits
  point := digitCount digits + power

/-- How many digits a positive number has before the decimal point; zero or negative where it
starts with zeros behind the point. -/
def leadingPoint (mantissa : Nat) (exponent : Int) : Int :=
  let (numerator, denominator) := ratio mantissa exponent 0
  if denominator ≤ numerator then digitCount (numerator / denominator)
  else
    let inverse := digitCount (denominator / numerator)
    if numerator * Nat.pow 10 inverse ≤ denominator then -(inverse : Int) else 1 - (inverse : Int)

/-- The number rounded to a multiple of `10 ^ power`, as that multiple. -/
def roundedAt (mantissa : Nat) (exponent power : Int) : Nat :=
  let (numerator, denominator) := ratio mantissa exponent (-power)
  roundDiv numerator denominator

/-- Rounded to `count` significant digits. -/
def significant (count : Nat) (mantissa : Nat) (exponent : Int) : Numeral :=
  let power := leadingPoint mantissa exponent - count
  .ofScaled (roundedAt mantissa exponent power) power

/-- Whether `digits * 10 ^ power` lies among the reals that round to the number. The ends of that
interval belong to it when the mantissa is even; its lower half is shorter at the start of a
binade. -/
def identifies (mantissa : Nat) (exponent : Int) (digits : Nat) (power : Int) : Bool :=
  let (numerator, denominator) := ratio digits (2 - exponent) power
  let below := if mantissa = Binary.hiddenBit ∧ exponent ≠ Binary.leastExponent then 1 else 2
  let low := (4 * mantissa - below) * denominator
  let high := (4 * mantissa + 2) * denominator
  if mantissa % 2 = 0 then low ≤ numerator && numerator ≤ high
  else low < numerator && numerator < high

/-- The nearer of the number's two neighbours on the grid of `10 ^ power` that identify it. -/
def identifyingDigits? (mantissa : Nat) (exponent power : Int) : Option Nat :=
  let (numerator, denominator) := ratio mantissa exponent (-power)
  let lower := numerator / denominator
  let nearest := roundDiv numerator denominator
  let other := if nearest = lower then lower + 1 else lower
  [nearest, other].find? fun digits => 0 < digits && identifies mantissa exponent digits power

/-- The fewest digits, at most seventeen, that identify the number. -/
def shortest (mantissa : Nat) (exponent : Int) : Numeral :=
  let point := leadingPoint mantissa exponent
  let candidates := (List.range 17).filterMap fun (index : Nat) =>
    let power : Int := point - (index + 1)
    (identifyingDigits? mantissa exponent power).map fun digits => Numeral.ofScaled digits power
  candidates.head?.getD (significant 17 mantissa exponent)

example : shortest (3 * Nat.pow 2 51) (-52) = ⟨15, 1⟩ := by decide +kernel

example : shortest 1 (-1074) = ⟨5, -323⟩ := by decide +kernel

end DocAudit.Decimal
