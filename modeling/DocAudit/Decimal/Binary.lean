/-!
Binary floating-point numbers as exact values. A finite number is `mantissa * 2 ^ exponent`, so
questions about its decimal digits are questions about natural numbers.
-/

namespace DocAudit.Decimal

inductive Binary where
  | notANumber
  | infinite (negative : Bool)
  | finite (negative : Bool) (mantissa : Nat) (exponent : Int)
  deriving DecidableEq, Repr

namespace Binary

def leastExponent : Int := -1074

/-- The mantissa of the smallest number of each binade but the first. -/
def hiddenBit : Nat := Nat.pow 2 52

def ofBits (bits : UInt64) : Binary :=
  let word : Nat := bits.toNat
  let negative := decide (Nat.pow 2 63 ≤ word)
  let field : Nat := word / hiddenBit % Nat.pow 2 11
  let fraction : Nat := word % hiddenBit
  if field = Nat.pow 2 11 - 1 then
    if fraction = 0 then .infinite negative else .notANumber
  else if field = 0 then .finite negative fraction leastExponent
  else .finite negative (fraction + hiddenBit) ((field : Int) - 1 + leastExponent)

def ofFloat (number : Float) : Binary :=
  ofBits number.toBits

end Binary

/-- Numerator and denominator of `factor * 2 ^ binary * 10 ^ decimal`. -/
def ratio (factor : Nat) (binary decimal : Int) : Nat × Nat :=
  (factor * Nat.pow 2 binary.toNat * Nat.pow 10 decimal.toNat,
    Nat.pow 2 (-binary).toNat * Nat.pow 10 (-decimal).toNat)

/-- The nearest integer to a quotient; a half goes to the even neighbour. -/
def roundDiv (numerator denominator : Nat) : Nat :=
  let quotient := numerator / denominator
  let twice := 2 * (numerator % denominator)
  if twice < denominator ∨ (twice = denominator ∧ quotient % 2 = 0) then quotient
  else quotient + 1

/-- Whether a floating-point number lies below an integer, compared exactly. -/
def lessThanInt (number : Float) (bound : Int) : Bool :=
  match Binary.ofFloat number with
  | .notANumber => false
  | .infinite negative => negative
  | .finite negative mantissa exponent =>
    let (numerator, denominator) := ratio mantissa exponent 0
    (if negative then -(numerator : Int) else numerator) < bound * denominator

example : Binary.ofBits 0x3FF8000000000000 = .finite false (3 * Nat.pow 2 51) (-52) := by decide

example : roundDiv 5 2 = 2 ∧ roundDiv 7 2 = 4 ∧ roundDiv 8 3 = 3 := by decide

end DocAudit.Decimal
