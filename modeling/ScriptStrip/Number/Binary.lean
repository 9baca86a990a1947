/-
This file defines floating point numbers of 64 bits without their sign, and their rounding.
-/

namespace ScriptStrip

/-- The value `mantissa * 2 ^ exponent`. Rounding keeps the mantissa below `2 ^ 53`. -/
structure Binary where
  mantissa : Nat
  exponent : Int
deriving DecidableEq, Repr

namespace Binary

/-- The exponent of the values that are nearest to zero. -/
def leastExponent : Int := -1074

/-- A value with a greater exponent is out of range. -/
def greatestExponent : Int := 971

/-- Zero has the least exponent. -/
def zero : Binary := ⟨0, leastExponent⟩

/-- The quotient is rounded to the nearest natural number, and halves to the even one. -/
def roundedQuotient (numerator denominator : Nat) : Nat :=
  let below := numerator / denominator
  let twice := 2 * (numerator % denominator)
  if twice < denominator || (twice == denominator && below % 2 == 0) then below else below + 1

/-- The power of two that is the last place of the quotient in 53 places. -/
def lastPlace (numerator denominator : Nat) : Int :=
  let difference := (numerator.log2 : Int) - (denominator.log2 : Int)
  let reached :=
    denominator * Nat.pow 2 difference.toNat ≤ numerator * Nat.pow 2 (-difference).toNat
  max leastExponent ((if reached then difference else difference - 1) - 52)

/-- The value that is nearest to a quotient, whose denominator is not zero. -/
def ofQuotient (numerator denominator : Nat) : Binary :=
  if numerator = 0 then zero
  else
    let exponent := lastPlace numerator denominator
    let mantissa :=
      roundedQuotient (numerator * Nat.pow 2 (-exponent).toNat)
        (denominator * Nat.pow 2 exponent.toNat)
    if mantissa = Nat.pow 2 53 then ⟨Nat.pow 2 52, exponent + 1⟩ else ⟨mantissa, exponent⟩

/-- A natural number is rounded to the nearest binary number. -/
def ofNat (number : Nat) : Binary := ofQuotient number 1

/-- Only zero has no mantissa. -/
def isZero (number : Binary) : Bool := number.mantissa == 0

/-- A number above the greatest exponent is infinite. -/
def isInfinite (number : Binary) : Bool := greatestExponent < number.exponent

/-- The part of the value that is above the fraction line, for a quotient. -/
def numerator (number : Binary) : Nat := number.mantissa * Nat.pow 2 number.exponent.toNat

/-- The part of the value that is below the fraction line, for a quotient. -/
def denominator (number : Binary) : Nat := Nat.pow 2 (-number.exponent).toNat

/-- A product is rounded once. -/
def multiply (left right : Binary) : Binary :=
  ofQuotient (left.numerator * right.numerator) (left.denominator * right.denominator)

/-- A quotient is rounded once. -/
def divide (left right : Binary) : Binary :=
  ofQuotient (left.numerator * right.denominator) (left.denominator * right.numerator)

end Binary

end ScriptStrip
