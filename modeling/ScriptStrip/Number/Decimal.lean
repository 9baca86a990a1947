import ScriptStrip.Number.Binary
/-
This file finds the decimal with the fewest digits that is rounded to a given floating point
number, and writes it down.
-/

namespace ScriptStrip

/-- The value `digits * 10 ^ scale`. -/
structure Decimal where
  digits : Nat
  scale : Int
deriving DecidableEq, Repr

namespace Decimal

/-- The values that are rounded to one number, in quarters of the distance to the number above. -/
structure Interval where
  middle : Nat
  low : Nat
  high : Nat
  closed : Bool
  exponent : Int

/-- The number below a power of two is only half as far away as the number above it. -/
def Interval.around (number : Binary) : Interval where
  middle := 4 * number.mantissa
  low := 4 * number.mantissa -
    (if number.mantissa == Nat.pow 2 52 && Binary.leastExponent < number.exponent then 1 else 2)
  high := 4 * number.mantissa + 2
  closed := number.mantissa % 2 == 0
  exponent := number.exponent - 2

/-- The multiple of `10 ^ scale` in the interval that is nearest to its middle, if there is one.
Of two that are equally near, the even one is taken. -/
def Interval.nearest? (interval : Interval) (scale : Int) : Option Decimal :=
  let magnify := Nat.pow 2 interval.exponent.toNat * Nat.pow 10 (-scale).toNat
  let unit := Nat.pow 10 scale.toNat * Nat.pow 2 (-interval.exponent).toNat
  let middle := interval.middle * magnify
  let isInside := fun digits =>
    let value := digits * unit
    if interval.closed then interval.low * magnify ≤ value && value ≤ interval.high * magnify
    else interval.low * magnify < value && value < interval.high * magnify
  let below := middle / unit
  let above := below + 1
  let distanceBelow := middle - below * unit
  let distanceAbove := above * unit - middle
  let belowIsNearer :=
    distanceBelow < distanceAbove || (distanceBelow == distanceAbove && below % 2 == 0)
  match isInside below, isInside above with
  | true, true => some ⟨if belowIsNearer then below else above, scale⟩
  | true, false => some ⟨below, scale⟩
  | false, true => some ⟨above, scale⟩
  | false, false => none

/-- The powers of ten are tried from the coarsest to the finest that a floating point number can
need. -/
def shortest (number : Binary) : Decimal :=
  let interval := Interval.around number
  ((List.range 640).findSome? fun (step : Nat) => interval.nearest? (309 - step)).getD ⟨0, 0⟩

/-- At least one digit stands on either side of the point. -/
def positional (digits : List Char) (scale : Int) : List Char :=
  if 0 ≤ scale then digits ++ List.replicate scale.toNat '0' ++ ['.', '0']
  else
    let places := (-scale).toNat
    if digits.length ≤ places then
      ['0', '.'] ++ List.replicate (places - digits.length) '0' ++ digits
    else digits.take (digits.length - places) ++ '.' :: digits.drop (digits.length - places)

/-- One digit stands before the point, and the exponent has a sign. -/
def scientific (digits : List Char) (power : Int) : List Char :=
  let exponent := (if 0 ≤ power then '+' else '-') :: Nat.toDigits 10 power.natAbs
  match digits with
  | [] => 'e' :: exponent
  | [digit] => digit :: 'e' :: exponent
  | first :: rest => first :: '.' :: rest ++ 'e' :: exponent

/-- How decimals are written. -/
structure Layout where
  /-- The least power of ten that a first digit is written without an exponent for. -/
  least : Int
  /-- The greatest such power. -/
  greatest : Int
deriving DecidableEq, Repr

/-- A number within the limits of the layout is written without an exponent. -/
def text (layout : Layout) (decimal : Decimal) : String :=
  let digits := Nat.toDigits 10 decimal.digits
  let power := decimal.scale + digits.length - 1
  String.ofList (if layout.least ≤ power ∧ power ≤ layout.greatest then
    positional digits decimal.scale
  else scientific digits power)

end Decimal

/-- The shortest text that is read back as the number. -/
def Binary.text (layout : Decimal.Layout) (number : Binary) : String :=
  if number.isZero then "0.0" else (Decimal.shortest number).text layout

end ScriptStrip
