import ScriptStrip.Json.Reader
import ScriptStrip.Number.Decimal
/-
This file reads the numbers of JSON texts. Whole numbers are exact as long as they fit into 64
bits. All others are floating point numbers, whose digits are read exactly as far as they fit
into 64 bits and are then scaled by a power of ten.
-/

namespace ScriptStrip.Json

/-- A number of a JSON text. -/
inductive Numeral where
  | whole (value : Int)
  | floating (isNegative : Bool) (magnitude : Binary)
deriving DecidableEq, Repr

namespace Numeral

/-- Numbers have up to sixteen digits before the point, and up to four zeros right behind it. -/
def layout : Decimal.Layout := ⟨-5, 15⟩

/-- The kind and the value of the number, for messages. -/
def describe : Numeral → String
  | whole value => "integer " ++ Cause.shown (toString value)
  | floating isNegative magnitude =>
      "floating point " ++ Cause.shown ((if isNegative then "-" else "") ++ magnitude.text layout)

/-- The exponent of a number is marked by this letter in either case. -/
def isExponentLetter (character : Char) : Bool := character == 'e' || character == 'E'

/-- The significand of a number is collected in 64 bits. -/
def significandLimit : Nat := 0xffffffffffffffff

/-- The exponent of a number is collected in 31 bits. -/
def exponentLimit : Nat := 0x7fffffff

/-- The greatest power of ten that is a floating point number. -/
def powerLimit : Nat := 308

/-- This is a power of ten, rounded to the nearest binary number. -/
def powerOfTen (power : Nat) : Binary := .ofNat (Nat.pow 10 power)

/-- Appends digits to a number as long as it stays within the limit. The digits that are left
over follow. -/
def absorb (limit : Nat) : Nat → List Char → Nat × List Char
  | number, [] => (number, [])
  | number, digit :: rest =>
      let next := 10 * number + (digit.toNat - '0'.toNat)
      if limit < next then (number, digit :: rest) else absorb limit next rest

/-- Divides by a power of ten, in steps that are floating point numbers themselves. -/
def shrink (number : Binary) (places : Nat) : Binary :=
  if places ≤ powerLimit then number.divide (powerOfTen places)
  else if number.isZero then number
  else shrink (number.divide (powerOfTen powerLimit)) (places - powerLimit)
termination_by places
decreasing_by simp [powerLimit] at *; omega

/-- The value of `significand * 10 ^ exponent`, unless it is out of range. -/
def scaled (significand : Nat) (exponent : Int) : Option Binary :=
  let number := Binary.ofNat significand
  if exponent < 0 then some (shrink number (-exponent).toNat)
  else if number.isZero then some number
  else if powerLimit < exponent.toNat then none
  else
    let product := number.multiply (powerOfTen exponent.toNat)
    if product.isInfinite then none else some product

/-- A negative number that does not fit into 64 bits is a floating point number, and so is a
negative zero. -/
def ofSignificand (isNegative : Bool) (significand : Nat) : Numeral :=
  if !isNegative then whole significand
  else if 0 < significand ∧ significand ≤ 0x8000000000000000 then whole (-significand)
  else floating true (.ofNat significand)

end Numeral

namespace Reader

/-- This reader takes all the digits that are ahead. -/
def digits : Reader (List Char) := do
  let found ← upcoming Char.isDigit
  skip found.length
  return found

/-- A zero in front stands alone. -/
def wholeDigits : Reader (List Char) := do
  if ← accept '0' then
    match ← upcoming Char.isDigit with
    | [] => return ['0']
    | _ => refuse .endInValue .invalidNumber
  else
    match ← digits with
    | [] => refuse .endInValue .invalidNumber
    | found => return found

/-- Extends a significand by the digits behind the point, and counts those that are used. -/
def fraction (significand : Nat) : Reader (Nat × Nat) := do
  if ← accept '.' then
    match ← digits with
    | [] => refuse .endInValue .invalidNumber
    | found =>
        let (extended, left) := Numeral.absorb Numeral.significandLimit significand found
        return (extended, found.length - left.length)
  else return (significand, 0)

/-- The exponent of a number that is not zero stays within its limit unless it is negative. -/
def exponent (significand : Nat) : Reader Int := do
  unless (← peek?).any Numeral.isExponentLetter do return 0
  skip 1
  let isNegative ← accept '-'
  unless isNegative do discard (accept '+')
  match ← upcoming Char.isDigit with
  | [] => refuse .endInValue .invalidNumber
  | found =>
      let (power, left) := Numeral.absorb Numeral.exponentLimit 0 found
      if left.isEmpty || isNegative || significand == 0 then
        skip found.length
        return if isNegative || !left.isEmpty then -(power : Int) else power
      else
        skip (found.length - left.length + 1)
        fail .numberOutOfRange

/-- A numeral has a sign, whole digits, and perhaps a fraction and an exponent. -/
def numeral : Reader Numeral := do
  let isNegative ← accept '-'
  let (significand, left) := Numeral.absorb Numeral.significandLimit 0 (← wholeDigits)
  let continues := (← peek?).any fun next => next == '.' || Numeral.isExponentLetter next
  if left.isEmpty && !continues then return .ofSignificand isNegative significand
  let (significand, places) ← fraction significand
  let power ← exponent significand
  match Numeral.scaled significand (left.length - places + power) with
  | some magnitude => return .floating isNegative magnitude
  | none => fail .numberOutOfRange

end Reader

end ScriptStrip.Json
