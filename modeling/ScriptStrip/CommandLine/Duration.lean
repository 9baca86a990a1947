/-
This file writes lengths of time.
-/

namespace ScriptStrip.CommandLine

/-- A decimal fraction of so many places, without the zeros at its end. -/
def fractionText (places part : Nat) : String :=
  let digits := Nat.toDigits 10 part
  let full := List.replicate (places - digits.length) '0' ++ digits
  match (full.reverse.dropWhile (· == '0')).reverse with
  | [] => ""
  | kept => String.ofList ('.' :: kept)

/-- A length of time in nanoseconds, in the greatest unit that it reaches. -/
def durationText (nanoseconds : Nat) : String :=
  let measured := fun (places : Nat) (unit : String) =>
    let scale := Nat.pow 10 places
    toString (nanoseconds / scale) ++ fractionText places (nanoseconds % scale) ++ unit
  if Nat.pow 10 9 ≤ nanoseconds then measured 9 "s"
  else if Nat.pow 10 6 ≤ nanoseconds then measured 6 "ms"
  else if Nat.pow 10 3 ≤ nanoseconds then measured 3 "µs"
  else measured 0 "ns"

end ScriptStrip.CommandLine
