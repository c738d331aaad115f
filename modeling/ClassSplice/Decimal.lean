/-!
# Decimal text of floating-point numbers

A number is shown with a fixed count of decimal places. The exact binary value is rounded, and a
value half-way between two decimals goes to the even one.
-/

namespace ClassSplice.Decimal

/-- The quotient rounded to the nearest integer, a tie to the even one. -/
def roundDiv (num den : Nat) : Nat :=
  let quotient := num / den
  let twice := 2 * (num % den)
  if twice < den ∨ twice = den ∧ quotient % 2 = 0 then quotient else quotient + 1

/-- A number of units of the last place as decimal text. -/
def placed (places units : Nat) : String :=
  let scale := Nat.pow 10 places
  let digits := Nat.toDigits 10 (units % scale)
  toString (units / scale) ++ "." ++
    String.ofList (List.replicate (places - digits.length) '0' ++ digits)

/-- How many units of the last place a finite number has, given its binary exponent and fraction as
they are stored. -/
def unitsOf (places exponent fraction : Nat) : Nat :=
  let significand := if exponent = 0 then fraction else Nat.pow 2 52 + fraction
  let scaled := significand * Nat.pow 10 places
  let exponent := max exponent 1
  if 1075 ≤ exponent then scaled * Nat.pow 2 (exponent - 1075)
  else roundDiv scaled (Nat.pow 2 (1075 - exponent))

/-- The number with the given count of places, which is at least one; zeros keep their sign. -/
def fixed (places : Nat) (x : Float) : String :=
  let bits := x.toBits.toNat
  let exponent := bits / Nat.pow 2 52 % Nat.pow 2 11
  let fraction := bits % Nat.pow 2 52
  let sign := if Nat.pow 2 63 ≤ bits then "-" else ""
  if exponent = 2047 then (if fraction = 0 then sign ++ "inf" else "NaN")
  else sign ++ placed places (unitsOf places exponent fraction)

end ClassSplice.Decimal
