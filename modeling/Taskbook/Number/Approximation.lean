import Taskbook.Number.Numeral
import Taskbook.Number.Scaling

/-!
# Doubles of Numeric Columns

A numeric column takes a numeral as a double by way of the working form of
`Taskbook.Number.Scaling`. As many digits as fit 64 bits make an integer, the *significand*;
digits after those move the decimal point at most. The significand takes back as much of the
power of ten as it can without rounding, and what is left of the power is applied step by
step.

For numerals of up to nineteen digits and small exponents this is the closest double. For
longer ones it may be a neighbour of it: `9007199254740993.0000001` reads as
`9007199254740992`, since its last digit does not fit the significand.
-/

namespace Taskbook.Number

/-- The size from which on a significand takes no further digit. -/
def fullSignificand : Nat := (Nat.pow 2 64 - 10) / 10

/-- Appends digits to a significand until it is full. Answers the significand and how many
digits are left. -/
def takeDigits (s : Nat) : List Char → Nat × Nat
  | [] => (s, 0)
  | c :: cs =>
    if s < fullSignificand then takeDigits (10 * s + (c.toNat - '0'.toNat)) cs
    else (s, cs.length + 1)

/-- The exponent that digits spell. Once it has reached ten thousand, a further digit makes it
ten thousand. -/
def readPower (digits : List Char) : Nat :=
  digits.foldl (fun e c => if e < 10000 then 10 * e + (c.toNat - '0'.toNat) else 10000) 0

/-- Multiplies a significand by ten while it fits 64 bits, at most as often as the exponent
says. Answers what is left of the exponent, and the significand. -/
def absorbPower : Nat → Nat → Nat × Nat
  | 0, s => (0, s)
  | e + 1, s => if s < (Nat.pow 2 64 - 1) / 10 then absorbPower e (10 * s) else (e + 1, s)

/-- Divides a significand by ten while it ends in a zero, at most as often as the negative
exponent says. Answers what is left of the exponent, and the significand. -/
def shedZeros : Nat → Nat → Nat × Nat
  | 0, s => (0, s)
  | e + 1, s => if s % 10 = 0 then shedZeros e (s / 10) else (e + 1, s)

namespace Binary64

/-- The greatest finite double. -/
def greatest : Rat := (Nat.pow 2 53 - 1 : Nat) * twoPow 971

/-- The double of a nonnegative number in working form. Anything above the greatest double is
infinite, even where it would round to it. -/
def ofWorking (q : Rat) : Binary64 :=
  if greatest < q then .infinite false else nearest q

/-- The double of a positive significand times a power of ten. -/
def ofScaled (s : Nat) (e : Int) : Binary64 :=
  let (left, s) := if 0 ≤ e then absorbPower e.toNat s else shedZeros (-e).toNat s
  if left = 0 then nearest s
  else if 400 < left then (if 0 ≤ e then .infinite false else .finite 0)
  else ofWorking (scaleTen (e.sign * left) s)

end Binary64

/-- The double that a numeric column takes a numeral as. -/
def Spelling.approximate (p : Spelling) : Binary64 :=
  let (s, left) := takeDigits 0 (p.whole ++ p.fraction)
  let e : Int := signed p.exponentNegative (readPower p.exponent) + left - p.fraction.length
  if s = 0 then .finite 0
  else if p.negative then (Binary64.ofScaled s e).negate
  else .ofScaled s e

end Taskbook.Number
