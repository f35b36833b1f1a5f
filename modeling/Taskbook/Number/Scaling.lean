import Taskbook.Number.Binary64

/-!
# Moving the Decimal Point

Between a double and its digits stands a number with 64 significant bits, the *working form*.
Its decimal point is moved by multiplying with a power of ten, a hundred, ten and one places
at a time, and each power and each product is brought back to the working form. What comes
out is close to the exact result, not always the closest: it depends on the steps taken, so
the steps are part of the definition.

## Main definitions

* `toWorking` — rounding to the working form;
* `scaleTen` — a number times a power of ten, step by step;
* `movePointWhile` — steps of one size, as many as it takes to come within a bound.
-/

namespace Taskbook.Number

/-- How many significant bits the working form has. -/
def workingBits : Nat := 64

/-- The number in working form closest to a rational. -/
def toWorking (q : Rat) : Rat :=
  roundTo (binaryExponent q - (workingBits - 1)) q

/-- One step: the decimal point moved by some places. -/
def movePoint (places : Int) (q : Rat) : Rat :=
  toWorking (q * toWorking (tenPow places))

/-- A number times a power of ten, in steps of a hundred, ten and one places. -/
def scaleTen (e : Int) (q : Rat) : Rat :=
  let n := e.natAbs
  let hundreds := Nat.repeat (movePoint (100 * e.sign)) (n / 100) q
  let tens := Nat.repeat (movePoint (10 * e.sign)) (n % 100 / 10) hundreds
  Nat.repeat (movePoint e.sign) (n % 10) tens

/-- Moves the decimal point in steps of one size while the number is beyond a bound, at most
`limit` times. The exponent beside the number says by what power of ten it has become too
small. -/
def movePointWhile (beyond : Rat → Bool) (places : Int) : Nat → Rat × Int → Rat × Int
  | 0, x => x
  | limit + 1, (q, e) =>
    if beyond q then movePointWhile beyond places limit (movePoint places q, e - places)
    else (q, e)

end Taskbook.Number
