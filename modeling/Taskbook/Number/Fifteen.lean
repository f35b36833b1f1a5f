import Taskbook.Number.Integer
import Taskbook.Number.Scaling

/-!
# Doubles with Fifteen Digits

A double that is kept as text is written with at most fifteen significant digits, a point
and at least one digit after it. The digits are those of its working form, cut to an integer
of 18 or 19 digits and rounded at the fifteenth by the sixteenth alone. Numbers from `10 ^ 15`
on and below `10 ^ -4` are written with one digit before the point and an exponent of at least
two digits.
-/

namespace Taskbook.Number

/-- How many significant digits are written. -/
def significantDigits : Nat := 15

/-- A positive number with its decimal point moved until it has 18 or 19 digits before it,
and the power of ten by which it has become too small. -/
def window (q : Rat) : Rat × Int :=
  let above (bound : Int) (x : Rat) : Bool := toWorking (tenPow bound) ≤ x
  let below (bound : Int) (x : Rat) : Bool := x < toWorking (tenPow bound)
  let steps (beyond : Rat → Bool) (places : Int) := movePointWhile beyond places 12
  if tenPow 19 ≤ q then
    steps (above 19) (-1) (steps (above 29) (-10) (steps (above 119) (-100) (q, 0)))
  else
    steps (below 17) 1 (steps (below 7) 10 (steps (below (-97)) 100 (q, 0)))

/-- The first digits of a positive number, the last one rounded by the digit after it, and
the exponent of the first of them. There are no zeros at the end but for a lone one. -/
def leadingDigits (q : Rat) : List Char × Int :=
  let (x, e) := window q
  let all := Nat.toDigits 10 x.floor.toNat
  let up := '5' ≤ all.getD significantDigits '0'
  let kept := digitsValue (all.take significantDigits) + if up then 1 else 0
  let digits := Nat.toDigits 10 kept
  let exponent := e + all.length - 1 + digits.length - significantDigits
  ((digits.reverse.dropWhile (· == '0')).reverse, exponent)

/-- Digits with a point after the first, and an exponent. -/
def scientific (digits : List Char) (exponent : Int) : List Char :=
  let tail := digits.drop 1
  let size := (Nat.toDigits 10 exponent.natAbs).leftpad 2 '0'
  digits.take 1 ++ '.' :: (if tail.isEmpty then ['0'] else tail) ++
    'e' :: (if exponent < 0 then '-' else '+') :: size

/-- Digits with the point where the exponent of the first digit puts it. -/
def positional (digits : List Char) (exponent : Int) : List Char :=
  if exponent < 0 then
    '0' :: '.' :: List.replicate (-exponent - 1).toNat '0' ++ digits
  else
    let width := exponent.toNat + 1
    let whole := digits.take width ++ List.replicate (width - digits.length) '0'
    let tail := digits.drop width
    whole ++ '.' :: (if tail.isEmpty then ['0'] else tail)

/-- A positive rational with fifteen significant digits. -/
def writePositive (q : Rat) : List Char :=
  let (digits, exponent) := leadingDigits q
  if exponent < -4 ∨ (significantDigits : Int) ≤ exponent then scientific digits exponent
  else positional digits exponent

/-- A double as text. -/
def Binary64.fifteenDigits : Binary64 → String
  | .finite q =>
    if q = 0 then "0.0"
    else if q < 0 then .ofList ('-' :: writePositive (-q))
    else .ofList (writePositive q)
  | .infinite negative => if negative then "-Inf" else "Inf"

end Taskbook.Number
