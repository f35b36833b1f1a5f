/-!
# Doubles as Exact Numbers

A double is kept as the number it stands for: a rational, or one of the two infinities. What
makes it a double is how it arises. `nearest` takes any rational to the closest number with
53 significant bits and a last place of at least `2 ^ -1074`, and to an infinity once the
closest such number reaches `2 ^ 1024`.

## Tie convention

A rational halfway between two neighbours goes to the one whose last bit is zero.

Zero has one form only: nothing in this library tells the two signed zeros apart.
-/

namespace Taskbook.Number

/-- The extended line of doubles. -/
inductive Binary64 where
  | finite (value : Rat)
  | infinite (negative : Bool)
  deriving DecidableEq, Repr

/-- A power of two with an integer exponent. -/
def twoPow (e : Int) : Rat :=
  if 0 ≤ e then (Nat.pow 2 e.toNat : Rat) else 1 / (Nat.pow 2 (-e).toNat : Rat)

/-- A power of ten with an integer exponent. -/
def tenPow (e : Int) : Rat :=
  if 0 ≤ e then (Nat.pow 10 e.toNat : Rat) else 1 / (Nat.pow 10 (-e).toNat : Rat)

/-- The integer closest to a rational; halfway cases go to the even neighbour. -/
def roundHalfEven (q : Rat) : Int :=
  let low := q.floor
  let rest := q - low
  if rest < 1 / 2 then low
  else if 1 / 2 < rest then low + 1
  else if low % 2 = 0 then low else low + 1

/-- The greatest `k` with `2 ^ k ≤ |q|`; zero for `q = 0`. -/
def binaryExponent (q : Rat) : Int :=
  let n := q.num.natAbs
  let k := (n.log2 : Int) - (q.den.log2 : Int)
  if twoPow k ≤ q.abs then k else k - 1

/-- The exponent of the last place that a double of this size has. -/
def lastPlace (q : Rat) : Int :=
  max (binaryExponent q - 52) (-1074)

/-- The multiple of `2 ^ e` closest to a rational. -/
def roundTo (e : Int) (q : Rat) : Rat :=
  roundHalfEven (q / twoPow e) * twoPow e

namespace Binary64

/-- The double closest to a rational. -/
def nearest (q : Rat) : Binary64 :=
  let r := roundTo (lastPlace q) q
  if r < twoPow 1024 ∧ -twoPow 1024 < r then .finite r else .infinite (r < 0)

/-- The double closest to a 64-bit integer. -/
def ofInt64 (n : Int64) : Binary64 :=
  nearest n.toInt

/-- The double with the opposite sign. -/
def negate : Binary64 → Binary64
  | .finite q => .finite (-q)
  | .infinite negative => .infinite !negative

/-- The order of two doubles as numbers. -/
def order : Binary64 → Binary64 → Ordering
  | .finite a, .finite b => if a < b then .lt else if b < a then .gt else .eq
  | .finite _, .infinite negative => if negative then .gt else .lt
  | .infinite negative, .finite _ => if negative then .lt else .gt
  | .infinite a, .infinite b => compare b.toNat a.toNat

/-- The order of a 64-bit integer and a double, without rounding the integer. -/
def orderInteger (n : Int64) (x : Binary64) : Ordering :=
  order (.finite n.toInt) x

/-- The 64-bit integer that a double equals, if it lies strictly between the two ends of the
range. -/
def integer? : Binary64 → Option Int64
  | .finite q =>
    if q.isInt ∧ Int64.minValue.toInt < q.num ∧ q.num < Int64.maxValue.toInt then
      some (.ofInt q.num)
    else
      none
  | .infinite _ => none

end Binary64

end Taskbook.Number
