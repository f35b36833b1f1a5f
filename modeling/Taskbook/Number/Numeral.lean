import Taskbook.Number.Binary64
import Taskbook.Number.Integer

/-!
# Numerals

A *numeral* is a decimal number as text: an optional sign, digits with at most one point
among them (at least one digit in all), and an optional exponent with a sign of its own. An
integer numeral in the 64-bit range stands for that integer; every other numeral stands for
the double closest to its exact value.

## Reading convention

To be read as the closest double is what is documented of numerals, so that is done here with
numerals of any length. A reader that no longer counts the digits of an exponent in a numeral of more
than sixty-five thousand bytes departs from it; numerals are taken to be shorter than that.

## Main definitions

* `Spelling.read` — the grammar, as a reader into the parts of a numeral;
* `Decimal.read` — the exact decimal `± digits · 10 ^ exponent` of a numeral;
* `Decimal.toBinary64` — the closest double, decided by size alone where the power of ten
  would be astronomically large or small;
* `Numeral.read` — integer first, double otherwise.
-/

namespace Taskbook.Number

/-- The parts of a numeral: the digits before and after the point, and those of the exponent,
which are empty if it has none. -/
structure Spelling where
  negative : Bool
  whole : List Char
  fraction : List Char
  exponentNegative : Bool
  exponent : List Char
  deriving DecidableEq, Repr

namespace Spelling

/-- Reads the part of a numeral after its digits: nothing, or `e` or `E`, an optional sign
and digits. -/
def readExponent : List Char → Option (Bool × List Char)
  | [] => some (false, [])
  | c :: cs =>
    if c = 'e' ∨ c = 'E' then
      let (negative, digits) := splitSign cs
      if isDigits digits then some (negative, digits) else none
    else
      none

/-- Reads a numeral into its parts. -/
def read (cs : List Char) : Option Spelling :=
  let (negative, cs) := splitSign cs
  let whole := cs.takeWhile Char.isDigit
  let (fraction, rest) :=
    match cs.dropWhile Char.isDigit with
    | '.' :: cs => (cs.takeWhile Char.isDigit, cs.dropWhile Char.isDigit)
    | cs => ([], cs)
  if (whole ++ fraction).isEmpty then none
  else (readExponent rest).map fun e => ⟨negative, whole, fraction, e.1, e.2⟩

end Spelling

/-- An exact decimal number: sign, the digits as an integer, how many digits there are, and
the power of ten they are scaled by. -/
structure Decimal where
  negative : Bool
  digits : Nat
  width : Nat
  exponent : Int
  deriving DecidableEq, Repr

namespace Decimal

/-- The exact decimal that a numeral spells. -/
def ofSpelling (p : Spelling) : Decimal :=
  let digits := p.whole ++ p.fraction
  ⟨p.negative, digitsValue digits, digits.length,
    signed p.exponentNegative (digitsValue p.exponent) - p.fraction.length⟩

/-- Reads a numeral as an exact decimal. -/
def read (cs : List Char) : Option Decimal :=
  (Spelling.read cs).map ofSpelling

/-- The number that a decimal stands for. -/
def value (d : Decimal) : Rat :=
  signed d.negative d.digits * tenPow d.exponent

/-- The double closest to a decimal. A decimal below `10 ^ -400` is closest to zero and one
with a nonzero digit at or above `10 ^ 400` to an infinity, whatever its digits. -/
def toBinary64 (d : Decimal) : Binary64 :=
  if d.digits = 0 ∨ (d.width : Int) + d.exponent < -400 then .finite 0
  else if 400 < d.exponent then .infinite d.negative
  else .nearest d.value

end Decimal

/-- What a numeral stands for. -/
inductive Numeral where
  | integer (n : Int64)
  | real (x : Binary64)
  deriving DecidableEq, Repr

/-- Reads a numeral: an integer where the text is one in range, a double otherwise. -/
def Numeral.read (s : String) : Option Numeral :=
  match readInteger s with
  | some n => some (.integer n)
  | none => (Decimal.read s.toList).map fun d => .real d.toBinary64

end Taskbook.Number
