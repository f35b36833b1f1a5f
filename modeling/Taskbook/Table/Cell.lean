import Taskbook.Number.Approximation
import Taskbook.Number.Fifteen
import Taskbook.Task.Field
import Taskbook.Text.Blank
import Taskbook.Text.Bytes

/-!
# Cells

A cell is what a database keeps at one place of a table: nothing, an integer, a double, a
text or bytes. A column has an *affinity* that turns what is written to it into the form that
it prefers, if that loses nothing: an integer column takes numeric text and doubles without a
fraction as integers, a text column takes numbers as text.

## Order convention

Numbers come before texts and texts before bytes; a null is unordered. Integers and doubles
compare by value, without rounding the integer. An operand is first taken as the column that
it is compared with takes it, so the order is that of what the column would keep.

## Text convention

The text of a cell is Unicode text. A database takes any bytes for a text and leaves it to the reader
of a cell to object to them; stored texts are taken to be well-formed UTF-8 here, and not to be
longer than what a database keeps.
-/

namespace Taskbook

/-- The content of one place of a table. -/
inductive Cell where
  | null
  | integer (n : Int64)
  | real (x : Number.Binary64)
  | text (s : String)
  | blob (bytes : List UInt8)
  deriving DecidableEq, Repr

/-- What a column turns its content into. What is no column turns nothing into anything. -/
inductive Affinity where
  | integer
  | text
  | plain
  deriving DecidableEq, Repr

/-- The cell of a stored form. -/
def Stored.cell : Stored → Cell
  | null => .null
  | integer n => .integer n
  | text s => .text s

namespace Affinity

/-- A double as an integer column keeps it. -/
def keepReal (x : Number.Binary64) : Cell :=
  match x.integer? with
  | some n => .integer n
  | none => .real x

/-- A text as an integer column keeps it. Around a numeral only the blanks of ASCII are
overlooked. -/
def keepText (s : String) : Cell :=
  let numeral := Text.trimAscii s
  match Number.readInteger numeral with
  | some n => .integer n
  | none =>
    match Number.Spelling.read numeral.toList with
    | some p => keepReal p.approximate
    | none => .text s

/-- What a column keeps of a written cell. -/
def keep : Affinity → Cell → Cell
  | integer, .real x => keepReal x
  | integer, .text s => keepText s
  | text, .integer n => .text (Number.decimal n)
  | text, .real x => .text x.fifteenDigits
  | _, c => c

end Affinity

/-- The affinity of the column of a field. -/
def Field.affinity : Field → Affinity
  | title => .text
  | _ => .integer

namespace Cell

/-- The place of a kind of content among the others. -/
def rank : Cell → Nat
  | null => 0
  | integer _ | real _ => 1
  | text _ => 2
  | blob _ => 3

/-- The order of two cells; nothing if either is null. -/
def order : Cell → Cell → Option Ordering
  | null, _ | _, null => none
  | integer a, integer b => some (compare a.toInt b.toInt)
  | integer a, real y => some (Number.Binary64.orderInteger a y)
  | real x, integer b => some (Number.Binary64.orderInteger b x).swap
  | real x, real y => some (x.order y)
  | text a, text b => some (Text.byteOrder a b)
  | blob a, blob b => some (compare a b)
  | a, b => some (compare a.rank b.rank)

/-- The order of the content of a column and an operand. -/
def orderOperand (affinity : Affinity) (c : Cell) (operand : Stored) : Option Ordering :=
  c.order (affinity.keep operand.cell)

end Cell

end Taskbook
