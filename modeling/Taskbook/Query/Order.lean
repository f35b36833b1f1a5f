import Taskbook.Number.Numeral
import Taskbook.Task.Value
import Taskbook.Text.Bytes

/-!
# The Order of Stored Forms

A filter orders the content of a column against an operand. The two need not be of one kind:
what decides is the kind of the column's content, as the type of a column does in a database.

* Integers compare by value and texts by their bytes.
* A text column takes an integer operand as its decimal text.
* An integer column takes a text operand that reads as a numeral as that number, and comes
  before every other text. A numeral beyond all doubles counts as such other text. Against a
  double that is not an integer in range, the column's integer is itself rounded to a double.
* A null is unordered, so no comparison with one holds.
-/

namespace Taskbook

/-- The number that a text operand stands for in an integer column. -/
def Number.operandNumeral (text : String) : Option Number.Numeral :=
  match Number.Numeral.read (Text.trim text) with
  | some (.real (.infinite _)) => none
  | other => other

/-- The order of an integer and a text operand in an integer column. -/
def Number.orderOperand (n : Int64) (operand : String) : Ordering :=
  match Number.operandNumeral operand with
  | some (.integer m) => compare n.toInt m.toInt
  | some (.real x) => Number.Binary64.order (.ofInt64 n) x
  | none => .lt

namespace Stored

/-- The order of the content of a column and an operand; nothing if either is null. -/
def order : Stored → Stored → Option Ordering
  | null, _ => none
  | _, null => none
  | integer a, integer b => some (compare a.toInt b.toInt)
  | text a, text b => some (Text.byteOrder a b)
  | text a, integer b => some (Text.byteOrder a (Number.decimal b))
  | integer a, text b => some (Number.orderOperand a b)

@[simp] theorem order_null_left (b : Stored) : order null b = none := by
  cases b <;> rfl

/-- Only nulls are unordered. -/
theorem order_eq_none_iff (a b : Stored) : order a b = none ↔ a = null ∨ b = null := by
  cases a <;> cases b <;> simp [order]

end Stored

end Taskbook
