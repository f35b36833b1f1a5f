import Taskbook.Query.Predicate
import Taskbook.Table.Cell

/-!
# Predicates over Stored Rows

A database evaluates a condition to one of three truth values. A comparison with a null is
*unknown*, and unknown travels through `AND` and `OR` by the tables of Kleene's logic. A row
is selected when the outcome is true, so unknown and false select alike, yet they are not the
same inside a larger condition.

A column is found by its name, ignoring the case of its letters; the row id has three more
names of its own. Some words stand for a constant. A name that is neither makes the whole
statement fail, whatever rows there are.

## Clock convention

Three of the constants are the date and the time of the wall clock, as texts. Nothing else here
reads that clock, so it stands still at `wallClock`.
-/

namespace Taskbook

/-- A truth value of a database. -/
inductive Truth where
  | no
  | unknown
  | yes
  deriving DecidableEq, Repr

namespace Truth

/-- The truth value of something that is known. -/
def ofBool (b : Bool) : Truth :=
  if b then yes else no

/-- Yes only if both are; no as soon as one is. -/
def and : Truth → Truth → Truth
  | no, _ => no
  | _, no => no
  | yes, yes => yes
  | _, _ => unknown

/-- Yes as soon as one is; no only if both are. -/
def or : Truth → Truth → Truth
  | yes, _ => yes
  | _, yes => yes
  | no, no => no
  | _, _ => unknown

end Truth

/-- The truth of two joined conditions. -/
def Combinator.truth : Combinator → Truth → Truth → Truth
  | and => Truth.and
  | or => Truth.or

/-- The cells of a row, one for each field. -/
abbrev Cells := Field → Cell

/-- The names that a row id has besides that of its column. -/
def rowIdNames : List String := ["rowid", "oid", "_rowid_"]

/-- The column with a name. -/
def Field.column? (name : String) : Option Field :=
  match find? name with
  | some f => some f
  | none => if rowIdNames.any (Text.sameName name) then some id else none

/-- The date and the time at which the wall clock stands. -/
def wallClock : String × String := ("2025-10-09", "08:53:20")

/-- The constants that have a name. -/
def namedConstants : List (String × Cell) :=
  [("null", .null), ("true", .integer 1), ("false", .integer 0),
   ("current_date", .text wallClock.1), ("current_time", .text wallClock.2),
   ("current_timestamp", .text (wallClock.1 ++ " " ++ wallClock.2))]

/-- The constant with a name. -/
def Cell.constant? (name : String) : Option Cell :=
  (namedConstants.find? fun c => Text.sameName c.1 name).map Prod.snd

/-- The truth of a comparison between a cell and an operand. -/
def Comparison.truth (c : Comparison) (affinity : Affinity) (cell : Cell) (operand : Stored) :
    Truth :=
  match c with
  | isNull => .ofBool (cell == .null)
  | equals => (cell.orderOperand affinity operand).elim .unknown fun o => .ofBool (o == .eq)
  | lessThan => (cell.orderOperand affinity operand).elim .unknown fun o => .ofBool (o == .lt)

/-- The truth of a condition on a row. A name that stands for nothing is never reached: the
statement fails before. -/
def Condition.truth (c : Condition) (cells : Cells) : Truth :=
  match Field.column? c.field with
  | some f => c.comparison.truth f.affinity (cells f) c.expected.stored
  | none =>
    c.comparison.truth .plain ((Cell.constant? c.field).getD .null) c.expected.stored

namespace Predicate

/-- The truth of a predicate on a row. -/
def truth : Predicate → Cells → Truth
  | always, _ => .yes
  | condition c, cells => c.truth cells
  | combine combinator left right, cells =>
    combinator.truth (left.truth cells) (right.truth cells)

end Predicate

end Taskbook
