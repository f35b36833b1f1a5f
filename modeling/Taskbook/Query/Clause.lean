import Taskbook.Query.Predicate

/-!
# Query Clauses

A predicate is handed to a database as the text of a `WHERE` clause and a list of operands.

## Writing convention

The predicate that holds of everything is `1 = 1`. A condition is its field, a space and its
operator, followed by ` ?` if it uses a value. A joined predicate is
`(left) KEYWORD (right)`. The operands stand in the order of the question marks.
-/

namespace Taskbook

/-- The text of a clause and the operands of its question marks. -/
structure Clause where
  text : String
  operands : List Stored
  deriving DecidableEq, Repr

namespace Clause

/-- How many question marks a clause has. -/
def placeholders (c : Clause) : Nat :=
  c.text.toList.count '?'

/-- Two clauses joined by a keyword, each in parentheses. -/
def join (keyword : String) (left right : Clause) : Clause where
  text := "(" ++ left.text ++ ") " ++ keyword ++ " (" ++ right.text ++ ")"
  operands := left.operands ++ right.operands

end Clause

/-- The clause of one condition. -/
def Condition.clause (c : Condition) : Clause :=
  let head := c.field ++ " " ++ c.comparison.operator
  if c.comparison.usesValue then ⟨head ++ " ?", [c.expected.stored]⟩ else ⟨head, []⟩

/-- The clause of a predicate. -/
def Predicate.clause : Predicate → Clause
  | always => ⟨"1 = 1", []⟩
  | condition c => c.clause
  | combine combinator left right => .join combinator.keyword left.clause right.clause

end Taskbook
