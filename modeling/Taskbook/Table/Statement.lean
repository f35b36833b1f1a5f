import Taskbook.Store.Error
import Taskbook.Table.Truth

/-!
# Statements and Their Faults

Before a database runs a statement it reads its text and looks up its names. Reading goes from
left to right and fails at the first word that cannot stand where it stands, at the first question
mark beyond the number of operands that a statement may have, or as soon as the conditions nest too
deeply. What is read without a fault then has its names looked up.

## Length convention

A database reads no text of more than a thousand million bytes, be it that of a statement or an
operand. No text here is taken to be that long, so no statement is refused for its length.

## Look-up convention

Names are looked up from left to right too. A name that stands for nothing ends the look-up
at once in a value comparison. In a test for null it is only noted: the next such test is
still looked at, and what it notes takes the place of the earlier note. Anything else that
follows a note ends the look-up. What was noted or found last is the fault.
-/

namespace Taskbook

/-- The words that can never stand for a column. -/
def reservedWords : List String :=
  ["add", "all", "alter", "and", "as", "autoincrement", "between", "check", "collate", "commit",
   "constraint", "create", "default", "deferrable", "delete", "distinct", "drop", "else", "escape",
   "except", "foreign", "from", "group", "having", "in", "index", "insert", "intersect", "into",
   "is", "isnull", "join", "limit", "nothing", "notnull", "on", "or", "order", "primary",
   "references", "returning", "set", "table", "then", "to", "transaction", "union", "unique",
   "update", "using", "when", "where"]

/-- The words that begin an expression, so that the word after them is out of place. -/
def openingWords : List String := ["case", "cast", "exists", "not", "raise"]

/-- The words that begin a query. Behind a parenthesis a query may stand, so that the word
after them is out of place; elsewhere they are. -/
def queryWords : List String := ["select", "values"]

/-- The word that may begin a query behind a parenthesis and is a plain name elsewhere. -/
def prefaceWord : String := "with"

/-- How deep conditions may nest in a statement. -/
def maxNesting : Nat := 1000

/-- How many operands a statement may have. -/
def maxOperands : Nat := 32766

/-- The first word of an operator. -/
def Comparison.firstWord (c : Comparison) : String :=
  .ofList (c.operator.toList.takeWhile (· != ' '))

/-- The word of a condition that is out of place, if one is. -/
def Condition.misplaced? (c : Condition) (nested : Bool) : Option String :=
  let isOneOf (words : List String) : Bool := words.any (Text.sameName c.field)
  if isOneOf openingWords || (nested && isOneOf (prefaceWord :: queryWords)) then
    some c.comparison.firstWord
  else if isOneOf reservedWords || isOneOf queryWords then some c.field
  else none

namespace Predicate

/-- Reads the text of a predicate, given how many operands stand before it. Answers how deep its
conditions nest, where a lone condition counts two, and how many operands have been read then. -/
def read (nested : Bool) : Predicate → Nat → Except SqlError (Nat × Nat)
  | always, before => .ok (2, before)
  | condition c, before =>
    match c.misplaced? nested with
    | some word => .error (.misplaced word)
    | none =>
      if !c.comparison.usesValue then .ok (2, before)
      else if before < maxOperands then .ok (2, before + 1)
      else .error .tooManyOperands
  | combine _ left right, before => do
    let (leftDepth, between) ← left.read true before
    let (rightDepth, after) ← right.read true between
    let depth := max leftDepth rightDepth + 1
    if maxNesting < depth then throw (.tooDeep maxNesting)
    return (depth, after)

/-- Looks up the names of a predicate, given what has been noted so far. Answers what is
noted afterwards; an error is the name that ends the look-up. -/
def lookUp : Predicate → Option String → Except String (Option String)
  | condition c, noted =>
    let known := (Field.column? c.field).isSome || (Cell.constant? c.field).isSome
    let stray := if known then none else some c.field
    if c.comparison = .isNull then .ok (stray <|> noted)
    else
      match noted <|> stray with
      | some name => .error name
      | none => .ok none
  | _, some name => .error name
  | always, none => .ok none
  | combine _ left right, none => do right.lookUp (← left.lookUp none)

/-- The name in a predicate that stands for nothing and is reported. -/
def strayName? (p : Predicate) : Option String :=
  match p.lookUp none with
  | .ok noted => noted
  | .error name => some name

/-- Why a statement with a predicate cannot be run, if it cannot. -/
def fault? (p : Predicate) : Option SqlError :=
  match p.read false 0 with
  | .error e => some e
  | .ok _ => p.strayName?.map .noSuchColumn

end Predicate

end Taskbook
