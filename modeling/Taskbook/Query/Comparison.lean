import Taskbook.Task.Field

/-!
# Comparisons and Combinators

A filter compares one field at a time, in one of three ways, and joins such comparisons with
`and` and `or`. This module holds the words for both and the reasons why a filter cannot be
built.
-/

namespace Taskbook

/-- How a filter compares a field. -/
inductive Comparison where
  | equals
  | lessThan
  | isNull
  deriving DecidableEq, Repr

/-- How a filter joins two conditions. -/
inductive Combinator where
  | and
  | or
  deriving DecidableEq, Repr

namespace Comparison

/-- The operator of a query clause. -/
def operator : Comparison → String
  | equals => "="
  | lessThan => "<"
  | isNull => "IS NULL"

/-- Whether the comparison needs a value to compare with. -/
def usesValue : Comparison → Bool
  | equals => true
  | lessThan => true
  | isNull => false

end Comparison

namespace Combinator

/-- The keyword of a query clause. -/
def keyword : Combinator → String
  | and => "AND"
  | or => "OR"

/-- The truth of two joined conditions. -/
def apply : Combinator → Bool → Bool → Bool
  | and, l, r => l && r
  | or, l, r => l || r

end Combinator

/-! ### Refusals -/

/-- What is wrong with the arguments of a condition. -/
inductive ArgumentFault where
  | emptyField
  | notIdentifier (field : String)
  | valueRequired (comparison : Comparison) (field : String)
  /-- A fault found by a caller and told in the caller's words. -/
  | reported (text : String)
  deriving DecidableEq, Repr

/-- Why a filter cannot be built. -/
inductive QueryError where
  | invalidArgument (fault : ArgumentFault)
  | unsupportedComparison (text : String)
  deriving DecidableEq, Repr

/-- The wording of an argument fault. -/
def ArgumentFault.message : ArgumentFault → String
  | emptyField => "field name cannot be empty"
  | notIdentifier field => "field name `" ++ field ++ "` is not a plain identifier"
  | valueRequired comparison field =>
    "comparison `" ++ comparison.operator ++ "` on `" ++ field ++
      "` requires a value; use IsNull for null checks"
  | reported text => text

/-- The wording of a refusal. -/
def QueryError.message : QueryError → String
  | invalidArgument fault => "invalid predicate argument: " ++ fault.message
  | unsupportedComparison text => "unsupported comparison `" ++ text ++ "`"

namespace Comparison

/-- The spellings of a comparison, after `normalForm`. -/
def spellings : Comparison → List String
  | equals => ["=", "eq", "equals"]
  | lessThan => ["<", "lt", "less_than"]
  | isNull => ["is_null", "isnull"]

/-- A spelling without the blanks around it, in small letters, with each inner space or
hyphen written as an underscore. -/
def normalForm (text : String) : String :=
  .ofList ((Text.lower (Text.trim text)).toList.map fun c =>
    if c = ' ' ∨ c = '-' then '_' else c)

/-- Reads a comparison from its name or operator. -/
def read (text : String) : Except QueryError Comparison :=
  match [equals, lessThan, isNull].find? fun c => c.spellings.contains (normalForm text) with
  | some c => .ok c
  | none => .error (.unsupportedComparison text)

end Comparison

end Taskbook
