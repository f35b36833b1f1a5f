import Taskbook.Query.Comparison

/-!
# Predicates

A *predicate* is a filter on tasks: everything, a condition on one field, or two predicates
joined. It is a value of its own, evaluated in memory (`Taskbook.Query.Evaluation`) and
written as a query clause (`Taskbook.Query.Clause`), and both trust what the type promises of
each condition:

* its field name is a plain identifier, so it can stand in a clause as it is;
* it carries a value exactly when its comparison uses one.

## Main definitions

* `Predicate.make` — the one way from arbitrary arguments to a condition;
* `Predicate.lessThanOrNull` — the shape in which dates are compared;
* `Predicate.relevantAt` — the tasks to show at an instant.
-/

namespace Taskbook

/-- A condition on one field. -/
structure Condition where
  field : String
  comparison : Comparison
  expected : Value
  identifier : Text.isIdentifier field = true
  carries : expected.isNull = !comparison.usesValue
  deriving DecidableEq, Repr

/-- A filter on tasks. -/
inductive Predicate where
  | always
  | condition (c : Condition)
  | combine (combinator : Combinator) (left right : Predicate)
  deriving DecidableEq, Repr

/-- The name of a field can stand in a clause. -/
theorem Field.isIdentifier_name (f : Field) : Text.isIdentifier f.name = true := by
  cases f <;> decide

namespace Predicate

/-- A condition from arbitrary arguments. The value is dropped where the comparison uses
none. -/
def make (field : String) (comparison : Comparison) (expected : Value) :
    Except QueryError Predicate :=
  if field = "" then
    .error (.invalidArgument .emptyField)
  else if identifier : Text.isIdentifier field = true then
    if uses : comparison.usesValue = true then
      if null : expected.isNull = true then
        .error (.invalidArgument (.valueRequired comparison field))
      else
        .ok (.condition ⟨field, comparison, expected, identifier, by simp_all⟩)
    else
      .ok (.condition ⟨field, comparison, .null, identifier, by simp_all [Value.isNull]; rfl⟩)
  else
    .error (.invalidArgument (.notIdentifier field))

/-- The field equals a value. -/
def equals (field : String) (expected : Value) : Except QueryError Predicate :=
  make field .equals expected

/-- The field lies strictly below a value. -/
def lessThan (field : String) (expected : Value) : Except QueryError Predicate :=
  make field .lessThan expected

/-- The field holds no value. -/
def isNull (field : String) : Except QueryError Predicate :=
  make field .isNull .null

/-- Both predicates hold. -/
def and (left right : Predicate) : Predicate :=
  combine .and left right

/-- At least one of the predicates holds. -/
def or (left right : Predicate) : Predicate :=
  combine .or left right

/-- The field lies strictly below a value or holds none. -/
def lessThanOrNull (field : String) (expected : Value) : Except QueryError Predicate := do
  let below ← lessThan field expected
  let missing ← isNull field
  return below.or missing

/-! ### Conditions on the fields of a task -/

/-- The field holds no value. -/
def missing (f : Field) : Predicate :=
  .condition ⟨f.name, .isNull, .null, f.isIdentifier_name, rfl⟩

/-- The field is an instant strictly before `t`. -/
def before (f : Field) (t : Instant) : Predicate :=
  .condition ⟨f.name, .lessThan, .instant t, f.isIdentifier_name, rfl⟩

/-- The task has this id. -/
def hasId (id : Int64) : Predicate :=
  .condition ⟨Field.id.name, .equals, .integer id, Field.isIdentifier_name _, rfl⟩

/-- The tasks to show at an instant: open, due or without a due date, and not postponed past
it. -/
def relevantAt (now : Instant) : Predicate :=
  ((missing .doneOn).and ((before .dueDate now).or (missing .dueDate))).and
    ((before .postponedUntil now).or (missing .postponedUntil))

/-- The tasks to show at an instant, from conditions on the names of fields. -/
def makeRelevant (now : Instant) : Except QueryError Predicate := do
  let undone ← isNull Field.doneOn.name
  let due ← lessThanOrNull Field.dueDate.name (.instant now)
  let shown ← lessThanOrNull Field.postponedUntil.name (.instant now)
  return (undone.and due).and shown

theorem equals_id (id : Int64) : equals Field.id.name (.integer id) = .ok (hasId id) := rfl

theorem isNull_name (f : Field) : isNull f.name = .ok (missing f) := by
  cases f <;> rfl

theorem lessThan_name (f : Field) (t : Instant) :
    lessThan f.name (.instant t) = .ok (before f t) := by
  cases f <;> rfl

theorem makeRelevant_eq (now : Instant) : makeRelevant now = .ok (relevantAt now) := by
  simp only [makeRelevant, lessThanOrNull, isNull_name, lessThan_name]
  rfl

end Predicate

end Taskbook
