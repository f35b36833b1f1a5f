import Taskbook.Query.Order
import Taskbook.Query.Predicate

/-!
# Predicates Evaluated in Memory

A predicate holds of a task or it does not; evaluating one changes nothing and never fails. A
condition on a field that tasks do not have holds of no task. A comparison with a null holds
of none either, so `isNull` is the only way to ask for a missing value.
-/

namespace Taskbook

/-- Whether a comparison holds between the content of a field and the expected value, both in
stored form. -/
def Comparison.holds (c : Comparison) (actual expected : Stored) : Bool :=
  match c with
  | equals => actual.order expected == some .eq
  | lessThan => actual.order expected == some .lt
  | isNull => actual == .null

/-- Whether a condition holds of a task. -/
def Condition.holds (c : Condition) (t : Task) : Bool :=
  match t.value? c.field with
  | some actual => c.comparison.holds actual.stored c.expected.stored
  | none => false

namespace Predicate

/-- Whether a predicate holds of a task. -/
def holds : Predicate → Task → Bool
  | always, _ => true
  | condition c, t => c.holds t
  | combine combinator left right, t => combinator.apply (left.holds t) (right.holds t)

@[simp] theorem holds_always (t : Task) : always.holds t = true := rfl

@[simp] theorem holds_and (p q : Predicate) (t : Task) :
    (p.and q).holds t = (p.holds t && q.holds t) := rfl

@[simp] theorem holds_or (p q : Predicate) (t : Task) :
    (p.or q).holds t = (p.holds t || q.holds t) := rfl

end Predicate

end Taskbook
