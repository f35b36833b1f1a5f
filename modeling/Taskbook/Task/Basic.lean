import Taskbook.Task.Value

/-!
# Tasks

A task is a record of eight fields. It gets its id when it is stored and keeps it; it is done
exactly when it has the instant at which it was done; and a task without a due date is due at
once. A task may be stored only if its title holds a character that is not blank.
-/

namespace Taskbook

/-- A unit of work that the user wants to get done. -/
structure Task where
  id : Option Int64 := none
  title : String
  createdOn : Instant
  doneOn : Option Instant := none
  /-- The task is hidden until this instant; one in the past has no effect. -/
  postponedUntil : Option Instant := none
  dueDate : Option Instant := none
  priority : Priority := .normal
  /-- The recurring task this one came from; kept and never interpreted. -/
  createdFrom : Option Int64 := none
  deriving DecidableEq, Repr

/-- The one fault that keeps a task from being stored. -/
inductive TitleFault where
  | empty
  deriving DecidableEq, Repr

/-- The wording of the fault. -/
def TitleFault.message : TitleFault → String
  | empty => "task title cannot be empty"

namespace Task

/-- Whether a task is done. -/
def isDone (t : Task) : Bool :=
  t.doneOn.isSome

/-- Refuses a task whose title is blank. -/
def validate (t : Task) : Except TitleFault Unit :=
  if Text.isBlankText t.title then .error .empty else .ok ()

theorem validate_eq_ok_iff (t : Task) :
    t.validate = .ok () ↔ Text.isBlankText t.title = false := by
  by_cases h : Text.isBlankText t.title <;> simp [validate, h]

end Task

end Taskbook
