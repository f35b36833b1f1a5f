import Taskbook.Store.Error

/-!
# Errors of the Task Manager

What a caller of the manager gets to see. A repository's "not found" is the manager's own;
every other error is passed on as it is.
-/

namespace Taskbook

/-- Why the manager cannot do what it is asked. -/
inductive ManagerError where
  | invalidTitle
  | notFound (id : Int64)
  | query (e : QueryError)
  | repo (e : RepoError)
  deriving DecidableEq, Repr

namespace ManagerError

/-- The manager's view of a repository's error. -/
def ofRepo : RepoError → ManagerError
  | .notFound id => notFound id
  | e => repo e

/-- The wording of the error. -/
def message : ManagerError → String
  | invalidTitle => "task title cannot be empty"
  | notFound id => "task not found: " ++ Number.decimal id
  | query e => e.message
  | repo e => e.message

/-- The messages of the errors behind this one, the nearest first. -/
def causes : ManagerError → List String
  | query e => [e.message]
  | repo e => e.message :: e.causes
  | invalidTitle | notFound _ => []

end ManagerError

end Taskbook
