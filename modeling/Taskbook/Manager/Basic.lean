import Taskbook.Manager.Error
import Taskbook.Store.Repository

/-!
# The Task Manager

The life of a task: it is created, done, reopened, postponed, given another priority, and
listed. Every operation works on any repository and takes the time it happens at as an
argument. It reads at most once and writes at most once, and a change writes back the task
it read with one field replaced.

## Order convention

A shown list goes by the rank of the priorities. Sorting is stable: tasks of one priority
stay in the order of the repository.
-/

namespace Taskbook

/-- Tasks by the rank of their priority, those of one rank in the given order. -/
def sortByPriority (tasks : List Task) : List Task :=
  tasks.mergeSort fun a b => a.priority.rank ≤ b.priority.rank

namespace Manager

variable {σ : Type}

/-- An action of the manager. -/
abbrev Op (σ α : Type) := Action σ ManagerError α

/-- A repository's operation as a step of the manager. -/
def lift {α : Type} (x : Action σ RepoError α) : Op σ α :=
  x.mapError .ofRepo

/-- A predicate that is built for a query, unless it is refused. -/
def built (p : Except QueryError Predicate) : Op σ Predicate :=
  Action.ofExcept (p.mapError .query)

/-- Creates an open task of normal priority. Without a due date it is due at once. -/
def create (repo : Repository σ) (now : Instant) (title : String) (due : Option Instant) :
    Op σ Task :=
  if Text.isBlankText title then Action.fail .invalidTitle
  else do
    let task ← lift (repo.insert { title := title, createdOn := now, dueDate := due })
    Action.record (.created (task.id.getD 0) task.dueDate.isSome)
    return task

/-- The task with an id. -/
def get (repo : Repository σ) (id : Int64) : Op σ Task := do
  let hasId ← built (Predicate.equals Field.id.name (.integer id))
  match ← lift (repo.query hasId) with
  | task :: _ => return task
  | [] =>
    Action.record (.missing id)
    Action.fail (.notFound id)

/-- Reads the task with an id and writes it back changed. -/
def modify (repo : Repository σ) (id : Int64) (change : Change) (f : Task → Task) :
    Op σ Unit := do
  let task ← get repo id
  lift (repo.update (f task))
  Action.record (.changed change id)

/-- Marks a task as done now. -/
def markDone (repo : Repository σ) (now : Instant) (id : Int64) : Op σ Unit :=
  modify repo id .done fun t => { t with doneOn := some now }

/-- Reopens a task. -/
def reopen (repo : Repository σ) (id : Int64) : Op σ Unit :=
  modify repo id .reopened fun t => { t with doneOn := none }

/-- Hides a task until an instant; one in the past has no effect on what is shown. -/
def postpone (repo : Repository σ) (id : Int64) (until_ : Instant) : Op σ Unit :=
  modify repo id .postponed fun t => { t with postponedUntil := some until_ }

/-- Gives a task another priority. -/
def reprioritize (repo : Repository σ) (id : Int64) (priority : Priority) : Op σ Unit :=
  modify repo id .reprioritized fun t => { t with priority := priority }

/-- The tasks to show now. -/
def relevant (repo : Repository σ) (now : Instant) : Op σ (List Task) := do
  let relevantAt ← built (Predicate.makeRelevant now)
  return sortByPriority (← lift (repo.query relevantAt))

/-- Every stored task. -/
def listAll (repo : Repository σ) : Op σ (List Task) := do
  return sortByPriority (← lift (repo.query .always))

/-- The predicate on an id is never refused, so getting a task is one query. -/
theorem get_eq (repo : Repository σ) (id : Int64) :
    get repo id = (do
      match ← lift (repo.query (.hasId id)) with
      | task :: _ => return task
      | [] =>
        Action.record (.missing id)
        Action.fail (.notFound id)) := by
  rw [get, Predicate.equals_id]
  rfl

/-- The predicate on what to show is never refused, so showing tasks is one query. -/
theorem relevant_eq_list (repo : Repository σ) (now : Instant) :
    relevant repo now = (do return sortByPriority (← lift (repo.query (.relevantAt now)))) := by
  rw [relevant, Predicate.makeRelevant_eq]
  rfl

end Manager

end Taskbook
