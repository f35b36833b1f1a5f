import Taskbook.Query.Evaluation
import Taskbook.Store.Repository

/-!
# Tasks Kept in Memory

The simplest store: a list of tasks in the order in which they came, and the next id to give
out. Generated ids start at ten thousand, so that small ids stay free for tasks that the
store is seeded with, and a seeded id at or above the next one moves it up.

## Overflow convention

Giving out an id moves the counter one further. Where it stands on the last id it cannot
move; the call breaks off and the store stays as it was.
-/

namespace Taskbook

/-- A list of tasks and the next id to give out. -/
structure MemoryStore where
  tasks : List Task
  nextId : Int64
  deriving DecidableEq, Repr

namespace MemoryStore

/-- The first id that is generated. -/
def firstGeneratedId : Int64 := 10000

/-- The store without tasks. -/
def empty : MemoryStore := ⟨[], firstGeneratedId⟩

/-- The stored task with an id. -/
def find? (s : MemoryStore) (id : Int64) : Option Task :=
  s.tasks.find? fun t => t.id == some id

/-- The store with one more task, which brings its own id. -/
def seedOne (s : MemoryStore) (t : Task) : Except (Failure RepoError) MemoryStore :=
  match t.id with
  | none => .error (.cause .missingId)
  | some id =>
    if (s.find? id).isSome then .error (.cause (.alreadyInserted id))
    else if s.nextId.toInt ≤ id.toInt then
      match Number.next? id with
      | some next => .ok ⟨s.tasks ++ [t], next⟩
      | none => .error .overflow
    else .ok ⟨s.tasks ++ [t], s.nextId⟩

/-- A store with the given tasks, each of which brings its own id. -/
def ofTasks (tasks : List Task) : Except (Failure RepoError) MemoryStore :=
  tasks.foldlM seedOne empty

/-- Puts a task in the place of the first stored one with an id. -/
def replace (id : Int64) (t : Task) : List Task → List Task
  | [] => []
  | u :: us => if u.id = some id then t :: us else u :: replace id t us

/-- The store as a repository. -/
def repository : Repository MemoryStore where
  insert t := do
    Action.ofExcept (t.validate.mapError .validation)
    match t.id with
    | some id => Action.fail (.alreadyInserted id)
    | none =>
      let s ← Action.store
      match Number.next? s.nextId with
      | none => Action.breakOff
      | some next =>
        let stored := { t with id := some s.nextId }
        Action.setStore ⟨s.tasks ++ [stored], next⟩
        return stored
  query p := do
    let s ← Action.store
    return s.tasks.filter p.holds
  update t := do
    Action.ofExcept (t.validate.mapError .validation)
    match t.id with
    | none => Action.fail .missingId
    | some id =>
      let s ← Action.store
      if (s.find? id).isSome then
        Action.setStore { s with tasks := replace id t s.tasks }
      else
        Action.fail (.notFound id)

end MemoryStore

end Taskbook
