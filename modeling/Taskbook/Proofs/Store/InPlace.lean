import Taskbook.Proofs.Results
import Taskbook.Store.Memory
import Taskbook.Table.Tables

/-!
# Insertion, Assignment by Assignment

An insertion is given a task in a variable of the caller's and writes the new id into that
variable. A repository's `insert` says what comes out of it in one value: the task with its id, or
a failure. This module says it step by step, as assignments to the store and to the variable, each
of which stays if a later step fails. The two agree (`insertInPlace_eq`), so what a failed call
leaves in the variable can be read off `insert`.

## Order convention

The title is looked at first and the id after it. In memory the counter is moved on before the id
is assigned, and the task is stored last. In a table the row is stored by one statement, and the id
is assigned after it.

## Main results

* `MemoryStore.insertInPlace_eq`, `Tables.insertInPlace_eq`: the assignments **amount to an
  insertion**.
-/

namespace Taskbook

/-- A store, and the variable in which a caller hands over a task. -/
structure Handed (σ : Type) where
  store : σ
  task : Task

variable {σ ε α : Type}

/-- What an insertion leaves behind for a caller that handed over a task: on success the variable
holds the task that is answered. -/
def Reply.handed (t : Task) (r : Reply σ ε Task) : Reply (Handed σ) ε Unit where
  result := r.result.map fun _ => ()
  store := ⟨r.store, r.result.toOption.getD t⟩
  events := r.events

namespace Handed

/-- The task in the variable. -/
def held : Action (Handed σ) ε Task := fun h => ⟨.ok h.task, h, []⟩

/-- Writes an id into the variable. -/
def assignId (id : Int64) : Action (Handed σ) ε Unit := fun h =>
  ⟨.ok (), { h with task := { h.task with id := some id } }, []⟩

/-- Runs an action on the store and leaves the variable alone. -/
def onStore (x : Action σ ε α) : Action (Handed σ) ε α := fun h =>
  ⟨(x h.store).result, { h with store := (x h.store).store }, (x h.store).events⟩

/-- An **insertion in place**: the checks, then the id that `take` gives for the task, then its
assignment, and in the end what `keep` does with the task that has its id. -/
def insert (take : Task → Action σ RepoError Int64) (keep : Task → Action σ RepoError Unit) :
    Action (Handed σ) RepoError Unit := do
  let t ← held
  Action.ofExcept (t.validate.mapError .validation)
  match t.id with
  | some id => Action.fail (.alreadyInserted id)
  | none =>
    let id ← onStore (take t)
    assignId id
    onStore (keep (← held))

/-- The checks in front of an insertion touch neither the store nor the variable, so it is enough
to look at what comes after them. -/
theorem insert_eq {take : Task → Action σ RepoError Int64} {keep : Task → Action σ RepoError Unit}
    {new : Action σ RepoError Task} {s : σ} {t : Task}
    (h : (do
        let id ← onStore (take t)
        assignId id
        onStore (keep (← held)) : Action (Handed σ) RepoError Unit) ⟨s, t⟩ = (new s).handed t) :
    insert take keep ⟨s, t⟩ =
      Reply.handed t ((do
        Action.ofExcept (t.validate.mapError .validation)
        match t.id with
        | some id => Action.fail (.alreadyInserted id)
        | none => new : Action σ RepoError Task) s) := by
  rw [insert, Action.bind_of_ok (rfl : held ⟨s, t⟩ = ⟨.ok t, ⟨s, t⟩, []⟩)]
  cases hvalid : t.validate with
  | error fault => rfl
  | ok =>
      cases hid : t.id with
      | some id => rfl
      | none => exact h

end Handed

namespace MemoryStore

/-- Moves the counter on and answers where it stood. -/
def takeId : Action MemoryStore RepoError Int64 := do
  let s ← Action.store
  match Number.next? s.nextId with
  | none => Action.breakOff
  | some next =>
    Action.setStore { s with nextId := next }
    return s.nextId

/-- Stores a task behind the others. -/
def push (t : Task) : Action MemoryStore RepoError Unit := do
  let s ← Action.store
  Action.setStore { s with tasks := s.tasks ++ [t] }

/-- An insertion in place in memory. -/
def insertInPlace : Action (Handed MemoryStore) RepoError Unit :=
  Handed.insert (fun _ => takeId) push

/-- The assignments in memory **amount to an insertion**. -/
theorem insertInPlace_eq (s : MemoryStore) (t : Task) :
    insertInPlace ⟨s, t⟩ = (repository.insert t s).handed t := by
  refine Handed.insert_eq ?_
  cases hnext : Number.next? s.nextId <;>
    simp [Reply.handed, Handed.held, Handed.onStore, Handed.assignId, takeId, push, bind,
      Action.andThen, hnext, Except.map, Except.toOption]

end MemoryStore

namespace Tables

/-- An insertion in place in a table. -/
def insertInPlace [Engine] : Action (Handed Tables) RepoError Unit :=
  Handed.insert (fun t => write fun s => s.insertTask t.cells) fun _ => pure ()

/-- The assignments with a table **amount to an insertion**. -/
theorem insertInPlace_eq [Engine] (s : Tables) (t : Task) :
    insertInPlace ⟨s, t⟩ = (repository.insert t s).handed t := by
  refine Handed.insert_eq ?_
  cases hinsert : s.insertTask t.cells <;>
    simp [Reply.handed, Handed.held, Handed.onStore, Handed.assignId, write, bind, Action.andThen,
      hinsert, Except.mapError, Except.map, Except.toOption]

end Tables

end Taskbook
