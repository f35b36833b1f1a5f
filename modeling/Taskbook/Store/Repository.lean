import Taskbook.Query.Predicate
import Taskbook.Store.Action
import Taskbook.Store.Error

/-!
# Repositories

A repository keeps tasks in a store. It is given by its three operations, whatever the store
is made of, so what is built on repositories can be said of all of them at once.
-/

namespace Taskbook

/-- The operations that keep tasks in a store of type `σ`. -/
structure Repository (σ : Type) where
  /-- Stores a new task and answers it with the id it was given. -/
  insert : Task → Action σ RepoError Task
  /-- Answers the stored tasks of which a predicate holds, in the order of the store. -/
  query : Predicate → Action σ RepoError (List Task)
  /-- Replaces every field of the stored task that has the same id. -/
  update : Task → Action σ RepoError Unit

end Taskbook
