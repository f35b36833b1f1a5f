import Taskbook.Manager.Session
import Taskbook.Proofs.Store.Seeding

/-!
# What the Manager Preserves

The manager has no other way to a store than the three operations of a repository. So a property
of stores that the three preserve is preserved by every operation of the manager, by every step
of a session and by every run, whatever is asked and however it ends. The proof follows the way
in which actions are put together and looks at no repository.

The store in memory is the first use of it. Its fields are its own, so a store is one that was
seeded and then went through steps; all of these are sound.

## Main results

* `Step.take_preserves`: **a step preserves what the operations preserve**;
* `MemoryStore.Reachable.sound`: every store in memory that can be reached is sound.
-/

namespace Taskbook

variable {σ ε δ α β : Type}

namespace Action

/-- An action **preserves** a property of the store, whether it answers or fails. -/
def Preserves (Inv : σ → Prop) (x : Action σ ε α) : Prop :=
  ∀ s, Inv s → Inv (x s).store

variable {Inv : σ → Prop}

/-- An answer preserves everything. -/
theorem preserves_pure (a : α) : (pure a : Action σ ε α).Preserves Inv :=
  fun _ h => h

/-- A failure preserves everything. -/
theorem preserves_fail (e : ε) : (fail e : Action σ ε α).Preserves Inv :=
  fun _ h => h

/-- Writing to the log preserves everything. -/
theorem preserves_record (e : Event) : (record e : Action σ ε Unit).Preserves Inv :=
  fun _ h => h

/-- A chain preserves what both its parts preserve. -/
theorem Preserves.bind {x : Action σ ε α} {f : α → Action σ ε β} (hx : x.Preserves Inv)
    (hf : ∀ a, (f a).Preserves Inv) : (x >>= f).Preserves Inv := by
  intro s hs
  have hx' := hx s hs
  rcases hr : x s with ⟨result, s', events⟩
  rw [hr] at hx'
  cases result with
  | ok a =>
      rw [bind_of_ok hr]
      exact hf a s' hx'
  | error e =>
      rw [bind_of_error hr]
      exact hx'

/-- Another error type changes nothing about the store. -/
theorem Preserves.mapError {x : Action σ ε α} (hx : x.Preserves Inv) (f : ε → δ) :
    (x.mapError f).Preserves Inv :=
  fun s hs => hx s hs

end Action

/-- The operations of a repository preserve a property of the store. -/
structure Repository.Preserves (repo : Repository σ) (Inv : σ → Prop) : Prop where
  insert : ∀ t, (repo.insert t).Preserves Inv
  query : ∀ p, (repo.query p).Preserves Inv
  update : ∀ t, (repo.update t).Preserves Inv

namespace Manager

variable {repo : Repository σ} {Inv : σ → Prop}

/-- Creating a task preserves what the operations preserve. -/
theorem preserves_create (h : repo.Preserves Inv) (now : Instant) (title : String)
    (due : Option Instant) : (create repo now title due).Preserves Inv := by
  rw [create]
  by_cases hblank : Text.isBlankText title = true
  · rw [if_pos hblank]
    exact Action.preserves_fail _
  · rw [if_neg hblank]
    refine ((h.insert _).mapError _).bind fun task => ?_
    exact (Action.preserves_record _).bind fun _ => Action.preserves_pure _

/-- Getting a task preserves what the operations preserve. -/
theorem preserves_get (h : repo.Preserves Inv) (id : Int64) :
    (get repo id).Preserves Inv := by
  rw [get_eq]
  refine ((h.query _).mapError _).bind fun found => ?_
  cases found with
  | nil => exact (Action.preserves_record _).bind fun _ => Action.preserves_fail _
  | cons task rest => exact Action.preserves_pure _

/-- Changing a task preserves what the operations preserve. -/
theorem preserves_modify (h : repo.Preserves Inv) (id : Int64) (change : Change)
    (f : Task → Task) : (modify repo id change f).Preserves Inv :=
  (preserves_get h id).bind fun _ =>
    ((h.update _).mapError _).bind fun _ => Action.preserves_record _

/-- Listing what a predicate selects preserves what the operations preserve. -/
theorem preserves_list (h : repo.Preserves Inv) (p : Predicate) :
    (do return sortByPriority (← lift (repo.query p)) : Op σ (List Task)).Preserves Inv :=
  ((h.query p).mapError _).bind fun _ => Action.preserves_pure _

end Manager

/-- **A step preserves what the operations preserve.** -/
theorem Step.take_preserves {repo : Repository σ} {Inv : σ → Prop} (h : repo.Preserves Inv)
    {s : Session σ} (hs : Inv s.store) (step : Step) : Inv (step.take repo s).session.store := by
  cases step with
  | create title due => exact Manager.preserves_create h s.clock title due s.store hs
  | get id => exact Manager.preserves_get h id s.store hs
  | markDone id | reopen id | postpone id _ | reprioritize id _ =>
      exact Manager.preserves_modify h id _ _ s.store hs
  | relevant => exact Manager.preserves_list h (.relevantAt s.clock) s.store hs
  | listAll => exact Manager.preserves_list h .always s.store hs
  | readClock | setClock _ | advanceMillis _ | advanceDays _ => exact hs
  | insert t => exact h.insert t s.store hs
  | update t => exact h.update t s.store hs
  | query p => exact h.query p s.store hs

namespace MemoryStore

/-- The stores in memory that can be **reached**: a seeded one, and what a step leaves behind. -/
inductive Reachable : MemoryStore → Prop
  | seeded {tasks : List Task} {s : MemoryStore} : ofTasks tasks = .ok s → Reachable s
  | step {s : MemoryStore} (clock : Instant) (step : Step) :
      Reachable s → Reachable (step.take repository ⟨s, clock⟩).session.store

/-- The operations preserve soundness. -/
theorem preserves_sound : repository.Preserves Sound where
  insert := fun t _ h => h.insert t
  query := fun _ _ h => h
  update := fun t _ h => h.update t

/-- **Every store that can be reached is sound.** -/
theorem Reachable.sound {s : MemoryStore} (h : Reachable s) : s.Sound := by
  induction h with
  | seeded hs => exact sound_of_ofTasks hs
  | @step s clock step _ ih => exact step.take_preserves preserves_sound (s := ⟨s, clock⟩) ih

/-- The store without tasks can be reached. -/
theorem reachable_empty : Reachable empty :=
  .seeded (show ofTasks [] = .ok empty from rfl)

end MemoryStore

end Taskbook
