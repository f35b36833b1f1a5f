import Taskbook.Proofs.Manager.Backends

/-!
# Following a Run Without a Repository

The effects of steps compose: `MemoryStore.follow` takes a list of tasks and a next id through a
list of steps by their effects alone. A run on a repository with a ledger has the outcomes that
following it has, and leaves a store that stands for what is left in the end. So two repositories
are compared by comparing what is followed, and the store in memory, which stands for itself, is
followed exactly.

## Counter convention

The next id never goes back. A bound on it at the end of a run is one all along.

## Main results

* `Ledger.run_follow`: **a run has the outcomes that following it has**;
* `MemoryStore.run_eq_follow`: a run in memory is followed exactly;
* `MemoryStore.nextId_le_follow`: the next id never goes back.
-/

namespace Taskbook

variable {σ : Type}

/-- The store after a run. -/
def Session.storeAfter (repo : Repository σ) (s : Session σ) (steps : List Step) : σ :=
  (s.run repo steps).2.1.store

/-- **A run preserves what the operations preserve.** -/
theorem Session.storeAfter_preserves {repo : Repository σ} {Inv : σ → Prop}
    (h : repo.Preserves Inv) {s : Session σ} (hs : Inv s.store) (steps : List Step) :
    Inv (s.storeAfter repo steps) := by
  induction steps generalizing s with
  | nil => exact hs
  | cons step steps ih => exact ih (step.take_preserves h hs)

/-- The outcomes of a run are those of its steps, each taken after the steps before it. -/
theorem Session.mem_run_iff {repo : Repository σ} {s : Session σ} {steps : List Step}
    {o : Outcome} :
    o ∈ (s.run repo steps).1 ↔
      ∃ before step after, steps = before ++ step :: after ∧
        (step.take repo (s.run repo before).2.1).outcome = o := by
  induction steps generalizing s with
  | nil =>
      constructor
      · rintro ⟨⟩
      · rintro ⟨before, step, after, hsplit, -⟩
        cases before <;> cases hsplit
  | cons x steps ih =>
      show o ∈ (x.take repo s).outcome :: ((x.take repo s).session.run repo steps).1 ↔ _
      rw [List.mem_cons, ih]
      constructor
      · rintro (rfl | ⟨before, step, after, rfl, ho⟩)
        · exact ⟨[], x, steps, rfl, rfl⟩
        · exact ⟨x :: before, step, after, rfl, ho⟩
      · rintro ⟨before, step, after, hsplit, ho⟩
        cases before with
        | nil =>
            obtain ⟨rfl, -⟩ := List.cons.inj hsplit
            exact .inl ho.symm
        | cons y before =>
            obtain ⟨rfl, rfl⟩ := List.cons.inj hsplit
            exact .inr ⟨before, step, after, rfl, ho⟩

/-- A step that asks the manager, moves the clock or queries by a predicate of a class `P`. -/
def Step.Asks (P : Predicate → Prop) : Step → Prop
  | insert _ | update _ => False
  | query p => P p
  | _ => True

/-- What is asked of a class is asked of a greater one. -/
theorem Step.Asks.imp {P Q : Predicate → Prop} (h : ∀ p, P p → Q p) {step : Step}
    (hasks : step.Asks P) : step.Asks Q := by
  cases step with
  | query p => exact h p hasks
  | insert t | update t => exact hasks.elim
  | _ => trivial

namespace MemoryStore

/-- **Following** steps: their outcomes and what the store stands for in the end. -/
def follow (now : Instant) (m : MemoryStore) : List Step → List Outcome × MemoryStore
  | [] => ([], m)
  | step :: steps =>
    let rest := follow (step.clockAfter now) (step.effect now m).2 steps
    ((step.effect now m).1 :: rest.1, rest.2)

/-- Changing a task gives out no id. -/
theorem nextId_change (m : MemoryStore) (id : Int64) (f : Task → Task) :
    (m.change id f).2.nextId = m.nextId := by
  rcases m.change_cases id f with ⟨e, h⟩ | ⟨t, -, h⟩ <;> rw [h]
  rfl

/-- A step leaves the next id alone or moves it on by one. -/
theorem nextId_effect (now : Instant) (m : MemoryStore) (step : Step) :
    (step.effect now m).2.nextId = m.nextId ∨
      (step.effect now m).2.nextId.toInt = m.nextId.toInt + 1 := by
  cases step with
  | create title due =>
      rw [Step.effect_create]
      rcases m.enter_cases now title due with ⟨o, -, h⟩ | ⟨next, -, hnext, h⟩ <;> rw [h]
      · exact .inl rfl
      · exact .inr (Number.next?_eq_some_iff.mp hnext)
  | markDone id | reopen id | postpone id _ | reprioritize id _ => exact .inl (nextId_change ..)
  | _ => exact .inl rfl

/-- **The next id never goes back.** -/
theorem nextId_le_follow (now : Instant) (m : MemoryStore) (steps : List Step) :
    m.nextId.toInt ≤ (m.follow now steps).2.nextId.toInt := by
  induction steps generalizing now m with
  | nil => exact Int.le_refl _
  | cons step steps ih =>
      refine Int.le_trans ?_ (ih _ _)
      rcases nextId_effect now m step with hsame | hsucc
      · exact Int.le_of_eq (congrArg Int64.toInt hsame.symm)
      · omega

/-- Following a list in two parts. -/
theorem follow_append (now : Instant) (m : MemoryStore) (xs ys : List Step) :
    (m.follow now (xs ++ ys)).2 =
      ((m.follow now xs).2.follow (xs.foldl (fun c x => x.clockAfter c) now) ys).2 := by
  induction xs generalizing now m with
  | nil => rfl
  | cons x xs ih => exact ih _ _

end MemoryStore

namespace Ledger

variable {repo : Repository σ} (L : Ledger repo)

/-- Every step of a run finds the store as it needs it. -/
def ServesThroughout : Session σ → MemoryStore → List Step → Prop
  | _, _, [] => True
  | s, m, step :: steps =>
    L.Serves s.store m step ∧
      ServesThroughout (step.take repo s).session (step.effect s.clock m).2 steps

/-- **A run has the outcomes that following it has**, and leaves a store that stands for what is
left in the end. -/
theorem run_follow {s : Session σ} {m : MemoryStore} (h : L.Keeps s.store m) {steps : List Step}
    (serves : L.ServesThroughout s m steps) :
    (s.run repo steps).1 = (m.follow s.clock steps).1 ∧
      L.Keeps (s.storeAfter repo steps) (m.follow s.clock steps).2 := by
  induction steps generalizing s m with
  | nil => exact ⟨rfl, h⟩
  | cons step steps ih =>
      obtain ⟨hserves, hrest⟩ := serves
      obtain ⟨houtcome, hclock, hkeeps⟩ := L.take_effect h s.clock hserves
      obtain ⟨houtcomes, hlast⟩ := ih hkeeps hrest
      rw [hclock] at houtcomes hlast
      refine ⟨?_, hlast⟩
      show (step.take repo s).outcome :: ((step.take repo s).session.run repo steps).1 = _
      rw [houtcomes]
      exact congrArg (· :: _) houtcome

end Ledger

namespace MemoryStore

/-- A store in memory is as every step needs it. -/
theorem serves {P : Predicate → Prop} (m : MemoryStore) {step : Step} (hasks : step.Asks P) :
    ledger.Serves m m step := by
  cases step with
  | create title due => exact fun _ => trivial
  | insert t | update t => exact hasks.elim
  | query p => exact ⟨[], query_eq p m⟩
  | _ => trivial

/-- A step that asks the manager, moves the clock or queries has its effect on a sound store. -/
theorem Sound.take_eq_effect {s : Session MemoryStore} (h : s.store.Sound) {step : Step}
    (hasks : step.Asks fun _ => True) :
    (step.take repository s).outcome = (step.effect s.clock s.store).1 ∧
      (step.take repository s).session.store = (step.effect s.clock s.store).2 := by
  obtain ⟨houtcome, -, hstore, -⟩ :=
    ledger.take_effect ⟨rfl, h⟩ s.clock (s.store.serves hasks)
  exact ⟨houtcome, hstore⟩

/-- A step leaves a sound store behind. -/
theorem Sound.effect {P : Predicate → Prop} {m : MemoryStore} (h : m.Sound) (now : Instant)
    {step : Step} (hasks : step.Asks P) : (step.effect now m).2.Sound := by
  obtain ⟨-, -, hkeeps⟩ := ledger.take_effect ⟨rfl, h⟩ now (m.serves hasks)
  obtain ⟨hstore, hsound⟩ := hkeeps
  exact hstore ▸ hsound

/-- A store in memory is as every run needs it. -/
theorem servesThroughout {P : Predicate → Prop} {m : MemoryStore} (h : m.Sound) (now : Instant)
    {steps : List Step} (hasks : ∀ step ∈ steps, step.Asks P) :
    ledger.ServesThroughout ⟨m, now⟩ m steps := by
  induction steps generalizing m now with
  | nil => trivial
  | cons step steps ih =>
      have hstep := hasks step List.mem_cons_self
      refine ⟨m.serves hstep, ?_⟩
      obtain ⟨-, hclock, hstore, -⟩ := ledger.take_effect ⟨rfl, h⟩ now (m.serves hstep)
      have hsession : (step.take repository ⟨m, now⟩).session =
          ⟨(step.effect now m).2, step.clockAfter now⟩ := by
        rw [← hstore, ← hclock]
      rw [hsession]
      exact ih (h.effect now hstep) _ fun x hx => hasks x (List.mem_cons_of_mem step hx)

/-- **A run in memory is followed exactly.** -/
theorem run_eq_follow {P : Predicate → Prop} {m : MemoryStore} (h : m.Sound) (now : Instant)
    {steps : List Step} (hasks : ∀ step ∈ steps, step.Asks P) :
    ((⟨m, now⟩ : Session MemoryStore).run repository steps).1 = (m.follow now steps).1 ∧
      (⟨m, now⟩ : Session MemoryStore).storeAfter repository steps = (m.follow now steps).2 := by
  obtain ⟨houtcomes, hstore, -⟩ :=
    ledger.run_follow ⟨rfl, h⟩ (servesThroughout h now hasks)
  exact ⟨houtcomes, hstore⟩

end MemoryStore

end Taskbook
