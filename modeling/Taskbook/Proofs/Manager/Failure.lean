import Taskbook.Manager.Session
import Taskbook.Proofs.Results
import Taskbook.Proofs.Store.InPlace

/-!
# A Failed Call Leaves No Trace

A call that fails leaves the store as it was: every task in its place, every field of it, and the
counter. Reads change nothing at all, so an operation of the manager, which reads first and writes
last, fails before its write has had an effect. That is shown once for every repository whose own
operations fail cleanly, along the way in which actions are put together, and both backends are
such repositories.

So failed calls can be dropped from a session. What is left of it ends the same way, call by call,
and in the same store; in particular the same ids are given out.

The task that a caller hands over to an insertion is treated in
`Taskbook.Proofs.Store.InPlace`, which says what the call does to the caller's variable.

## Main results

* `Step.session_of_failed`: a **failed step changes nothing**, on a repository that fails cleanly;
* `Session.run_effective`: **failed steps can be dropped** from a run;
* `Session.failure_leaves_no_trace`: both, **on both backends**, with the caller's task.
-/

namespace Taskbook

variable {σ ε δ α β : Type}

/-! ### Actions that fail cleanly -/

namespace Action

/-- An action **reads only**: it leaves the store as it is, however it ends. -/
def ReadsOnly (x : Action σ ε α) : Prop :=
  ∀ s, (x s).store = s

/-- An action **succeeds** on every store. -/
def Succeeds (x : Action σ ε α) : Prop :=
  ∀ s, ∃ a, (x s).result = .ok a

/-- An action **fails cleanly**: where it fails, the store is as it was. -/
def FailsCleanly (x : Action σ ε α) : Prop :=
  ∀ s e, (x s).result = .error e → (x s).store = s

/-- What only reads fails cleanly. -/
theorem ReadsOnly.failsCleanly {x : Action σ ε α} (h : x.ReadsOnly) : x.FailsCleanly :=
  fun s _ _ => h s

/-- What never fails fails cleanly. -/
theorem Succeeds.failsCleanly {x : Action σ ε α} (h : x.Succeeds) : x.FailsCleanly := by
  intro s e he
  obtain ⟨a, ha⟩ := h s
  rw [ha] at he
  cases he

theorem readsOnly_pure (a : α) : (pure a : Action σ ε α).ReadsOnly := fun _ => rfl

theorem readsOnly_fail (e : ε) : (fail e : Action σ ε α).ReadsOnly := fun _ => rfl

theorem readsOnly_breakOff : (breakOff : Action σ ε α).ReadsOnly := fun _ => rfl

theorem readsOnly_record (e : Event) : (record e : Action σ ε Unit).ReadsOnly := fun _ => rfl

theorem readsOnly_store : (store : Action σ ε σ).ReadsOnly := fun _ => rfl

theorem readsOnly_ofExcept (x : Except ε α) : (ofExcept x : Action σ ε α).ReadsOnly := by
  cases x <;> exact fun _ => rfl

theorem succeeds_pure (a : α) : (pure a : Action σ ε α).Succeeds := fun _ => ⟨a, rfl⟩

theorem succeeds_record (e : Event) : (record e : Action σ ε Unit).Succeeds := fun _ => ⟨(), rfl⟩

theorem succeeds_setStore (s : σ) : (setStore s : Action σ ε Unit).Succeeds := fun _ => ⟨(), rfl⟩

/-- A chain of two actions that only read only reads. -/
theorem ReadsOnly.bind {x : Action σ ε α} {f : α → Action σ ε β} (hx : x.ReadsOnly)
    (hf : ∀ a, (f a).ReadsOnly) : (x >>= f).ReadsOnly := by
  intro s
  have hs := hx s
  rcases hr : x s with ⟨result, s', events⟩
  rw [hr] at hs
  obtain rfl : s' = s := hs
  cases result with
  | ok a =>
      rw [bind_of_ok hr]
      exact hf a s'
  | error e => rw [bind_of_error hr]

/-- A chain of two actions that succeed succeeds. -/
theorem Succeeds.bind {x : Action σ ε α} {f : α → Action σ ε β} (hx : x.Succeeds)
    (hf : ∀ a, (f a).Succeeds) : (x >>= f).Succeeds := by
  intro s
  obtain ⟨a, ha⟩ := hx s
  rcases hr : x s with ⟨result, s', events⟩
  rw [hr] at ha
  obtain rfl : result = .ok a := ha
  rw [bind_of_ok hr]
  exact hf a s'

/-- A chain fails cleanly if its first action does and its second, where it fails, leaves the
store in which the first one began. -/
theorem FailsCleanly.bind {x : Action σ ε α} {f : α → Action σ ε β} (hx : x.FailsCleanly)
    (hf : ∀ s a, (x s).result = .ok a →
      ∀ e, (f a (x s).store).result = .error e → (f a (x s).store).store = s) :
    (x >>= f).FailsCleanly := by
  intro s e he
  have hfs := hf s
  have hxs := hx s
  rcases hr : x s with ⟨result, s', events⟩
  rw [hr] at hfs hxs
  cases result with
  | ok a =>
      rw [bind_of_ok hr] at he ⊢
      exact hfs a rfl e he
  | error d =>
      rw [bind_of_error hr]
      exact hxs d rfl

/-- **Reading first.** What comes after a read may fail, if it fails cleanly. -/
theorem ReadsOnly.bind_failsCleanly {x : Action σ ε α} {f : α → Action σ ε β} (hx : x.ReadsOnly)
    (hf : ∀ a, (f a).FailsCleanly) : (x >>= f).FailsCleanly := by
  refine hx.failsCleanly.bind fun s a _ e he => ?_
  rw [hx s] at he ⊢
  exact hf a s e he

/-- **Writing last.** What comes after a write must not fail any more. -/
theorem FailsCleanly.bind_succeeds {x : Action σ ε α} {f : α → Action σ ε β} (hx : x.FailsCleanly)
    (hf : ∀ a, (f a).Succeeds) : (x >>= f).FailsCleanly := by
  refine hx.bind fun s a _ e he => ?_
  obtain ⟨b, hb⟩ := hf a (x s).store
  rw [hb] at he
  cases he

/-- Another error type changes nothing about reading. -/
theorem ReadsOnly.mapError {x : Action σ ε α} (h : x.ReadsOnly) (f : ε → δ) :
    (x.mapError f).ReadsOnly :=
  h

/-- Another error type changes nothing about failing. -/
theorem FailsCleanly.mapError {x : Action σ ε α} (h : x.FailsCleanly) (f : ε → δ) :
    (x.mapError f).FailsCleanly := by
  intro s e he
  rw [Action.mapError] at he
  cases hr : (x s).result with
  | ok a =>
      rw [hr] at he
      cases he
  | error d => exact h s d hr

end Action

open Taskbook.Action

/-! ### Repositories and the manager -/

/-- A repository **fails cleanly**: its writes fail cleanly, and its queries only read. -/
structure Repository.FailsCleanly (repo : Repository σ) : Prop where
  insert : ∀ t, (repo.insert t).FailsCleanly
  query : ∀ p, (repo.query p).ReadsOnly
  update : ∀ t, (repo.update t).FailsCleanly

namespace Manager

variable {repo : Repository σ}

/-- Creating a task fails cleanly: after the insertion only the log is told. -/
theorem failsCleanly_create (h : repo.FailsCleanly) (now : Instant) (title : String)
    (due : Option Instant) : (create repo now title due).FailsCleanly := by
  rw [create]
  by_cases hblank : Text.isBlankText title = true
  · rw [if_pos hblank]
    exact (readsOnly_fail _).failsCleanly
  · rw [if_neg hblank]
    refine ((h.insert _).mapError _).bind_succeeds fun task => ?_
    exact (succeeds_record _).bind fun _ => succeeds_pure _

/-- Getting a task only reads. -/
theorem readsOnly_get (h : repo.FailsCleanly) (id : Int64) : (get repo id).ReadsOnly := by
  rw [get_eq]
  refine ((h.query _).mapError _).bind fun found => ?_
  cases found with
  | nil => exact (readsOnly_record _).bind fun _ => readsOnly_fail _
  | cons task rest => exact readsOnly_pure _

/-- Changing a task fails cleanly: it reads first and writes last. -/
theorem failsCleanly_modify (h : repo.FailsCleanly) (id : Int64) (change : Change)
    (f : Task → Task) : (modify repo id change f).FailsCleanly :=
  (readsOnly_get h id).bind_failsCleanly fun _ =>
    ((h.update _).mapError _).bind_succeeds fun _ => succeeds_record _

/-- Listing what a predicate selects only reads. -/
theorem readsOnly_list (h : repo.FailsCleanly) (p : Predicate) :
    (do return sortByPriority (← lift (repo.query p)) : Op σ (List Task)).ReadsOnly :=
  ((h.query p).mapError _).bind fun _ => readsOnly_pure _

end Manager

/-! ### Steps and runs -/

/-- Whether a step failed. -/
def Outcome.failed : Outcome → Bool
  | refused _ | refusedByStore _ | overflow => true
  | _ => false

/-- An action that fails cleanly leaves the session as it was where its outcome is a failure. -/
theorem Session.act_of_failed {s : Session σ} {answer : α → Outcome} {refusal : ε → Outcome}
    {x : Action σ ε α} (hx : x.FailsCleanly) (hanswer : ∀ a, (answer a).failed = false)
    (hfailed : (s.act answer refusal x).outcome.failed = true) :
    (s.act answer refusal x).session = s := by
  rw [Session.act] at hfailed ⊢
  cases hr : (x s.store).result with
  | ok a =>
      rw [hr, Outcome.ofResult] at hfailed
      rw [hanswer a] at hfailed
      cases hfailed
  | error e =>
      have hstore : (x s.store).store = s.store := hx s.store e hr
      change (⟨(x s.store).store, s.clock⟩ : Session σ) = s
      rw [hstore]

/-- **A failed step changes nothing**, neither the store nor the clock. -/
theorem Step.session_of_failed {repo : Repository σ} (h : repo.FailsCleanly) {s : Session σ}
    {step : Step} (hfailed : (step.take repo s).outcome.failed = true) :
    (step.take repo s).session = s := by
  cases step with
  | create title due =>
      exact Session.act_of_failed (Manager.failsCleanly_create h _ _ _) (fun _ => rfl) hfailed
  | get id =>
      exact Session.act_of_failed (Manager.readsOnly_get h _).failsCleanly (fun _ => rfl) hfailed
  | markDone id | reopen id | postpone id _ | reprioritize id _ =>
      exact Session.act_of_failed (Manager.failsCleanly_modify h _ _ _) (fun _ => rfl) hfailed
  | relevant | listAll =>
      exact Session.act_of_failed (Manager.readsOnly_list h _).failsCleanly (fun _ => rfl) hfailed
  | readClock | setClock _ | advanceMillis _ | advanceDays _ => cases hfailed
  | insert t => exact Session.act_of_failed (h.insert t) (fun _ => rfl) hfailed
  | update t => exact Session.act_of_failed (h.update t) (fun _ => rfl) hfailed
  | query p => exact Session.act_of_failed (h.query p).failsCleanly (fun _ => rfl) hfailed

/-- The steps of a run that do not fail. -/
def Session.effective (repo : Repository σ) (s : Session σ) : List Step → List Step
  | [] => []
  | step :: steps =>
    let taken := step.take repo s
    let rest := effective repo taken.session steps
    if taken.outcome.failed then rest else step :: rest

/-- **Failed steps can be dropped** from a run: the others end as they did, in the same session. -/
theorem Session.run_effective {repo : Repository σ} (h : repo.FailsCleanly) (s : Session σ)
    (steps : List Step) :
    (s.run repo (s.effective repo steps)).1 =
        (s.run repo steps).1.filter (fun outcome => !outcome.failed) ∧
      (s.run repo (s.effective repo steps)).2.1 = (s.run repo steps).2.1 := by
  induction steps generalizing s with
  | nil => exact ⟨rfl, rfl⟩
  | cons step steps ih =>
      obtain ⟨houtcomes, hlast⟩ := ih (step.take repo s).session
      rw [effective]
      cases hfailed : (step.take repo s).outcome.failed with
      | true =>
          have hsame := Step.session_of_failed h hfailed
          rw [hsame] at houtcomes hlast
          simp only [run, hsame, if_true, List.filter_cons, hfailed, Bool.not_true,
            Bool.false_eq_true, if_false]
          exact ⟨houtcomes, hlast⟩
      | false =>
          simp only [run, Bool.false_eq_true, if_false, List.filter_cons, hfailed, Bool.not_false,
            if_true]
          exact ⟨congrArg _ houtcomes, hlast⟩

/-! ### The two backends -/

namespace MemoryStore

/-- The store in memory fails cleanly. -/
theorem failsCleanly : repository.FailsCleanly where
  insert t := by
    refine (readsOnly_ofExcept _).bind_failsCleanly fun _ => ?_
    cases t.id with
    | some id => exact (readsOnly_fail _).failsCleanly
    | none =>
        refine readsOnly_store.bind_failsCleanly fun s => ?_
        cases Number.next? s.nextId with
        | none => exact readsOnly_breakOff.failsCleanly
        | some next => exact ((succeeds_setStore _).bind fun _ => succeeds_pure _).failsCleanly
  query _ := readsOnly_store.bind fun _ => readsOnly_pure _
  update t := by
    refine (readsOnly_ofExcept _).bind_failsCleanly fun _ => ?_
    cases t.id with
    | none => exact (readsOnly_fail _).failsCleanly
    | some id =>
        refine readsOnly_store.bind_failsCleanly fun s => ?_
        by_cases hfind : (s.find? id).isSome = true
        · simp only [hfind, if_true]
          exact (succeeds_setStore _).failsCleanly
        · simp only [hfind]
          exact (readsOnly_fail _).failsCleanly

end MemoryStore

namespace Tables

/-- A statement that is refused writes nothing. -/
theorem failsCleanly_write {α : Type} (statement : Tables → Except SqlError (α × Tables)) :
    (write statement).FailsCleanly :=
  readsOnly_store.bind_failsCleanly fun _ =>
    (readsOnly_ofExcept _).bind_failsCleanly fun _ =>
      ((succeeds_setStore _).bind fun _ => succeeds_pure _).failsCleanly

/-- A statement that answers has put its tables in the place of the old ones. -/
theorem eq_of_write_eq_ok {α : Type} {statement : Tables → Except SqlError (α × Tables)}
    {s : Tables} {a : α} (h : (write statement s).result = .ok a) :
    statement s = .ok (a, (write statement s).store) := by
  cases hrun : statement s with
  | error e => simp [write, bind, Action.andThen, hrun, Except.mapError] at h
  | ok answer =>
      simp only [write, bind, Action.andThen, store_apply, hrun, Except.mapError, ofExcept_ok,
        answer_apply, setStore_apply, pure_apply, Except.ok.injEq] at h ⊢
      rw [← h]

/-- An update that finds no row writes nothing. -/
theorem eq_of_updateTask_eq_false {s s' : Tables} {id : Int64} {cells : Cells}
    (h : s.updateTask id cells = .ok (false, s')) : s' = s := by
  rw [updateTask] at h
  cases hfind : s.tasks.find? id with
  | none =>
      rw [hfind] at h
      exact (Prod.mk.inj (Except.ok.inj h)).2.symm
  | some found =>
      rw [hfind] at h
      obtain ⟨row, -, h⟩ := Except.bind_eq_ok_iff.mp h
      split at h <;> cases h

/-- The tables fail cleanly. An update that found no row is refused after its statement, which
has written nothing. -/
theorem failsCleanly [Engine] : repository.FailsCleanly where
  insert t := by
    refine (readsOnly_ofExcept _).bind_failsCleanly fun _ => ?_
    cases t.id with
    | some id => exact (readsOnly_fail _).failsCleanly
    | none => exact (failsCleanly_write _).bind_succeeds fun _ => succeeds_pure _
  query p :=
    (readsOnly_record _).bind fun _ => readsOnly_store.bind fun s =>
      (readsOnly_ofExcept _).bind fun _ => readsOnly_ofExcept _
  update t := by
    refine (readsOnly_ofExcept _).bind_failsCleanly fun _ => ?_
    cases t.id with
    | none => exact (readsOnly_fail _).failsCleanly
    | some id =>
        refine (failsCleanly_write _).bind fun s found hwritten e he => ?_
        have hupdate := eq_of_write_eq_ok hwritten
        cases found with
        | true => cases he
        | false => exact eq_of_updateTask_eq_false hupdate

/-- A database that cannot be written fails cleanly. -/
theorem failsCleanly_frozen [Engine] (obstacle : SqlError) :
    (frozenRepository obstacle).FailsCleanly where
  insert t := by
    refine ((readsOnly_ofExcept _).bind fun _ => ?_).failsCleanly
    cases t.id <;> exact readsOnly_fail _
  query := failsCleanly.query
  update t := by
    refine ((readsOnly_ofExcept _).bind fun _ => ?_).failsCleanly
    cases t.id <;> exact readsOnly_fail _

end Tables

/-! ### The task that a caller hands over -/

/-- An insertion in place leaves the caller's task alone where it fails, if it amounts to an
insertion that fails cleanly. -/
theorem Handed.failsCleanly {insert : Task → Action σ RepoError Task}
    {inPlace : Action (Handed σ) RepoError Unit} (h : ∀ t, (insert t).FailsCleanly)
    (heq : ∀ s t, inPlace ⟨s, t⟩ = (insert t s).handed t) : inPlace.FailsCleanly := by
  rintro ⟨s, t⟩ e he
  rw [heq] at he ⊢
  cases hr : (insert t s).result with
  | ok stored =>
      rw [Reply.handed, hr] at he
      cases he
  | error d =>
      have hstore : (insert t s).store = s := h t s d hr
      rw [Reply.handed, hr, hstore]
      rfl

/-- **A failed call leaves no trace**, on either backend and on every store.

A step that fails leaves the session as it was: every task in its place with every field, the
counter of the store in memory, and the clock; also on a database that cannot be written. A failed
insertion also leaves the task alone that
its caller handed over. The steps of a run that do not fail end as they would without the others,
with the same ids given out, and in the same session. -/
theorem Session.failure_leaves_no_trace [Engine] :
    ((∀ (s : Session MemoryStore) (step : Step),
        (step.take MemoryStore.repository s).outcome.failed = true →
          (step.take MemoryStore.repository s).session = s) ∧
      (∀ (s : MemoryStore) (t : Task) (e : Failure RepoError),
        (MemoryStore.insertInPlace ⟨s, t⟩).result = .error e →
          (MemoryStore.insertInPlace ⟨s, t⟩).store = ⟨s, t⟩) ∧
      ∀ (s : Session MemoryStore) (steps : List Step),
        let rest := s.run MemoryStore.repository (s.effective MemoryStore.repository steps)
        let whole := s.run MemoryStore.repository steps
        rest.1 = whole.1.filter (fun outcome => !outcome.failed) ∧ rest.2.1 = whole.2.1) ∧
    ((∀ (s : Session Tables) (step : Step),
        (step.take Tables.repository s).outcome.failed = true →
          (step.take Tables.repository s).session = s) ∧
      (∀ (obstacle : SqlError) (s : Session Tables) (step : Step),
        (step.take (Tables.frozenRepository obstacle) s).outcome.failed = true →
          (step.take (Tables.frozenRepository obstacle) s).session = s) ∧
      (∀ (s : Tables) (t : Task) (e : Failure RepoError),
        (Tables.insertInPlace ⟨s, t⟩).result = .error e →
          (Tables.insertInPlace ⟨s, t⟩).store = ⟨s, t⟩) ∧
      ∀ (s : Session Tables) (steps : List Step),
        let rest := s.run Tables.repository (s.effective Tables.repository steps)
        let whole := s.run Tables.repository steps
        rest.1 = whole.1.filter (fun outcome => !outcome.failed) ∧ rest.2.1 = whole.2.1) := by
  constructor
  · refine ⟨?_, ?_, ?_⟩
    · exact fun s step hfailed => Step.session_of_failed MemoryStore.failsCleanly hfailed
    · exact fun s t e he =>
        Handed.failsCleanly MemoryStore.failsCleanly.insert MemoryStore.insertInPlace_eq ⟨s, t⟩ e he
    · exact fun s steps => Session.run_effective MemoryStore.failsCleanly s steps
  · refine ⟨?_, ?_, ?_, ?_⟩
    · exact fun s step hfailed => Step.session_of_failed Tables.failsCleanly hfailed
    · exact fun obstacle s step hfailed =>
        Step.session_of_failed (Tables.failsCleanly_frozen obstacle) hfailed
    · exact fun s t e he =>
        Handed.failsCleanly Tables.failsCleanly.insert Tables.insertInPlace_eq ⟨s, t⟩ e he
    · exact fun s steps => Session.run_effective Tables.failsCleanly s steps

/-- The counter stands on the last id, and a creation breaks off. A row is to refer to a recurring
task that there is none of, and its insertion is refused; the caller's task keeps having no id. -/
theorem Session.failure_leaves_no_trace_overflow_and_reference :
    let _ : Engine := .scanning
    let full : Session MemoryStore := ⟨⟨[], Int64.maxValue⟩, ⟨7⟩⟩
    let new : Session Tables := ⟨.empty, ⟨7⟩⟩
    let dangling : Task := { title := "a", createdOn := ⟨7⟩, createdFrom := some 3 }
    ((Step.create "a" none).take MemoryStore.repository full).outcome = .overflow ∧
      ((Step.create "a" none).take MemoryStore.repository full).session = full ∧
      ((Step.insert dangling).take Tables.repository new).outcome =
        .refusedByStore (Tables.refusal .foreignKey) ∧
      ((Step.insert dangling).take Tables.repository new).session = new ∧
      (Tables.insertInPlace ⟨new.store, dangling⟩).result =
        .error (.cause (Tables.refusal .foreignKey)) ∧
      (Tables.insertInPlace ⟨new.store, dangling⟩).store = ⟨new.store, dangling⟩ := by
  intro _ full new dangling
  have hfull : ((Step.create "a" none).take MemoryStore.repository full).outcome = .overflow := by
    decide
  have hnew : ((Step.insert dangling).take Tables.repository new).outcome =
      .refusedByStore (Tables.refusal .foreignKey) := by
    decide
  have hplace : (Tables.insertInPlace ⟨new.store, dangling⟩).result =
      .error (.cause (Tables.refusal .foreignKey)) := by
    decide
  obtain ⟨⟨hmemory, -, -⟩, htables, -, hhanded, -⟩ := Session.failure_leaves_no_trace
  refine ⟨hfull, ?_, hnew, ?_, hplace, ?_⟩
  · exact hmemory full _ (by rw [hfull]; rfl)
  · exact htables new _ (by rw [hnew]; rfl)
  · exact hhanded new.store dangling _ hplace

end Taskbook
