import Taskbook.Proofs.Manager.Following

/-!
# The Store Is the History of Its Calls

What a store holds after a run can be told from the record of the run alone: which calls there
were, at what clock, and which of them succeeded. A task that was there at the start or that a
successful call created is there at the end, once and in its old place, and each of its fields is
what the last successful call on it wrote to that field. A failed call leaves no mark.

The manager writes whole tasks, so this is not plain from how it writes: a call that changes one
field writes back seven others, as they were when the task was read. Nothing comes in between,
and the effect of a step (`Taskbook.Proofs.Manager.Ledger`) is to replace one field. The proof is
one induction over the run. A call on an id before the task with that id was created was refused,
since ids are never given out twice, so the record may be searched as a whole.

## Order convention

The record is in the order of time. Of several calls on one field the last one counts, and calls
that mark a task as done and calls that reopen it are about the same field.

## Main results

* `Ledger.run_history`: **the history of a run** on a repository with a ledger;
* `Session.store_eq_history`: **both stores are the history of their calls**.
-/

namespace Taskbook

variable {σ : Type}

/-! ### The record of a run -/

/-- What is on record of one step: the clock at which it was taken, the step and how it ended. -/
structure Entry where
  clock : Instant
  step : Step
  outcome : Outcome
  deriving DecidableEq, Repr

namespace Session

/-- The **record** of a run. -/
def trace (repo : Repository σ) (s : Session σ) : List Step → List Entry
  | [] => []
  | step :: steps =>
    let taken := step.take repo s
    ⟨s.clock, step, taken.outcome⟩ :: trace repo taken.session steps

/-- Every creation in a run that is not refused for its title finds the store with room. -/
def RoomThroughout (repo : Repository σ) (HasRoom : σ → Prop) : Session σ → List Step → Prop
  | _, [] => True
  | s, step :: steps =>
    (match step with
      | .create title _ => Text.isBlankText title = false → HasRoom s.store
      | _ => True) ∧
      RoomThroughout repo HasRoom (step.take repo s).session steps

/-- There is room throughout a run in two parts if there is throughout both. -/
theorem roomThroughout_append {repo : Repository σ} {HasRoom : σ → Prop} {s : Session σ}
    {xs ys : List Step} :
    s.RoomThroughout repo HasRoom (xs ++ ys) ↔
      s.RoomThroughout repo HasRoom xs ∧ (s.run repo xs).2.1.RoomThroughout repo HasRoom ys := by
  induction xs generalizing s with
  | nil => exact (and_iff_right trivial).symm
  | cons x xs ih => exact (and_congr_right fun _ => ih).trans (and_assoc (c := _)).symm

end Session

namespace Entry

/-- The task that a step created, if it did. -/
def created? : Entry → Option Task
  | ⟨clock, .create title due, .task t⟩ =>
    some { id := t.id, title := title, createdOn := clock, dueDate := due }
  | _ => none

/-- What a step wrote to the instant at which the task with an id was done, if it did: the clock,
or nothing when it reopened the task. -/
def doneOn? (id : Option Int64) : Entry → Option (Option Instant)
  | ⟨clock, .markDone i, .done⟩ => if id = some i then some (some clock) else none
  | ⟨_, .reopen i, .done⟩ => if id = some i then some none else none
  | _ => none

/-- What a step wrote to the instant until which the task with an id is postponed, if it did. -/
def postponedUntil? (id : Option Int64) : Entry → Option (Option Instant)
  | ⟨_, .postpone i until_, .done⟩ => if id = some i then some (some until_) else none
  | _ => none

/-- What a step wrote to the priority of the task with an id, if it did. -/
def priority? (id : Option Int64) : Entry → Option Priority
  | ⟨_, .reprioritize i priority, .done⟩ => if id = some i then some priority else none
  | _ => none

/-- What the **last** of the entries wrote, or the initial value if none did. -/
def lastWritten {α : Type} (written : Entry → Option α) (initial : α) (trace : List Entry) : α :=
  (trace.filterMap written).getLast?.getD initial

/-- What was written last in two parts of a record. -/
theorem lastWritten_append {α : Type} (written : Entry → Option α) (initial : α)
    (xs ys : List Entry) :
    lastWritten written initial (xs ++ ys) =
      lastWritten written (lastWritten written initial xs) ys := by
  rw [lastWritten, lastWritten, lastWritten, List.filterMap_append, List.getLast?_append]
  cases (ys.filterMap written).getLast? <;> rfl

end Entry

/-- A task **after** a run: three of its fields are what was written to them last, and the others
are as they were. -/
def Task.after (trace : List Entry) (t : Task) : Task :=
  { t with
    doneOn := Entry.lastWritten (Entry.doneOn? t.id) t.doneOn trace
    postponedUntil := Entry.lastWritten (Entry.postponedUntil? t.id) t.postponedUntil trace
    priority := Entry.lastWritten (Entry.priority? t.id) t.priority trace }

/-- The tasks that a run from a list of tasks **tells of**: those of the list and the created ones
in the order of their creation, each as the record leaves it. -/
def Session.history (repo : Repository σ) (s : Session σ) (ts : List Task) (steps : List Step) :
    List Task :=
  let trace := s.trace repo steps
  (ts ++ trace.filterMap Entry.created?).map (Task.after trace)

/-- The steps of the manager and of its clock. -/
def Step.OfManager : Step → Prop
  | insert _ | update _ | query _ => False
  | _ => True

instance (step : Step) : Decidable step.OfManager := by
  cases step <;> first | exact .isTrue trivial | exact .isFalse id

/-- The manager asks no predicates of its caller. -/
theorem Step.OfManager.asks {P : Predicate → Prop} {step : Step} (h : step.OfManager) :
    step.Asks P := by
  cases step with
  | insert t | update t | query p => exact h.elim
  | _ => trivial

/-! ### One entry at a time -/

namespace Task

/-- A run without steps changes nothing. -/
@[simp] theorem after_nil (t : Task) : t.after [] = t := rfl

/-- A run in two parts acts on a task in two parts. -/
theorem after_append (xs ys : List Entry) (t : Task) :
    t.after (xs ++ ys) = (t.after xs).after ys := by
  simp only [after, Entry.lastWritten_append]

/-- A run acts on a task step by step. -/
theorem after_cons (e : Entry) (trace : List Entry) (t : Task) :
    t.after (e :: trace) = (t.after [e]).after trace :=
  after_append [e] trace t

/-- A step that did not end well, or that is not about a change, leaves every task alone. -/
theorem after_eq_self {e : Entry} (h : e.outcome ≠ .done ∨ e.step.target? = none) (t : Task) :
    t.after [e] = t := by
  obtain ⟨clock, step, outcome⟩ := e
  cases step <;> cases outcome <;> first | rfl | simp [Step.target?] at h

/-- A step that changed a task changed the one with its id as it says and left the others. -/
theorem after_eq_alteration {clock : Instant} {step : Step} {id : Int64}
    (htarget : step.target? = some id) (t : Task) :
    t.after [⟨clock, step, .done⟩] =
      if t.id = some id then step.alteration clock t else t := by
  cases step <;> cases htarget <;> by_cases hid : t.id = some id <;>
    simp [after, Entry.lastWritten, Entry.doneOn?, Entry.postponedUntil?, Entry.priority?, hid,
      Step.alteration]

end Task

/-! ### The effect of a step on record -/

namespace MemoryStore

/-- The tasks after a change that is on record. -/
theorem tasks_change (m : MemoryStore) {step : Step} {id : Int64}
    (htarget : step.target? = some id) (now : Instant) :
    (m.change id (step.alteration now)).2.tasks =
      m.tasks.map (Task.after [⟨now, step, (m.change id (step.alteration now)).1⟩]) := by
  rcases m.change_cases id (step.alteration now) with ⟨e, hchange⟩ | ⟨u, -, hchange⟩ <;>
    rw [hchange]
  · rw [List.map_congr_left fun t _ => Task.after_eq_self (.inl (by simp)) t, List.map_id']
  · exact List.map_congr_left fun t _ => (Task.after_eq_alteration htarget t).symm

end MemoryStore

/-- **One step on record.** The tasks after a step are those before it, each as the entry leaves
it, and the one that the step created. -/
theorem Step.tasks_effect (m : MemoryStore) (now : Instant) (step : Step) :
    let e : Entry := ⟨now, step, (step.effect now m).1⟩
    (step.effect now m).2.tasks = m.tasks.map (Task.after [e]) ++ e.created?.toList := by
  intro e
  have hself (htarget : step.target? = none) : m.tasks.map (Task.after [e]) = m.tasks := by
    rw [List.map_congr_left fun t _ => Task.after_eq_self (.inr htarget) t, List.map_id']
  cases step with
  | create title due =>
      rw [hself rfl]
      rcases m.enter_cases now title due with ⟨o, ho, henter⟩ | ⟨next, -, -, henter⟩
      · have hnone : e.created? = none := by
          simp only [e, effect_create, henter]
          rcases ho with rfl | rfl <;> rfl
        rw [hnone, effect_create, henter]
        exact (List.append_nil _).symm
      · simp only [e, effect_create, henter]
        rfl
  | markDone id | reopen id | postpone id _ | reprioritize id _ =>
      refine (m.tasks_change rfl now).trans ?_
      exact (List.append_nil _).symm
  | get id =>
      rw [hself rfl]
      exact (List.append_nil _).symm
  | _ =>
      rw [hself rfl]
      exact (List.append_nil _).symm

/-- A step that changed a task found it. -/
theorem Step.exists_of_effect_done {m : MemoryStore} (keyed : Keyed m.tasks) {now : Instant}
    {step : Step} (hdone : (step.effect now m).1 = .done) {id : Int64}
    (htarget : step.target? = some id) : ∃ t ∈ m.tasks, t.id = some id := by
  have hfound {f : Task → Task} (h : (m.change id f).1 = .done) :
      ∃ t ∈ m.tasks, t.id = some id := by
    rcases m.change_cases id f with ⟨e, hchange⟩ | ⟨u, hfind, -⟩
    · rw [hchange] at h
      cases h
    · obtain ⟨hu, huid⟩ := keyed.find?_eq_some_iff.mp hfind
      exact ⟨u, hu, huid⟩
  rw [effect_of_target now m htarget] at hdone
  exact hfound hdone

/-- A step that created a task changed none. -/
theorem Entry.target?_of_created? {e : Entry} {t : Task} (h : e.created? = some t) :
    e.step.target? = none := by
  obtain ⟨clock, step, outcome⟩ := e
  cases step with
  | create title due => rfl
  | _ => cases h

/-- A step changed no task whose id is not among those after it. -/
theorem Task.after_eq_self_of_new {m : MemoryStore} (keyed : Keyed m.tasks) {now : Instant}
    {step : Step} {t : Task} (hnew : ∀ u ∈ (step.effect now m).2.tasks, u.id ≠ t.id) :
    t.after [⟨now, step, (step.effect now m).1⟩] = t := by
  by_cases hdone : (step.effect now m).1 = .done
  · cases htarget : step.target? with
    | none => exact after_eq_self (.inr htarget) t
    | some id =>
        obtain ⟨u, hu, huid⟩ := step.exists_of_effect_done keyed hdone htarget
        have hmem : u.after [⟨now, step, (step.effect now m).1⟩] ∈ (step.effect now m).2.tasks := by
          rw [step.tasks_effect m now]
          exact List.mem_append_left _ (List.mem_map_of_mem hu)
        have hne : t.id ≠ some id := fun ht => hnew _ hmem (huid.trans ht.symm)
        rw [hdone, after_eq_alteration htarget, if_neg hne]
  · exact after_eq_self (.inl hdone) t

/-- One entry may be taken off a record, if the tasks that are created after it are none that it
is about. -/
theorem Task.map_after_cons {e : Entry} {later : List Entry} (ts : List Task)
    (hnew : ∀ t ∈ later.filterMap Entry.created?, t.after [e] = t) :
    (ts ++ (e :: later).filterMap Entry.created?).map (after (e :: later)) =
      (ts.map (after [e]) ++ e.created?.toList ++ later.filterMap Entry.created?).map
        (after later) := by
  have hcreated : ∀ t ∈ e.created?.toList, t.after [e] = t := by
    intro t ht
    exact after_eq_self (.inr (Entry.target?_of_created? (Option.mem_toList.mp ht))) t
  have hfilter : (e :: later).filterMap Entry.created? =
      e.created?.toList ++ later.filterMap Entry.created? := by
    rw [List.filterMap_cons]
    cases e.created? <;> rfl
  have hone : (ts ++ (e :: later).filterMap Entry.created?).map (after [e]) =
      ts.map (after [e]) ++ e.created?.toList ++ later.filterMap Entry.created? := by
    rw [hfilter, List.map_append, List.map_append, List.map_congr_left hnew,
      List.map_congr_left hcreated, List.map_id', List.map_id', List.append_assoc]
  have hafter : after (e :: later) = after later ∘ after [e] := funext (after_cons e later)
  rw [hafter, ← List.map_map, hone]

/-! ### Runs on record -/

namespace Ledger

variable {repo : Repository σ} (L : Ledger repo)

/-- A step of the manager asks for no more than room. -/
theorem serves_of_ofManager {s : Session σ} {m : MemoryStore} {step : Step} {steps : List Step}
    (hstep : step.OfManager) (room : s.RoomThroughout repo L.HasRoom (step :: steps)) :
    L.Serves s.store m step := by
  cases step with
  | create title due => exact room.1
  | insert t | update t | query p => exact hstep.elim
  | _ => trivial

/-- **The history of a run.** On a repository with a ledger the tasks after a run are those that
its record tells of. -/
theorem run_history {s : Session σ} {m : MemoryStore} (h : L.Keeps s.store m) {steps : List Step}
    (hsteps : ∀ step ∈ steps, step.OfManager) (room : s.RoomThroughout repo L.HasRoom steps) :
    ∃ m', L.Keeps (s.storeAfter repo steps) m' ∧ m'.tasks = s.history repo m.tasks steps := by
  induction steps generalizing s m with
  | nil =>
      refine ⟨m, h, ?_⟩
      simp only [Session.history, Session.trace, List.filterMap_nil, List.append_nil]
      rw [List.map_congr_left fun t _ => t.after_nil, List.map_id']
  | cons step steps ih =>
      have hserves := L.serves_of_ofManager (m := m) (hsteps step List.mem_cons_self) room
      obtain ⟨houtcome, -, hkeeps⟩ := L.take_effect h s.clock hserves
      obtain ⟨m', hkeeps', htasks⟩ :=
        ih hkeeps (fun x hx => hsteps x (List.mem_cons_of_mem step hx)) room.2
      refine ⟨m', hkeeps', ?_⟩
      -- The record is one entry and the record of the rest.
      rw [Session.history] at htasks ⊢
      generalize hlater : (step.take repo s).session.trace repo steps = later at htasks
      have htrace : s.trace repo (step :: steps) =
          ⟨s.clock, step, (step.effect s.clock m).1⟩ :: later := by
        rw [Session.trace, hlater, houtcome]
      -- What is created later has an id that nothing had before, so this entry is not about it.
      have hdistinct : ((step.effect s.clock m).2.tasks.map Task.id ++
          (later.filterMap Entry.created?).map Task.id).Nodup := by
        have hfinal := (L.keyed hkeeps').distinct
        rw [htasks, List.map_map, List.map_append] at hfinal
        exact hfinal
      have hnew : ∀ t ∈ later.filterMap Entry.created?,
          t.after [⟨s.clock, step, (step.effect s.clock m).1⟩] = t := by
        intro t ht
        refine Task.after_eq_self_of_new (L.keyed h) fun u hu huid => ?_
        obtain ⟨-, -, hdisjoint⟩ := List.nodup_append.mp hdistinct
        exact hdisjoint _ (List.mem_map_of_mem hu) _ (List.mem_map_of_mem ht) huid
      rw [htrace, Task.map_after_cons m.tasks hnew, htasks, step.tasks_effect m s.clock]

end Ledger

namespace MemoryStore

/-- A store in memory has room throughout every run. -/
theorem roomThroughout (s : Session MemoryStore) (steps : List Step) :
    s.RoomThroughout repository ledger.HasRoom steps := by
  induction steps generalizing s with
  | nil => trivial
  | cons step steps ih =>
      refine ⟨?_, ih _⟩
      cases step <;> first | trivial | exact fun _ => trivial

end MemoryStore

namespace Session

/-- **Both stores are the history of their calls.** After any steps of the manager, some of which
may fail, a store in memory that can be reached holds the tasks that the record of the run tells
of, no two under one id. The same holds of tables whose rows can all be read, refer to recurring
tasks that exist and leave room for what is created. -/
theorem store_eq_history [Engine] (now : Instant) (steps : List Step)
    (hsteps : ∀ step ∈ steps, step.OfManager) :
    (∀ s : MemoryStore, s.Reachable →
      let session : Session MemoryStore := ⟨s, now⟩
      let history := session.history MemoryStore.repository s.tasks steps
      (session.storeAfter MemoryStore.repository steps).tasks = history ∧
        (history.map Task.id).Nodup) ∧
    ∀ (s : Tables) (ts : List Task),
      s.tasks.rows.mapM (fun r => Task.ofCells r.cells) = .ok ts → s.Closed →
      (⟨s, now⟩ : Session Tables).RoomThroughout Tables.repository Tables.HasRoom steps →
        let session : Session Tables := ⟨s, now⟩
        let history := session.history Tables.repository ts steps
        (session.storeAfter Tables.repository steps).tasks.rows.mapM
            (fun r => Task.ofCells r.cells) = .ok history ∧
          (history.map Task.id).Nodup := by
  constructor
  · intro s hreachable session history
    obtain ⟨m, hkeeps, htasks⟩ :=
      MemoryStore.ledger.run_history (s := session) ⟨rfl, hreachable.sound⟩ hsteps
        (MemoryStore.roomThroughout _ _)
    have hlast : session.storeAfter MemoryStore.repository steps = m := hkeeps.1
    have hdistinct := (MemoryStore.ledger.keyed hkeeps).distinct
    rw [htasks] at hdistinct
    exact ⟨hlast ▸ htasks, hdistinct⟩
  · intro s ts hread hclosed room session history
    obtain ⟨m, hkeeps, htasks⟩ :=
      Tables.ledger.run_history (s := session) (m := ⟨ts, s.nextId⟩)
        ⟨Tables.keeps_iff.mpr hread, hclosed, rfl⟩ hsteps room
    have hlast := Tables.keeps_iff.mp hkeeps.1
    have hdistinct := (Tables.ledger.keyed hkeeps).distinct
    rw [htasks] at hlast hdistinct
    exact ⟨hlast, hdistinct⟩

/-- A task that is created, done and reopened on new stores, with a call that fails. -/
theorem store_eq_history_reopened :
    let _ : Engine := .scanning
    (let steps : List Step :=
      [.create "a" none, .markDone 10000, .advanceDays 1, .reopen 10000, .get 1]
    let session : Session MemoryStore := ⟨.empty, ⟨0⟩⟩
    let history := session.history MemoryStore.repository [] steps
    (session.storeAfter MemoryStore.repository steps).tasks = history ∧
      (history.map Task.id).Nodup) ∧
    let steps : List Step := [.create "a" none, .markDone 1, .advanceDays 1, .reopen 1, .get 10000]
    let session : Session Tables := ⟨.empty, ⟨0⟩⟩
    let history := session.history Tables.repository [] steps
    (session.storeAfter Tables.repository steps).tasks.rows.mapM
        (fun r => Task.ofCells r.cells) = .ok history ∧
      (history.map Task.id).Nodup := by
  intro _
  constructor
  · exact (store_eq_history ⟨0⟩ _ (by decide)).1 _ MemoryStore.reachable_empty
  · exact (store_eq_history ⟨0⟩ _ (by decide)).2 _ _ rfl (by decide)
      ⟨fun _ => by decide, trivial, trivial, trivial, trivial, trivial⟩

end Session

end Taskbook
