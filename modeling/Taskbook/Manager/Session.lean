import Taskbook.Manager.Basic

/-!
# Sessions

A session is a manager at work on one store, with a clock that stands still unless it is
moved. What is asked of it comes in *steps*: the operations of the manager, moves of the
clock, and the three operations of the repository itself. Every step has an outcome; a
refusal is one, and the session goes on after it.

## Main definitions

* `Step.take` — one step, with its outcome, the session afterwards and what the log was told;
* `Session.run` — a list of steps, one after the other.
-/

namespace Taskbook

/-- What can be asked of a session. -/
inductive Step where
  | create (title : String) (due : Option Instant)
  | get (id : Int64)
  | markDone (id : Int64)
  | reopen (id : Int64)
  | postpone (id : Int64) (until_ : Instant)
  | reprioritize (id : Int64) (priority : Priority)
  | relevant
  | listAll
  | readClock
  | setClock (t : Instant)
  | advanceMillis (n : Int64)
  | advanceDays (n : Int64)
  | insert (t : Task)
  | update (t : Task)
  | query (p : Predicate)
  deriving DecidableEq, Repr

/-- How a step ends. -/
inductive Outcome where
  | task (t : Task)
  | tasks (ts : List Task)
  | done
  | clock (t : Instant)
  | refused (e : ManagerError)
  | refusedByStore (e : RepoError)
  | overflow
  deriving DecidableEq, Repr

/-- A store and a clock. -/
structure Session (σ : Type) where
  store : σ
  clock : Instant
  deriving DecidableEq

/-- A step that has been taken: its outcome, the session afterwards and the events that it
wrote. -/
structure Taken (σ : Type) where
  outcome : Outcome
  session : Session σ
  events : List Event

variable {σ : Type}

/-- The outcome of an action, from what its answers and its errors count as. -/
def Outcome.ofResult {ε α : Type} (answer : α → Outcome) (refusal : ε → Outcome) :
    Except (Failure ε) α → Outcome
  | .ok a => answer a
  | .error (.cause e) => refusal e
  | .error .overflow => overflow

namespace Session

/-- Runs an action on the store. The clock stands still. -/
def act {ε α : Type} (s : Session σ) (answer : α → Outcome) (refusal : ε → Outcome)
    (action : Action σ ε α) : Taken σ :=
  let r := action s.store
  ⟨.ofResult answer refusal r.result, ⟨r.store, s.clock⟩, r.events⟩

/-- Runs an operation of the manager. -/
def manage {α : Type} (s : Session σ) (answer : α → Outcome) (op : Manager.Op σ α) : Taken σ :=
  s.act answer .refused op

/-- Moves the clock. -/
def moveClock (s : Session σ) (t : Instant) : Taken σ :=
  ⟨.clock t, { s with clock := t }, []⟩

end Session

/-- Takes one step. -/
def Step.take (repo : Repository σ) (s : Session σ) : Step → Taken σ
  | create title due => s.manage .task (Manager.create repo s.clock title due)
  | get id => s.manage .task (Manager.get repo id)
  | markDone id => s.manage (fun _ => .done) (Manager.markDone repo s.clock id)
  | reopen id => s.manage (fun _ => .done) (Manager.reopen repo id)
  | postpone id until_ => s.manage (fun _ => .done) (Manager.postpone repo id until_)
  | reprioritize id priority => s.manage (fun _ => .done) (Manager.reprioritize repo id priority)
  | relevant => s.manage .tasks (Manager.relevant repo s.clock)
  | listAll => s.manage .tasks (Manager.listAll repo)
  | readClock => s.moveClock s.clock
  | setClock t => s.moveClock t
  | advanceMillis n => s.moveClock (s.clock.plusMillis n)
  | advanceDays n => s.moveClock (s.clock.plusDays n)
  | insert t => s.act .task .refusedByStore (repo.insert t)
  | update t => s.act (fun _ => .done) .refusedByStore (repo.update t)
  | query p => s.act .tasks .refusedByStore (repo.query p)

namespace Session

/-- Takes steps one after the other. Answers their outcomes, the session afterwards and all
that the log was told. -/
def run (repo : Repository σ) (s : Session σ) :
    List Step → List Outcome × Session σ × List Event
  | [] => ([], s, [])
  | step :: steps =>
    let taken := step.take repo s
    let (outcomes, last, events) := run repo taken.session steps
    (taken.outcome :: outcomes, last, taken.events ++ events)

/-- A run in two parts is a run of the second part after the first. -/
theorem run_append (repo : Repository σ) (s : Session σ) (xs ys : List Step) :
    s.run repo (xs ++ ys) =
      let first := s.run repo xs
      let second := first.2.1.run repo ys
      (first.1 ++ second.1, second.2.1, first.2.2 ++ second.2.2) := by
  induction xs generalizing s with
  | nil => rfl
  | cons x xs ih => simp [run, ih]

end Session

end Taskbook
