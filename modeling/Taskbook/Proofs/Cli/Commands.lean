import Taskbook.Cli.Run
import Taskbook.Proofs.Manager.Failure

/-!
# Commands as Steps of a Session

A run carries out one command, and a command is one call of the manager with words around it. This
module says which call it is, and how the outcome of the call is told. So what a command does to the
tables, and everything that is printed of it, is settled by one step of a session.

## Main results

* `conclude_perform`: **a command is a step of a session**, told by the report of its outcome;
* `session_of_code`: **a command that is reported with exit code one** leaves the session as it was.
-/

namespace Taskbook.Cli

/-- The call of the manager that a command comes to. -/
def Command.step (clock : Clock) : Command → Step
  | add title days => .create title (days.map clock.counted.plusDays)
  | list all => if all then .listAll else .relevant
  | done id => .markDone id
  | undo id => .reopen id
  | postpone id days => .postpone id (clock.counted.plusDays days)
  | priority id p => .reprioritize id p

/-- What is printed of the outcome of the call, and the exit code. -/
def Command.report (clock : Clock) : Command → Outcome → Exit
  | _, .refused e => .failed e.message e.causes
  | add .., .task t => ⟨0, "created " ++ taskLine t ++ "\n", ""⟩
  | list _, .tasks ts => ⟨0, String.join (ts.map fun t => taskLine t ++ "\n"), ""⟩
  | done id, .done => ⟨0, "task " ++ Number.decimal id ++ " done\n", ""⟩
  | undo id, .done => ⟨0, "task " ++ Number.decimal id ++ " reopened\n", ""⟩
  | postpone id days, .done =>
    ⟨0, "task " ++ Number.decimal id ++ " postponed until " ++
      (clock.counted.plusDays days).text ++ "\n", ""⟩
  | priority id p, .done =>
    ⟨0, "task " ++ Number.decimal id ++ " priority " ++ p.name ++ "\n", ""⟩
  | _, _ => .failed Failure.overflowMessage []

theorem Command.report_refused (clock : Clock) (command : Command) (e : ManagerError) :
    command.report clock (.refused e) = .failed e.message e.causes := by
  cases command <;> rfl

theorem Command.report_overflow (clock : Clock) (command : Command) :
    command.report clock .overflow = .failed Failure.overflowMessage [] := by
  cases command <;> rfl

/-- A command that prints what one call answers is concluded with the report of the outcome of the
call, and leaves the store of the call behind. -/
theorem conclude_of_manage {α : Type} {clock : Clock} {command : Command} {answer : α → Outcome}
    {text : α → String} (hreport : ∀ a, command.report clock (answer a) = ⟨0, text a, ""⟩)
    (op : Manager.Op Tables α) (s : Session Tables) :
    let reply := (do return text (← op) : Manager.Op Tables String) s.store
    (conclude command reply.result).1 = command.report clock (s.manage answer op).outcome ∧
      reply.store = (s.manage answer op).session.store := by
  rcases hop : op s.store with ⟨result, store, events⟩
  cases result with
  | ok a =>
      rw [Action.bind_of_ok hop]
      simp [Session.manage, Session.act, hop, Outcome.ofResult, hreport, conclude]
  | error e =>
      rw [Action.bind_of_error hop]
      cases e with
      | cause e =>
          simp [Session.manage, Session.act, hop, Outcome.ofResult, Command.report_refused,
            conclude]
      | overflow =>
          simp [Session.manage, Session.act, hop, Outcome.ofResult, Command.report_overflow,
            conclude]

/-- **A command is a step of a session** at the time of the manager, with the report of its
outcome. -/
theorem conclude_perform [Engine] (clock : Clock) (command : Command) (s : Tables) :
    let reply := perform Tables.repository clock command s
    let taken := (command.step clock).take Tables.repository ⟨s, clock.managed⟩
    (conclude command reply.result).1 = command.report clock taken.outcome ∧
      reply.store = taken.session.store := by
  cases command with
  | list all =>
      simp only [perform, Command.step]
      cases all <;> simp only [Bool.false_eq_true, if_false, if_true] <;>
        exact conclude_of_manage (fun _ => rfl) _ ⟨s, clock.managed⟩
  | _ => exact conclude_of_manage (fun _ => rfl) _ ⟨s, clock.managed⟩

/-- Only a failure is reported with exit code one. -/
theorem failed_of_manage {α : Type} {clock : Clock} {command : Command} {answer : α → Outcome}
    {text : α → String} (hreport : ∀ a, command.report clock (answer a) = ⟨0, text a, ""⟩)
    (op : Manager.Op Tables α) (s : Session Tables)
    (hcode : (command.report clock (s.manage answer op).outcome).code = 1) :
    (s.manage answer op).outcome.failed = true := by
  rw [Session.manage, Session.act] at hcode ⊢
  cases hop : (op s.store).result with
  | ok a =>
      rw [hop, Outcome.ofResult, hreport] at hcode
      cases hcode
  | error e => cases e <;> rfl

/-- **A command that is reported with exit code one** leaves the session as it was. -/
theorem session_of_code [Engine] {clock : Clock} {command : Command} {s : Session Tables}
    (hcode : (command.report clock
      ((command.step clock).take Tables.repository s).outcome).code = 1) :
    ((command.step clock).take Tables.repository s).session = s := by
  refine Step.session_of_failed Tables.failsCleanly ?_
  cases command with
  | list all => cases all <;> exact failed_of_manage (fun _ => rfl) _ s hcode
  | _ => exact failed_of_manage (fun _ => rfl) _ s hcode

end Taskbook.Cli
