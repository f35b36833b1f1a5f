import Taskbook.Log.Level
import Taskbook.Number.Integer

/-!
# Log Events

What the task book writes to its log. An event is data; its line of text is `Event.text`.
Events carry ids, counts and the names of fields, never the content of a task.

## Masking convention

How long opening a database took and where a crash was raised are known only to the process
that runs; both are parameters of their events and carry no meaning here.
-/

namespace Taskbook

/-- Where a database lives. -/
inductive OpenMode where
  | file
  | memory
  deriving DecidableEq, Repr

/-- The word for a place. -/
def OpenMode.name : OpenMode → String
  | file => "file"
  | memory => "memory"

/-- The changes that a stored task goes through. -/
inductive Change where
  | done
  | reopened
  | postponed
  | reprioritized
  deriving DecidableEq, Repr

/-- The name of a change in the log. -/
def Change.eventName : Change → String
  | done => "task_done"
  | reopened => "task_revert_done"
  | postponed => "task_postpone"
  | reprioritized => "task_priority"

/-- What is written to the log. -/
inductive Event where
  | logStarted (level : Level) (directory : String)
  | crashCaptured (location payload : String)
  | opening (mode : OpenMode)
  | migrated (fromVersion toVersion : Nat)
  | opened (mode : OpenMode) (millis : Nat)
  | openFailed (mode : OpenMode) (millis : Nat) (error : String)
  | querying (clause : String) (operands : Nat)
  | created (id : Int64) (hasDueDate : Bool)
  | missing (id : Int64)
  | changed (change : Change) (id : Int64)
  | commandDone (command : String)
  | commandFailed (command error : String)
  deriving DecidableEq, Repr

/-- The version that the task book reports of itself. -/
def programVersion : String := "0.1.0"

namespace Event

/-- How severe an event is. -/
def level : Event → Level
  | querying .. => .debug
  | missing _ => .warn
  | crashCaptured .. | openFailed .. | commandFailed .. => .error
  | _ => .info

/-- The text of an event. -/
def text : Event → String
  | logStarted level directory =>
    "event=core_init module=logging status=ok level=" ++ level.name ++ " log_dir=" ++ directory ++
      " version=" ++ programVersion
  | crashCaptured location payload =>
    "event=panic_captured module=core status=error location=" ++ location ++ " payload=" ++ payload
  | opening mode => "event=db_open module=db status=start mode=" ++ mode.name
  | migrated fromVersion toVersion =>
    "event=db_migrate module=db status=ok from_version=" ++ toString fromVersion ++
      " to_version=" ++ toString toVersion
  | opened mode millis =>
    "event=db_open module=db status=ok mode=" ++ mode.name ++ " duration_ms=" ++ toString millis
  | openFailed mode millis error =>
    "event=db_open module=db status=error mode=" ++ mode.name ++ " duration_ms=" ++
      toString millis ++ " error=" ++ error
  | querying clause operands =>
    "event=task_query module=repo status=start where=\"" ++ clause ++ "\" param_count=" ++
      toString operands
  | created id hasDueDate =>
    "event=task_create module=service status=ok task_id=" ++ Number.decimal id ++
      " has_due_date=" ++ (if hasDueDate then "true" else "false")
  | missing id =>
    "event=task_lookup module=service status=error task_id=" ++ Number.decimal id ++
      " error_code=not_found"
  | changed change id =>
    "event=" ++ change.eventName ++ " module=service status=ok task_id=" ++ Number.decimal id
  | commandDone command => "event=cli_command module=cli status=ok command=" ++ command
  | commandFailed command error =>
    "event=cli_command module=cli status=error command=" ++ command ++ " error=" ++ error

/-- The line of an event: its level and its text. -/
def line (e : Event) : String :=
  e.level.tag ++ " " ++ e.text

end Event

end Taskbook
