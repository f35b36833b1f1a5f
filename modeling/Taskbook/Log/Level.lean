import Taskbook.Text.Ascii
import Taskbook.Text.Blank

/-!
# Levels of Log Events

Five levels, from the least to the most severe. A log that is set to a level takes the events
of that level and of every more severe one.
-/

namespace Taskbook

/-- How severe a log event is. -/
inductive Level where
  | trace
  | debug
  | info
  | warn
  | error
  deriving DecidableEq, Repr

namespace Level

/-- Every level, the least severe first. -/
def all : List Level := [trace, debug, info, warn, error]

/-- The name of a level. -/
def name : Level → String
  | trace => "trace"
  | debug => "debug"
  | info => "info"
  | warn => "warn"
  | error => "error"

/-- The name of a level in front of an event. -/
def tag : Level → String
  | trace => "TRACE"
  | debug => "DEBUG"
  | info => "INFO"
  | warn => "WARN"
  | error => "ERROR"

/-- The severity of a level as a number. -/
def severity : Level → Nat
  | trace => 0
  | debug => 1
  | info => 2
  | warn => 3
  | error => 4

/-- Whether a log set to this level takes an event of another. -/
def takes (threshold level : Level) : Bool :=
  threshold.severity ≤ level.severity

/-- The level of a log that is not told one. -/
def standard : Level := debug

/-- The level with a name in small letters; `warning` is another name for `warn`. -/
def named? (name : String) : Option Level :=
  if name = "warning" then some warn else all.find? fun l => l.name == name

end Level

end Taskbook
