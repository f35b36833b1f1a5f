import Taskbook.Host.Path
import Taskbook.Log.Event

/-!
# Setting Up the Log

A process writes to at most one log. The first setup that names a known level and an absolute
directory, and whose start succeeds, makes the log active; from then on a setup is accepted
only if it asks for what is active already, and it starts nothing.

## Refusal convention

The level is looked at before the directory, and both before what is active. Against an
active log the directory is compared first, by its parts, and shown as it was given.
-/

namespace Taskbook

/-- A level and a directory to log to. -/
structure LogConfig where
  level : Level
  directory : String
  deriving DecidableEq, Repr

/-- What is wrong with a log directory. -/
inductive DirectoryFault where
  | empty
  | relative (path : String)
  | cannotCreate (path obstacle : String)
  deriving DecidableEq, Repr

/-- Why a log cannot be set up. -/
inductive LogError where
  | unsupportedLevel (text : String)
  | invalidDirectory (fault : DirectoryFault)
  | alreadyInitialized (active requested : String)
  | backend (text : String)
  deriving DecidableEq, Repr

/-- The wording of a directory fault. -/
def DirectoryFault.message : DirectoryFault → String
  | empty => "path cannot be empty"
  | relative path => "path must be absolute, got `" ++ path ++ "`"
  | cannotCreate path obstacle => "cannot create `" ++ path ++ "`: " ++ obstacle

/-- The wording of a refusal. -/
def LogError.message : LogError → String
  | unsupportedLevel text =>
    "unsupported log level `" ++ text ++ "`; expected trace|debug|info|warn|error"
  | invalidDirectory fault => "invalid log directory: " ++ fault.message
  | alreadyInitialized active requested =>
    "logging already initialized with `" ++ active ++ "`; refusing to switch to `" ++ requested ++
      "`"
  | backend text => "failed to start logger: " ++ text

/-- Reads the name of a level, ignoring blanks around it and the case of its letters. -/
def Level.read (text : String) : Except LogError Level :=
  let name := Text.lower (Text.trim text)
  match named? name with
  | some level => .ok level
  | none => .error (.unsupportedLevel name)

namespace LogConfig

/-- Reads a log directory: an absolute path, blanks around it ignored. -/
def readDirectory (text : String) : Except LogError String :=
  let path := Text.trim text
  if path = "" then .error (.invalidDirectory .empty)
  else if Path.isAbsolute (Text.bytes path) then .ok path
  else .error (.invalidDirectory (.relative path))

/-- Reads a level and a directory. -/
def read (level directory : String) : Except LogError LogConfig := do
  let level ← Level.read level
  let directory ← readDirectory directory
  return ⟨level, directory⟩

/-- The parts of the directory. -/
def parts (c : LogConfig) : List FileName :=
  Path.parts (Text.bytes c.directory)

/-- Accepts a request only if it asks for what is active. -/
def confirm (active requested : LogConfig) : Except LogError Unit :=
  if active.parts ≠ requested.parts then
    .error (.alreadyInitialized active.directory requested.directory)
  else if active.level ≠ requested.level then
    .error (.alreadyInitialized active.level.name requested.level.name)
  else .ok ()

/-- Sets up the log of a process, given what is active and how to start a log in a world of
type `σ`. Answers what is active afterwards. -/
def setUp {σ : Type} (start : LogConfig → σ → Except LogError Unit × σ)
    (active : Option LogConfig) (level directory : String) (s : σ) :
    Except LogError Unit × Option LogConfig × σ :=
  match read level directory with
  | .error e => (.error e, active, s)
  | .ok requested =>
    match active with
    | some config => (confirm config requested, active, s)
    | none =>
      match start requested s with
      | (.ok (), s) => (.ok (), some requested, s)
      | (.error e, s) => (.error e, none, s)

end LogConfig

/-! ### Captured crashes -/

/-- How many characters of the message of a crash are logged. -/
def maxPayloadLength : Nat := 160

/-- The message of a crash on one line, cut at `maxPayloadLength`, with dots if something was cut
off. -/
def sanitizePayload (message : String) : String :=
  let flat := message.toList.map fun c => if c = '\n' ∨ c = '\r' then ' ' else c
  let dots := if maxPayloadLength < flat.length then ['.', '.', '.'] else []
  .ofList (flat.take maxPayloadLength ++ dots)

/-- The event of a crash, from where it was raised and its message, if it has one. -/
def Event.ofCrash (location : String) (message : Option String) : Event :=
  .crashCaptured location (sanitizePayload (message.getD "non-string panic payload"))

end Taskbook
