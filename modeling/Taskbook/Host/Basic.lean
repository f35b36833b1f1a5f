import Taskbook.Host.Opening
import Taskbook.Log.Setup

/-!
# Hosts and Their Logs

A host has a file tree and at most one active log. Its events go to the end of one file in
the log directory, one line each, as far as the level of the log takes them; without an
active log they go nowhere.

## Writing convention

The first event that is taken creates the file. Lines are collected and written to the file
when the log is flushed or when they take too much room, so what a host has not flushed when it
ends is lost. Where a directory stands in the place of the file, or if its path is too long,
events are lost at once.

## Clearing convention

Older logs carry a number in their names, and some of them are packed. When the file is opened,
all but the last few of them are deleted: those with the greatest names stay, and packed ones
only where there are too few others.

## Rotation convention

A log that has grown to five mebibytes is meant to be put aside under a number of its own and to be
begun anew. That is left out: a log stays one file here, however long it grows.
-/

namespace Taskbook

/-- A file tree, the log that is active, whether its file has been opened, and the lines that
are not yet written to it. -/
structure Host where
  files : Files
  log : Option LogConfig
  opened : Bool
  pending : List String
  deriving DecidableEq

/-- What the names of logs begin with. -/
def logName : String := "tasky"

/-- The name of the file that a log is written to. -/
def logFileName : String := logName ++ "_rCURRENT.log"

/-! ### Clearing old logs -/

/-- How many older logs are kept. -/
def keptLogs : Nat := 3

/-- The endings of the names of logs, the packed ones last. -/
def logEndings : List String := ["log", "gz"]

/-- Whether what stands between the beginning and the ending of a name is a number of a log: an
`r`, a digit, and more. -/
def isLogNumber : List UInt8 → Bool
  | r :: d :: _ :: _ => r.toNat = 'r'.toNat && (Char.ofNat d.toNat).isDigit
  | _ => false

/-- Whether a name is that of an older log. Between the beginning and the number stands one
byte. -/
def isOldLog (ending : String) (name : FileName) : Bool :=
  let dot : UInt8 := 0x2e
  let tail := dot :: Text.bytes ending
  let stem := name.take (name.length - tail.length)
  (Text.bytes logName).isPrefixOf name && tail.isSuffixOf name &&
    isLogNumber ((stem.drop (logName.utf8ByteSize + 1)).takeWhile (· != dot))

/-- The places of the older logs in a directory, those to be kept first. -/
def Files.oldLogs (fs : Files) (here : Place) : List Place :=
  let names := (fs.files.filter fun entry => entry.1.dropLast == here).filterMap fun entry =>
    entry.1.getLast?
  logEndings.flatMap fun ending =>
    ((names.filter (isOldLog ending)).mergeSort fun a b => compare a b != .lt).map fun name =>
      here ++ [name]

/-- The tree without the older logs in a directory that are too many. -/
def Files.clearLogs (fs : Files) (here : Place) : Files :=
  ((fs.oldLogs here).drop keptLogs).foldl remove fs

/-! ### Writing logs -/

/-- The place of a directory, if it exists. -/
def Files.directory? (fs : Files) (directory : String) : Option Place :=
  (fs.follow [] (Path.steps (Text.bytes directory))).toOption

/-- The place of the log file in a directory, if the directory exists. -/
def Files.logPlace? (fs : Files) (directory : String) : Option Place :=
  (fs.directory? directory).map fun here => here ++ [Text.bytes logFileName]

/-- How many bytes of lines are collected. -/
def maxPending : Nat := 8192

/-- How many bytes stand before the level in a line of the file: the time and what else is not
modelled. -/
def lineHead : Nat := 96

/-- How many bytes a line takes. -/
def lineLength (line : String) : Nat :=
  lineHead + line.utf8ByteSize + 1

namespace Host

/-- A host without a log. -/
def ofFiles (files : Files) : Host := ⟨files, none, false, []⟩

/-- The place of the file of the active log. -/
def logPlace? (host : Host) : Option Place :=
  host.log.bind fun config => host.files.logPlace? config.directory

/-- Writes the collected lines to the file of the active log. -/
def flush (host : Host) : Host :=
  match host.logPlace? with
  | some place =>
    if host.pending = [] then host
    else
      let text := String.join (host.pending.map fun line => line ++ "\n")
      { host with files := host.files.append place text, pending := [] }
  | none => host

/-- Opens the file of the active log, if it can be opened. It is never put aside for its size. -/
def openLog (host : Host) (config : LogConfig) (place : Place) : Host :=
  let path := Path.join config.directory logFileName
  if host.opened ∨ host.files.isDirectory place ∨ Path.maxLength < path.utf8ByteSize then host
  else
    { host with
      files := (host.files.touch place).clearLogs place.dropLast
      opened := true }

/-- Collects one more line. Before there is too little room for it the others are written; one
that is too long on its own is written at once. -/
def collect (host : Host) (line : String) : Host :=
  let taken := host.pending.foldl (fun n old => n + lineLength old) 0
  let host := if maxPending < taken + lineLength line then host.flush else host
  let host := { host with pending := host.pending ++ [line] }
  if maxPending ≤ lineLength line then host.flush else host

/-- Gives events to the active log. -/
def emit (host : Host) (events : List Event) : Host :=
  match host.log, host.logPlace? with
  | some config, some place =>
    let taken := events.filter fun e => config.level.takes e.level
    if taken.isEmpty then host
    else
      let host := host.openLog config place
      if host.opened then (taken.map Event.line).foldl collect host else host
  | _, _ => host

/-- Creates the directory of a log. -/
def startLog (config : LogConfig) (fs : Files) : Except LogError Unit × Files :=
  match fs.makePath (Text.bytes config.directory) with
  | (.error obstacle, fs) =>
    (.error (.invalidDirectory (.cannotCreate config.directory obstacle.message)), fs)
  | (.ok (), fs) => (.ok (), fs)

/-- Sets up the log. A log that starts says so in its first event. -/
def setUpLog (host : Host) (level directory : String) : Except LogError Unit × Host :=
  match LogConfig.setUp startLog host.log level directory host.files with
  | (result, log, files) =>
    let started : Host := { host with files := files, log := log }
    match host.log, log with
    | none, some config => (result, started.emit [.logStarted config.level config.directory])
    | _, _ => (result, started)

/-- The lines of a text. A line does not end in a return. -/
def lines (s : String) : List String :=
  let ends (line : List Char) : List Char :=
    if line.getLast? = some '\r' then line.dropLast else line
  ((Path.pieces '\n' s.toList).map fun line => String.ofList (ends line)).filter (· ≠ "")

/-- The lines of the log file in a directory; none if there is no file. -/
def logLines (host : Host) (directory : String) : List String :=
  match (host.files.logPlace? directory).bind host.files.content? with
  | some (.text s) => lines s
  | _ => []

end Host

end Taskbook
