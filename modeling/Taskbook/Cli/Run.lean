import Taskbook.Cli.Config
import Taskbook.Cli.Help
import Taskbook.Host.Basic
import Taskbook.Manager.Basic
import Taskbook.Table.Planning

/-!
# One Run of the Program

A run reads its command line, sets up the log if it is told to, opens the database, does one
thing with it, and writes it back. It is a function of the file tree, the environment, the
words of the command line and its readings of the clock; the file tree afterwards and what was
printed are its answer. The engine of the database is left open; the one that plans is there for
the program to run with.

## Exit codes

Zero for success, one for an error that is told on the error output, two for a command line
that cannot be read.
-/

namespace Taskbook.Cli

/-- How a run ends: its exit code and what it printed. -/
structure Exit where
  code : Nat
  output : String
  errors : String
  deriving DecidableEq, Repr

/-! ### What is printed -/

/-- A task as a line of a list. -/
def taskLine (t : Task) : String :=
  "#" ++ Number.decimal (t.id.getD 0) ++ " [" ++ t.priority.name ++ "] " ++ t.title ++
    t.dueDate.elim "" (fun due => " due=" ++ due.text) ++
    t.postponedUntil.elim "" (fun until_ => " postponed_until=" ++ until_.text) ++
    if t.isDone then " (done)" else ""

/-- A text with every line but the first moved to the right. -/
def indentRest (indent : String) (s : String) : String :=
  .ofList (s.toList.flatMap fun c => if c = '\n' then '\n' :: indent.toList else [c])

/-- The causes of an error, one below the other; several are numbered from zero. -/
def causeLines : List String → List String
  | [cause] => ["    " ++ indentRest "    " cause]
  | causes => causes.mapIdx fun i cause =>
      let number := toString i
      String.ofList (number.toList.leftpad 5 ' ') ++ ": " ++ indentRest "       " cause

/-- An error and its causes as they are told to the user. -/
def errorReport (message : String) (causes : List String) : String :=
  "Error: " ++ message ++
    (if causes.isEmpty then "" else "\n\nCaused by:\n" ++ "\n".intercalate (causeLines causes)) ++
    "\n"

/-- A run that ends with an error. -/
def Exit.failed (message : String) (causes : List String) : Exit :=
  ⟨1, "", errorReport message causes⟩

/-- The name and the version of the program. -/
def versionText : String := programName ++ " " ++ programVersion ++ "\n"

/-- A command line that ends before there is something to run. -/
def Exit.ofHalt : Halt → Exit
  | .usage => ⟨2, "", programPage.text⟩
  | .help topic => ⟨0, (helpPage topic).text, ""⟩
  | .version => ⟨0, versionText, ""⟩

/-! ### What is done -/

/-- The readings of the clock in a run. -/
structure Clock where
  /-- The instant from which the days of a command are counted. -/
  counted : Instant
  /-- The instant at which the manager works. -/
  managed : Instant
  deriving DecidableEq, Repr

/-- A clock that stands still. -/
instance : Coe Instant Clock := ⟨fun now => ⟨now, now⟩⟩

/-- Carries out a command on a repository of tables. Answers what it prints. -/
def perform (repo : Repository Tables) (clock : Clock) : Command → Manager.Op Tables String
  | .add title days => do
    let due := days.map clock.counted.plusDays
    let task ← Manager.create repo clock.managed title due
    return "created " ++ taskLine task ++ "\n"
  | .list all => do
    let tasks ←
      if all then Manager.listAll repo else Manager.relevant repo clock.managed
    return String.join (tasks.map fun t => taskLine t ++ "\n")
  | .done id => do
    Manager.markDone repo clock.managed id
    return "task " ++ Number.decimal id ++ " done\n"
  | .undo id => do
    Manager.reopen repo id
    return "task " ++ Number.decimal id ++ " reopened\n"
  | .postpone id days => do
    let until_ := clock.counted.plusDays days
    Manager.postpone repo id until_
    return "task " ++ Number.decimal id ++ " postponed until " ++ until_.text ++ "\n"
  | .priority id priority => do
    Manager.reprioritize repo id priority
    return "task " ++ Number.decimal id ++ " priority " ++ priority.name ++ "\n"

/-- How a command ended, as an exit and an event. -/
def conclude (command : Command) : Except (Failure ManagerError) String → Exit × Event
  | .ok output => (⟨0, output, ""⟩, .commandDone command.name)
  | .error (.cause e) =>
    (.failed e.message e.causes, .commandFailed command.name e.message)
  | .error .overflow =>
    (.failed Failure.overflowMessage [], .commandFailed command.name Failure.overflowMessage)

/-- Sets up the log of a run, if it is told a directory. A relative one is seen from the
working directory. -/
def setUpLog (host : Host) (cwd : String) (config : Config) : Except LogError Unit × Host :=
  match config.logDirectory with
  | none => (.ok (), host)
  | some directory => host.setUpLog config.logLevel (Path.join cwd directory)

/-- The repository of an opened database. -/
def repositoryOf [Engine] (k : Keeping) : Repository Tables :=
  k.obstacle.elim Tables.repository Tables.frozenRepository

/-- Opens the database of a run and carries out its command. -/
def runOn [Engine] (host : Host) (cwd : String) (config : Config) (clock : Clock)
    (command : Command) : Exit × Host :=
  match host.files.openDatabase (Path.parts (Text.bytes cwd)) config.dbPath with
  | (.error e, events, files) =>
    (.failed ("failed to open database `" ++ config.dbPath ++ "`") (e.message :: e.causes),
      Host.emit { host with files := files } events)
  | (.ok (db, k), events, files) =>
    let host := Host.emit { host with files := files } events
    let reply := perform (repositoryOf k) clock command db.tables
    let (exit, event) := conclude command reply.result
    let files := host.files.keep k { db with tables := reply.store }
    (exit, Host.emit { host with files := files } (reply.events ++ [event]))

/-- Runs the program in a working directory. Answers how it ends and the files afterwards. A
run ends without flushing its log. -/
def run [Engine] (files : Files) (cwd : String) (environment : String → Option String)
    (words : List String) (clock : Clock) : Exit × Files :=
  match Invocation.read words with
  | .error halt => (.ofHalt halt, files)
  | .ok invocation =>
    let config := Config.resolve invocation.db environment
    match setUpLog (.ofFiles files) cwd config with
    | (.error e, host) => (.failed "failed to initialize logging" [e.message], host.files)
    | (.ok (), host) =>
      let (exit, host) := runOn host cwd config clock invocation.command
      (exit, host.files)

/-- The directory that a run logs to, if it is told one and its command line can be read. -/
def logDirectory? (cwd : String) (environment : String → Option String) (words : List String) :
    Option String :=
  match Invocation.read words with
  | .error _ => none
  | .ok invocation =>
    let config := Config.resolve invocation.db environment
    config.logDirectory.map fun d => Text.trim (Path.join cwd d)

/-- The places that a run looks at: those on the way to its database and to its log. -/
def places (cwd : String) (environment : String → Option String) (words : List String) :
    List Place :=
  match Invocation.read words with
  | .error _ => []
  | .ok invocation =>
    let config := Config.resolve invocation.db environment
    let log := (logDirectory? cwd environment words).elim [] fun d =>
      Path.walk [] (Path.steps (Text.bytes (Path.join d logFileName)))
    log ++ Files.databasePlaces cwd config.dbPath

end Taskbook.Cli
