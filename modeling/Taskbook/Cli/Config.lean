import Taskbook.Log.Level

/-!
# Configuration of a Run

A run is configured by one option and three environment variables. The option wins over the
variables, and a variable that holds nothing but blanks counts as not set. Without a log
directory nothing is logged.
-/

namespace Taskbook.Cli

/-- The configuration of a run. -/
structure Config where
  dbPath : String
  logDirectory : Option String
  logLevel : String
  deriving DecidableEq, Repr

/-- The variable that names the database. -/
def dbPathVariable : String := "TASKY_DB_PATH"

/-- The variable that names the log directory. -/
def logDirectoryVariable : String := "TASKY_LOG_DIR"

/-- The variable that names the log level. -/
def logLevelVariable : String := "TASKY_LOG_LEVEL"

/-- The database of a run that is not told one. -/
def defaultDbPath : String := "tasky.db"

/-- The configuration from the `--db` option and the environment. -/
def Config.resolve (db : Option String) (lookup : String → Option String) : Config :=
  let set (name : String) := (lookup name).filter fun v => !Text.isBlankText v
  { dbPath := (db <|> set dbPathVariable).getD defaultDbPath
    logDirectory := set logDirectoryVariable
    logLevel := (set logLevelVariable).getD Level.standard.name }

end Taskbook.Cli
