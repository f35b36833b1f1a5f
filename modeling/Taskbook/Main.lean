import Taskbook.Cli.Run
import Taskbook.Schema.Image
import Std.Time.DateTime.Timestamp

/-!
# The Program

The outermost layer: it looks at the files that a run is about, asks for the environment and
the time, leaves the rest to `Cli.run`, and carries out what came of it. Databases are kept as
their images.
-/

namespace Taskbook.Outer

/-- The path of a place. -/
def pathOf (place : Place) : String :=
  "/" ++ "/".intercalate (place.map Text.shown)

/-- The text of a file; nothing if there is no file at the path. -/
def textOf? (path : String) : IO (Option String) := do
  try
    return some (← IO.FS.readFile path)
  catch _ =>
    return none

/-- Adds what stands at a place to a tree. -/
def look (files : Files) (place : Place) : IO Files := do
  if ← (← IO.currentDir) / pathOf place |>.isDir then
    return { files with directories := files.directories ++ [place] }
  match ← textOf? (pathOf place) with
  | none => return files
  | some text =>
    match Database.ofImage? text with
    | some db => return files.write place (.database db)
    | none => return files.write place (.text text)

/-- The places in the directory that a run logs to. -/
def entries (directory : Option String) : IO (List Place) := do
  match directory with
  | none => return []
  | some d =>
    try
      let here := Path.parts (Text.bytes d)
      return (← ((← IO.currentDir) / d).readDir).toList.map fun entry =>
        here ++ [Text.bytes entry.fileName]
    catch _ =>
      return []

/-- Creates the directories and writes the files that a tree has and an earlier one lacks, and
removes those that it has no more. -/
def keep (before after : Files) : IO Unit := do
  for (place, _) in before.files do
    unless after.isFile place do
      IO.FS.removeFile (pathOf place)
  for place in after.directories do
    unless before.isDirectory place do
      IO.FS.createDirAll (pathOf place)
  for (place, content) in after.files do
    unless before.content? place = some content do
      match content with
      | .database db => IO.FS.writeFile (pathOf place) db.image
      | .text s => IO.FS.writeFile (pathOf place) s

/-- The values of the variables that configure a run. -/
def environment : IO (String → Option String) := do
  let db ← IO.getEnv Cli.dbPathVariable
  let directory ← IO.getEnv Cli.logDirectoryVariable
  let level ← IO.getEnv Cli.logLevelVariable
  return fun name =>
    if name = Cli.dbPathVariable then db
    else if name = Cli.logDirectoryVariable then directory
    else if name = Cli.logLevelVariable then level
    else none

/-- The time now. -/
def now : IO Instant := do
  let time ← Std.Time.Timestamp.now
  return ⟨.ofIntClamp time.toMillisecondsSinceUnixEpoch.val⟩

end Taskbook.Outer

open Taskbook in
/-- Runs the program once. -/
def main (words : List String) : IO UInt32 := do
  let cwd := (← IO.currentDir).toString
  let environment ← Outer.environment
  let logs ← Outer.entries (Cli.logDirectory? cwd environment words)
  let before ← (Cli.places cwd environment words ++ logs).foldlM Outer.look ⟨[], []⟩
  let (exit, after) := Cli.run before cwd environment words ⟨← Outer.now, ← Outer.now⟩
  Outer.keep before after
  IO.print exit.output
  IO.eprint exit.errors
  return exit.code.toUInt32
