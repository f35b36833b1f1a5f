import Taskbook.Host.Path
import Taskbook.Schema.Database

/-!
# Files

The files that the task book meets are databases and texts, such as its logs. Directories are
created only to hold a log; databases are created by opening them, in a directory that exists.

## Path convention

Directories are created by trying the whole path first, then the path to the directory above
if something on the way is missing, and then the whole path again. A path is followed step by
step through directories that exist, so one that ends in `.` names no new directory.
-/

namespace Taskbook

/-- What a file holds. -/
inductive FileContent where
  | database (db : Database)
  | text (s : String)
  deriving DecidableEq

/-- Whether a file holds nothing. -/
def FileContent.isEmpty : FileContent → Bool
  | database _ => false
  | text s => s = ""

/-- A file tree. -/
structure Files where
  directories : List Place
  files : List (Place × FileContent)
  deriving DecidableEq

/-- Why a directory cannot be created. -/
inductive DirectoryObstacle where
  | noSuchDirectory
  | fileExists
  | notADirectory
  | nameTooLong
  | zeroCharacter
  deriving DecidableEq, Repr

/-- The wording of an obstacle. -/
def DirectoryObstacle.message : DirectoryObstacle → String
  | noSuchDirectory => "No such file or directory (os error 2)"
  | fileExists => "File exists (os error 17)"
  | notADirectory => "Not a directory (os error 20)"
  | nameTooLong => "File name too long (os error 36)"
  | zeroCharacter => "file name contained an unexpected NUL byte"

namespace Files

/-- A file tree with nothing but the directories on the way to a place. -/
def withRoot (place : Place) : Files :=
  ⟨(List.range place.length).map fun n => place.take (n + 1), []⟩

/-- Whether a place is a directory. -/
def isDirectory (fs : Files) (place : Place) : Bool :=
  place.isEmpty || fs.directories.contains place

/-- The content of the file at a place. -/
def content? (fs : Files) (place : Place) : Option FileContent :=
  (fs.files.find? fun entry => entry.1 == place).map Prod.snd

/-- Whether there is a file at a place. -/
def isFile (fs : Files) (place : Place) : Bool :=
  (fs.content? place).isSome

/-- Whether something stands at a place. -/
def contains (fs : Files) (place : Place) : Bool :=
  fs.isDirectory place || fs.isFile place

/-- Whether a directory stands at a place or a file that holds something. -/
def isOccupied (fs : Files) (place : Place) : Bool :=
  fs.isDirectory place || (fs.content? place).any fun c => !c.isEmpty

/-- The tree with a file written. -/
def write (fs : Files) (place : Place) (c : FileContent) : Files :=
  { fs with files := fs.files.filter (fun entry => entry.1 != place) ++ [(place, c)] }

/-- The tree without the file at a place. -/
def remove (fs : Files) (place : Place) : Files :=
  { fs with files := fs.files.filter fun entry => entry.1 != place }

/-- The tree with an empty file at a place, if there was none. -/
def touch (fs : Files) (place : Place) : Files :=
  if fs.isFile place then fs else fs.write place (.text "")

/-- The tree with text added to the end of a file. A database stays as it is. -/
def append (fs : Files) (place : Place) (s : String) : Files :=
  match fs.content? place with
  | some (.text old) => fs.write place (.text (old ++ s))
  | some (.database _) => fs
  | none => fs.write place (.text s)

/-! ### Creating directories -/

/-- The directory that steps lead to from a directory. -/
def follow (fs : Files) (here : Place) : List FileName → Except DirectoryObstacle Place
  | [] => .ok here
  | step :: rest =>
    if step = Path.stay then follow fs here rest
    else if step = Path.back then follow fs here.dropLast rest
    else if Path.isTooLong step then .error .nameTooLong
    else if fs.isDirectory (here ++ [step]) then follow fs (here ++ [step]) rest
    else .error (if fs.isFile (here ++ [step]) then .notADirectory else .noSuchDirectory)

/-- Creates the directory that steps name. The directory above must exist. -/
def makeDirectory (fs : Files) (steps : List FileName) : Except DirectoryObstacle Files := do
  let here ← fs.follow [] steps.dropLast
  let name := steps.getLast?.getD Path.stay
  let target := here ++ [name]
  if name = Path.stay ∨ name = Path.back then throw .fileExists
  if Path.isTooLong name then throw .nameTooLong
  if fs.isDirectory target ∨ fs.isFile target then throw .fileExists
  return { fs with directories := fs.directories ++ [target] }

/-- Whether steps lead to a directory. -/
def leadsToDirectory (fs : Files) (steps : List FileName) : Bool :=
  (fs.follow [] steps).toOption.isSome

/-- Creates the directory that steps name and those above it, as far as they do not exist.
Those created before an obstacle stay. -/
def makeDirectories (fs : Files) (steps : List FileName) : Except DirectoryObstacle Unit × Files :=
  match fs.makeDirectory steps with
  | .ok fs => (.ok (), fs)
  | .error .noSuchDirectory =>
    if _ : steps = [] then (.error .noSuchDirectory, fs)
    else
      match makeDirectories fs (Path.parent steps) with
      | (.error obstacle, fs) => (.error obstacle, fs)
      | (.ok (), fs) =>
        match fs.makeDirectory steps with
        | .ok fs => (.ok (), fs)
        | .error obstacle =>
          (if fs.leadsToDirectory steps then .ok () else .error obstacle, fs)
  | .error obstacle => (if fs.leadsToDirectory steps then .ok () else .error obstacle, fs)
termination_by steps.length
decreasing_by exact Path.length_parent_lt (by assumption)

/-- Creates the directory that a path names and those above it. -/
def makePath (fs : Files) (path : List UInt8) : Except DirectoryObstacle Unit × Files :=
  if path.contains 0 then (.error .zeroCharacter, fs)
  else if Path.maxLength < path.length then (.error .nameTooLong, fs)
  else fs.makeDirectories (Path.steps path)

/-- Whether a path, seen from a directory, leads to something. Behind a file nothing follows,
not even a slash. -/
def leadsSomewhere (fs : Files) (here : Place) (path : List UInt8) : Bool :=
  let start := if Path.isAbsolute path then [] else here
  let steps := Path.steps path
  let isName := path.getLast?.any (· != Path.slash)
  let isFile := (fs.follow start steps.dropLast).toOption.any fun here =>
    isName && fs.isFile (here ++ steps.getLast?.toList)
  path != [] && decide (path.length ≤ Path.maxLength) &&
    ((fs.follow start steps).toOption.isSome || isFile)

end Files

end Taskbook
