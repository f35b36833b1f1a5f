import Taskbook.Host.Recovery

/-!
# Opening Databases

A database is opened at an address, seen from a directory. It is kept at a place or nowhere,
and perhaps it cannot be written.

## Path convention

Opening first settles the `..` steps of the path against the steps before them, and only then
looks at the place. On the way it must not pass through a file that is no directory. The file
that an address names as a model is looked for next, and then the place itself. A directory
can be opened for reading alone, but not be read.
-/

namespace Taskbook

/-- Where an opened database is kept: a place, or nowhere, in which case it lasts as long as it
is open. The obstacle is why it cannot be written, if it cannot. -/
structure Keeping where
  place : Option Place
  obstacle : Option SqlError
  deriving DecidableEq

/-- Keeping a database nowhere. -/
def Keeping.nowhere : Keeping := ⟨none, none⟩

namespace Files

/-- The longest path in bytes that a database can have. -/
def maxDatabasePath : Nat := 512

/-- How many more bytes the path of the journal of a database has than its own. -/
def journalLength : Nat := "-journal".length

/-- The place that steps lead to from a place, by their names alone. Nothing if a name or the
path becomes too long, or if the way leads through a file. -/
def settle (fs : Files) (here : Place) : List FileName → Option Place
  | [] => some here
  | step :: rest =>
    if step = Path.stay then settle fs here rest
    else if step = Path.back then settle fs here.dropLast rest
    else if Path.isTooLong step || fs.isFile here ||
        decide (maxDatabasePath ≤ Path.length (here ++ [step])) then none
    else settle fs (here ++ [step]) rest

/-- The place that the path of a database leads to, seen from a directory. -/
def databasePlace? (fs : Files) (here : Place) (path : List UInt8) : Option Place :=
  let start := if Path.isAbsolute path then [] else here
  (fs.settle start (Path.steps path)).filter fun place =>
    Path.length place + journalLength ≤ maxDatabasePath

/-- Whether a database can be opened at a place: its file is there or can be created. -/
def admits (fs : Files) (a : Address) (place : Place) : Bool :=
  !fs.isDirectory place && fs.isDirectory place.dropLast &&
    (fs.isFile place || a.mode = .create)

/-- Reads an address and finds the place that it leads to; no place for a database that is kept
nowhere. -/
def locate (fs : Files) (here : Place) (address : String) :
    Except SqlError (Address × Option Place) := do
  let before := address.toList.takeWhile (· != Char.ofNat 0)
  if before.length < address.length then
    throw (.zeroCharacter (String.ofList before).utf8ByteSize)
  let a ← Address.read address
  if a.isPrivate then return (a, none)
  match fs.databasePlace? here a.path with
  | none => throw (.cannotOpen address)
  | some place =>
    if a.model.any fun path => !fs.leadsSomewhere here path then throw .noModel
    if place ≠ [] ∧ fs.isDirectory place ∧ a.mode = .readOnly then throw .cannotRead
    if fs.admits a place then return (a, some place)
    throw (.cannotOpen address)

/-- Why the database at a place cannot be written, if it cannot. Writing needs a journal beside
it, unless a write-ahead log is used. -/
def writeObstacle? (fs : Files) (a : Address) (place : Place) (logged : Bool) :
    Option SqlError :=
  if a.isFrozen then some .readOnly
  else if logged then none
  else if Path.isTooLong (place.journal.getLast?.getD []) ∨ fs.isDirectory place.journal then
    some .cannotOpenBeside
  else none

/-- The database that stands at a place. -/
def found (fs : Files) (place : Place) : Except SqlError Database :=
  match fs.content? place with
  | some (.database db) => .ok db
  | _ => if fs.isNew place then .ok .new else .error .notADatabase

/-- Opens the database at an address as it is. A file is there from then on, even if the
database cannot be used. -/
def connect (fs : Files) (here : Place) (address : String) :
    Except SqlError (Database × Keeping) × Files :=
  match fs.locate here address with
  | .error e => (.error e, fs)
  | .ok (a, none) => (.ok (.new, ⟨none, if a.isFrozen then some .readOnly else none⟩), fs)
  | .ok (a, some place) =>
    match (fs.touch place).recover a place with
    | (.error e, fs) => (.error e, fs)
    | (.ok logged, fs) =>
      ((fs.found place).map fun db => (db, ⟨some place, fs.writeObstacle? a place logged⟩), fs)

/-- The tree after the state of an opened database has been kept. A state that is there already
is not written, and after a write no journal is left. -/
def keep (fs : Files) (k : Keeping) (db : Database) : Files :=
  match k.place, k.obstacle with
  | some place, none =>
    if (fs.found place).toOption = some db then fs
    else (fs.write place (.database db)).remove place.journal
  | _, _ => fs

/-- Opens the database at an address and migrates it. Answers what the log is told and the
tree afterwards. -/
def openDatabase (fs : Files) (here : Place) (address : String) :
    Except DbError (Database × Keeping) × List Event × Files :=
  let (opened, fs) := fs.connect here address
  let k := opened.toOption.elim .nowhere Prod.snd
  match Database.openWith .file (opened.map Prod.fst) k.obstacle with
  | (.ok db, events) => (.ok (db, k), events, fs.keep k db)
  | (.error e, events) => (.error e, events, fs)

/-- The places that opening a database looks at. -/
def databasePlaces (directory address : String) : List Place :=
  match Address.read address with
  | .ok a =>
    let onWay (path : List UInt8) : List Place :=
      let whole := if Path.isAbsolute path then path else Text.bytes (directory ++ "/") ++ path
      Path.walk [] (Path.steps whole)
    let way := onWay a.path
    way ++ (way.getLast?.elim [] Place.besides) ++ a.model.elim [] onWay
  | .error _ => []

end Files

end Taskbook
