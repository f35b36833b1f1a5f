import Taskbook.Schema.Declaration
import Taskbook.Table.Tables

/-!
# Databases and Their Schema

A database has a version, named objects (tables and indexes) and rows. A new one has version
zero and nothing in it. *Migrating* brings it to the version that this library works with, by
running the statements of every migration it has not seen yet. That happens completely or not
at all: if a name is taken, nothing changes.

## Naming convention

Tables and indexes share one space of names, and the case of letters does not tell two names
apart. Names that begin with `sqlite_` belong to the database itself.
-/

namespace Taskbook

/-- What kind of object a schema names. -/
inductive ObjectKind where
  | table (columns : List String)
  | index
  deriving DecidableEq, Repr

/-- A named object of a schema. -/
structure SchemaObject where
  name : String
  kind : ObjectKind
  deriving DecidableEq, Repr

namespace SchemaObject

/-- Whether an object is a table. -/
def isTable (o : SchemaObject) : Bool :=
  match o.kind with
  | .table _ => true
  | .index => false

/-- The columns of a table. -/
def columns (o : SchemaObject) : List String :=
  match o.kind with
  | .table columns => columns
  | .index => []

end SchemaObject

/-- A database. -/
structure Database where
  version : Int32
  objects : List SchemaObject
  tables : Tables
  deriving DecidableEq

/-- A step from one version of the schema to the next. -/
structure Migration where
  version : Nat
  creates : List SchemaObject
  deriving DecidableEq, Repr

namespace Migration

/-- The first version: the recurring tasks, the tasks, and an index on when tasks were
done. -/
def initial : Migration where
  version := 1
  creates :=
    [⟨"recurring_task", .table (Tables.recurringColumns.map Prod.fst)⟩,
     ⟨"task", .table (Field.all.map Field.name)⟩,
     ⟨"idx_task_done_on", .index⟩]

/-- Every migration, in ascending order of versions. -/
def all : List Migration := [initial]

/-- The version that this library works with. -/
def latest : Nat :=
  (all.getLast?.map Migration.version).getD 0

end Migration

namespace Database

/-- A database that nothing has been done to. -/
def new : Database := ⟨0, [], .empty⟩

/-- The object with a name. -/
def find? (objects : List SchemaObject) (name : String) : Option SchemaObject :=
  objects.find? fun o => Text.sameName o.name name

/-- Adds an object to a schema, unless its name is taken. -/
def create (objects : List SchemaObject) (o : SchemaObject) :
    Except SqlError (List SchemaObject) :=
  match find? objects o.name with
  | none => .ok (objects ++ [o])
  | some taken =>
    match o.isTable, taken.isTable with
    | true, true => .error (.tableExists o.name)
    | true, false => .error (.indexNamed o.name)
    | false, true => .error (.tableNamed o.name)
    | false, false => .error (.indexExists o.name)

/-- Runs one migration. The tables that it creates are empty. -/
def apply (db : Database) (m : Migration) : Except SqlError Database := do
  let objects ← m.creates.foldlM create db.objects
  return ⟨.ofNat m.version, objects, .empty⟩

/-- Sets the version of a database. One that does not fit 32 bits is kept as zero. -/
def setVersion (db : Database) (version : Int) : Database :=
  let fits := Int32.minValue.toInt ≤ version ∧ version ≤ Int32.maxValue.toInt
  { db with version := if fits then .ofInt version else 0 }

/-- Whether a name belongs to the database itself. -/
def isReserved (name : String) : Bool :=
  "sqlite_".toList.isPrefixOf (Text.lower name).toList

/-- Adds a declared table to a database, given what stands behind its name. -/
def declare (db : Database) (d : Declaration) (temporary : Bool) (rest : Reading) :
    Except SqlError Database := do
  let taken := if temporary then none else find? db.objects d.name
  match taken with
  | some o =>
    if !o.isTable then throw (.indexNamed d.name)
    if !d.unlessThere then throw (.tableExists d.written.text)
    let _ ← Declaration.columns rest
    return db
  | none =>
    let columns ← Declaration.columns rest
    if !d.isReadable then throw (.unreadableSchema d.name (.misplaced "("))
    if temporary then return db
    return { db with objects := db.objects ++ [⟨d.name, .table columns⟩] }

/-- Runs the declaration of a table on the database that stands in its place, or on nothing if
there is a reason why none can be read. The name is looked at before the database. -/
def createTable (found : Except SqlError Database) (name : String) (columns : List String) :
    Except SqlError Database :=
  let declared : Except SqlError Database := do
    let (d, rest) ← Declaration.ofText (Declaration.text name columns)
    let temporary ← d.isTemporary
    if isReserved d.name then throw (.reservedName d.name)
    (← found).declare d temporary rest
  declared.mapError SqlError.unlocated

/-- The columns of the table with a name; none if there is no such table. -/
def columnsOf (db : Database) (name : String) : List String :=
  (find? db.objects name).elim [] SchemaObject.columns

/-- The version of a database, which must not be negative. -/
def version? (db : Database) : Except DbError Nat :=
  if db.version.toInt < 0 then .error (.sql (.versionOutOfRange db.version.toInt))
  else .ok db.version.toInt.toNat

/-- Brings a database to the latest version. Answers the version it had. -/
def migrate (db : Database) : Except DbError (Nat × Database) := do
  let current ← db.version?
  if Migration.latest < current then
    throw (.newerSchema current Migration.latest)
  let pending := Migration.all.filter fun m => current < m.version
  return (current, ← (pending.foldlM apply db).mapError .sql)

/-- What the log is told of a migration from a version: nothing if there was nothing to
do. -/
def migrationEvents (current : Nat) : List Event :=
  if current < Migration.latest then [.migrated current Migration.latest] else []

/-- Migrates a database that perhaps cannot be written. Only a migration that has something to
do meets the obstacle. -/
def migrateUnless (obstacle : Option SqlError) (db : Database) :
    Except DbError (Nat × Database) := do
  let (current, db) ← db.migrate
  match obstacle with
  | some e => if current < Migration.latest then throw (.sql e) else return (current, db)
  | none => return (current, db)

/-- Opens a database, given what stands in its place (or why nothing can) and why it cannot
be written, if it cannot, and migrates it. Answers the database and what the log is told. -/
def openWith (mode : OpenMode) (found : Except SqlError Database) (obstacle : Option SqlError) :
    Except DbError Database × List Event :=
  let migrated := (found.mapError .sql).bind (migrateUnless obstacle)
  match migrated with
  | .ok (current, db) =>
    (.ok db, .opening mode :: migrationEvents current ++ [.opened mode 0])
  | .error e => (.error e, [.opening mode, .openFailed mode 0 e.message])

/-- Opens a private database in memory. -/
def openMemory : Except DbError Database × List Event :=
  openWith .memory (.ok new) none

end Database

end Taskbook
