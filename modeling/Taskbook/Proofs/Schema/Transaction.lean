import Taskbook.Proofs.Schema.Migrating

/-!
# Migrations Inside a Transaction

A migration is a script of statements that are run one after the other, and any of them can be
refused when others have been run already. What keeps the database whole is the transaction around
them: what it was before is saved when the transaction begins, and comes back when the connection
is given up inside of it. This module runs a migration statement by statement and shows that it
amounts to the migration of the database as a whole, which changes everything or nothing.

## Transaction convention

A transaction covers the objects, the rows and the version of a database alike. A statement that
is refused changes nothing by itself, and the ones before it stay done until the transaction is
given up.

## Main results

* `Connection.exec_of_ok`, `Connection.exec_of_error`: **a script goes on to its end or stops at the
  first statement that is refused**, and what has been saved is untouched;
* `Connection.migrate_eq`: **a migration inside a transaction is the migration of the database**,
  and one that is refused leaves it as it was.
-/

namespace Taskbook

/-- The rows after an object is created: a new table has none. -/
def Tables.withNew (ts : Tables) (o : SchemaObject) : Tables :=
  if Text.sameName o.name "task" then { ts with tasks := .empty }
  else if Text.sameName o.name "recurring_task" then { ts with recurring := [] }
  else ts

/-- A statement of a migration. -/
inductive Statement where
  | create (o : SchemaObject)
  | setVersion (version : Int)

namespace Statement

/-- Runs one statement. -/
def run (db : Database) : Statement → Except SqlError Database
  | create o =>
    (Database.create db.objects o).map fun objects =>
      { db with objects := objects, tables := db.tables.withNew o }
  | setVersion version => .ok (db.setVersion version)

end Statement

/-- The statements of a migration. -/
def Migration.script (m : Migration) : List Statement :=
  m.creates.map .create ++ [.setVersion m.version]

/-- A connection to a database: what it shows and, inside a transaction, what it goes back to if
the transaction is given up. -/
structure Connection where
  shown : Database
  saved : Option Database := none

namespace Connection

/-- Begins a transaction. -/
def start (c : Connection) : Connection := ⟨c.shown, some c.shown⟩

/-- Ends a transaction and keeps what was done in it. -/
def commit (c : Connection) : Connection := ⟨c.shown, none⟩

/-- Gives up a transaction. -/
def rollback (c : Connection) : Connection := ⟨c.saved.getD c.shown, none⟩

/-- Runs statements one after the other, up to the first that is refused. -/
def exec : List Statement → Connection → Except SqlError Unit × Connection
  | [], c => (.ok (), c)
  | s :: script, c =>
    match s.run c.shown with
    | .ok db => exec script { c with shown := db }
    | .error e => (.error e, c)

/-- Migrates the database of a connection: all scripts that are pending, inside one transaction.
Answers the version before. -/
def migrate (c : Connection) : Except DbError Nat × Connection :=
  match c.shown.version? with
  | .error e => (.error e, c)
  | .ok current =>
    if Migration.latest < current then (.error (.newerSchema current Migration.latest), c)
    else if current = Migration.latest then (.ok current, c)
    else
      let pending := Migration.all.filter fun m => current < m.version
      match exec (pending.flatMap Migration.script) c.start with
      | (.error e, c) => (.error (.sql e), c.rollback)
      | (.ok (), c) => (.ok current, c.commit)

/-! ### Scripts -/

/-- **A script goes on to its end** if no statement is refused. -/
theorem exec_of_ok {script : List Statement} {c : Connection} {db : Database}
    (h : script.foldlM Statement.run c.shown = .ok db) :
    exec script c = (.ok (), { c with shown := db }) := by
  induction script generalizing c with
  | nil =>
      obtain rfl := Except.ok.inj h
      rfl
  | cons s script ih =>
      obtain ⟨db', hs, hscript⟩ := Except.bind_eq_ok_iff.mp h
      rw [exec, hs]
      exact ih hscript

/-- **A script stops at the first statement that is refused**, with what was saved untouched. -/
theorem exec_of_error {script : List Statement} {c : Connection} {e : SqlError}
    (h : script.foldlM Statement.run c.shown = .error e) :
    ∃ db, exec script c = (.error e, { c with shown := db }) := by
  induction script generalizing c with
  | nil => cases h
  | cons s script ih =>
      rw [exec]
      cases hs : s.run c.shown with
      | error d =>
          rw [List.foldlM_cons, hs] at h
          obtain rfl := Except.error.inj h
          exact ⟨c.shown, rfl⟩
      | ok db =>
          rw [List.foldlM_cons, hs] at h
          exact ih (c := { c with shown := db }) h

/-- Objects that are created by statements are created as a whole. -/
theorem foldlM_run_create (os : List SchemaObject) (db : Database) :
    (os.map Statement.create).foldlM Statement.run db =
      (os.foldlM Database.create db.objects).map fun objects =>
        { db with objects := objects, tables := os.foldl Tables.withNew db.tables } := by
  induction os generalizing db with
  | nil => rfl
  | cons o os ih =>
      rw [List.map_cons, List.foldlM_cons, List.foldlM_cons, Statement.run]
      cases Database.create db.objects o with
      | error e => rfl
      | ok objects => exact ih _

/-- The script of the first migration does what the migration does. -/
theorem foldlM_run_script (db : Database) :
    Migration.initial.script.foldlM Statement.run db =
      (Migration.initial.creates.foldlM Database.create db.objects).map fun objects =>
        ⟨1, objects, .empty⟩ := by
  rw [Migration.script, List.foldlM_append, foldlM_run_create]
  cases Migration.initial.creates.foldlM Database.create db.objects with
  | error e => rfl
  | ok objects =>
      have hrows : Migration.initial.creates.foldl Tables.withNew db.tables = .empty := by
        simp [Migration.initial, Tables.withNew, Tables.empty,
          show Text.sameName "recurring_task" "task" = false by decide,
          show Text.sameName "idx_task_done_on" "task" = false by decide,
          show Text.sameName "idx_task_done_on" "recurring_task" = false by decide,
          Text.sameName_refl]
      rw [hrows]
      rfl

/-- From version zero the script of the first migration is run inside a transaction. -/
theorem migrate_of_zero {db : Database} (h : db.version = 0) :
    migrate ⟨db, none⟩ =
      match exec Migration.initial.script ⟨db, some db⟩ with
      | (.error e, c) => (.error (.sql e), c.rollback)
      | (.ok (), c) => (.ok 0, c.commit) := by
  rw [migrate, Database.version?, h, if_neg (by decide)]
  simp only
  rw [if_neg (by decide), if_neg (by decide)]
  rfl

/-- **A migration inside a transaction is the migration of the database.** One that is refused, at
whatever statement, leaves the database as it was. -/
theorem migrate_eq (db : Database) :
    migrate ⟨db, none⟩ =
      match db.migrate with
      | .ok (current, db') => (.ok current, ⟨db', none⟩)
      | .error e => (.error e, ⟨db, none⟩) := by
  have hway := db.migrates
  generalize db.migrate = r at hway ⊢
  cases hway with
  | negative h =>
      rw [migrate, Database.version?, if_pos h]
  | newer h =>
      have hnewer : Migration.latest < db.version.toInt.toNat := by
        rw [show Migration.latest = 1 by decide]
        omega
      have hversion : db.version? = .ok db.version.toInt.toNat := by
        rw [Database.version?, if_neg (by omega)]
      simp only [migrate, hversion, if_pos hnewer]
  | current h =>
      rw [migrate, Database.version?, h]
      rfl
  | @clash before after o e h hsplit hfree ho =>
      have hscript : Migration.initial.script.foldlM Statement.run db = .error e := by
        rw [foldlM_run_script, (Database.foldlM_create_eq_error_iff Database.distinct_initial).mpr
          ⟨_, _, _, hsplit, hfree, ho⟩]
        rfl
      obtain ⟨db', hexec⟩ := exec_of_error (c := ⟨db, some db⟩) hscript
      rw [migrate_of_zero h, hexec]
      rfl
  | new h hfree =>
      have hscript : Migration.initial.script.foldlM Statement.run db = .ok db.migrated := by
        rw [foldlM_run_script,
          (Database.foldlM_create_eq_ok_iff Database.distinct_initial).mpr ⟨hfree, rfl⟩]
        rfl
      rw [migrate_of_zero h, exec_of_ok (c := ⟨db, some db⟩) hscript]
      rfl

/-- A script that is refused at its second statement has run its first, and giving up the
transaction takes that back. -/
example :
    let c : Connection := ⟨⟨0, [⟨"Task", .index⟩], .empty⟩, none⟩
    (exec Migration.initial.script c.start).2.shown.objects.map SchemaObject.name =
        ["Task", "recurring_task"] ∧
      (exec Migration.initial.script c.start).2.rollback.shown = c.shown := by
  decide

end Connection

end Taskbook
