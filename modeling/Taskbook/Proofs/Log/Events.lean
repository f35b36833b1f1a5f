import Taskbook.Host.Opening
import Taskbook.Proofs.Manager.Failure
import Taskbook.Proofs.Schema.Migrating

/-!
# What Events Say

Every event names itself and says how something went: that it starts, that it went well or that it
did not. Its text begins with these two, so what is shown here of events can be read off the lines
of a log. An event is *said aloud* if it is more severe than a debugging event. The operations of a
repository say nothing aloud; what a log tells of a call comes from the manager.

What opening a database writes is told here in full, because nothing else writes while a database
is opened.

## Main results

* `Event.text_eq`: **the text of an event says its name and its status**;
* `Action.Quiet`: actions that say nothing aloud, **closed under chains**;
* `Database.Told.openWith`: **the events of opening** match what came of it.
-/

namespace Taskbook

/-! ### Names and statuses -/

/-- How something went, or that it starts. -/
inductive Status where
  | start
  | ok
  | error
  deriving DecidableEq, Repr

/-- The name of a status. -/
def Status.name : Status → String
  | start => "start"
  | ok => "ok"
  | error => "error"

namespace Event

/-- What an event is called. -/
def name : Event → String
  | logStarted .. => "core_init"
  | crashCaptured .. => "panic_captured"
  | opening _ | opened .. | openFailed .. => "db_open"
  | migrated .. => "db_migrate"
  | querying .. => "task_query"
  | created .. => "task_create"
  | missing _ => "task_lookup"
  | changed change _ => change.eventName
  | commandDone _ | commandFailed .. => "cli_command"

/-- The part of the program that writes an event. -/
def component : Event → String
  | logStarted .. => "logging"
  | crashCaptured .. => "core"
  | opening _ | opened .. | openFailed .. | migrated .. => "db"
  | querying .. => "repo"
  | created .. | missing _ | changed .. => "service"
  | commandDone _ | commandFailed .. => "cli"

/-- What an event says of how something went. -/
def status : Event → Status
  | opening _ | querying .. => .start
  | crashCaptured .. | openFailed .. | missing _ | commandFailed .. => .error
  | logStarted .. | migrated .. | opened .. | created .. | changed .. | commandDone _ => .ok

/-- The beginning of the text of an event. -/
def heading (e : Event) : String :=
  "event=" ++ e.name ++ " module=" ++ e.component ++ " status=" ++ e.status.name

/-- **The text of an event says its name and its status**, and then its details. -/
theorem text_eq (e : Event) : ∃ details, e.text = e.heading ++ details := by
  have longer {s heading : String} (t : String) (h : ∃ details, s = heading ++ details) :
      ∃ details, s ++ t = heading ++ details := by
    obtain ⟨details, rfl⟩ := h
    exact ⟨details ++ t, String.append_assoc⟩
  cases e with
  | logStarted level directory =>
      exact longer _ (longer _ (longer _ (longer _ (longer _ ⟨" level=", rfl⟩))))
  | crashCaptured location payload => exact longer _ (longer _ (longer _ ⟨" location=", rfl⟩))
  | opening mode => exact longer _ ⟨" mode=", rfl⟩
  | migrated fromVersion toVersion =>
      exact longer _ (longer _ (longer _ ⟨" from_version=", rfl⟩))
  | opened mode millis => exact longer _ (longer _ (longer _ ⟨" mode=", rfl⟩))
  | openFailed mode millis error =>
      exact longer _ (longer _ (longer _ (longer _ (longer _ ⟨" mode=", rfl⟩))))
  | querying clause operands => exact longer _ (longer _ (longer _ ⟨" where=\"", rfl⟩))
  | created id hasDueDate => exact longer _ (longer _ (longer _ ⟨" task_id=", rfl⟩))
  | missing id => exact longer _ (longer _ ⟨" task_id=", rfl⟩)
  | changed change id => cases change <;> exact longer _ ⟨" task_id=", rfl⟩
  | commandDone command => exact longer _ ⟨" command=", rfl⟩
  | commandFailed command error => exact longer _ (longer _ (longer _ ⟨" command=", rfl⟩))

/-- Whether an event tells of a **success**: it is for information and says that something went
well. -/
def isSuccess (e : Event) : Bool :=
  e.level == .info && e.status == .ok

/-- Whether an event is a **warning**. -/
def isWarning (e : Event) : Bool :=
  e.level == .warn

/-- Whether an event is **said aloud**: it is more severe than a debugging event. -/
def isAloud (e : Event) : Bool :=
  Level.debug.severity < e.level.severity

/-- The id of the task that an event says has been created. -/
def createdId? : Event → Option Int64
  | created id _ => some id
  | _ => none

/-- A success is said aloud. -/
theorem isAloud_of_isSuccess {e : Event} (h : e.isSuccess = true) : e.isAloud = true := by
  rw [isSuccess, Bool.and_eq_true, beq_iff_eq] at h
  rw [isAloud, h.1]
  rfl

/-- A warning is said aloud. -/
theorem isAloud_of_isWarning {e : Event} (h : e.isWarning = true) : e.isAloud = true := by
  rw [isWarning, beq_iff_eq] at h
  rw [isAloud, h]
  rfl

/-- That a task has been created is said aloud. -/
theorem isAloud_of_createdId? {e : Event} {id : Int64} (h : e.createdId? = some id) :
    e.isAloud = true := by
  cases e <;> first | rfl | cases h

end Event

/-! ### Actions that say nothing aloud -/

namespace Action

variable {σ ε δ α β : Type}

/-- Events of which none is **said aloud**. -/
def Hushed (events : List Event) : Prop :=
  events.filter Event.isAloud = []

theorem hushed_nil : Hushed [] := rfl

/-- Hushed events in front of others cannot be heard. -/
theorem Hushed.filter_append {xs : List Event} (h : Hushed xs) (ys : List Event) :
    (xs ++ ys).filter Event.isAloud = ys.filter Event.isAloud := by
  rw [List.filter_append, h, List.nil_append]

/-- An action is **quiet** if it says nothing aloud. -/
def Quiet (x : Action σ ε α) : Prop :=
  ∀ s, Hushed (x s).events

theorem quiet_pure (a : α) : (pure a : Action σ ε α).Quiet := fun _ => rfl

theorem quiet_fail (e : ε) : (fail e : Action σ ε α).Quiet := fun _ => rfl

theorem quiet_breakOff : (breakOff : Action σ ε α).Quiet := fun _ => rfl

theorem quiet_store : (store : Action σ ε σ).Quiet := fun _ => rfl

theorem quiet_setStore (s : σ) : (setStore s : Action σ ε Unit).Quiet := fun _ => rfl

theorem quiet_ofExcept (x : Except ε α) : (ofExcept x : Action σ ε α).Quiet := by
  cases x <;> exact fun _ => rfl

/-- An event that is not said aloud may be written. -/
theorem quiet_record {e : Event} (h : e.isAloud = false) :
    (record e : Action σ ε Unit).Quiet := by
  intro s
  rw [record_apply, Hushed, List.filter_singleton, h]
  rfl

/-- A chain of quiet actions is quiet. -/
theorem Quiet.bind {x : Action σ ε α} {f : α → Action σ ε β} (hx : x.Quiet)
    (hf : ∀ a, (f a).Quiet) : (x >>= f).Quiet := by
  intro s
  have hs := hx s
  rcases hr : x s with ⟨result, s', events⟩
  rw [hr] at hs
  cases result with
  | ok a =>
      rw [bind_of_ok hr]
      exact (hs.filter_append _).trans (hf a s')
  | error e =>
      rw [bind_of_error hr]
      exact hs

end Action

open Taskbook.Action

/-- A repository is **quiet** if its three operations are. -/
structure Repository.Quiet {σ : Type} (repo : Repository σ) : Prop where
  insert : ∀ t, (repo.insert t).Quiet
  query : ∀ p, (repo.query p).Quiet
  update : ∀ t, (repo.update t).Quiet

/-- The store in memory is quiet: it writes no events. -/
theorem MemoryStore.quiet : repository.Quiet where
  insert t := by
    refine (quiet_ofExcept _).bind fun _ => ?_
    cases t.id with
    | some id => exact quiet_fail _
    | none =>
        refine quiet_store.bind fun s => ?_
        cases Number.next? s.nextId with
        | none => exact quiet_breakOff
        | some next => exact (quiet_setStore _).bind fun _ => quiet_pure _
  query _ := quiet_store.bind fun _ => quiet_pure _
  update t := by
    refine (quiet_ofExcept _).bind fun _ => ?_
    cases t.id with
    | none => exact quiet_fail _
    | some id =>
        refine quiet_store.bind fun s => ?_
        by_cases hfind : (s.find? id).isSome = true
        · simp only [hfind, if_true]
          exact quiet_setStore _
        · simp only [hfind]
          exact quiet_fail _

namespace Tables

/-- A statement writes no events. -/
theorem quiet_write {α : Type} (statement : Tables → Except SqlError (α × Tables)) :
    (write statement).Quiet :=
  quiet_store.bind fun _ => (quiet_ofExcept _).bind fun _ =>
    (quiet_setStore _).bind fun _ => quiet_pure _

/-- The tables are quiet: of a query there is a debugging event, of the rest none. -/
theorem quiet [Engine] : repository.Quiet where
  insert t := by
    refine (quiet_ofExcept _).bind fun _ => ?_
    cases t.id with
    | some id => exact quiet_fail _
    | none => exact (quiet_write _).bind fun _ => quiet_pure _
  query p :=
    (quiet_record rfl).bind fun _ => quiet_store.bind fun _ =>
      (quiet_ofExcept _).bind fun _ => quiet_ofExcept _
  update t := by
    refine (quiet_ofExcept _).bind fun _ => ?_
    cases t.id with
    | none => exact quiet_fail _
    | some id =>
        refine (quiet_write _).bind fun found => ?_
        cases found with
        | true => exact quiet_pure _
        | false => exact quiet_fail _

/-- A database that cannot be written is quiet. -/
theorem quiet_frozen [Engine] (obstacle : SqlError) : (frozenRepository obstacle).Quiet where
  insert t := by
    refine (quiet_ofExcept _).bind fun _ => ?_
    cases t.id <;> exact quiet_fail _
  query := quiet.query
  update t := by
    refine (quiet_ofExcept _).bind fun _ => ?_
    cases t.id <;> exact quiet_fail _

end Tables

/-! ### Opening a database -/

namespace Database

/-- The events of opening a database are **told right**. After one event that it starts there is,
if it succeeds, one about a migration exactly where this call has raised the version, from the old
version to the new one, and one that it went well; if it fails there is one that it did not, with
the error, and nothing about a migration. -/
structure Told (mode : OpenMode) (found : Except SqlError Database)
    (opened : Except DbError Database × List Event) : Prop where
  ok : ∀ db', opened.1 = .ok db' → ∃ db, found = .ok db ∧
    opened.2 = .opening mode ::
      (if db.version < db'.version then
        [.migrated db.version.toInt.toNat db'.version.toInt.toNat] else []) ++ [.opened mode 0]
  error : ∀ e, opened.1 = .error e → opened.2 = [.opening mode, .openFailed mode 0 e.message]

/-- A migration that can or cannot be written is one that succeeds as such, and it is not needed or
nothing is in its way. -/
theorem migrate_of_migrateUnless {obstacle : Option SqlError} {db db' : Database} {current : Nat}
    (h : migrateUnless obstacle db = .ok (current, db')) : db.migrate = .ok (current, db') := by
  rw [migrateUnless] at h
  obtain ⟨⟨current', db''⟩, hmigrate, h⟩ := Except.bind_eq_ok_iff.mp h
  cases obstacle with
  | none =>
      cases h
      exact hmigrate
  | some e =>
      by_cases hold : current' < Migration.latest
      · simp only [if_pos hold] at h
        cases h
      · simp only [if_neg hold] at h
        cases h
        exact hmigrate

/-- There is an event about a migration where the version has been raised. -/
theorem migrationEvents_eq {db db' : Database} {current : Nat}
    (h : db.migrate = .ok (current, db')) :
    migrationEvents current =
      if db.version < db'.version then
        [.migrated db.version.toInt.toNat db'.version.toInt.toNat] else [] := by
  rcases migrate_eq_ok_iff.mp h with ⟨hversion, rfl, rfl⟩ | ⟨hversion, -, rfl, rfl⟩
  · rw [hversion]
    decide
  · rw [hversion, show db.migrated.version = 1 from rfl]
    decide

/-- **The events of opening are told right.** -/
theorem told_openWith (mode : OpenMode) (found : Except SqlError Database)
    (obstacle : Option SqlError) : Told mode found (openWith mode found obstacle) := by
  rw [openWith]
  cases hmigrated : (found.mapError DbError.sql).bind (migrateUnless obstacle) with
  | error e =>
      refine ⟨fun _ h => (nomatch h), fun e' h => ?_⟩
      cases h
      rfl
  | ok answer =>
      obtain ⟨current, db'⟩ := answer
      refine ⟨fun _ h => ?_, fun _ h => (nomatch h)⟩
      cases h
      obtain ⟨db, hfound, hmigrate⟩ := Except.bind_eq_ok_iff.mp hmigrated
      refine ⟨db, Except.mapError_eq_ok_iff.mp hfound, ?_⟩
      rw [← migrationEvents_eq (migrate_of_migrateUnless hmigrate)]

end Database

namespace Files

/-- What opening the database at an address does to it: it is opened as it is and then migrated. -/
theorem openDatabase_eq (fs : Files) (here : Place) (address : String) :
    let connected := fs.connect here address
    let k := connected.1.toOption.elim .nowhere Prod.snd
    let opened := Database.openWith .file (connected.1.map Prod.fst) k.obstacle
    fs.openDatabase here address =
      (opened.1.map fun db => (db, k), opened.2,
        opened.1.toOption.elim connected.2 fun db => connected.2.keep k db) := by
  intro connected k opened
  simp only [openDatabase]
  rcases hopened : opened with ⟨result, events⟩
  cases result <;> simp only [opened, connected, k] at hopened <;> rw [hopened] <;> rfl

/-- **The events of opening the database at an address are told right**, and where that fails the
files are left as connecting to it has left them. -/
theorem told_openDatabase (fs : Files) (here : Place) (address : String) :
    let connected := fs.connect here address
    let opened := fs.openDatabase here address
    Database.Told .file (connected.1.map Prod.fst) (opened.1.map Prod.fst, opened.2.1) ∧
      ∀ e, opened.1 = .error e → opened.2.2 = connected.2 := by
  intro connected opened
  let k := connected.1.toOption.elim Keeping.nowhere Prod.snd
  have htold := Database.told_openWith .file (connected.1.map Prod.fst) k.obstacle
  have hopened : opened = _ := fs.openDatabase_eq here address
  rw [hopened]
  rcases hwith : Database.openWith .file (connected.1.map Prod.fst) k.obstacle with
    ⟨result, events⟩
  rw [hwith] at htold
  cases result with
  | ok db => exact ⟨htold, fun _ h => nomatch h⟩
  | error e => exact ⟨htold, fun _ _ => rfl⟩

end Files

end Taskbook
