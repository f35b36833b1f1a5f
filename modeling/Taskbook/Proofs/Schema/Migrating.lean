import Taskbook.Proofs.Results
import Taskbook.Schema.Database

/-!
# What a Migration Does

A database is migrated by its version alone and, if there is anything to do, by the names of its
objects. This module says once in what ways a migration can go, and everything about migrations is
read off these ways: when it succeeds, what it is refused for, and what stands there afterwards.

## Name convention

A name is *free* in a database if no object has it, whatever the case of the letters. An object is
created under a free name and refused under any other. The names of one migration are different,
so whether all its objects can be created is seen before the first of them is.

## Main results

* `Database.foldlM_create_eq_ok_iff`: **objects are created if and only if their names are free**;
* `Database.migrates`: **the five ways in which a migration goes**;
* `Database.migrate_eq_ok_iff`: **when a migration succeeds**, and with what.
-/

namespace Taskbook.Database

/-! ### Names -/

/-- A name is **free** among objects: none of them has it. -/
def Free (objects : List SchemaObject) (name : String) : Prop :=
  ∀ o ∈ objects, Text.sameName o.name name = false

/-- Under a free name nothing is found. -/
theorem find?_eq_none_iff {objects : List SchemaObject} {name : String} :
    find? objects name = none ↔ Free objects name := by
  simp only [find?, List.find?_eq_none, Bool.not_eq_true, Free]

/-- A name is free among more objects if it is free among both parts. -/
theorem free_append {os objects : List SchemaObject} {name : String} :
    Free (objects ++ os) name ↔ Free objects name ∧ Free os name :=
  List.forall_mem_append

/-- An object is created if and only if its name is free. -/
theorem create_eq_ok_iff {objects objects' : List SchemaObject} {o : SchemaObject} :
    create objects o = .ok objects' ↔ Free objects o.name ∧ objects ++ [o] = objects' := by
  rw [← find?_eq_none_iff, create]
  cases find? objects o.name with
  | none => simp
  | some taken =>
      dsimp only
      split <;> simp

/-- Objects with other names make no difference to an object that is created after them, but for
what stands before it. -/
theorem create_append_eq_error_iff {objects os : List SchemaObject} {o : SchemaObject}
    {e : SqlError} (hos : Free os o.name) :
    create (objects ++ os) o = .error e ↔ create objects o = .error e := by
  have hfind : find? (objects ++ os) o.name = find? objects o.name := by
    rw [find?, List.find?_append, ← find?, ← find?, find?_eq_none_iff.mpr hos, Option.or_none]
  rw [create, create, hfind]
  cases find? objects o.name with
  | none => simp
  | some taken => rfl

/-- The objects have different names, whatever the case of the letters. -/
def Distinct (os : List SchemaObject) : Prop :=
  os.Pairwise fun a b => Text.sameName a.name b.name = false

/-- **Objects are created if and only if their names are free.** -/
theorem foldlM_create_eq_ok_iff {os objects objects' : List SchemaObject} (distinct : Distinct os) :
    os.foldlM create objects = .ok objects' ↔
      (∀ o ∈ os, Free objects o.name) ∧ objects ++ os = objects' := by
  induction os generalizing objects with
  | nil => simp [pure, Except.pure]
  | cons o os ih =>
      obtain ⟨hne, hos⟩ := List.pairwise_cons.mp distinct
      have hfree : (∀ a ∈ os, Free (objects ++ [o]) a.name) ↔ ∀ a ∈ os, Free objects a.name :=
        forall₂_congr fun a ha => by
          rw [free_append]
          exact and_iff_left fun b hb => List.mem_singleton.mp hb ▸ hne a ha
      rw [List.foldlM_cons, Except.bind_eq_ok_iff, List.forall_mem_cons]
      simp only [create_eq_ok_iff]
      constructor
      · rintro ⟨_, ⟨ho, rfl⟩, h⟩
        obtain ⟨hrest, rfl⟩ := (ih hos).mp h
        exact ⟨⟨ho, hfree.mp hrest⟩, by rw [List.append_assoc, List.singleton_append]⟩
      · rintro ⟨⟨ho, hrest⟩, rfl⟩
        refine ⟨_, ⟨ho, rfl⟩, (ih hos).mpr ⟨hfree.mpr hrest, ?_⟩⟩
        rw [List.append_assoc, List.singleton_append]

/-- Objects are refused for the first of them whose name is taken. -/
theorem foldlM_create_eq_error_iff {os objects : List SchemaObject} {e : SqlError}
    (distinct : Distinct os) :
    os.foldlM create objects = .error e ↔
      ∃ before o after, os = before ++ o :: after ∧ (∀ a ∈ before, Free objects a.name) ∧
        create objects o = .error e := by
  rw [foldlM_eq_error_iff]
  refine exists_congr fun before => exists_congr fun o => exists_congr fun after => ?_
  constructor
  · rintro ⟨_, rfl, hbefore, ho⟩
    obtain ⟨hb, -, hne⟩ := List.pairwise_append.mp distinct
    obtain ⟨hfree, rfl⟩ := (foldlM_create_eq_ok_iff hb).mp hbefore
    exact ⟨rfl, hfree, (create_append_eq_error_iff fun a ha => hne a ha o List.mem_cons_self).mp ho⟩
  · rintro ⟨rfl, hfree, ho⟩
    obtain ⟨hb, -, hne⟩ := List.pairwise_append.mp distinct
    exact ⟨_, rfl, (foldlM_create_eq_ok_iff hb).mpr ⟨hfree, rfl⟩,
      (create_append_eq_error_iff fun a ha => hne a ha o List.mem_cons_self).mpr ho⟩

/-! ### Migrations -/

/-- The objects of the first migration have different names. -/
theorem distinct_initial : Distinct Migration.initial.creates := by
  rw [Distinct]
  decide

/-- What the first migration makes of a database in which its names are free. -/
def migrated (db : Database) : Database :=
  ⟨1, db.objects ++ Migration.initial.creates, .empty⟩

/-- A negative version is no version. -/
theorem migrate_of_negative {db : Database} (h : db.version.toInt < 0) :
    db.migrate = .error (.sql (.versionOutOfRange db.version.toInt)) := by
  rw [migrate, version?, if_pos h]
  rfl

/-- A newer version is not known. -/
theorem migrate_of_newer {db : Database} (h : 1 < db.version.toInt) :
    db.migrate = .error (.newerSchema db.version.toInt.toNat Migration.latest) := by
  have hnewer : Migration.latest < db.version.toInt.toNat := by
    rw [show Migration.latest = 1 by decide]
    omega
  rw [migrate, version?, if_neg (by omega)]
  simp only [bind, Except.bind, if_pos hnewer]
  rfl

/-- At the latest version there is nothing to do. -/
theorem migrate_of_current {db : Database} (h : db.version = 1) : db.migrate = .ok (1, db) := by
  rw [migrate, version?, h]
  rfl

/-- From version zero the objects of the first migration are created. -/
theorem migrate_of_zero {db : Database} (h : db.version = 0) :
    db.migrate =
      ((Migration.initial.creates.foldlM create db.objects).mapError DbError.sql).map
        fun objects => (0, ⟨1, objects, .empty⟩) := by
  have hpending : (Migration.all.filter fun m => 0 < m.version) = [Migration.initial] := by
    decide
  rw [migrate, version?, h, if_neg (by decide)]
  simp only [bind, Except.bind]
  rw [if_neg (by decide), show (Int32.toInt 0).toNat = 0 by decide, hpending]
  simp only [List.foldlM_cons, List.foldlM_nil, apply]
  cases Migration.initial.creates.foldlM create db.objects <;> rfl

/-- From version zero a database is migrated if the names of the first migration are free in it. -/
theorem migrate_of_free {db : Database} (h : db.version = 0)
    (hfree : ∀ o ∈ Migration.initial.creates, Free db.objects o.name) :
    db.migrate = .ok (0, db.migrated) := by
  rw [migrate_of_zero h, (foldlM_create_eq_ok_iff distinct_initial).mpr ⟨hfree, rfl⟩]
  rfl

/-- The ways in which a migration goes: by the version of the database and, if it is zero, by the
names of the objects that are to be created. -/
inductive Migrates (db : Database) : Except DbError (Nat × Database) → Prop
  | negative :
      db.version.toInt < 0 → Migrates db (.error (.sql (.versionOutOfRange db.version.toInt)))
  | newer :
      1 < db.version.toInt →
      Migrates db (.error (.newerSchema db.version.toInt.toNat Migration.latest))
  | current :
      db.version = 1 → Migrates db (.ok (1, db))
  | clash {before after : List SchemaObject} {o : SchemaObject} {e : SqlError} :
      db.version = 0 → Migration.initial.creates = before ++ o :: after →
      (∀ a ∈ before, Free db.objects a.name) → create db.objects o = .error e →
      Migrates db (.error (.sql e))
  | new :
      db.version = 0 → (∀ o ∈ Migration.initial.creates, Free db.objects o.name) →
      Migrates db (.ok (0, db.migrated))

/-- **The five ways in which a migration goes.** -/
theorem migrates (db : Database) : Migrates db db.migrate := by
  rcases Int.lt_trichotomy db.version.toInt 0 with hneg | hzero | hpos
  · exact migrate_of_negative hneg ▸ .negative hneg
  · have hversion : db.version = 0 := Int32.toInt_inj.mp hzero
    cases hcreate : Migration.initial.creates.foldlM create db.objects with
    | error e =>
        obtain ⟨before, o, after, hsplit, hfree, ho⟩ :=
          (foldlM_create_eq_error_iff distinct_initial).mp hcreate
        rw [migrate_of_zero hversion, hcreate]
        exact .clash hversion hsplit hfree ho
    | ok objects =>
        obtain ⟨hfree, -⟩ := (foldlM_create_eq_ok_iff distinct_initial).mp hcreate
        exact migrate_of_free hversion hfree ▸ .new hversion hfree
  · by_cases hone : db.version.toInt = 1
    · have hversion : db.version = 1 := Int32.toInt_inj.mp hone
      exact migrate_of_current hversion ▸ .current hversion
    · have hnewer : 1 < db.version.toInt := by omega
      exact migrate_of_newer hnewer ▸ .newer hnewer

/-- **When a migration succeeds**, and with what. -/
theorem migrate_eq_ok_iff {db db' : Database} {current : Nat} :
    db.migrate = .ok (current, db') ↔
      db.version = 1 ∧ current = 1 ∧ db' = db ∨
        db.version = 0 ∧ (∀ o ∈ Migration.initial.creates, Free db.objects o.name) ∧
          current = 0 ∧ db' = db.migrated := by
  constructor
  · intro h
    have hway := h ▸ db.migrates
    cases hway with
    | current hversion => exact .inl ⟨hversion, rfl, rfl⟩
    | new hversion hfree => exact .inr ⟨hversion, hfree, rfl, rfl⟩
  · rintro (⟨hversion, rfl, rfl⟩ | ⟨hversion, hfree, rfl, rfl⟩)
    · exact migrate_of_current hversion
    · exact migrate_of_free hversion hfree

/-- The names of the first migration, one by one. -/
theorem free_initial_iff {objects : List SchemaObject} :
    (∀ o ∈ Migration.initial.creates, Free objects o.name) ↔
      Free objects "recurring_task" ∧ Free objects "task" ∧ Free objects "idx_task_done_on" := by
  simp only [Migration.initial, List.forall_mem_cons, List.not_mem_nil, false_implies, implies_true,
    and_true]

/-- The task table of a migrated database has the fields of a task as its columns, in table
order. -/
theorem columnsOf_migrated {db : Database} (hfree : Free db.objects "task") :
    db.migrated.columnsOf "task" = Field.all.map Field.name := by
  have hfind : find? Migration.initial.creates "task" =
      some ⟨"task", .table (Field.all.map Field.name)⟩ := by decide
  rw [columnsOf, migrated, find?, List.find?_append, ← find?, ← find?,
    find?_eq_none_iff.mpr hfree, Option.none_or, hfind]
  rfl

end Taskbook.Database
