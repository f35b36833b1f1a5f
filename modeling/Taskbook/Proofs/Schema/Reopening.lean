import Taskbook.Proofs.Schema.Transaction

/-!
# Opening a Database Again and Again

A database is opened and migrated many times, and between two times its version may be set and
tables may be created in it. Calls on one database are made one after the other. What one call
does is stated first: a call that is refused changes nothing, no call drops an object, and only
setting the version lowers it. Along a run of calls this stays so, and once a call has brought the
database to the latest version, opening and migrating succeed and change nothing until the version
is set to another one.

## Main results

* `Database.grows_make`, `Database.grows_after`: **what a call keeps, and what a run keeps**;
* `Database.objects_prefix_after`: **no run drops an object**, whatever the versions that it sets;
* `Database.make_of_current`: **at the latest version opening and migrating change nothing**;
* `Database.migration_atomic`: **a migration happens completely or not at all**, and once it has
  happened it is not repeated.
-/

namespace Taskbook.Database

/-! ### Calls -/

/-- What is done to a database. -/
inductive Call where
  | openAgain
  | migrate
  | setVersion (version : Int)
  | createTable (name : String) (columns : List String)

/-- The database after a result: the one that was made or, if there is none, the one before. -/
def kept (db : Database) : Except DbError Database → Except DbError Unit × Database
  | .ok db' => (.ok (), db')
  | .error e => (.error e, db)

/-- Makes a call on a database. Answers the database afterwards, too. -/
def make (db : Database) : Call → Except DbError Unit × Database
  | .openAgain => kept db (openWith .file (.ok db) none).1
  | .migrate => kept db (db.migrate.map Prod.snd)
  | .setVersion version => (.ok (), db.setVersion version)
  | .createTable name columns =>
    kept db ((Database.createTable (.ok db) name columns).mapError DbError.sql)

/-- The database after calls that are made one after the other. -/
def after (db : Database) (calls : List Call) : Database :=
  calls.foldl (fun db call => (db.make call).2) db

/-- Whether a call is one that migrates. -/
def Call.Migrates : Call → Prop
  | openAgain | migrate => True
  | setVersion _ | createTable _ _ => False

/-- Whether a call sets the version. -/
def Call.SetsVersion : Call → Prop
  | setVersion _ => True
  | openAgain | migrate | createTable _ _ => False

/-- A database **grows** into another one that has all its objects, in front of its own, and no
lower version. -/
structure Grows (db db' : Database) : Prop where
  version : db.version ≤ db'.version
  objects : db.objects <+: db'.objects

theorem Grows.refl (db : Database) : Grows db db :=
  ⟨Int32.le_refl _, List.prefix_rfl⟩

theorem Grows.trans {a b c : Database} (hab : Grows a b) (hbc : Grows b c) : Grows a c :=
  ⟨Int32.le_trans hab.version hbc.version, hab.objects.trans hbc.objects⟩

/-! ### Creating a table -/

/-- A declaration that is accepted keeps the version and all objects. -/
theorem declare_eq_ok {db db' : Database} {d : Declaration} {temporary : Bool} {rest : Reading}
    (h : db.declare d temporary rest = .ok db') :
    db'.version = db.version ∧ db.objects <+: db'.objects := by
  rw [declare] at h
  split at h
  · simp only [bind, Except.bind] at h
    repeat' split at h
    all_goals cases h
    all_goals exact ⟨rfl, List.prefix_rfl⟩
  · obtain ⟨columns, -, h⟩ := Except.bind_eq_ok_iff.mp h
    dsimp only at h
    repeat' split at h
    all_goals cases h
    · exact ⟨rfl, List.prefix_rfl⟩
    · exact ⟨rfl, List.prefix_append _ _⟩

/-- A table that is created keeps the version and all objects. -/
theorem createTable_eq_ok {db db' : Database} {name : String} {columns : List String}
    (h : createTable (.ok db) name columns = .ok db') :
    db'.version = db.version ∧ db.objects <+: db'.objects := by
  rw [createTable] at h
  replace h := Except.mapError_eq_ok_iff.mp h
  obtain ⟨⟨d, rest⟩, -, h⟩ := Except.bind_eq_ok_iff.mp h
  obtain ⟨temporary, -, h⟩ := Except.bind_eq_ok_iff.mp h
  dsimp only at h
  split at h
  · cases h
  · exact declare_eq_ok h

/-! ### One call -/

/-- Opening a database that is there and can be written migrates it. -/
theorem openWith_eq (mode : OpenMode) (db : Database) :
    (openWith mode (.ok db) none).1 = db.migrate.map Prod.snd := by
  have hmigrate : migrateUnless none db = db.migrate := by
    rw [migrateUnless]
    cases db.migrate <;> rfl
  rw [openWith]
  simp only [Except.mapError, Except.bind, hmigrate]
  cases db.migrate <;> rfl

/-- Both calls that migrate do the same. -/
theorem make_of_migrates {call : Call} (h : call.Migrates) (db : Database) :
    db.make call = kept db (db.migrate.map Prod.snd) := by
  cases call with
  | openAgain => rw [make, openWith_eq]
  | migrate => rfl
  | setVersion version => exact h.elim
  | createTable name columns => exact h.elim

/-- **What one call keeps**: all objects and, unless it sets the version, the version. -/
theorem grows_make {db : Database} {call : Call} (h : ¬call.SetsVersion) :
    Grows db (db.make call).2 := by
  have hmigrate : Grows db (kept db (db.migrate.map Prod.snd)).2 := by
    have hway := db.migrates
    generalize db.migrate = r at hway ⊢
    cases hway with
    | negative _ | newer _ | current _ | clash _ _ _ _ => exact .refl db
    | new hversion _ =>
        have hle : db.version ≤ 1 := by
          rw [hversion]
          decide
        exact ⟨hle, List.prefix_append _ _⟩
  cases call with
  | openAgain =>
      rw [make, openWith_eq]
      exact hmigrate
  | migrate => exact hmigrate
  | setVersion version => exact absurd trivial h
  | createTable name columns =>
      rw [make]
      cases hcreate : Database.createTable (.ok db) name columns with
      | error e => exact .refl db
      | ok db' =>
          obtain ⟨hversion, hobjects⟩ := createTable_eq_ok hcreate
          exact ⟨hversion ▸ Int32.le_refl _, hobjects⟩

/-- No call drops an object. -/
theorem objects_prefix_make (db : Database) (call : Call) :
    db.objects <+: (db.make call).2.objects := by
  by_cases h : call.SetsVersion
  · cases call with
    | setVersion version => exact List.prefix_rfl
    | openAgain | migrate | createTable _ _ => exact h.elim
  · exact (grows_make h).objects

/-- **At the latest version opening and migrating change nothing.** -/
theorem make_of_current {db : Database} {call : Call} (h : db.version = 1) (hcall : call.Migrates) :
    db.make call = (.ok (), db) := by
  rw [make_of_migrates hcall, migrate_of_current h]
  rfl

/-- A call that migrates and succeeds leaves the latest version behind. -/
theorem version_of_migrates {db : Database} {call : Call} (hcall : call.Migrates)
    (h : (db.make call).1 = .ok ()) : (db.make call).2.version = 1 := by
  rw [make_of_migrates hcall] at h ⊢
  have hway := db.migrates
  generalize db.migrate = r at h hway ⊢
  cases hway with
  | negative _ | newer _ | clash _ _ _ _ => cases h
  | current hversion => exact hversion
  | new _ _ => rfl

/-- A call leaves the latest version alone, unless it sets another one. -/
theorem version_make {db : Database} {call : Call} (h : db.version = 1)
    (hcall : ∀ version, call = .setVersion version → version = 1) :
    (db.make call).2.version = 1 := by
  have hmigrates (hm : call.Migrates) : (db.make call).2.version = 1 := by
    rw [make_of_current h hm, h]
  cases call with
  | openAgain | migrate => exact hmigrates trivial
  | setVersion version =>
      obtain rfl := hcall version rfl
      rfl
  | createTable name columns =>
      rw [make]
      cases hcreate : Database.createTable (.ok db) name columns with
      | error e => exact h
      | ok db' => exact (createTable_eq_ok hcreate).1.trans h

/-! ### Runs -/

/-- **What a run keeps**: all objects and, unless a call sets the version, the version. -/
theorem grows_after {calls : List Call} (h : ∀ call ∈ calls, ¬call.SetsVersion) (db : Database) :
    Grows db (db.after calls) := by
  induction calls generalizing db with
  | nil => exact .refl db
  | cons call calls ih =>
      rw [List.forall_mem_cons] at h
      exact (grows_make h.1).trans (ih h.2 _)

/-- No run drops an object. -/
theorem objects_prefix_after (calls : List Call) (db : Database) :
    db.objects <+: (db.after calls).objects := by
  induction calls generalizing db with
  | nil => exact List.prefix_rfl
  | cons call calls ih => exact (objects_prefix_make db call).trans (ih _)

/-- A run leaves the latest version alone, unless a call sets another one. -/
theorem version_after {calls : List Call} {db : Database} (h : db.version = 1)
    (hcalls : ∀ version, .setVersion version ∈ calls → version = 1) :
    (db.after calls).version = 1 := by
  induction calls generalizing db with
  | nil => exact h
  | cons call calls ih =>
      refine ih (version_make h ?_) fun version hv => hcalls version (List.mem_cons_of_mem _ hv)
      rintro version rfl
      exact hcalls version List.mem_cons_self

/-- A run goes on from where its first part has led. -/
theorem after_append_cons (db : Database) (before : List Call) (call : Call) (later : List Call) :
    db.after (before ++ call :: later) = ((db.after before).make call).2.after later := by
  rw [after, List.foldl_append, List.foldl_cons, ← after, ← after]

/-- **A migration happens completely or not at all.** It succeeds exactly at the latest version and,
at version zero, if the names of its objects are free. A migration that is refused, at whatever
statement, leaves the database as it was; one that succeeds leaves the latest version behind, all
objects that were there and, from version zero, its own three. Opening a database does the same.
Along every run of calls, once a call has migrated the database, opening and migrating succeed and
change nothing until the version is set to another one; and only setting the version lowers it. -/
theorem migration_atomic (db : Database) :
    ((∃ r, db.migrate = .ok r) ↔
        db.version = 1 ∨
          db.version = 0 ∧ Free db.objects "recurring_task" ∧ Free db.objects "task" ∧
            Free db.objects "idx_task_done_on") ∧
      (∀ e, db.migrate = .error e →
        Connection.migrate ⟨db, none⟩ = (.error e, ⟨db, none⟩) ∧ Migrates db (.error e)) ∧
      (∀ current db', db.migrate = .ok (current, db') →
        Connection.migrate ⟨db, none⟩ = (.ok current, ⟨db', none⟩) ∧
          db'.version = 1 ∧ db.objects <+: db'.objects ∧
          (db.version = 0 →
            db'.objects = db.objects ++
              [⟨"recurring_task", .table (Tables.recurringColumns.map Prod.fst)⟩,
                ⟨"task", .table (Field.all.map Field.name)⟩, ⟨"idx_task_done_on", .index⟩] ∧
              db'.columnsOf "task" = Field.all.map Field.name) ∧
          (db.version = 1 → db' = db)) ∧
      (openWith .file (.ok db) none).1 = db.migrate.map Prod.snd ∧
      (∀ (before : List Call) (call : Call), call.Migrates →
        ((db.after before).make call).1 = .ok () →
        ∀ later : List Call, (∀ version, .setVersion version ∈ later → version = 1) →
          ∀ again : Call, again.Migrates →
            (db.after (before ++ call :: later)).make again =
              (.ok (), db.after (before ++ call :: later))) ∧
      ∀ (before : List Call) (call : Call), ¬call.SetsVersion →
        (db.after before).version ≤ ((db.after before).make call).2.version := by
  refine ⟨⟨?_, ?_⟩, fun e h => ⟨?_, h ▸ db.migrates⟩, fun current db' h => ⟨?_, ?_⟩,
    openWith_eq .file db, ?_, fun before call hcall => (grows_make hcall).version⟩
  · rintro ⟨⟨current, db'⟩, h⟩
    rcases migrate_eq_ok_iff.mp h with ⟨hone, -⟩ | ⟨hzero, hfree, -⟩
    · exact .inl hone
    · exact .inr ⟨hzero, free_initial_iff.mp hfree⟩
  · rintro (hone | ⟨hzero, hfree⟩)
    · exact ⟨_, migrate_of_current hone⟩
    · exact ⟨_, migrate_of_free hzero (free_initial_iff.mpr hfree)⟩
  · rw [Connection.migrate_eq, h]
  · rw [Connection.migrate_eq, h]
  · rcases migrate_eq_ok_iff.mp h with ⟨hone, -, rfl⟩ | ⟨hzero, hfree, -, rfl⟩
    · have hne : db'.version ≠ 0 := by
        rw [hone]
        decide
      exact ⟨hone, List.prefix_rfl, fun hzero => absurd hzero hne, fun _ => rfl⟩
    · have hne : db.version ≠ 1 := by
        rw [hzero]
        decide
      have htask := (free_initial_iff.mp hfree).2.1
      exact ⟨rfl, List.prefix_append _ _, fun _ => ⟨rfl, columnsOf_migrated htask⟩,
        fun hone => absurd hone hne⟩
  · intro before call hcall hok later hlater again hagain
    rw [after_append_cons]
    exact make_of_current (version_after (version_of_migrates hcall hok) hlater) hagain

/-- A database at version zero in which the name of the second statement is taken, in other
letters. -/
def nameTaken : Database := ⟨0, [⟨"Task", .table ["id"]⟩], .empty⟩

/-- The second statement is refused and nothing is left of the first; a new database is migrated and
its migration changes nothing more; and a run opens it, spoils its version and migrates it again. -/
theorem migration_atomic_nameTaken :
    Connection.migrate ⟨nameTaken, none⟩ =
        (.error (.sql (.tableExists "task")), ⟨nameTaken, none⟩) ∧
      new.migrated.columnsOf "task" = Field.all.map Field.name ∧
      (∃ db, new.migrated.migrate = .ok (1, db) ∧ db = new.migrated) ∧
      (∃ db, db = new.after ([.openAgain, .setVersion (-3), .migrate, .setVersion 1] ++
          .migrate :: [.createTable "x" ["id"], .setVersion 1]) ∧
        db.make .openAgain = (.ok (), db)) ∧
      new.version ≤ (new.make .migrate).2.version := by
  obtain ⟨-, hrefused, -⟩ := migration_atomic nameTaken
  obtain ⟨-, -, hnew, -, hrun, hversion⟩ := migration_atomic new
  obtain ⟨-, -, hagain, -⟩ := migration_atomic new.migrated
  refine ⟨(hrefused _ rfl).1, ((hnew 0 _ rfl).2.2.2.1 rfl).2,
    ⟨_, rfl, (hagain 1 _ rfl).2.2.2.2 rfl⟩, ⟨_, rfl, ?_⟩, hversion [] .migrate not_false⟩
  exact hrun [.openAgain, .setVersion (-3), .migrate, .setVersion 1] .migrate trivial rfl
    [.createTable "x" ["id"], .setVersion 1] (by simp) .openAgain trivial

end Taskbook.Database
