import Taskbook.Proofs.Cli.Commands
import Taskbook.Proofs.Host.Logging
import Taskbook.Proofs.Host.Reaching
import Taskbook.Proofs.Manager.Following

/-!
# Runs of the Program as One Session

The program is run again and again, and nothing but the file tree passes from one run to the next.
What is proved here is that this cannot be observed: the runs end, and leave the tables, as one
manager would that works on one store all the time.

## What is asked of the runs

Other things can happen to the tree than what the database needs. So each run is looked at on the
tree that it finds:

* it *reaches* the place of the database: its command line is accepted, its log is set up if it is
  told to log, and the ordinary path of its database leads to the place, where a file can be
  created;
* it *spares* the place: its log does not take the database for an older log. A run without a log
  spares every place, and a database whose name is not that of an older log is always spared
  (`Launch.spares_of_silent`, `Launch.spares_of_name`).

## Main results

* `Launch.run_of_reaches`: **one run** is the step of its command;
* `runAll_eq_session`: **runs are one session**, by induction on the runs;
* `runs_are_one_session`: this, and what it means for a run that finds a database of an earlier one,
  for a run that fails, and for a run without its log;
* `separate_runs_can_be_told`: **without sparing**, or if only the first run reaches the place, the
  runs can be told from a session.
-/

namespace Taskbook.Cli

/-! ### Launches -/

/-- What a run is started with. -/
structure Launch where
  cwd : String
  environment : String → Option String
  words : List String
  clock : Clock

namespace Launch

/-- Runs the program. -/
def run [Engine] (l : Launch) (fs : Files) : Exit × Files :=
  Cli.run fs l.cwd l.environment l.words l.clock

/-- The command that the words ask for. -/
def command? (l : Launch) : Option Command :=
  (Invocation.read l.words).toOption.map Invocation.command

/-- The configuration of the run. -/
def config (l : Launch) (invocation : Invocation) : Config :=
  Config.resolve invocation.db l.environment

/-- The run **gets started** on a tree: its command line is accepted, and its log is set up if it is
told to log. -/
structure Starts (l : Launch) (fs : Files) (invocation : Invocation) (host : Host) : Prop where
  read : Invocation.read l.words = .ok invocation
  log : setUpLog (.ofFiles fs) l.cwd (l.config invocation) = (.ok (), host)

/-- The run **reaches** a place: it gets started, the path of its database is an ordinary one that
leads to the place, and the way is clear. -/
def Reaches (l : Launch) (fs : Files) (place : Place) : Prop :=
  ∃ invocation host, l.Starts fs invocation host ∧
    Address.Ordinary (l.config invocation).dbPath ∧
    host.files.databasePlace? (Path.parts (Text.bytes l.cwd))
      (Text.bytes (l.config invocation).dbPath) = some place ∧
    host.files.Clear place

/-- The run **spares** a place: its log does, if it gets started. -/
def Spares (l : Launch) (fs : Files) (place : Place) : Prop :=
  ∀ invocation host, l.Starts fs invocation host → host.Spares place

/-- The steps of a session that the run comes to. -/
def steps (l : Launch) : List Step :=
  l.command?.elim [] fun command => [.setClock l.clock.managed, command.step l.clock]

theorem command?_of_starts {l : Launch} {fs : Files} {invocation : Invocation} {host : Host}
    (h : l.Starts fs invocation host) : l.command? = some invocation.command := by
  rw [command?, h.read]
  rfl

/-- What a run does after it got started. -/
theorem run_of_starts [Engine] {l : Launch} {fs : Files} {invocation : Invocation} {host : Host}
    (h : l.Starts fs invocation host) :
    l.run fs = ((runOn host l.cwd (l.config invocation) l.clock invocation.command).1,
      (runOn host l.cwd (l.config invocation) l.clock invocation.command).2.files) := by
  have hlog := h.log
  rw [config] at hlog
  rw [run, Cli.run, h.read]
  simp only [hlog]
  rfl

/-- The database that is found when a run has set up its log is the one that was found before. -/
theorem found_of_starts {l : Launch} {fs : Files} {invocation : Invocation} {host : Host}
    {place : Place} (h : l.Starts fs invocation host) (hspares : host.Spares place) :
    host.files.found place = fs.found place := by
  have hlog := h.log
  rw [setUpLog] at hlog
  split at hlog
  · obtain rfl := (Prod.mk.inj hlog).2
    rfl
  · exact Host.found_setUpLog hlog hspares

/-- A run that is not told to log gets started on every tree. -/
theorem starts_of_silent {l : Launch} {invocation : Invocation}
    (hread : Invocation.read l.words = .ok invocation)
    (hsilent : (l.config invocation).logDirectory = none) (fs : Files) :
    l.Starts fs invocation (.ofFiles fs) :=
  ⟨hread, by rw [setUpLog, hsilent]⟩

/-- A run that is not told to log spares every place. -/
theorem spares_of_silent {l : Launch}
    (hsilent : ∀ invocation, (l.config invocation).logDirectory = none) (fs : Files)
    (place : Place) : l.Spares fs place := by
  intro invocation host hstarts log hplace
  have hlog := hstarts.log
  rw [setUpLog, hsilent] at hlog
  obtain rfl := (Prod.mk.inj hlog).2
  cases hplace

/-- Every run spares a place whose name is not that of an older log. -/
theorem spares_of_name {place : Place}
    (h : ∀ ending ∈ logEndings, isOldLog ending (place.getLast?.getD []) = false) (l : Launch)
    (fs : Files) : l.Spares fs place := by
  rintro invocation host - log - ⟨ending, hending, name, hname, rfl⟩
  have hother := h ending hending
  rw [List.getLast?_concat, Option.getD_some, hname] at hother
  cases hother

end Launch

/-! ### One run -/

/-- On a database that was opened at a place, a run does what the step of its command does, and
keeps what comes of it. -/
theorem runOn_of_opened [Engine] {host : Host} {cwd : String} {config : Config} {clock : Clock}
    {command : Command} {place : Place} {opened : Database} {events : List Event} {fs : Files}
    (hopen : host.files.openDatabase (Path.parts (Text.bytes cwd)) config.dbPath =
      (.ok (opened, ⟨some place, none⟩), events, fs))
    (hdirectories : fs.directories = host.files.directories) (hplace : place ≠ [])
    (hversion : opened.version = 1) (hspares : host.Spares place) :
    let taken := (command.step clock).take Tables.repository ⟨opened.tables, clock.managed⟩
    let ran := runOn host cwd config clock command
    ran.1 = command.report clock taken.outcome ∧
      ran.2.files.content? place =
        some (.database { opened with tables := taken.session.store }) := by
  obtain ⟨hexit, hstore⟩ := conclude_perform clock command opened.tables
  intro taken ran
  let reply := perform Tables.repository clock command opened.tables
  let after : Database := { opened with tables := taken.session.store }
  -- the log goes on in the tree with the database opened, and in the one with the database kept
  let logging : Host := Host.emit { host with files := fs } events
  let kept : Host := { logging with files := logging.files.keep ⟨some place, none⟩ after }
  have hran : ran = ((conclude command reply.result).1,
      kept.emit (reply.events ++ [(conclude command reply.result).2])) := by
    simp only [ran, runOn, hopen, repositoryOf, Option.elim_none, kept, after, taken, ← hstore]
    rfl
  have hkept : kept.Spares place :=
    hspares.congr (Host.log_emit _ _) ((Files.directories_keep _ _ _).trans
      ((Host.directories_emit _ _).trans hdirectories))
  rw [hran]
  exact ⟨hexit, Host.content?_emit hkept (Files.content?_keep hplace hversion) _⟩

/-- **One run** on a place that it reaches and spares is the step of its command on the tables that
are held there, and leaves them in a database of the latest version. -/
theorem Launch.run_of_reaches [Engine] {l : Launch} {fs : Files} {place : Place}
    (hreaches : l.Reaches fs place) (hspares : l.Spares fs place) {db : Database}
    (hfound : fs.found place = .ok db) (hdb : db.UpToDate) :
    ∃ command opened, l.command? = some command ∧
      opened.version = 1 ∧ (db.version = 1 → opened = db) ∧
        let taken := (command.step l.clock).take Tables.repository ⟨db.tables, l.clock.managed⟩
        (l.run fs).1 = command.report l.clock taken.outcome ∧
          (l.run fs).2.content? place =
            some (.database { opened with tables := taken.session.store }) := by
  obtain ⟨invocation, host, hstarts, hordinary, hplace, hclear⟩ := hreaches
  have hhost := hspares invocation host hstarts
  obtain ⟨opened, events, fs', hopen, hdirectories, -, hversion, htables, hsame⟩ :=
    Files.openDatabase_of_clear hordinary hplace hclear
      ((found_of_starts hstarts hhost).trans hfound) hdb
  have hrun := @runOn_of_opened _ host l.cwd (l.config invocation) l.clock invocation.command place
    opened events fs' hopen hdirectories hclear.ne_nil hversion hhost
  rw [htables] at hrun
  refine ⟨invocation.command, opened, command?_of_starts hstarts, hversion, hsame, ?_⟩
  rw [run_of_starts hstarts]
  exact hrun

/-! ### Runs one after the other -/

/-- Runs the program again and again. Answers how the runs end and the files afterwards. -/
def runAll [Engine] (fs : Files) : List Launch → List Exit × Files
  | [] => ([], fs)
  | l :: ls => ((l.run fs).1 :: (runAll (l.run fs).2 ls).1, (runAll (l.run fs).2 ls).2)

/-- A condition holds **throughout** runs if it holds of each of them on the tree that the runs
before have left. -/
def Throughout [Engine] (P : Launch → Files → Prop) (fs : Files) : List Launch → Prop
  | [] => True
  | l :: ls => P l fs ∧ Throughout P (l.run fs).2 ls

/-- What is told of the outcomes of a session that took the steps of runs. The first outcome of each
run is that of setting the clock. -/
def reports : List Launch → List Outcome → List Exit
  | l :: ls, _ :: outcome :: outcomes =>
    l.command?.toList.map (fun command => command.report l.clock outcome) ++ reports ls outcomes
  | _, _ => []

theorem runAll_append [Engine] (fs : Files) (before later : List Launch) :
    (runAll fs (before ++ later)).2 = (runAll (runAll fs before).2 later).2 := by
  induction before generalizing fs with
  | nil => rfl
  | cons l before ih => exact ih (l.run fs).2

theorem throughout_append [Engine] {P : Launch → Files → Prop} {fs : Files}
    {before later : List Launch} :
    Throughout P fs (before ++ later) ↔
      Throughout P fs before ∧ Throughout P (runAll fs before).2 later := by
  induction before generalizing fs with
  | nil => simp [Throughout, runAll]
  | cons l before ih => exact (and_congr_right fun _ => ih).trans and_assoc.symm

/-- **The run lemma.** Runs that reach and spare a place end as one session on the tables that are
held there does, and leave its tables there. -/
theorem runAll_eq_session [Engine] {fs : Files} {place : Place} {s : Tables}
    {launches : List Launch} (holds : fs.Holds place s)
    (reaches : Throughout (fun l fs => l.Reaches fs place) fs launches)
    (spares : Throughout (fun l fs => l.Spares fs place) fs launches) (t : Instant) :
    (runAll fs launches).1 = reports launches
        (Session.run Tables.repository ⟨s, t⟩ (launches.flatMap Launch.steps)).1 ∧
      (runAll fs launches).2.Holds place
        (Session.storeAfter Tables.repository ⟨s, t⟩ (launches.flatMap Launch.steps)) := by
  induction launches generalizing fs s t with
  | nil => exact ⟨rfl, holds⟩
  | cons l launches ih =>
      obtain ⟨db, hfound, hdb, rfl⟩ := holds
      obtain ⟨command, opened, hcommand, hversion, -, hexit, hcontent⟩ :=
        l.run_of_reaches reaches.1 spares.1 hfound hdb
      let taken := (command.step l.clock).take Tables.repository ⟨db.tables, l.clock.managed⟩
      have hafter : (l.run fs).2.Holds place taken.session.store :=
        ⟨_, Files.found_of_content? hcontent, .inr hversion, rfl⟩
      obtain ⟨hexits, hheld⟩ := ih hafter reaches.2 spares.2 taken.session.clock
      have hsteps : (l :: launches).flatMap Launch.steps =
          .setClock l.clock.managed :: command.step l.clock ::
            launches.flatMap Launch.steps := by
        rw [List.flatMap_cons, Launch.steps, hcommand]
        rfl
      rw [hsteps]
      refine ⟨?_, hheld⟩
      simp only [runAll, hexit, hexits]
      simp only [Session.run, reports, hcommand]
      rfl

namespace Launch

variable {l : Launch} {fs : Files} {place : Place}

/-- A run that ends with exit code one leaves the tables that are held at a place. -/
theorem holds_of_code [Engine] (hreaches : l.Reaches fs place) (hspares : l.Spares fs place)
    {s : Tables} (holds : fs.Holds place s) (hcode : (l.run fs).1.code = 1) :
    (l.run fs).2.Holds place s := by
  obtain ⟨db, hfound, hdb, rfl⟩ := holds
  obtain ⟨command, opened, -, hversion, -, hexit, hcontent⟩ :=
    l.run_of_reaches hreaches hspares hfound hdb
  rw [hexit] at hcode
  refine ⟨_, Files.found_of_content? hcontent, .inr hversion, ?_⟩
  rw [session_of_code hcode]

/-- What a run changes of a database of the latest version are its tables only. -/
theorem content?_run [Engine] (hreaches : l.Reaches fs place) (hspares : l.Spares fs place)
    {db : Database} (hcontent : fs.content? place = some (.database db)) (hversion : db.version = 1)
    (t : Instant) :
    (l.run fs).2.content? place = some (.database
      { db with tables := Session.storeAfter Tables.repository ⟨db.tables, t⟩ l.steps }) := by
  obtain ⟨command, opened, hcommand, -, hsame, -, hafter⟩ :=
    l.run_of_reaches hreaches hspares (Files.found_of_content? hcontent) (.inr hversion)
  rw [hafter, hsame hversion, steps, hcommand]
  rfl

/-- A run leaves a database of the latest version. -/
theorem stands_run [Engine] (hreaches : l.Reaches fs place) (hspares : l.Spares fs place)
    {s : Tables} (holds : fs.Holds place s) :
    ∃ db, (l.run fs).2.content? place = some (.database db) ∧ db.version = 1 := by
  obtain ⟨db, hfound, hdb, rfl⟩ := holds
  obtain ⟨command, opened, -, hversion, -, -, hcontent⟩ :=
    l.run_of_reaches hreaches hspares hfound hdb
  exact ⟨_, hcontent, hversion⟩

/-- A run whose log cannot be set up ends with the error and leaves every file as it was. -/
theorem run_of_log_error [Engine] {invocation : Invocation} {host : Host} {e : LogError}
    (hread : Invocation.read l.words = .ok invocation)
    (hlog : setUpLog (.ofFiles fs) l.cwd (l.config invocation) = (.error e, host)) :
    (l.run fs).1 = .failed "failed to initialize logging" [e.message] ∧
      (l.run fs).2.files = fs.files := by
  have hfiles : host.files.files = fs.files := by
    have hset := hlog
    rw [setUpLog] at hset
    split at hset
    · cases hset
    · exact Host.files_setUpLog_of_error hset
  have hrun : l.run fs = (.failed "failed to initialize logging" [e.message], host.files) := by
    rw [config] at hlog
    rw [run, Cli.run, hread]
    simp only [hlog]
  rw [hrun]
  exact ⟨rfl, hfiles⟩

end Launch

/-- **Running commands in separate processes is unobservable.** Runs of the program that reach and
spare a place end as one session of a manager on the tables that are held there: each with the
report of the outcome of its call, and all of them with the tables of the session.

* What a run that is not the first changes of the database are the tables only, so opening it again
  and migrating it again changes nothing.
* A run that ends with exit code one leaves the tables as they were.
* A run whose log cannot be set up ends with exit code one, and every file is as it was. -/
theorem runs_are_one_session [Engine] {fs : Files} {place : Place} {s : Tables}
    {launches : List Launch} (holds : fs.Holds place s)
    (reaches : Throughout (fun l fs => l.Reaches fs place) fs launches)
    (spares : Throughout (fun l fs => l.Spares fs place) fs launches) (t : Instant) :
    ((runAll fs launches).1 = reports launches
        (Session.run Tables.repository ⟨s, t⟩ (launches.flatMap Launch.steps)).1 ∧
      (runAll fs launches).2.Holds place
        (Session.storeAfter Tables.repository ⟨s, t⟩ (launches.flatMap Launch.steps))) ∧
    (∀ before l later, launches = before ++ l :: later →
      (before ≠ [] → ∃ db, (runAll fs before).2.content? place = some (.database db) ∧
        (l.run (runAll fs before).2).2.content? place = some (.database
          { db with tables := Session.storeAfter Tables.repository ⟨db.tables, t⟩ l.steps })) ∧
      ((l.run (runAll fs before).2).1.code = 1 →
        ∀ s', (runAll fs before).2.Holds place s' →
          (l.run (runAll fs before).2).2.Holds place s')) ∧
    ∀ (l : Launch) (tree : Files) (invocation : Invocation) (e : LogError) (host : Host),
      Invocation.read l.words = .ok invocation →
      setUpLog (.ofFiles tree) l.cwd (l.config invocation) = (.error e, host) →
        (l.run tree).1 = .failed "failed to initialize logging" [e.message] ∧
          (l.run tree).1.code = 1 ∧ (l.run tree).2.files = tree.files := by
  refine ⟨runAll_eq_session holds reaches spares t, fun before l later hsplit => ?_,
    fun l tree invocation e host hread hlog => ?_⟩
  · subst hsplit
    obtain ⟨hreaches, hreach, -⟩ := throughout_append.mp reaches
    obtain ⟨hspares, hspare, -⟩ := throughout_append.mp spares
    refine ⟨fun hne => ?_, fun hcode s' hs' => Launch.holds_of_code hreach hspare hs' hcode⟩
    obtain rfl | ⟨earlier, last, rfl⟩ := before.eq_nil_or_concat
    · exact absurd rfl hne
    · -- the database stands at its place since the run before
      rw [List.concat_eq_append] at *
      obtain ⟨hreaches, hreached, -⟩ := throughout_append.mp hreaches
      obtain ⟨hspares, hspared, -⟩ := throughout_append.mp hspares
      have hheld := (runAll_eq_session holds hreaches hspares t).2
      obtain ⟨db, hcontent, hversion⟩ := Launch.stands_run hreached hspared hheld
      have hlast : (runAll fs (earlier ++ [last])).2 = (last.run (runAll fs earlier).2).2 :=
        runAll_append fs earlier [last]
      rw [← hlast] at hcontent
      exact ⟨db, hcontent, Launch.content?_run hreach hspare hcontent hversion t⟩
  · obtain ⟨hexit, hfiles⟩ := Launch.run_of_log_error hread hlog
    exact ⟨hexit, by rw [hexit]; rfl, hfiles⟩

/-! ### Runs in one directory -/

/-- The place of an absolute path. -/
def placeAt (path : String) : Place :=
  Path.parts (Text.bytes path)

/-- A directory with a directory for logs in it, and files. -/
def workplace (files : List (Place × FileContent)) : Files :=
  ⟨[placeAt "/w", placeAt "/w/logs"], files⟩

/-- A run in this directory at some time, with some variables set. -/
def Launch.atWork (settings : List (String × String)) (words : List String) (now : Instant) :
    Launch :=
  ⟨"/w", fun name => settings.lookup name, words, now⟩

/-- The host of a run in this directory that has set up its log. -/
def loggingHost (files : List (Place × FileContent)) : Host :=
  ⟨workplace files, some ⟨.debug, "/w/logs"⟩, true, [(Event.logStarted .debug "/w/logs").line]⟩

/-- A log is set up in the directory for logs. The files are those that clearing the older logs has
left. -/
theorem setUpLog_workplace {files kept : List (Place × FileContent)}
    (hclear : ((workplace files).touch (placeAt "/w/logs/tasky_rCURRENT.log")).clearLogs
      (placeAt "/w/logs") = workplace kept) :
    (Host.ofFiles (workplace files)).setUpLog "debug" "/w/logs" = (.ok (), loggingHost kept) := by
  have hstart : Host.startLog ⟨.debug, "/w/logs"⟩ (workplace files) =
      (.ok (), workplace files) := by
    have hmake : (workplace files).makePath (Text.bytes "/w/logs") = (.ok (), workplace files) := by
      show (workplace files).makeDirectories _ = _
      rw [Files.makeDirectories]
      rfl
    rw [Host.startLog]
    simp only [hmake]
  have hread : LogConfig.read "debug" "/w/logs" = .ok ⟨.debug, "/w/logs"⟩ := rfl
  have hplace : Host.logPlace? ⟨workplace files, some ⟨.debug, "/w/logs"⟩, false, []⟩ =
      some (placeAt "/w/logs/tasky_rCURRENT.log") := rfl
  have hdrop : (placeAt "/w/logs/tasky_rCURRENT.log").dropLast = placeAt "/w/logs" := rfl
  have hopen : Host.openLog ⟨workplace files, some ⟨.debug, "/w/logs"⟩, false, []⟩
      ⟨.debug, "/w/logs"⟩ (placeAt "/w/logs/tasky_rCURRENT.log") =
        { loggingHost kept with pending := [] } := by
    have hfree : ¬(false = true ∨
        (workplace []).isDirectory (placeAt "/w/logs/tasky_rCURRENT.log") = true ∨
        Path.maxLength < (Path.join "/w/logs" logFileName).utf8ByteSize) := by decide
    rw [Host.openLog]
    refine (if_neg hfree).trans ?_
    rw [hdrop, hclear]
    rfl
  rw [Host.setUpLog, LogConfig.setUp, hread]
  simp only [Host.ofFiles, hstart]
  rw [Host.emit]
  simp only [hplace, hopen]
  rfl

/-- The database of a task book with one task. -/
def bookOf (title : String) : Database :=
  let t : Task := { id := some 1, title := title, createdOn := ⟨5⟩ }
  { Database.new.migrated with
    tables := { tasks := ⟨[.ofCells 1 t.cells], List.pairwise_singleton _ _⟩, recurring := [] } }

/-- A task is added. -/
def addingRun : Launch := .atWork [] ["add", "a"] ⟨5⟩

/-- A task that does not exist is to be done, which is told to the log. -/
def failingRun : Launch := .atWork [("TASKY_LOG_DIR", "logs")] ["done", "7"] ⟨6⟩

/-- The task that was added is done. -/
def doingRun : Launch := .atWork [] ["done", "1"] ⟨7⟩

/-- A run that does not know the level of its log. -/
def loudRun : Launch :=
  .atWork [("TASKY_LOG_DIR", "logs"), ("TASKY_LOG_LEVEL", "loud")] ["list"] ⟨8⟩

/-- The file of a database with this task. -/
def bookEntry : Place × FileContent := (placeAt "/w/tasky.db", .database (bookOf "a"))

/-- The file of a log that is not written yet. -/
def logEntry : Place × FileContent := (placeAt "/w/logs/tasky_rCURRENT.log", .text "")

theorem starts_failingRun :
    failingRun.Starts (workplace [bookEntry]) ⟨none, .done 7⟩
      (loggingHost [bookEntry, logEntry]) := by
  have hold : ((workplace [bookEntry]).touch (placeAt "/w/logs/tasky_rCURRENT.log")).oldLogs
      (placeAt "/w/logs") = [] := by
    simp only [Files.oldLogs, logEndings, List.flatMap_cons, List.flatMap_nil]
    rw [List.mergeSort_of_pairwise (by decide), List.mergeSort_of_pairwise (by decide)]
    rfl
  refine ⟨rfl, setUpLog_workplace ?_⟩
  rw [Files.clearLogs, hold]
  rfl

theorem run_addingRun [Engine] : (addingRun.run (workplace [])).2 = workplace [bookEntry] := rfl

theorem run_failingRun :
    let _ : Engine := .scanning
    (failingRun.run (workplace [bookEntry])).2 = workplace [bookEntry, logEntry] := by
  intro _
  rw [Launch.run_of_starts starts_failingRun]
  decide

/-- The three runs reach a database of their own and spare it, so they are one session. The second
one finds the database of the first one and leaves its tables as they were, and a run without its
log is told apart by its exit code. -/
theorem runs_are_one_session_threeRuns :
    let _ : Engine := .scanning
    (runAll (workplace []) [addingRun, failingRun, doingRun]).1 =
        reports [addingRun, failingRun, doingRun]
          (Session.run Tables.repository ⟨Database.new.tables, ⟨0⟩⟩
            ([addingRun, failingRun, doingRun].flatMap Launch.steps)).1 ∧
      (runAll (workplace []) [addingRun, failingRun, doingRun]).2.Holds (placeAt "/w/tasky.db")
        (Session.storeAfter Tables.repository ⟨Database.new.tables, ⟨0⟩⟩
          ([addingRun, failingRun, doingRun].flatMap Launch.steps)) ∧
      (∃ db s, (workplace [bookEntry]).content? (placeAt "/w/tasky.db") = some (.database db) ∧
        (failingRun.run (workplace [bookEntry])).2.content? (placeAt "/w/tasky.db") =
          some (.database { db with tables := s })) ∧
      (failingRun.run (workplace [bookEntry])).2.Holds (placeAt "/w/tasky.db") (bookOf "a").tables ∧
      (loudRun.run (workplace [])).1.code = 1 ∧ (loudRun.run (workplace [])).2.files = [] := by
  intro _
  have hordinary : Address.Ordinary "tasky.db" := ⟨by decide, by decide, by decide, by decide⟩
  have hfree : (workplace []).Clear (placeAt "/w/tasky.db") := ⟨rfl, by decide, rfl⟩
  have hclear (files : List (Place × FileContent)) :
      (workplace files).Clear (placeAt "/w/tasky.db") := hfree.congr rfl
  have hspared := @Launch.spares_of_name (placeAt "/w/tasky.db") (by decide) failingRun
  have hadding : addingRun.Reaches (workplace []) (placeAt "/w/tasky.db") :=
    ⟨⟨none, .add "a" none⟩, _, Launch.starts_of_silent rfl rfl _, hordinary, rfl, hclear _⟩
  have hfailing : failingRun.Reaches (workplace [bookEntry]) (placeAt "/w/tasky.db") :=
    ⟨⟨none, .done 7⟩, _, starts_failingRun, hordinary, rfl, hclear _⟩
  have hdoing : doingRun.Reaches (workplace [bookEntry, logEntry]) (placeAt "/w/tasky.db") :=
    ⟨⟨none, .done 1⟩, _, Launch.starts_of_silent rfl rfl _, hordinary, rfl, hclear _⟩
  have hreaches : Throughout (fun l fs => l.Reaches fs (placeAt "/w/tasky.db")) (workplace [])
      [addingRun, failingRun, doingRun] := by
    simp only [Throughout, run_addingRun, run_failingRun, and_true]
    exact ⟨hadding, hfailing, hdoing⟩
  obtain ⟨⟨hexits, hheld⟩, hlater, hunlogged⟩ := runs_are_one_session
    ⟨.new, rfl, .inl rfl, rfl⟩ hreaches ⟨Launch.spares_of_silent (fun _ => rfl) _ _, hspared _,
      Launch.spares_of_silent (fun _ => rfl) _ _, trivial⟩ ⟨0⟩
  obtain ⟨hopened, hfailed⟩ := hlater [addingRun] failingRun [doingRun] rfl
  obtain ⟨db, hstands, hleft⟩ := hopened (by simp)
  have hadded : (runAll (workplace []) [addingRun]).2 = workplace [bookEntry] := run_addingRun
  rw [hadded] at hstands hleft hfailed
  have hcode : (failingRun.run (workplace [bookEntry])).1.code = 1 := by
    rw [Launch.run_of_starts starts_failingRun]
    rfl
  obtain ⟨-, hloud, hfiles⟩ := hunlogged loudRun (workplace []) ⟨none, .list false⟩ _ _ rfl rfl
  exact ⟨hexits, hheld, ⟨db, _, hstands, hleft⟩, hfailed hcode _ ⟨bookOf "a", rfl, .inr rfl, rfl⟩,
    hloud, hfiles⟩

/-- The databases of four task books, which have the names of older logs. -/
def crowdedFiles : List (Place × FileContent) :=
  ["3", "2", "1", "0"].map fun number =>
    (placeAt ("/w/logs/tasky_r0000" ++ number ++ ".log"), .database (bookOf ("t" ++ number)))

/-- One more task is added to the book whose name is the least. -/
def againRun : Launch :=
  .atWork [("TASKY_LOG_DIR", "logs")] ["add", "again", "--db", "logs/tasky_r00000.log"] ⟨6⟩

theorem starts_againRun :
    againRun.Starts (workplace crowdedFiles) ⟨some "logs/tasky_r00000.log", .add "again" none⟩
      (loggingHost (crowdedFiles.dropLast ++ [logEntry])) := by
  have hold : ((workplace crowdedFiles).touch (placeAt "/w/logs/tasky_rCURRENT.log")).oldLogs
      (placeAt "/w/logs") = crowdedFiles.map Prod.fst := by
    simp only [Files.oldLogs, logEndings, List.flatMap_cons, List.flatMap_nil]
    rw [List.mergeSort_of_pairwise (by decide), List.mergeSort_of_pairwise (by decide)]
    rfl
  refine ⟨rfl, setUpLog_workplace ?_⟩
  rw [Files.clearLogs, hold]
  rfl

/-- A run whose path leads through the place of its own database. -/
def windingRun : Launch := .atWork [] ["add", "a", "--db", "tasky.db/x/../../tasky.db"] ⟨5⟩

/-- **A database that is cleared as an older log** is missed: the run reaches a database with a task
in it, and gives the new task the number of the first one. And **a path that leads through the
database** is a way to it only as long as there is none: the first run reaches the place, and the
second one does not open what the first one has left. -/
theorem separate_runs_can_be_told :
    let _ : Engine := .scanning
    ((workplace crowdedFiles).Holds (placeAt "/w/logs/tasky_r00000.log") (bookOf "t0").tables ∧
      againRun.Reaches (workplace crowdedFiles) (placeAt "/w/logs/tasky_r00000.log") ∧
      (runAll (workplace crowdedFiles) [againRun]).1 ≠ reports [againRun]
        (Session.run Tables.repository ⟨(bookOf "t0").tables, ⟨0⟩⟩
          ([againRun].flatMap Launch.steps)).1) ∧
    (workplace []).Holds (placeAt "/w/tasky.db") Database.new.tables ∧
      windingRun.Reaches (workplace []) (placeAt "/w/tasky.db") ∧
      (runAll (workplace []) [windingRun, windingRun]).1 ≠ reports [windingRun, windingRun]
        (Session.run Tables.repository ⟨Database.new.tables, ⟨0⟩⟩
          ([windingRun, windingRun].flatMap Launch.steps)).1 := by
  intro _
  have hreaches : againRun.Reaches (workplace crowdedFiles) (placeAt "/w/logs/tasky_r00000.log") :=
    ⟨_, _, starts_againRun, ⟨by decide, by decide, by decide, by decide⟩, rfl,
      ⟨rfl, by decide, rfl⟩⟩
  have hran : (againRun.run (workplace crowdedFiles)).1 =
      ⟨0, "created #1 [normal] again\n", ""⟩ := by
    rw [Launch.run_of_starts starts_againRun]
    decide +kernel
  have hsession : reports [againRun] (Session.run Tables.repository
      ⟨(bookOf "t0").tables, ⟨0⟩⟩ ([againRun].flatMap Launch.steps)).1 =
        [⟨0, "created #2 [normal] again\n", ""⟩] := by
    decide +kernel
  have hwinding : windingRun.Reaches (workplace []) (placeAt "/w/tasky.db") :=
    ⟨⟨some "tasky.db/x/../../tasky.db", .add "a" none⟩, _, Launch.starts_of_silent rfl rfl _,
      ⟨by decide, by decide, by decide, by decide⟩, rfl, ⟨rfl, by decide, rfl⟩⟩
  have hcodes : (runAll (workplace []) [windingRun, windingRun]).1.map Exit.code = [0, 1] := rfl
  have hsession' : (reports [windingRun, windingRun] (Session.run Tables.repository
      ⟨Database.new.tables, ⟨0⟩⟩ ([windingRun, windingRun].flatMap Launch.steps)).1).map
        Exit.code = [0, 0] := by
    decide +kernel
  refine ⟨⟨⟨bookOf "t0", rfl, .inr rfl, rfl⟩, hreaches, ?_⟩, ⟨.new, rfl, .inl rfl, rfl⟩, hwinding,
    fun heq => ?_⟩
  · rw [hsession, runAll, hran]
    decide
  · rw [heq, hsession'] at hcodes
    cases hcodes

end Taskbook.Cli
