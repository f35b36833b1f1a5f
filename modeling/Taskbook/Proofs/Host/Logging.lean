import Taskbook.Proofs.Host.Trees
import Taskbook.Proofs.Results

/-!
# A Log beside a Database

A host that logs creates directories, creates the file of its log, deletes older logs in the same
directory, and makes the file longer. None of this touches a database that stands somewhere else,
and not even one that stands in the place of the log file: it is never made longer. What can happen
to a database is that it is taken for an older log, and so the theory asks of a log that it *spares*
the place of the database: the database is not named like an older log in the directory of the log.

## Main results

* `Host.content?_emit`: **a database outlives the events of a run** that spares it;
* `Host.found_setUpLog`: **setting up a log** that spares a place leaves the database that is found
  there;
* `Host.files_setUpLog_of_error`: **a log that cannot be set up** leaves every file as it was.
-/

namespace Taskbook

/-- A place is that of an **older log** in a directory: it is named like one. -/
def Place.IsOldLog (place here : Place) : Prop :=
  ∃ ending ∈ logEndings, ∃ name, isOldLog ending name = true ∧ place = here ++ [name]

/-- The log of a host **spares** a place that is not that of an older log in its directory. -/
def Host.Spares (host : Host) (place : Place) : Prop :=
  ∀ log, host.logPlace? = some log → ¬ place.IsOldLog log.dropLast

namespace Files

variable {fs : Files} {place here : Place}

/-- Only older logs are cleared. -/
theorem isOldLog_of_mem_oldLogs (h : place ∈ fs.oldLogs here) : place.IsOldLog here := by
  simp only [oldLogs, List.mem_flatMap, List.mem_map, List.mem_mergeSort, List.mem_filter] at h
  obtain ⟨ending, hending, name, ⟨-, hname⟩, rfl⟩ := h
  exact ⟨ending, hending, name, hname, rfl⟩

/-- What is no older log is not cleared. -/
theorem content?_clearLogs (h : ¬ place.IsOldLog here) :
    (fs.clearLogs here).content? place = fs.content? place := by
  have hremove (places : List Place) (hplaces : place ∉ places) (fs : Files) :
      (places.foldl remove fs).content? place = fs.content? place := by
    induction places generalizing fs with
    | nil => rfl
    | cons q places ih =>
        obtain ⟨hq, hplaces⟩ := not_or.mp (mt List.mem_cons.mpr hplaces)
        rw [List.foldl_cons, ih hplaces, content?_remove, if_neg hq]
  exact hremove _ (fun hmem => h (isOldLog_of_mem_oldLogs (List.mem_of_mem_drop hmem))) fs

end Files

namespace Host

variable {host : Host} {place : Place}

/-! ### What a log leaves alone -/

theorem logPlace?_congr {host' : Host} (hlog : host'.log = host.log)
    (hdirectories : host'.files.directories = host.files.directories) :
    host'.logPlace? = host.logPlace? := by
  rw [logPlace?, logPlace?, hlog]
  cases host.log with
  | none => rfl
  | some config => exact Files.logPlace?_congr hdirectories config.directory

@[simp] theorem log_flush (host : Host) : host.flush.log = host.log := by
  rw [flush]
  split
  · split <;> rfl
  · rfl

@[simp] theorem directories_flush (host : Host) :
    host.flush.files.directories = host.files.directories := by
  rw [flush]
  split
  · split
    · rfl
    · exact Files.directories_append _ _ _
  · rfl

@[simp] theorem log_collect (host : Host) (line : String) : (host.collect line).log = host.log := by
  simp only [collect]
  split <;> split <;> simp

@[simp] theorem directories_collect (host : Host) (line : String) :
    (host.collect line).files.directories = host.files.directories := by
  simp only [collect]
  split <;> split <;> simp

@[simp] theorem log_openLog (host : Host) (config : LogConfig) (log : Place) :
    (host.openLog config log).log = host.log := by
  simp only [openLog]
  split <;> rfl

@[simp] theorem directories_openLog (host : Host) (config : LogConfig) (log : Place) :
    (host.openLog config log).files.directories = host.files.directories := by
  simp only [openLog]
  split
  · rfl
  · rw [Files.directories_clearLogs, Files.directories_touch]

/-- What events do to a host: nothing, or the file of the log is opened and some of their lines are
collected. -/
theorem emit_cases (host : Host) (events : List Event) :
    host.emit events = host ∨
      ∃ config log, host.logPlace? = some log ∧
        ∃ lines : List String, lines.Sublist (events.map Event.line) ∧
          host.emit events = lines.foldl collect (host.openLog config log) := by
  rw [emit]
  split
  · next config log hlog hplace =>
    dsimp only
    split
    · exact .inl rfl
    · refine .inr ⟨config, log, hplace, ?_⟩
      split
      · exact ⟨_, (List.filter_sublist).map _, rfl⟩
      · exact ⟨[], List.nil_sublist _, rfl⟩
  · exact .inl rfl

theorem log_foldl_collect (lines : List String) (host : Host) :
    (lines.foldl collect host).log = host.log := by
  induction lines generalizing host with
  | nil => rfl
  | cons line lines ih => rw [List.foldl_cons, ih, log_collect]

theorem directories_foldl_collect (lines : List String) (host : Host) :
    (lines.foldl collect host).files.directories = host.files.directories := by
  induction lines generalizing host with
  | nil => rfl
  | cons line lines ih => rw [List.foldl_cons, ih, directories_collect]

@[simp] theorem log_emit (host : Host) (events : List Event) :
    (host.emit events).log = host.log := by
  obtain h | ⟨config, log, -, lines, -, h⟩ := host.emit_cases events
  · rw [h]
  · rw [h, log_foldl_collect, log_openLog]

@[simp] theorem directories_emit (host : Host) (events : List Event) :
    (host.emit events).files.directories = host.files.directories := by
  obtain h | ⟨config, log, -, lines, -, h⟩ := host.emit_cases events
  · rw [h]
  · rw [h, directories_foldl_collect, directories_openLog]

/-! ### A database outlives events -/

variable {db : Database}

theorem content?_flush (h : host.files.content? place = some (.database db)) :
    host.flush.files.content? place = some (.database db) := by
  rw [flush]
  split
  · split
    · exact h
    · exact Files.content?_append h _ _
  · exact h

theorem content?_collect (h : host.files.content? place = some (.database db)) (line : String) :
    (host.collect line).files.content? place = some (.database db) := by
  simp only [collect]
  split <;> split <;> first | exact content?_flush (content?_flush h) | exact content?_flush h |
    exact h

/-- Opening the file of a log leaves the database that is found at a place that is spared. -/
theorem found_openLog (host : Host) (config : LogConfig) {log : Place}
    (hspares : ¬ place.IsOldLog log.dropLast) :
    (host.openLog config log).files.found place = host.files.found place := by
  simp only [openLog]
  split
  · rfl
  · rw [Files.found_congr (Files.content?_clearLogs hspares), Files.found_touch]

theorem content?_openLog {config : LogConfig} {log : Place}
    (hspares : ¬ place.IsOldLog log.dropLast)
    (h : host.files.content? place = some (.database db)) :
    (host.openLog config log).files.content? place = some (.database db) := by
  simp only [openLog]
  split
  · exact h
  · rw [Files.content?_clearLogs hspares, Files.content?_touch]
    split
    · next hlog => rw [← hlog, h, Option.getD_some]
    · exact h

/-- **A database outlives the events** of a host whose log spares it. -/
theorem content?_emit (hspares : host.Spares place)
    (h : host.files.content? place = some (.database db)) (events : List Event) :
    (host.emit events).files.content? place = some (.database db) := by
  obtain hemit | ⟨config, log, hlog, lines, -, hemit⟩ := host.emit_cases events
  · rwa [hemit]
  · have hcollect (lines : List String) (host : Host)
        (h : host.files.content? place = some (.database db)) :
        (lines.foldl collect host).files.content? place = some (.database db) := by
      induction lines generalizing host with
      | nil => exact h
      | cons line lines ih => exact ih _ (content?_collect h line)
    rw [hemit]
    exact hcollect lines _ (content?_openLog (hspares log hlog) h)

/-- The log of a host spares what it has spared, as long as it and the directories stay. -/
theorem Spares.congr {host' : Host} (h : host.Spares place) (hlog : host'.log = host.log)
    (hdirectories : host'.files.directories = host.files.directories) : host'.Spares place :=
  fun log hplace => h log (logPlace?_congr hlog hdirectories ▸ hplace)

/-! ### Setting up a log -/

/-- A line for which there is room is not written yet. -/
theorem files_collect {line : String} (hpending : host.pending = [])
    (hline : lineLength line < maxPending) : (host.collect line).files = host.files := by
  simp only [collect, hpending, List.foldl_nil, Nat.zero_add,
    if_neg (Nat.not_lt.mpr (Nat.le_of_lt hline)), if_neg (Nat.not_le.mpr hline)]

theorem pending_openLog (host : Host) (config : LogConfig) (log : Place) :
    (host.openLog config log).pending = host.pending := by
  simp only [openLog]
  split <;> rfl

end Host

/-- A text has as many bytes as its size says. -/
theorem Text.length_bytes (s : String) : (Text.bytes s).length = s.utf8ByteSize := by
  rw [bytes, Array.length_toList]
  rfl

/-- How long the first line of a log is. -/
theorem Event.utf8ByteSize_logStarted (level : Level) (directory : String) :
    (Event.logStarted level directory).line.utf8ByteSize =
      level.name.utf8ByteSize + directory.utf8ByteSize + 75 := by
  have hstart : "event=core_init module=logging status=ok level=".utf8ByteSize = 47 := by decide
  have hpieces : "INFO".utf8ByteSize = 4 ∧ " ".utf8ByteSize = 1 ∧ " log_dir=".utf8ByteSize = 9 ∧
      " version=".utf8ByteSize = 9 ∧ programVersion.utf8ByteSize = 5 := by decide
  obtain ⟨hinfo, hblank, hmid, hend, hversion⟩ := hpieces
  have hline : (Event.logStarted level directory).line =
      "INFO" ++ " " ++ ("event=core_init module=logging status=ok level=" ++ level.name ++
        " log_dir=" ++ directory ++ " version=" ++ programVersion) := rfl
  rw [hline]
  simp only [String.utf8ByteSize_append, hinfo, hblank, hstart, hmid, hend, hversion]
  omega

/-- The first line of a log finds room if the path of its directory can be followed. -/
theorem Event.lineLength_logStarted {level : Level} {directory : String}
    (h : (Text.bytes directory).length ≤ Path.maxLength) :
    lineLength (Event.logStarted level directory).line < maxPending := by
  have hname : level.name.utf8ByteSize ≤ 5 := by
    cases level <;> decide
  have hhead : lineHead = 96 := rfl
  have hroom : maxPending = 8192 := rfl
  have hlongest : Path.maxLength = 4095 := rfl
  rw [Text.length_bytes] at h
  rw [lineLength, Event.utf8ByteSize_logStarted]
  omega

namespace Files

theorem files_makeDirectory {fs fs' : Files} {steps : List FileName}
    (h : fs.makeDirectory steps = .ok fs') : fs'.files = fs.files := by
  rw [makeDirectory] at h
  obtain ⟨here, -, h⟩ := Except.bind_eq_ok_iff.mp h
  dsimp only at h
  repeat' split at h
  all_goals cases h
  rfl

/-- Creating directories changes no file. -/
theorem files_makeDirectories (fs : Files) (steps : List FileName) :
    (fs.makeDirectories steps).2.files = fs.files := by
  fun_induction makeDirectories fs steps with
  | case1 steps fs' hmake => exact files_makeDirectory hmake
  | case2 => rfl
  | case3 steps _ _ obstacle fs' hparent ih => rwa [hparent] at ih
  | case4 steps _ _ fs' hparent fs'' hmake ih =>
      rw [hparent] at ih
      exact (files_makeDirectory hmake).trans ih
  | case5 steps _ _ fs' hparent obstacle _ ih => rwa [hparent] at ih
  | case6 => rfl

theorem files_makePath (fs : Files) (path : List UInt8) :
    (fs.makePath path).2.files = fs.files := by
  rw [makePath]
  split
  · rfl
  · split
    · rfl
    · exact files_makeDirectories fs _

/-- The directories of a path are created only if the path can be followed. -/
theorem length_of_makePath {fs fs' : Files} {path : List UInt8}
    (h : fs.makePath path = (.ok (), fs')) : path.length ≤ Path.maxLength := by
  rw [makePath] at h
  split at h
  · cases h
  · split at h
    · cases h
    · next hlength => exact Nat.not_lt.mp hlength

end Files

namespace Host

/-- Starting a log changes no file, and the path of its directory can be followed. -/
theorem startLog_cases (config : LogConfig) (fs : Files) :
    (startLog config fs).2.files = fs.files ∧
      ((startLog config fs).1 = .ok () →
        (Text.bytes config.directory).length ≤ Path.maxLength) := by
  have hfiles := fs.files_makePath (Text.bytes config.directory)
  rw [startLog]
  rcases hmake : fs.makePath (Text.bytes config.directory) with ⟨result, fs'⟩
  rw [hmake] at hfiles
  cases result with
  | error obstacle => exact ⟨hfiles, fun h => nomatch h⟩
  | ok u => exact ⟨hfiles, fun _ => Files.length_of_makePath hmake⟩

/-- What setting up a log on a host without one comes to: nothing is changed but directories, or the
log that is active then is told that it has started. -/
theorem setUpLog_cases (fs : Files) (level directory : String) :
    ∃ fs' : Files, fs'.files = fs.files ∧
      ((∃ e, (ofFiles fs).setUpLog level directory = (.error e, ofFiles fs')) ∨
        ∃ config, (Text.bytes config.directory).length ≤ Path.maxLength ∧
          (ofFiles fs).setUpLog level directory =
            (.ok (), emit ⟨fs', some config, false, []⟩
              [.logStarted config.level config.directory])) := by
  rw [setUpLog, LogConfig.setUp]
  cases hread : LogConfig.read level directory with
  | error e => exact ⟨fs, rfl, .inl ⟨e, rfl⟩⟩
  | ok requested =>
      obtain ⟨hfiles, hlength⟩ := startLog_cases requested fs
      rcases hstart : startLog requested fs with ⟨result, fs'⟩
      rw [hstart] at hfiles hlength
      refine ⟨fs', hfiles, ?_⟩
      cases result with
      | error e => exact .inl ⟨e, by simp only [ofFiles, hstart]⟩
      | ok u => exact .inr ⟨requested, hlength rfl, by simp only [ofFiles, hstart]⟩

/-- **A log that is set up** leaves the database that is found at a place which it spares. -/
theorem found_setUpLog {fs : Files} {level directory : String} {host : Host} {place : Place}
    (h : (ofFiles fs).setUpLog level directory = (.ok (), host)) (hspares : host.Spares place) :
    host.files.found place = fs.found place := by
  obtain ⟨fs', hfiles, ⟨e, herror⟩ | ⟨config, hlength, hok⟩⟩ := setUpLog_cases fs level directory
  · cases herror.symm.trans h
  · obtain rfl := (Prod.mk.inj (h.symm.trans hok)).2
    have hfound : fs'.found place = fs.found place := by
      refine Files.found_congr ?_
      rw [Files.content?, Files.content?, hfiles]
    have hstarted : (Host.mk fs' (some config) false []).Spares place :=
      hspares.congr (log_emit _ _).symm (directories_emit _ _).symm
    obtain hemit | ⟨config', log, hlog, lines, hlines, hemit⟩ :=
      emit_cases ⟨fs', some config, false, []⟩ [.logStarted config.level config.directory]
    · rw [hemit]
      exact hfound
    · have hopen := found_openLog ⟨fs', some config, false, []⟩ config' (hstarted log hlog)
      have hpending := pending_openLog ⟨fs', some config, false, []⟩ config' log
      rw [hemit]
      -- only one line can have been collected, and it is not written yet
      rcases List.sublist_singleton.mp hlines with rfl | rfl
      · exact hopen.trans hfound
      · rw [List.foldl_cons, List.foldl_nil,
          files_collect hpending (Event.lineLength_logStarted hlength)]
        exact hopen.trans hfound

/-- **A log that cannot be set up** leaves every file as it was. -/
theorem files_setUpLog_of_error {fs : Files} {level directory : String} {host : Host}
    {e : LogError} (h : (ofFiles fs).setUpLog level directory = (.error e, host)) :
    host.files.files = fs.files := by
  obtain ⟨fs', hfiles, ⟨e', herror⟩ | ⟨config, -, hok⟩⟩ := setUpLog_cases fs level directory
  · obtain rfl := (Prod.mk.inj (h.symm.trans herror)).2
    exact hfiles
  · cases h.symm.trans hok

end Host

end Taskbook
