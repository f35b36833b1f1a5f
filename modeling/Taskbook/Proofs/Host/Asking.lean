import Taskbook.Proofs.Host.Logging
import Taskbook.Proofs.Log.Once

/-!
# Asking a Host for a Log

A host runs the errands of a log in its own file tree, where directories are created and a backend
always starts. Between two requests anything may happen to the host: events are written, its log is
flushed, other programs change its files. Only a request can change which log is active, and so the
log of a host is the one of a process to which the same requests are made.

## Main results

* `Host.startLog_eq`: a host starts a log **by running its errands**;
* `Host.setUpLog_of_active`: a request **changes nothing** about a host whose log is active;
* `Host.Life.log_eq`, `Host.Life.answer_eq`: throughout its life **the log of a host** and its
  answers are those of a process to which the same requests were made.
-/

namespace Taskbook

/-- Runs an errand of a log in a file tree. -/
def Files.runErrand : Errand → Files → Except String Unit × Files
  | .createDirectory path, fs =>
    ((fs.makePath (Text.bytes path)).1.mapError DirectoryObstacle.message,
      (fs.makePath (Text.bytes path)).2)
  | .startBackend _, fs => (.ok (), fs)

/-- What comes of setting up a log depends on the answers of its start only. -/
theorem LogConfig.setUp_congr {σ τ : Type} {start : LogConfig → σ → Except LogError Unit × σ}
    {start' : LogConfig → τ → Except LogError Unit × τ} {s : σ} {s' : τ}
    (h : ∀ config, (start config s).1 = (start' config s').1) (active : Option LogConfig)
    (level directory : String) :
    (setUp start active level directory s).1 = (setUp start' active level directory s').1 ∧
      (setUp start active level directory s).2.1 = (setUp start' active level directory s').2.1 := by
  rw [setUp, setUp]
  cases LogConfig.read level directory with
  | error e => exact ⟨rfl, rfl⟩
  | ok requested =>
      cases active with
      | some config => exact ⟨rfl, rfl⟩
      | none =>
          have hanswer := h requested
          rcases hstart : start requested s with ⟨answer, t⟩
          rcases hstart' : start' requested s' with ⟨answer', t'⟩
          rw [hstart, hstart'] at hanswer
          obtain rfl : answer = answer' := hanswer
          cases answer <;> simp [hstart, hstart']

namespace Host

variable {host : Host} {config : LogConfig} {level directory : String}

/-- A host starts a log **by running its errands** in its files. -/
theorem startLog_eq : startLog = LogConfig.startBy Files.runErrand := by
  funext config fs
  rw [startLog, LogConfig.startBy]
  simp only [Files.runErrand]
  rcases fs.makePath (Text.bytes config.directory) with ⟨result, fs'⟩
  cases result <;> rfl

/-- The request that is made to a host: how its errands end is up to the files. -/
def logRequest (host : Host) (level directory : String) : LogRequest :=
  ⟨level, directory, fun errand => (Files.runErrand errand host.files).1⟩

@[simp] theorem level_logRequest (host : Host) (level directory : String) :
    (host.logRequest level directory).level = level := rfl

@[simp] theorem directory_logRequest (host : Host) (level directory : String) :
    (host.logRequest level directory).directory = directory := rfl

/-- The files of a host answer to the start of a log as the request says. -/
theorem startLog_answer (host : Host) (level directory : String) (config : LogConfig)
    (notes : List Errand.Note) :
    (startLog config host.files).1 =
      (LogConfig.startBy (host.logRequest level directory).run config notes).1 := by
  rw [startLog_eq, LogConfig.startBy, LogConfig.startBy]
  simp only [LogRequest.run, logRequest, Files.runErrand]
  rcases host.files.makePath (Text.bytes config.directory) with ⟨result, fs'⟩
  cases result <;> rfl

/-- What a request does to a host, but for the first event of a log that starts. -/
theorem setUpLog_eq (host : Host) (level directory : String) :
    (host.setUpLog level directory).1 =
        (LogConfig.setUp startLog host.log level directory host.files).1 ∧
      (host.setUpLog level directory).2.log =
        (LogConfig.setUp startLog host.log level directory host.files).2.1 := by
  rw [setUpLog]
  rcases LogConfig.setUp startLog host.log level directory host.files with ⟨result, log, files⟩
  dsimp only
  split
  · exact ⟨rfl, log_emit _ _⟩
  · exact ⟨rfl, rfl⟩

/-- A request **changes nothing** about a host whose log is active. -/
theorem setUpLog_of_active (h : host.log = some config) (level directory : String) :
    host.setUpLog level directory = (config.again level directory, host) := by
  obtain ⟨files, log, opened, pending⟩ := host
  obtain rfl : log = some config := h
  rw [setUpLog, LogConfig.setUp, LogConfig.again]
  cases LogConfig.read level directory <;> rfl

/-- A host and a process with the same active log do the same on a request. -/
theorem setUpLog_eq_request {g : Logging} (h : host.log = g.active) (level directory : String) :
    (host.setUpLog level directory).1 = (g.request (host.logRequest level directory)).1 ∧
      (host.setUpLog level directory).2.log =
        (g.request (host.logRequest level directory)).2.active := by
  obtain ⟨hanswer, hlog⟩ := host.setUpLog_eq level directory
  obtain ⟨hanswer', hlog'⟩ := g.request_eq (host.logRequest level directory)
  rw [hanswer, hlog, hanswer', hlog', h, level_logRequest, directory_logRequest]
  exact LogConfig.setUp_congr (fun config => startLog_answer host level directory config g.notes)
    g.active level directory

/-- The **life** of a host, with the requests for a log that are made in it. What else happens does
not change which log is active. -/
inductive Life (start : Host) : List LogRequest → Host → Prop
  | start : Life start [] start
  | other {requests : List LogRequest} {host host' : Host} :
      Life start requests host → host'.log = host.log → Life start requests host'
  | request {requests : List LogRequest} {host : Host} (level directory : String) :
      Life start requests host →
        Life start (requests ++ [host.logRequest level directory])
          (host.setUpLog level directory).2

/-- Events and flushing are a part of life. -/
theorem Life.emit {start : Host} {requests : List LogRequest} (h : Life start requests host)
    (events : List Event) : Life start requests (host.emit events) :=
  .other h (log_emit host events)

theorem Life.flush {start : Host} {requests : List LogRequest} (h : Life start requests host) :
    Life start requests host.flush :=
  .other h (log_flush host)

/-- **The log of a host** is that of a process to which the same requests were made. -/
theorem Life.log_eq {start : Host} {requests : List LogRequest} (hstart : start.log = none)
    (h : Life start requests host) : host.log = (Logging.inactive.after requests).active := by
  induction h with
  | start => exact hstart
  | other _ hlog ih => exact hlog.trans ih
  | request level directory _ ih =>
      rw [(setUpLog_eq_request ih level directory).2, Logging.after_append, Logging.after_cons,
        Logging.after_nil]

/-- **The answer of a host** is that of a process to which the same requests were made. -/
theorem Life.answer_eq {start : Host} {requests : List LogRequest} (hstart : start.log = none)
    (h : Life start requests host) (level directory : String) :
    (host.setUpLog level directory).1 =
      ((Logging.inactive.after requests).request (host.logRequest level directory)).1 :=
  (setUpLog_eq_request (h.log_eq hstart) level directory).1

end Host

end Taskbook
