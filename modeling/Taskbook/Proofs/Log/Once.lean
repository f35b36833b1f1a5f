import Taskbook.Proofs.Log.Requests

/-!
# Logging Is Configured Once

A process is asked again and again to set up its log. Each request may fail in its own way: the
level is unknown, the directory is no path from the root or cannot be created, the backend does not
start. No such failure does harm, and the first request that starts the log settles it: later
requests are only compared with it.

## Outcome convention

To start a log two *errands* are run outside of the process, one after the other: the directory is
created, then the backend is started. How each of them ends is up to the world at that time, so it
comes with the request, and nothing is assumed about it. Every errand that is run is noted together
with its end; what is not noted has not happened.

## Main results

* `Logging.request_of_inactive`, `Logging.request_of_active`: **what comes of one request**;
* `Logging.sound_after`: at every time **the backends that were started** are the log that is
  active, and no other;
* `Logging.after_of_active`: once a log is active, **later requests change nothing**;
* `Logging.configured_once`: **logging is inactive until the first request that starts it**, and
  settled from then on.
-/

namespace Taskbook

/-! ### Errands and requests -/

/-- What is done outside of the process to start a log. -/
inductive Errand where
  | createDirectory (path : String)
  | startBackend (config : LogConfig)

/-- An errand that was run, with its end: it went well, or something was in the way. -/
abbrev Errand.Note := Errand × Except String Unit

/-- The backend that was started, if a note tells of one. -/
def Errand.started? : Errand.Note → Option LogConfig
  | (.startBackend config, .ok ()) => some config
  | _ => none

/-- Starts a log by running errands in a world: the backend once the directory is there. -/
def LogConfig.startBy {σ : Type} (run : Errand → σ → Except String Unit × σ) (config : LogConfig)
    (s : σ) : Except LogError Unit × σ :=
  match run (.createDirectory config.directory) s with
  | (.error obstacle, s) =>
    (.error (.invalidDirectory (.cannotCreate config.directory obstacle)), s)
  | (.ok (), s) =>
    match run (.startBackend config) s with
    | (.error text, s) => (.error (.backend text), s)
    | (.ok (), s) => (.ok (), s)

/-- A request to set up the log, and how each errand would end at that time. -/
structure LogRequest where
  level : String
  directory : String
  ends : Errand → Except String Unit

namespace LogRequest

/-- Runs an errand and notes it. -/
def run (r : LogRequest) (errand : Errand) (notes : List Errand.Note) :
    Except String Unit × List Errand.Note :=
  (r.ends errand, notes ++ [(errand, r.ends errand)])

/-- A request **starts** a log: it asks for the configuration, and both errands go well. -/
structure Starts (r : LogRequest) (config : LogConfig) : Prop where
  asked : config.AskedBy r.level r.directory
  created : r.ends (.createDirectory config.directory) = .ok ()
  started : r.ends (.startBackend config) = .ok ()

/-- A request **can start** a log, whichever it is. -/
def CanStart (r : LogRequest) : Prop :=
  ∃ config, r.Starts config

/-- How a request **fares** while no log is active: its answer, the log that is active then, and the
notes of its errands. -/
inductive Fares (r : LogRequest) :
    Except LogError Unit → Option LogConfig → List Errand.Note → Prop
  | misnamed {e : LogError} (h : LogConfig.Misnamed r.level r.directory e) :
      Fares r (.error e) none []
  | obstructed {config : LogConfig} {obstacle : String}
      (asked : config.AskedBy r.level r.directory)
      (obstructed : r.ends (.createDirectory config.directory) = .error obstacle) :
      Fares r (.error (.invalidDirectory (.cannotCreate config.directory obstacle))) none
        [(.createDirectory config.directory, .error obstacle)]
  | failed {config : LogConfig} {text : String} (asked : config.AskedBy r.level r.directory)
      (created : r.ends (.createDirectory config.directory) = .ok ())
      (failed : r.ends (.startBackend config) = .error text) :
      Fares r (.error (.backend text)) none
        [(.createDirectory config.directory, .ok ()), (.startBackend config, .error text)]
  | starts {config : LogConfig} (h : r.Starts config) :
      Fares r (.ok ()) (some config)
        [(.createDirectory config.directory, .ok ()), (.startBackend config, .ok ())]

end LogRequest

/-! ### The logging of a process -/

/-- The logging of a process: the log that is active, and the notes of all errands. -/
structure Logging where
  active : Option LogConfig
  notes : List Errand.Note

namespace Logging

/-- No log is active, and no errand was run. -/
def inactive : Logging := ⟨none, []⟩

/-- Makes a request. Answers the logging afterwards, too. -/
def request (g : Logging) (r : LogRequest) : Except LogError Unit × Logging :=
  match LogConfig.setUp (LogConfig.startBy r.run) g.active r.level r.directory g.notes with
  | (answer, active, notes) => (answer, ⟨active, notes⟩)

/-- The logging after requests that are made one after the other. -/
def after (g : Logging) (requests : List LogRequest) : Logging :=
  requests.foldl (fun g r => (g.request r).2) g

/-- The backends that were started, in their order. -/
def backends (g : Logging) : List LogConfig :=
  g.notes.filterMap Errand.started?

/-- A logging is **settled** on a configuration: it is active and stays so whatever is requested, no
errand is run any more, and a request is accepted if it asks for the same again. -/
structure Settled (g : Logging) (config : LogConfig) : Prop where
  active : g.active = some config
  lasting : ∀ later, g.after later = g
  accepted_iff : ∀ r, (g.request r).1 = .ok () ↔
    Level.spelled r.level = config.level.name ∧
      Path.Same (Text.bytes (Text.trim r.directory)) (Text.bytes config.directory)
  refused_iff : ∀ r e, (g.request r).1 = .error e ↔
    LogConfig.Misnamed r.level r.directory e ∨
      ∃ requested : LogConfig, requested.AskedBy r.level r.directory ∧
        LogConfig.AtOdds config requested e

/-- A logging is **sound**: the log that is active is the only one that was ever started, and its
directory is a path from the root. -/
structure Sound (g : Logging) : Prop where
  backends : g.backends = g.active.toList
  absolute : ∀ config, g.active = some config →
    Path.isAbsolute (Text.bytes config.directory) = true

variable {g : Logging} {config : LogConfig}

/-! ### One request -/

/-- A request sets up the log, its errands noted. -/
theorem request_eq (g : Logging) (r : LogRequest) :
    (g.request r).1 =
        (LogConfig.setUp (LogConfig.startBy r.run) g.active r.level r.directory g.notes).1 ∧
      (g.request r).2.active =
        (LogConfig.setUp (LogConfig.startBy r.run) g.active r.level r.directory g.notes).2.1 := by
  rw [request]
  rcases LogConfig.setUp (LogConfig.startBy r.run) g.active r.level r.directory g.notes with
    ⟨answer, active, notes⟩
  exact ⟨rfl, rfl⟩

/-- While a log is active **a request** is compared with it and does nothing. -/
theorem request_of_active (h : g.active = some config) (r : LogRequest) :
    g.request r = (config.again r.level r.directory, g) := by
  obtain ⟨active, notes⟩ := g
  obtain rfl : active = some config := h
  rw [request, LogConfig.setUp, LogConfig.again]
  cases LogConfig.read r.level r.directory <;> rfl

/-- While no log is active **a request** tries to start one. -/
theorem request_of_inactive (h : g.active = none) (r : LogRequest) :
    ∃ answer active notes, r.Fares answer active notes ∧
      g.request r = (answer, ⟨active, g.notes ++ notes⟩) := by
  obtain ⟨active, notes⟩ := g
  obtain rfl : active = none := h
  rw [request, LogConfig.setUp]
  cases hread : LogConfig.read r.level r.directory with
  | error e =>
      refine ⟨_, _, [], .misnamed (LogConfig.read_eq_error_iff.mp hread), ?_⟩
      rw [List.append_nil]
  | ok config =>
      have hasked := LogConfig.read_eq_ok_iff.mp hread
      simp only [LogConfig.startBy, LogRequest.run]
      cases hcreated : r.ends (.createDirectory config.directory) with
      | error obstacle => exact ⟨_, _, _, .obstructed hasked hcreated, rfl⟩
      | ok u =>
          cases hstarted : r.ends (.startBackend config) with
          | error text => exact ⟨_, _, _, .failed hasked hcreated hstarted, by simp⟩
          | ok u => exact ⟨_, _, _, .starts ⟨hasked, hcreated, hstarted⟩, by simp⟩

/-- A request that starts a log makes it active. -/
theorem active_request_of_starts (h : g.active = none) {r : LogRequest} (hr : r.Starts config) :
    (g.request r).2.active = some config := by
  obtain ⟨answer, active, notes, hfares, hrequest⟩ := request_of_inactive h r
  rw [hrequest]
  cases hfares with
  | misnamed hwrong => exact absurd hwrong hr.asked.not_misnamed
  | obstructed hasked hobstructed =>
      obtain rfl := hr.asked.unique hasked
      cases hr.created.symm.trans hobstructed
  | failed hasked _ hfailed =>
      obtain rfl := hr.asked.unique hasked
      cases hr.started.symm.trans hfailed
  | starts hstarts => rw [hr.asked.unique hstarts.asked]

/-- A request that cannot start a log leaves logging inactive. -/
theorem active_request_of_not_canStart (h : g.active = none) {r : LogRequest}
    (hr : ¬ r.CanStart) : (g.request r).2.active = none := by
  obtain ⟨answer, active, notes, hfares, hrequest⟩ := request_of_inactive h r
  rw [hrequest]
  cases hfares with
  | starts hstarts => exact absurd ⟨_, hstarts⟩ hr
  | misnamed | obstructed | failed => rfl

/-- A request keeps logging sound. -/
theorem Sound.request (hg : g.Sound) (r : LogRequest) : (g.request r).2.Sound := by
  cases hactive : g.active with
  | some config => rwa [request_of_active hactive]
  | none =>
      obtain ⟨answer, active, notes, hfares, hrequest⟩ := request_of_inactive hactive r
      have hbackends : g.notes.filterMap Errand.started? = [] := by
        have hnone := hg.backends
        rwa [hactive] at hnone
      rw [hrequest]
      refine ⟨?_, ?_⟩
      · have hnotes : (g.notes ++ notes).filterMap Errand.started? =
            notes.filterMap Errand.started? := by
          rw [List.filterMap_append, hbackends, List.nil_append]
        refine hnotes.trans ?_
        cases hfares <;> rfl
      · cases hfares with
        | starts hstarts =>
            rintro config ⟨⟩
            exact hstarts.asked.absolute
        | misnamed | obstructed | failed => rintro config ⟨⟩

/-! ### Many requests -/

theorem after_nil (g : Logging) : g.after [] = g := rfl

theorem after_cons (g : Logging) (r : LogRequest) (requests : List LogRequest) :
    g.after (r :: requests) = (g.request r).2.after requests := by
  rw [after, List.foldl_cons, after]

theorem after_append (g : Logging) (before later : List LogRequest) :
    g.after (before ++ later) = (g.after before).after later := by
  rw [after, List.foldl_append, after, after]

theorem sound_inactive : inactive.Sound :=
  ⟨rfl, nofun⟩

/-- Whatever was requested, **the backends that were started** are the log that is active. -/
theorem sound_after (hg : g.Sound) (requests : List LogRequest) : (g.after requests).Sound := by
  induction requests generalizing g with
  | nil => exact hg
  | cons r requests ih =>
      rw [after_cons]
      exact ih (hg.request r)

/-- Once a log is active, **later requests change nothing**. -/
theorem after_of_active (h : g.active = some config) (requests : List LogRequest) :
    g.after requests = g := by
  induction requests with
  | nil => rfl
  | cons r requests ih => rw [after_cons, request_of_active h, ih]

/-- Requests that cannot start a log leave logging inactive. -/
theorem active_after_of_not_canStart (h : g.active = none) {requests : List LogRequest}
    (hrequests : ∀ r ∈ requests, ¬ r.CanStart) : (g.after requests).active = none := by
  induction requests generalizing g with
  | nil => exact h
  | cons r requests ih =>
      obtain ⟨hr, hrequests⟩ := List.forall_mem_cons.mp hrequests
      rw [after_cons]
      exact ih (active_request_of_not_canStart h hr) hrequests

/-- A sound logging with an active log is settled on it. -/
theorem Sound.settled (hg : g.Sound) (h : g.active = some config) : g.Settled config where
  active := h
  lasting := after_of_active h
  accepted_iff r := by
    rw [request_of_active h]
    exact LogConfig.again_eq_ok_iff (hg.absolute config h)
  refused_iff r e := by
    rw [request_of_active h]
    exact LogConfig.again_eq_error_iff (hg.absolute config h)

/-- **Logging is configured at most once.** After any requests, whatever their errands come to, the
backends that were started are the log that is active, at most one. Logging is inactive as long as
no request could start it, and a request that fails then leaves nothing behind but the notes of its
errands. The first request that can start logging settles it. -/
theorem configured_once (requests : List LogRequest) :
    (inactive.after requests).backends = (inactive.after requests).active.toList ∧
      ((∀ r ∈ requests, ¬ r.CanStart) → (inactive.after requests).active = none) ∧
      ((inactive.after requests).active = none →
        ∀ r : LogRequest, ∃ answer active notes, r.Fares answer active notes ∧
          (inactive.after requests).request r =
            (answer, ⟨active, (inactive.after requests).notes ++ notes⟩)) ∧
      ∀ before first later config, requests = before ++ first :: later →
        (∀ r ∈ before, ¬ r.CanStart) → first.Starts config →
          inactive.after requests = inactive.after (before ++ [first]) ∧
            (inactive.after requests).Settled config := by
  refine ⟨(sound_after sound_inactive requests).backends, active_after_of_not_canStart rfl,
    request_of_inactive, ?_⟩
  rintro before first later config rfl hbefore hfirst
  have hinactive : (inactive.after before).active = none :=
    active_after_of_not_canStart rfl hbefore
  have hactive : (inactive.after (before ++ [first])).active = some config := by
    rw [after_append, after_cons, after_nil]
    exact active_request_of_starts hinactive hfirst
  have hlater : inactive.after (before ++ first :: later) = inactive.after (before ++ [first]) := by
    rw [List.append_cons, after_append, after_of_active hactive]
  refine ⟨hlater, ?_⟩
  rw [hlater]
  exact (sound_after sound_inactive _).settled hactive

/-! ### A process that fails four times -/

/-- Requests that fail, each in its own way. -/
def failures : List LogRequest :=
  [⟨"loud", "/var/log/tasks", fun _ => .ok ()⟩,
    ⟨"info", " logs ", fun _ => .ok ()⟩,
    ⟨"info", "/var/log/tasks", fun
      | .createDirectory _ => .error "File exists (os error 17)"
      | .startBackend _ => .ok ()⟩,
    ⟨"info", "/var/log/tasks", fun
      | .createDirectory _ => .ok ()
      | .startBackend _ => .error "logger is taken"⟩]

/-- A request that starts a log. -/
def firstStart : LogRequest := ⟨" Warning ", "\u00a0/var/log/tasks\n", fun _ => .ok ()⟩

theorem not_canStart_of_mem_failures : ∀ r ∈ failures, ¬ r.CanStart := by
  have hloud : LogConfig.read "loud" "/var/log/tasks" = .error (.unsupportedLevel "loud") := rfl
  have hlogs : LogConfig.read "info" " logs " = .error (.invalidDirectory (.relative "logs")) := rfl
  simp only [failures, List.forall_mem_cons, List.not_mem_nil, IsEmpty.forall_iff, implies_true,
    and_true]
  refine ⟨?_, ?_, ?_, ?_⟩ <;> rintro ⟨config, hasked, hcreated, hstarted⟩
  · cases hloud.symm.trans (LogConfig.read_eq_ok_iff.mpr hasked)
  · cases hlogs.symm.trans (LogConfig.read_eq_ok_iff.mpr hasked)
  · cases hcreated
  · cases hstarted

theorem firstStart_starts : firstStart.Starts ⟨.warn, "/var/log/tasks"⟩ :=
  ⟨LogConfig.read_eq_ok_iff.mp rfl, rfl, rfl⟩

/-- The failures, the request that starts a log, and one that comes too late. -/
def history : List LogRequest :=
  failures ++ firstStart :: [⟨"debug", "/tmp", fun _ => .ok ()⟩]

/-- After four failures no log is active and the next request is tried like a first one; the one
that starts a log settles it. The same level and directory are then accepted in another spelling,
another directory is not, and an unknown level is told before a relative path. -/
theorem configured_once_after_failures :
    (inactive.after failures).active = none ∧
      (∃ answer active notes, firstStart.Fares answer active notes ∧
        (inactive.after failures).request firstStart =
          (answer, ⟨active, (inactive.after failures).notes ++ notes⟩)) ∧
      (inactive.after history).active = some ⟨.warn, "/var/log/tasks"⟩ ∧
      ((inactive.after history).request ⟨"WARN", "/var//log/./tasks/", fun _ => .ok ()⟩).1 =
        .ok () ∧
      ((inactive.after history).request ⟨"info", "/var/log", fun _ => .ok ()⟩).1 =
        .error (.alreadyInitialized "/var/log/tasks" "/var/log") ∧
      ((inactive.after history).request ⟨"loud", "tasks", fun _ => .ok ()⟩).1 =
        .error (.unsupportedLevel "loud") := by
  obtain ⟨-, hfailures, hinactive, -⟩ := configured_once failures
  have hnone := hfailures not_canStart_of_mem_failures
  obtain ⟨-, -, -, hfirst⟩ := configured_once history
  obtain ⟨-, hsettled⟩ :=
    hfirst failures firstStart [⟨"debug", "/tmp", fun _ => .ok ()⟩] ⟨.warn, "/var/log/tasks"⟩ rfl
      not_canStart_of_mem_failures firstStart_starts
  have hasked : LogConfig.AskedBy ⟨.info, "/var/log"⟩ "info" "/var/log" :=
    LogConfig.read_eq_ok_iff.mp rfl
  have hother : ¬ Path.Same (Text.bytes "/var/log") (Text.bytes "/var/log/tasks") := by
    rw [Path.same_iff_of_isAbsolute rfl]
    decide
  refine ⟨hnone, hinactive hnone firstStart, hsettled.active, ?_, ?_, ?_⟩
  · rw [hsettled.accepted_iff]
    exact ⟨rfl, (Path.same_iff_of_isAbsolute rfl).mpr ⟨rfl, rfl⟩⟩
  · rw [hsettled.refused_iff]
    exact .inr ⟨_, hasked, .directory hother⟩
  · rw [hsettled.refused_iff]
    exact .inl (LogConfig.read_eq_error_iff.mp rfl)

end Logging

end Taskbook
