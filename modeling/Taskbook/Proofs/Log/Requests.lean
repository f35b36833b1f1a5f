import Taskbook.Log.Setup
import Taskbook.Proofs.Host.Paths
import Taskbook.Proofs.Results

/-!
# What a Log Is Asked For

A log is asked for by the name of a level and the path of a directory, both as somebody has typed
them. This module says which configuration they ask for, what is wrong with them if they ask for
none, and what comes of a request while a log is active. Nothing is said here about starting a log.

## Refusal convention

The level is looked at before the directory. A request that is at odds with the active log in both
is refused for its directory.

## Main results

* `LogConfig.read_eq_ok_iff`, `LogConfig.read_eq_error_iff`: **which configuration is asked for**,
  and what is wrong with a request that asks for none;
* `LogConfig.again_eq_ok_iff`, `LogConfig.again_eq_error_iff`: **what comes of a request while a log
  is active**.
-/

namespace Taskbook

/-! ### Levels -/

namespace Level

/-- The name that a text **spells**: blanks around it are dropped, letters are small, and `warning`
is read as `warn`. -/
def spelled (text : String) : String :=
  if Text.lower (Text.trim text) = "warning" then "warn" else Text.lower (Text.trim text)

theorem name_inj {a b : Level} : a.name = b.name ↔ a = b := by
  cases a <;> cases b <;> decide

theorem find?_name (level : Level) : (all.find? fun l => l.name == level.name) = some level := by
  cases level <;> rfl

/-- A level is known under the name that is spelled. -/
theorem named?_eq_some_iff {text : String} {level : Level} :
    named? (Text.lower (Text.trim text)) = some level ↔ spelled text = level.name := by
  rw [named?, spelled]
  by_cases hwarning : Text.lower (Text.trim text) = "warning"
  · rw [if_pos hwarning, if_pos hwarning, Option.some.injEq, ← name_inj]
    rfl
  · rw [if_neg hwarning, if_neg hwarning]
    constructor
    · intro h
      have hname := List.find?_some h
      rw [beq_iff_eq] at hname
      exact hname.symm
    · intro h
      rw [h, find?_name]

theorem read_eq_ok_iff {text : String} {level : Level} :
    read text = .ok level ↔ spelled text = level.name := by
  rw [← named?_eq_some_iff, read]
  cases named? (Text.lower (Text.trim text)) <;> simp

theorem read_eq_error_iff {text : String} {e : LogError} :
    read text = .error e ↔ (∀ level : Level, spelled text ≠ level.name) ∧
      e = .unsupportedLevel (Text.lower (Text.trim text)) := by
  have hnone : named? (Text.lower (Text.trim text)) = none ↔
      ∀ level : Level, spelled text ≠ level.name := by
    rw [Option.eq_none_iff_forall_ne_some]
    exact forall_congr' fun level => not_congr named?_eq_some_iff
  rw [← hnone, read]
  cases named? (Text.lower (Text.trim text)) <;> simp [eq_comm]

end Level

namespace LogConfig

/-! ### Configurations that are asked for -/

/-- A configuration is **asked for** by a level and a directory: the level spells its name, and the
directory is its path, from the root, with blanks around it. -/
structure AskedBy (config : LogConfig) (level directory : String) : Prop where
  level : Level.spelled level = config.level.name
  directory : Text.trim directory = config.directory
  filled : config.directory ≠ ""
  absolute : Path.isAbsolute (Text.bytes config.directory) = true

/-- A directory is **no path** from the root, with what it is instead. -/
inductive NoPath (directory : String) : DirectoryFault → Prop
  | empty (hempty : Text.trim directory = "") : NoPath directory .empty
  | relative (hfilled : Text.trim directory ≠ "")
      (hrelative : Path.isAbsolute (Text.bytes (Text.trim directory)) = false) :
      NoPath directory (.relative (Text.trim directory))

/-- A level and a directory are **misnamed**, with what is wrong with them. -/
inductive Misnamed (level directory : String) : LogError → Prop
  | level (hunknown : ∀ l : Level, Level.spelled level ≠ l.name) :
      Misnamed level directory (.unsupportedLevel (Text.lower (Text.trim level)))
  | directory {l : Level} {fault : DirectoryFault} (hknown : Level.spelled level = l.name)
      (hfault : NoPath directory fault) : Misnamed level directory (.invalidDirectory fault)

variable {level directory : String} {config active requested : LogConfig} {e : LogError}

theorem readDirectory_eq_ok_iff {path : String} :
    readDirectory directory = .ok path ↔
      Text.trim directory = path ∧ path ≠ "" ∧ Path.isAbsolute (Text.bytes path) = true := by
  rw [readDirectory]
  split
  · next hempty =>
    constructor
    · rintro ⟨⟩
    · rintro ⟨rfl, hfilled, -⟩
      exact absurd hempty hfilled
  · next hfilled =>
    split
    · next habsolute =>
      constructor
      · rintro ⟨⟩
        exact ⟨rfl, hfilled, habsolute⟩
      · rintro ⟨rfl, -⟩
        rfl
    · next hrelative =>
      constructor
      · rintro ⟨⟩
      · rintro ⟨rfl, -, habsolute⟩
        exact absurd habsolute hrelative

theorem readDirectory_eq_error_iff :
    readDirectory directory = .error e ↔
      ∃ fault, NoPath directory fault ∧ e = .invalidDirectory fault := by
  rw [readDirectory]
  split
  · next hempty =>
    constructor
    · rintro ⟨⟩
      exact ⟨_, .empty hempty, rfl⟩
    · rintro ⟨_, ⟨⟩ | ⟨hfilled⟩, rfl⟩
      · rfl
      · exact absurd hempty hfilled
  · next hfilled =>
    split
    · next habsolute =>
      constructor
      · rintro ⟨⟩
      · rintro ⟨_, ⟨hempty⟩ | ⟨-, hrelative⟩, rfl⟩
        · exact absurd hempty hfilled
        · cases hrelative.symm.trans habsolute
    · next hrelative =>
      constructor
      · rintro ⟨⟩
        exact ⟨_, .relative hfilled (Bool.eq_false_iff.mpr hrelative), rfl⟩
      · rintro ⟨_, ⟨hempty⟩ | ⟨⟩, rfl⟩
        · exact absurd hempty hfilled
        · rfl

/-- A request is read as **the configuration that it asks for**. -/
theorem read_eq_ok_iff : read level directory = .ok config ↔ config.AskedBy level directory := by
  rw [read, Except.bind_eq_ok_iff]
  constructor
  · rintro ⟨l, hl, h⟩
    obtain ⟨path, hpath, h⟩ := Except.bind_eq_ok_iff.mp h
    obtain rfl := Except.ok.inj h
    obtain ⟨htrim, hfilled, habsolute⟩ := readDirectory_eq_ok_iff.mp hpath
    exact ⟨Level.read_eq_ok_iff.mp hl, htrim, hfilled, habsolute⟩
  · intro h
    exact ⟨config.level, Level.read_eq_ok_iff.mpr h.level, Except.bind_eq_ok_iff.mpr
      ⟨config.directory, readDirectory_eq_ok_iff.mpr ⟨h.directory, h.filled, h.absolute⟩, rfl⟩⟩

/-- A request that asks for nothing is refused for **what is wrong with it**. -/
theorem read_eq_error_iff : read level directory = .error e ↔ Misnamed level directory e := by
  rw [read, Except.bind_eq_error_iff]
  constructor
  · rintro (hl | ⟨l, hl, h⟩)
    · obtain ⟨hunknown, rfl⟩ := Level.read_eq_error_iff.mp hl
      exact .level hunknown
    · obtain hpath | ⟨path, -, ⟨⟩⟩ := Except.bind_eq_error_iff.mp h
      obtain ⟨fault, hfault, rfl⟩ := readDirectory_eq_error_iff.mp hpath
      exact .directory (Level.read_eq_ok_iff.mp hl) hfault
  · intro h
    cases h with
    | level hunknown => exact .inl (Level.read_eq_error_iff.mpr ⟨hunknown, rfl⟩)
    | directory hknown hfault =>
        exact .inr ⟨_, Level.read_eq_ok_iff.mpr hknown, Except.bind_eq_error_iff.mpr
          (.inl (readDirectory_eq_error_iff.mpr ⟨_, hfault, rfl⟩))⟩

/-- A request asks for one configuration only. -/
theorem AskedBy.unique (h : config.AskedBy level directory)
    (h' : requested.AskedBy level directory) : requested = config :=
  Except.ok.inj ((read_eq_ok_iff.mpr h').symm.trans (read_eq_ok_iff.mpr h))

/-- A request that asks for a configuration is not misnamed. -/
theorem AskedBy.not_misnamed (h : config.AskedBy level directory) :
    ¬ Misnamed level directory e := by
  rw [← read_eq_error_iff, read_eq_ok_iff.mpr h]
  rintro ⟨⟩

/-! ### Requests while a log is active -/

/-- A configuration is **at odds** with the active one, with how it is refused: for the directory if
the paths are not the same, else for the level. -/
inductive AtOdds (active requested : LogConfig) : LogError → Prop
  | directory (hother : ¬ Path.Same (Text.bytes requested.directory) (Text.bytes active.directory)) :
      AtOdds active requested (.alreadyInitialized active.directory requested.directory)
  | level (hsame : Path.Same (Text.bytes requested.directory) (Text.bytes active.directory))
      (hother : requested.level ≠ active.level) :
      AtOdds active requested (.alreadyInitialized active.level.name requested.level.name)

/-- What comes of a request while a log is active. -/
def again (active : LogConfig) (level directory : String) : Except LogError Unit :=
  read level directory >>= confirm active

section

variable (hactive : Path.isAbsolute (Text.bytes active.directory) = true)

include hactive

theorem parts_eq_iff (hrequested : requested.AskedBy level directory) :
    active.parts = requested.parts ↔
      Path.Same (Text.bytes requested.directory) (Text.bytes active.directory) := by
  rw [Path.same_iff_of_isAbsolute hactive, and_iff_right hrequested.absolute]
  exact eq_comm

theorem confirm_eq_ok_iff (hrequested : requested.AskedBy level directory) :
    confirm active requested = .ok () ↔ requested.level = active.level ∧
      Path.Same (Text.bytes requested.directory) (Text.bytes active.directory) := by
  rw [← parts_eq_iff hactive hrequested, confirm]
  by_cases hparts : active.parts = requested.parts <;>
    by_cases hlevel : active.level = requested.level <;> simp [hparts, hlevel, eq_comm]

theorem confirm_eq_error_iff (hrequested : requested.AskedBy level directory) :
    confirm active requested = .error e ↔ AtOdds active requested e := by
  have hparts := parts_eq_iff hactive hrequested
  rw [confirm]
  split
  · next hother =>
    constructor
    · rintro ⟨⟩
      exact .directory (mt hparts.mpr hother)
    · intro h
      cases h with
      | directory => rfl
      | level hsame => exact absurd (hparts.mpr hsame) hother
  · next hsame =>
    replace hsame := hparts.mp (not_not.mp hsame)
    split
    · next hother =>
      constructor
      · rintro ⟨⟩
        exact .level hsame (Ne.symm hother)
      · intro h
        cases h with
        | directory hother => exact absurd hsame hother
        | level => rfl
    · next hlevel =>
      constructor
      · rintro ⟨⟩
      · intro h
        cases h with
        | directory hother => exact absurd hsame hother
        | level _ hother => exact absurd (Ne.symm hother) hlevel

/-- While a log is active a request is **accepted** if it spells the level that is active and names
the same directory. -/
theorem again_eq_ok_iff :
    again active level directory = .ok () ↔ Level.spelled level = active.level.name ∧
      Path.Same (Text.bytes (Text.trim directory)) (Text.bytes active.directory) := by
  rw [again, Except.bind_eq_ok_iff]
  constructor
  · rintro ⟨requested, hread, hconfirm⟩
    have hasked := read_eq_ok_iff.mp hread
    obtain ⟨hlevel, hsame⟩ := (confirm_eq_ok_iff hactive hasked).mp hconfirm
    rw [hasked.level, hasked.directory, hlevel]
    exact ⟨rfl, hsame⟩
  · rintro ⟨hlevel, hsame⟩
    -- what is the same path as that of the active log is a path from the root, too
    have habsolute := hsame.isAbsolute_eq.trans hactive
    have hfilled : Text.trim directory ≠ "" := by
      intro hempty
      rw [hempty] at habsolute
      cases habsolute
    have hasked : AskedBy ⟨active.level, Text.trim directory⟩ level directory :=
      ⟨hlevel, rfl, hfilled, habsolute⟩
    exact ⟨_, read_eq_ok_iff.mpr hasked, (confirm_eq_ok_iff hactive hasked).mpr ⟨rfl, hsame⟩⟩

/-- While a log is active a request is **refused** for what is wrong with it, or for what it is at
odds with. -/
theorem again_eq_error_iff :
    again active level directory = .error e ↔ Misnamed level directory e ∨
      ∃ requested : LogConfig, requested.AskedBy level directory ∧ AtOdds active requested e := by
  rw [again, Except.bind_eq_error_iff, read_eq_error_iff]
  refine or_congr Iff.rfl (exists_congr fun requested => ?_)
  rw [read_eq_ok_iff]
  exact and_congr_right fun hasked => confirm_eq_error_iff hactive hasked

end

end LogConfig

end Taskbook
