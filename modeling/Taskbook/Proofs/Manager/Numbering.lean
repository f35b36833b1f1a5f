import Taskbook.Proofs.Manager.History

/-!
# Giving Out Ids

A store in memory numbers its tasks itself. This module follows the numbers: which step gives one
out, which one, and when there is none left. A step gives out an id if and only if it brings a task
that may be stored and has no id yet, and the counter can be moved on; the id is where the counter
stood. No other step touches the ids or the counter, whatever it does and however it ends. So a run
leaves the seeded ids, in the order of the seeds, and behind them the ids that it gave out, in the
order in which it did, and the counter is as many steps further.

## Overflow convention

A step that would move the counter past the last id breaks off. Seeding does so too, for a seed
that has the last id, since the counter has to be moved past it.

## Main results

* `MemoryStore.run_ids`: **the ids after a run**, and the counter;
* `MemoryStore.overflow_after_iff`: **when a step breaks off** after a run;
* `MemoryStore.ids_unique_and_fresh`: in a seeded store **ids stay unique, and new ones are new**;
* `MemoryStore.overflow_exact`: **when a call breaks off**.
-/

namespace Taskbook

variable {σ : Type}

/-! ### New tasks and the ids they are given -/

/-- The task that a step brings, if it is one that may be stored and has no id yet. -/
def Step.newTask? (now : Instant) : Step → Option Task
  | create title due =>
    if Text.isBlankText title then none
    else some { title := title, createdOn := now, dueDate := due }
  | insert t => if Text.isBlankText t.title ∨ t.id.isSome then none else some t
  | _ => none

/-- The id that a step gave out, if it stored a new task. -/
def Entry.givenId? : Entry → Option Int64
  | ⟨_, .create _ _, .task t⟩ | ⟨_, .insert _, .task t⟩ => t.id
  | _ => none

/-- A step that breaks off gives out no id. -/
theorem Entry.givenId?_overflow (clock : Instant) (step : Step) :
    (⟨clock, step, .overflow⟩ : Entry).givenId? = none := by
  cases step <;> rfl

/-- A step that brings a new task gives out the id under which it is stored. -/
theorem Entry.givenId?_of_newTask? {now : Instant} {step : Step} {t : Task}
    (h : step.newTask? now = some t) (stored : Task) :
    (⟨now, step, .task stored⟩ : Entry).givenId? = stored.id := by
  cases step with
  | create title due => rfl
  | insert u => rfl
  | _ => cases h

/-- The ids that a run **gives out**, in the order in which it does. -/
def Session.givenIds (repo : Repository σ) (s : Session σ) (steps : List Step) : List Int64 :=
  (s.trace repo steps).filterMap Entry.givenId?

/-- A run gives out the id that its first step gives out, and then those of the rest. -/
theorem Session.givenIds_cons (repo : Repository σ) (s : Session σ) (step : Step)
    (steps : List Step) :
    s.givenIds repo (step :: steps) =
      (⟨s.clock, step, (step.take repo s).outcome⟩ : Entry).givenId?.toList ++
        (step.take repo s).session.givenIds repo steps := by
  rw [givenIds, trace, List.filterMap_cons, givenIds]
  cases (⟨s.clock, step, (step.take repo s).outcome⟩ : Entry).givenId? <;> rfl

/-- A run gives out at most one id a step. -/
theorem Session.length_givenIds_le (repo : Repository σ) (s : Session σ) (steps : List Step) :
    (s.givenIds repo steps).length ≤ steps.length := by
  induction steps generalizing s with
  | nil => exact Nat.le_refl 0
  | cons step steps ih =>
      have hrest := ih (step.take repo s).session
      rw [givenIds_cons, List.length_append, List.length_cons]
      cases (⟨s.clock, step, (step.take repo s).outcome⟩ : Entry).givenId? <;>
        simp only [Option.toList_none, Option.toList_some, List.length_nil, List.length_singleton] <;>
        omega

/-- A new task has a title and no id. -/
theorem Step.newTask?_eq_some {now : Instant} {step : Step} {t : Task}
    (h : step.newTask? now = some t) : t.id = none ∧ Text.isBlankText t.title = false := by
  cases step with
  | create title due =>
      rw [newTask?] at h
      split at h
      · cases h
      · next htitle =>
        obtain rfl := Option.some.inj h
        exact ⟨rfl, Bool.not_eq_true _ ▸ htitle⟩
  | insert u =>
      rw [newTask?] at h
      split at h
      · cases h
      · next hfree =>
        obtain rfl := Option.some.inj h
        simpa [not_or, and_comm] using hfree
  | _ => cases h

namespace MemoryStore

/-! ### One step -/

/-- **A step with a new task** breaks off where the counter stands on the last id, and otherwise
appends the task under the id of the counter and moves the counter on. -/
theorem take_of_newTask? {s : Session MemoryStore} {step : Step} {t : Task}
    (hnew : step.newTask? s.clock = some t) :
    let taken := step.take repository s
    let stored : Task := { t with id := some s.store.nextId }
    (s.store.nextId = Int64.maxValue ∧ taken.outcome = .overflow ∧
        taken.session.store = s.store) ∨
      ∃ next, next.toInt = s.store.nextId.toInt + 1 ∧ taken.outcome = .task stored ∧
        taken.session.store = ⟨s.store.tasks ++ [stored], next⟩ := by
  intro taken stored
  obtain ⟨hid, htitle⟩ := Step.newTask?_eq_some hnew
  have hcases := insert_new_cases hid htitle s.store
  cases step with
  | create title due =>
      rw [Step.newTask?] at hnew
      split at hnew
      · cases hnew
      · next hblank =>
        obtain rfl := Option.some.inj hnew
        simp only [taken, Step.take, Session.manage, Session.act, Manager.create, if_neg hblank]
        rcases hcases with ⟨hlast, hinsert⟩ | ⟨next, hnext, hinsert⟩
        · rw [Action.bind_of_error (Manager.lift_eq_of_error hinsert)]
          exact .inl ⟨hlast, rfl, rfl⟩
        · rw [Action.bind_of_ok (Manager.lift_eq_of_ok hinsert)]
          exact .inr ⟨next, hnext, rfl, rfl⟩
  | insert u =>
      rw [Step.newTask?] at hnew
      split at hnew
      · cases hnew
      · obtain rfl := Option.some.inj hnew
        simp only [taken, Step.take, Session.act]
        rcases hcases with ⟨hlast, hinsert⟩ | ⟨next, hnext, hinsert⟩ <;> rw [hinsert]
        · exact .inl ⟨hlast, rfl, rfl⟩
        · exact .inr ⟨next, hnext, rfl, rfl⟩
  | _ => cases hnew

/-- An entry that **keeps the numbers** of a store: nothing was broken off, no id was given out, and
the ids and the counter are as they were. -/
structure KeepsNumbers (e : Entry) (m m' : MemoryStore) : Prop where
  unbroken : e.outcome ≠ .overflow
  given : e.givenId? = none
  ids : m'.tasks.map Task.id = m.tasks.map Task.id
  nextId : m'.nextId = m.nextId

/-- A store that is left alone keeps its numbers. -/
theorem KeepsNumbers.refl {e : Entry} (unbroken : e.outcome ≠ .overflow) (given : e.givenId? = none)
    (m : MemoryStore) : KeepsNumbers e m m :=
  ⟨unbroken, given, rfl, rfl⟩

/-- A change of a task keeps the numbers. -/
theorem keepsNumbers_change (m : MemoryStore) {id : Int64} {step : Step}
    (htarget : step.target? = some id) (now : Instant) :
    KeepsNumbers ⟨now, step, (m.change id (step.alteration now)).1⟩ m
      (m.change id (step.alteration now)).2 := by
  have hgiven (o : Outcome) : (⟨now, step, o⟩ : Entry).givenId? = none := by
    cases step <;> cases htarget <;> rfl
  rcases m.change_cases id (step.alteration now) with ⟨e, hchange⟩ | ⟨t, -, hchange⟩ <;>
    rw [hchange]
  · exact .refl (by simp) (hgiven _) m
  · refine ⟨by simp, hgiven _, ?_, rfl⟩
    rw [amend, List.map_map]
    refine List.map_congr_left fun u _ => ?_
    by_cases hu : u.id = some id
    · rw [Function.comp_apply, if_pos hu, step.id_alteration]
    · rw [Function.comp_apply, if_neg hu]

/-- The effect of a step without a new task keeps the numbers. -/
theorem keepsNumbers_effect {m : MemoryStore} {now : Instant} {step : Step}
    (hasks : step.Asks fun _ => True) (hnone : step.newTask? now = none) :
    KeepsNumbers ⟨now, step, (step.effect now m).1⟩ m (step.effect now m).2 := by
  cases step with
  | create title due =>
      have hblank : Text.isBlankText title = true := by
        rw [Step.newTask?] at hnone
        split at hnone
        · assumption
        · cases hnone
      rw [Step.effect_create, enter, if_pos hblank]
      exact .refl (by simp) rfl m
  | get id =>
      rw [Step.effect_get, lookUp]
      cases m.find? id <;> exact .refl (by simp) rfl m
  | markDone id | reopen id | postpone id _ | reprioritize id _ =>
      exact m.keepsNumbers_change rfl now
  | insert t | update t => exact hasks.elim
  | _ => exact .refl (fun h => by cases h) rfl m

/-- **A step without a new task keeps the numbers.** -/
theorem take_of_newTask?_eq_none {s : Session MemoryStore} (h : s.store.Sound) {step : Step}
    (hnone : step.newTask? s.clock = none) :
    KeepsNumbers ⟨s.clock, step, (step.take repository s).outcome⟩ s.store
      (step.take repository s).session.store := by
  have hmanager (hasks : step.Asks fun _ => True) :
      KeepsNumbers ⟨s.clock, step, (step.take repository s).outcome⟩ s.store
        (step.take repository s).session.store := by
    obtain ⟨houtcome, hstore⟩ := h.take_eq_effect hasks
    rw [houtcome, hstore]
    exact keepsNumbers_effect hasks hnone
  cases step with
  | insert t =>
      simp only [Step.take, Session.act]
      cases htitle : Text.isBlankText t.title with
      | true =>
          rw [insert_eq_of_blank htitle]
          exact .refl (by simp [Outcome.ofResult]) rfl s.store
      | false =>
          cases hid : t.id with
          | none => simp [Step.newTask?, htitle, hid] at hnone
          | some id =>
              rw [insert_eq_of_saved hid htitle]
              exact .refl (by simp [Outcome.ofResult]) rfl s.store
  | update t =>
      simp only [Step.take, Session.act]
      rcases s.store.update_cases t with ⟨e, hupdate⟩ | ⟨id, hid, -, hupdate⟩ <;> rw [hupdate]
      · exact .refl (by simp [Outcome.ofResult]) rfl s.store
      · exact ⟨by simp [Outcome.ofResult], rfl, map_id_replace hid, rfl⟩
  | _ => exact hmanager trivial

/-! ### Runs -/

/-- **The ids after one step** are those before it and the one that it gave out, and the counter
is moved on if it gave one out. -/
theorem take_ids {s : Session MemoryStore} (h : s.store.Sound) (step : Step) :
    let taken := step.take repository s
    let given := (⟨s.clock, step, taken.outcome⟩ : Entry).givenId?.toList
    taken.session.store.tasks.map Task.id = s.store.tasks.map Task.id ++ given.map some ∧
      taken.session.store.nextId.toInt = s.store.nextId.toInt + given.length := by
  intro taken given
  cases hnew : step.newTask? s.clock with
  | none =>
      obtain ⟨-, hgiven, hids, hnext⟩ := take_of_newTask?_eq_none h hnew
      have hgiven : given = [] := congrArg Option.toList hgiven
      rw [hids, hnext, hgiven]
      exact ⟨(List.append_nil _).symm, (Int.add_zero _).symm⟩
  | some t =>
      rcases take_of_newTask? hnew with ⟨-, houtcome, hstore⟩ | ⟨next, hnext, houtcome, hstore⟩
      · have hgiven : given = [] := by
          simp only [given, taken, houtcome, Entry.givenId?_overflow, Option.toList_none]
        rw [hstore, hgiven]
        exact ⟨(List.append_nil _).symm, (Int.add_zero _).symm⟩
      · have hgiven : given = [s.store.nextId] := by
          simp only [given, taken, houtcome, Entry.givenId?_of_newTask? hnew, Option.toList_some]
        rw [hstore, hgiven]
        exact ⟨List.map_append, hnext⟩

/-- **The ids after a run** of a sound store are those before it and those that it gave out, and
the counter is moved on by their number. -/
theorem run_ids {s : Session MemoryStore} (h : s.store.Sound) (steps : List Step) :
    let last := s.storeAfter repository steps
    let given := s.givenIds repository steps
    last.tasks.map Task.id = s.store.tasks.map Task.id ++ given.map some ∧
      last.nextId.toInt = s.store.nextId.toInt + given.length := by
  induction steps generalizing s with
  | nil => exact ⟨(List.append_nil _).symm, (Int.add_zero _).symm⟩
  | cons step steps ih =>
      intro last given
      obtain ⟨hids, hnext⟩ := take_ids h step
      obtain ⟨hids', hnext'⟩ := ih (step.take_preserves preserves_sound h)
      have hlast : last = (step.take repository s).session.storeAfter repository steps := rfl
      have hgiven : given = _ := s.givenIds_cons repository step steps
      rw [hlast, hgiven]
      constructor
      · rw [hids', hids, List.append_assoc, List.map_append]
      · rw [hnext', hnext, List.length_append]
        omega

/-- **When a step breaks off**: it brings a new task, and the counter stands on the last id. -/
theorem outcome_eq_overflow_iff {s : Session MemoryStore} (h : s.store.Sound) (step : Step) :
    (step.take repository s).outcome = .overflow ↔
      (∃ t, step.newTask? s.clock = some t) ∧ s.store.nextId = Int64.maxValue := by
  cases hnew : step.newTask? s.clock with
  | none =>
      have hkeeps := take_of_newTask?_eq_none h hnew
      simpa using hkeeps.unbroken
  | some t =>
      simp only [Option.some.injEq, exists_eq', true_and]
      rcases take_of_newTask? hnew with ⟨hlast, houtcome, -⟩ | ⟨next, hnext, houtcome, -⟩
      · exact iff_of_true houtcome hlast
      · refine iff_of_false (by simp [houtcome]) fun hlast => ?_
        have hle := next.toInt_le
        rw [hnext, hlast] at hle
        omega

/-- **When a step breaks off after a run**: it brings a new task, and the ids from the counter on have
been given out. -/
theorem overflow_after_iff {s : Session MemoryStore} (h : s.store.Sound) (steps : List Step)
    (step : Step) :
    let here := (s.run repository steps).2.1
    (step.take repository here).outcome = .overflow ↔
      (∃ t, step.newTask? here.clock = some t) ∧
        s.store.nextId.toInt + (s.givenIds repository steps).length = Int64.maxValue.toInt := by
  intro here
  have hhere : here.store.Sound := s.storeAfter_preserves preserves_sound h steps
  obtain ⟨-, hcounter⟩ := run_ids h steps
  rw [outcome_eq_overflow_iff hhere, ← hcounter, ← Int64.toInt_inj]
  rfl

/-- No step of a run breaks off that is no longer than the ids from the counter on last. -/
theorem overflow_not_mem_run {s : Session MemoryStore} (h : s.store.Sound) {steps : List Step}
    (hroom : s.store.nextId.toInt + steps.length ≤ Int64.maxValue.toInt) :
    .overflow ∉ (s.run repository steps).1 := by
  intro hbroken
  obtain ⟨before, step, after, hsplit, houtcome⟩ := Session.mem_run_iff.mp hbroken
  obtain ⟨-, hfull⟩ := (overflow_after_iff h before step).mp houtcome
  have hgiven := s.length_givenIds_le repository before
  have hlength : before.length < steps.length := by
    rw [hsplit, List.length_append, List.length_cons]
    omega
  omega

/-- The id that an insertion answers is the one of the counter. -/
theorem id_of_insert_eq_ok {s : MemoryStore} {t u : Task}
    (h : (repository.insert t s).result = .ok u) : u.id = some s.nextId := by
  rcases s.insert_cases t with ⟨e, hinsert⟩ | ⟨next, -, -, hinsert⟩
  · rw [hinsert] at h
    cases h
  · rw [hinsert] at h
    obtain rfl := Except.ok.inj h
    rfl

/-! ### Seeded stores -/

/-- A store whose ids are **in order**, where it was seeded with a list and has given out ids since. -/
structure Numbered (seeds : List Task) (given : List Int64) (m : MemoryStore) : Prop where
  /-- The seeded ids come first, in the order of the seeds, then those that were given out. -/
  ids : m.tasks.map Task.id = seeds.map Task.id ++ given.map some
  /-- Every task has an id, and the counter stands above it. -/
  below : ∀ t ∈ m.tasks, ∃ id, t.id = some id ∧ id.toInt < m.nextId.toInt
  distinct : (m.tasks.map Task.id).Nodup
  generated : 10000 ≤ m.nextId.toInt
  /-- The id that is given out next is new. -/
  fresh : ∀ t u, (repository.insert t m).result = .ok u →
    ∃ id, u.id = some id ∧ id ∉ given ∧ some id ∉ m.tasks.map Task.id
  /-- A query for an id answers the one task that has it, or nothing. -/
  answers : ∀ id,
    (∃ t ∈ m.tasks, t.id = some id ∧ (repository.query (.hasId id) m).result = .ok [t]) ∨
      (some id ∉ m.tasks.map Task.id ∧ (repository.query (.hasId id) m).result = .ok [])

/-- The ids of a sound store are in order, if they are the seeded ones and those given out. -/
theorem Sound.numbered {m : MemoryStore} (h : m.Sound) {seeds : List Task} {given : List Int64}
    (hids : m.tasks.map Task.id = seeds.map Task.id ++ given.map some)
    (hgenerated : 10000 ≤ m.nextId.toInt) : Numbered seeds given m where
  ids := hids
  below := by
    intro t ht
    obtain ⟨id, hid⟩ := h.keyed.identified t ht
    exact ⟨id, hid, h.below t ht id hid⟩
  distinct := h.keyed.distinct
  generated := hgenerated
  fresh := by
    intro t u hu
    have hnew : some m.nextId ∉ m.tasks.map Task.id := by
      intro hmem
      obtain ⟨v, hv, hvid⟩ := List.mem_map.mp hmem
      exact h.fresh v hv hvid
    refine ⟨m.nextId, id_of_insert_eq_ok hu, fun hmem => hnew ?_, hnew⟩
    rw [hids]
    exact List.mem_append_right _ (List.mem_map_of_mem hmem)
  answers := by
    intro id
    by_cases hmem : some id ∈ m.tasks.map Task.id
    · obtain ⟨t, ht, hid⟩ := List.mem_map.mp hmem
      exact .inl ⟨t, ht, hid, congrArg Except.ok (h.keyed.filter_hasId ht hid)⟩
    · exact .inr ⟨hmem, congrArg Except.ok (filter_hasId_of_missing hmem)⟩

/-- **In a seeded store ids stay unique, and new ones are new**, after any steps.

A list without the last id of all is refused if and only if a task has no id or that of an earlier
one, and the first such task says for which of the two. -/
theorem ids_unique_and_fresh (seeds : List Task) :
    (∀ s : MemoryStore, ofTasks seeds = .ok s → ∀ (clock : Instant) (steps : List Step),
      let session : Session MemoryStore := ⟨s, clock⟩
      Numbered seeds (session.givenIds repository steps) (session.storeAfter repository steps)) ∧
    ((∀ t ∈ seeds, t.id ≠ some Int64.maxValue) →
      ((∃ e, ofTasks seeds = .error e) ↔ ¬Keyed seeds) ∧
      ∀ e, ofTasks seeds = .error e ↔
        ∃ before t after, seeds = before ++ t :: after ∧ Keyed before ∧
          ((t.id = none ∧ e = .cause .missingId) ∨
            ∃ id, t.id = some id ∧ some id ∈ before.map Task.id ∧
              e = .cause (.alreadyInserted id))) := by
  constructor
  · intro s hs clock steps session
    obtain ⟨-, htasks, hcounter⟩ := seededWith_of_ofTasks hs
    have hsound : session.store.Sound := sound_of_ofTasks hs
    obtain ⟨hids, hnext⟩ := run_ids hsound steps
    rw [show session.store.tasks = seeds from htasks] at hids
    refine (session.storeAfter_preserves preserves_sound hsound steps).numbered hids ?_
    have hfirst : (10000 : Int64).toInt ≤ session.store.nextId.toInt :=
      ((hcounter _).mp (Int.le_refl _)).1
    have hthousand : (10000 : Int64).toInt = 10000 := by decide
    rw [hnext]
    omega
  · intro hrange
    exact ⟨exists_ofTasks_eq_error_iff hrange, fun _ => ofTasks_eq_error_iff_of_inRange hrange⟩

/-- Three seeds out of order, one of them far above the first generated id. A task is stored under
the id after it, another one is not stored for its blank title, and a query for the new id answers
the new task. -/
theorem ids_unique_and_fresh_out_of_order :
    let seed (id : Int64) : Task := { id := some id, title := "a", createdOn := ⟨0⟩ }
    let seeds : List Task := [seed 20000, seed (-3), seed 7]
    let new : Task := { title := "b", createdOn := ⟨0⟩ }
    let session : Session MemoryStore := ⟨⟨seeds, 20001⟩, ⟨0⟩⟩
    let steps : List Step := [.insert new, .insert { new with title := " " }, .markDone 7]
    let last := session.storeAfter repository steps
    ofTasks seeds = .ok session.store ∧
      last.tasks.map Task.id = [some 20000, some (-3), some 7, some 20001] ∧
      (last.tasks.map Task.id).Nodup ∧
      (∃ t ∈ last.tasks, t.id = some 20001 ∧
        (repository.query (.hasId 20001) last).result = .ok [t]) ∧
      ofTasks (seeds ++ [new]) = .error (.cause .missingId) := by
  intro seed seeds new session steps last
  have hseeded : ofTasks seeds = .ok session.store := by decide
  obtain ⟨hruns, -⟩ := ids_unique_and_fresh seeds
  obtain ⟨-, hrefuses⟩ := ids_unique_and_fresh (seeds ++ [new])
  have hnumbered := hruns session.store hseeded ⟨0⟩ steps
  have hids := hnumbered.ids
  have hgiven : session.givenIds repository steps = [20001] := by decide
  rw [hgiven] at hids
  refine ⟨hseeded, hids, hnumbered.distinct, ?_, ?_⟩
  · rcases hnumbered.answers 20001 with hfound | ⟨hmissing, -⟩
    · exact hfound
    · exact absurd (hids ▸ (by decide)) hmissing
  · obtain ⟨-, hfirst⟩ := hrefuses (by decide)
    exact (hfirst _).mpr ⟨seeds, new, [], rfl, (seededWith_of_ofTasks hseeded).seedable.keyed,
      .inl ⟨rfl, rfl⟩⟩

/-- **When a call breaks off.** Seeding does so if and only if a task brings the last id of all and
the tasks before it can be seeded with. A step on a seeded store does so if and only if it brings a
new task and all ids from the counter of the seeded store on have been given out. So no step of a
run does that is no longer than these ids last. -/
theorem overflow_exact (seeds : List Task) :
    (ofTasks seeds = .error .overflow ↔
      ∃ before t after, seeds = before ++ t :: after ∧ Seedable before ∧
        t.id = some Int64.maxValue) ∧
    ∀ s : MemoryStore, ofTasks seeds = .ok s → ∀ (clock : Instant) (steps : List Step),
      let session : Session MemoryStore := ⟨s, clock⟩
      let here := (session.run repository steps).2.1
      let given := session.givenIds repository steps
      (∀ step : Step, (step.take repository here).outcome = .overflow ↔
        (∃ t, step.newTask? here.clock = some t) ∧
          s.nextId.toInt + given.length = Int64.maxValue.toInt) ∧
      (s.nextId.toInt + steps.length ≤ Int64.maxValue.toInt →
        .overflow ∉ (session.run repository steps).1) := by
  refine ⟨ofTasks_eq_overflow_iff, ?_⟩
  intro s hs clock steps session here given
  have hsound : session.store.Sound := sound_of_ofTasks hs
  exact ⟨overflow_after_iff hsound steps, overflow_not_mem_run hsound⟩

/-- A seed has the last id but one. Seeding ends well, and there is no id left for a task that is
created afterwards, while the seed can still be changed. -/
theorem overflow_exact_last_but_one :
    let seed : Task := { id := some (Int64.maxValue - 1), title := "a", createdOn := ⟨0⟩ }
    let session : Session MemoryStore := ⟨⟨[seed], Int64.maxValue⟩, ⟨0⟩⟩
    ofTasks [seed] = .ok session.store ∧
      ((Step.create "b" none).take repository session).outcome = .overflow ∧
      ((Step.markDone (Int64.maxValue - 1)).take repository session).outcome ≠ .overflow ∧
      ofTasks [seed, { seed with id := some Int64.maxValue }] = .error .overflow := by
  intro seed session
  have hseeded : ofTasks [seed] = .ok session.store := by decide
  obtain ⟨-, hruns⟩ := overflow_exact [seed]
  obtain ⟨hseeding, -⟩ := overflow_exact [seed, { seed with id := some Int64.maxValue }]
  obtain ⟨hexact, -⟩ := hruns session.store hseeded ⟨0⟩ []
  refine ⟨hseeded, (hexact _).mpr ⟨⟨_, rfl⟩, rfl⟩, fun hbroken => ?_, ?_⟩
  · obtain ⟨⟨t, hnew⟩, -⟩ := (hexact _).mp hbroken
    cases hnew
  · exact hseeding.mpr ⟨[seed], _, [], rfl, (seededWith_of_ofTasks hseeded).seedable, rfl⟩

/-- **Not every call ends with an answer or an error of the domain**: a seed with the last id breaks
seeding off, and after a seed with the last id but one a creation breaks off. -/
theorem not_always_unbroken :
    ¬(∀ seeds : List Task, ofTasks seeds ≠ .error .overflow) ∧
      ¬∀ (seeds : List Task) (s : MemoryStore), ofTasks seeds = .ok s → ∀ t : Task,
        (repository.insert t s).result ≠ .error .overflow := by
  let seed (id : Int64) : Task := { id := some id, title := "a", createdOn := ⟨0⟩ }
  let new : Task := { title := "b", createdOn := ⟨0⟩ }
  constructor
  · intro h
    exact h [seed Int64.maxValue] (by decide)
  · intro h
    exact h [seed (Int64.maxValue - 1)] ⟨[seed (Int64.maxValue - 1)], Int64.maxValue⟩ (by decide)
      new (by decide)

end MemoryStore

end Taskbook
