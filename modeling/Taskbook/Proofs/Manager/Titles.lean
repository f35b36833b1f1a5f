import Taskbook.Proofs.Manager.History

/-!
# Titles of Stored Tasks

A repository does not write a task whose title is blank, and neither does the manager. Seeding does
not look at titles. So a stored task has a title, unless it is a seed that stands where it was
seeded and that nothing has been written over; every store that begins without such a seed has none
in any state that it reaches.

A seed without a title can be read but not changed. The manager writes back the title that it has
read, so every change of such a task is refused, and the task stays in the store as it is.

## Title convention

A task has a title if one of its characters is not blank (`Taskbook.Text.Blank`); that is what
validating it asks for.

## Main results

* `MemoryStore.titled_or_seeded`: a stored task **has a title or is a seed in its place**;
* `MemoryStore.HasBlankAt.stays`: a task without a title **stays as it is** under the manager;
* `MemoryStore.titled_iff_seeds_titled`: all stored tasks have titles **if and only if the seeds do**.
-/

namespace Taskbook

/-! ### Titles -/

/-- A task **with a title**: one of its characters is not blank. -/
def Task.Titled (t : Task) : Prop :=
  ∃ c ∈ t.title.toList, Text.isBlank c = false

/-- A task has a title if its title is not a blank text. -/
theorem Task.titled_iff {t : Task} : t.Titled ↔ Text.isBlankText t.title = false := by
  rw [Titled, Text.isBlankText, List.all_eq_false]
  simp only [Bool.not_eq_true]

instance (t : Task) : Decidable t.Titled :=
  decidable_of_iff _ Task.titled_iff.symm

/-- A task passes its check if and only if it has a title. -/
theorem Task.validate_eq_ok_iff_titled {t : Task} : t.validate = .ok () ↔ t.Titled := by
  rw [validate_eq_ok_iff, titled_iff]

/-- A step of the manager keeps the title. -/
theorem Task.Titled.alteration {t : Task} (h : t.Titled) (now : Instant) (step : Step) :
    (step.alteration now t).Titled := by
  rw [Titled, Step.title_alteration]
  exact h

namespace MemoryStore

/-! ### Where a task without a title comes from -/

/-- Every task of the store has a title or is what a list has in its place. -/
def TitledOr (ts : List Task) (s : MemoryStore) : Prop :=
  ∀ (i : Nat) (t : Task), s.tasks[i]? = some t → t.Titled ∨ ts[i]? = some t

/-- Replacing puts the new task in a place or leaves the old one there. -/
theorem getElem?_replace {id : Int64} {t u : Task} {ts : List Task} {i : Nat}
    (h : (replace id t ts)[i]? = some u) : u = t ∨ ts[i]? = some u := by
  induction ts generalizing i with
  | nil => cases h
  | cons v vs ih =>
      rw [replace] at h
      by_cases hv : v.id = some id
      · rw [if_pos hv] at h
        cases i with
        | zero => exact .inl (Option.some.inj h).symm
        | succ i => exact .inr h
      · rw [if_neg hv] at h
        cases i with
        | zero => exact .inr h
        | succ i => exact ih h

/-- The operations put no task without a title in a place. -/
theorem preserves_titledOr (ts : List Task) : repository.Preserves (TitledOr ts) where
  insert := by
    intro t s h
    rcases s.insert_cases t with ⟨e, hinsert⟩ | ⟨next, htitle, -, hinsert⟩ <;> rw [hinsert]
    · exact h
    · intro i u hu
      rw [List.getElem?_append] at hu
      split at hu
      · exact h i u hu
      -- Behind the tasks that were there stands the inserted one alone.
      · have hmem := List.mem_of_getElem? hu
        rw [List.mem_singleton.mp hmem]
        exact .inl (Task.titled_iff.mpr htitle)
  query := fun _ _ h => h
  update := by
    intro t s h
    rcases s.update_cases t with ⟨e, hupdate⟩ | ⟨id, -, htitle, hupdate⟩ <;> rw [hupdate]
    · exact h
    · intro i u hu
      rcases getElem?_replace hu with rfl | hold
      · exact .inl (Task.titled_iff.mpr htitle)
      · exact h i u hold

/-- **A stored task has a title or is a seed in its place**, after any steps. -/
theorem titled_or_seeded {seeds : List Task} {s : MemoryStore} (h : ofTasks seeds = .ok s)
    (clock : Instant) (steps : List Step) :
    TitledOr seeds ((⟨s, clock⟩ : Session MemoryStore).storeAfter repository steps) := by
  have hseeded : TitledOr seeds s := by
    intro i t ht
    rw [(seededWith_of_ofTasks h).tasks_eq] at ht
    exact .inr ht
  exact Session.storeAfter_preserves (preserves_titledOr seeds) hseeded steps

/-- Where all seeds have titles all stored tasks have, after any steps. -/
theorem titled_of_seeds_titled {seeds : List Task} {s : MemoryStore} (h : ofTasks seeds = .ok s)
    (titled : ∀ t ∈ seeds, t.Titled) (clock : Instant) (steps : List Step) :
    ∀ t ∈ ((⟨s, clock⟩ : Session MemoryStore).storeAfter repository steps).tasks, t.Titled := by
  intro t ht
  obtain ⟨i, hi⟩ := List.mem_iff_getElem?.mp ht
  rcases titled_or_seeded h clock steps i t hi with htitled | hseed
  · exact htitled
  · exact titled t (List.mem_of_getElem? hseed)

/-! ### What becomes of a task without a title -/

/-- The task in a place of a sound store is a given one, which has no title. -/
structure HasBlankAt (i : Nat) (t : Task) (s : MemoryStore) : Prop where
  sound : s.Sound
  stands : s.tasks[i]? = some t
  untitled : ¬t.Titled

namespace HasBlankAt

variable {i : Nat} {t : Task} {s : MemoryStore}

/-- A change of a task without a title is refused, and a change of another one leaves it alone. -/
theorem change (h : HasBlankAt i t s) (id : Int64) (f : Task → Task) :
    (t.id = some id → s.change id f = (.refused (.repo (.validation .empty)), s)) ∧
      (s.change id f).2.tasks[i]? = some t := by
  have hblank : Text.isBlankText t.title = true := by
    simpa [Task.titled_iff] using h.untitled
  have hrefused (hid : t.id = some id) :
      s.change id f = (.refused (.repo (.validation .empty)), s) := by
    -- Ids are unique, so it is this task that is found under its id.
    have hfind : s.find? id = some t :=
      h.sound.keyed.find?_eq_some_iff.mpr ⟨List.mem_of_getElem? h.stands, hid⟩
    rw [MemoryStore.change, hfind]
    exact if_pos hblank
  refine ⟨hrefused, ?_⟩
  by_cases hid : t.id = some id
  · rw [hrefused hid]
    exact h.stands
  · rcases s.change_cases id f with ⟨e, hchange⟩ | ⟨u, -, hchange⟩ <;> rw [hchange]
    · exact h.stands
    · rw [amend, List.getElem?_map, h.stands, Option.map_some, if_neg hid]

/-- **A step of the manager leaves a task without a title as it is.** -/
theorem effect (h : HasBlankAt i t s) (now : Instant) {step : Step} (hstep : step.OfManager) :
    (step.effect now s).2.tasks[i]? = some t := by
  cases step with
  | create title due =>
      rw [Step.effect_create]
      rcases s.enter_cases now title due with ⟨o, -, henter⟩ | ⟨next, -, -, henter⟩ <;>
        rw [henter]
      · exact h.stands
      · obtain ⟨hlt, -⟩ := List.getElem?_eq_some_iff.mp h.stands
        rw [List.getElem?_append_left hlt]
        exact h.stands
  | markDone id | reopen id | postpone id _ | reprioritize id _ => exact (h.change id _).2
  | insert t | update t | query p => exact hstep.elim
  | _ => exact h.stands

/-- **A task without a title stays as it is** under every run of the manager. -/
theorem stays {s : Session MemoryStore} (h : HasBlankAt i t s.store) {steps : List Step}
    (hsteps : ∀ step ∈ steps, step.OfManager) :
    HasBlankAt i t (s.storeAfter repository steps) := by
  induction steps generalizing s with
  | nil => exact h
  | cons step steps ih =>
      have hstep := hsteps step List.mem_cons_self
      obtain ⟨-, hstore⟩ := h.sound.take_eq_effect hstep.asks
      refine ih ⟨step.take_preserves preserves_sound h.sound, ?_, h.untitled⟩
        fun x hx => hsteps x (List.mem_cons_of_mem step hx)
      rw [hstore]
      exact h.effect s.clock hstep

/-- **A change of a task without a title is refused** for the title. -/
theorem refused {s : Session MemoryStore} (h : HasBlankAt i t s.store) {step : Step} {id : Int64}
    (hid : t.id = some id) (htarget : step.target? = some id) :
    (step.take repository s).outcome = .refused (.repo (.validation .empty)) := by
  have hstep : step.OfManager := by
    cases step with
    | insert u | update u | query p => cases htarget
    | _ => trivial
  obtain ⟨houtcome, -⟩ := h.sound.take_eq_effect hstep.asks
  rw [houtcome, Step.effect_of_target s.clock s.store htarget, (h.change id _).1 hid]

end HasBlankAt

/-! ### Seeded stores -/

/-- **All stored tasks have titles if and only if the seeds do.** After any steps on a seeded store a
stored task without a title is a seed in its place. Where all seeds have titles, as they do where
there are none, all stored tasks pass their check after any steps; a seed that has no title does
not. It stays as it is in all runs of the manager, and the manager refuses to change it. -/
theorem titled_iff_seeds_titled {seeds : List Task} {s : MemoryStore}
    (h : ofTasks seeds = .ok s) (clock : Instant) :
    let session : Session MemoryStore := ⟨s, clock⟩
    (∀ (steps : List Step) (i : Nat) (t : Task),
      (session.storeAfter repository steps).tasks[i]? = some t →
        t.Titled ∨ seeds[i]? = some t) ∧
    ((∀ steps, ∀ t ∈ (session.storeAfter repository steps).tasks, t.validate = .ok ()) ↔
      ∀ t ∈ seeds, t.Titled) ∧
    ∀ (i : Nat) (t : Task), seeds[i]? = some t → ¬t.Titled →
      ∀ steps : List Step, (∀ step ∈ steps, step.OfManager) →
        (session.storeAfter repository steps).tasks[i]? = some t ∧
        ∀ step : Step, step.target? = t.id →
          (step.take repository (session.run repository steps).2.1).outcome =
            .refused (.repo (.validation .empty)) := by
  intro session
  obtain ⟨hseedable, htasks, -⟩ := seededWith_of_ofTasks h
  refine ⟨titled_or_seeded h clock, ?_, ?_⟩
  · simp only [Task.validate_eq_ok_iff_titled]
    constructor
    · intro hall
      exact htasks ▸ hall []
    · exact fun titled => titled_of_seeds_titled h titled clock
  · intro i t hi untitled steps hsteps
    have hblank : HasBlankAt i t session.store := ⟨sound_of_ofTasks h, htasks ▸ hi, untitled⟩
    have hlast := hblank.stays hsteps
    refine ⟨hlast.stands, fun step htarget => ?_⟩
    obtain ⟨id, hid⟩ := hseedable.keyed.identified t (List.mem_of_getElem? hi)
    exact hlast.refused hid (htarget.trans hid)

/-- A seed whose title is a space, and one with a title. The first one is still there after the
manager has tried to mark both as done, it does not pass its check, and it cannot be postponed. -/
theorem titled_iff_seeds_titled_space :
    let blank : Task := { id := some 1, title := " ", createdOn := ⟨0⟩ }
    let seeds : List Task := [blank, { id := some 2, title := "a", createdOn := ⟨0⟩ }]
    let session : Session MemoryStore := ⟨⟨seeds, firstGeneratedId⟩, ⟨7⟩⟩
    let steps : List Step := [.markDone 1, .markDone 2]
    ofTasks seeds = .ok session.store ∧
      (session.storeAfter repository steps).tasks[0]? = some blank ∧
      ((Step.postpone 1 ⟨9⟩).take repository (session.run repository steps).2.1).outcome =
        .refused (.repo (.validation .empty)) ∧
      ¬∀ steps, ∀ t ∈ (session.storeAfter repository steps).tasks, t.validate = .ok () := by
  intro blank seeds session steps
  have hseeded : ofTasks seeds = .ok session.store := by decide
  have huntitled : ¬blank.Titled := by decide
  obtain ⟨-, hall, hstays⟩ := titled_iff_seeds_titled hseeded ⟨7⟩
  obtain ⟨hstands, hrefused⟩ := hstays 0 blank rfl huntitled steps (by decide)
  refine ⟨hseeded, hstands, hrefused _ rfl, fun hvalid => huntitled ?_⟩
  exact hall.mp hvalid blank List.mem_cons_self

/-- **Not every stored task has a title**: a seed whose title is a space does not. -/
theorem not_always_titled :
    ¬∀ (seeds : List Task) (s : MemoryStore), ofTasks seeds = .ok s →
      ∀ (clock : Instant) (steps : List Step),
        ∀ t ∈ ((⟨s, clock⟩ : Session MemoryStore).storeAfter repository steps).tasks,
          t.Titled ∧ t.validate = .ok () := by
  let blank : Task := { id := some 1, title := " ", createdOn := ⟨0⟩ }
  intro h
  obtain ⟨htitled, -⟩ :=
    h [blank] ⟨[blank], firstGeneratedId⟩ (by decide) ⟨0⟩ [] blank List.mem_cons_self
  exact absurd htitled (by decide)

end MemoryStore

end Taskbook
