import Taskbook.Proofs.Manager.Shift

/-!
# The Tasks That the Manager Makes

The manager refuses a blank title and never writes a reference to a recurring task. So every task
that it leaves behind has a title and comes from no recurring task. All other fields are free: a
task with any contents of these is made by creating it under the right reading of the clock, giving
it its priority, and then postponing it and marking it done if it is postponed and done.

## Main results

* `MemoryStore.Managed.effect`: the manager leaves **only manageable tasks** behind;
* `MemoryStore.follow_making`: **every manageable task is made** by a run of the manager.
-/

namespace Taskbook

/-! ### Tasks that the manager makes -/

/-- A task that the manager can make: it has a title and comes from no recurring task. -/
structure Task.Manageable (t : Task) : Prop where
  title : Text.isBlankText t.title = false
  unlinked : t.createdFrom = none

/-- A step of the manager keeps a task manageable. -/
theorem Task.Manageable.alteration {t : Task} (h : t.Manageable) (now : Instant) (step : Step) :
    (step.alteration now t).Manageable where
  title := by rw [Step.title_alteration, h.title]
  unlinked := by rw [Step.createdFrom_alteration, h.unlinked]

namespace MemoryStore

/-- A store that only the manager has written. -/
structure Managed (m : MemoryStore) : Prop where
  sound : m.Sound
  manageable : ∀ t ∈ m.tasks, t.Manageable

/-- The store that stands for new tables. -/
def beginning : MemoryStore := ⟨[], 1⟩

/-- Nothing has been written to begin with. -/
theorem managed_beginning : beginning.Managed where
  sound := ⟨.nil, by simp [beginning]⟩
  manageable := by simp [beginning]

/-- Moved ids begin where the store in memory begins. -/
theorem shift_beginning : beginning.shift = empty := by decide +kernel

/-- A step of the manager leaves a store behind that only the manager has written. -/
theorem Managed.effect {P : Predicate → Prop} {m : MemoryStore} (h : m.Managed) (now : Instant)
    {step : Step} (hasks : step.Asks P) : (step.effect now m).2.Managed where
  sound := h.sound.effect now hasks
  manageable := forall_mem_effect h.manageable step (fun _ ht => ht.alteration now step)
    fun _ _ _ htitle => ⟨htitle, rfl⟩

end MemoryStore

/-! ### Every manageable task is made by a run -/

/-- The steps that **make** a task with given fields, if the next id is the given one. -/
def Task.making (id : Int64) (t : Task) : List Step :=
  [.setClock t.createdOn, .create t.title t.dueDate, .reprioritize id t.priority] ++
    t.postponedUntil.toList.map (Step.postpone id) ++
    t.doneOn.toList.flatMap fun done => [.setClock done, .markDone id]

/-- Making a task asks for nothing. -/
theorem Task.asks_making {P : Predicate → Prop} (id : Int64) (t : Task) :
    ∀ step ∈ t.making id, step.Asks P := by
  rw [making]
  cases t.postponedUntil <;> cases t.doneOn <;> simp [Step.Asks]

/-- Making a task under the moved id is moving the steps that make it. -/
theorem Task.map_shift_making (id : Int64) (t : Task) :
    (t.making id).map Step.shift = t.making (shiftId id) := by
  rw [making, making]
  cases t.postponedUntil <;> cases t.doneOn <;> rfl

namespace MemoryStore

/-- A change to the only task of a store. -/
theorem effect_single {t : Task} {id n : Int64} (hid : t.id = some id)
    (htitle : Text.isBlankText t.title = false) {step : Step} (htarget : step.target? = some id)
    (now : Instant) :
    (step.effect now ⟨[t], n⟩).2 = ⟨[step.alteration now t], n⟩ := by
  have hchange : ((⟨[t], n⟩ : MemoryStore).change id (step.alteration now)).2 =
      ⟨[step.alteration now t], n⟩ := by
    have hfind : (⟨[t], n⟩ : MemoryStore).find? id = some t := by
      rw [find?, List.find?_cons, hid, beq_self_eq_true]
    rw [change, hfind]
    dsimp only
    rw [htitle, if_neg Bool.false_ne_true, amend, List.map_cons, if_pos hid]
    rfl
  rw [Step.effect_of_target now _ htarget]
  exact hchange

/-- **A manageable task is made** by the steps that make it. -/
theorem follow_making {t : Task} (h : t.Manageable) {id next : Int64}
    (hnext : Number.next? id = some next) (now : Instant) :
    ((⟨[], id⟩ : MemoryStore).follow now (t.making id)).2 =
      ⟨[{ t with id := some id }], next⟩ := by
  obtain ⟨i, title, createdOn, doneOn, postponedUntil, dueDate, priority, createdFrom⟩ := t
  obtain ⟨htitle, hfrom⟩ := h
  dsimp only at htitle hfrom
  subst hfrom
  have hopen : ((⟨[], id⟩ : MemoryStore).follow now
      [.setClock createdOn, .create title dueDate, .reprioritize id priority]).2 =
      ⟨[{ id := some id, title, createdOn, dueDate, priority }], next⟩ := by
    have hblank : ¬Text.isBlankText title = true := Bool.eq_false_iff.mp htitle
    have henter : ((⟨[], id⟩ : MemoryStore).enter createdOn title dueDate).2 =
        ⟨[{ id := some id, title, createdOn, dueDate }], next⟩ := by
      rw [enter, if_neg hblank, hnext]
      rfl
    show (Step.effect createdOn ((⟨[], id⟩ : MemoryStore).enter createdOn title dueDate).2
      (.reprioritize id priority)).2 = _
    rw [henter]
    exact effect_single rfl htitle rfl _
  have hpostponed (clock : Instant) :
      (follow clock ⟨[{ id := some id, title, createdOn, dueDate, priority }], next⟩
        (postponedUntil.toList.map (Step.postpone id))).2 =
      ⟨[{ id := some id, title, createdOn, postponedUntil, dueDate, priority }], next⟩ := by
    cases postponedUntil with
    | none => rfl
    | some until_ => exact effect_single rfl htitle rfl _
  have hdone (clock : Instant) :
      (follow clock ⟨[{ id := some id, title, createdOn, postponedUntil, dueDate, priority }], next⟩
        (doneOn.toList.flatMap fun done => [.setClock done, .markDone id])).2 =
      ⟨[{ id := some id, title, createdOn, doneOn, postponedUntil, dueDate, priority }], next⟩ := by
    cases doneOn with
    | none => rfl
    | some done => exact effect_single rfl htitle rfl _
  dsimp only [Task.making]
  rw [follow_append, follow_append, hopen, hpostponed, hdone]

end MemoryStore

end Taskbook
