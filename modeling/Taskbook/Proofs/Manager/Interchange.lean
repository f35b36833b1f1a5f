import Taskbook.Proofs.Manager.Making
import Taskbook.Schema.Database

/-!
# Which Runs Do Not Tell the Backends Apart

A new store in memory and the tables of a new database are asked the same, up to the shift of
ids. The manager itself never tells them apart. A query of the caller's own can: over a text that
is compared with an integer column the two backends read numerals differently, and a database reads
conditions only down to a certain depth and operands only up to a certain number. This module says
exactly when that happens. A class of predicates leaves the backends interchangeable if and only if
each of its predicates is *portable*: small enough to be read, and of one meaning on every task that
the manager can make. That is so for every engine, since a row whose id is not asked for is selected
alike by all of them.

Portability is enough because every run is followed in the same way on both sides
(`Taskbook.Proofs.Manager.Following`, `Taskbook.Proofs.Manager.Shift`). It is necessary because
the manager can make every task with a title and without a recurring task behind it, so a single
task on which a predicate is not of one meaning is the end of a run that shows it.

## Query convention

Predicates name fields of a task and never ask for the id, as ids differ between the backends.

## Main results

* `interchangeable_iff_portable`: the backends are interchangeable **exactly for portable
  predicates**;
* `interchangeable_plain`: they are for plain predicates;
* `not_interchangeable`: they are not for all predicates.
-/

namespace Taskbook

/-! ### Portable predicates -/

/-- A **portable** predicate fits into a statement, and memory and tables agree on it for every task
that the manager can make. -/
structure Predicate.Portable (p : Predicate) : Prop where
  fits : p.Fits
  agrees : ∀ t : Task, t.Manageable → p.Agrees t

/-- A plain predicate is portable. -/
theorem Predicate.Plain.portable {p : Predicate} (h : p.Plain) : p.Portable where
  fits := h.fits
  agrees := fun t _ => h.agrees t

namespace Tables

/-- Tables have room while the next id is far from the end of the range. -/
theorem hasRoom_of_sound {s : Tables} {m : MemoryStore} (h : s.Keeps m.tasks) (sound : m.Sound)
    (hroom : m.nextId.toInt < Int64.maxValue.toInt) : s.HasRoom := by
  intro r hr
  have hmem : some r.id ∈ m.tasks.map Task.id := by
    rw [h.map_id]
    exact List.mem_map_of_mem hr
  obtain ⟨t, ht, htid⟩ := List.mem_map.mp hmem
  have hbelow := sound.below t ht r.id htid
  omega

/-- Tables that only the manager has written are as every run needs them that asks portable
predicates only and does not come to the end of the ids in memory. -/
theorem servesThroughout [Engine] {P : Predicate → Prop} (named : ∀ p, P p → p.NamesFields)
    (avoids : ∀ p, P p → p.AvoidsId) (portable : ∀ p, P p → p.Portable) {s : Session Tables}
    {m : MemoryStore} (h : ledger.Keeps s.store m) (managed : m.Managed)
    (hrange : m.nextId.toInt + 9999 ≤ Int64.maxValue.toInt) {steps : List Step}
    (hasks : ∀ step ∈ steps, step.Asks P)
    (hlast : (m.shift.follow s.clock (steps.map Step.shift)).2.nextId.toInt <
      Int64.maxValue.toInt) : ledger.ServesThroughout s m steps := by
  induction steps generalizing s m with
  | nil => trivial
  | cons step steps ih =>
      have hstep := hasks step List.mem_cons_self
      obtain ⟨hroom, hrange', hlast'⟩ :=
        MemoryStore.range_of_follow hrange (hstep.imp avoids) hlast
      have hserves : ledger.Serves s.store m step := by
        cases step with
        | create title due => exact fun _ => hasRoom_of_sound h.1 managed.sound (by omega)
        | query p =>
            have hnamed := named p hstep
            have hportable := portable p hstep
            refine h.1.query_eq ((Predicate.fault?_eq_none_iff hnamed).mpr hportable.fits) ?_ ?_
            · exact fun r _ => (avoids p hstep).findsExactly hnamed _
            · exact fun t ht => hportable.agrees t (managed.manageable t ht)
        | insert t | update t => exact hstep.elim
        | _ => trivial
      obtain ⟨-, hclock, hkeeps⟩ := ledger.take_effect h s.clock hserves
      refine ⟨hserves, ih hkeeps (managed.effect s.clock hstep) hrange'
        (fun x hx => hasks x (List.mem_cons_of_mem step hx)) ?_⟩
      rw [hclock]
      exact hlast'

end Tables

/-! ### Portability is enough -/

/-- The backends are **interchangeable** for a class of predicates: after the same steps on a new
store in memory and on a new database, taken under the moved ids in memory, all outcomes are the
same and the stores hold the same tasks in the same order, up to the shift. The steps are any of
the manager, moves of the clock and queries by predicates of the class, as long as the counter in
memory stays below the last id of all. A run that is broken off is a run, so the stores are the
same after every step. -/
def Interchangeable [Engine] (P : Predicate → Prop) : Prop :=
  ∀ db, Database.openMemory.1 = .ok db → ∀ (clock : Instant) (steps : List Step),
    (∀ step ∈ steps, step.Asks P) →
      let memory : Session MemoryStore := ⟨.empty, clock⟩
      let tables : Session Tables := ⟨db.tables, clock⟩
      let shifted := steps.map Step.shift
      (memory.storeAfter MemoryStore.repository shifted).nextId.toInt < Int64.maxValue.toInt →
        (memory.run MemoryStore.repository shifted).1 =
            (tables.run Tables.repository steps).1.map Outcome.shift ∧
          ∃ ts,
            (tables.storeAfter Tables.repository steps).tasks.rows.mapM
                (fun r => Task.ofCells r.cells) = .ok ts ∧
              (memory.storeAfter MemoryStore.repository shifted).tasks = ts.map Task.shift

/-- A new database is opened. -/
theorem Database.exists_openMemory : ∃ db, openMemory.1 = .ok db := by
  cases hdb : openMemory.1 with
  | error e =>
      have hnew : openMemory.1.map Database.tables = .ok .empty := rfl
      rw [hdb] at hnew
      cases hnew
  | ok db => exact ⟨db, rfl⟩

/-- A new database has no rows. -/
theorem Database.tables_of_openMemory {db : Database} (h : openMemory.1 = .ok db) :
    db.tables = .empty := by
  have hnew : openMemory.1.map Database.tables = .ok .empty := rfl
  rw [h] at hnew
  exact Except.ok.inj hnew

/-- New tables stand for the beginning. -/
theorem Tables.keeps_beginning [Engine] : ledger.Keeps .empty MemoryStore.beginning :=
  ⟨.nil, by decide, rfl⟩

/-- In memory the moved steps are followed exactly. -/
theorem MemoryStore.run_shift_eq_follow {P : Predicate → Prop} (clock : Instant)
    {steps : List Step} (hasks : ∀ step ∈ steps, step.Asks P) :
    let memory : Session MemoryStore := ⟨.empty, clock⟩
    let followed := beginning.shift.follow clock (steps.map Step.shift)
    (memory.run repository (steps.map Step.shift)).1 = followed.1 ∧
      memory.storeAfter repository (steps.map Step.shift) = followed.2 := by
  intro memory followed
  have hshifted : ∀ step ∈ steps.map Step.shift, step.Asks P := by
    intro step hstep
    obtain ⟨x, hx, rfl⟩ := List.mem_map.mp hstep
    exact (hasks x hx).shift
  have hfollowed : followed = empty.follow clock (steps.map Step.shift) :=
    congrArg (fun m => m.follow clock (steps.map Step.shift)) shift_beginning
  rw [hfollowed]
  exact run_eq_follow sound_empty clock hshifted

/-- **Portability is enough.** -/
theorem interchangeable_of_portable [Engine] {P : Predicate → Prop}
    (named : ∀ p, P p → p.NamesFields) (avoids : ∀ p, P p → p.AvoidsId)
    (portable : ∀ p, P p → p.Portable) : Interchangeable P := by
  intro db hdb clock steps hasks memory tables shifted hlast
  obtain ⟨houtcomes, hstore⟩ := MemoryStore.run_shift_eq_follow clock hasks
  rw [hstore] at hlast
  have hrange : MemoryStore.beginning.nextId.toInt + 9999 ≤ Int64.maxValue.toInt := by decide
  have hfollow := MemoryStore.follow_shift hrange (fun x hx => (hasks x hx).imp avoids) hlast
  have htables : tables = ⟨.empty, clock⟩ :=
    congrArg (fun s => (⟨s, clock⟩ : Session Tables)) (Database.tables_of_openMemory hdb)
  have hserves := Tables.servesThroughout named avoids portable (s := tables)
    (htables ▸ Tables.keeps_beginning) MemoryStore.managed_beginning hrange hasks hlast
  obtain ⟨houtcomes', hkeeps⟩ :=
    Tables.ledger.run_follow (htables ▸ Tables.keeps_beginning) hserves
  refine ⟨?_, _, Tables.keeps_iff.mp hkeeps.1, ?_⟩
  · rw [houtcomes, hfollow, houtcomes']
  · rw [hstore, hfollow]
    rfl

/-! ### Portability is necessary -/

/-- A query at the end of a run is answered by the store that the run leaves. -/
theorem Session.run_query {σ : Type} (repo : Repository σ) (s : Session σ) (steps : List Step)
    (p : Predicate) :
    (s.run repo (steps ++ [.query p])).1 = (s.run repo steps).1 ++
      [.ofResult .tasks .refusedByStore (repo.query p (s.storeAfter repo steps)).result] := by
  rw [run_append]
  rfl

/-- **Interchangeable backends answer a query alike** after every run that asks predicates of the
class only. -/
theorem Interchangeable.query [Engine] {P : Predicate → Prop} (h : Interchangeable P)
    {p : Predicate} (hp : P p) (clock : Instant) (steps : List Step)
    (hasks : ∀ step ∈ steps, step.Asks P) :
    let left := MemoryStore.beginning.shift.follow clock (steps.map Step.shift)
    let tables : Session Tables := ⟨.empty, clock⟩
    left.2.nextId.toInt < Int64.maxValue.toInt →
      .tasks (left.2.tasks.filter p.holds) =
        (Outcome.ofResult .tasks .refusedByStore
          (Tables.repository.query p (tables.storeAfter Tables.repository steps)).result).shift := by
  intro left tables hlast
  obtain ⟨db, hdb⟩ := Database.exists_openMemory
  have hall : ∀ step ∈ steps ++ [Step.query p], step.Asks P := by
    intro step hstep
    rcases List.mem_append.mp hstep with hstep | hstep
    · exact hasks step hstep
    · rw [List.mem_singleton.mp hstep]
      exact hp
  have hmap : (steps ++ [Step.query p]).map Step.shift =
      steps.map Step.shift ++ [Step.query p] := by
    rw [List.map_append]
    rfl
  obtain ⟨-, hleft⟩ := MemoryStore.run_shift_eq_follow clock hasks
  obtain ⟨-, hstore⟩ := MemoryStore.run_shift_eq_follow clock hall
  have hsame := hmap ▸ MemoryStore.follow_append clock MemoryStore.beginning.shift
    (steps.map Step.shift) [.query p]
  obtain ⟨houtcomes, -⟩ := h db hdb clock _ hall (by rw [hstore, hsame]; exact hlast)
  rw [Database.tables_of_openMemory hdb, hmap, Session.run_query, Session.run_query,
    List.map_append, hleft, MemoryStore.query_eq] at houtcomes
  obtain ⟨-, hanswer⟩ := List.append_inj' houtcomes rfl
  exact List.head_eq_of_cons_eq hanswer

/-- A predicate of interchangeable backends fits into a statement, because a new database refuses it
otherwise. -/
theorem Interchangeable.fits [Engine] {P : Predicate → Prop} (h : Interchangeable P) {p : Predicate}
    (hp : P p) (named : p.NamesFields) : p.Fits := by
  by_contra hlarge
  obtain ⟨e, -, hfault⟩ := Predicate.exists_fault?_of_not_fits named hlarge
  obtain ⟨events, hquery⟩ := Tables.Keeps.query_eq_of_fault hfault .empty
  have hanswer := h.query hp ⟨0⟩ [] (fun _ hstep => absurd hstep List.not_mem_nil)
    (by decide +kernel)
  have hstore : (⟨.empty, ⟨0⟩⟩ : Session Tables).storeAfter Tables.repository [] = .empty := rfl
  rw [hstore, hquery] at hanswer
  cases hanswer

/-- In memory the moved steps that make a task leave the task alone in the store. -/
theorem MemoryStore.follow_shift_making {t : Task} (h : t.Manageable) (clock : Instant) :
    (beginning.shift.follow clock ((t.making 1).map Step.shift)).2 =
      ⟨[{ t with id := some (shiftId 1) }], shiftId 2⟩ := by
  have hnext : Number.next? (shiftId 1) = some (shiftId 2) := by decide +kernel
  rw [t.map_shift_making]
  exact follow_making h hnext clock

/-- New tables keep a task alone after the steps that make it. -/
theorem Tables.keeps_making [Engine] {t : Task} (h : t.Manageable) (clock : Instant) :
    ((⟨.empty, clock⟩ : Session Tables).storeAfter repository (t.making 1)).Keeps
      [{ t with id := some 1 }] := by
  have hnext : Number.next? 1 = some 2 := by decide
  have hrange : MemoryStore.beginning.nextId.toInt + 9999 ≤ Int64.maxValue.toInt := by decide
  have hlast : (shiftId 2).toInt < Int64.maxValue.toInt := by decide +kernel
  -- Making asks no predicates, so the class may be empty.
  have hasks : ∀ step ∈ t.making 1, step.Asks fun _ => False := t.asks_making 1
  have hserves : ledger.ServesThroughout ⟨.empty, clock⟩ MemoryStore.beginning (t.making 1) := by
    refine servesThroughout (fun _ => False.elim) (fun _ => False.elim) (fun _ => False.elim)
      keeps_beginning MemoryStore.managed_beginning hrange hasks ?_
    rw [MemoryStore.follow_shift_making h]
    exact hlast
  obtain ⟨-, hkeeps, -⟩ := ledger.run_follow keeps_beginning hserves
  have htasks : (MemoryStore.beginning.follow clock (t.making 1)).2.tasks =
      [{ t with id := some 1 }] :=
    congrArg MemoryStore.tasks (MemoryStore.follow_making h hnext clock)
  exact htasks ▸ hkeeps

/-- A predicate of interchangeable backends is of one meaning on every task that the manager can
make, because the manager makes it. -/
theorem Interchangeable.agrees [Engine] {P : Predicate → Prop} (h : Interchangeable P)
    {p : Predicate} (hp : P p) (named : p.NamesFields) (avoids : p.AvoidsId) (fits : p.Fits)
    {t : Task} (ht : t.Manageable) : p.Agrees t := by
  have accepted : p.fault? = none := (Predicate.fault?_eq_none_iff named).mpr fits
  obtain ⟨events, hquery⟩ := (Tables.keeps_making ht ⟨0⟩).query_eq_truth accepted
    fun _ _ => avoids.findsExactly named _
  have hmade := MemoryStore.follow_shift_making ht ⟨0⟩
  have hlast : (shiftId 2).toInt < Int64.maxValue.toInt := by decide +kernel
  have hanswer := h.query hp ⟨0⟩ (t.making 1) (t.asks_making 1) (by rw [hmade]; exact hlast)
  rw [hmade, hquery] at hanswer
  have hlists := Outcome.tasks.inj hanswer
  -- Neither side looks at the id, so both lists are about the task itself.
  have hholds : p.holds { t with id := some (shiftId 1) } = p.holds t :=
    avoids.holds_congr fun _ hf => t.get_withId _ hf
  have htruth : p.truth ({ t with id := some 1 } : Task).cells = p.truth t.cells :=
    avoids.truth_congr named fun _ hf => t.get_withId _ hf
  simp only [List.filter_cons, List.filter_nil, hholds, htruth] at hlists
  rw [Predicate.Agrees]
  cases hmemory : p.holds t <;> cases htable : p.truth t.cells == .yes <;>
    simp [hmemory, htable] at hlists ⊢

/-- The backends are **interchangeable exactly for portable predicates**. -/
theorem interchangeable_iff_portable [Engine] {P : Predicate → Prop}
    (named : ∀ p, P p → p.NamesFields)
    (avoids : ∀ p, P p → p.AvoidsId) : Interchangeable P ↔ ∀ p, P p → p.Portable := by
  constructor
  · intro h p hp
    have fits := h.fits hp (named p hp)
    exact ⟨fits, fun t ht => h.agrees hp (named p hp) (avoids p hp) fits ht⟩
  · exact interchangeable_of_portable named avoids

/-- Asking for the tasks to show is no asking for ids, so the backends answer it alike, in whatever
runs it is asked. -/
theorem interchangeable_relevantAt :
    let _ : Engine := .scanning
    Interchangeable fun p => ∃ now, p = .relevantAt now := by
  intro _
  refine (interchangeable_iff_portable ?_ ?_).mpr ?_
  · rintro _ ⟨now, rfl⟩
    exact (Predicate.plain_relevantAt now).named
  · rintro _ ⟨now, rfl⟩
    exact Predicate.avoidsId_relevantAt now
  · rintro _ ⟨now, rfl⟩
    exact (Predicate.plain_relevantAt now).portable

/-- The backends are interchangeable **for plain predicates**. -/
theorem interchangeable_plain [Engine] : Interchangeable fun p => p.Plain ∧ p.AvoidsId :=
  interchangeable_of_portable (fun _ h => h.1.named) (fun _ h => h.2) fun _ h => h.1.portable

/-- Tasks that are due before a five behind a space that does not break. In memory the operand is
the number five, in a table it stays a text, which is greater than every number. -/
def Predicate.beforePaddedFive : Predicate :=
  .condition ⟨"due_date", .lessThan, .text "\u00a05", by decide, rfl⟩

/-- The backends are **not interchangeable for all predicates**, whatever the engine is: a task that
is due at ten is due before the padded five in the table only. -/
theorem not_interchangeable :
    ¬∃ _ : Engine, Interchangeable fun p => p.NamesFields ∧ p.AvoidsId := by
  rintro ⟨_, h⟩
  have hnamed : Predicate.beforePaddedFive.NamesFields := by decide
  have havoids : Predicate.beforePaddedFive.AvoidsId := by decide
  let t : Task := { title := "a", createdOn := ⟨0⟩, dueDate := some ⟨10⟩ }
  have hmanageable : t.Manageable := ⟨by decide, rfl⟩
  have hagrees : Predicate.beforePaddedFive.Agrees t :=
    h.agrees ⟨hnamed, havoids⟩ hnamed havoids (by decide) hmanageable
  exact absurd hagrees (by decide)

end Taskbook
