import Taskbook.Proofs.Manager.Failure
import Taskbook.Proofs.Manager.Interchange
import Taskbook.Proofs.Manager.Titles

/-!
# What the Manager Refuses

A call of the manager can be refused for a title and for an id, and for nothing else. Which call is
refused, and with which error, can be told from the call and from the ids of the stored tasks.

A repository knows more errors than these two. None of them is ever passed on: the tasks that are
stored have titles and are found by their ids, a task that is written back was read before, and
what the manager inserts has a title and no id yet. The first of these is an invariant of the
manager, which every step keeps (`MemoryStore.forall_mem_effect`); the others are the laws of a
ledger. So what is refused is said once, for every repository with a ledger.

## Room convention

After the last id nothing more is created; a call that attempts it breaks off. The statements are
about runs in which every new id is below the last one of all.

## Main results

* `Step.effect_cases`: **the refusals of a step** on tasks with titles;
* `Ledger.Told.errsExactly_after`: the same **after any run**, on a repository with a ledger;
* `Session.manager_errs_exactly`: **both backends** refuse exactly this.
-/

namespace Taskbook

variable {σ : Type}

/-! ### Refusals -/

/-- The error with which a call is **refused**, where tasks with the given ids are stored. -/
def Step.refusal? (ids : List Int64) : Step → Option ManagerError
  | create title _ => if Text.trim title = "" then some .invalidTitle else none
  | get id | markDone id | reopen id | postpone id _ | reprioritize id _ =>
    if id ∈ ids then none else some (.notFound id)
  | _ => none

/-- A call is refused for its title or for an id. -/
theorem Step.refusal?_eq_some {ids : List Int64} {step : Step} {e : ManagerError}
    (h : step.refusal? ids = some e) : e = .invalidTitle ∨ ∃ id, e = .notFound id := by
  cases step with
  | create title due =>
      rw [refusal?, Option.ite_none_right_eq_some] at h
      exact .inl (Option.some.inj h.2).symm
  | get id | markDone id | reopen id | postpone id _ | reprioritize id _ =>
      rw [refusal?, Option.ite_none_left_eq_some] at h
      exact .inr ⟨id, (Option.some.inj h.2).symm⟩
  | _ => cases h

/-- A call **errs exactly**: it is refused where the ids of the stored tasks say so, with the error
that they say, and does not fail otherwise. No error of a repository or of a query is passed on. -/
structure Session.ErrsExactly (repo : Repository σ) (ids : σ → List Int64) (s : Session σ)
    (step : Step) : Prop where
  refused_iff : ∀ e, (step.take repo s).outcome = .refused e ↔
    step.refusal? (ids s.store) = some e
  refused_of_failed : (step.take repo s).outcome.failed = true →
    ∃ e, (step.take repo s).outcome = .refused e
  not_query : ∀ e, (step.take repo s).outcome ≠ .refused (.query e)
  not_repo : ∀ e, (step.take repo s).outcome ≠ .refused (.repo e)

/-- A call errs exactly if it is refused as the ids say or does not fail. -/
theorem Session.ErrsExactly.of_cases {repo : Repository σ} {ids : σ → List Int64} {s : Session σ}
    {step : Step}
    (h : (∃ e, step.refusal? (ids s.store) = some e ∧ (step.take repo s).outcome = .refused e) ∨
      step.refusal? (ids s.store) = none ∧ (step.take repo s).outcome.failed = false) :
    s.ErrsExactly repo ids step := by
  have hrefused (e : ManagerError) : (step.take repo s).outcome = .refused e ↔
      step.refusal? (ids s.store) = some e := by
    rcases h with ⟨d, hd, houtcome⟩ | ⟨hnone, hended⟩
    · rw [hd, houtcome, Outcome.refused.injEq, Option.some.injEq]
    · rw [hnone]
      refine iff_of_false (fun houtcome => ?_) (by simp)
      rw [houtcome] at hended
      cases hended
  refine ⟨hrefused, fun hfailed => ?_, fun e he => ?_, fun e he => ?_⟩
  · rcases h with ⟨e, -, houtcome⟩ | ⟨-, hended⟩
    · exact ⟨e, houtcome⟩
    · rw [hended] at hfailed
      cases hfailed
  · rcases Step.refusal?_eq_some ((hrefused _).mp he) with h | ⟨id, h⟩ <;> cases h
  · rcases Step.refusal?_eq_some ((hrefused _).mp he) with h | ⟨id, h⟩ <;> cases h

/-! ### The refusals of one step -/

namespace MemoryStore

/-- The ids of the stored tasks. -/
def ids (m : MemoryStore) : List Int64 :=
  m.tasks.filterMap Task.id

/-- No task is found under an id if and only if it is the id of none. -/
theorem find?_eq_none_iff {m : MemoryStore} {id : Int64} : m.find? id = none ↔ id ∉ m.ids := by
  rw [find?, List.find?_eq_none, ids, List.mem_filterMap]
  simp only [beq_iff_eq, not_exists, not_and]

/-- An id under which a task is found is the id of one. -/
theorem mem_ids_of_find? {m : MemoryStore} {id : Int64} {t : Task} (h : m.find? id = some t) :
    id ∈ m.ids := by
  rw [find?] at h
  have hid := List.find?_some h
  exact List.mem_filterMap.mpr ⟨t, List.mem_of_find?_eq_some h, beq_iff_eq.mp hid⟩

/-- Below the last id there is room for one more task. -/
def HasRoom (m : MemoryStore) : Prop :=
  m.nextId.toInt < Int64.maxValue.toInt

instance (m : MemoryStore) : Decidable m.HasRoom :=
  inferInstanceAs (Decidable (m.nextId.toInt < Int64.maxValue.toInt))

/-- Changing a task is refused if and only if there is none with the id. -/
theorem change_refusal {m : MemoryStore} (titled : ∀ t ∈ m.tasks, t.Titled) (id : Int64)
    (f : Task → Task) :
    (id ∉ m.ids ∧ (m.change id f).1 = .refused (.notFound id)) ∨
      id ∈ m.ids ∧ (m.change id f).1 = .done := by
  cases hfind : m.find? id with
  | none =>
      rw [change, hfind]
      exact .inl ⟨find?_eq_none_iff.mp hfind, rfl⟩
  | some t =>
      have htitle := Task.titled_iff.mp (titled t (List.mem_of_find?_eq_some hfind))
      rw [change, hfind]
      exact .inr ⟨mem_ids_of_find? hfind, congrArg Prod.fst (if_neg (Bool.eq_false_iff.mp htitle))⟩

/-- Getting a task is refused if and only if there is none with the id. -/
theorem lookUp_refusal (m : MemoryStore) (id : Int64) :
    (id ∉ m.ids ∧ m.lookUp id = .refused (.notFound id)) ∨
      id ∈ m.ids ∧ ∃ t, m.lookUp id = .task t := by
  cases hfind : m.find? id with
  | none =>
      rw [lookUp, hfind]
      exact .inl ⟨find?_eq_none_iff.mp hfind, rfl⟩
  | some t =>
      rw [lookUp, hfind]
      exact .inr ⟨mem_ids_of_find? hfind, t, rfl⟩

/-- Creating a task is refused if and only if nothing is left of its title after trimming. -/
theorem enter_refusal {m : MemoryStore} {title : String}
    (room : Text.isBlankText title = false → m.HasRoom) (now : Instant) (due : Option Instant) :
    (Text.trim title = "" ∧ (m.enter now title due).1 = .refused .invalidTitle) ∨
      Text.trim title ≠ "" ∧ ∃ t, (m.enter now title due).1 = .task t := by
  rw [enter, ne_eq, Text.trim_eq_empty_iff]
  by_cases hblank : Text.isBlankText title = true
  · rw [if_pos hblank]
    exact .inl ⟨hblank, rfl⟩
  · obtain ⟨next, hnext, -⟩ := Number.exists_next? (room (Bool.not_eq_true _ ▸ hblank))
    rw [if_neg hblank, hnext]
    exact .inr ⟨hblank, _, rfl⟩

end MemoryStore

/-- **The refusals of a step**: on tasks with titles and with room for one more it is refused as the
ids say, or it does not fail. -/
theorem Step.effect_cases {m : MemoryStore} (titled : ∀ t ∈ m.tasks, t.Titled) (now : Instant)
    {step : Step} (hstep : step.OfManager)
    (room : ∀ title due, step = .create title due → Text.isBlankText title = false → m.HasRoom) :
    (∃ e, step.refusal? m.ids = some e ∧ (step.effect now m).1 = .refused e) ∨
      step.refusal? m.ids = none ∧ (step.effect now m).1.failed = false := by
  cases step with
  | create title due =>
      rw [refusal?, effect_create]
      rcases MemoryStore.enter_refusal (room title due rfl) now due with
        ⟨hblank, henter⟩ | ⟨htitle, t, henter⟩
      · rw [if_pos hblank, henter]
        exact .inl ⟨_, rfl, rfl⟩
      · rw [if_neg htitle, henter]
        exact .inr ⟨rfl, rfl⟩
  | get id =>
      rw [refusal?, effect_get]
      rcases m.lookUp_refusal id with ⟨hmissing, hlookUp⟩ | ⟨hmem, t, hlookUp⟩
      · rw [if_neg hmissing, hlookUp]
        exact .inl ⟨_, rfl, rfl⟩
      · rw [if_pos hmem, hlookUp]
        exact .inr ⟨rfl, rfl⟩
  | markDone id | reopen id | postpone id _ | reprioritize id _ =>
      rw [refusal?, effect_of_target now m rfl]
      rcases MemoryStore.change_refusal titled id _ with ⟨hmissing, hchange⟩ | ⟨hmem, hchange⟩
      · rw [if_neg hmissing, hchange]
        exact .inl ⟨_, rfl, rfl⟩
      · rw [if_pos hmem, hchange]
        exact .inr ⟨rfl, rfl⟩
  | insert t | update t | query p => exact hstep.elim
  | relevant | listAll | readClock | setClock _ | advanceMillis _ | advanceDays _ =>
      exact .inr ⟨rfl, rfl⟩

/-! ### The refusals of a run -/

namespace Ledger

variable {repo : Repository σ} (L : Ledger repo)

/-- What a ledger says can be **told from the store**: the ids of the stored tasks, and that there is
room for one more. -/
structure Told (ids : σ → List Int64) (Room : σ → Prop) : Prop where
  ids_eq : ∀ {s m}, L.Keeps s m → ids s = m.ids
  hasRoom : ∀ {s m}, L.Keeps s m → Room s → L.HasRoom s
  below : ∀ {s m}, L.Keeps s m → Room s → m.HasRoom

variable {L} {ids : σ → List Int64} {Room : σ → Prop}

/-- A step of the manager asks for no more than the room that is told. -/
theorem Told.serves (told : L.Told ids Room) {s : Session σ} {m : MemoryStore}
    (h : L.Keeps s.store m) {step : Step} (hstep : step.OfManager) {steps : List Step}
    (room : s.RoomThroughout repo Room (step :: steps)) : L.Serves s.store m step := by
  cases step with
  | create title due => exact fun htitle => told.hasRoom h (room.1 htitle)
  | insert t | update t | query p => exact hstep.elim
  | _ => trivial

/-- **The manager stores only tasks with titles**, on every repository with a ledger. -/
theorem Told.titled_after (told : L.Told ids Room) {s : Session σ} {m : MemoryStore}
    (h : L.Keeps s.store m) (titled : ∀ t ∈ m.tasks, t.Titled) {steps : List Step}
    (hsteps : ∀ step ∈ steps, step.OfManager) (room : s.RoomThroughout repo Room steps) :
    ∃ m', L.Keeps (s.storeAfter repo steps) m' ∧ ∀ t ∈ m'.tasks, t.Titled := by
  induction steps generalizing s m with
  | nil => exact ⟨m, h, titled⟩
  | cons step steps ih =>
      have hserves := told.serves h (hsteps step List.mem_cons_self) room
      obtain ⟨-, -, hkeeps⟩ := L.take_effect h s.clock hserves
      refine ih hkeeps ?_ (fun x hx => hsteps x (List.mem_cons_of_mem step hx)) room.2
      exact MemoryStore.forall_mem_effect titled step (fun t ht => ht.alteration s.clock step)
        fun _ _ _ htitle => Task.titled_iff.mpr htitle

/-- **A step errs exactly after any run** of the manager that leaves room. -/
theorem Told.errsExactly_after (told : L.Told ids Room) {s : Session σ} {m : MemoryStore}
    (h : L.Keeps s.store m) (titled : ∀ t ∈ m.tasks, t.Titled) {steps : List Step} {step : Step}
    (hsteps : ∀ x ∈ steps ++ [step], x.OfManager)
    (room : s.RoomThroughout repo Room (steps ++ [step])) :
    (s.run repo steps).2.1.ErrsExactly repo ids step := by
  let last := (s.run repo steps).2.1
  obtain ⟨hbefore, hlast⟩ := Session.roomThroughout_append.mp room
  have hstep : step.OfManager := hsteps step (List.mem_append_right _ (List.mem_singleton_self _))
  obtain ⟨m', hkeeps, htitled⟩ :=
    told.titled_after h titled (fun x hx => hsteps x (List.mem_append_left _ hx)) hbefore
  have hids : ids last.store = m'.ids := told.ids_eq hkeeps
  obtain ⟨houtcome, -⟩ := L.take_effect hkeeps last.clock (told.serves hkeeps hstep hlast)
  apply Session.ErrsExactly.of_cases
  rw [hids, show (step.take repo last).outcome = _ from houtcome]
  -- The room that the whole run asks for is, for its last step, the room of the store it finds.
  refine Step.effect_cases htitled last.clock hstep fun title due hcreate htitle => ?_
  subst hcreate
  exact told.below hkeeps (hlast.1 htitle)

end Ledger

/-! ### The two backends -/

/-- A store in memory tells its ids and its room itself. -/
theorem MemoryStore.told : ledger.Told ids HasRoom where
  ids_eq := by
    rintro s m ⟨rfl, -⟩
    rfl
  hasRoom := fun _ _ => trivial
  below := by
    rintro s m ⟨rfl, -⟩ room
    exact room

/-- The ids of stored rows. -/
def Tables.ids (s : Tables) : List Int64 :=
  s.tasks.rows.map Row.id

/-- Tables tell the ids of their rows and their room. -/
theorem Tables.told [Engine] : ledger.Told ids HasRoom where
  ids_eq := by
    rintro s m ⟨hkeeps, -, -⟩
    have hids : m.tasks.filterMap Task.id = (m.tasks.map Task.id).filterMap id := by
      rw [List.filterMap_map]
      rfl
    rw [ids, MemoryStore.ids, hids, hkeeps.map_id, List.filterMap_map]
    exact (congrFun (List.filterMap_eq_map (f := Row.id)) _).symm
  hasRoom := fun _ room => room
  below := by
    rintro s m ⟨-, -, hnext⟩ room
    obtain ⟨-, hlt⟩ := room.nextId_spec
    rw [hnext] at hlt
    exact hlt

/-- **The manager errs exactly.** After any steps of the manager and its clock, on a store in memory
that was seeded with tasks that have titles or on a new database, and as long as every new id is
below the last one of all: a creation is refused if and only if nothing is left of the title after
trimming, a call about an id is refused if and only if no stored task has it, and no other call
fails; in particular no error of a query or of a repository is passed on. -/
theorem Session.manager_errs_exactly [Engine] (clock : Instant) (steps : List Step) (step : Step)
    (hsteps : ∀ x ∈ steps ++ [step], x.OfManager) :
    (∀ (seeds : List Task) (s : MemoryStore), MemoryStore.ofTasks seeds = .ok s →
      (∀ t ∈ seeds, t.Titled) →
        let session : Session MemoryStore := ⟨s, clock⟩
        session.RoomThroughout MemoryStore.repository MemoryStore.HasRoom (steps ++ [step]) →
          (session.run MemoryStore.repository steps).2.1.ErrsExactly MemoryStore.repository
            MemoryStore.ids step) ∧
    ∀ db, Database.openMemory.1 = .ok db →
      let session : Session Tables := ⟨db.tables, clock⟩
      session.RoomThroughout Tables.repository Tables.HasRoom (steps ++ [step]) →
        (session.run Tables.repository steps).2.1.ErrsExactly Tables.repository Tables.ids step := by
  constructor
  · intro seeds s hs titled session room
    obtain ⟨-, htasks, -⟩ := MemoryStore.seededWith_of_ofTasks hs
    exact MemoryStore.told.errsExactly_after (s := session)
      ⟨rfl, MemoryStore.sound_of_ofTasks hs⟩ (htasks ▸ titled) hsteps room
  · intro db hdb session room
    have hkeeps : Tables.ledger.Keeps session.store MemoryStore.beginning := by
      rw [show session.store = .empty from Database.tables_of_openMemory hdb]
      exact Tables.keeps_beginning
    exact Tables.told.errsExactly_after hkeeps (by simp [MemoryStore.beginning]) hsteps room

/-- A title of one no-break space is refused by a seeded store, and an id by a database on which one
task has been created under another id. -/
theorem Session.manager_errs_exactly_title_and_id :
    let _ : Engine := .scanning
    let seeds : List Task := [{ id := some 1, title := "a", createdOn := ⟨0⟩ }]
    let memory : Session MemoryStore := ⟨⟨seeds, MemoryStore.firstGeneratedId⟩, ⟨0⟩⟩
    let steps : List Step := [.create "b" none, .advanceDays 1, .markDone 1]
    MemoryStore.ofTasks seeds = .ok memory.store ∧
      ((Step.create "\u00a0" none).take MemoryStore.repository
        (memory.run MemoryStore.repository steps).2.1).outcome = .refused .invalidTitle ∧
      ∃ db, Database.openMemory.1 = .ok db ∧
        ((Step.get 2).take Tables.repository
          ((⟨db.tables, ⟨0⟩⟩ : Session Tables).run Tables.repository steps).2.1).outcome =
            .refused (.notFound 2) := by
  intro _ seeds memory steps
  have hseeded : MemoryStore.ofTasks seeds = .ok memory.store := by decide
  obtain ⟨db, hdb⟩ := Database.exists_openMemory
  obtain ⟨hmemory, -⟩ :=
    Session.manager_errs_exactly ⟨0⟩ steps (.create "\u00a0" none) (by decide)
  obtain ⟨-, htables⟩ := Session.manager_errs_exactly ⟨0⟩ steps (.get 2) (by decide)
  refine ⟨hseeded, ?_, db, hdb, ?_⟩
  · have hexact := hmemory seeds memory.store hseeded (by decide)
      ⟨fun _ => by decide, trivial, trivial, fun _ => by decide, trivial⟩
    exact (hexact.refused_iff _).mpr (by decide)
  · have hroom : (⟨.empty, ⟨0⟩⟩ : Session Tables).RoomThroughout Tables.repository Tables.HasRoom
        (steps ++ [.get 2]) := ⟨fun _ => by decide, trivial, trivial, trivial, trivial⟩
    have hexact := htables db hdb
    rw [Database.tables_of_openMemory hdb] at hexact ⊢
    exact ((hexact hroom).refused_iff _).mpr (by decide)

end Taskbook
