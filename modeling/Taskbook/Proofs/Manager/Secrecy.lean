import Taskbook.Proofs.Manager.History
import Taskbook.Proofs.Manager.Sorting
import Taskbook.Proofs.Table.Alike

/-!
# The Log Carries No Titles

Two sessions whose stores, steps and seeds differ in the titles of tasks only, and in what their
queries compare with, cannot be told apart by their logs. Every step ends the same way in both, up
to titles, except for a query, whose answer may well depend on what it asks for.

The relation between the stores is that the tasks are the same but for titles. Every operation of a
discreet repository keeps it (`Taskbook.Proofs.Store.Alike`), and the manager asks for no titles, so
each of its operations runs alike in both sessions.

## Query convention

Queries that are asked in the two sessions have the same shape. Where they are even the same and do
not ask for titles their answers are the same up to titles as well.

## Main results

* `Step.take_alike`: **two steps that differ in titles only** run alike;
* `Session.log_carries_no_titles`: **the logs of two such sessions are equal**, on both backends.
-/

namespace Taskbook

open Taskbook.Action

variable {σ : Type}

/-- Sorting by priority does not look at titles. -/
theorem sortByPriority_alike {ts us : List Task} (h : List.Forall₂ Task.SameButTitle ts us) :
    List.Forall₂ Task.SameButTitle (sortByPriority ts) (sortByPriority us) := by
  rw [sortByPriority_eq_flatMap, sortByPriority_eq_flatMap]
  refine List.rel_flatMap (R := Eq) (List.forall₂_same.mpr fun _ _ => rfl) fun p q hpq => ?_
  subst hpq
  refine List.rel_filter (fun t u htu => ?_) h
  have hpriority : t.priority = u.priority := htu.priority_eq
  dsimp only
  rw [hpriority]

/-! ### Operations of the manager -/

namespace Manager

variable {repo : Repository σ} {R : σ → σ → Prop}

/-- Creating tasks with titles that are blank both or neither runs alike. -/
theorem create_alike (h : repo.Discreet R) (now : Instant) {title title' : String}
    (htitle : Text.isBlankText title = Text.isBlankText title') (due : Option Instant) :
    Alike R Task.SameButTitle (create repo now title due) (create repo now title' due) := by
  rw [create, create, htitle]
  split
  · exact .fail _
  · have htask : Task.SameButTitle { title := title, createdOn := now, dueDate := due }
        { title := title', createdOn := now, dueDate := due } := ⟨rfl, htitle⟩
    refine ((h.insert htask).mapError _).bind fun t u htu => ?_
    have hid : t.id = u.id := htu.id_eq
    have hdue : t.dueDate = u.dueDate := by rw [htu.others]
    rw [hid, hdue]
    exact (Alike.record _).bind fun _ _ _ => .pure htu

/-- Getting a task runs alike. -/
theorem get_alike (h : repo.Discreet R) (id : Int64) :
    Alike R Task.SameButTitle (get repo id) (get repo id) := by
  rw [get_eq]
  refine ((h.query (Predicate.avoidsTitle_hasId id)).mapError _).bind fun ts us htus => ?_
  cases htus with
  | nil => exact (Alike.record _).bind fun _ _ _ => .fail _
  | cons htu _ => exact .pure htu

/-- Changing a task in the same way runs alike. -/
theorem modify_alike (h : repo.Discreet R) (id : Int64) (change : Change) {f : Task → Task}
    (hf : ∀ t u, t.SameButTitle u → (f t).SameButTitle (f u)) :
    Alike R Eq (modify repo id change f) (modify repo id change f) :=
  (get_alike h id).bind fun _ _ htu =>
    ((h.update (hf _ _ htu)).mapError _).bind fun _ _ _ => .record _

/-- Listing what a predicate that asks for no titles selects runs alike. -/
theorem list_alike (h : repo.Discreet R) {p : Predicate} (avoids : p.AvoidsTitle) :
    Alike R (List.Forall₂ Task.SameButTitle)
      (do return sortByPriority (← lift (repo.query p)) : Op σ (List Task))
      (do return sortByPriority (← lift (repo.query p))) :=
  ((h.query avoids).mapError _).bind fun _ _ h => .pure (sortByPriority_alike h)

end Manager

/-! ### Steps that differ in titles only -/

/-- Two outcomes are the **same up to titles**. -/
def Outcome.SameUpToTitles : Outcome → Outcome → Prop
  | task t, task u => t.SameButTitle u
  | tasks ts, tasks us => List.Forall₂ Task.SameButTitle ts us
  | o, o' => o = o'

/-- Two steps **differ in titles only**: in the title that they pass, which is blank in both or in
neither, and, if they are queries, in the expected values. -/
inductive Step.DifferInTitles : Step → Step → Prop
  | create {title title' : String} {due : Option Instant} :
    Text.isBlankText title = Text.isBlankText title' →
      DifferInTitles (.create title due) (.create title' due)
  | insert {t u : Task} : t.SameButTitle u → DifferInTitles (.insert t) (.insert u)
  | update {t u : Task} : t.SameButTitle u → DifferInTitles (.update t) (.update u)
  | query {p q : Predicate} : p.SameShape q → DifferInTitles (.query p) (.query q)
  | other {step : Step} : step.OfManager → DifferInTitles step step

/-- A step does not ask for titles, or for anything that another step does not ask for: if it is a
query, the other one is the same query and has no condition on the title. -/
def Step.AsksNoTitle (step step' : Step) : Prop :=
  ∀ p, step = .query p → step' = .query p ∧ p.AvoidsTitle

/-- What two steps that have been taken **have in common**: the events, sessions whose stores are in
relation and, unless they ask for titles, the outcomes up to titles. -/
structure Taken.Matches (R : σ → σ → Prop) (step step' : Step) (x y : Taken σ) : Prop where
  events : x.events = y.events
  store : R x.session.store y.session.store
  clock : x.session.clock = y.session.clock
  outcome : step.AsksNoTitle step' → x.outcome.SameUpToTitles y.outcome

/-- Actions that run alike are steps that have everything in common. -/
theorem Session.act_alike {ε α : Type} {R : σ → σ → Prop} {A : α → α → Prop}
    {x y : Action σ ε α} (h : Alike R A x y) (answer : α → Outcome) (refusal : ε → Outcome)
    (hanswer : ∀ a b, A a b → (answer a).SameUpToTitles (answer b))
    (hrefusal : ∀ e, (refusal e).SameUpToTitles (refusal e)) {s s' : σ} (hstore : R s s')
    (clock : Instant) (step step' : Step) :
    Taken.Matches R step step' (act ⟨s, clock⟩ answer refusal x)
      (act ⟨s', clock⟩ answer refusal y) := by
  obtain ⟨hevents, hafter, hresult⟩ := h s s' hstore
  refine ⟨hevents, hafter, rfl, fun _ => ?_⟩
  rw [act, act]
  dsimp only
  cases hx : (x s).result <;> cases hy : (y s').result <;> rw [hx, hy] at hresult
  case error.error e d =>
    obtain rfl : e = d := hresult
    cases e with
    | cause e => exact hrefusal e
    | overflow => exact rfl
  case ok.ok a b => exact hanswer a b hresult
  all_goals exact hresult.elim

/-- A change of a task does not look at its title. -/
theorem Step.alteration_alike (now : Instant) (step : Step) {t u : Task} (h : t.SameButTitle u) :
    (step.alteration now t).SameButTitle (step.alteration now u) :=
  h.map (step.title_alteration now) fun _ _ => by cases step <;> rfl

/-- **Two steps that differ in titles only** run alike. -/
theorem Step.take_alike {repo : Repository σ} {R : σ → σ → Prop} (h : repo.Discreet R)
    {s s' : Session σ} (hstore : R s.store s'.store) (hclock : s.clock = s'.clock)
    {step step' : Step} (hsteps : step.DifferInTitles step') :
    Taken.Matches R step step' (step.take repo s) (step'.take repo s') := by
  obtain ⟨store, clock⟩ := s
  obtain ⟨store', clock'⟩ := s'
  obtain rfl : clock = clock' := hclock
  have created {title title' : String} {due : Option Instant}
      (htitle : Text.isBlankText title = Text.isBlankText title') :=
    Session.act_alike (Manager.create_alike h clock htitle due) .task .refused (fun _ _ htu => htu)
      (fun _ => rfl) hstore clock (create title due) (create title' due)
  have changed (id : Int64) (change : Change) (step : Step) :=
    Session.act_alike (Manager.modify_alike h id change fun _ _ => step.alteration_alike clock)
      (fun _ => .done) .refused (fun _ _ _ => rfl) (fun _ => rfl) hstore clock step step
  have listed {p : Predicate} (avoids : p.AvoidsTitle) (step : Step) :=
    Session.act_alike (Manager.list_alike h avoids) .tasks .refused (fun _ _ htus => htus)
      (fun _ => rfl) hstore clock step step
  cases hsteps with
  | create htitle => exact created htitle
  | insert htu =>
      exact Session.act_alike (h.insert htu) .task .refusedByStore (fun _ _ h => h) (fun _ => rfl)
        hstore clock _ _
  | update htu =>
      exact Session.act_alike (h.update htu) (fun _ => .done) .refusedByStore (fun _ _ _ => rfl)
        (fun _ => rfl) hstore clock _ _
  | @query p q hshape =>
      obtain ⟨hevents, hafter⟩ := h.asked hshape hstore
      refine ⟨hevents, hafter, rfl, fun hasks => ?_⟩
      obtain ⟨heq, avoids⟩ := hasks p rfl
      obtain rfl := Step.query.inj heq
      exact (Session.act_alike (h.query avoids) .tasks .refusedByStore (fun _ _ htus => htus)
        (fun _ => rfl) hstore clock (query q) (query q)).outcome hasks
  | other hstep =>
      cases step with
      | create title due => exact created rfl
      | get id =>
          exact Session.act_alike (Manager.get_alike h id) .task .refused (fun _ _ htu => htu)
            (fun _ => rfl) hstore clock _ _
      | markDone id => exact changed id .done (markDone id)
      | reopen id => exact changed id .reopened (reopen id)
      | postpone id until_ => exact changed id .postponed (postpone id until_)
      | reprioritize id priority => exact changed id .reprioritized (reprioritize id priority)
      | relevant =>
          rw [take, take, Session.manage, Session.manage, Manager.relevant_eq_list]
          exact listed (Predicate.avoidsTitle_relevantAt clock) relevant
      | listAll => exact listed Predicate.avoidsTitle_always listAll
      | readClock | setClock _ | advanceMillis _ | advanceDays _ =>
          exact ⟨rfl, hstore, rfl, fun _ => rfl⟩
      | insert t | update t | query p => exact hstep.elim

/-! ### Runs that differ in titles only -/

/-- Two entries of records **match** if they are of steps that differ in titles only, at one clock,
and of outcomes that are the same up to titles, unless the steps ask for titles. -/
structure Entry.Matches (e e' : Entry) : Prop where
  clock : e.clock = e'.clock
  step : e.step.DifferInTitles e'.step
  outcome : e.step.AsksNoTitle e'.step → e.outcome.SameUpToTitles e'.outcome

namespace Session

/-- The log **gives nothing away** of two runs: they write the same events, line by line, and their
records match. -/
structure GivesNothingAway (repo : Repository σ) (s s' : Session σ) (steps steps' : List Step) :
    Prop where
  events : (s.run repo steps).2.2 = (s'.run repo steps').2.2
  lines : (s.run repo steps).2.2.map Event.line = (s'.run repo steps').2.2.map Event.line
  record : List.Forall₂ Entry.Matches (s.trace repo steps) (s'.trace repo steps')

/-- **Runs that differ in titles only** give nothing away, on a discreet repository, and lead to
stores that are in relation again. -/
theorem run_alike {repo : Repository σ} {R : σ → σ → Prop} (h : repo.Discreet R)
    {steps steps' : List Step} (hsteps : List.Forall₂ Step.DifferInTitles steps steps')
    (s s' : Session σ) (hstore : R s.store s'.store) (hclock : s.clock = s'.clock) :
    s.GivesNothingAway repo s' steps steps' ∧
      R (s.storeAfter repo steps) (s'.storeAfter repo steps') := by
  induction hsteps generalizing s s' with
  | nil => exact ⟨⟨rfl, rfl, .nil⟩, hstore⟩
  | @cons step step' steps steps' hstep _ ih =>
      have hmatches := Step.take_alike h hstore hclock hstep
      obtain ⟨⟨hevents, -, hrecord⟩, hafter⟩ := ih _ _ hmatches.store hmatches.clock
      have hall : (s.run repo (step :: steps)).2.2 = (s'.run repo (step' :: steps')).2.2 := by
        rw [run, run]
        exact congrArg₂ _ hmatches.events hevents
      exact ⟨⟨hall, congrArg _ hall, .cons ⟨hclock, hstep, hmatches.outcome⟩ hrecord⟩, hafter⟩

/-- **The log carries no titles.** Two runs whose steps differ in titles only write the same events,
character for character, and end step by step in the same outcomes up to titles, other than that of
a query that asks for titles or for something else in the other run. That holds on stores in memory
that are the same but for titles, also when they have just been seeded, and on tables that are,
whether they can be written or not. Seeds that are the same but for titles seed such stores, or are
refused for the same reason. -/
theorem log_carries_no_titles [Engine] (clock : Instant) (steps steps' : List Step)
    (hsteps : List.Forall₂ Step.DifferInTitles steps steps') :
    (∀ s s' : MemoryStore, s.SameButTitles s' →
      GivesNothingAway MemoryStore.repository ⟨s, clock⟩ ⟨s', clock⟩ steps steps') ∧
    (∀ seeds seeds' : List Task, List.Forall₂ Task.SameButTitle seeds seeds' →
      Except.InRelation
        (fun s s' => GivesNothingAway MemoryStore.repository ⟨s, clock⟩ ⟨s', clock⟩ steps steps')
        (MemoryStore.ofTasks seeds) (MemoryStore.ofTasks seeds')) ∧
    ∀ s s' : Tables, s.SameButTitles s' →
      GivesNothingAway Tables.repository ⟨s, clock⟩ ⟨s', clock⟩ steps steps' ∧
        ∀ obstacle, GivesNothingAway (Tables.frozenRepository obstacle) ⟨s, clock⟩ ⟨s', clock⟩
          steps steps' := by
  have hmemory (s s' : MemoryStore) (h : s.SameButTitles s') :
      GivesNothingAway MemoryStore.repository ⟨s, clock⟩ ⟨s', clock⟩ steps steps' :=
    (run_alike MemoryStore.discreet hsteps ⟨s, clock⟩ ⟨s', clock⟩ h rfl).1
  refine ⟨hmemory, fun seeds seeds' hseeds => ?_, fun s s' h => ⟨?_, fun obstacle => ?_⟩⟩
  · exact (MemoryStore.ofTasks_alike hseeds).imp hmemory
  · exact (run_alike Tables.discreet hsteps ⟨s, clock⟩ ⟨s', clock⟩ h rfl).1
  · exact (run_alike (Tables.discreet_frozen obstacle) hsteps ⟨s, clock⟩ ⟨s', clock⟩ h rfl).1

/-- A task is created and asked for by a title, in memory next to a seeded one. Of the two queries
only one finds a task, and the logs are equal all the same. -/
theorem log_carries_no_titles_of_query :
    let _ : Engine := .scanning
    let titled (title : String) : Predicate :=
      .condition ⟨Field.title.name, .equals, .text title, Field.isIdentifier_name _, rfl⟩
    let steps (title : String) : List Step := [.create title none, .query (titled "a"), .reopen 1]
    let seeded (title : String) : Session MemoryStore :=
      ⟨⟨[{ id := some 1, title := title, createdOn := ⟨0⟩ }], MemoryStore.firstGeneratedId⟩, ⟨0⟩⟩
    let new : Session Tables := ⟨.empty, ⟨0⟩⟩
    let inMemory (title : String) := (seeded title).run MemoryStore.repository (steps title)
    let inTables (title : String) := new.run Tables.repository (steps title)
    (inMemory "a").2.2 = (inMemory "b").2.2 ∧ (inMemory "a").1 ≠ (inMemory "b").1 ∧
      (inTables "a").2.2 = (inTables "b").2.2 ∧ (inTables "a").1 ≠ (inTables "b").1 := by
  intro _ titled steps seeded new inMemory inTables
  have hsteps : List.Forall₂ Step.DifferInTitles (steps "a") (steps "b") :=
    .cons (.create (by decide)) (.cons (.query (.refl _)) (.cons (.other trivial) .nil))
  obtain ⟨hmemory, -, htables⟩ := log_carries_no_titles ⟨0⟩ (steps "a") (steps "b") hsteps
  have hseeded : (seeded "a").store.SameButTitles (seeded "b").store :=
    ⟨.cons ⟨rfl, by decide⟩ .nil, rfl⟩
  refine ⟨(hmemory _ _ hseeded).events, ?_, (htables _ _ ⟨.nil, rfl⟩).1.events, ?_⟩
  · decide
  · decide

end Session

end Taskbook
