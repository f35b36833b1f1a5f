import Taskbook.Proofs.Manager.Preservation

/-!
# Ledgers: What the Manager Does to Any Repository

The manager reads a store by predicates and writes whole tasks, and never sees what the store is
made of. So what it does can be said once, of the list of tasks that a store stands for and of
the id that comes next. `Step.effect` says it: the outcome of a step and the list and the id
afterwards, without a repository. A *ledger* of a repository says for which list and id a store
stands, and proves the few laws of the three operations that the manager relies on. For every
repository that has a ledger the steps of a session have the effect that `Step.effect` says.

The list and the id make up a `MemoryStore`, which is used here as a plain record of the two.

## Write convention

The manager writes back a task with one field replaced, and never the id, the title or the
recurring task it came from. The law for writing back is stated for such tasks only, since a
database refuses a reference to a recurring task that does not exist. A task that is inserted
has no such reference.

## Main results

* `MemoryStore.forall_mem_effect`: what holds of **all tasks after a step**;
* `Manager.get_eq_of_find?`, `get_eq_of_missing`: getting a task is looking it up in the list;
* `Ledger.take_effect`: **every step has its effect**, on every repository with a ledger.
-/

namespace Taskbook

variable {σ : Type}

/-! ### Effects -/

namespace MemoryStore

/-- The store with the task under an id changed. -/
def amend (s : MemoryStore) (id : Int64) (f : Task → Task) : MemoryStore :=
  { s with tasks := s.tasks.map fun t => if t.id = some id then f t else t }

/-- What comes of changing the task under an id: it may be missing, or its title may be
blank. -/
def change (s : MemoryStore) (id : Int64) (f : Task → Task) : Outcome × MemoryStore :=
  match s.find? id with
  | none => (.refused (.notFound id), s)
  | some t =>
    if Text.isBlankText t.title then (.refused (.repo (.validation .empty)), s)
    else (.done, s.amend id f)

/-- What comes of creating a task. -/
def enter (s : MemoryStore) (now : Instant) (title : String) (due : Option Instant) :
    Outcome × MemoryStore :=
  if Text.isBlankText title then (.refused .invalidTitle, s)
  else
    match Number.next? s.nextId with
    | none => (.overflow, s)
    | some next =>
      let t : Task := { id := some s.nextId, title := title, createdOn := now, dueDate := due }
      (.task t, ⟨s.tasks ++ [t], next⟩)

/-- What comes of getting a task. -/
def lookUp (s : MemoryStore) (id : Int64) : Outcome :=
  match s.find? id with
  | none => .refused (.notFound id)
  | some t => .task t

/-- **Changing a task** is refused and leaves the store alone, or the task was found and is
changed. -/
theorem change_cases (s : MemoryStore) (id : Int64) (f : Task → Task) :
    (∃ e, s.change id f = (.refused e, s)) ∨
      ∃ t, s.find? id = some t ∧ s.change id f = (.done, s.amend id f) := by
  rw [change]
  cases s.find? id with
  | none => exact .inl ⟨_, rfl⟩
  | some t =>
      by_cases hblank : Text.isBlankText t.title = true
      · exact .inl ⟨_, if_pos hblank⟩
      · exact .inr ⟨t, rfl, if_neg hblank⟩

/-- **Creating a task** fails and leaves the store alone, or the task is appended under the next
id. -/
theorem enter_cases (s : MemoryStore) (now : Instant) (title : String) (due : Option Instant) :
    (∃ o, (o = .refused .invalidTitle ∨ o = .overflow) ∧ s.enter now title due = (o, s)) ∨
      ∃ next, Text.isBlankText title = false ∧ Number.next? s.nextId = some next ∧
        s.enter now title due =
          (.task { id := some s.nextId, title, createdOn := now, dueDate := due },
            ⟨s.tasks ++ [{ id := some s.nextId, title, createdOn := now, dueDate := due }],
              next⟩) := by
  rw [enter]
  by_cases hblank : Text.isBlankText title = true
  · exact .inl ⟨_, .inl rfl, if_pos hblank⟩
  · rw [if_neg hblank]
    cases Number.next? s.nextId with
    | none => exact .inl ⟨_, .inr rfl, rfl⟩
    | some next => exact .inr ⟨next, Bool.not_eq_true _ ▸ hblank, rfl, rfl⟩

end MemoryStore

namespace Step

/-- The field that a step replaces, as a change of the task that it is about. -/
def alteration (now : Instant) : Step → Task → Task
  | markDone _, t => { t with doneOn := some now }
  | reopen _, t => { t with doneOn := none }
  | postpone _ until_, t => { t with postponedUntil := some until_ }
  | reprioritize _ priority, t => { t with priority := priority }
  | _, t => t

/-- The id of the task that a step changes, if it is one that does. -/
def target? : Step → Option Int64
  | markDone id | reopen id | postpone id _ | reprioritize id _ => some id
  | _ => none

/-- A step replaces no id. -/
@[simp] theorem id_alteration (now : Instant) (step : Step) (t : Task) :
    (step.alteration now t).id = t.id := by
  cases step <;> rfl

/-- A step replaces no title. -/
@[simp] theorem title_alteration (now : Instant) (step : Step) (t : Task) :
    (step.alteration now t).title = t.title := by
  cases step <;> rfl

/-- A step replaces no reference to a recurring task. -/
@[simp] theorem createdFrom_alteration (now : Instant) (step : Step) (t : Task) :
    (step.alteration now t).createdFrom = t.createdFrom := by
  cases step <;> rfl

/-- The clock after a step. -/
def clockAfter (now : Instant) : Step → Instant
  | setClock t => t
  | advanceMillis n => now.plusMillis n
  | advanceDays n => now.plusDays n
  | _ => now

/-- The **effect** of a step of the manager, of a move of the clock or of a query: how it ends
and what the store stands for afterwards. The other two operations of the repository are not
described. -/
def effect (now : Instant) (s : MemoryStore) : Step → Outcome × MemoryStore
  | create title due => s.enter now title due
  | get id => (s.lookUp id, s)
  | markDone id => s.change id ((markDone id).alteration now)
  | reopen id => s.change id ((reopen id).alteration now)
  | postpone id until_ => s.change id ((postpone id until_).alteration now)
  | reprioritize id priority => s.change id ((reprioritize id priority).alteration now)
  | relevant => (.tasks (sortByPriority (s.tasks.filter (Predicate.relevantAt now).holds)), s)
  | listAll => (.tasks (sortByPriority s.tasks), s)
  | query p => (.tasks (s.tasks.filter p.holds), s)
  | step => (.clock (step.clockAfter now), s)

variable (now : Instant) (s : MemoryStore)

@[simp] theorem effect_create (title : String) (due : Option Instant) :
    (create title due).effect now s = s.enter now title due :=
  rfl

@[simp] theorem effect_get (id : Int64) : (get id).effect now s = (s.lookUp id, s) :=
  rfl

@[simp] theorem effect_relevant :
    relevant.effect now s =
      (.tasks (sortByPriority (s.tasks.filter (Predicate.relevantAt now).holds)), s) :=
  rfl

@[simp] theorem effect_listAll :
    listAll.effect now s = (.tasks (sortByPriority s.tasks), s) :=
  rfl

@[simp] theorem effect_query (p : Predicate) :
    (query p).effect now s = (.tasks (s.tasks.filter p.holds), s) :=
  rfl

/-- A step that changes a task has the effect of the change. -/
theorem effect_of_target {step : Step} {id : Int64} (h : step.target? = some id) :
    step.effect now s = s.change id (step.alteration now) := by
  cases step <;> cases h <;> rfl

end Step

/-- A property of tasks that a step keeps, and that every task with a title has when it is created,
**holds of all tasks after the step** if it held of all tasks before it. -/
theorem MemoryStore.forall_mem_effect {Q : Task → Prop} {m : MemoryStore} (h : ∀ t ∈ m.tasks, Q t)
    {now : Instant} (step : Step) (altered : ∀ t, Q t → Q (step.alteration now t))
    (created : ∀ id title due, Text.isBlankText title = false →
      Q { id := some id, title, createdOn := now, dueDate := due }) :
    ∀ t ∈ (step.effect now m).2.tasks, Q t := by
  have hchange (id : Int64) : ∀ t ∈ (m.change id (step.alteration now)).2.tasks, Q t := by
    rcases m.change_cases id (step.alteration now) with ⟨e, hchange⟩ | ⟨u, -, hchange⟩ <;>
      rw [hchange]
    · exact h
    · intro t ht
      obtain ⟨v, hv, rfl⟩ := List.mem_map.mp ht
      by_cases hid : v.id = some id
      · rw [if_pos hid]
        exact altered v (h v hv)
      · rw [if_neg hid]
        exact h v hv
  cases step with
  | create title due =>
      rw [Step.effect_create]
      rcases m.enter_cases now title due with ⟨o, -, henter⟩ | ⟨next, htitle, -, henter⟩ <;>
        rw [henter]
      · exact h
      · intro t ht
        rcases List.mem_append.mp ht with ht | ht
        · exact h t ht
        · rw [List.mem_singleton.mp ht]
          exact created _ title due htitle
  | markDone id | reopen id | postpone id _ | reprioritize id _ => exact hchange id
  | _ => exact h

/-! ### Ledgers -/

/-- A store **shows** a list of tasks: it answers a plain predicate with the tasks of the list of
which it holds, in the order of the list, and stays as it is. -/
def Repository.Shows (repo : Repository σ) (s : σ) (ts : List Task) : Prop :=
  ∀ p : Predicate, p.Plain → ∃ events, repo.query p s = ⟨.ok (ts.filter p.holds), s, events⟩

/-- A **ledger** of a repository: the list of tasks and the next id that a store stands for, and
the laws of the operations. -/
structure Ledger (repo : Repository σ) where
  /-- The store stands for a list of tasks and a next id. -/
  Keeps : σ → MemoryStore → Prop
  /-- The store takes one more task, or breaks off in the attempt. -/
  HasRoom : σ → Prop
  keyed : ∀ {s m}, Keeps s m → Keyed m.tasks
  shows : ∀ {s m}, Keeps s m → repo.Shows s m.tasks
  /-- A new task is appended under the next id. -/
  insert : ∀ {s m next} {t : Task}, Keeps s m → HasRoom s → t.id = none → t.createdFrom = none →
    Text.isBlankText t.title = false → Number.next? m.nextId = some next →
      ∃ s' events, repo.insert t s = ⟨.ok { t with id := some m.nextId }, s', events⟩ ∧
        Keeps s' ⟨m.tasks ++ [{ t with id := some m.nextId }], next⟩
  /-- After the last id the call breaks off. -/
  overflow : ∀ {s m} {t : Task}, Keeps s m → HasRoom s → t.id = none → t.createdFrom = none →
    Text.isBlankText t.title = false → Number.next? m.nextId = none →
      ∃ events, repo.insert t s = ⟨.error .overflow, s, events⟩
  /-- A task takes the place of the stored one that it is a changed copy of. -/
  update : ∀ {s m} {t u : Task} {id : Int64}, Keeps s m → u ∈ m.tasks → u.id = some id →
    t.id = some id → t.title = u.title → t.createdFrom = u.createdFrom →
    Text.isBlankText t.title = false →
      ∃ s' events, repo.update t s = ⟨.ok (), s', events⟩ ∧
        Keeps s' { m with tasks := m.tasks.map fun v => if v.id = some id then t else v }
  /-- A task with a blank title is not written back. -/
  blank : ∀ {s} {t : Task}, Text.isBlankText t.title = true →
    ∃ events, repo.update t s = ⟨.error (.cause (.validation .empty)), s, events⟩

/-! ### Reading -/

namespace Manager

variable {repo : Repository σ} {s : σ} {ts : List Task}

/-- A repository's answer is the manager's. -/
theorem lift_eq_of_ok {α : Type} {x : Action σ RepoError α} {a : α} {s s' : σ}
    {events : List Event} (h : x s = ⟨.ok a, s', events⟩) :
    lift x s = ⟨.ok a, s', events⟩ := by
  rw [lift, Action.mapError, h]
  rfl

/-- A repository's failure is the manager's, in the manager's view. -/
theorem lift_eq_of_error {α : Type} {x : Action σ RepoError α} {e : Failure RepoError}
    {s s' : σ} {events : List Event} (h : x s = ⟨.error e, s', events⟩) :
    lift x s = ⟨.error (e.map .ofRepo), s', events⟩ := by
  rw [lift, Action.mapError, h]
  rfl

/-- The tasks of which a predicate on an id holds are at most the one found under it first. -/
theorem head?_filter_hasId (id : Int64) :
    (ts.filter (Predicate.hasId id).holds).head? = ts.find? fun t => t.id == some id := by
  have hholds : (Predicate.hasId id).holds = fun t => t.id == some id :=
    funext (Predicate.holds_hasId id)
  rw [List.head?_filter, hholds]

/-- **Getting a task** answers the one that is found in the list. -/
theorem get_eq_of_find? (shows : repo.Shows s ts) {id : Int64} {t : Task}
    (h : (ts.find? fun u => u.id == some id) = some t) :
    ∃ events, get repo id s = ⟨.ok t, s, events⟩ := by
  obtain ⟨events, hquery⟩ := shows _ (Predicate.plain_hasId id)
  rw [← head?_filter_hasId, List.head?_eq_some_iff] at h
  obtain ⟨rest, hrest⟩ := h
  rw [hrest] at hquery
  rw [get_eq, Action.bind_of_ok (lift_eq_of_ok hquery)]
  exact ⟨_, rfl⟩

/-- **Getting a task** that is not in the list is refused. -/
theorem get_eq_of_missing (shows : repo.Shows s ts) {id : Int64}
    (h : (ts.find? fun u => u.id == some id) = none) :
    ∃ events, get repo id s = ⟨.error (.cause (.notFound id)), s, events⟩ := by
  obtain ⟨events, hquery⟩ := shows _ (Predicate.plain_hasId id)
  rw [← head?_filter_hasId, List.head?_eq_none_iff] at h
  rw [h] at hquery
  rw [get_eq, Action.bind_of_ok (lift_eq_of_ok hquery)]
  exact ⟨_, rfl⟩

/-- Listing what a plain predicate selects. -/
theorem list_eq (shows : repo.Shows s ts) {p : Predicate} (plain : p.Plain) :
    ∃ events, (do return sortByPriority (← lift (repo.query p)) : Op σ (List Task)) s =
      ⟨.ok (sortByPriority (ts.filter p.holds)), s, events⟩ := by
  obtain ⟨events, hquery⟩ := shows p plain
  rw [Action.bind_of_ok (lift_eq_of_ok hquery)]
  exact ⟨_, rfl⟩

/-- **The tasks to show** are those of which the predicate holds, sorted. -/
theorem relevant_eq (shows : repo.Shows s ts) (now : Instant) :
    ∃ events, relevant repo now s =
      ⟨.ok (sortByPriority (ts.filter (Predicate.relevantAt now).holds)), s, events⟩ := by
  rw [relevant_eq_list]
  exact list_eq shows (Predicate.plain_relevantAt now)

/-- **Every stored task**, sorted. -/
theorem listAll_eq (shows : repo.Shows s ts) :
    ∃ events, listAll repo s = ⟨.ok (sortByPriority ts), s, events⟩ := by
  have hall : ts.filter Predicate.always.holds = ts :=
    List.filter_eq_self.mpr fun t _ => Predicate.holds_always t
  have hlist := list_eq shows Predicate.plain_always
  rw [hall] at hlist
  exact hlist

end Manager

/-! ### Writing -/

namespace Ledger

variable {repo : Repository σ} (L : Ledger repo) {s : σ} {m : MemoryStore}

/-- **Creating a task** has its effect. -/
theorem create_effect (h : L.Keeps s m) (now : Instant) {title : String}
    (room : Text.isBlankText title = false → L.HasRoom s) (due : Option Instant) :
    let taken := (Step.create title due).take repo ⟨s, now⟩
    taken.outcome = (m.enter now title due).1 ∧
      L.Keeps taken.session.store (m.enter now title due).2 := by
  simp only [Step.take, Session.manage, Session.act, Manager.create, MemoryStore.enter]
  by_cases hblank : Text.isBlankText title = true
  · rw [if_pos hblank, if_pos hblank]
    exact ⟨rfl, h⟩
  · rw [if_neg hblank, if_neg hblank]
    rw [Bool.not_eq_true] at hblank
    cases hnext : Number.next? m.nextId with
    | none =>
        obtain ⟨events, hinsert⟩ :=
          L.overflow (t := { title := title, createdOn := now, dueDate := due }) h (room hblank)
            rfl rfl hblank hnext
        rw [Action.bind_of_error (Manager.lift_eq_of_error hinsert)]
        exact ⟨rfl, h⟩
    | some next =>
        obtain ⟨s', events, hinsert, hkeeps⟩ :=
          L.insert (t := { title := title, createdOn := now, dueDate := due }) h (room hblank)
            rfl rfl hblank hnext
        rw [Action.bind_of_ok (Manager.lift_eq_of_ok hinsert)]
        exact ⟨rfl, hkeeps⟩

/-- **Changing a task** has its effect. -/
theorem modify_effect (h : L.Keeps s m) (now : Instant) (id : Int64) (change : Change)
    (step : Step) :
    let f := step.alteration now
    let taken := (⟨s, now⟩ : Session σ).manage (fun _ => .done) (Manager.modify repo id change f)
    taken.outcome = (m.change id f).1 ∧ L.Keeps taken.session.store (m.change id f).2 := by
  intro f
  simp only [Session.manage, Session.act, Manager.modify, MemoryStore.change]
  cases hfind : m.find? id with
  | none =>
      obtain ⟨events, hget⟩ := Manager.get_eq_of_missing (L.shows h) hfind
      rw [Action.bind_of_error hget]
      exact ⟨rfl, h⟩
  | some u =>
      obtain ⟨events, hget⟩ := Manager.get_eq_of_find? (L.shows h) hfind
      obtain ⟨hmem, huid⟩ := (L.keyed h).find?_eq_some_iff.mp hfind
      rw [Action.bind_of_ok hget]
      dsimp only
      have htitle : (f u).title = u.title := step.title_alteration now u
      by_cases hblank : Text.isBlankText u.title = true
      · obtain ⟨events', hupdate⟩ := L.blank (s := s) (htitle.symm ▸ hblank)
        rw [Action.bind_of_error (Manager.lift_eq_of_error hupdate), if_pos hblank]
        exact ⟨rfl, h⟩
      · rw [if_neg hblank]
        rw [Bool.not_eq_true] at hblank
        obtain ⟨s', events', hupdate, hkeeps⟩ :=
          L.update h hmem huid ((step.id_alteration now u).trans huid) htitle
            (step.createdFrom_alteration now u) (htitle.symm ▸ hblank)
        rw [Action.bind_of_ok (Manager.lift_eq_of_ok hupdate)]
        refine ⟨rfl, ?_⟩
        -- The one task under the id is the task that was read.
        have hamend : (m.tasks.map fun v => if v.id = some id then f u else v) =
            m.tasks.map fun v => if v.id = some id then f v else v := by
          refine List.map_congr_left fun v hv => ?_
          by_cases hvid : v.id = some id
          · rw [if_pos hvid, if_pos hvid, (L.keyed h).eq_of_id_eq hv hmem (hvid.trans huid.symm)]
          · rw [if_neg hvid, if_neg hvid]
        rw [hamend] at hkeeps
        exact hkeeps

/-- What a step asks of a store beyond the ledger: room for a task that it creates, an answer to
a query of its own, and that it is not one of the other two operations of the repository. -/
def Serves (s : σ) (m : MemoryStore) : Step → Prop
  | .create title _ => Text.isBlankText title = false → L.HasRoom s
  | .query p => ∃ events, repo.query p s = ⟨.ok (m.tasks.filter p.holds), s, events⟩
  | .insert _ | .update _ => False
  | _ => True

/-- **Every step has its effect** on a repository with a ledger. -/
theorem take_effect (h : L.Keeps s m) (now : Instant) {step : Step}
    (serves : L.Serves s m step) :
    let taken := step.take repo ⟨s, now⟩
    taken.outcome = (step.effect now m).1 ∧ taken.session.clock = step.clockAfter now ∧
      L.Keeps taken.session.store (step.effect now m).2 := by
  cases step with
  | create title due =>
      obtain ⟨houtcome, hkeeps⟩ := L.create_effect h now serves due
      exact ⟨houtcome, rfl, hkeeps⟩
  | get id =>
      simp only [Step.take, Session.manage, Session.act, Step.effect_get, MemoryStore.lookUp]
      cases hfind : m.find? id with
      | none =>
          obtain ⟨events, hget⟩ := Manager.get_eq_of_missing (L.shows h) hfind
          rw [hget]
          exact ⟨rfl, rfl, h⟩
      | some t =>
          obtain ⟨events, hget⟩ := Manager.get_eq_of_find? (L.shows h) hfind
          rw [hget]
          exact ⟨rfl, rfl, h⟩
  | markDone id =>
      obtain ⟨houtcome, hkeeps⟩ := L.modify_effect h now id .done (.markDone id)
      exact ⟨houtcome, rfl, hkeeps⟩
  | reopen id =>
      obtain ⟨houtcome, hkeeps⟩ := L.modify_effect h now id .reopened (.reopen id)
      exact ⟨houtcome, rfl, hkeeps⟩
  | postpone id until_ =>
      obtain ⟨houtcome, hkeeps⟩ := L.modify_effect h now id .postponed (.postpone id until_)
      exact ⟨houtcome, rfl, hkeeps⟩
  | reprioritize id priority =>
      obtain ⟨houtcome, hkeeps⟩ :=
        L.modify_effect h now id .reprioritized (.reprioritize id priority)
      exact ⟨houtcome, rfl, hkeeps⟩
  | relevant =>
      obtain ⟨events, hrelevant⟩ := Manager.relevant_eq (L.shows h) now
      simp only [Step.take, Session.manage, Session.act, hrelevant]
      exact ⟨rfl, rfl, h⟩
  | listAll =>
      obtain ⟨events, hlist⟩ := Manager.listAll_eq (L.shows h)
      simp only [Step.take, Session.manage, Session.act, hlist]
      exact ⟨rfl, rfl, h⟩
  | readClock | setClock _ | advanceMillis _ | advanceDays _ => exact ⟨rfl, rfl, h⟩
  | insert t | update t => exact serves.elim
  | query p =>
      obtain ⟨events, hquery⟩ := serves
      simp only [Step.take, Session.act, hquery]
      exact ⟨rfl, rfl, h⟩

end Ledger

end Taskbook
