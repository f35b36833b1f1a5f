import Taskbook.Proofs.Manager.History

/-!
# What the Manager Says to Its Repository

The manager knows a repository by its three operations and nothing else, so all that it does to one
is a list of calls. To see them, a repository is given an *ear*: it answers as before and writes down
every call together with its answer. What the manager does with it is then said for every repository
there is, whether it answers rightly, wrongly, with several tasks or with an error, and for every
reading of the clock.

## Hearing convention

A *talk* is the list of the calls of one step, in their order, each with its answer. The answers are
those of the repository itself, each in the store that the calls before have left (`Answers`), and
nobody can tell whether the repository has an ear: the outcome, the store and the events are the same.

## Main results

* `Step.Talk`: **what may be said in a step**, with what comes of it: one `insert` or nothing, one
  `query`, or one `query` that may be followed by one `update`;
* `Step.Talk.stops`: **nothing is said after an error**;
* `Step.exists_overheard`: every step of the manager **holds such a talk**;
* `Session.run_overheard`: and so does every step of every run.
-/

namespace Taskbook

variable {σ ε δ α β : Type}

/-! ### Calls -/

/-- A **call** of a repository, with its answer. -/
inductive Exchange where
  | insert (t : Task) (answer : Except (Failure RepoError) Task)
  | query (p : Predicate) (answer : Except (Failure RepoError) (List Task))
  | update (t : Task) (answer : Except (Failure RepoError) Unit)

/-- Whether a call was answered with an error. -/
def Exchange.Failed : Exchange → Prop
  | insert _ answer => ∃ e, answer = .error e
  | query _ answer => ∃ e, answer = .error e
  | update _ answer => ∃ e, answer = .error e

/-- An action that writes down its answer. -/
def Action.noting (x : Action σ ε α) (note : Except (Failure ε) α → Exchange) :
    Action (σ × List Exchange) ε α := fun s =>
  let r := x s.1
  ⟨r.result, (r.store, s.2 ++ [note r.result]), r.events⟩

/-- A repository **with an ear**: every call is written down with its answer. -/
def Repository.noting (repo : Repository σ) : Repository (σ × List Exchange) where
  insert t := (repo.insert t).noting (.insert t)
  query p := (repo.query p).noting (.query p)
  update t := (repo.update t).noting (.update t)

/-- The answers to a list of calls are **the repository's own**, each in the store that the calls
before it have left. -/
inductive Repository.Answers (repo : Repository σ) : σ → List Exchange → σ → Prop
  | nil {s : σ} : repo.Answers s [] s
  | insert {s s' : σ} {t : Task} {talk : List Exchange} :
      repo.Answers (repo.insert t s).store talk s' →
      repo.Answers s (.insert t (repo.insert t s).result :: talk) s'
  | query {s s' : σ} {p : Predicate} {talk : List Exchange} :
      repo.Answers (repo.query p s).store talk s' →
      repo.Answers s (.query p (repo.query p s).result :: talk) s'
  | update {s s' : σ} {t : Task} {talk : List Exchange} :
      repo.Answers (repo.update t s).store talk s' →
      repo.Answers s (.update t (repo.update t s).result :: talk) s'

/-- Calls go on where the calls before them have left the store. -/
theorem Repository.Answers.append {repo : Repository σ} {s s' s'' : σ} {xs ys : List Exchange}
    (h : repo.Answers s xs s') (h' : repo.Answers s' ys s'') : repo.Answers s (xs ++ ys) s'' := by
  induction h with
  | nil => exact h'
  | insert _ ih => exact .insert (ih h')
  | query _ ih => exact .query (ih h')
  | update _ ih => exact .update (ih h')

/-! ### Actions with an ear -/

/-- What is **overheard** of an action: run on the repository with an ear, the action `x` does what
`y` does on the repository itself, with this talk and this result. -/
structure Action.Overheard (repo : Repository σ) (x : Action (σ × List Exchange) ε α)
    (y : Action σ ε α) (s : σ) (talk : List Exchange) (r : Except (Failure ε) α) : Prop where
  noted : ∀ log, x (s, log) = ⟨r, ((y s).store, log ++ talk), (y s).events⟩
  result : (y s).result = r
  answers : repo.Answers s talk (y s).store

namespace Action

variable {repo : Repository σ} {s : σ}

theorem overheard_pure (a : α) :
    Overheard repo (pure a : Action _ ε α) (pure a) s [] (.ok a) :=
  ⟨fun log => by rw [List.append_nil]; rfl, rfl, .nil⟩

theorem overheard_fail (e : ε) :
    Overheard repo (fail e : Action _ ε α) (fail e) s [] (.error (.cause e)) :=
  ⟨fun log => by rw [List.append_nil]; rfl, rfl, .nil⟩

theorem overheard_record (e : Event) :
    Overheard repo (record e : Action _ ε Unit) (record e) s [] (.ok ()) :=
  ⟨fun log => by rw [List.append_nil]; rfl, rfl, .nil⟩

variable {x : Action (σ × List Exchange) ε α} {y : Action σ ε α} {talk talk' : List Exchange}

/-- After an answer the talk goes on. -/
theorem Overheard.bind_ok {a : α} {f : α → Action (σ × List Exchange) ε β} {g : α → Action σ ε β}
    {r : Except (Failure ε) β} (h : Overheard repo x y s talk (.ok a))
    (h' : Overheard repo (f a) (g a) (y s).store talk' r) :
    Overheard repo (x >>= f) (y >>= g) s (talk ++ talk') r := by
  have hreply : y s = ⟨.ok a, (y s).store, (y s).events⟩ := by rw [← h.result]
  have hy : (y >>= g) s = ⟨r, (g a (y s).store).store, (y s).events ++ (g a (y s).store).events⟩ := by
    rw [bind_of_ok hreply, h'.result]
  refine ⟨fun log => ?_, by rw [hy], by rw [hy]; exact h.answers.append h'.answers⟩
  rw [bind_of_ok (h.noted log), h'.noted, hy, List.append_assoc]

/-- After a failure the talk is over. -/
theorem Overheard.bind_error {e : Failure ε} {f : α → Action (σ × List Exchange) ε β}
    {g : α → Action σ ε β} (h : Overheard repo x y s talk (.error e)) :
    Overheard repo (x >>= f) (y >>= g) s talk (.error e) := by
  have hy : (y >>= g) s = ⟨.error e, (y s).store, (y s).events⟩ :=
    bind_of_error (by rw [← h.result])
  refine ⟨fun log => ?_, by rw [hy], by rw [hy]; exact h.answers⟩
  rw [bind_of_error (h.noted log), hy]

/-- An action under another error type holds the same talk. -/
theorem Overheard.mapError {r : Except (Failure ε) α} (h : Overheard repo x y s talk r)
    (f : ε → δ) :
    Overheard repo (x.mapError f) (y.mapError f) s talk (r.mapError (Failure.map f)) :=
  ⟨fun log => by rw [Action.mapError, h.noted]; rfl, by rw [Action.mapError, h.result], h.answers⟩

/-- A call is written down with its answer. -/
theorem overheard_insert {t : Task} {r : Except (Failure RepoError) Task}
    (h : (repo.insert t s).result = r) :
    Overheard repo (repo.noting.insert t) (repo.insert t) s [.insert t r] r := by
  subst h
  exact ⟨fun _ => rfl, rfl, .insert .nil⟩

theorem overheard_query {p : Predicate} {r : Except (Failure RepoError) (List Task)}
    (h : (repo.query p s).result = r) :
    Overheard repo (repo.noting.query p) (repo.query p) s [.query p r] r := by
  subst h
  exact ⟨fun _ => rfl, rfl, .query .nil⟩

theorem overheard_update {t : Task} {r : Except (Failure RepoError) Unit}
    (h : (repo.update t s).result = r) :
    Overheard repo (repo.noting.update t) (repo.update t) s [.update t r] r := by
  subst h
  exact ⟨fun _ => rfl, rfl, .update .nil⟩

end Action

/-! ### Operations of the manager -/

namespace Manager

open Taskbook.Action

variable {repo : Repository σ} {s : σ} {id : Int64}

/-- Creating a task with a title is **one insertion**. -/
theorem create_overheard {now : Instant} {title : String} {due : Option Instant}
    (htitle : Text.isBlankText title = false) {r : Except (Failure RepoError) Task}
    (h : (repo.insert { title := title, createdOn := now, dueDate := due } s).result = r) :
    Overheard repo (create repo.noting now title due) (create repo now title due) s
      [.insert { title := title, createdOn := now, dueDate := due } r]
      (r.mapError (Failure.map .ofRepo)) := by
  have hlift := (overheard_insert h).mapError ManagerError.ofRepo
  simp only [create, htitle, Bool.false_eq_true, if_false]
  cases r with
  | error e => exact hlift.bind_error
  | ok t => exact hlift.bind_ok ((overheard_record _).bind_ok (overheard_pure t))

/-- Creating a task without a title says **nothing**. -/
theorem create_overheard_of_blank {now : Instant} {title : String} {due : Option Instant}
    (htitle : Text.isBlankText title = true) :
    Overheard repo (create repo.noting now title due) (create repo now title due) s []
      (.error (.cause .invalidTitle)) := by
  simp only [create, htitle, if_true]
  exact overheard_fail _

/-- A query of which the answer is listed is **one query**. -/
theorem list_overheard {p : Predicate} {r : Except (Failure RepoError) (List Task)}
    (h : (repo.query p s).result = r) :
    Overheard repo (do return sortByPriority (← lift (repo.noting.query p)) : Op _ (List Task))
      (do return sortByPriority (← lift (repo.query p))) s [.query p r]
      ((r.mapError (Failure.map .ofRepo)).map sortByPriority) := by
  have hlift := (overheard_query h).mapError ManagerError.ofRepo
  cases r with
  | error e => exact hlift.bind_error
  | ok ts => exact hlift.bind_ok (overheard_pure _)

/-- Getting a task is **one query**, of which the first task is taken. -/
theorem get_overheard_of_cons {t : Task} {ts : List Task}
    (h : (repo.query (.hasId id) s).result = .ok (t :: ts)) :
    Overheard repo (get repo.noting id) (get repo id) s [.query (.hasId id) (.ok (t :: ts))]
      (.ok t) := by
  rw [get_eq, get_eq]
  exact ((overheard_query h).mapError ManagerError.ofRepo).bind_ok (overheard_pure t)

theorem get_overheard_of_nil (h : (repo.query (.hasId id) s).result = .ok []) :
    Overheard repo (get repo.noting id) (get repo id) s [.query (.hasId id) (.ok [])]
      (.error (.cause (.notFound id))) := by
  rw [get_eq, get_eq]
  exact ((overheard_query h).mapError ManagerError.ofRepo).bind_ok
    ((overheard_record _).bind_ok (overheard_fail _))

theorem get_overheard_of_error {e : Failure RepoError}
    (h : (repo.query (.hasId id) s).result = .error e) :
    Overheard repo (get repo.noting id) (get repo id) s [.query (.hasId id) (.error e)]
      (.error (e.map .ofRepo)) := by
  rw [get_eq, get_eq]
  exact ((overheard_query h).mapError ManagerError.ofRepo).bind_error

/-- Showing tasks is one query for what is to be shown. -/
theorem relevant_overheard {now : Instant} {r : Except (Failure RepoError) (List Task)}
    (h : (repo.query (.relevantAt now) s).result = r) :
    Overheard repo (relevant repo.noting now) (relevant repo now) s [.query (.relevantAt now) r]
      ((r.mapError (Failure.map .ofRepo)).map sortByPriority) := by
  rw [relevant_eq_list, relevant_eq_list]
  exact list_overheard h

/-- Changing a task that was not read says **no more**. -/
theorem modify_overheard_of_error {change : Change} {f : Task → Task}
    {talk : List Exchange} {e : Failure ManagerError}
    (h : Overheard repo (get repo.noting id) (get repo id) s talk (.error e)) :
    Overheard repo (modify repo.noting id change f) (modify repo id change f) s talk (.error e) :=
  h.bind_error

/-- Changing a task that was found is **one query and one update**. -/
theorem modify_overheard {change : Change} {f : Task → Task} {t : Task} {ts : List Task}
    (h : (repo.query (.hasId id) s).result = .ok (t :: ts)) {r : Except (Failure RepoError) Unit}
    (h' : (repo.update (f t) (get repo id s).store).result = r) :
    Overheard repo (modify repo.noting id change f) (modify repo id change f) s
      [.query (.hasId id) (.ok (t :: ts)), .update (f t) r] (r.mapError (Failure.map .ofRepo)) := by
  have hlift := (overheard_update h').mapError ManagerError.ofRepo
  have hrest : Overheard repo
      (lift (repo.noting.update (f t)) >>= fun _ => record (.changed change id))
      (lift (repo.update (f t)) >>= fun _ => record (.changed change id)) (get repo id s).store
      [.update (f t) r] (r.mapError (Failure.map .ofRepo)) := by
    cases r with
    | error e => exact hlift.bind_error
    | ok u => exact hlift.bind_ok (overheard_record _)
  exact (get_overheard_of_cons h).bind_ok hrest

end Manager

/-! ### Talks -/

/-- How a failure of the repository is **passed on**: as it is, unless a task was not found. -/
inductive Failure.PassedOn : Failure RepoError → Outcome → Prop
  | missing {id : Int64} : PassedOn (.cause (.notFound id)) (.refused (.notFound id))
  | other {e : RepoError} : (∀ id, e ≠ .notFound id) → PassedOn (.cause e) (.refused (.repo e))
  | overflow : PassedOn .overflow .overflow

/-- What **comes of** the answer to a last call: what the answer means, or the failure. -/
inductive ComesOf (meaning : α → Outcome) : Except (Failure RepoError) α → Outcome → Prop
  | answer {a : α} : ComesOf meaning (.ok a) (meaning a)
  | failure {e : Failure RepoError} {o : Outcome} : e.PassedOn o → ComesOf meaning (.error e) o

/-- What the first of the tasks that a query answers means, or that there is none. -/
def Outcome.ofFirst (id : Int64) : List Task → Outcome
  | t :: _ => task t
  | [] => refused (.notFound id)

/-- The steps that are about the clock alone. -/
def Step.OfClock : Step → Prop
  | readClock | setClock _ | advanceMillis _ | advanceDays _ => True
  | _ => False

/-- **What is said in a step** of the manager, and what comes of it. -/
inductive Step.Talk (now : Instant) : Step → List Exchange → Outcome → Prop
  | untitled {title : String} {due : Option Instant} : Text.trim title = "" →
      Talk now (create title due) [] (.refused .invalidTitle)
  | create {title : String} {due : Option Instant} {r : Except (Failure RepoError) Task}
      {o : Outcome} : Text.trim title ≠ "" → ComesOf .task r o →
      Talk now (create title due)
        [.insert { title := title, createdOn := now, dueDate := due } r] o
  | get {id : Int64} {r : Except (Failure RepoError) (List Task)} {o : Outcome} :
      ComesOf (.ofFirst id) r o → Talk now (get id) [.query (.hasId id) r] o
  | relevant {r : Except (Failure RepoError) (List Task)} {o : Outcome} :
      ComesOf (fun ts => .tasks (sortByPriority ts)) r o →
      Talk now relevant [.query (.relevantAt now) r] o
  | listAll {r : Except (Failure RepoError) (List Task)} {o : Outcome} :
      ComesOf (fun ts => .tasks (sortByPriority ts)) r o → Talk now listAll [.query .always r] o
  /-- The task to be changed could not be asked for. -/
  | unread {step : Step} {id : Int64} {e : Failure RepoError} {o : Outcome} :
      step.target? = some id → e.PassedOn o → Talk now step [.query (.hasId id) (.error e)] o
  /-- There is no task to be changed. -/
  | missing {step : Step} {id : Int64} : step.target? = some id →
      Talk now step [.query (.hasId id) (.ok [])] (.refused (.notFound id))
  /-- The first task is written back with the step's own field replaced. -/
  | change {step : Step} {id : Int64} {t : Task} {ts : List Task}
      {r : Except (Failure RepoError) Unit} {o : Outcome} : step.target? = some id →
      ComesOf (fun _ => .done) r o →
      Talk now step [.query (.hasId id) (.ok (t :: ts)), .update (step.alteration now t) r] o
  /-- The clock is no matter of the repository. -/
  | clock {step : Step} : step.OfClock → Talk now step [] (.clock (step.clockAfter now))

/-- Nothing comes after the only element of a list. -/
theorem eq_nil_of_singleton {a b : α} {before after : List α} (h : [a] = before ++ b :: after) :
    after = [] := by
  have hlength := congrArg List.length h
  simp only [List.length_append, List.length_cons, List.length_nil] at hlength
  exact List.length_eq_zero_iff.mp (by omega)

/-- **Nothing is said after an error.** -/
theorem Step.Talk.stops {now : Instant} {step : Step} {talk : List Exchange} {o : Outcome}
    (h : step.Talk now talk o) {before after : List Exchange} {x : Exchange}
    (htalk : talk = before ++ x :: after) (hx : x.Failed) : after = [] := by
  cases h with
  | untitled _ | clock _ => simp at htalk
  | create _ _ | get _ | relevant _ | listAll _ | unread _ _ | missing _ =>
      exact eq_nil_of_singleton htalk
  | change _ _ =>
      cases before with
      | nil =>
          -- The query did not fail: it answered the task that is written back.
          obtain ⟨rfl, -⟩ := List.cons.inj htalk
          obtain ⟨e, he⟩ := hx
          cases he
      | cons y before => exact eq_nil_of_singleton (List.cons.inj htalk).2

/-- What the manager makes of a failure is the failure passed on. -/
theorem passedOn_ofResult {meaning : α → Outcome} (e : Failure RepoError) :
    e.PassedOn (.ofResult meaning .refused (.error (e.map .ofRepo))) := by
  cases e with
  | overflow => exact .overflow
  | cause e =>
      cases e with
      | notFound id => exact .missing
      | _ => exact .other nofun

/-- What the manager makes of an answer is what comes of it. -/
theorem comesOf_ofResult {meaning : α → Outcome} (r : Except (Failure RepoError) α) :
    ComesOf meaning r (.ofResult meaning .refused (r.mapError (Failure.map .ofRepo))) := by
  cases r with
  | error e => exact .failure (passedOn_ofResult e)
  | ok a => exact .answer

/-- What the manager makes of an answer that it sorts is what comes of it. -/
theorem comesOf_ofResult_sorted (r : Except (Failure RepoError) (List Task)) :
    ComesOf (fun ts => .tasks (sortByPriority ts)) r
      (.ofResult .tasks .refused ((r.mapError (Failure.map .ofRepo)).map sortByPriority)) := by
  cases r with
  | error e => exact .failure (passedOn_ofResult e)
  | ok ts => exact .answer

/-! ### Steps and runs -/

/-- A session on a repository with an ear, which has written down a log. -/
def Session.withLog (s : Session σ) (log : List Exchange) : Session (σ × List Exchange) :=
  ⟨(s.store, log), s.clock⟩

/-- A step **is overheard**: with an ear it ends as it does without one, and its talk is written
down behind the log. The answers are the repository's own, and the talk is one that the manager
holds. -/
structure Step.Overheard (repo : Repository σ) (s : Session σ) (step : Step)
    (talk : List Exchange) : Prop where
  noted : ∀ log, step.take repo.noting (s.withLog log) =
    ⟨(step.take repo s).outcome, (step.take repo s).session.withLog (log ++ talk),
      (step.take repo s).events⟩
  answers : repo.Answers s.store talk (step.take repo s).session.store
  said : step.Talk s.clock talk (step.take repo s).outcome

/-- A step is overheard as the operation of the manager is that it asks for. -/
theorem Step.overheard_of_manage {repo : Repository σ} {s : Session σ} {step : Step}
    {meaning : α → Outcome} {x : Manager.Op (σ × List Exchange) α} {y : Manager.Op σ α}
    {talk : List Exchange} {r : Except (Failure ManagerError) α}
    (hx : ∀ log, step.take repo.noting (s.withLog log) = (s.withLog log).manage meaning x)
    (hy : step.take repo s = s.manage meaning y) (h : Action.Overheard repo x y s.store talk r)
    (htalk : step.Talk s.clock talk (.ofResult meaning .refused r)) :
    step.Overheard repo s talk := by
  have hresult : (step.take repo s).outcome = .ofResult meaning .refused r := by
    rw [hy, Session.manage, Session.act, h.result]
  refine ⟨fun log => ?_, by rw [hy]; exact h.answers, hresult ▸ htalk⟩
  rw [hresult, hx, hy, Session.manage, Session.manage, Session.act, Session.act, Session.withLog,
    h.noted]
  rfl

/-- A step that changes a task holds a talk. -/
theorem Step.exists_overheard_of_target (repo : Repository σ) (s : Session σ) {step : Step}
    {id : Int64} (h : step.target? = some id) : ∃ talk, step.Overheard repo s talk := by
  obtain ⟨change, htake⟩ : ∃ change, ∀ {τ : Type} (repo : Repository τ) (s : Session τ),
      step.take repo s =
        s.manage (fun _ => .done) (Manager.modify repo id change (step.alteration s.clock)) := by
    cases step <;> cases h <;> exact ⟨_, fun _ _ => rfl⟩
  have hnoting (log : List Exchange) := htake repo.noting (s.withLog log)
  cases hquery : (repo.query (.hasId id) s.store).result with
  | error e =>
      exact ⟨_, overheard_of_manage hnoting (htake repo s)
        (Manager.modify_overheard_of_error (Manager.get_overheard_of_error hquery))
        (.unread h (passedOn_ofResult e))⟩
  | ok ts =>
      cases ts with
      | nil =>
          exact ⟨_, overheard_of_manage hnoting (htake repo s)
            (Manager.modify_overheard_of_error (Manager.get_overheard_of_nil hquery)) (.missing h)⟩
      | cons t ts =>
          exact ⟨_, overheard_of_manage hnoting (htake repo s)
            (Manager.modify_overheard hquery rfl) (.change h (comesOf_ofResult _))⟩

/-- **Every step of the manager holds a talk** with its repository, whatever that answers. -/
theorem Step.exists_overheard (repo : Repository σ) (s : Session σ) {step : Step}
    (hstep : step.OfManager) : ∃ talk, step.Overheard repo s talk := by
  cases step with
  | create title due =>
      by_cases htitle : Text.isBlankText title = true
      · exact ⟨_, overheard_of_manage (fun _ => rfl) rfl
          (Manager.create_overheard_of_blank htitle)
          (.untitled ((Text.trim_eq_empty_iff title).mpr htitle))⟩
      · exact ⟨_, overheard_of_manage (fun _ => rfl) rfl
          (Manager.create_overheard (Bool.eq_false_iff.mpr htitle) rfl)
          (.create (mt (Text.trim_eq_empty_iff title).mp htitle) (comesOf_ofResult _))⟩
  | get id =>
      cases hquery : (repo.query (.hasId id) s.store).result with
      | error e =>
          exact ⟨_, overheard_of_manage (fun _ => rfl) rfl (Manager.get_overheard_of_error hquery)
            (.get (.failure (passedOn_ofResult e)))⟩
      | ok ts =>
          cases ts with
          | nil =>
              exact ⟨_, overheard_of_manage (fun _ => rfl) rfl
                (Manager.get_overheard_of_nil hquery) (.get .answer)⟩
          | cons t ts =>
              exact ⟨_, overheard_of_manage (fun _ => rfl) rfl
                (Manager.get_overheard_of_cons hquery) (.get .answer)⟩
  | markDone _ | reopen _ | postpone _ _ | reprioritize _ _ =>
      exact exists_overheard_of_target repo s rfl
  | relevant =>
      exact ⟨_, overheard_of_manage (fun _ => rfl) rfl (Manager.relevant_overheard rfl)
        (.relevant (comesOf_ofResult_sorted _))⟩
  | listAll =>
      exact ⟨_, overheard_of_manage (fun _ => rfl) rfl (Manager.list_overheard rfl)
        (.listAll (comesOf_ofResult_sorted _))⟩
  | readClock | setClock _ | advanceMillis _ | advanceDays _ =>
      refine ⟨[], fun log => ?_, .nil, .clock trivial⟩
      rw [List.append_nil]
      rfl
  | insert _ | update _ | query _ => exact hstep.elim

/-- **Every run of the manager is overheard**: with an ear it is the run that it is without one, and
the talks of its steps are written down one behind the other. Each step of the record holds a talk of
its own, the answers are those of the repository, and in no talk is anything said after an error. -/
theorem Session.run_overheard (repo : Repository σ) (s : Session σ) (log : List Exchange)
    {steps : List Step} (hsteps : ∀ step ∈ steps, step.OfManager) :
    ∃ talks : List (List Exchange),
      (s.withLog log).run repo.noting steps =
        ((s.run repo steps).1, (s.run repo steps).2.1.withLog (log ++ talks.flatten),
          (s.run repo steps).2.2) ∧
      List.Forall₂ (fun e talk => e.step.Talk e.clock talk e.outcome) (s.trace repo steps) talks ∧
      repo.Answers s.store talks.flatten (s.run repo steps).2.1.store ∧
      ∀ talk ∈ talks, ∀ before x after, talk = before ++ x :: after → x.Failed → after = [] := by
  induction steps generalizing s log with
  | nil => exact ⟨[], by rw [List.flatten_nil, List.append_nil]; rfl, .nil, .nil, nofun⟩
  | cons step steps ih =>
      obtain ⟨hstep, hsteps⟩ := List.forall_mem_cons.mp hsteps
      obtain ⟨talk, hnoted, hanswers, hsaid⟩ := step.exists_overheard repo s hstep
      obtain ⟨talks, hrun, htalks, hrest, hstops⟩ :=
        ih (step.take repo s).session (log ++ talk) hsteps
      refine ⟨talk :: talks, ?_, .cons hsaid htalks, hanswers.append hrest,
        List.forall_mem_cons.mpr ⟨fun before x after => hsaid.stops, hstops⟩⟩
      rw [List.append_assoc] at hrun
      simp only [Session.run, hnoted, hrun, List.flatten_cons]

/-- A contrary repository, which counts its calls: it answers every query with two tasks that nobody
asked for, refuses what is new and never finds what is written back. -/
def Repository.contrary : Repository Nat where
  insert _ calls := ⟨.error (.cause .missingId), calls + 1, []⟩
  query _ calls :=
    ⟨.ok [{ id := some 8, title := "b", createdOn := ⟨0⟩ }, { title := "", createdOn := ⟨1⟩ }],
      calls + 1, []⟩
  update _ calls := ⟨.error (.cause (.notFound 7)), calls + 1, []⟩

/-- The task that was answered is written back, although it is not the one that was asked for, and
that another one is missing is passed on. -/
example : ((Step.markDone 3).take Repository.contrary ⟨0, ⟨5⟩⟩).outcome = .refused (.notFound 7) ∧
    ((Step.markDone 3).take Repository.contrary.noting ⟨(0, []), ⟨5⟩⟩).session.store =
      (2, [.query (.hasId 3) (.ok [{ id := some 8, title := "b", createdOn := ⟨0⟩ },
          { title := "", createdOn := ⟨1⟩ }]),
        .update { id := some 8, title := "b", createdOn := ⟨0⟩, doneOn := some ⟨5⟩ }
          (.error (.cause (.notFound 7)))]) :=
  ⟨rfl, rfl⟩

/-- A run on the contrary repository, with a move of the clock in between. -/
theorem Session.run_overheard_of_contrary :
    let s : Session Nat := ⟨0, ⟨5⟩⟩
    let steps : List Step := [.create " " none, .create "a" none, .markDone 3, .advanceDays 1,
      .relevant]
    (∀ step ∈ steps, step.OfManager) ∧
      ∃ talks : List (List Exchange),
        (s.withLog []).run Repository.contrary.noting steps =
          ((s.run Repository.contrary steps).1,
            (s.run Repository.contrary steps).2.1.withLog ([] ++ talks.flatten),
            (s.run Repository.contrary steps).2.2) ∧
        List.Forall₂ (fun e talk => e.step.Talk e.clock talk e.outcome)
          (s.trace Repository.contrary steps) talks ∧
        Repository.contrary.Answers s.store talks.flatten
          (s.run Repository.contrary steps).2.1.store ∧
        ∀ talk ∈ talks, ∀ before x after, talk = before ++ x :: after → x.Failed → after = [] :=
  ⟨by decide, Session.run_overheard Repository.contrary ⟨0, ⟨5⟩⟩ [] (by decide)⟩

end Taskbook
