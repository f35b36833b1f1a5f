import Taskbook.Proofs.Log.Events
import Taskbook.Proofs.Manager.Overwriting
import Taskbook.Proofs.Manager.Refusals

/-!
# The Log Tells the Truth

What is said aloud in the log of a run can be told from the outcomes of its steps, and the other
way round. A call that creates or changes a task says so if and only if it succeeds, a call about
an id gives a warning if and only if it is refused because there is no such task, and nothing else
is said. So the creations in the log are the ids that the run has added to the store.

The manager writes its event after its only write, and nothing can fail after that; that is seen
where the ways in which an operation goes are listed. A task that has been found cannot be missing
when it is written back, so there is never a second reason for a warning.

## Order convention

Events are in the order of time. At most one thing is said aloud of a step; what a repository
writes for debugging comes before it.

## Main results

* `Repository.Candid`: what a **repository** must supply, with both backends as instances;
* `Manager.create_ways`, `get_ways`, `modify_ways`: **how an operation goes and what it says**;
* `Session.log_tells_truth`: **the log of a run** on either backend, and of opening a database.
-/

namespace Taskbook

open Taskbook.Action

variable {σ : Type}

/-! ### What is to be said -/

namespace Step

/-- The id that a call is about, if it is about a stored task. -/
def subject? : Step → Option Int64
  | get id => some id
  | step => step.target?

/-- The event of a step that **succeeded** in creating or changing a task. -/
def success? : Step → Outcome → Option Event
  | create _ due, .task t => some (.created (t.id.getD 0) due.isSome)
  | markDone id, .done => some (.changed .done id)
  | reopen id, .done => some (.changed .reopened id)
  | postpone id _, .done => some (.changed .postponed id)
  | reprioritize id _, .done => some (.changed .reprioritized id)
  | _, _ => none

/-- The **warning** of a step about an id that no stored task has. -/
def warning? (step : Step) : Outcome → Option Event
  | .refused (.notFound id) => if step.subject? = some id then some (.missing id) else none
  | _ => none

/-- What is to be said aloud of a step. -/
def told? (step : Step) (outcome : Outcome) : Option Event :=
  step.success? outcome <|> step.warning? outcome

/-- What is said of a step is a success, or it is a warning, or it is nothing. -/
theorem told?_cases (step : Step) (outcome : Outcome) :
    (∃ e, step.told? outcome = some e ∧ step.success? outcome = some e ∧
        step.warning? outcome = none ∧ e.isSuccess = true ∧ e.isWarning = false) ∨
      (∃ e, step.told? outcome = some e ∧ step.success? outcome = none ∧
        step.warning? outcome = some e ∧ e.isSuccess = false ∧ e.isWarning = true) ∨
      step.told? outcome = none ∧ step.success? outcome = none ∧ step.warning? outcome = none := by
  cases hsuccess : step.success? outcome with
  | some e =>
      left
      refine ⟨e, by rw [told?, hsuccess]; rfl, rfl, ?_⟩
      cases step <;> cases outcome <;> cases hsuccess <;> exact ⟨rfl, rfl, rfl⟩
  | none =>
      right
      have htold : step.told? outcome = step.warning? outcome := by
        rw [told?, hsuccess]
        rfl
      cases hwarning : step.warning? outcome with
      | none => exact .inr ⟨htold.trans hwarning, rfl, rfl⟩
      | some e =>
          refine .inl ⟨e, htold.trans hwarning, rfl, rfl, ?_⟩
          rw [warning?.eq_def] at hwarning
          split at hwarning
          · cases (Option.ite_none_right_eq_some.mp hwarning).2
            exact ⟨rfl, rfl⟩
          · cases hwarning

/-- The successes among what is said of a step. -/
theorem filter_isSuccess_told? (step : Step) (outcome : Outcome) :
    (step.told? outcome).filter Event.isSuccess = step.success? outcome := by
  rcases step.told?_cases outcome with ⟨e, htold, h, -, hs, -⟩ | ⟨e, htold, h, -, hs, -⟩ |
      ⟨htold, h, -⟩ <;> rw [htold, h]
  · exact if_pos hs
  · exact if_neg (Bool.eq_false_iff.mp hs)
  · rfl

/-- The warnings among what is said of a step. -/
theorem filter_isWarning_told? (step : Step) (outcome : Outcome) :
    (step.told? outcome).filter Event.isWarning = step.warning? outcome := by
  rcases step.told?_cases outcome with ⟨e, htold, -, h, -, hw⟩ | ⟨e, htold, -, h, -, hw⟩ |
      ⟨htold, -, h⟩ <;> rw [htold, h]
  · exact if_neg (Bool.eq_false_iff.mp hw)
  · exact if_pos hw
  · rfl

end Step

/-! ### What a repository must supply -/

/-- A repository is **candid** about the ids of its stored tasks: it says nothing aloud, a task that
it stores or finds has an id of its own, and it calls a task missing only when it is to be written
back and its id is none of them. -/
structure Repository.Candid (repo : Repository σ) (ids : σ → List Int64) : Prop where
  quiet : repo.Quiet
  clean : repo.FailsCleanly
  insert_ok : ∀ {t u s}, (repo.insert t s).result = .ok u → ∃ id, u.id = some id ∧
    u.dueDate = t.dueDate ∧ (ids (repo.insert t s).store).Perm (ids s ++ [id])
  insert_ne : ∀ t s id, (repo.insert t s).result ≠ .error (.cause (.notFound id))
  query_ne : ∀ p s id, (repo.query p s).result ≠ .error (.cause (.notFound id))
  query_hasId : ∀ {id s ts}, (repo.query (.hasId id) s).result = .ok ts →
    ∀ t ∈ ts, t.id = some id ∧ id ∈ ids s
  update_ids : ∀ t s, ids (repo.update t s).store = ids s
  update_ne : ∀ {t id s}, t.id = some id → id ∈ ids s →
    ∀ n, (repo.update t s).result ≠ .error (.cause (.notFound n))

/-- The manager says that a task is missing only if its repository does. -/
theorem ManagerError.ofRepo_ne {e : Failure RepoError} (h : ∀ id, e ≠ .cause (.notFound id))
    (id : Int64) : e.map ManagerError.ofRepo ≠ .cause (.notFound id) := by
  cases e with
  | overflow => simp [Failure.map]
  | cause e =>
      cases e with
      | notFound n => exact absurd rfl (h n)
      | _ => simp [Failure.map, ManagerError.ofRepo]

/-! ### How an operation goes and what it says -/

namespace Manager

variable {repo : Repository σ} {ids : σ → List Int64}

/-- **Creating a task** says so after it has been stored, or it fails and nothing is said. -/
theorem create_ways (h : repo.Candid ids) (now : Instant) (title : String) (due : Option Instant)
    (s : σ) :
    (∃ t id s' events, create repo now title due s =
        ⟨.ok t, s', events ++ [.created id due.isSome]⟩ ∧ Hushed events ∧ t.id = some id ∧
        (ids s').Perm (ids s ++ [id])) ∨
      ∃ e events, create repo now title due s = ⟨.error e, s, events⟩ ∧ Hushed events ∧
        ∀ id, e ≠ .cause (.notFound id) := by
  rw [create]
  by_cases hblank : Text.isBlankText title = true
  · rw [if_pos hblank]
    exact .inr ⟨_, _, rfl, hushed_nil, by simp⟩
  · rw [if_neg hblank]
    generalize htask : ({ title := title, createdOn := now, dueDate := due } : Task) = task
    have hdue : task.dueDate = due := by rw [← htask]
    have hquiet := h.quiet.insert task s
    rcases hinsert : repo.insert task s with ⟨result, s', events⟩
    rw [hinsert] at hquiet
    cases result with
    | ok t =>
        obtain ⟨id, hid, hdate, hids⟩ := h.insert_ok (congrArg Reply.result hinsert)
        rw [hinsert] at hids
        refine .inl ⟨t, id, s', events, ?_, hquiet, hid, hids⟩
        rw [bind_of_ok (lift_eq_of_ok hinsert), hid, hdate, hdue]
        rfl
    | error e =>
        have hstore : s' = s := by
          have := h.clean.insert task s e (congrArg Reply.result hinsert)
          rwa [hinsert] at this
        have hne : ∀ n, e.map ManagerError.ofRepo ≠ .cause (.notFound n) :=
          ManagerError.ofRepo_ne fun n he => h.insert_ne task s n (by rw [hinsert, he])
        refine .inr ⟨_, events, ?_, hquiet, hne⟩
        rw [bind_of_error (lift_eq_of_error hinsert), hstore]

/-- **Getting a task** finds it, or gives a warning that there is none, or it fails and nothing is
said. -/
theorem get_ways (h : repo.Candid ids) (id : Int64) (s : σ) :
    (∃ t events, get repo id s = ⟨.ok t, s, events⟩ ∧ Hushed events ∧ t.id = some id ∧
        id ∈ ids s) ∨
      (∃ events, get repo id s =
        ⟨.error (.cause (.notFound id)), s, events ++ [.missing id]⟩ ∧ Hushed events) ∨
      ∃ e events, get repo id s = ⟨.error e, s, events⟩ ∧ Hushed events ∧
        ∀ n, e ≠ .cause (.notFound n) := by
  rw [get_eq]
  have hquiet := h.quiet.query (.hasId id) s
  have hstore := h.clean.query (.hasId id) s
  rcases hquery : repo.query (.hasId id) s with ⟨result, s', events⟩
  rw [hquery] at hquiet hstore
  obtain rfl : s' = s := hstore
  cases result with
  | error e =>
      have hne : ∀ n, e.map ManagerError.ofRepo ≠ .cause (.notFound n) :=
        ManagerError.ofRepo_ne fun n he => h.query_ne _ s' n (by rw [hquery, he])
      exact .inr (.inr ⟨_, events, bind_of_error (lift_eq_of_error hquery), hquiet, hne⟩)
  | ok ts =>
      rw [bind_of_ok (lift_eq_of_ok hquery)]
      cases ts with
      | nil => exact .inr (.inl ⟨events, rfl, hquiet⟩)
      | cons t rest =>
          have hfound := h.query_hasId (congrArg Reply.result hquery) t List.mem_cons_self
          exact .inl ⟨t, events, by simp, hquiet, hfound⟩

/-- **Changing a task** says so after it has been written back, or gives a warning that there is
none, or it fails and nothing is said. -/
theorem modify_ways (h : repo.Candid ids) (id : Int64) (change : Change) {f : Task → Task}
    (hf : ∀ t, (f t).id = t.id) (s : σ) :
    (∃ s' events, modify repo id change f s =
        ⟨.ok (), s', events ++ [.changed change id]⟩ ∧ Hushed events ∧ ids s' = ids s) ∨
      (∃ events, modify repo id change f s =
        ⟨.error (.cause (.notFound id)), s, events ++ [.missing id]⟩ ∧ Hushed events) ∨
      ∃ e events, modify repo id change f s = ⟨.error e, s, events⟩ ∧ Hushed events ∧
        ∀ n, e ≠ .cause (.notFound n) := by
  rw [modify]
  rcases get_ways h id s with ⟨t, events, hget, hhushed, hid, hmem⟩ | ⟨events, hget, hhushed⟩ |
      ⟨e, events, hget, hhushed, hne⟩
  · have hquiet := h.quiet.update (f t) s
    have hids := h.update_ids (f t) s
    rcases hupdate : repo.update (f t) s with ⟨result, s', events'⟩
    rw [hupdate] at hquiet hids
    have hboth : Hushed (events ++ events') := (hhushed.filter_append _).trans hquiet
    rw [bind_of_ok hget]
    cases result with
    | ok _ =>
        refine .inl ⟨s', events ++ events', ?_, hboth, hids⟩
        rw [bind_of_ok (lift_eq_of_ok hupdate), ← List.append_assoc]
        rfl
    | error e =>
        have hstore : s' = s := by
          have := h.clean.update (f t) s e (congrArg Reply.result hupdate)
          rwa [hupdate] at this
        have hne : ∀ n, e.map ManagerError.ofRepo ≠ .cause (.notFound n) :=
          ManagerError.ofRepo_ne fun n he =>
            h.update_ne ((hf t).trans hid) hmem n (by rw [hupdate, he])
        refine .inr (.inr ⟨_, events ++ events', ?_, hboth, hne⟩)
        rw [bind_of_error (lift_eq_of_error hupdate), hstore]
  · rw [bind_of_error hget]
    exact .inr (.inl ⟨events, rfl, hhushed⟩)
  · rw [bind_of_error hget]
    exact .inr (.inr ⟨e, events, rfl, hhushed, hne⟩)

/-- **Listing** what a predicate selects says nothing and leaves the store as it is. -/
theorem list_ways (h : repo.Candid ids) (p : Predicate) (s : σ) :
    ∃ result events, (do return sortByPriority (← lift (repo.query p)) : Op σ (List Task)) s =
      ⟨result, s, events⟩ ∧ Hushed events ∧ ∀ n, result ≠ .error (.cause (.notFound n)) := by
  have hquiet := h.quiet.query p s
  have hstore := h.clean.query p s
  rcases hquery : repo.query p s with ⟨result, s', events⟩
  rw [hquery] at hquiet hstore
  obtain rfl : s' = s := hstore
  cases result with
  | error e =>
      have hne : ∀ n, e.map ManagerError.ofRepo ≠ .cause (.notFound n) :=
        ManagerError.ofRepo_ne fun n he => h.query_ne p s' n (by rw [hquery, he])
      exact ⟨_, events, bind_of_error (lift_eq_of_error hquery), hquiet,
        fun n he => hne n (Except.error.inj he)⟩
  | ok ts =>
      refine ⟨.ok (sortByPriority ts), events, ?_, hquiet, fun n he => by cases he⟩
      rw [bind_of_ok (lift_eq_of_ok hquery)]
      exact congrArg _ (List.append_nil events)

end Manager

/-! ### What is said of a step and of a run -/

namespace Step

/-- A step that changes a task is a change of the manager, under the name that is said of it. -/
theorem take_of_target (repo : Repository σ) (s : Session σ) {step : Step} {id : Int64}
    (h : step.target? = some id) :
    ∃ change, step.take repo s =
        s.manage (fun _ => .done) (Manager.modify repo id change (step.alteration s.clock)) ∧
      step.told? .done = some (.changed change id) := by
  cases step <;> cases h <;> exact ⟨_, rfl, rfl⟩

/-- Nothing is said of a failure that is not about a missing task. -/
theorem told?_of_error {α : Type} {step : Step} {answer : α → Outcome} {e : Failure ManagerError}
    (h : ∀ id, e ≠ .cause (.notFound id)) :
    step.told? (.ofResult answer .refused (.error e)) = none := by
  cases e with
  | overflow => cases step <;> rfl
  | cause e =>
      cases e with
      | notFound id => exact absurd rfl (h id)
      | _ => cases step <;> rfl

/-- Of a missing task there is a warning, if the step is about it. -/
theorem told?_of_missing {step : Step} {id : Int64} (h : step.subject? = some id) :
    step.told? (.refused (.notFound id)) = some (.missing id) := by
  cases step <;> cases h <;> simp [told?, success?, warning?, subject?, target?]

end Step

/-- A step that has been taken is **told** truly: what is said aloud is what is to be said of its
outcome, the ids of the store are those it had and those that are said to have been created, and a
task that is missing is the one that the step is about. -/
structure Taken.Told (ids : σ → List Int64) (before : σ) (step : Step) (taken : Taken σ) :
    Prop where
  aloud : taken.events.filter Event.isAloud = (step.told? taken.outcome).toList
  stored : (ids taken.session.store).Perm (ids before ++ taken.events.filterMap Event.createdId?)
  missing : ∀ id, taken.outcome = .refused (.notFound id) → step.subject? = some id

/-- The creations are among what is said aloud. -/
theorem Event.filterMap_createdId? (events : List Event) :
    events.filterMap createdId? = (events.filter isAloud).filterMap createdId? := by
  rw [List.filterMap_filter]
  refine List.filterMap_congr fun e _ => ?_
  cases hid : e.createdId? with
  | none => split <;> rfl
  | some id => rw [if_pos (isAloud_of_createdId? hid)]

/-- Where nothing is said and the store stays as it is, a step is told truly. -/
theorem Taken.Told.silent {ids : σ → List Int64} {s : σ} {step : Step} {taken : Taken σ}
    (hstore : taken.session.store = s) (hushed : Hushed taken.events)
    (htold : step.told? taken.outcome = none)
    (hne : ∀ id, taken.outcome ≠ .refused (.notFound id)) : taken.Told ids s step where
  aloud := by rw [htold]; exact hushed
  stored := by
    rw [Event.filterMap_createdId?, hushed, hstore, List.filterMap_nil, List.append_nil]
  missing id h := absurd h (hne id)

/-- A step is told truly by the one event that is to be said of it, if the task that it says has
been created is the one that has been stored. -/
theorem Taken.Told.spoken {ids : σ → List Int64} {s : σ} {step : Step} {taken : Taken σ}
    {events : List Event} {e : Event} (hevents : taken.events = events ++ [e])
    (hushed : Hushed events) (haloud : e.isAloud = true)
    (htold : step.told? taken.outcome = some e)
    (hids : (ids taken.session.store).Perm (ids s ++ e.createdId?.toList))
    (hmissing : ∀ id, taken.outcome = .refused (.notFound id) → step.subject? = some id) :
    taken.Told ids s step := by
  have hheard : taken.events.filter Event.isAloud = [e] := by
    rw [hevents, hushed.filter_append, List.filter_singleton, haloud]
    rfl
  refine ⟨by rw [hheard, htold]; rfl, ?_, hmissing⟩
  rw [Event.filterMap_createdId?, hheard, List.filterMap_cons]
  cases hid : e.createdId? <;> simpa [hid] using hids

namespace Step

variable {repo : Repository σ} {ids : σ → List Int64}

/-- A failure that is not about a missing task is told truly by saying nothing. -/
theorem told_of_error {α : Type} {s : Session σ} {step : Step} {answer : α → Outcome}
    {op : Manager.Op σ α} {e : Failure ManagerError} {events : List Event}
    (hop : op s.store = ⟨.error e, s.store, events⟩) (hushed : Hushed events)
    (hne : ∀ id, e ≠ .cause (.notFound id)) :
    (s.manage answer op).Told ids s.store step := by
  have htaken : s.manage answer op =
      ⟨.ofResult answer .refused (.error e), ⟨s.store, s.clock⟩, events⟩ := by
    rw [Session.manage, Session.act, hop]
  rw [htaken]
  refine .silent rfl hushed (told?_of_error hne) fun id h => ?_
  cases e with
  | overflow => cases h
  | cause e => exact hne id (congrArg _ (Outcome.refused.inj h))

/-- A warning about the task that a step is about is told truly. -/
theorem told_of_missing {α : Type} {s : Session σ} {step : Step} {answer : α → Outcome}
    {op : Manager.Op σ α} {id : Int64} {events : List Event} (hsubject : step.subject? = some id)
    (hop : op s.store = ⟨.error (.cause (.notFound id)), s.store, events ++ [.missing id]⟩)
    (hushed : Hushed events) : (s.manage answer op).Told ids s.store step := by
  have htaken : s.manage answer op =
      ⟨.refused (.notFound id), ⟨s.store, s.clock⟩, events ++ [.missing id]⟩ := by
    rw [Session.manage, Session.act, hop]
    rfl
  rw [htaken]
  refine .spoken rfl hushed rfl (told?_of_missing hsubject) ?_ fun n hn => ?_
  · exact (List.append_nil _).symm ▸ .refl _
  · cases hn
    exact hsubject

/-- Listing is told truly by saying nothing. -/
theorem told_of_list (h : repo.Candid ids) (s : Session σ) {step : Step} {p : Predicate}
    (hstep : step.subject? = none) (hsuccess : ∀ outcome, step.success? outcome = none)
    {op : Manager.Op σ (List Task)}
    (hop : op = do return sortByPriority (← Manager.lift (repo.query p))) :
    (s.manage .tasks op).Told ids s.store step := by
  obtain ⟨result, events, hlist, hushed, hne⟩ := Manager.list_ways h p s.store
  have htaken : s.manage .tasks op =
      ⟨.ofResult .tasks .refused result, ⟨s.store, s.clock⟩, events⟩ := by
    rw [Session.manage, Session.act, hop, hlist]
  have hwarning (outcome : Outcome) : step.warning? outcome = none := by
    rw [warning?.eq_def, hstep]
    split <;> rfl
  rw [htaken]
  refine .silent rfl hushed (by rw [told?, hsuccess, hwarning]; rfl) fun id houtcome => ?_
  cases result with
  | ok ts => cases houtcome
  | error e =>
      cases e with
      | overflow => cases houtcome
      | cause e => exact hne id (congrArg _ (congrArg _ (Outcome.refused.inj houtcome)))

/-- **A step of the manager is told truly**, on a candid repository. -/
theorem told (h : repo.Candid ids) (s : Session σ) {step : Step} (hstep : step.OfManager) :
    (step.take repo s).Told ids s.store step := by
  cases htarget : step.target? with
  | some id =>
      obtain ⟨change, htake, htold⟩ := take_of_target repo s htarget
      have hf : ∀ t, (step.alteration s.clock t).id = t.id := step.id_alteration s.clock
      have hsubject : step.subject? = some id := by cases step <;> cases htarget <;> rfl
      rw [htake]
      generalize step.alteration s.clock = f at hf
      rcases Manager.modify_ways h id change hf s.store with ⟨s', events, hmodify, hushed, hids⟩ |
          ⟨events, hmodify, hushed⟩ | ⟨e, events, hmodify, hushed, hne⟩
      · have htaken : s.manage (fun _ => Outcome.done) (Manager.modify repo id change f) =
            ⟨.done, ⟨s', s.clock⟩, events ++ [.changed change id]⟩ := by
          rw [Session.manage, Session.act, hmodify]
          rfl
        rw [htaken]
        refine .spoken rfl hushed rfl htold ?_ (fun _ h => by cases h)
        exact hids ▸ (List.append_nil _).symm ▸ .refl _
      · exact told_of_missing hsubject hmodify hushed
      · exact told_of_error hmodify hushed hne
  | none =>
      cases step with
      | create title due =>
          rcases Manager.create_ways h s.clock title due s.store with
            ⟨t, id, s', events, hcreate, hushed, hid, hids⟩ | ⟨e, events, hcreate, hushed, hne⟩
          · have htaken : (create title due).take repo s =
                ⟨.task t, ⟨s', s.clock⟩, events ++ [.created id due.isSome]⟩ := by
              rw [take, Session.manage, Session.act, hcreate]
              rfl
            rw [htaken]
            refine .spoken rfl hushed rfl ?_ hids (fun _ h => by cases h)
            rw [told?, success?, hid]
            rfl
          · exact told_of_error hcreate hushed hne
      | get id =>
          rcases Manager.get_ways h id s.store with ⟨t, events, hget, hushed, -⟩ |
              ⟨events, hget, hushed⟩ | ⟨e, events, hget, hushed, hne⟩
          · have htaken : (get id).take repo s = ⟨.task t, ⟨s.store, s.clock⟩, events⟩ := by
              rw [take, Session.manage, Session.act, hget]
              rfl
            rw [htaken]
            exact .silent rfl hushed rfl (fun _ h => by cases h)
          · exact told_of_missing rfl hget hushed
          · exact told_of_error hget hushed hne
      | relevant =>
          exact told_of_list h s rfl (fun _ => rfl) (Manager.relevant_eq_list repo s.clock)
      | listAll => exact told_of_list h s rfl (fun _ => rfl) rfl
      | readClock | setClock _ | advanceMillis _ | advanceDays _ =>
          exact .silent rfl hushed_nil rfl (fun _ h => by cases h)
      | insert t | update t | query p => exact hstep.elim
      | markDone id | reopen id | postpone id _ | reprioritize id _ => cases htarget

end Step

namespace Session

/-- The log of a run **tells the truth**. The successes that it tells of are those of the steps that
succeeded, in order; the warnings are those of the steps that were refused for a missing task, which
is the one that the step was about; nothing else is said aloud; and the tasks that it says have been
created are those whose ids the run has added to the store. -/
structure Truthful (repo : Repository σ) (ids : σ → List Int64) (s : Session σ)
    (steps : List Step) : Prop where
  successes : (s.run repo steps).2.2.filter Event.isSuccess =
    (s.trace repo steps).filterMap fun entry => entry.step.success? entry.outcome
  warnings : (s.run repo steps).2.2.filter Event.isWarning =
    (s.trace repo steps).filterMap fun entry => entry.step.warning? entry.outcome
  missing : ∀ entry ∈ s.trace repo steps, ∀ id, entry.outcome = .refused (.notFound id) →
    entry.step.subject? = some id
  nothingElse : ∀ e ∈ (s.run repo steps).2.2, e.isAloud = true →
    e.isSuccess = true ∨ e.isWarning = true
  stored : (ids (s.storeAfter repo steps)).Perm
    (ids s.store ++ (s.run repo steps).2.2.filterMap Event.createdId?)

variable {repo : Repository σ} {ids : σ → List Int64}

/-- What is said aloud in a run is what is to be said of its steps. -/
theorem aloud_run (h : repo.Candid ids) (s : Session σ) {steps : List Step}
    (hsteps : ∀ step ∈ steps, step.OfManager) :
    (s.run repo steps).2.2.filter Event.isAloud =
      (s.trace repo steps).filterMap fun entry => entry.step.told? entry.outcome := by
  induction steps generalizing s with
  | nil => rfl
  | cons step steps ih =>
      have hstep := (step.told h s (hsteps step List.mem_cons_self)).aloud
      have hrest := ih (step.take repo s).session fun x hx =>
        hsteps x (List.mem_cons_of_mem step hx)
      rw [run, trace, List.filterMap_cons]
      simp only [List.filter_append, hstep, hrest]
      cases step.told? (step.take repo s).outcome <;> rfl

/-- The ids of the store after a run are those before it and those that are said to have been
created. -/
theorem stored_run (h : repo.Candid ids) (s : Session σ) {steps : List Step}
    (hsteps : ∀ step ∈ steps, step.OfManager) :
    (ids (s.storeAfter repo steps)).Perm
      (ids s.store ++ (s.run repo steps).2.2.filterMap Event.createdId?) := by
  induction steps generalizing s with
  | nil => exact (List.append_nil _).symm ▸ .refl _
  | cons step steps ih =>
      have hstep := (step.told h s (hsteps step List.mem_cons_self)).stored
      have hrest := ih (step.take repo s).session fun x hx =>
        hsteps x (List.mem_cons_of_mem step hx)
      have hevents : (s.run repo (step :: steps)).2.2 =
          (step.take repo s).events ++ ((step.take repo s).session.run repo steps).2.2 := rfl
      rw [hevents, List.filterMap_append, ← List.append_assoc]
      exact hrest.trans (hstep.append_right _)

/-- A step that is refused in a run for a missing task is about this task. -/
theorem missing_run (h : repo.Candid ids) (s : Session σ) {steps : List Step}
    (hsteps : ∀ step ∈ steps, step.OfManager) :
    ∀ entry ∈ s.trace repo steps, ∀ id, entry.outcome = .refused (.notFound id) →
      entry.step.subject? = some id := by
  induction steps generalizing s with
  | nil => exact fun entry h => nomatch h
  | cons step steps ih =>
      intro entry hentry
      rcases List.mem_cons.mp hentry with rfl | hentry
      · exact (step.told h s (hsteps step List.mem_cons_self)).missing
      · exact ih _ (fun x hx => hsteps x (List.mem_cons_of_mem step hx)) entry hentry

/-- **The log of a run tells the truth**, on a candid repository. -/
theorem truthful (h : repo.Candid ids) (s : Session σ) {steps : List Step}
    (hsteps : ∀ step ∈ steps, step.OfManager) : s.Truthful repo ids steps := by
  have haloud := aloud_run h s hsteps
  -- What passes a test that only events said aloud pass is found among those.
  have hamong (test : Event → Bool) (htest : ∀ e, test e = true → e.isAloud = true) :
      (s.run repo steps).2.2.filter test =
        (s.trace repo steps).filterMap fun entry =>
          (entry.step.told? entry.outcome).filter test := by
    have hboth : ∀ e, (test e && e.isAloud) = test e := fun e => by
      cases h : test e with
      | true => exact htest e h
      | false => rfl
    rw [← List.filter_filterMap, ← haloud, List.filter_filter]
    exact congrArg (List.filter · _) (funext fun e => (hboth e).symm)
  constructor
  · rw [hamong _ fun _ => Event.isAloud_of_isSuccess]
    simp only [Step.filter_isSuccess_told?]
  · rw [hamong _ fun _ => Event.isAloud_of_isWarning]
    simp only [Step.filter_isWarning_told?]
  · exact missing_run h s hsteps
  · intro e he hsaid
    have hmem : e ∈ (s.run repo steps).2.2.filter Event.isAloud := List.mem_filter.mpr ⟨he, hsaid⟩
    rw [haloud, List.mem_filterMap] at hmem
    obtain ⟨entry, -, htold⟩ := hmem
    rcases entry.step.told?_cases entry.outcome with ⟨d, hd, -, -, hs, -⟩ | ⟨d, hd, -, -, -, hw⟩ |
        ⟨hnone, -⟩
    · obtain rfl := Option.some.inj (hd.symm.trans htold)
      exact .inl hs
    · obtain rfl := Option.some.inj (hd.symm.trans htold)
      exact .inr hw
    · rw [hnone] at htold
      cases htold
  · exact stored_run h s hsteps

end Session

/-! ### The two backends -/

namespace MemoryStore

/-- The store in memory is candid, whatever its tasks and its counter are. -/
theorem candid : repository.Candid ids where
  quiet := quiet
  clean := failsCleanly
  insert_ok := by
    intro t u s h
    rcases s.insert_cases t with ⟨e, hinsert⟩ | ⟨next, -, -, hinsert⟩ <;> rw [hinsert] at h ⊢
    · cases h
    · cases h
      refine ⟨s.nextId, rfl, rfl, ?_⟩
      rw [ids, List.filterMap_append]
      exact .refl _
  insert_ne t s n h := by
    cases htitle : Text.isBlankText t.title with
    | true =>
        rw [insert_eq_of_blank htitle] at h
        cases h
    | false =>
        cases hid : t.id with
        | some id =>
            rw [insert_eq_of_saved hid htitle] at h
            cases h
        | none =>
            rcases insert_new_cases hid htitle s with ⟨-, hinsert⟩ | ⟨next, -, hinsert⟩ <;>
              rw [hinsert] at h <;> cases h
  query_ne p s n := nofun
  query_hasId := by
    intro id s ts h t ht
    obtain rfl := Except.ok.inj h
    obtain ⟨hmem, hholds⟩ := List.mem_filter.mp ht
    rw [Predicate.holds_hasId, beq_iff_eq] at hholds
    exact ⟨hholds, List.mem_filterMap.mpr ⟨t, hmem, hholds⟩⟩
  update_ids t s := by
    rcases s.update_cases t with ⟨e, hupdate⟩ | ⟨n, hid, -, hupdate⟩ <;> rw [hupdate]
    have hmap : ∀ ts : List Task, ts.filterMap Task.id = (ts.map Task.id).filterMap id :=
      fun ts => by rw [List.filterMap_map]; rfl
    rw [ids, ids, hmap, hmap, map_id_replace hid]
  update_ne := by
    intro t id s hid hmem n h
    cases htitle : Text.isBlankText t.title with
    | true =>
        rw [update_eq_of_blank htitle] at h
        cases h
    | false =>
        have hfind : (s.find? id).isSome = true := by
          rw [Option.isSome_iff_ne_none, ne_eq, find?_eq_none_iff]
          exact not_not_intro hmem
        rw [update_eq hid htitle, if_pos hfind] at h
        cases h

end MemoryStore

namespace Tables

/-- A row is placed among the others. -/
theorem perm_place (r : Row) (rows : List Row) : (r.place rows).Perm (rows ++ [r]) := by
  induction rows with
  | nil => exact .refl _
  | cons q rows ih =>
      rw [Row.place]
      split
      · exact (List.perm_append_singleton r (q :: rows)).symm
      · exact ih.cons q

/-- **Inserting a task** is refused for the task or by its statement, or the statement answers the
id that the task is given. -/
theorem insert_ways [Engine] (t : Task) (s : Tables) :
    (∃ e, repository.insert t s = ⟨.error (.cause e), s, []⟩ ∧ ∀ n, e ≠ .notFound n) ∨
      ∃ id s', s.insertTask t.cells = .ok (id, s') ∧
        repository.insert t s = ⟨.ok { t with id := some id }, s', []⟩ := by
  cases htitle : Text.isBlankText t.title with
  | true =>
      refine .inl ⟨.validation .empty, ?_, fun _ h => by cases h⟩
      simp [repository, Task.validate, htitle, Except.mapError, bind, Action.andThen]
  | false =>
      cases hid : t.id with
      | some n =>
          refine .inl ⟨.alreadyInserted n, ?_, fun _ h => by cases h⟩
          simp [repository, Task.validate, htitle, hid, Except.mapError, bind, Action.andThen]
      | none =>
          have hvalid : t.validate = .ok () := t.validate_eq_ok_iff.mpr htitle
          have hwrite : repository.insert t s =
              (write (fun s => s.insertTask t.cells) >>= fun id =>
                pure ({ t with id := some id } : Task)) s := by
            simp only [repository, hvalid, hid]
            rfl
          rw [hwrite]
          cases hinsert : s.insertTask t.cells with
          | error e =>
              rw [bind_of_error (write_of_error hinsert)]
              exact .inl ⟨refusal e, rfl, fun _ h => by cases h⟩
          | ok answer =>
              rw [bind_of_ok (write_of_ok hinsert)]
              exact .inr ⟨answer.1, answer.2, rfl, rfl⟩

/-- An insertion that succeeds has placed the row that it completed, under the id that it answers. -/
theorem rows_of_insertTask [Engine] {s s' : Tables} {cells : Cells} {id : Int64}
    (h : s.insertTask cells = .ok (id, s')) :
    ∃ row, complete id cells = .ok row ∧ s'.tasks.rows = row.place s.tasks.rows := by
  rw [insertTask] at h
  obtain ⟨chosen, -, h⟩ := Except.bind_eq_ok_iff.mp h
  obtain ⟨row, hrow, h⟩ := Except.bind_eq_ok_iff.mp h
  cases hinsert : s.tasks.insert? row with
  | none =>
      rw [hinsert] at h
      cases h
  | some tasks =>
      have hrows : tasks.rows = row.place s.tasks.rows := by
        rw [TaskTable.insert?] at hinsert
        split at hinsert
        · cases hinsert
          rfl
        · cases hinsert
      simp only [hinsert] at h
      split at h
      · cases h
        exact ⟨row, hrow, hrows⟩
      · cases h

/-- An insertion that succeeds has added the id that it answers. -/
theorem ids_of_insertTask [Engine] {s s' : Tables} {cells : Cells} {id : Int64}
    (h : s.insertTask cells = .ok (id, s')) : s'.ids.Perm (s.ids ++ [id]) := by
  obtain ⟨row, hrow, hrows⟩ := rows_of_insertTask h
  have hrowId : row.id = id := by
    rw [complete] at hrow
    split at hrow
    · cases hrow
    · cases hrow
      exact Row.id_ofCells _ _
  have hperm := (perm_place row s.tasks.rows).map Row.id
  rw [List.map_append, List.map_singleton, hrowId, ← hrows] at hperm
  exact hperm

/-- The ids of the slots are those of the rows. -/
theorem ids_slotted [Engine] (s : Tables) : slotted.ids s = s.ids.map some := by
  rw [ids, List.map_map]
  rfl

/-- No row is refused because a task is missing. -/
theorem fault?_ne (r : Row) (id : Int64) : r.fault? ≠ some (.notFound id) := by
  intro h
  cases ManagerError.ofRepo_of_fault h

/-- No query is refused because a task is missing. -/
theorem query_ne [Engine] (p : Predicate) (s : Tables) (id : Int64) :
    (repository.query p s).result ≠ .error (.cause (.notFound id)) := by
  intro h
  cases hfault : p.fault? with
  | some e =>
      obtain ⟨events, hquery⟩ := Keeps.query_eq_of_fault hfault s
      rw [hquery] at h
      cases h
  | none =>
      obtain ⟨r, fault, hblames, he⟩ := (query_eq_error_iff hfault).mp h
      cases he
      exact fault?_ne r id hblames.fault

/-- A task that a query for an id answers has the id, and so has a row. -/
theorem query_hasId_ids [Engine] {id : Int64} {s : Tables} {ts : List Task}
    (h : (repository.query (.hasId id) s).result = .ok ts) :
    ∀ t ∈ ts, t.id = some id ∧ id ∈ s.ids := by
  intro t ht
  obtain ⟨r, hr, hid, hread⟩ := slotted.reads_of_query s.nodup_ids h ht
  refine ⟨(slotted.written_of_reads hread).2.trans hid, ?_⟩
  exact List.mem_map.mpr ⟨r, hr, Option.some.inj hid⟩

/-- The tables are candid, whatever is in their rows. -/
theorem candid [Engine] : repository.Candid ids where
  quiet := quiet
  clean := failsCleanly
  insert_ok := by
    intro t u s h
    rcases insert_ways t s with ⟨e, hinsert, -⟩ | ⟨id, s', hrun, hinsert⟩ <;> rw [hinsert] at h ⊢
    · cases h
    · cases h
      exact ⟨id, rfl, rfl, ids_of_insertTask hrun⟩
  insert_ne t s n h := by
    rcases insert_ways t s with ⟨e, hinsert, hne⟩ | ⟨id, s', -, hinsert⟩ <;> rw [hinsert] at h
    · exact hne n (Failure.cause.inj (Except.error.inj h))
    · cases h
  query_ne := query_ne
  query_hasId := query_hasId_ids
  update_ids t s := by
    have hids := Slotted.ids_update (V := slotted) s.nodup_ids t
    rw [ids_slotted, ids_slotted] at hids
    exact (List.map_injective_iff.mpr fun _ _ => Option.some.inj) hids
  update_ne := by
    intro t id s hid hmem n h
    rcases Slotted.update_cases (V := slotted) s.nodup_ids t with ⟨e, hfault, hupdate⟩ |
        ⟨-, m, s', -, hupdate, -⟩
    · rw [hupdate] at h
      cases h
      rcases Task.updateFault?_eq_some hfault with
        ⟨-, he⟩ | ⟨-, ⟨-, he⟩ | ⟨m, hm, ⟨hmissing, -⟩ | ⟨-, -, he⟩⟩⟩
      · cases he
      · cases he
      · obtain rfl := Option.some.inj (hid.symm.trans hm)
        rw [ids_slotted] at hmissing
        exact hmissing (List.mem_map_of_mem hmem)
      · cases he
    · rw [hupdate] at h
      cases h

/-- A database that cannot be written refuses every task, but none because it is missing. -/
theorem frozen_refuses [Engine] (obstacle : SqlError) (t : Task) (s : Tables) :
    (∃ e, (frozenRepository obstacle).insert t s = ⟨.error (.cause e), s, []⟩ ∧
        ∀ n, e ≠ .notFound n) ∧
      ∃ e, (frozenRepository obstacle).update t s = ⟨.error (.cause e), s, []⟩ ∧
        ∀ n, e ≠ .notFound n := by
  have hrefusal : ∀ n, refusal obstacle ≠ .notFound n := fun _ h => by cases h
  cases htitle : Text.isBlankText t.title with
  | true =>
      constructor <;> refine ⟨.validation .empty, ?_, fun _ h => by cases h⟩ <;>
        simp [frozenRepository, Task.validate, htitle, Except.mapError, bind, Action.andThen]
  | false =>
      cases hid : t.id with
      | some n =>
          refine ⟨⟨.alreadyInserted n, ?_, fun _ h => by cases h⟩, refusal obstacle, ?_,
            hrefusal⟩ <;>
            simp [frozenRepository, Task.validate, htitle, hid, Except.mapError, bind,
              Action.andThen]
      | none =>
          refine ⟨⟨refusal obstacle, ?_, hrefusal⟩, .missingId, ?_, fun _ h => by cases h⟩ <;>
            simp [frozenRepository, Task.validate, htitle, hid, Except.mapError, bind,
              Action.andThen]

/-- A database that cannot be written is candid. -/
theorem candid_frozen [Engine] (obstacle : SqlError) : (frozenRepository obstacle).Candid ids where
  quiet := quiet_frozen obstacle
  clean := failsCleanly_frozen obstacle
  insert_ok := by
    intro t u s h
    obtain ⟨⟨e, hinsert, -⟩, -⟩ := frozen_refuses obstacle t s
    rw [hinsert] at h
    cases h
  insert_ne t s n h := by
    obtain ⟨⟨e, hinsert, hne⟩, -⟩ := frozen_refuses obstacle t s
    rw [hinsert] at h
    exact hne n (Failure.cause.inj (Except.error.inj h))
  query_ne := query_ne
  query_hasId := query_hasId_ids
  update_ids t s := by
    obtain ⟨-, e, hupdate, -⟩ := frozen_refuses obstacle t s
    rw [hupdate]
  update_ne := by
    intro t id s _ _ n h
    obtain ⟨-, e, hupdate, hne⟩ := frozen_refuses obstacle t s
    rw [hupdate] at h
    exact hne n (Failure.cause.inj (Except.error.inj h))

end Tables

/-- **The log tells the truth about every run** of the manager, on every store in memory and on all
tables, whether they can be written or not, and **about every opening of a database**, in memory or
at an address, where a call that fails also leaves behind what stood there when it connected. -/
theorem log_tells_truth [Engine] :
    (∀ (s : Session MemoryStore) (steps : List Step), (∀ step ∈ steps, step.OfManager) →
      s.Truthful MemoryStore.repository MemoryStore.ids steps) ∧
    (∀ (s : Session Tables) (steps : List Step), (∀ step ∈ steps, step.OfManager) →
      s.Truthful Tables.repository Tables.ids steps ∧
        ∀ obstacle, s.Truthful (Tables.frozenRepository obstacle) Tables.ids steps) ∧
    Database.Told .memory (.ok .new) Database.openMemory ∧
    ∀ (fs : Files) (here : Place) (address : String),
      let connected := fs.connect here address
      let opened := fs.openDatabase here address
      Database.Told .file (connected.1.map Prod.fst) (opened.1.map Prod.fst, opened.2.1) ∧
        ∀ e, opened.1 = .error e → opened.2.2 = connected.2 := by
  refine ⟨fun s steps hsteps => ?_, fun s steps hsteps => ⟨?_, fun obstacle => ?_⟩, ?_, ?_⟩
  · exact Session.truthful MemoryStore.candid s hsteps
  · exact Session.truthful Tables.candid s hsteps
  · exact Session.truthful (Tables.candid_frozen obstacle) s hsteps
  · exact Database.told_openWith .memory (.ok .new) none
  · exact Files.told_openDatabase

/-- On a store in memory and on new tables: a creation with a due date, one that is refused for its
title, a change, and two calls about ids that there are none of. -/
theorem log_tells_truth_of_refusals :
    let _ : Engine := .scanning
    let steps (id : Int64) : List Step :=
      [.create "a" (some ⟨5⟩), .create " " none, .markDone id, .get 7, .reopen 8]
    let memory : Session MemoryStore := ⟨.empty, ⟨0⟩⟩
    let new : Session Tables := ⟨.empty, ⟨0⟩⟩
    let inMemory := (memory.run MemoryStore.repository (steps 10000)).2.2
    let inTables := (new.run Tables.repository (steps 1)).2.2
    (∀ id, ∀ step ∈ steps id, step.OfManager) ∧
      inMemory.filter Event.isSuccess = [.created 10000 true, .changed .done 10000] ∧
      inMemory.filter Event.isWarning = [.missing 7, .missing 8] ∧
      inTables.filter Event.isSuccess = [.created 1 true, .changed .done 1] ∧
      inTables.filter Event.isWarning = [.missing 7, .missing 8] := by
  intro _ steps memory new inMemory inTables
  have hsteps (id : Int64) : ∀ step ∈ steps id, step.OfManager := by simp [steps, Step.OfManager]
  have hmemory := log_tells_truth.1 memory (steps 10000) (hsteps 10000)
  have htables := (log_tells_truth.2.1 new (steps 1) (hsteps 1)).1
  refine ⟨hsteps, hmemory.successes.trans ?_, hmemory.warnings.trans ?_,
    htables.successes.trans ?_, htables.warnings.trans ?_⟩ <;> decide

end Taskbook
