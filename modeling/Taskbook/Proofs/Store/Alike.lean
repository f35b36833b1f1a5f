import Mathlib.Data.List.Forall2
import Taskbook.Proofs.Query.Shape
import Taskbook.Proofs.Store.Seeding

/-!
# Two Runs of One Action

Two actions run *alike* from two stores that are related if they write the same events, leave
related stores behind and end in related answers or in one and the same failure. What is put
together from actions that run alike runs alike, so it is enough to look at the operations of a
repository.

The relation of interest is that of tasks that differ in their titles only. A title can be told
from another one by its content; what must not be told apart is only whether it is blank, since that
is what a title is refused for. A repository is *discreet* if its operations run alike on tasks and
stores that are the same but for titles.

## Main results

* `Action.Alike.bind`: **chains of actions that run alike** run alike;
* `MemoryStore.discreet`: the store in memory is discreet;
* `MemoryStore.ofTasks_alike`: seeding looks at no titles.
-/

namespace Taskbook

variable {σ ε δ α β γ : Type}

/-! ### Results in relation -/

/-- Two results are **in relation** if both are answers in relation, or both are one failure. -/
def Except.InRelation (A : α → β → Prop) : Except ε α → Except ε β → Prop
  | .ok a, .ok b => A a b
  | .error e, .error d => e = d
  | _, _ => False

namespace Except.InRelation

variable {A : α → β → Prop}

/-- A result is in relation to itself, if answers are. -/
theorem refl {A : α → α → Prop} (h : ∀ a, A a a) (x : Except ε α) : InRelation A x x := by
  cases x with
  | ok a => exact h a
  | error e => exact rfl

/-- A weaker relation between answers will do. -/
theorem imp {B : α → β → Prop} {x : Except ε α} {y : Except ε β} (h : InRelation A x y)
    (hAB : ∀ a b, A a b → B a b) : InRelation B x y := by
  cases x <;> cases y
  · exact h
  · exact h.elim
  · exact h.elim
  · exact hAB _ _ h

/-- What follows on answers in relation decides. -/
theorem bind {α' β' : Type} {B : α' → β' → Prop} {x : Except ε α} {y : Except ε β}
    {f : α → Except ε α'} {g : β → Except ε β'} (h : InRelation A x y)
    (hf : ∀ a b, A a b → InRelation B (f a) (g b)) : InRelation B (x >>= f) (y >>= g) := by
  cases x <;> cases y
  · exact h
  · exact h.elim
  · exact h.elim
  · exact hf _ _ h

/-- Another error type changes nothing. -/
theorem mapError {x : Except ε α} {y : Except ε β} (h : InRelation A x y) (f : ε → δ) :
    InRelation A (x.mapError f) (y.mapError f) := by
  cases x <;> cases y
  · exact congrArg f h
  · exact h.elim
  · exact h.elim
  · exact h

/-- Lists in relation are read into lists in relation, or both stop at the same failure. -/
theorem mapM {α' β' : Type} {B : α' → β' → Prop} {f : α → Except ε α'} {g : β → Except ε β'}
    {xs : List α} {ys : List β} (h : List.Forall₂ A xs ys)
    (hf : ∀ a b, A a b → InRelation B (f a) (g b)) :
    InRelation (List.Forall₂ B) (xs.mapM f) (ys.mapM g) := by
  induction h with
  | nil => exact .nil
  | cons hab _ ih =>
      rw [List.mapM_cons, List.mapM_cons]
      refine (hf _ _ hab).bind fun a b hab => ih.bind fun as bs habs => ?_
      exact .cons hab habs

/-- A fold that keeps two states in relation ends in relation, or both stop at the same failure. -/
theorem foldlM {S : γ → γ → Prop} {f : γ → α → Except ε γ} {g : γ → β → Except ε γ}
    {xs : List α} {ys : List β} (h : List.Forall₂ A xs ys)
    (hf : ∀ s s' a b, S s s' → A a b → InRelation S (f s a) (g s' b)) {s s' : γ} (hs : S s s') :
    InRelation S (xs.foldlM f s) (ys.foldlM g s') := by
  induction h generalizing s s' with
  | nil => exact hs
  | cons hab _ ih =>
      rw [List.foldlM_cons, List.foldlM_cons]
      exact (hf _ _ _ _ hs hab).bind fun _ _ hs => ih hs

end Except.InRelation

/-! ### Actions in relation -/

namespace Action

variable {R : σ → σ → Prop} {A : α → β → Prop}

/-- What two replies **have in common**: the events, stores in relation and results in relation. -/
structure Matches (R : σ → σ → Prop) (A : α → β → Prop) (x : Reply σ ε α) (y : Reply σ ε β) :
    Prop where
  events : x.events = y.events
  store : R x.store y.store
  result : Except.InRelation A x.result y.result

/-- Two actions run **alike** on stores in relation. -/
def Alike (R : σ → σ → Prop) (A : α → β → Prop) (x : Action σ ε α) (y : Action σ ε β) : Prop :=
  ∀ s s', R s s' → Matches R A (x s) (y s')

theorem Alike.pure {a : α} {b : β} (h : A a b) :
    Alike R A (pure a : Action σ ε α) (pure b : Action σ ε β) :=
  fun _ _ hs => ⟨rfl, hs, h⟩

theorem Alike.fail (e : ε) : Alike R A (fail e : Action σ ε α) (fail e : Action σ ε β) :=
  fun _ _ hs => ⟨rfl, hs, rfl⟩

theorem Alike.breakOff : Alike R A (breakOff : Action σ ε α) (breakOff : Action σ ε β) :=
  fun _ _ hs => ⟨rfl, hs, rfl⟩

theorem Alike.record (e : Event) :
    Alike R Eq (record e : Action σ ε Unit) (record e : Action σ ε Unit) :=
  fun _ _ hs => ⟨rfl, hs, rfl⟩

theorem Alike.store : Alike R R (store : Action σ ε σ) (store : Action σ ε σ) :=
  fun _ _ hs => ⟨rfl, hs, hs⟩

theorem Alike.setStore {s s' : σ} (h : R s s') :
    Alike R Eq (setStore s : Action σ ε Unit) (setStore s' : Action σ ε Unit) :=
  fun _ _ _ => ⟨rfl, h, rfl⟩

theorem Alike.ofExcept {x : Except ε α} {y : Except ε β} (h : Except.InRelation A x y) :
    Alike R A (ofExcept x : Action σ ε α) (ofExcept y : Action σ ε β) := by
  intro s s' hs
  cases x <;> cases y
  · exact ⟨rfl, hs, congrArg _ h⟩
  · exact h.elim
  · exact h.elim
  · exact ⟨rfl, hs, h⟩

/-- **Chains of actions that run alike** run alike. -/
theorem Alike.bind {α' β' : Type} {B : α' → β' → Prop} {x : Action σ ε α} {y : Action σ ε β}
    {f : α → Action σ ε α'} {g : β → Action σ ε β'} (h : Alike R A x y)
    (hf : ∀ a b, A a b → Alike R B (f a) (g b)) : Alike R B (x >>= f) (y >>= g) := by
  intro s s' hs
  have hxy := h s s' hs
  rcases hx : x s with ⟨result, t, events⟩
  rcases hy : y s' with ⟨result', t', events'⟩
  rw [hx, hy] at hxy
  obtain ⟨rfl, ht, hresult⟩ := hxy
  cases result <;> cases result'
  · rw [bind_of_error hx, bind_of_error hy]
    exact ⟨rfl, ht, hresult⟩
  · exact hresult.elim
  · exact hresult.elim
  · rw [bind_of_ok hx, bind_of_ok hy]
    obtain ⟨hevents, hstore, hresult⟩ := hf _ _ hresult t t' ht
    exact ⟨congrArg _ hevents, hstore, hresult⟩

/-- Another error type changes nothing. -/
theorem Alike.mapError {x : Action σ ε α} {y : Action σ ε β} (h : Alike R A x y) (f : ε → δ) :
    Alike R A (x.mapError f) (y.mapError f) := by
  intro s s' hs
  obtain ⟨hevents, hstore, hresult⟩ := h s s' hs
  exact ⟨hevents, hstore, hresult.mapError _⟩

end Action

open Taskbook.Action

/-! ### Tasks but for their titles -/

/-- Two tasks are **the same but for the title**, which is blank in both or in neither. -/
structure Task.SameButTitle (t u : Task) : Prop where
  others : u = { t with title := u.title }
  blank : Text.isBlankText t.title = Text.isBlankText u.title

namespace Task.SameButTitle

variable {t u : Task}

/-- The other fields are the same. -/
theorem get_eq (h : t.SameButTitle u) {f : Field} (hf : f ≠ .title) : t.get f = u.get f := by
  rw [h.others]
  cases f <;> first | rfl | exact absurd rfl hf

theorem id_eq (h : t.SameButTitle u) : t.id = u.id := by rw [h.others]

theorem priority_eq (h : t.SameButTitle u) : t.priority = u.priority := by rw [h.others]

/-- A change of other fields keeps tasks the same but for the title. -/
theorem map (h : t.SameButTitle u) {f : Task → Task} (htitle : ∀ t, (f t).title = t.title)
    (hf : ∀ t title, f { t with title := title } = { f t with title := title }) :
    (f t).SameButTitle (f u) where
  others := by rw [h.others, hf]
  blank := by rw [htitle, htitle, h.blank]

/-- Under one id they stay the same but for the title. -/
theorem withId (h : t.SameButTitle u) (id : Option Int64) :
    SameButTitle { t with id := id } { u with id := id } :=
  h.map (f := fun t => { t with id := id }) (fun _ => rfl) fun _ _ => rfl

/-- Both are accepted or both are refused for the title. -/
theorem validate_alike (h : t.SameButTitle u) {R : σ → σ → Prop} (f : TitleFault → ε) :
    Alike R Eq (ofExcept (t.validate.mapError f) : Action σ ε Unit)
      (ofExcept (u.validate.mapError f)) := by
  have hvalidate : t.validate = u.validate := by rw [Task.validate, Task.validate, h.blank]
  rw [hvalidate]
  exact .ofExcept (.refl (fun _ => rfl) _)

/-- A predicate that avoids the title holds of both or of neither. -/
theorem holds_eq (h : t.SameButTitle u) {p : Predicate} (avoids : p.AvoidsTitle) :
    p.holds t = p.holds u :=
  avoids.holds_congr fun _ hf => h.get_eq hf

/-- Lists of such tasks have the same ids. -/
theorem map_id_eq {ts us : List Task} (h : List.Forall₂ SameButTitle ts us) :
    ts.map Task.id = us.map Task.id := by
  induction h with
  | nil => rfl
  | cons htu _ ih => rw [List.map_cons, List.map_cons, htu.id_eq, ih]

end Task.SameButTitle

/-- A repository is **discreet** if its operations run alike on tasks and stores that are the same
but for titles. Queries of one shape write the same events, whatever they answer, and one query that
does not ask for titles answers alike. -/
structure Repository.Discreet (repo : Repository σ) (R : σ → σ → Prop) : Prop where
  insert : ∀ {t u}, t.SameButTitle u →
    Alike R Task.SameButTitle (repo.insert t) (repo.insert u)
  update : ∀ {t u}, t.SameButTitle u → Alike R Eq (repo.update t) (repo.update u)
  query : ∀ {p}, p.AvoidsTitle →
    Alike R (List.Forall₂ Task.SameButTitle) (repo.query p) (repo.query p)
  asked : ∀ {p q s s'}, p.SameShape q → R s s' →
    (repo.query p s).events = (repo.query q s').events ∧
      R (repo.query p s).store (repo.query q s').store

/-! ### The store in memory -/

namespace MemoryStore

/-- Two stores in memory are the same but for titles. -/
structure SameButTitles (s s' : MemoryStore) : Prop where
  tasks : List.Forall₂ Task.SameButTitle s.tasks s'.tasks
  nextId : s.nextId = s'.nextId

namespace SameButTitles

variable {s s' : MemoryStore} {t u : Task}

/-- A task is found in both or in neither. -/
theorem isSome_find?_eq (h : s.SameButTitles s') (id : Int64) :
    (s.find? id).isSome = (s'.find? id).isSome := by
  rw [Bool.eq_iff_iff, isSome_find?_iff, isSome_find?_iff, Task.SameButTitle.map_id_eq h.tasks]

/-- A task more keeps stores the same but for titles. -/
theorem append (h : s.SameButTitles s') (htu : t.SameButTitle u) (next : Int64) :
    SameButTitles ⟨s.tasks ++ [t], next⟩ ⟨s'.tasks ++ [u], next⟩ where
  tasks := List.rel_append h.tasks (.cons htu .nil)
  nextId := rfl

end SameButTitles

/-- Putting a task in the place of another one keeps lists the same but for titles. -/
theorem replace_alike {ts us : List Task} (h : List.Forall₂ Task.SameButTitle ts us) {t u : Task}
    (htu : t.SameButTitle u) (id : Int64) :
    List.Forall₂ Task.SameButTitle (replace id t ts) (replace id u us) := by
  induction h with
  | nil => exact .nil
  | cons hvw hrest ih =>
      rw [replace, replace, hvw.id_eq]
      split
      · exact .cons htu hrest
      · exact .cons hvw ih

/-- **The store in memory is discreet.** -/
theorem discreet : repository.Discreet SameButTitles where
  insert := by
    intro t u h
    refine (h.validate_alike _).bind fun _ _ _ => ?_
    rw [h.id_eq]
    cases u.id with
    | some id => exact .fail _
    | none =>
        refine Alike.store.bind fun s s' hs => ?_
        rw [hs.nextId]
        cases Number.next? s'.nextId with
        | none => exact .breakOff
        | some next =>
            have hstored := h.withId (some s'.nextId)
            exact (Alike.setStore (hs.append hstored next)).bind fun _ _ _ => .pure hstored
  update := by
    intro t u h
    refine (h.validate_alike _).bind fun _ _ _ => ?_
    rw [h.id_eq]
    cases u.id with
    | none => exact .fail _
    | some id =>
        refine Alike.store.bind fun s s' hs => ?_
        rw [hs.isSome_find?_eq]
        by_cases hfind : (s'.find? id).isSome = true
        · simp only [hfind, if_true]
          exact .setStore ⟨replace_alike hs.tasks h id, hs.nextId⟩
        · simp only [hfind]
          exact .fail _
  query avoids := Alike.store.bind fun _ _ hs =>
    .pure (List.rel_filter (fun _ _ h => iff_of_eq (congrArg (· = true) (h.holds_eq avoids)))
      hs.tasks)
  asked _ hs := ⟨rfl, hs⟩

/-- **Seeding looks at no titles**: lists that are the same but for titles seed stores that are the
same but for titles, or both fail alike. -/
theorem ofTasks_alike {ts us : List Task} (h : List.Forall₂ Task.SameButTitle ts us) :
    Except.InRelation SameButTitles (ofTasks ts) (ofTasks us) := by
  refine Except.InRelation.foldlM h (fun s s' t u hs htu => ?_) ⟨.nil, rfl⟩
  rw [seedOne, seedOne, htu.id_eq]
  cases u.id with
  | none => exact rfl
  | some id =>
      dsimp only
      rw [hs.isSome_find?_eq, hs.nextId]
      split
      · exact rfl
      · split
        · cases Number.next? id with
          | none => exact rfl
          | some next => exact hs.append htu next
        · exact hs.append htu _

end MemoryStore

end Taskbook
