import Mathlib.Data.List.Induction
import Taskbook.Proofs.Store.Keyed

/-!
# Seeding a Store in Memory

A store in memory may begin with tasks that bring their own ids. They are taken one after the
other, and the first one that cannot be taken decides how seeding fails: it has no id, it has the
id of an earlier one, or its id is the last of all, after which the counter cannot be moved on.
What is wrong with a seed can be told from the seeds before it alone.

## Counter convention

The counter begins at the first generated id, and a seed at or above it moves it to the next id.
So it ends on the least number from the first generated id on that is above every seeded id,
whatever the order of the seeds.

## Main results

* `MemoryStore.exists_ofTasks_iff`: which lists a store **can be seeded with**;
* `MemoryStore.seededWith_of_ofTasks`: **what is in a seeded store**, and where its counter stands;
* `MemoryStore.ofTasks_eq_error_iff`: seeding fails **for the first seed with a fault**;
* `MemoryStore.ofTasks_eq_overflow_iff`: seeding breaks off **for the last id of all**;
* `MemoryStore.sound_of_ofTasks`: a seeded store is sound.
-/

namespace Taskbook

/-! ### Faults of seeds -/

/-- What is wrong with a seed that comes after other ones. -/
def Task.seedFault? (before : List Task) (t : Task) : Option (Failure RepoError) :=
  match t.id with
  | none => some (.cause .missingId)
  | some id =>
    if some id ∈ before.map Task.id then some (.cause (.alreadyInserted id))
    else if id = Int64.maxValue then some .overflow
    else none

/-- A seed has no fault if it brings an id that is new and not the last of all. -/
theorem Task.seedFault?_eq_none_iff {before : List Task} {t : Task} :
    t.seedFault? before = none ↔
      ∃ id, t.id = some id ∧ (∀ u ∈ before, u.id ≠ some id) ∧ id ≠ Int64.maxValue := by
  rw [seedFault?]
  cases t.id with
  | none => simp
  | some id =>
      have hnew : (∀ u ∈ before, u.id ≠ some id) ↔ some id ∉ before.map Task.id := by
        simp only [List.mem_map, not_exists, not_and, ne_eq]
      simp only [Option.some.injEq, exists_eq_left', hnew]
      by_cases htaken : some id ∈ before.map Task.id
      · simp [htaken]
      · by_cases hlast : id = Int64.maxValue
        · rw [if_neg htaken, if_pos hlast]
          simp [hlast]
        · simp [htaken, hlast]

/-- The fault of a seed whose id is not the last of all: it has none, or that of an earlier one. -/
theorem Task.seedFault?_eq_some_iff {before : List Task} {t : Task}
    (hlast : t.id ≠ some Int64.maxValue) {e : Failure RepoError} :
    t.seedFault? before = some e ↔
      (t.id = none ∧ e = .cause .missingId) ∨
        ∃ id, t.id = some id ∧ some id ∈ before.map Task.id ∧
          e = .cause (.alreadyInserted id) := by
  rw [seedFault?]
  cases hid : t.id with
  | none => simp [eq_comm]
  | some id =>
      have hne : id ≠ Int64.maxValue := fun h => hlast (h ▸ hid)
      simp only [reduceCtorEq, false_and, false_or, Option.some.injEq, exists_eq_left']
      by_cases htaken : some id ∈ before.map Task.id
      · rw [if_pos htaken, Option.some.injEq]
        exact ⟨fun h => ⟨htaken, h.symm⟩, fun h => h.2.symm⟩
      · rw [if_neg htaken, if_neg hne]
        exact iff_of_false (by simp) fun h => htaken h.1

/-- A list that a store in memory **can be seeded with**: every task has an id, no two have the
same, and none has the last id of all. -/
structure Seedable (ts : List Task) : Prop where
  keyed : Keyed ts
  inRange : ∀ t ∈ ts, t.id ≠ some Int64.maxValue

namespace Seedable

variable {ts : List Task} {t : Task}

/-- A store can be seeded with nothing. -/
theorem nil : Seedable [] where
  keyed := .nil
  inRange := by simp

/-- One more seed is taken if and only if it has no fault. -/
theorem append_singleton_iff :
    Seedable (ts ++ [t]) ↔ Seedable ts ∧ t.seedFault? ts = none := by
  rw [Task.seedFault?_eq_none_iff]
  constructor
  · rintro ⟨⟨hidentified, hdistinct⟩, hrange⟩
    simp only [List.mem_append, List.mem_singleton, or_imp, forall_and, forall_eq] at hidentified hrange
    rw [List.map_append, List.map_singleton, List.nodup_append] at hdistinct
    obtain ⟨hnodup, -, hdisjoint⟩ := hdistinct
    obtain ⟨id, hid⟩ := hidentified.2
    refine ⟨⟨⟨hidentified.1, hnodup⟩, hrange.1⟩, id, hid, ?_, ?_⟩
    · intro u hu huid
      exact hdisjoint _ (List.mem_map_of_mem hu) _ (List.mem_singleton_self _) (huid.trans hid.symm)
    · rintro rfl
      exact hrange.2 hid
  · rintro ⟨h, id, hid, fresh, hlast⟩
    refine ⟨h.keyed.append hid fresh, ?_⟩
    intro u hu
    rcases List.mem_append.mp hu with hu | hu
    · exact h.inRange u hu
    · rw [List.mem_singleton.mp hu, hid]
      exact fun heq => hlast (Option.some.inj heq)

/-- After seeds that a store can be seeded with, only the last id of all moves the counter too
far. -/
theorem seedFault?_eq_overflow_iff (h : Seedable ts) :
    t.seedFault? ts = some .overflow ↔ t.id = some Int64.maxValue := by
  rw [Task.seedFault?]
  constructor
  · intro hfault
    cases hid : t.id with
    | none => simp [hid] at hfault
    | some id =>
        by_contra hother
        have hne : id ≠ Int64.maxValue := fun heq => hother (congrArg some heq)
        simp only [hid, if_neg hne] at hfault
        split at hfault <;> cases hfault
  · intro hid
    have hnew : t.id ∉ ts.map Task.id := by
      intro hmem
      obtain ⟨u, hu, huid⟩ := List.mem_map.mp hmem
      exact h.inRange u hu (huid.trans hid)
    rw [hid] at hnew ⊢
    exact (if_neg hnew).trans (if_pos rfl)

end Seedable

/-! ### Seeding -/

namespace MemoryStore

/-- An id is found if and only if a task has it. -/
theorem isSome_find?_iff {s : MemoryStore} {id : Int64} :
    (s.find? id).isSome = true ↔ some id ∈ s.tasks.map Task.id := by
  rw [find?, List.find?_isSome, List.mem_map]
  simp only [beq_iff_eq]

/-- **What comes of one seed**: it has a fault and is refused for it, or it is appended and the
counter is moved past it. -/
theorem seedOne_cases (s : MemoryStore) (t : Task) :
    (∃ e, t.seedFault? s.tasks = some e ∧ s.seedOne t = .error e) ∨
      ∃ id next, t.seedFault? s.tasks = none ∧ t.id = some id ∧
        s.seedOne t = .ok ⟨s.tasks ++ [t], next⟩ ∧
        next.toInt = max s.nextId.toInt (id.toInt + 1) := by
  rw [seedOne, Task.seedFault?]
  cases hid : t.id with
  | none => exact .inl ⟨_, rfl, rfl⟩
  | some id =>
      dsimp only
      simp only [isSome_find?_iff]
      by_cases htaken : some id ∈ s.tasks.map Task.id
      · rw [if_pos htaken, if_pos htaken]
        exact .inl ⟨_, rfl, rfl⟩
      · rw [if_neg htaken, if_neg htaken]
        by_cases hlast : id = Int64.maxValue
        · have hle : s.nextId.toInt ≤ id.toInt := hlast ▸ s.nextId.toInt_le
          rw [if_pos hlast, if_pos hle, Number.next?_eq_none_iff.mpr hlast]
          exact .inl ⟨_, rfl, rfl⟩
        · rw [if_neg hlast]
          by_cases hle : s.nextId.toInt ≤ id.toInt
          · obtain ⟨next, hnext⟩ :=
              Option.ne_none_iff_exists'.mp fun h => hlast (Number.next?_eq_none_iff.mp h)
            have hsucc := Number.next?_eq_some_iff.mp hnext
            rw [if_pos hle, hnext]
            exact .inr ⟨id, next, rfl, rfl, rfl, by omega⟩
          · rw [if_neg hle]
            exact .inr ⟨id, s.nextId, rfl, rfl, rfl, by omega⟩

/-- Seeding with one more task is taking it last. -/
theorem ofTasks_append_singleton (ts : List Task) (t : Task) :
    ofTasks (ts ++ [t]) = (ofTasks ts >>= fun s => s.seedOne t) := by
  rw [ofTasks, ofTasks, List.foldlM_append]
  refine congrArg _ (funext fun s => ?_)
  exact bind_pure (s.seedOne t)

/-- A store that is **seeded with** a list: it holds the list, and its counter is the least number
from the first generated id on that is above all seeded ids. -/
structure SeededWith (s : MemoryStore) (ts : List Task) : Prop where
  seedable : Seedable ts
  tasks_eq : s.tasks = ts
  nextId_le_iff : ∀ z : Int, s.nextId.toInt ≤ z ↔
    firstGeneratedId.toInt ≤ z ∧ ∀ t ∈ ts, ∀ id, t.id = some id → id.toInt < z

/-- **What is in a seeded store.** -/
theorem seededWith_of_ofTasks {ts : List Task} {s : MemoryStore} (h : ofTasks ts = .ok s) :
    s.SeededWith ts := by
  induction ts using List.reverseRecOn generalizing s with
  | nil =>
      obtain rfl := Except.ok.inj h
      exact ⟨.nil, rfl, by simp [empty]⟩
  | append_singleton ts t ih =>
      rw [ofTasks_append_singleton] at h
      obtain ⟨u, hu, hone⟩ := Except.bind_eq_ok_iff.mp h
      obtain ⟨hseedable, rfl, hcounter⟩ := ih hu
      rcases u.seedOne_cases t with ⟨e, -, herror⟩ | ⟨id, next, hfault, hid, hok, hnext⟩
      · rw [herror] at hone
        cases hone
      · rw [hok] at hone
        obtain rfl := Except.ok.inj hone
        refine ⟨Seedable.append_singleton_iff.mpr ⟨hseedable, hfault⟩, rfl, ?_⟩
        intro z
        have hz := hcounter z
        simp only [List.mem_append, List.mem_singleton, or_imp, forall_and, forall_eq, hid,
          Option.some.injEq, forall_eq']
        rw [← and_assoc, ← hz]
        omega

/-- A store **can be seeded with** a list if and only if its tasks bring different ids, none of
them the last of all. -/
theorem exists_ofTasks_iff {ts : List Task} : (∃ s, ofTasks ts = .ok s) ↔ Seedable ts := by
  constructor
  · rintro ⟨s, hs⟩
    exact (seededWith_of_ofTasks hs).seedable
  · intro h
    induction ts using List.reverseRecOn with
    | nil => exact ⟨empty, rfl⟩
    | append_singleton ts t ih =>
        obtain ⟨hbefore, hfault⟩ := Seedable.append_singleton_iff.mp h
        obtain ⟨s, hs⟩ := ih hbefore
        have htasks := (seededWith_of_ofTasks hs).tasks_eq
        rw [ofTasks_append_singleton, hs]
        rcases s.seedOne_cases t with ⟨e, he, -⟩ | ⟨id, next, -, -, hok, -⟩
        · rw [htasks, hfault] at he
          cases he
        · exact ⟨_, hok⟩

/-- Seeding fails **for the first seed with a fault**. -/
theorem ofTasks_eq_error_iff {ts : List Task} {e : Failure RepoError} :
    ofTasks ts = .error e ↔
      ∃ before t after, ts = before ++ t :: after ∧ Seedable before ∧
        t.seedFault? before = some e := by
  rw [ofTasks, foldlM_eq_error_iff]
  constructor
  · rintro ⟨before, t, after, s, hsplit, hs, hone⟩
    obtain ⟨hseedable, htasks, -⟩ := seededWith_of_ofTasks hs
    refine ⟨before, t, after, hsplit, hseedable, ?_⟩
    rcases s.seedOne_cases t with ⟨d, hfault, herror⟩ | ⟨id, next, -, -, hok, -⟩
    · rw [← htasks, hfault, ← Except.error.inj (herror.symm.trans hone)]
    · rw [hok] at hone
      cases hone
  · rintro ⟨before, t, after, hsplit, hseedable, hfault⟩
    obtain ⟨s, hs⟩ := exists_ofTasks_iff.mpr hseedable
    have htasks := (seededWith_of_ofTasks hs).tasks_eq
    refine ⟨before, t, after, s, hsplit, hs, ?_⟩
    rcases s.seedOne_cases t with ⟨d, hd, herror⟩ | ⟨id, next, hnone, -⟩
    · rw [htasks, hfault] at hd
      rw [herror, Option.some.inj hd]
    · rw [htasks, hfault] at hnone
      cases hnone

/-- Seeding **breaks off** for the last id of all, after tasks that a store can be seeded with. -/
theorem ofTasks_eq_overflow_iff {ts : List Task} :
    ofTasks ts = .error .overflow ↔
      ∃ before t after, ts = before ++ t :: after ∧ Seedable before ∧
        t.id = some Int64.maxValue := by
  rw [ofTasks_eq_error_iff]
  constructor
  · rintro ⟨before, t, after, hsplit, hbefore, hfault⟩
    exact ⟨before, t, after, hsplit, hbefore, hbefore.seedFault?_eq_overflow_iff.mp hfault⟩
  · rintro ⟨before, t, after, hsplit, hbefore, hlast⟩
    exact ⟨before, t, after, hsplit, hbefore, hbefore.seedFault?_eq_overflow_iff.mpr hlast⟩

section InRange

variable {ts : List Task} (hrange : ∀ t ∈ ts, t.id ≠ some Int64.maxValue)

include hrange

/-- Without the last id of all, a store cannot be seeded with a list if and only if it is not
keyed. -/
theorem exists_ofTasks_eq_error_iff : (∃ e, ofTasks ts = .error e) ↔ ¬Keyed ts := by
  have hseedable : Seedable ts ↔ Keyed ts := ⟨Seedable.keyed, fun h => ⟨h, hrange⟩⟩
  rw [← hseedable, ← exists_ofTasks_iff]
  cases ofTasks ts <;> simp

/-- Without the last id of all, seeding fails for the first seed that has no id or that of an earlier
one. -/
theorem ofTasks_eq_error_iff_of_inRange {e : Failure RepoError} :
    ofTasks ts = .error e ↔
      ∃ before t after, ts = before ++ t :: after ∧ Keyed before ∧
        ((t.id = none ∧ e = .cause .missingId) ∨
          ∃ id, t.id = some id ∧ some id ∈ before.map Task.id ∧
            e = .cause (.alreadyInserted id)) := by
  rw [ofTasks_eq_error_iff]
  constructor
  · rintro ⟨before, t, after, rfl, hbefore, hfault⟩
    have hlast := hrange t (List.mem_append_right _ List.mem_cons_self)
    exact ⟨before, t, after, rfl, hbefore.keyed, (Task.seedFault?_eq_some_iff hlast).mp hfault⟩
  · rintro ⟨before, t, after, rfl, hbefore, hfault⟩
    have hlast := hrange t (List.mem_append_right _ List.mem_cons_self)
    have hearlier : Seedable before :=
      ⟨hbefore, fun u hu => hrange u (List.mem_append_left _ hu)⟩
    exact ⟨before, t, after, rfl, hearlier, (Task.seedFault?_eq_some_iff hlast).mpr hfault⟩

end InRange

/-- **A seeded store is sound.** -/
theorem sound_of_ofTasks {ts : List Task} {s : MemoryStore} (h : ofTasks ts = .ok s) : s.Sound := by
  obtain ⟨hseedable, rfl, hcounter⟩ := seededWith_of_ofTasks h
  exact ⟨hseedable.keyed, ((hcounter _).mp (Int.le_refl _)).2⟩

end MemoryStore

end Taskbook
