import Mathlib.Data.List.Nodup
import Taskbook.Proofs.Query.Agreement
import Taskbook.Proofs.Results
import Taskbook.Proofs.Store.Slots
import Taskbook.Store.Memory

/-!
# Tasks Kept under Their Ids

A list of tasks is *keyed* when every task has an id and no two have the same one. A keyed list
is a finite map with an order: looking an id up, replacing the task under it and appending a
task with a new id all do what their names say. This module proves that of the store in memory
and sums up its three operations in one equation each.

## Counter convention

The counter of a store stands above every id in it, so the id that is given out next is new.
`MemoryStore.Sound` says so of a store whose tasks are keyed; every operation of the repository
preserves it, the refused ones because they change nothing.

## Main results

* `Keyed.find?_eq_some_iff`, `Keyed.replace_eq_map`, `Keyed.filter_hasId`: **look-up, replacement
  and selection** by id in a keyed list;
* `MemoryStore.insert_eq`, `update_eq`, `query_eq`: what the repository does, in one equation each;
* `MemoryStore.insert_cases`, `insert_new_cases`, `update_cases`: **what a write can do**;
* `MemoryStore.Sound.insert`, `Sound.update`: **the operations preserve soundness**.
-/

namespace Taskbook

/-! ### Lists of different ids -/

/-- The first task with an id is the only one, so replacing it is writing to the slot with the
id. -/
theorem MemoryStore.replace_eq_overwrite {ts : List Task} (distinct : (ts.map Task.id).Nodup)
    (id : Int64) (t : Task) : replace id t ts = overwrite Task.id id t ts := by
  induction ts with
  | nil => rfl
  | cons u us ih =>
      rw [List.map_cons, List.nodup_cons] at distinct
      obtain ⟨hnotin, hrest⟩ := distinct
      rw [replace, overwrite, List.map_cons]
      by_cases hid : u.id = some id
      · rw [if_pos hid, if_pos hid]
        have hother : ∀ v ∈ us, (if v.id = some id then t else v) = v := by
          intro v hv
          rw [if_neg]
          intro hvid
          exact hnotin (List.mem_map.mpr ⟨v, hv, hvid.trans hid.symm⟩)
        rw [List.map_congr_left hother, List.map_id']
      · rw [if_neg hid, if_neg hid, ih hrest, overwrite]

/-- A predicate on an id holds of the tasks that have it. -/
theorem Predicate.holds_hasId (id : Int64) (t : Task) :
    (hasId id).holds t = (t.id == some id) := by
  have hvalue : t.value? Field.id.name = some (.ofInteger? t.id) := by
    rw [Task.value?, Field.find?_name]
    rfl
  rw [hasId, holds, Condition.holds, hvalue]
  cases t.id with
  | none => rfl
  | some n =>
      show (some (compare n.toInt id.toInt) == some Ordering.eq) = (some n == some id)
      rw [Bool.eq_iff_iff]
      simp only [beq_iff_eq, Option.some.injEq, Std.compare_eq_iff_eq]
      exact Int64.toInt_inj

/-- Where the ids are different, a predicate on an id **selects the one task that has it**. -/
theorem filter_hasId_of_nodup {ts : List Task} (distinct : (ts.map Task.id).Nodup) {t : Task}
    {id : Int64} (ht : t ∈ ts) (hid : t.id = some id) :
    ts.filter (Predicate.hasId id).holds = [t] := by
  have hsame : ts.filter (Predicate.hasId id).holds = ts.filter fun u => u == t := by
    refine List.filter_congr fun u hu => ?_
    rw [Predicate.holds_hasId, Bool.eq_iff_iff, beq_iff_eq, beq_iff_eq]
    constructor
    · exact fun huid => List.inj_on_of_nodup_map distinct hu ht (huid.trans hid.symm)
    · rintro rfl
      exact hid
  rw [hsame, List.filter_beq, List.count_eq_one_of_mem distinct.of_map ht]
  rfl

/-- A predicate on an id that no task has selects nothing. -/
theorem filter_hasId_of_missing {ts : List Task} {id : Int64} (h : some id ∉ ts.map Task.id) :
    ts.filter (Predicate.hasId id).holds = [] := by
  rw [List.filter_eq_nil_iff]
  intro t ht hholds
  rw [Predicate.holds_hasId, beq_iff_eq] at hholds
  exact h (hholds ▸ List.mem_map_of_mem ht)

/-! ### Keyed lists -/

/-- Every task of the list has an id, and no two have the same. -/
structure Keyed (ts : List Task) : Prop where
  identified : ∀ t ∈ ts, ∃ id, t.id = some id
  distinct : (ts.map Task.id).Nodup

namespace Keyed

variable {ts : List Task}

/-- The empty list is keyed. -/
theorem nil : Keyed [] where
  identified := by simp
  distinct := by simp

/-- Two tasks of a keyed list that have the same id are one task. -/
theorem eq_of_id_eq (h : Keyed ts) {t u : Task} (ht : t ∈ ts) (hu : u ∈ ts)
    (hid : t.id = u.id) : t = u :=
  List.inj_on_of_nodup_map h.distinct ht hu hid

/-- **Look-up.** A task is found under an id if and only if it is there and has that id. -/
theorem find?_eq_some_iff (h : Keyed ts) {id : Int64} {t : Task} :
    (ts.find? fun u => u.id == some id) = some t ↔ t ∈ ts ∧ t.id = some id := by
  constructor
  · intro hfind
    have hid := List.find?_some hfind
    exact ⟨List.mem_of_find?_eq_some hfind, beq_iff_eq.mp hid⟩
  · rintro ⟨hmem, hid⟩
    cases hfind : ts.find? fun u => u.id == some id with
    | none =>
        rw [List.find?_eq_none] at hfind
        exact absurd (beq_iff_eq.mpr hid) (hfind t hmem)
    | some u =>
        have hu : u ∈ ts := List.mem_of_find?_eq_some hfind
        have huid := List.find?_some hfind
        rw [h.eq_of_id_eq hu hmem ((beq_iff_eq.mp huid).trans hid.symm)]

/-- **Replacement** puts the task in the place of the one with the id and leaves the others. -/
theorem replace_eq_map (h : Keyed ts) (id : Int64) (t : Task) :
    MemoryStore.replace id t ts = ts.map fun u => if u.id = some id then t else u :=
  MemoryStore.replace_eq_overwrite h.distinct id t

/-- Whether a list is keyed is a question of its ids. -/
theorem of_map_id (h : Keyed ts) {us : List Task} (hids : us.map Task.id = ts.map Task.id) :
    Keyed us where
  identified := by
    intro u hu
    have hmem : u.id ∈ ts.map Task.id := hids ▸ List.mem_map_of_mem hu
    obtain ⟨t, ht, htu⟩ := List.mem_map.mp hmem
    rw [← htu]
    exact h.identified t ht
  distinct := hids ▸ h.distinct

/-- A list stays keyed when a task with a new id is appended. -/
theorem append (h : Keyed ts) {t : Task} {id : Int64} (hid : t.id = some id)
    (fresh : ∀ u ∈ ts, u.id ≠ some id) : Keyed (ts ++ [t]) where
  identified := by
    intro u hu
    rcases List.mem_append.mp hu with hu | hu
    · exact h.identified u hu
    · rw [List.mem_singleton.mp hu]
      exact ⟨id, hid⟩
  distinct := by
    rw [List.map_append, List.map_singleton, List.nodup_append]
    refine ⟨h.distinct, List.nodup_singleton _, ?_⟩
    intro x hx y hy hxy
    obtain ⟨u, hu, rfl⟩ := List.mem_map.mp hx
    rw [List.mem_singleton.mp hy, hid] at hxy
    exact fresh u hu hxy

/-- In a keyed list a predicate on an id **selects the one task that has it**. -/
theorem filter_hasId (h : Keyed ts) {t : Task} {id : Int64} (ht : t ∈ ts) (hid : t.id = some id) :
    ts.filter (Predicate.hasId id).holds = [t] :=
  filter_hasId_of_nodup h.distinct ht hid

end Keyed

/-! ### The store in memory -/

namespace MemoryStore

/-- The tasks of a **sound** store are keyed, and its counter stands above their ids. -/
structure Sound (s : MemoryStore) : Prop where
  keyed : Keyed s.tasks
  below : ∀ t ∈ s.tasks, ∀ id, t.id = some id → id.toInt < s.nextId.toInt

/-- The store without tasks is sound. -/
theorem sound_empty : empty.Sound where
  keyed := .nil
  below := by simp [empty]

/-- The next id of a sound store is new. -/
theorem Sound.fresh {s : MemoryStore} (h : s.Sound) : ∀ t ∈ s.tasks, t.id ≠ some s.nextId := by
  intro t ht hid
  exact absurd (h.below t ht _ hid) (by omega)

/-- Whether a store is sound is a question of its ids and its counter. -/
theorem Sound.of_map_id {s s' : MemoryStore} (h : s.Sound)
    (hids : s'.tasks.map Task.id = s.tasks.map Task.id) (hnext : s'.nextId = s.nextId) :
    s'.Sound where
  keyed := h.keyed.of_map_id hids
  below := by
    intro u hu id hid
    have hmem : u.id ∈ s.tasks.map Task.id := hids ▸ List.mem_map_of_mem hu
    obtain ⟨t, ht, htu⟩ := List.mem_map.mp hmem
    rw [hnext]
    exact h.below t ht id (htu.trans hid)

/-- Writing a task to the place of one with its id leaves the ids as they are. -/
theorem map_id_replace {t : Task} {id : Int64} (hid : t.id = some id) {ts : List Task} :
    (replace id t ts).map Task.id = ts.map Task.id := by
  induction ts with
  | nil => rfl
  | cons u us ih =>
      rw [replace]
      by_cases hu : u.id = some id
      · rw [if_pos hu, List.map_cons, List.map_cons, hid, hu]
      · rw [if_neg hu, List.map_cons, List.map_cons, ih]

/-- A sound store stays sound when a task with a new id is appended and the counter moves past
it. -/
theorem Sound.append {s : MemoryStore} (h : s.Sound) {t : Task} {id next : Int64}
    (hid : t.id = some id) (fresh : ∀ u ∈ s.tasks, u.id ≠ some id)
    (hnext : id.toInt < next.toInt) (hle : s.nextId.toInt ≤ next.toInt) :
    (⟨s.tasks ++ [t], next⟩ : MemoryStore).Sound where
  keyed := h.keyed.append hid fresh
  below := by
    intro u hu n hn
    rcases List.mem_append.mp hu with hu | hu
    · exact Int.lt_of_lt_of_le (h.below u hu n hn) hle
    · rw [List.mem_singleton.mp hu, hid] at hn
      rw [← Option.some.inj hn]
      exact hnext

/-! ### The operations in one equation each -/

/-- Inserting a task that may be stored and has no id yet. -/
theorem insert_eq {t : Task} (hid : t.id = none) (htitle : Text.isBlankText t.title = false)
    (s : MemoryStore) :
    repository.insert t s =
      match Number.next? s.nextId with
      | none => ⟨.error .overflow, s, []⟩
      | some next =>
        let stored := { t with id := some s.nextId }
        ⟨.ok stored, ⟨s.tasks ++ [stored], next⟩, []⟩ := by
  have hvalid : t.validate = .ok () := (t.validate_eq_ok_iff).mpr htitle
  simp only [repository, hvalid, hid]
  cases hnext : Number.next? s.nextId <;>
    simp [Except.mapError, bind, Action.andThen, hnext]

/-- A task whose title is blank is not inserted. -/
theorem insert_eq_of_blank {t : Task} (h : Text.isBlankText t.title = true) (s : MemoryStore) :
    repository.insert t s = ⟨.error (.cause (.validation .empty)), s, []⟩ := by
  simp [repository, Task.validate, h, Except.mapError, bind, Action.andThen]

/-- A task that brings an id is not inserted. -/
theorem insert_eq_of_saved {t : Task} {id : Int64} (hid : t.id = some id)
    (htitle : Text.isBlankText t.title = false) (s : MemoryStore) :
    repository.insert t s = ⟨.error (.cause (.alreadyInserted id)), s, []⟩ := by
  simp [repository, Task.validate, htitle, hid, Except.mapError, bind, Action.andThen]

/-- A task whose title is blank is not written back. -/
theorem update_eq_of_blank {t : Task} (h : Text.isBlankText t.title = true) (s : MemoryStore) :
    repository.update t s = ⟨.error (.cause (.validation .empty)), s, []⟩ := by
  simp [repository, Task.validate, h, Except.mapError, bind, Action.andThen]

/-- Writing back a task that may be stored. -/
theorem update_eq {t : Task} {id : Int64} (hid : t.id = some id)
    (htitle : Text.isBlankText t.title = false) (s : MemoryStore) :
    repository.update t s =
      if (s.find? id).isSome then
        ⟨.ok (), { s with tasks := replace id t s.tasks }, []⟩
      else ⟨.error (.cause (.notFound id)), s, []⟩ := by
  by_cases hfind : (s.find? id).isSome = true
  · rw [if_pos hfind]
    simp [repository, Task.validate, htitle, hid, Except.mapError, bind, Action.andThen, hfind]
  · rw [if_neg hfind]
    simp [repository, Task.validate, htitle, hid, Except.mapError, bind, Action.andThen, hfind]

/-- A task without an id is not written back. -/
theorem update_eq_of_unsaved {t : Task} (hid : t.id = none)
    (htitle : Text.isBlankText t.title = false) (s : MemoryStore) :
    repository.update t s = ⟨.error (.cause .missingId), s, []⟩ := by
  simp [repository, Task.validate, htitle, hid, Except.mapError, bind, Action.andThen]

/-- A query answers the tasks of which the predicate holds and changes nothing. -/
theorem query_eq (p : Predicate) (s : MemoryStore) :
    repository.query p s = ⟨.ok (s.tasks.filter p.holds), s, []⟩ :=
  rfl

/-- **Inserting a new task** that may be stored breaks off where the counter stands on the last id,
and otherwise appends the task under the id of the counter and moves the counter on. -/
theorem insert_new_cases {t : Task} (hid : t.id = none) (htitle : Text.isBlankText t.title = false)
    (s : MemoryStore) :
    (s.nextId = Int64.maxValue ∧ repository.insert t s = ⟨.error .overflow, s, []⟩) ∨
      ∃ next, next.toInt = s.nextId.toInt + 1 ∧
        repository.insert t s =
          ⟨.ok { t with id := some s.nextId },
            ⟨s.tasks ++ [{ t with id := some s.nextId }], next⟩, []⟩ := by
  have hinsert := insert_eq hid htitle s
  cases hnext : Number.next? s.nextId with
  | none =>
      rw [hnext] at hinsert
      exact .inl ⟨Number.next?_eq_none_iff.mp hnext, hinsert⟩
  | some next =>
      rw [hnext] at hinsert
      exact .inr ⟨next, Number.next?_eq_some_iff.mp hnext, hinsert⟩

/-- **Inserting a task** fails and leaves the store alone, or the task is one that may be stored,
and it is appended under the id of the counter. -/
theorem insert_cases (s : MemoryStore) (t : Task) :
    (∃ e, repository.insert t s = ⟨.error e, s, []⟩) ∨
      ∃ next, Text.isBlankText t.title = false ∧ next.toInt = s.nextId.toInt + 1 ∧
        repository.insert t s =
          ⟨.ok { t with id := some s.nextId },
            ⟨s.tasks ++ [{ t with id := some s.nextId }], next⟩, []⟩ := by
  cases htitle : Text.isBlankText t.title with
  | true => exact .inl ⟨_, insert_eq_of_blank htitle s⟩
  | false =>
      cases hid : t.id with
      | some id => exact .inl ⟨_, insert_eq_of_saved hid htitle s⟩
      | none =>
          rcases insert_new_cases hid htitle s with ⟨-, hinsert⟩ | ⟨next, hnext, hinsert⟩
          · exact .inl ⟨_, hinsert⟩
          · exact .inr ⟨next, rfl, hnext, hinsert⟩

/-- **Writing a task back** is refused and leaves the store alone, or the task is one that may be
stored, and it takes the place of the one with its id. -/
theorem update_cases (s : MemoryStore) (t : Task) :
    (∃ e, repository.update t s = ⟨.error (.cause e), s, []⟩) ∨
      ∃ id, t.id = some id ∧ Text.isBlankText t.title = false ∧
        repository.update t s = ⟨.ok (), { s with tasks := replace id t s.tasks }, []⟩ := by
  cases htitle : Text.isBlankText t.title with
  | true => exact .inl ⟨_, update_eq_of_blank htitle s⟩
  | false =>
      cases hid : t.id with
      | none => exact .inl ⟨_, update_eq_of_unsaved hid htitle s⟩
      | some id =>
          have hupdate := update_eq hid htitle s
          by_cases hfind : (s.find? id).isSome = true
          · rw [if_pos hfind] at hupdate
            exact .inr ⟨id, rfl, rfl, hupdate⟩
          · rw [if_neg hfind] at hupdate
            exact .inl ⟨_, hupdate⟩

/-! ### The operations preserve soundness -/

/-- **Inserting** keeps the store sound, whatever it is given. -/
theorem Sound.insert {s : MemoryStore} (h : s.Sound) (t : Task) :
    (repository.insert t s).store.Sound := by
  rcases s.insert_cases t with ⟨e, hinsert⟩ | ⟨next, -, hnext, hinsert⟩ <;> rw [hinsert]
  · exact h
  · exact h.append rfl h.fresh (by omega) (by omega)

/-- **Writing back** keeps the store sound, whatever it is given. -/
theorem Sound.update {s : MemoryStore} (h : s.Sound) (t : Task) :
    (repository.update t s).store.Sound := by
  rcases s.update_cases t with ⟨e, hupdate⟩ | ⟨id, hid, -, hupdate⟩ <;> rw [hupdate]
  · exact h
  · exact h.of_map_id (map_id_replace hid) rfl

end MemoryStore

end Taskbook
