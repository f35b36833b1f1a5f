import Taskbook.Proofs.Manager.Backends
import Taskbook.Proofs.Manager.Sorting

/-!
# What Is Relevant Now

The manager asks a repository for the tasks to show by a predicate, two levels of conditions
over columns that may be empty, and sorts the answer. This module says what comes out of it
without a predicate: a task is relevant if it is not done, not due later and not postponed, and
the relevant tasks are those of the whole list, in the order of the whole list.

## Instant convention

Due and postponed instants count as past only strictly before the clock. A task that is due at
the very instant of the clock, or postponed to it, is not relevant yet.

## Main results

* `Predicate.holds_relevantAt`: the predicate **means what relevance says**;
* `Manager.relevant_eq_filter_listAll`: **the relevant tasks are those of the whole list**, on both
  backends, and neither call changes the store.
-/

namespace Taskbook

variable {σ : Type}

/-- Whether a task is **relevant** at an instant: it is not done, it has no due date or one
before the instant, and it is not postponed or only to before the instant. -/
def Task.isRelevant (now : Instant) (t : Task) : Bool :=
  t.doneOn.isNone && t.dueDate.all (fun due => due.millis < now.millis) &&
    t.postponedUntil.all (fun until_ => until_.millis < now.millis)

/-! ### The predicate -/

namespace Predicate

/-- A test for a missing instant holds of the tasks that have none. -/
theorem holds_missing {t : Task} {f : Field} {x : Option Instant}
    (hf : t.get f = .ofInstant? x) : (missing f).holds t = x.isNone := by
  rw [missing, holds, Condition.holds, Task.value?, Field.find?_name, Option.map_some, hf]
  cases x <;> rfl

/-- A comparison of instants holds of the tasks that have an earlier one. -/
theorem holds_before {t : Task} {f : Field} {x : Option Instant} (now : Instant)
    (hf : t.get f = .ofInstant? x) :
    (before f now).holds t = x.any fun u => u.millis < now.millis := by
  rw [before, holds, Condition.holds, Task.value?, Field.find?_name, Option.map_some, hf]
  cases x with
  | none => rfl
  | some u =>
      show (some (compare u.millis.toInt now.millis.toInt) == some Ordering.lt) =
        decide (u.millis < now.millis)
      rw [Bool.eq_iff_iff]
      simp only [beq_iff_eq, Option.some.injEq, Std.compare_eq_lt, decide_eq_true_eq]
      exact Int64.lt_iff_toInt_lt.symm

/-- An instant that is missing or earlier is one that all comparisons allow. -/
theorem holds_before_or_missing {t : Task} {f : Field} {x : Option Instant} (now : Instant)
    (hf : t.get f = .ofInstant? x) :
    ((before f now).or (missing f)).holds t = x.all fun u => u.millis < now.millis := by
  rw [holds_or, holds_before now hf, holds_missing hf]
  cases x <;> simp

/-- The predicate **means what relevance says**. -/
theorem holds_relevantAt (now : Instant) (t : Task) :
    (relevantAt now).holds t = t.isRelevant now := by
  rw [relevantAt, holds_and, holds_and, holds_missing (x := t.doneOn) rfl,
    holds_before_or_missing (x := t.dueDate) now rfl,
    holds_before_or_missing (x := t.postponedUntil) now rfl]
  rfl

end Predicate

/-! ### The two lists -/

namespace Manager

/-- On a store that stands for a list of tasks the manager **lists relevance exactly**: both
lists are answered and leave the store alone, the whole list holds each task once, and the
relevant tasks are those of the whole list that are relevant, in its order. -/
def ListsExactly (repo : Repository σ) (s : σ) (ts : List Task) (now : Instant) : Prop :=
  ∃ all events events',
    listAll repo s = ⟨.ok all, s, events⟩ ∧
    relevant repo now s = ⟨.ok (all.filter fun t => t.isRelevant now), s, events'⟩ ∧
    all.Perm ts ∧ (∀ t ∈ all, ∃ id, t.id = some id) ∧ (all.map Task.id).Nodup

/-- A store that shows a keyed list has its relevance listed exactly. -/
theorem listsExactly_of_shows {repo : Repository σ} {s : σ} {ts : List Task}
    (shows : repo.Shows s ts) (keyed : Keyed ts) (now : Instant) :
    ListsExactly repo s ts now := by
  obtain ⟨events, hall⟩ := listAll_eq shows
  obtain ⟨events', hrelevant⟩ := relevant_eq shows now
  have hholds : (Predicate.relevantAt now).holds = fun t => t.isRelevant now :=
    funext (Predicate.holds_relevantAt now)
  rw [hholds, ← filter_sortByPriority] at hrelevant
  have hperm := sortByPriority_perm ts
  refine ⟨sortByPriority ts, events, events', hall, hrelevant, hperm, ?_, ?_⟩
  · intro t ht
    exact keyed.identified t (hperm.mem_iff.mp ht)
  · exact (hperm.map Task.id).nodup_iff.mpr keyed.distinct

/-- **The relevant tasks are those of the whole list**, at every instant: in memory for every
store that can be reached, and in tables for every content that can be read back. -/
theorem relevant_eq_filter_listAll [Engine] (now : Instant) :
    (∀ s : MemoryStore, s.Reachable → ListsExactly MemoryStore.repository s s.tasks now) ∧
      ∀ (s : Tables) (ts : List Task),
        s.tasks.rows.mapM (fun r => Task.ofCells r.cells) = .ok ts →
          ListsExactly Tables.repository s ts now := by
  constructor
  · intro s hreachable
    exact listsExactly_of_shows s.shows hreachable.sound.keyed now
  · intro s ts hread
    have hkeeps := Tables.keeps_iff.mpr hread
    exact listsExactly_of_shows hkeeps.shows hkeeps.keyed now

/-- A task that is due at the very instant, in memory and in a table. -/
theorem relevant_eq_filter_listAll_due_now :
    let _ : Engine := .scanning
    ListsExactly MemoryStore.repository
        ⟨[{ id := some 1, title := "a", createdOn := ⟨0⟩, dueDate := some ⟨5⟩ }], 10000⟩
        [{ id := some 1, title := "a", createdOn := ⟨0⟩, dueDate := some ⟨5⟩ }] ⟨5⟩ ∧
      ListsExactly Tables.repository
        ⟨⟨[⟨1, .text "a", .integer 0, .null, .integer 1, .null, .null, .integer 5⟩],
          List.pairwise_singleton _ _⟩, []⟩
        [{ id := some 1, title := "a", createdOn := ⟨0⟩, dueDate := some ⟨5⟩ }] ⟨5⟩ := by
  intro _
  constructor
  · refine (relevant_eq_filter_listAll ⟨5⟩).1 _ ?_
    exact .seeded (show MemoryStore.ofTasks
      [{ id := some 1, title := "a", createdOn := ⟨0⟩, dueDate := some ⟨5⟩ }] = _ from rfl)
  · exact (relevant_eq_filter_listAll ⟨5⟩).2 _ _ rfl

end Manager

end Taskbook
