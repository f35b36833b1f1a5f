import Taskbook.Manager.Basic
import Taskbook.Query.Evaluation

/-!
# Sorting by Priority

A shown list goes by the rank of the priorities and keeps the order of the repository within one
priority. Together these two facts determine the list: it is the tasks of high priority, then
those of normal and then those of low priority, each group as it stood. From that form it is
plain that selecting tasks and sorting them may be done in either order.

Stability is what the first half of the proof is about. The tasks of one priority are a sorted
part of the given list, so they are a part of the sorted one as well, and as sorting loses
nothing they are all tasks of that priority there.

## Main results

* `sortByPriority_eq_flatMap`: **a sorted list is its three groups**;
* `filter_sortByPriority`: **selecting commutes with sorting**;
* `sortByPriority_exact`: what sorting is, with all that **follows from the three groups**.
-/

namespace Taskbook

/-- Sorting rearranges. -/
theorem sortByPriority_perm (ts : List Task) : (sortByPriority ts).Perm ts :=
  List.mergeSort_perm ts _

/-- The order of ranks is transitive. -/
theorem decide_rank_trans (a b c : Task) :
    decide (a.priority.rank ≤ b.priority.rank) = true →
      decide (b.priority.rank ≤ c.priority.rank) = true →
        decide (a.priority.rank ≤ c.priority.rank) = true := by
  simp only [decide_eq_true_eq]
  exact Nat.le_trans

/-- The order of ranks is total. -/
theorem decide_rank_total (a b : Task) :
    (decide (a.priority.rank ≤ b.priority.rank) ||
      decide (b.priority.rank ≤ a.priority.rank)) = true := by
  simp only [Bool.or_eq_true, decide_eq_true_eq]
  exact Nat.le_total _ _

/-- Ranks do not descend in a sorted list. -/
theorem pairwise_sortByPriority (ts : List Task) :
    (sortByPriority ts).Pairwise fun a b => a.priority.rank ≤ b.priority.rank :=
  (List.pairwise_mergeSort decide_rank_trans decide_rank_total ts).imp of_decide_eq_true

/-- **Stability.** The tasks of one priority stand in a sorted list as they stood before. -/
theorem filter_priority_sortByPriority (p : Priority) (ts : List Task) :
    (sortByPriority ts).filter (fun t => t.priority = p) = ts.filter fun t => t.priority = p := by
  have hgroup : (ts.filter fun t => t.priority = p).Pairwise
      fun a b => decide (a.priority.rank ≤ b.priority.rank) = true := by
    refine List.pairwise_of_forall_mem_list ?_
    intro a ha b hb
    have hpa : a.priority = p := of_decide_eq_true (List.mem_filter.mp ha).2
    have hpb : b.priority = p := of_decide_eq_true (List.mem_filter.mp hb).2
    rw [hpa, hpb]
    exact decide_eq_true (Nat.le_refl _)
  have hsub := List.sublist_mergeSort decide_rank_trans decide_rank_total hgroup
    List.filter_sublist
  have hsub' := hsub.filter fun t => t.priority = p
  rw [List.filter_filter] at hsub'
  simp only [Bool.and_self] at hsub'
  have hlength : (ts.filter fun t => t.priority = p).length =
      ((sortByPriority ts).filter fun t => t.priority = p).length :=
    ((sortByPriority_perm ts).filter _).length_eq.symm
  exact (hsub'.eq_of_length hlength).symm

/-- A list whose ranks do not descend is its three groups. The induction puts the first task in
front of its group; all groups before that one are empty. -/
theorem eq_flatMap_of_pairwise {ts : List Task}
    (h : ts.Pairwise fun a b => a.priority.rank ≤ b.priority.rank) :
    ts = Priority.all.flatMap fun p => ts.filter fun t => t.priority = p := by
  induction ts with
  | nil => rfl
  | cons t ts ih =>
      obtain ⟨hle, hrest⟩ := List.pairwise_cons.mp h
      have hbelow {p : Priority} (hp : p.rank < t.priority.rank) :
          ts.filter (fun u => u.priority = p) = [] := by
        rw [List.filter_eq_nil_iff]
        intro u hu hup
        have hrank := hle u hu
        rw [of_decide_eq_true hup] at hrank
        omega
      have hts := ih hrest
      simp only [Priority.all, List.flatMap_cons, List.flatMap_nil, List.append_nil] at hts ⊢
      cases hpt : t.priority with
      | high =>
          simp only [List.filter_cons, hpt]
          exact congrArg (t :: ·) hts
      | normal =>
          have hhigh := hbelow (p := .high) (by rw [hpt]; decide)
          rw [hhigh] at hts
          simp only [List.filter_cons, hpt, hhigh]
          exact congrArg (t :: ·) hts
      | low =>
          have hhigh := hbelow (p := .high) (by rw [hpt]; decide)
          have hnormal := hbelow (p := .normal) (by rw [hpt]; decide)
          rw [hhigh, hnormal] at hts
          simp only [List.filter_cons, hpt, hhigh, hnormal]
          exact congrArg (t :: ·) hts

/-- **A sorted list is its three groups**, each as it stood. -/
theorem sortByPriority_eq_flatMap (ts : List Task) :
    sortByPriority ts = Priority.all.flatMap fun p => ts.filter fun t => t.priority = p := by
  have hgroups := eq_flatMap_of_pairwise (pairwise_sortByPriority ts)
  simp only [filter_priority_sortByPriority] at hgroups
  exact hgroups

/-- **Selecting commutes with sorting.** -/
theorem filter_sortByPriority (select : Task → Bool) (ts : List Task) :
    (sortByPriority ts).filter select = sortByPriority (ts.filter select) := by
  rw [sortByPriority_eq_flatMap, sortByPriority_eq_flatMap, List.filter_flatMap]
  congr 1
  funext p
  rw [List.filter_filter, List.filter_filter]
  congr 1
  funext t
  exact Bool.and_comm _ _

/-- Sorting is determined by what it does to each priority: a list whose ranks do not descend and in
which the tasks of every priority stand as they stood **is the sorted one**. -/
theorem eq_sortByPriority {us ts : List Task}
    (sorted : us.Pairwise fun a b => a.priority.rank ≤ b.priority.rank)
    (stable : ∀ p : Priority,
      us.filter (fun t => t.priority = p) = ts.filter fun t => t.priority = p) :
    us = sortByPriority ts := by
  rw [eq_flatMap_of_pairwise sorted, sortByPriority_eq_flatMap]
  simp only [stable]

/-- **Sorting by priority** gives the tasks of high priority, then those of normal and then those of
low priority, each group as it stood, and so nothing is lost, added or changed. It is the only list
in which the ranks do not descend and every group stands as it stood. Sorting again changes nothing,
and the tasks of which a predicate holds may be selected before or after. -/
theorem sortByPriority_exact (ts : List Task) :
    sortByPriority ts = (ts.filter fun t => t.priority = .high) ++
      ((ts.filter fun t => t.priority = .normal) ++ ts.filter fun t => t.priority = .low) ∧
    (sortByPriority ts).Perm ts ∧
    (∀ us : List Task, (us.Pairwise fun a b => a.priority.rank ≤ b.priority.rank) →
      (∀ p : Priority, us.filter (fun t => t.priority = p) = ts.filter fun t => t.priority = p) →
      us = sortByPriority ts) ∧
    sortByPriority (sortByPriority ts) = sortByPriority ts ∧
    ∀ p : Predicate, sortByPriority (ts.filter p.holds) = (sortByPriority ts).filter p.holds := by
  refine ⟨?_, sortByPriority_perm ts, fun _ => eq_sortByPriority, ?_, fun p => ?_⟩
  · simp only [sortByPriority_eq_flatMap, Priority.all, List.flatMap_cons, List.flatMap_nil,
      List.append_nil]
  · exact (eq_sortByPriority (pairwise_sortByPriority ts) fun p => rfl).symm
  · exact (filter_sortByPriority p.holds ts).symm

/-- Five tasks of all priorities, one of them twice. -/
theorem sortByPriority_exact_twice :
    let t (id : Int64) (priority : Priority) : Task :=
      { id := some id, title := "a", createdOn := ⟨0⟩, priority := priority }
    let ts := [t 1 .low, t 2 .high, t 3 .normal, t 1 .low, t 4 .high]
    sortByPriority ts = [t 2 .high, t 4 .high, t 3 .normal, t 1 .low, t 1 .low] ∧
      sortByPriority (ts.filter (Predicate.hasId 1).holds) = [t 1 .low, t 1 .low] := by
  intro t ts
  obtain ⟨-, -, honly, -, hselect⟩ := sortByPriority_exact ts
  have hsorted : [t 2 .high, t 4 .high, t 3 .normal, t 1 .low, t 1 .low] = sortByPriority ts := by
    refine honly _ (by decide) fun p => ?_
    cases p <;> rfl
  refine ⟨hsorted.symm, ?_⟩
  rw [hselect, ← hsorted]
  rfl

end Taskbook
