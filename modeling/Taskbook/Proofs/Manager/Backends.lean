import Taskbook.Proofs.Manager.Ledger
import Taskbook.Proofs.Table.Keeping

/-!
# The Two Ledgers

Both repositories have a ledger, so the manager has the same effects on both. A sound store in
memory stands for itself. Tables stand for the tasks that their rows are read as and for the
fresh id, provided that every row is read and refers to no recurring task that is missing.

## Room convention

A store in memory always has room in the sense of a ledger, because after the last id it breaks
off and says so. Tables have room where the fresh id is below the last id of all.

## Main results

* `MemoryStore.ledger`, `Tables.ledger`: the ledgers of the two repositories.
-/

namespace Taskbook

namespace MemoryStore

/-- A store in memory shows its tasks. -/
theorem shows (s : MemoryStore) : repository.Shows s s.tasks :=
  fun p _ => ⟨[], query_eq p s⟩

/-- The **ledger of the store in memory**: a sound store stands for itself. -/
def ledger : Ledger repository where
  Keeps s m := s = m ∧ s.Sound
  HasRoom _ := True
  keyed := by
    rintro s m ⟨rfl, hsound⟩
    exact hsound.keyed
  shows := by
    rintro s m ⟨rfl, -⟩
    exact s.shows
  insert := by
    rintro s m next t ⟨rfl, hsound⟩ - hid - htitle hnext
    have hinsert := insert_eq hid htitle s
    rw [hnext] at hinsert
    refine ⟨_, [], hinsert, rfl, ?_⟩
    have hsucc := Number.next?_eq_some_iff.mp hnext
    exact hsound.append rfl hsound.fresh (by omega) (by omega)
  overflow := by
    rintro s m t ⟨rfl, -⟩ - hid - htitle hnext
    have hinsert := insert_eq hid htitle s
    rw [hnext] at hinsert
    exact ⟨[], hinsert⟩
  update := by
    rintro s m t u id ⟨rfl, hsound⟩ hu huid hid - - htitle
    have hfind : (s.find? id).isSome = true := by
      rw [find?, hsound.keyed.find?_eq_some_iff.mpr ⟨hu, huid⟩]
      rfl
    have hupdate := update_eq hid htitle s
    rw [if_pos hfind, hsound.keyed.replace_eq_map] at hupdate
    have hstore := hsound.update t
    rw [hupdate] at hstore
    exact ⟨_, [], hupdate, rfl, hstore⟩
  blank := by
    intro s t hblank
    exact ⟨[], update_eq_of_blank hblank s⟩

end MemoryStore

namespace Tables

/-- Tables show the tasks that they keep. -/
theorem Keeps.shows [Engine] {s : Tables} {ts : List Task}
    (h : s.Keeps ts) : repository.Shows s ts :=
  fun _ plain => h.query_eq plain.fault? (fun _ _ => plain.findsExactly _) fun t _ =>
    plain.agrees t

/-- A blank title is noticed before the tables are. -/
theorem update_eq_of_blank [Engine] {t : Task} (h : Text.isBlankText t.title = true) (s : Tables) :
    repository.update t s = ⟨.error (.cause (.validation .empty)), s, []⟩ := by
  simp [repository, Task.validate, h, Except.mapError, bind, Action.andThen]

/-- The **ledger of the tables**: they stand for the tasks that their rows are read as. -/
def ledger [Engine] : Ledger repository where
  Keeps s m := s.Keeps m.tasks ∧ s.Closed ∧ s.nextId = m.nextId
  HasRoom := HasRoom
  keyed := by
    rintro s m ⟨hkeeps, -, -⟩
    exact hkeeps.keyed
  shows := by
    rintro s m ⟨hkeeps, -, -⟩
    exact hkeeps.shows
  insert := by
    rintro s m next t ⟨hkeeps, hclosed, hid'⟩ room hid hfrom htitle hnext
    obtain ⟨s', hinsert, hkeeps', hrecurring, hrows⟩ := hkeeps.insert_eq room hid hfrom htitle
    rw [hid'] at hinsert hkeeps'
    refine ⟨s', [], hinsert, hkeeps', ?_, ?_⟩
    · intro r hr
      rw [hrows, List.mem_append, List.mem_singleton] at hr
      rcases hr with hr | rfl
      · rw [refers_congr hrecurring rfl]
        exact hclosed r hr
      · have hnull : (Row.ofCells s.nextId t.cells).cells .createdFrom = .null := by
          rw [Row.cells_ofCells _ _ _ (by decide), Task.cells, Task.get, hfrom]
          rfl
        rw [refers, hnull]
    · exact Keeps.nextId_of_append room rfl hrows (hid'.symm ▸ hnext)
  overflow := by
    rintro s m t ⟨-, -, hid'⟩ room - - - hnext
    obtain ⟨-, hlt⟩ := room.nextId_spec
    obtain ⟨next, hsome, -⟩ := Number.exists_next? hlt
    rw [hid', hnext] at hsome
    cases hsome
  update := by
    rintro s m t u id ⟨hkeeps, hclosed, hid'⟩ hu huid hid - hfrom htitle
    obtain ⟨s', hupdate, hkeeps', hclosed', hnext⟩ :=
      hkeeps.update_eq hclosed hu huid hid hfrom htitle
    exact ⟨s', [], hupdate, hkeeps', hclosed', hnext.trans hid'⟩
  blank := by
    intro s t hblank
    exact ⟨[], update_eq_of_blank hblank s⟩

end Tables

end Taskbook
