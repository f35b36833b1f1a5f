import Taskbook.Proofs.Manager.Backends
import Taskbook.Proofs.Manager.Isolation
import Taskbook.Proofs.Store.Seeding
import Taskbook.Proofs.Store.Slots
import Taskbook.Proofs.Table.Answers

/-!
# Updates on Both Backends

Both repositories keep their tasks in slots. In memory a slot is the task itself, in the order in
which the tasks came, and what is beside the slots is the counter; no task refers to anything that
could be missing. In tables a slot is a row, readable or not, and what is beside the rows are the
recurring tasks. The two find a task in different ways, by going through a list and by an
assembled statement, and they come to the same.

## Main results

* `MemoryStore.slotted`, `Tables.slotted`: the slots of the two repositories;
* `update_replaces_one`: **an update replaces exactly one task**, on both backends.
-/

namespace Taskbook

/-! ### The store in memory -/

namespace MemoryStore

/-- The tasks of the store in memory are its slots. -/
def slotted : Slotted repository where
  Slot := Task
  Rest := Int64
  slots := tasks
  rest := nextId
  ext := by
    rintro ⟨tasks, next⟩ ⟨_, _⟩ rfl rfl
    rfl
  key := Task.id
  written t := t
  Reads u t := u = t
  key_written h := h
  reads_written _ _ := rfl
  written_of_reads := by
    rintro u t rfl
    exact ⟨rfl, rfl⟩
  refers _ _ := true
  update_of_fault := by
    intro s t e _ hfault
    rcases Task.updateFault?_eq_some hfault with ⟨hblank, rfl⟩ | ⟨htitle, hrest⟩
    · exact update_eq_of_blank hblank s
    · rcases hrest with ⟨hid, rfl⟩ | ⟨n, hid, ⟨hmissing, rfl⟩ | ⟨-, hrefers, -⟩⟩
      · exact update_eq_of_unsaved hid htitle s
      · rw [update_eq hid htitle, if_neg (mt isSome_find?_iff.mp hmissing)]
      · cases hrefers
  update_of_none := by
    intro s t n distinct hid hfault
    obtain ⟨htitle, m, hm, hmem, -⟩ := Task.updateFault?_eq_none_iff.mp hfault
    obtain rfl := Option.some.inj (hid.symm.trans hm)
    rw [update_eq hid htitle, if_pos (isSome_find?_iff.mpr hmem)]
    exact ⟨_, rfl, replace_eq_overwrite distinct n t, rfl⟩
  query_hasId := by
    rintro s n u t distinct hu hid rfl
    exact congrArg Except.ok (filter_hasId_of_nodup distinct hu hid)
  reads_of_query := by
    intro s n ts t _ hquery ht
    obtain rfl := Except.ok.inj hquery
    obtain ⟨hmem, hholds⟩ := List.mem_filter.mp ht
    rw [Predicate.holds_hasId, beq_iff_eq] at hholds
    exact ⟨t, hmem, hholds, rfl⟩

end MemoryStore

/-! ### Tables -/

namespace Tables

variable {s : Tables} {t : Task}

/-- A task refers to a recurring task that exists, or to none. -/
theorem refers_cells (s : Tables) (t : Task) :
    s.refers t.cells = t.createdFrom.all fun id => s.recurring.contains id := by
  rw [refers, Task.cells, Task.get]
  cases t.createdFrom <;> rfl

/-- A task without an id is not written back. -/
theorem update_eq_of_unsaved [Engine] (hid : t.id = none)
    (htitle : Text.isBlankText t.title = false)
    (s : Tables) : repository.update t s = ⟨.error (.cause .missingId), s, []⟩ := by
  simp [repository, Task.validate, htitle, hid, Except.mapError, bind, Action.andThen]

/-- The rows of the tables are their slots. -/
def slotted [Engine] : Slotted repository where
  Slot := Row
  Rest := List Int64
  slots s := s.tasks.rows
  rest := recurring
  ext := by
    rintro ⟨⟨rows, _⟩, recurring⟩ ⟨⟨_, _⟩, _⟩ rfl rfl
    rfl
  key r := some r.id
  written t := .ofCells (t.id.getD 0) t.cells
  Reads := Row.Reads
  key_written h := by rw [h, Option.getD_some, Row.id_ofCells]
  reads_written h htitle := by
    rw [h, Option.getD_some]
    exact Row.reads_iff.mpr ⟨htitle, (Row.cells_ofCells_of_id h).symm⟩
  written_of_reads h := by
    rw [h.id_eq, Option.getD_some, (Row.reads_iff.mp h).2, Row.ofCells_cells]
    exact ⟨rfl, rfl⟩
  refers recurring t := t.createdFrom.all fun id => recurring.contains id
  update_of_fault := by
    intro s t e _ hfault
    rcases Task.updateFault?_eq_some hfault with ⟨hblank, rfl⟩ | ⟨htitle, hrest⟩
    · exact update_eq_of_blank hblank s
    · rcases hrest with ⟨hid, rfl⟩ | ⟨n, hid, ⟨hmissing, rfl⟩ | ⟨hmem, hrefers, rfl⟩⟩
      · exact update_eq_of_unsaved hid htitle s
      · have hupdate := updateTask_eq hid s
        rw [if_neg (mt isSome_find?_iff.mp hmissing)] at hupdate
        rw [update_eq hid htitle, Action.bind_of_ok (write_of_ok hupdate)]
        rfl
      · have hupdate := updateTask_eq hid s
        rw [if_pos (isSome_find?_iff.mpr hmem), if_neg] at hupdate
        · rw [update_eq hid htitle, Action.bind_of_error (write_of_error hupdate)]
          rfl
        · rw [refers_cells, hrefers]
          exact Bool.false_ne_true
  update_of_none := by
    intro s t n _ hid hfault
    obtain ⟨htitle, m, hm, hmem, hrefers⟩ := Task.updateFault?_eq_none_iff.mp hfault
    obtain rfl := Option.some.inj (hid.symm.trans hm)
    obtain ⟨r, hr, hrid⟩ := List.mem_map.mp hmem
    obtain rfl := Option.some.inj hrid
    rw [update_of_mem hr hid htitle ((refers_cells s t).trans hrefers)]
    refine ⟨_, rfl, ?_, rfl⟩
    rw [hid, Option.getD_some]
    refine List.map_congr_left fun q _ => ?_
    simp only [Row.id_ofCells, Option.some.injEq]
    rfl
  query_hasId := by
    rintro s n r t - hr hid hread
    obtain rfl := Option.some.inj hid
    obtain ⟨events, hquery⟩ := query_hasId hr
    rw [hquery]
    exact Except.mapError_eq_ok_iff.mpr (congrArg (Except.map fun t => [t]) hread)
  reads_of_query := by
    intro s n ts t _ hquery ht
    obtain ⟨r, hr, hread⟩ := exists_reads_of_query hquery ht
    obtain ⟨hmem, hselects⟩ := List.mem_filter.mp hr
    rw [Predicate.selects_hasId, beq_iff_eq] at hselects
    exact ⟨r, hmem, congrArg some hselects, hread⟩

/-- The rows of a table have different ids. -/
theorem nodup_ids [Engine] (s : Tables) : (slotted.ids s).Nodup := by
  rw [List.nodup_iff_pairwise_ne, Slotted.ids, List.pairwise_map]
  refine s.tasks.ascending.imp fun {a b} hlt heq => ?_
  rw [Option.some.inj heq] at hlt
  exact Int64.lt_irrefl hlt

end Tables

/-- **An update replaces exactly one task**, on both backends: on every store in memory whose ids
are different, and on all tables, whatever is in their rows. -/
theorem update_replaces_one [Engine] :
    (∀ s : MemoryStore, (s.tasks.map Task.id).Nodup → MemoryStore.slotted.UpdatesOne s) ∧
      ∀ s : Tables, Tables.slotted.UpdatesOne s :=
  ⟨fun _ distinct => MemoryStore.slotted.updatesOne distinct,
    fun s => Tables.slotted.updatesOne s.nodup_ids⟩

/-- Two tasks in memory, and in tables a task next to a row whose title is bytes. The updates of
both commute; the second update of the first task is the one that counts; what is read is written
back without a change; and the row with the bytes is replaced by a task that is read. -/
theorem update_replaces_one_among_two :
    let _ : Engine := .scanning
    let old (id : Int64) : Task := { id := some id, title := "old", createdOn := ⟨5⟩ }
    let one : Task := { id := some 1, title := "one", createdOn := ⟨6⟩, createdFrom := some 9 }
    let other : Task := { one with title := "other", priority := .high }
    let two : Task := { id := some 2, title := "two", createdOn := ⟨-1⟩, dueDate := some ⟨0⟩ }
    let m : MemoryStore := ⟨[old 2, old 1], 10000⟩
    let bytes : Row := { Row.ofCells 2 (old 2).cells with title := .blob [0] }
    let s : Tables := { tasks := ⟨[.ofCells 1 (old 1).cells, bytes], by decide⟩, recurring := [9] }
    let inMemory (t : Task) (m : MemoryStore) := (MemoryStore.repository.update t m).store
    let inTables (t : Task) (s : Tables) := (Tables.repository.update t s).store
    inMemory one (inMemory two m) = inMemory two (inMemory one m) ∧
      inMemory other (inMemory one m) = inMemory other m ∧ inMemory (old 1) m = m ∧
      inTables one (inTables two s) = inTables two (inTables one s) ∧
      (Tables.repository.query (.hasId 2) (inTables two s)).result = .ok [two] ∧
      (Tables.repository.update { two with createdFrom := some 8 } s).store = s := by
  intro _ old one other two m bytes s inMemory inTables
  have distinct : (MemoryStore.slotted.ids m).Nodup := by decide
  have hm := update_replaces_one.1 m distinct
  have hs := update_replaces_one.2 s
  have hone' : (MemoryStore.repository.update one m).result = .ok () :=
    (hm.done_iff one).mpr ⟨by decide, 1, rfl, by decide, rfl⟩
  have hother : (MemoryStore.repository.update other m).result = .ok () :=
    (hm.done_iff other).mpr ⟨by decide, 1, rfl, by decide, rfl⟩
  have htwo' : (MemoryStore.repository.update two m).result = .ok () :=
    (hm.done_iff two).mpr ⟨by decide, 2, rfl, by decide, rfl⟩
  have hone : (Tables.repository.update one s).result = .ok () :=
    (hs.done_iff one).mpr ⟨by decide, 1, rfl, by decide, by decide⟩
  have htwo : (Tables.repository.update two s).result = .ok () :=
    (hs.done_iff two).mpr ⟨by decide, 2, rfl, by decide, by decide⟩
  have hrefused :
      (Tables.repository.update { two with createdFrom := some 8 } s).result ≠ .ok () := by
    intro h
    obtain ⟨-, n, -, -, hrefers⟩ := (hs.done_iff _).mp h
    exact absurd hrefers (by decide)
  obtain ⟨e, -, hupdate⟩ := hs.refused _ hrefused
  refine ⟨(hm.commute one two (by decide) hone' ?_).2.2, (hm.last one other rfl hone' ?_).2,
    hm.same 1 [old 1] (old 1) rfl (by decide), (hs.commute one two (by decide) hone ?_).2.2,
    hs.answered two 2 rfl htwo, congrArg Reply.store hupdate⟩
  · exact (Slotted.result_update_eq_ok_iff distinct one two).mpr htwo'
  · exact (Slotted.result_update_eq_ok_iff distinct one other).mpr hother
  · exact (Slotted.result_update_eq_ok_iff s.nodup_ids one two).mpr htwo

end Taskbook
