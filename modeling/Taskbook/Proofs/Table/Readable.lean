import Mathlib.Data.Set.Function
import Taskbook.Proofs.Manager.Overwriting

/-!
# Readable Rows

Which rows of cells are read as tasks can be told cell by cell. A cell fits the column of a field if
it is of the one kind that the field is stored as, or a null where the field may be empty; the code
of a priority must be one of the codes, and the title must not be blank. A row is read if and only
if every cell fits its column.

The rows with an id that are read correspond to the tasks with an id and a title, one to one. Going
from a task to its cells and back gives the task, and going from a readable row to its task and
back gives the row, cell by cell. The second way is the one that could fail silently: fields are
written leniently, so a cell might be taken in a form in which it is not given back. None is, since
what is taken of a cell has the cell as its stored form, and that is why writing back what has been
read changes nothing.

## Main results

* `Task.exists_ofCells_iff`: a row is **readable** if every cell fits its column;
* `Task.bijOn_cells`: tasks and readable rows correspond **one to one**;
* `Tables.update_of_answered`: **writing back** a task as a query answered it changes nothing;
* `readable_rows_are_tasks`: the three together.
-/

namespace Taskbook

/-! ### Cells that fit -/

/-- Whether a cell **fits** the column of a field. -/
def Cell.Fits (f : Field) : Cell → Prop
  | .null => f.required = false
  | .integer n => f ≠ .title ∧ (f = .priority → n ∈ Priority.codes.map Prod.snd)
  | .text s => f = .title ∧ Text.isBlankText s = false
  | .real _ | .blob _ => False

instance (f : Field) : (c : Cell) → Decidable (c.Fits f)
  | .null => inferInstanceAs (Decidable (_ = _))
  | .integer n => inferInstanceAs (Decidable (_ ∧ (_ → n ∈ Priority.codes.map Prod.snd)))
  | .text _ => inferInstanceAs (Decidable (_ ∧ _))
  | .real _ | .blob _ => inferInstanceAs (Decidable False)

/-- A cell that fits has no fault. -/
theorem Cell.fault?_of_fits {f : Field} {c : Cell} (h : c.Fits f) : c.fault? f = none := by
  cases c with
  | null => exact if_neg (Bool.eq_false_iff.mp h)
  | integer n =>
      obtain ⟨htitle, hpriority⟩ := h
      rw [fault?, if_neg htitle, if_neg]
      rintro ⟨hf, hunknown⟩
      exact hunknown (hpriority hf)
  | text s => exact if_pos h.1
  | real x | blob bytes => exact h.elim

/-- An integer fits any column but those of the title and the priority. -/
theorem Cell.fits_integer {f : Field} (htitle : f ≠ .title) (hpriority : f ≠ .priority)
    (n : Int64) : (integer n).Fits f :=
  ⟨htitle, fun h => absurd h hpriority⟩

/-- An integer that may be missing fits any column that may be empty. -/
theorem Cell.fits_ofInteger? {f : Field} (hf : f.required = false) (x : Option Int64) :
    (Value.ofInteger? x).stored.cell.Fits f := by
  cases x with
  | none => exact hf
  | some n => exact fits_integer (by rintro rfl; cases hf) (by rintro rfl; cases hf) n

/-- So does an instant that may be missing. -/
theorem Cell.fits_ofInstant? {f : Field} (hf : f.required = false) (x : Option Instant) :
    (Value.ofInstant? x).stored.cell.Fits f := by
  cases x with
  | none => exact hf
  | some t => exact fits_integer (by rintro rfl; cases hf) (by rintro rfl; cases hf) t.millis

namespace Task

variable {t : Task} {c : Cells}

/-- The cells of a task with a title fit. -/
theorem fits_cells (htitle : Text.isBlankText t.title = false) (f : Field) :
    (t.cells f).Fits f := by
  cases f with
  | id | createdFrom => exact Cell.fits_ofInteger? rfl _
  | doneOn | postponedUntil | dueDate => exact Cell.fits_ofInstant? rfl _
  | createdOn => exact Cell.fits_integer (by decide) (by decide) _
  | priority => exact ⟨by decide, fun _ => List.mem_map_of_mem (Priority.mem_codes t.priority)⟩
  | title => exact ⟨rfl, htitle⟩

/-- **A row is readable** if and only if every cell fits its column. -/
theorem exists_ofCells_iff : (∃ t, ofCells c = .ok t) ↔ ∀ f, (c f).Fits f := by
  constructor
  · rintro ⟨t, hread⟩ f
    obtain ⟨htitle, rfl⟩ := ofCells_eq_ok_iff.mp hread
    exact fits_cells htitle f
  · intro h
    have hfault : (Field.all.findSome? fun f => (c f).fault? f) = none :=
      List.findSome?_eq_none_iff.mpr fun f _ => Cell.fault?_of_fits (h f)
    obtain ⟨t, hwritten⟩ : ∃ t, Field.all.foldlM (setCell c) blank = .ok t :=
      (Except.exists_ok_iff fun _ => foldlM_setCell_eq_error_iff).mpr hfault
    obtain ⟨hcells, -⟩ := foldlM_setCell_eq_ok (by decide) hwritten
    have htitle := h .title
    rw [← hcells .title (Field.mem_all _)] at htitle
    exact ⟨t, ofCells_eq_ok_iff.mpr ⟨htitle.2, funext fun f => hcells f f.mem_all⟩⟩

/-- A task has an id if and only if its row has. -/
theorem cells_id_eq_null_iff : t.cells .id = .null ↔ t.id = none := by
  rw [cells, get]
  cases t.id <;> simp [Value.ofInteger?, Value.stored, Stored.cell]

/-- **Tasks and readable rows correspond one to one**, those with an id. -/
theorem bijOn_cells :
    Set.BijOn cells {t | t.id ≠ none ∧ Text.isBlankText t.title = false}
      {c | c .id ≠ .null ∧ ∀ f, (c f).Fits f} := by
  refine ⟨?_, fun s _ t _ => cells_inj.mp, ?_⟩
  · rintro t ⟨hid, htitle⟩
    exact ⟨mt cells_id_eq_null_iff.mp hid, fits_cells htitle⟩
  · rintro c ⟨hid, hfits⟩
    obtain ⟨t, hread⟩ := exists_ofCells_iff.mpr hfits
    obtain ⟨htitle, rfl⟩ := ofCells_eq_ok_iff.mp hread
    exact ⟨t, ⟨mt cells_id_eq_null_iff.mpr hid, htitle⟩, rfl⟩

end Task

/-! ### Writing back -/

namespace Tables

variable {s : Tables} {p : Predicate} {ts : List Task} {t : Task}

/-- **Writing back** a task as a query answered it changes nothing, and it is refused at most for a
reference to a recurring task that does not exist. -/
theorem update_of_answered [Engine] (h : (repository.query p s).result = .ok ts) (ht : t ∈ ts) :
    (repository.update t s).store = s ∧
      ((repository.update t s).result = .ok () ↔
        ∀ id, t.createdFrom = some id → id ∈ s.recurring) := by
  obtain ⟨r, hsel, hread⟩ := exists_reads_of_query h ht
  have hr : r ∈ s.tasks.rows := List.mem_of_mem_filter hsel
  refine ⟨Slotted.store_update_of_reads (V := slotted) s.nodup_ids hr hread, ?_⟩
  rw [(slotted.updatesOne s.nodup_ids).done_iff]
  have hmem : some r.id ∈ slotted.ids s := List.mem_map_of_mem hr
  have hrefers : slotted.refers (slotted.rest s) t = true ↔
      ∀ id, t.createdFrom = some id → id ∈ s.recurring := by
    show (t.createdFrom.all fun id => s.recurring.contains id) = true ↔ _
    cases t.createdFrom <;> simp
  rw [← hrefers]
  constructor
  · rintro ⟨-, n, -, -, href⟩
    exact href
  · exact fun href => ⟨(Row.reads_iff.mp hread).1, r.id, hread.id_eq, hmem, href⟩

end Tables

/-- **The readable rows are the tasks**. Tasks with an id and a title correspond to the rows with an
id all of whose cells fit, by the cells of a task. A task with a title is read from its cells; a row
that is read as a task holds the cells of that task, which has a title, and an id if the row has
one. So no two rows are read as one task, and writing back a task as a query answered it leaves the
table as it is, whatever else is in its rows. -/
theorem readable_rows_are_tasks [Engine] :
    Set.BijOn Task.cells {t | t.id ≠ none ∧ Text.isBlankText t.title = false}
      {c | c .id ≠ .null ∧ ∀ f, (c f).Fits f} ∧
    (∀ t : Task, Text.isBlankText t.title = false → Task.ofCells t.cells = .ok t) ∧
    (∀ (c : Cells) (t : Task), Task.ofCells c = .ok t →
      t.cells = c ∧ Text.isBlankText t.title = false ∧ (c .id ≠ .null → t.id ≠ none) ∧
        ∀ d, Task.ofCells d = .ok t → d = c) ∧
    (∀ c : Cells, (∃ t, Task.ofCells c = .ok t) ↔ ∀ f, (c f).Fits f) ∧
    ∀ (s : Tables) (p : Predicate) (ts : List Task),
      (Tables.repository.query p s).result = .ok ts → ∀ t ∈ ts,
        (Tables.repository.update t s).store = s ∧
          ((Tables.repository.update t s).result = .ok () ↔
            ∀ id, t.createdFrom = some id → id ∈ s.recurring) := by
  refine ⟨Task.bijOn_cells, ?_, ?_, fun _ => Task.exists_ofCells_iff, ?_⟩
  · exact fun t htitle => Task.ofCells_eq_ok_iff.mpr ⟨htitle, rfl⟩
  · intro c t hread
    obtain ⟨htitle, rfl⟩ := Task.ofCells_eq_ok_iff.mp hread
    refine ⟨rfl, htitle, mt Task.cells_id_eq_null_iff.mpr, fun d hd => ?_⟩
    exact (Task.ofCells_eq_ok_iff.mp hd).2.symm
  · exact fun s p ts hquery t ht => Tables.update_of_answered hquery ht

/-- A row with extreme numbers and a title that is all but blank, next to a row whose title is
bytes: the one is read as a task with these contents, which is answered and written back in vain,
and the other one is not read. -/
theorem readable_rows_are_tasks_extremes :
    let _ : Engine := .scanning
    let least := Int64.minValue
    let r : Row := ⟨least, .text "\t.", .integer Int64.maxValue, .integer (-1), .integer 2, .null,
      .integer least, .integer 0⟩
    let bytes : Row := { r with id := 5, title := .blob [46] }
    let t : Task :=
      { id := some least, title := "\t.", createdOn := ⟨Int64.maxValue⟩, doneOn := some ⟨-1⟩,
        priority := .high, createdFrom := some least, dueDate := some ⟨0⟩ }
    let s (recurring : List Int64) : Tables := { tasks := ⟨[r, bytes], by decide⟩, recurring }
    Task.ofCells t.cells = .ok t ∧ t.cells = r.cells ∧ (∀ f, (r.cells f).Fits f) ∧
      (¬∃ u, Task.ofCells bytes.cells = .ok u) ∧
      (Tables.repository.query (.hasId least) (s [])).result = .ok [t] ∧
      (Tables.repository.update t (s [])).store = s [] ∧
      (Tables.repository.update t (s [])).result ≠ .ok () ∧
      (Tables.repository.update t (s [least])).result = .ok () := by
  intro _ least r bytes t s
  obtain ⟨hbij, hwrite, hread, hfits, hback⟩ := readable_rows_are_tasks
  have hr : Task.ofCells r.cells = .ok t := by decide +kernel
  have hquery (recurring : List Int64) :
      (Tables.repository.query (.hasId least) (s recurring)).result = .ok [t] := by
    obtain ⟨events, hquery⟩ := Tables.query_hasId (s := s recurring) (r := r) List.mem_cons_self
    rw [hr] at hquery
    exact congrArg Reply.result hquery
  have hempty := hback (s []) _ _ (hquery []) t (List.mem_singleton_self t)
  have hlinked := hback (s [least]) _ _ (hquery [least]) t (List.mem_singleton_self t)
  have hbytes : ¬(bytes.cells .title).Fits .title := id
  have himage := hbij.mapsTo (x := t) ⟨by decide, by decide⟩
  refine ⟨hwrite t (by decide), (hread _ t hr).1, ?_, ?_, hquery [], hempty.1, ?_, ?_⟩
  · exact (hread _ t hr).1 ▸ himage.2
  · exact fun h => hbytes ((hfits _).mp h .title)
  · exact fun h => absurd (hempty.2.mp h least rfl) (by decide)
  · refine hlinked.2.mpr fun id hid => ?_
    rw [← Option.some.inj hid]
    exact List.mem_singleton_self _

end Taskbook
