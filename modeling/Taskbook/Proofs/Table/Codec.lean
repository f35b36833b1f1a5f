import Taskbook.Proofs.Task.Access
import Taskbook.Table.Row

/-!
# Rows and Tasks

A row of cells is read as a task by writing the cells to a blank task one after the other, in
table order. This module shows that reading is the inverse of writing a task to cells: the rows
that can be read are the cells of the tasks whose titles are not blank, and each is read as the
task that it is the cells of (`Task.ofCells_eq_ok_iff`). So a row that can be read holds
neither doubles nor bytes, and nothing in it is lost when the task is written back.

The fold over the fields is treated from both sides. Going forward, every field that has been
written holds what is stored in its cell; going backward, cells of a task are always taken, and
the task is made from them. A task is determined by its fields, which closes the gap between the
two.
-/

namespace Taskbook

/-- What a cell is read as has the cell as its stored form. -/
theorem Cell.cell_of_value? {f : Field} {c : Cell} {v : Value} (h : c.value? f = .ok v) :
    v.stored.cell = c := by
  cases c with
  | null | integer n | text s =>
      obtain rfl := Except.ok.inj h
      rfl
  | real x | blob bytes => cases h

/-- The cell of a stored form is read as the value of that form. -/
theorem Cell.value?_cell (f : Field) (s : Stored) : s.cell.value? f = .ok s.value := by
  cases s <;> rfl

namespace Task

/-- A cell that is written to a task is what its field is stored as; the other fields keep
their content. -/
theorem setCell_eq_ok {cells : Cells} {t u : Task} {f : Field}
    (h : setCell cells t f = .ok u) :
    (u.get f).stored.cell = cells f ∧ ∀ g ≠ f, u.get g = t.get g := by
  obtain ⟨v, hv, h⟩ := Except.bind_eq_ok_iff.mp h
  have hset := Except.mapError_eq_ok_iff.mp h
  refine ⟨?_, fun g hg => get_set_ne hset hg⟩
  rw [stored_get_set hset]
  exact Cell.cell_of_value? hv

/-- Cells that are written one after the other are what their fields are stored as. -/
theorem foldlM_setCell_eq_ok {cells : Cells} {fs : List Field} {t u : Task}
    (distinct : fs.Nodup) (h : fs.foldlM (setCell cells) t = .ok u) :
    (∀ f ∈ fs, (u.get f).stored.cell = cells f) ∧ ∀ g ∉ fs, u.get g = t.get g := by
  induction fs generalizing t with
  | nil =>
      obtain rfl := Except.ok.inj h
      simp
  | cons f fs ih =>
      rw [List.foldlM_cons] at h
      obtain ⟨s, hs, h⟩ := Except.bind_eq_ok_iff.mp h
      obtain ⟨hf, hne⟩ := setCell_eq_ok hs
      obtain ⟨hnotin, hnodup⟩ := List.nodup_cons.mp distinct
      obtain ⟨hin, hout⟩ := ih hnodup h
      constructor
      · intro g hg
        rcases List.mem_cons.mp hg with rfl | hg
        · rw [hout g hnotin, hf]
        · exact hin g hg
      · intro g hg
        rw [List.mem_cons, not_or] at hg
        rw [hout g hg.2, hne g hg.1]

/-- A blank task with the cells of a task written to it is that task. -/
theorem foldlM_setCell_blank (t : Task) : Field.all.foldlM (setCell t.cells) blank = .ok t := by
  refine foldlM_eq_pure (fun s f => ?_) blank
  obtain ⟨u, hset, hf⟩ := s.exists_set_value t f
  have hu : setCell t.cells s f = .ok u :=
    Except.bind_eq_ok_iff.mpr ⟨_, Cell.value?_cell f _, Except.mapError_eq_ok_iff.mpr hset⟩
  exact ⟨u, hu, hf, (setCell_eq_ok hu).2⟩

/-- **Reading a row inverts writing a task.** A row of cells is read as a task if and only if
the title of the task is not blank and the cells are those of the task. -/
theorem ofCells_eq_ok_iff {cells : Cells} {t : Task} :
    ofCells cells = .ok t ↔ Text.isBlankText t.title = false ∧ t.cells = cells := by
  constructor
  · intro h
    obtain ⟨u, hu, h⟩ := Except.bind_eq_ok_iff.mp h
    obtain ⟨⟨⟩, hvalid, h⟩ := Except.bind_eq_ok_iff.mp h
    obtain rfl := Except.ok.inj h
    obtain ⟨hin, -⟩ :=
      foldlM_setCell_eq_ok (by decide) (Except.mapError_eq_ok_iff.mp hu)
    refine ⟨(validate_eq_ok_iff u).mp (Except.mapError_eq_ok_iff.mp hvalid), ?_⟩
    funext f
    exact hin f f.mem_all
  · rintro ⟨htitle, rfl⟩
    refine Except.bind_eq_ok_iff.mpr
      ⟨t, Except.mapError_eq_ok_iff.mpr t.foldlM_setCell_blank, ?_⟩
    exact Except.bind_eq_ok_iff.mpr
      ⟨(), Except.mapError_eq_ok_iff.mpr ((validate_eq_ok_iff t).mpr htitle), rfl⟩

/-- Two tasks with the same cells are one task. -/
theorem cells_inj {s t : Task} : s.cells = t.cells ↔ s = t := by
  constructor
  · intro h
    have hs := foldlM_setCell_blank s
    rw [h, foldlM_setCell_blank t] at hs
    exact (Except.ok.inj hs).symm
  · rintro rfl
    rfl

end Task

end Taskbook
