import Taskbook.Store.Error
import Taskbook.Table.Truth

/-!
# Rows

A stored task is a row: an id, which is always an integer, and the cells of the other seven
columns. Reading a row writes its cells to a blank task one by one, in table order, and then
looks at the title; the first fault in that order is the fault of the row.
-/

namespace Taskbook

/-- A row of the task table. -/
structure Row where
  id : Int64
  title : Cell
  createdOn : Cell
  doneOn : Cell
  priority : Cell
  postponedUntil : Cell
  createdFrom : Cell
  dueDate : Cell
  deriving DecidableEq, Repr

namespace Row

/-- The cell of a column. -/
def cells (r : Row) : Cells
  | .id => .integer r.id
  | .title => r.title
  | .createdOn => r.createdOn
  | .doneOn => r.doneOn
  | .priority => r.priority
  | .postponedUntil => r.postponedUntil
  | .createdFrom => r.createdFrom
  | .dueDate => r.dueDate

/-- The row with an id and the given cells in its other columns. -/
def ofCells (id : Int64) (c : Cells) : Row where
  id := id
  title := c .title
  createdOn := c .createdOn
  doneOn := c .doneOn
  priority := c .priority
  postponedUntil := c .postponedUntil
  createdFrom := c .createdFrom
  dueDate := c .dueDate

@[simp] theorem id_ofCells (id : Int64) (c : Cells) : (ofCells id c).id = id := rfl

@[simp] theorem ofCells_cells (r : Row) : ofCells r.id r.cells = r := rfl

theorem cells_ofCells (id : Int64) (c : Cells) (f : Field) (h : f ≠ .id) :
    (ofCells id c).cells f = c f := by
  cases f <;> simp_all [cells, ofCells]

end Row

/-! ### Tasks as cells -/

/-- The cells of a task. -/
def Task.cells (t : Task) : Cells :=
  fun f => (t.get f).stored.cell

/-- The value of a cell, if it is one that the column of a field can hold for a task. -/
def Cell.value? (f : Field) : Cell → Except DataFault Value
  | null => .ok .null
  | integer n => .ok (.integer n)
  | text s => .ok (.text s)
  | real _ | blob _ => .error (.unexpectedType f)

namespace Task

/-- Writes one cell to a task. -/
def setCell (cells : Cells) (t : Task) (f : Field) : Except DataFault Task := do
  let v ← (cells f).value? f
  (t.set f v).mapError .refused

/-- The task that a row of cells stands for. -/
def ofCells (cells : Cells) : Except RepoError Task := do
  let t ← (Field.all.foldlM (setCell cells) blank).mapError .invalidData
  t.validate.mapError .validation
  return t

end Task

end Taskbook
