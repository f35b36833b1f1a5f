import Taskbook.Query.Clause
import Taskbook.Store.Repository
import Taskbook.Table.Engine
import Taskbook.Table.Insertion
import Taskbook.Table.Row
import Taskbook.Table.Statement

/-!
# Tables

What a migrated database holds: the rows of the task table, in ascending order of their ids,
and the ids of the recurring tasks that they may refer to. A statement is checked in a fixed
order, and one that is refused changes nothing.

## Order of refusals

A name that is no column; an id that is not an integer; a required column without content
(the first in table order); an id that is taken; a reference to a recurring task that does
not exist.
-/

namespace Taskbook

/-- The rows of a table whose ids ascend. -/
structure TaskTable where
  rows : List Row
  ascending : rows.Pairwise fun a b => a.id < b.id
  deriving DecidableEq

/-- Puts a row before the first one with a greater id. -/
def Row.place (r : Row) : List Row → List Row
  | [] => [r]
  | s :: rows => if r.id < s.id then r :: s :: rows else s :: place r rows

namespace Row

theorem mem_place {r s : Row} {rows : List Row} : s ∈ place r rows ↔ s = r ∨ s ∈ rows := by
  induction rows with
  | nil => simp [place]
  | cons t rows ih =>
    unfold place
    split
    · simp
    · simp only [List.mem_cons, ih]
      grind

/-- Placing a row with an id of its own keeps the ids ascending. -/
theorem pairwise_place {r : Row} {rows : List Row}
    (h : rows.Pairwise fun a b => a.id < b.id) (fresh : ∀ s ∈ rows, s.id ≠ r.id) :
    (place r rows).Pairwise fun a b => a.id < b.id := by
  induction rows with
  | nil => simp [place]
  | cons t rows ih =>
    rw [List.pairwise_cons] at h
    unfold place
    split
    · next hlt =>
      rw [List.pairwise_cons, List.pairwise_cons]
      refine ⟨fun s hs => ?_, h⟩
      rcases List.mem_cons.mp hs with rfl | hs
      · exact hlt
      · exact Int64.lt_trans hlt (h.1 s hs)
    · next hge =>
      rw [List.pairwise_cons]
      refine ⟨fun s hs => ?_, ih h.2 fun s hs => fresh s (List.mem_cons_of_mem t hs)⟩
      rcases mem_place.mp hs with rfl | hs
      · have := fresh t List.mem_cons_self
        rw [Int64.lt_iff_toInt_lt] at hge ⊢
        rw [ne_eq, ← Int64.toInt_inj] at this
        omega
      · exact h.1 s hs

end Row

namespace TaskTable

/-- The table without rows. -/
def empty : TaskTable := ⟨[], .nil⟩

/-- The row with an id. -/
def find? (t : TaskTable) (id : Int64) : Option Row :=
  t.rows.find? fun r => r.id == id

/-- The table with one more row, unless its id is taken. -/
def insert? (t : TaskTable) (r : Row) : Option TaskTable :=
  if fresh : ∀ s ∈ t.rows, s.id ≠ r.id then
    some ⟨r.place t.rows, Row.pairwise_place t.ascending fresh⟩
  else none

/-- The table with the row that has the same id replaced. -/
def replace (t : TaskTable) (r : Row) : TaskTable where
  rows := t.rows.map fun s => if s.id = r.id then r else s
  ascending := by
    rw [List.pairwise_map]
    refine t.ascending.imp fun {a b} h => ?_
    split <;> split <;> simp_all

end TaskTable

/-- The rows of a migrated database. -/
structure Tables where
  tasks : TaskTable
  recurring : List Int64
  deriving DecidableEq

/-- The id that a table gives to a new row: one after the greatest, and one in an empty table.
After the last id of all the engine draws one. -/
def freshId [Engine] (ids : List Int64) : Int64 :=
  match (ids.map Int64.toInt).max? with
  | none => 1
  | some greatest => (Number.word? (greatest + 1)).getD (Engine.draw ids)

/-- The id of a row to insert: the one it brings, which must be an integer, or a fresh one. -/
def chooseId [Engine] (ids : List Int64) (given : Cell) : Except SqlError Int64 :=
  match Affinity.integer.keep given with
  | .null => .ok (freshId ids)
  | .integer n => .ok n
  | _ => .error .datatypeMismatch

namespace Tables

/-- The tables of a new database. -/
def empty : Tables := ⟨.empty, []⟩

/-- The cells as the columns of the task table keep them. -/
def kept (cells : Cells) : Cells :=
  fun f => f.affinity.keep (cells f)

/-- The first required column without content. -/
def missingColumn? (cells : Cells) : Option Field :=
  Field.all.find? fun f => f.required && cells f == .null

/-- Whether the recurring task that a row refers to exists. -/
def refers (s : Tables) (cells : Cells) : Bool :=
  match cells .createdFrom with
  | .null => true
  | .integer n => s.recurring.contains n
  | _ => false

/-- The row that a statement writes, if no required column lacks content. -/
def complete (id : Int64) (cells : Cells) : Except SqlError Row :=
  match missingColumn? (kept cells) with
  | some f => .error (.notNull "task" f.name)
  | none => .ok (.ofCells id (kept cells))

/-- Inserts a row. A null id asks for a fresh one. Answers the id. -/
def insertTask [Engine] (s : Tables) (cells : Cells) : Except SqlError (Int64 × Tables) := do
  let id ← chooseId (s.tasks.rows.map Row.id) (cells .id)
  let row ← complete id cells
  match s.tasks.insert? row with
  | none => .error (.unique "task" Field.id.name)
  | some tasks =>
    if s.refers row.cells then .ok (id, { s with tasks := tasks }) else .error .foreignKey

/-- Writes the seven other columns of the row with an id. Answers whether there is one. -/
def updateTask (s : Tables) (id : Int64) (cells : Cells) : Except SqlError (Bool × Tables) := do
  match s.tasks.find? id with
  | none => .ok (false, s)
  | some _ =>
    let row ← complete id cells
    if s.refers row.cells then .ok (true, { s with tasks := s.tasks.replace row })
    else .error .foreignKey

/-- The rows that a predicate selects, by ascending id. -/
def select [Engine] (s : Tables) (p : Predicate) : Except SqlError (List Row) :=
  match p.fault? with
  | some e => .error e
  | none => .ok (s.tasks.rows.filter fun r => p.selects r.cells)

/-! ### Statements behind the repository -/

/-- The cell written as the id, null if there is none: where its names occur more than once,
the last one decides. -/
def writtenId (columns : List (String × Cell)) (isId : String → Bool) : Cell :=
  ((columns.reverse.find? fun c => isId c.1).map Prod.snd).getD .null

/-- The cell written to the first column whose name is meant, null if none is. -/
def written (columns : List (String × Cell)) (meant : String → Bool) : Cell :=
  ((columns.find? fun c => meant c.1).map Prod.snd).getD .null

/-- Inserts a task row given by the names of its columns. -/
def insertTaskRow [Engine] (s : Tables) (row : List (String × Cell)) :
    Except SqlError (Int64 × Tables) := do
  let columns ← Insertion.cells "task" (fun name => (Field.column? name).isSome) row
  s.insertTask fun f =>
    let meant (name : String) : Bool := Field.column? name == some f
    if f = .id then writtenId columns meant else written columns meant

/-- The columns of the recurring tasks, each with whether it must have content. -/
def recurringColumns : List (String × Bool) :=
  [("id", false), ("title", true), ("start_date", true), ("end_date", false),
   ("interval", true), ("interval_unit", true)]

/-- Whether a name is that of the id of a recurring task. -/
def isRecurringId (name : String) : Bool :=
  ("id" :: rowIdNames).any (Text.sameName name)

/-- Inserts a recurring task given by the names of its columns. Only its id is ever asked
for, so nothing else of it is kept. -/
def insertRecurring [Engine] (s : Tables) (row : List (String × Cell)) :
    Except SqlError (Int64 × Tables) := do
  let isColumn (name : String) : Bool :=
    isRecurringId name || recurringColumns.any fun known => Text.sameName known.1 name
  let columns ← Insertion.cells "recurring_task" isColumn row
  let id ← chooseId s.recurring (writtenId columns isRecurringId)
  match recurringColumns.find? fun c => c.2 && written columns (Text.sameName c.1) == .null with
  | some c => .error (.notNull "recurring_task" c.1)
  | none =>
    if s.recurring.contains id then .error (.unique "recurring_task" "id")
    else .ok (id, { s with recurring := s.recurring ++ [id] })

/-! ### The tables as a repository -/

/-- A database's refusal as an error of the repository. -/
def refusal (e : SqlError) : RepoError :=
  .db (.sql e)

/-- A statement that writes, as a step on the tables. -/
def write {α : Type} (statement : Tables → Except SqlError (α × Tables)) :
    Action Tables RepoError α := do
  let (a, s) ← Action.ofExcept ((statement (← Action.store)).mapError refusal)
  Action.setStore s
  return a

/-- The tables as a repository. -/
def repository [Engine] : Repository Tables where
  insert t := do
    Action.ofExcept (t.validate.mapError .validation)
    match t.id with
    | some id => Action.fail (.alreadyInserted id)
    | none =>
      let id ← write fun s => s.insertTask t.cells
      return { t with id := some id }
  query p := do
    Action.record (.querying p.clause.text p.clause.operands.length)
    let s ← Action.store
    let rows ← Action.ofExcept ((s.select p).mapError refusal)
    Action.ofExcept (rows.mapM fun r => Task.ofCells r.cells)
  update t := do
    Action.ofExcept (t.validate.mapError .validation)
    match t.id with
    | none => Action.fail .missingId
    | some id =>
      let found ← write fun s => s.updateTask id t.cells
      if found then return else Action.fail (.notFound id)

/-- The tables as a repository of a database that cannot be written. What a task lacks is
noticed before the obstacle is met. -/
def frozenRepository [Engine] (obstacle : SqlError) : Repository Tables where
  insert t := do
    Action.ofExcept (t.validate.mapError .validation)
    match t.id with
    | some id => Action.fail (.alreadyInserted id)
    | none => Action.fail (refusal obstacle)
  query := repository.query
  update t := do
    Action.ofExcept (t.validate.mapError .validation)
    match t.id with
    | none => Action.fail .missingId
    | some _ => Action.fail (refusal obstacle)

end Tables

end Taskbook
