import Taskbook.Schema.Database
import Taskbook.Text.Codec

/-!
# Database Images

A database between two runs is a text, its *image*: a heading, the version, the named objects
and the rows. Reading an image gives back exactly the database that was written
(`ofImage?_image`). A text that is no image is no database.
-/

namespace Taskbook

namespace Codec

/-- Doubles. -/
def binary64 : Codec Number.Binary64 :=
  (sum rat bool).imap
    (fun
      | .finite q => .inl q
      | .infinite negative => .inr negative)
    (fun
      | .inl q => some (.finite q)
      | .inr negative => some (.infinite negative))
    (fun x => by cases x <;> rfl)

/-- Cells. -/
def cell : Codec Cell :=
  (sum unit (sum word (sum text (sum binary64 (list byte))))).imap
    (fun
      | .null => .inl ()
      | .integer n => .inr (.inl n)
      | .text s => .inr (.inr (.inl s))
      | .real x => .inr (.inr (.inr (.inl x)))
      | .blob bytes => .inr (.inr (.inr (.inr bytes))))
    (fun
      | .inl _ => some .null
      | .inr (.inl n) => some (.integer n)
      | .inr (.inr (.inl s)) => some (.text s)
      | .inr (.inr (.inr (.inl x))) => some (.real x)
      | .inr (.inr (.inr (.inr bytes))) => some (.blob bytes))
    (fun c => by cases c <;> rfl)

/-- Rows: the id, then the seven other cells in table order. -/
def row : Codec Row :=
  (prod word (prod cell (prod cell (prod cell (prod cell (prod cell (prod cell cell))))))).imap
    (fun r => (r.id, r.title, r.createdOn, r.doneOn, r.priority, r.postponedUntil,
      r.createdFrom, r.dueDate))
    (fun p => some ⟨p.1, p.2.1, p.2.2.1, p.2.2.2.1, p.2.2.2.2.1, p.2.2.2.2.2.1,
      p.2.2.2.2.2.2.1, p.2.2.2.2.2.2.2⟩)
    (fun _ => rfl)

/-- Task tables: rows whose ids ascend. -/
def taskTable : Codec TaskTable :=
  (list row).imap TaskTable.rows
    (fun rows => if h : rows.Pairwise fun a b => a.id < b.id then some ⟨rows, h⟩ else none)
    (fun t => by simp [t.ascending])

/-- Named objects: a table with its columns, or an index. -/
def object : Codec SchemaObject :=
  (prod text (sum (list text) unit)).imap
    (fun o => (o.name, match o.kind with
      | .table columns => .inl columns
      | .index => .inr ()))
    (fun p => some ⟨p.1, match p.2 with
      | .inl columns => .table columns
      | .inr _ => .index⟩)
    (fun o => by rcases o with ⟨_, _ | _⟩ <;> rfl)

/-- Databases: the version, the objects, the rows of both tables. -/
def database : Codec Database :=
  (prod int (prod (list object) (prod taskTable (list word)))).imap
    (fun db => (db.version.toInt, db.objects, db.tables.tasks, db.tables.recurring))
    (fun p => some ⟨.ofInt p.1, p.2.1, p.2.2.1, p.2.2.2⟩)
    (fun db => by simp)

end Codec

namespace Database

/-- The heading of an image. -/
def imageHeading : List Char := "task book 1\n".toList

/-- The image of a database. -/
def image (db : Database) : String :=
  .ofList (imageHeading ++ Codec.database.write db)

/-- The database that a text is the image of. -/
def ofImage? (text : String) : Option Database :=
  if imageHeading.isPrefixOf text.toList then
    match Codec.database.read (text.toList.drop imageHeading.length) with
    | some (db, []) => some db
    | _ => none
  else none

/-- A database is read back from its image. -/
theorem ofImage?_image (db : Database) : ofImage? db.image = some db := by
  have h := Codec.database.read_write db []
  rw [List.append_nil] at h
  simp [ofImage?, image, h]

end Database

end Taskbook
