import Taskbook.Json.Value
import Taskbook.Task.Field

/-!
# Tasks as JSON

A task is exchanged as a JSON object with one member for each field, named after it. On
reading, the members may stand in any order, a member that may be missing may also be null,
and members under other names are skipped, whatever they hold. A field that occurs twice is
refused. An array of the eight values, in the order in which they are written, is accepted
too.

A priority is its name or an object whose only member is that name with a null.
-/

namespace Taskbook

/-- The fields in the order in which a task is written. -/
def Field.writingOrder : List Field :=
  [.id, .title, .createdOn, .doneOn, .postponedUntil, .dueDate, .priority, .createdFrom]

/-! ### Reading -/

namespace Json

/-- The text that a value is. -/
def text? : Json → Option String
  | string units => spell units
  | _ => none

/-- The integer that a value is. -/
def integer? : Json → Option Int64
  | number n => n.integer?
  | _ => none

/-- The priority with exactly this name. -/
def priorityNamed? (name : String) : Option Priority :=
  Priority.all.find? fun p => p.name == name

/-- The priority that a value is. -/
def priority? : Json → Option Priority
  | string units => (spell units).bind priorityNamed?
  | object [(key, null)] => (spell key).bind priorityNamed?
  | _ => none

/-- The content of a field, from the value that stands for it; nothing stands for a missing
member. -/
def fieldValue? (f : Field) : Option Json → Option Value
  | none | some null => if f.required then none else some .null
  | some j =>
    match f with
    | .title => j.text?.map .text
    | .priority => j.priority?.map .priority
    | .id | .createdFrom => j.integer?.map .integer
    | .createdOn | .doneOn | .postponedUntil | .dueDate => j.integer?.map fun n => .instant ⟨n⟩

/-- The members of an object under their names; nothing if a name is not a text. -/
def namedMembers? (members : List Member) : Option (List (String × Json)) :=
  members.mapM fun m => (spell m.1).map fun name => (name, m.2)

/-- Whether a field occurs more than once among the members. -/
def repeated (members : List (String × Json)) (f : Field) : Bool :=
  1 < (members.countP fun m => m.1 == f.name)

/-- The member of a field. -/
def member? (members : List (String × Json)) (f : Field) : Option Json :=
  (members.find? fun m => m.1 == f.name).map Prod.snd

end Json

namespace Task

/-- Writes one field of a task from JSON. -/
def setJson? (values : Field → Option Json) (t : Task) (f : Field) : Option Task :=
  (Json.fieldValue? f (values f)).bind fun v => (t.set f v).toOption

/-- The task with the given values for its fields. -/
def ofFields? (values : Field → Option Json) : Option Task :=
  Field.all.foldlM (setJson? values) blank

/-- The task that a JSON value stands for. -/
def ofJson? : Json → Option Task
  | .object members =>
    (Json.namedMembers? members).bind fun named =>
      if Field.all.any (Json.repeated named) then none else ofFields? (Json.member? named)
  | .array items =>
    if items.length = Field.writingOrder.length then
      ofFields? fun f => items[Field.writingOrder.idxOf f]?
    else none
  | _ => none

/-- Reads a task from JSON text. -/
def readJson (text : String) : Option Task :=
  (Json.read text).bind ofJson?

end Task

/-! ### Writing -/

/-- A value in JSON. -/
def Value.json : Value → String
  | null => "null"
  | integer n => Number.decimal n
  | text s => Json.quote s
  | bool flag => if flag then "true" else "false"
  | instant t => t.text
  | priority p => Json.quote p.name

/-- A task as compact JSON text. -/
def Task.writeJson (t : Task) : String :=
  "\x7b" ++ ",".intercalate (Field.writingOrder.map fun f =>
    Json.quote f.name ++ ":" ++ (t.get f).json) ++ "\x7d"

end Taskbook
