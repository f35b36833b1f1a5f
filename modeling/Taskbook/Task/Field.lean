import Taskbook.Task.Basic

/-!
# Fields

The eight fields of a task have names, which double as the names of the columns a task is
stored in. A field can be read as a value and written from one. Writing is lenient about
kinds: an instant may be given as its milliseconds and a priority as its code. A refused
value leaves the task as it was.

## Order convention

The *table order* of the fields is the order of `Field.all`. It is the order of the stored
columns and the order in which a stored row is read, so it decides which of several faults
in a row is reported.
-/

namespace Taskbook

/-- The fields of a task. -/
inductive Field where
  | id
  | title
  | createdOn
  | doneOn
  | priority
  | postponedUntil
  | createdFrom
  | dueDate
  deriving DecidableEq, Repr

/-- Why a value cannot be written to a field. -/
inductive FieldError where
  | typeMismatch (field : Field) (expected found : Kind)
  | nullNotAllowed (field : Field)
  | unknownCode (field : Field) (code : Int64)
  deriving DecidableEq, Repr

namespace Field

/-- The fields in table order. -/
def all : List Field :=
  [id, title, createdOn, doneOn, priority, postponedUntil, createdFrom, dueDate]

/-- The name of a field and of its column. -/
def name : Field → String
  | id => "id"
  | title => "title"
  | createdOn => "created_on"
  | doneOn => "done_on"
  | priority => "priority"
  | postponedUntil => "postponed_until"
  | createdFrom => "created_from_recurring_task_id"
  | dueDate => "due_date"

/-- Whether a task always has a value in this field. -/
def required : Field → Bool
  | title | createdOn | priority => true
  | _ => false

/-- The field with a name, whatever the case of its letters. -/
def find? (name : String) : Option Field :=
  all.find? fun f => Text.sameName f.name name

/-- Every field stands in the table. -/
@[simp] theorem mem_all (f : Field) : f ∈ all := by
  cases f <;> decide

/-- A field is found under its own name. -/
@[simp] theorem find?_name (f : Field) : find? f.name = some f := by
  cases f <;> decide

/-- The names of two fields differ in more than the case of their letters, so the field that is
found by a name is the one whose name it is. -/
theorem find?_eq_some_iff {name : String} {f : Field} :
    find? name = some f ↔ Text.sameName f.name name = true := by
  constructor
  · intro h
    rw [find?] at h
    have hname := List.find?_some h
    exact hname
  · intro h
    have hlower : Text.lower f.name = Text.lower name := (Text.sameName_iff _ _).mp h
    have hsame : find? name = find? f.name := by
      rw [find?, find?]
      simp only [Text.sameName, hlower]
    rw [hsame, find?_name]

end Field

/-- The wording of a refused value. -/
def FieldError.message : FieldError → String
  | typeMismatch field expected found =>
    "field `" ++ field.name ++ "` expects " ++ expected.name ++ ", got " ++ found.name
  | nullNotAllowed field => "field `" ++ field.name ++ "` cannot be null"
  | unknownCode field code =>
    "field `" ++ field.name ++ "` has unknown code " ++ Number.decimal code

/-! ### Values as contents of a field -/

namespace Value

/-- A value as a text. -/
def asText (field : Field) : Value → Except FieldError String
  | text s => .ok s
  | null => .error (.nullNotAllowed field)
  | v => .error (.typeMismatch field .text v.kind)

/-- A value as an integer that may be missing. -/
def asInteger? (field : Field) : Value → Except FieldError (Option Int64)
  | integer n => .ok (some n)
  | null => .ok none
  | v => .error (.typeMismatch field .integer v.kind)

/-- A value as an instant that may be missing; an integer counts as its milliseconds. -/
def asInstant? (field : Field) : Value → Except FieldError (Option Instant)
  | instant t => .ok (some t)
  | integer n => .ok (some ⟨n⟩)
  | null => .ok none
  | v => .error (.typeMismatch field .timestamp v.kind)

/-- A value as an instant. -/
def asInstant (field : Field) (v : Value) : Except FieldError Instant :=
  match v.asInstant? field with
  | .ok (some t) => .ok t
  | .ok none => .error (.nullNotAllowed field)
  | .error e => .error e

/-- A value as a priority; an integer counts as its code. -/
def asPriority (field : Field) : Value → Except FieldError Priority
  | priority p => .ok p
  | integer n =>
    match Priority.ofCode? n with
    | some p => .ok p
    | none => .error (.unknownCode field n)
  | null => .error (.nullNotAllowed field)
  | v => .error (.typeMismatch field .priority v.kind)

end Value

/-! ### Reading and writing -/

namespace Task

/-- The value of a field. -/
def get (t : Task) : Field → Value
  | .id => .ofInteger? t.id
  | .title => .text t.title
  | .createdOn => .instant t.createdOn
  | .doneOn => .ofInstant? t.doneOn
  | .priority => .priority t.priority
  | .postponedUntil => .ofInstant? t.postponedUntil
  | .createdFrom => .ofInteger? t.createdFrom
  | .dueDate => .ofInstant? t.dueDate

/-- The task with a value written to a field, if the field takes it. -/
def set (t : Task) (f : Field) (v : Value) : Except FieldError Task :=
  match f with
  | .id => (v.asInteger? f).map fun x => { t with id := x }
  | .title => (v.asText f).map fun x => { t with title := x }
  | .createdOn => (v.asInstant f).map fun x => { t with createdOn := x }
  | .doneOn => (v.asInstant? f).map fun x => { t with doneOn := x }
  | .priority => (v.asPriority f).map fun x => { t with priority := x }
  | .postponedUntil => (v.asInstant? f).map fun x => { t with postponedUntil := x }
  | .createdFrom => (v.asInteger? f).map fun x => { t with createdFrom := x }
  | .dueDate => (v.asInstant? f).map fun x => { t with dueDate := x }

/-- The task on which fields are written one after another. -/
def blank : Task where
  title := ""
  createdOn := ⟨0⟩

/-- The value of the field with a name; nothing if there is no such field. -/
def value? (t : Task) (name : String) : Option Value :=
  (Field.find? name).map t.get

/-- A task is determined by the values of its fields. -/
theorem ext_get {s t : Task} (h : ∀ f, s.get f = t.get f) : s = t := by
  have hid := Value.ofInteger?_inj.mp (h .id)
  have htitle := Value.text.inj (h .title)
  have hcreated := Value.instant.inj (h .createdOn)
  have hdone := Value.ofInstant?_inj.mp (h .doneOn)
  have hpriority := Value.priority.inj (h .priority)
  have hpostponed := Value.ofInstant?_inj.mp (h .postponedUntil)
  have hfrom := Value.ofInteger?_inj.mp (h .createdFrom)
  have hdue := Value.ofInstant?_inj.mp (h .dueDate)
  obtain ⟨i, a, c, d, p, u, r, o⟩ := s
  simp_all

end Task

end Taskbook
