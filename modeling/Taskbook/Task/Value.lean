import Taskbook.Task.Instant
import Taskbook.Task.Priority

/-!
# Values

A *value* is what a field holds or what a filter compares with. Every value has a *stored
form*, a null, an integer or a text: flags are stored as `0` and `1`, instants as
milliseconds and priorities as their codes. Filters compare stored forms, so two values with
one stored form are the same operand.
-/

namespace Taskbook

/-- The kinds of values, as error messages name them. -/
inductive Kind where
  | null
  | integer
  | text
  | bool
  | timestamp
  | priority
  deriving DecidableEq, Repr

/-- The word for a kind. -/
def Kind.name : Kind → String
  | null => "null"
  | integer => "integer"
  | text => "text"
  | bool => "bool"
  | timestamp => "timestamp"
  | priority => "priority"

/-- The content of a field or an operand. -/
inductive Value where
  | null
  | integer (n : Int64)
  | text (s : String)
  | bool (flag : Bool)
  | instant (t : Instant)
  | priority (p : Priority)
  deriving DecidableEq, Repr

/-- The form in which a value is stored and bound to a query. -/
inductive Stored where
  | null
  | integer (n : Int64)
  | text (s : String)
  deriving DecidableEq, Repr

namespace Value

/-- The kind of a value. -/
def kind : Value → Kind
  | null => .null
  | integer _ => .integer
  | text _ => .text
  | bool _ => .bool
  | instant _ => .timestamp
  | priority _ => .priority

/-- Whether a value is the null. -/
def isNull (v : Value) : Bool :=
  v.kind == .null

/-- A value as it is shown. -/
def shown : Value → String
  | null => "null"
  | integer n => Number.decimal n
  | text s => s
  | bool flag => if flag then "true" else "false"
  | instant t => t.text
  | priority p => p.name

/-- The stored form of a value. -/
def stored : Value → Stored
  | null => .null
  | integer n => .integer n
  | text s => .text s
  | bool flag => .integer (if flag then 1 else 0)
  | instant t => .integer t.millis
  | priority p => .integer p.code

/-- The value of an instant that may be missing. -/
def ofInstant? (t : Option Instant) : Value :=
  t.elim null instant

/-- The value of an integer that may be missing. -/
def ofInteger? (n : Option Int64) : Value :=
  n.elim null integer

theorem isNull_iff (v : Value) : v.isNull = true ↔ v = null := by
  cases v <;> simp [isNull, kind]

theorem ofInstant?_inj {s t : Option Instant} : ofInstant? s = ofInstant? t ↔ s = t := by
  cases s <;> cases t <;> simp [ofInstant?]

theorem ofInteger?_inj {m n : Option Int64} : ofInteger? m = ofInteger? n ↔ m = n := by
  cases m <;> cases n <;> simp [ofInteger?]

/-- Only the null is stored as null. -/
@[simp] theorem stored_eq_null_iff (v : Value) : v.stored = .null ↔ v = null := by
  cases v <;> simp [stored]

end Value

/-- A stored form as it is shown. -/
def Stored.shown : Stored → String
  | null => "NULL"
  | integer n => Number.decimal n
  | text s => s

end Taskbook
