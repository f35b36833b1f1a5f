import Taskbook.Table.Reading

/-!
# Insertions

The columns of an insertion are written into its text as they are given, so which columns they
are is known only after the text has been read back: a name may be quoted, be no name at all, or
be several names with commas between them.
-/

namespace Taskbook

namespace Insertion

/-- The text of an insertion with one value for each column. -/
def text (table : String) (columns : List String) : String :=
  let list (items : List String) : String := "(" ++ ", ".intercalate items ++ ")"
  "INSERT INTO " ++ table ++ " " ++ list columns ++ " VALUES " ++ list (columns.map fun _ => "?")

/-- The names of the columns of an insertion and how many values it has. -/
def ofText (statement : String) : Except SqlError (List String × Nat) := do
  let r ← (Reading.ofText statement).expectAll ["INSERT", "INTO"]
  let (_, _, r) ← r.name
  let (columns, r) ← r.names
  let r ← r.expect "VALUES"
  let (values, r) ← r.parenthesized fun r => do return ((), ← r.expect "?")
  r.finish
  return (columns, values.length)

/-- The cells of a row under the names that their columns turn out to have. A name that is no
column is refused before a wrong number of values. -/
def cells (table : String) (isColumn : String → Bool) (row : List (String × Cell)) :
    Except SqlError (List (String × Cell)) := do
  let (names, values) ← ofText (text table (row.map Prod.fst))
  match names.find? fun name => !isColumn name with
  | some stray => throw (.unknownColumn table stray)
  | none =>
    if names.length ≠ values then throw (.valueCount values names.length)
    return names.zip (row.map Prod.snd)

end Insertion

end Taskbook
