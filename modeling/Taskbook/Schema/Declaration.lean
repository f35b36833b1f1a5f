import Taskbook.Table.Reading

/-!
# Declarations of Tables

The name in the declaration of a table is plain text, too. It may be quoted, it may say which
database the table is for, and it may ask for the table only where there is none of its name.

## Refusal convention

The text is read up to the bracket that opens the list of columns. Then the name is looked at,
and the rest of the text is read after that. The word that asks for a table only where there is
none can be a name, but a schema with such a table cannot be read back.
-/

namespace Taskbook

/-- What a declaration says before its columns. -/
structure Declaration where
  /-- The database that the table is for, as written. -/
  schema : Option (Lexeme × String)
  /-- The name of the table, as written and as read. -/
  written : Lexeme
  name : String
  /-- Whether the table is asked for only if there is none of its name. -/
  unlessThere : Bool
  deriving DecidableEq, Repr

namespace Declaration

/-- The word that begins a condition. -/
def conditionWord : String := "if"

/-- The database that a declaration is for if it names none. -/
def mainSchema : String := "main"

/-- The database that lasts as long as its connection. -/
def temporarySchema : String := "temp"

/-- The text of a declaration. -/
def text (name : String) (columns : List String) : String :=
  "CREATE TABLE " ++ name ++ " (" ++ ", ".intercalate columns ++ ")"

/-- Reads a declaration up to its columns. -/
def ofText (statement : String) : Except SqlError (Declaration × Reading) := do
  let r ← (Reading.ofText statement).expectAll ["CREATE", "TABLE"]
  let unlessThere := r.sees conditionWord
  let r ← if unlessThere then r.expectAll [conditionWord, "NOT", "EXISTS"] else .ok r
  let (first, firstName, r) ← r.name
  let (d, r) ←
    if r.sees "." then do
      let (second, name, r) ← (← r.expect ".").name
      pure (Declaration.mk (some (first, firstName)) second name unlessThere, r)
    else pure (Declaration.mk none first firstName unlessThere, r)
  if r.sees "(" then return (d, r) else throw r.refusal

/-- Whether a declaration is for the database that lasts as long as its connection. Only the
two databases that are always there can be meant. -/
def isTemporary (d : Declaration) : Except SqlError Bool :=
  match d.schema with
  | none => .ok false
  | some (written, name) =>
    if Text.sameName name mainSchema then .ok false
    else if Text.sameName name temporarySchema then .ok true
    else .error (.unknownDatabase written.text)

/-- The columns of a declaration, which end it. -/
def columns (r : Reading) : Except SqlError (List String) := do
  let (columns, r) ← r.names
  r.finish
  return columns

/-- Whether a schema with the declared table can be read back. -/
def isReadable (d : Declaration) : Bool :=
  !d.written.isPlain conditionWord

end Declaration

end Taskbook
