import Taskbook.Table.Lexeme

/-!
# Statements Read Lexeme by Lexeme

Reading a statement goes from left to right. The first lexeme that cannot stand where it stands
is refused, and so is a text that ends too soon.
-/

namespace Taskbook

/-- A statement and its lexemes that are still to be read. -/
structure Reading where
  statement : String
  rest : List Lexeme
  deriving DecidableEq, Repr

namespace Reading

/-- A statement of which nothing is read yet. -/
def ofText (statement : String) : Reading := ⟨statement, Lexeme.list statement⟩

/-- The refusal of what comes next. -/
def refusal (r : Reading) : SqlError :=
  match r.rest with
  | [] => .incomplete
  | l :: _ =>
    let e := if l.kind = .broken then .unrecognized l.text else .misplaced l.text
    .located e r.statement l.offset

/-- Whether a word or sign comes next. -/
def sees (r : Reading) (text : String) : Bool :=
  r.rest.head?.any fun l => l.isPlain text

/-- Reads a word or sign. -/
def expect (text : String) (r : Reading) : Except SqlError Reading :=
  if r.sees text then .ok { r with rest := r.rest.drop 1 } else .error r.refusal

/-- Reads words and signs. -/
def expectAll (texts : List String) (r : Reading) : Except SqlError Reading :=
  texts.foldlM (fun r text => r.expect text) r

/-- Reads a name. Answers the lexeme, too. -/
def name (r : Reading) : Except SqlError (Lexeme × String × Reading) :=
  match r.rest with
  | l :: rest =>
    match l.name? with
    | some name => .ok (l, name, { r with rest := rest })
    | none => .error r.refusal
  | [] => .error r.refusal

/-- Reads items between commas, at least one, given a bound on their number. -/
def commaList {α : Type} (item : Reading → Except SqlError (α × Reading)) :
    Nat → Reading → Except SqlError (List α × Reading)
  | 0, r => .error r.refusal
  | bound + 1, r => do
    let (a, r) ← item r
    if r.sees "," then
      let (rest, r) ← commaList item bound (← r.expect ",")
      return (a :: rest, r)
    else return ([a], r)

/-- Reads a list in parentheses. -/
def parenthesized {α : Type} (item : Reading → Except SqlError (α × Reading)) (r : Reading) :
    Except SqlError (List α × Reading) := do
  let r ← r.expect "("
  let (items, r) ← r.commaList item r.rest.length
  return (items, ← r.expect ")")

/-- Reads names in parentheses. -/
def names (r : Reading) : Except SqlError (List String × Reading) :=
  r.parenthesized fun r => do
    let (_, name, r) ← r.name
    return (name, r)

/-- Reads the end of a statement. -/
def finish (r : Reading) : Except SqlError Unit :=
  if r.rest.isEmpty then .ok () else .error r.refusal

end Reading

end Taskbook
