import Taskbook.Table.Truth

/-!
# Plans: How Rows Can Be Reached

One way to the rows that a predicate selects, without comparing every row with every condition: an
equality on the id is looked up in the table, and the conditions on when a task was done in the
index on them. A *plan* is the list of the *ways* to the rows: ids to look up, if there are any, and
what is checked of the rows found. A row is reached if one of the ways leads to it.

## Look-up convention

Of several operands that equal an id and are looked up together, the last one decides.

## Choice convention

A predicate is a conjunction of *terms*. Each way looks up one term and checks the others, and
the term whose look-up costs least is chosen: the first of those, but the last if the first is a
list of ids. A disjunction can be looked up if all its alternatives can, each of them a
conjunction with a choice of its own; where it is a term of the whole predicate, it costs
twice what its alternatives cost together. If no term can be looked up, every row is checked.

What a look-up costs is an estimate. A database may choose otherwise, and that can show in the row
with the least id. No more is proved of the choice than that it is a lawful one
(`Taskbook.Table.Planning`).
-/

namespace Taskbook

/-- One way to rows of a table: the operands that are looked up as their ids, if there are any,
and what the rows are checked for. -/
structure Way where
  keys : Option (List Stored)
  checks : List Predicate
  deriving DecidableEq, Repr

namespace Way

/-- Whether looking up operands together finds an id. -/
def finds (operands : List Stored) (id : Cell) : Bool :=
  let equal (c : Cell) : Bool := id.order c == some .eq
  match (operands.map fun s => Affinity.integer.keep s.cell).reverse.find? equal with
  | some (.integer _) => true
  | _ => false

/-- Whether a way leads to a row. -/
def reaches (w : Way) (cells : Cells) : Bool :=
  (w.keys.all fun operands => finds operands (cells .id)) &&
    w.checks.all fun p => p.truth cells == .yes

end Way

/-- The ways to the rows of a term and what looking it up costs. -/
structure Route where
  cost : Nat
  ways : List Way
  deriving DecidableEq, Repr

/-- The ways to the rows of several terms. -/
def Route.joined (routes : List Route) : Route where
  cost := routes.foldl (fun n r => n + r.cost) 0
  ways := routes.flatMap ways

/-- What a term of a conjunction is: an equality on the id, a list of such equalities, another
condition on a column, a condition on a constant, or another disjunction. -/
inductive TermKind where
  | key (operand : Stored)
  | keys
  | column
  | constant
  | disjunction
  deriving DecidableEq, Repr

namespace TermKind

/-- Whether a term is about the content of a single column. -/
def isOnColumn : TermKind → Bool
  | key _ | keys | column => true
  | constant | disjunction => false

/-- The operand of an equality on the id. -/
def key? : TermKind → Option Stored
  | key operand => some operand
  | _ => none

end TermKind

/-- A term of a conjunction and the route to its rows, if it can be looked up. -/
structure Term where
  predicate : Predicate
  kind : TermKind
  route : Option Route
  deriving DecidableEq, Repr

namespace Term

/-- A condition as a term. What it costs to look up grows with the rows to be expected. -/
def ofCondition (c : Condition) : Term :=
  let p := Predicate.condition c
  match Field.column? c.field, c.comparison with
  | some .id, .equals =>
    let operand := c.expected.stored
    ⟨p, .key operand, some ⟨1, [⟨some [operand], []⟩]⟩⟩
  | some .doneOn, .equals => ⟨p, .column, some ⟨10, [⟨none, [p]⟩]⟩⟩
  | some .doneOn, .isNull => ⟨p, .column, some ⟨20, [⟨none, [p]⟩]⟩⟩
  | some _, _ => ⟨p, .column, none⟩
  | none, _ => ⟨p, .constant, none⟩

/-- The term to look up in a conjunction and its number, given what each costs. -/
def choose (cost : Term → Option Nat) (terms : List Term) : Option (Term × Nat) :=
  let least := (terms.filterMap cost).min?
  let tied := terms.zipIdx.filter fun t => least.isSome && cost t.1 == least
  match tied.head? with
  | some (t, i) => if t.kind = .keys then tied.getLast? else some (t, i)
  | none => none

/-- The route to the rows of a conjunction, if one of its terms can be looked up. -/
def conjunctionRoute? (cost : Term → Option Nat) (terms : List Term) : Option Route := do
  let (chosen, i) ← choose cost terms
  let route ← chosen.route
  let others := (terms.eraseIdx i).map predicate
  return { route with ways := route.ways.map fun w => { w with checks := w.checks ++ others } }

/-- What it costs to look up a term of an alternative. -/
def innerCost (t : Term) : Option Nat :=
  t.route.map Route.cost

/-- What it costs to look up a term of the whole predicate. -/
def outerCost (t : Term) : Option Nat :=
  t.innerCost.map fun n => if t.kind = .disjunction then 2 * n else n

/-- The route to the rows of an alternative. One with several terms must have one that is about
a column. -/
def alternativeRoute? (terms : List Term) : Option Route :=
  if terms.length = 1 ∨ terms.any fun t => t.kind.isOnColumn then
    conjunctionRoute? innerCost terms
  else none

/-- The operands of a list of equalities on the id. -/
def keyList? (alternatives : List (List Term)) : Option (List Stored) :=
  alternatives.mapM fun
    | [t] => t.kind.key?
    | _ => none

/-- A disjunction as a term, given the terms of its alternatives. -/
def ofAlternatives (p : Predicate) (alternatives : List (List Term)) : Term :=
  match keyList? alternatives with
  | some keys => ⟨p, .keys, some ⟨keys.length, [⟨some keys, []⟩]⟩⟩
  | none =>
    ⟨p, .disjunction, (alternatives.mapM alternativeRoute?).map Route.joined⟩

end Term

namespace Predicate

mutual

/-- The terms of a predicate as a conjunction. -/
def terms : Predicate → List Term
  | combine .and left right => left.terms ++ right.terms
  | combine .or left right =>
    [.ofAlternatives (combine .or left right) (left.alternatives ++ right.alternatives)]
  | condition c => [.ofCondition c]
  | always => [⟨always, .constant, none⟩]

/-- The alternatives of a predicate as a disjunction, each with its terms. -/
def alternatives : Predicate → List (List Term)
  | combine .or left right => left.alternatives ++ right.alternatives
  | combine .and left right => [left.terms ++ right.terms]
  | condition c => [[.ofCondition c]]
  | always => [[⟨always, .constant, none⟩]]

end

/-- The ways to the rows of a predicate. -/
def plan (p : Predicate) : List Way :=
  match Term.conjunctionRoute? Term.outerCost p.terms with
  | some route => route.ways
  | none => [⟨none, [p]⟩]

/-- Whether the plan of a predicate leads to a row. -/
def leadsTo (p : Predicate) (cells : Cells) : Bool :=
  p.plan.any fun w => w.reaches cells

end Predicate

end Taskbook
