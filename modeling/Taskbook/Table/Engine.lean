import Taskbook.Table.Truth

/-!
# Engines: What a Database Leaves Open

A predicate is meant to select the rows that it is true of, but a database does not compare every
row with every condition. It looks rows up, by their ids or in an index, and which way it takes is
its own affair. An *engine* is a database as far as such choices show. Nothing is said of how it
chooses; two laws say what it owes to every statement, and whatever is proved of tables is proved
for all engines.

## Look-up convention

Only integers are looked up among the ids. That makes a difference for a single row: the least
id of all equals a double that no integer column turns into an integer, so a comparison with
that double holds and a look-up finds nothing. An id is *found exactly* by a predicate if every
operand that it is compared with and that equals it is an integer. Such a row is selected if and
only if the predicate is true of it, and any other one may be selected or not.

## Draw convention

After the last id of all a database gives a new row an id at random. It is drawn here as a
function of the ids that are taken, so where two runs are compared they are taken to draw alike.
Nothing else is asked of it; one that is taken would be refused as such.

## Main results

* `Predicate.selects_eq`: a row is selected if and only if the predicate is true of it, provided
  that its id is found exactly;
* `Cell.findsExactly_of_lt`: every id strictly inside the range of integers is found exactly.
-/

namespace Taskbook

/-! ### Ids that are found exactly -/

/-- An id is found by an operand if it equals the operand. -/
def Cell.FindsExactly (id : Cell) (operand : Stored) : Prop :=
  id.order (Affinity.integer.keep operand.cell) = some .eq →
    ∃ n, Affinity.integer.keep operand.cell = .integer n

/-- A double that equals an integer strictly between the least and the greatest one is kept as an
integer. -/
theorem Affinity.exists_keepReal_eq_integer {n : Int64} (low : Int64.minValue.toInt < n.toInt)
    (high : n.toInt < Int64.maxValue.toInt) {x : Number.Binary64}
    (h : (Cell.integer n).order (keepReal x) = some .eq) : ∃ m, keepReal x = .integer m := by
  unfold keepReal at h ⊢
  split
  · exact ⟨_, rfl⟩
  · next hreal =>
    exfalso
    rw [hreal] at h
    cases x with
    | infinite negative =>
        cases negative <;>
          simp [Cell.order, Number.Binary64.orderInteger, Number.Binary64.order] at h
    | finite q =>
        simp only [Cell.order, Number.Binary64.orderInteger, Number.Binary64.order,
          Option.some.injEq] at h
        obtain rfl : q = (n.toInt : Rat) := by
          split at h
          · cases h
          · next hle =>
            split at h
            · cases h
            · next hge => exact Rat.le_antisymm (Rat.not_lt.mp hle) (Rat.not_lt.mp hge)
        have hlow : ¬n.toInt ≤ Int64.minValue.toInt := Int.not_le.mpr low
        have hwhole : (n.toInt : Rat).isInt = true := rfl
        simp [Number.Binary64.integer?, hwhole, high] at hreal
        exact hlow hreal

/-- An id strictly between the least and the greatest integer is found exactly. -/
theorem Cell.findsExactly_of_lt {n : Int64} (low : Int64.minValue.toInt < n.toInt)
    (high : n.toInt < Int64.maxValue.toInt) (operand : Stored) :
    (Cell.integer n).FindsExactly operand := by
  intro h
  cases operand with
  | null => simp [Stored.cell, Affinity.keep, Cell.order] at h
  | integer m => exact ⟨m, rfl⟩
  | text s =>
    simp only [Stored.cell, Affinity.keep, Affinity.keepText] at h ⊢
    split
    · exact ⟨_, rfl⟩
    · next hinteger =>
      rw [hinteger] at h
      dsimp only at h
      split
      · next x hx =>
        rw [hx] at h
        exact Affinity.exists_keepReal_eq_integer low high h
      · next hx =>
        rw [hx] at h
        simp [Cell.order, Cell.rank] at h

namespace Predicate

/-- The operands that a predicate compares an id with find it exactly. -/
def FindsExactly (id : Cell) : Predicate → Prop
  | always => True
  | condition c =>
    Field.column? c.field = some .id → c.comparison = .equals → id.FindsExactly c.expected.stored
  | combine _ left right => left.FindsExactly id ∧ right.FindsExactly id

/-- Two rows hold the same in every column that a predicate asks for. -/
def SeesAlike (a b : Cells) : Predicate → Prop
  | always => True
  | condition c => ∀ f, Field.column? c.field = some f → a f = b f
  | combine _ left right => left.SeesAlike a b ∧ right.SeesAlike a b

/-- The truth of a predicate on a row is a matter of the columns that it asks for. -/
theorem SeesAlike.truth_eq {p : Predicate} {a b : Cells} (h : p.SeesAlike a b) :
    p.truth a = p.truth b := by
  induction p with
  | always => rfl
  | condition c =>
      rw [truth, truth, Condition.truth, Condition.truth]
      cases hf : Field.column? c.field with
      | none => rfl
      | some f => exact congrArg (c.comparison.truth _ · _) (h f hf)
  | combine k l r ihl ihr => rw [truth, truth, ihl h.1, ihr h.2]

end Predicate

/-! ### Engines -/

/-- An **engine**: the choices that a database makes by itself. -/
class Engine where
  /-- Whether the ways that are taken to the rows of a predicate lead to a row. -/
  reaches : Predicate → Cells → Bool
  /-- A row whose id is found exactly is reached if and only if the predicate is true of it. -/
  reaches_eq : ∀ {p : Predicate} {cells : Cells}, p.FindsExactly (cells .id) →
    reaches p cells = (p.truth cells == .yes)
  /-- What a predicate does not ask for makes no difference between rows with one id. -/
  reaches_congr : ∀ {p : Predicate} {a b : Cells}, a .id = b .id → p.SeesAlike a b →
    reaches p a = reaches p b
  /-- The id that is given to a new row after the last id of all, whatever ids are taken. -/
  draw : List Int64 → Int64

/-- The least positive id that is not taken. -/
def firstFreeId (ids : List Int64) : Int64 :=
  let candidates := (List.range (ids.length + 1)).map fun n => Int64.ofNat (n + 1)
  (candidates.find? fun id => !ids.contains id).getD 1

/-- The engine that looks nothing up and compares every row. -/
@[reducible] def Engine.scanning : Engine where
  reaches p cells := p.truth cells == .yes
  reaches_eq _ := rfl
  reaches_congr _ h := by rw [h.truth_eq]
  draw := firstFreeId

namespace Predicate

variable [Engine] {p : Predicate}

/-- Whether a predicate **selects** a row. -/
def selects (p : Predicate) (cells : Cells) : Bool :=
  Engine.reaches p cells

/-- A row is selected if and only if the predicate is true of it, where its id is found exactly. -/
theorem selects_eq {cells : Cells} (h : p.FindsExactly (cells .id)) :
    p.selects cells = (p.truth cells == .yes) :=
  Engine.reaches_eq h

/-- Rows with one id are selected alike if they hold the same in the columns that are asked for. -/
theorem selects_congr {a b : Cells} (hid : a .id = b .id) (h : p.SeesAlike a b) :
    p.selects a = p.selects b :=
  Engine.reaches_congr hid h

end Predicate

end Taskbook
