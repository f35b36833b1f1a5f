import Taskbook.Proofs.Clause.Meaning
import Taskbook.Proofs.Number.Numerals

/-!
# The Rule of a Column

A database orders the content of a column against an operand by a rule of its own, which is said here
without the order of `Taskbook.Query.Order`: integers by value, texts by their bytes, an integer
operand of a text column by its decimal text. For a text operand of an integer column the blanks of
ASCII around it do not count; what is left is a numeral, against which the integer is exact, or it
is not, and then the integer comes first.

The order in memory follows this rule but for text operands of integer columns. There it departs from
the rule in three ways, each of which this module names.

## Departures

* *Padding.* Blanks outside ASCII are taken off as well, so a numeral between such blanks counts as
  one.
* *Boundlessness.* A numeral below all doubles counts as no numeral, so no integer is above it.
* *Rounding.* Against a numeral that is no integer in range, the column's integer is rounded, so it
  equals the double that it is rounded to.

## Main results

* `Stored.Ruled`: **the rule**, as a relation;
* `Stored.exists_ruled`: the rule gives **one order** for each content and operand;
* `order_follows_rule_iff`: the order in memory follows the rule **exactly where it does not depart**
  from it, and there a leaf holds as the rule says.
-/

namespace Taskbook

open Number

/-- The order of an integer against a numeral, which rounds neither. -/
def Number.Numeral.against (n : Int64) : Numeral → Ordering
  | .integer m => compare n.toInt m.toInt
  | .real x => Binary64.orderInteger n x

/-- A text operand **means** a numeral if that is left where the blanks of ASCII have been taken
off. -/
def Number.Numeral.MeantBy (v : Numeral) (operand : String) : Prop :=
  v.WrittenAs (Text.trimAscii operand).toList

namespace Stored

/-- **The rule**: how the content of a column is ordered against an operand. -/
inductive Ruled : Stored → Stored → Ordering → Prop
  | integers {a b : Int64} : Ruled (integer a) (integer b) (compare a.toInt b.toInt)
  | texts {a b : String} : Ruled (text a) (text b) (compare (Text.bytes a) (Text.bytes b))
  | decimal {a : String} {b : Int64} :
      Ruled (text a) (integer b) (compare (Text.bytes a) (Text.bytes (Number.decimal b)))
  | numeral {n : Int64} {s : String} {v : Numeral} : v.MeantBy s →
      Ruled (integer n) (text s) (v.against n)
  | other {n : Int64} {s : String} : (∀ v : Numeral, ¬v.MeantBy s) →
      Ruled (integer n) (text s) .lt

/-- **Departures** of the order in memory from the rule. -/
inductive Departs : Stored → Stored → Prop
  /-- An integer between blanks outside ASCII, which the column's integer is not below. -/
  | paddedInteger {n m : Int64} {s : String} : (∀ v : Numeral, ¬v.MeantBy s) →
      (Numeral.integer m).WrittenAs (Text.trim s).toList → m.toInt ≤ n.toInt →
      Departs (integer n) (text s)
  /-- Another numeral between such blanks, which the column's integer is not rounded below. -/
  | paddedReal {n : Int64} {x : ℚ} {s : String} : (∀ v : Numeral, ¬v.MeantBy s) →
      (Numeral.real (.finite x)).WrittenAs (Text.trim s).toList →
      (Binary64.ofInt64 n).order (.finite x) ≠ .lt → Departs (integer n) (text s)
  /-- A numeral below all doubles. -/
  | boundless {n : Int64} {s : String} : (Numeral.real (.infinite true)).MeantBy s →
      Departs (integer n) (text s)
  /-- A numeral that the column's integer is rounded to without being it. -/
  | rounded {n : Int64} {x : ℚ} {s : String} : (Numeral.real (.finite x)).MeantBy s →
      Binary64.ofInt64 n = .finite x → (n.toInt : ℚ) ≠ x → Departs (integer n) (text s)

end Stored

/-! ### What a text operand is read as -/

/-- A numeral is written in one way only: characters stand for one numeral at most. -/
theorem Number.Numeral.WrittenAs.unique {v w : Numeral} {cs : List Char} (hv : v.WrittenAs cs)
    (hw : w.WrittenAs cs) : v = w := by
  rw [← String.toList_ofList (l := cs), ← Numeral.read_eq_some_iff] at hv hw
  exact Option.some.inj (hv.symm.trans hw)

/-- A finite number that is rounded to is a double. -/
theorem Number.Numeral.isDouble_of_writtenAs {x : ℚ} {cs : List Char}
    (h : (Numeral.real (.finite x)).WrittenAs cs) : IsDouble x := by
  cases h with
  | real _ _ hx => exact hx.isDouble

/-- Against an operand that is read as a numeral, what decides is that numeral, unless it is
infinite. -/
theorem Number.orderOperand_of_writtenAs {n : Int64} {s : String} {v : Numeral}
    (h : v.WrittenAs (Text.trim s).toList) :
    orderOperand n s = match v with
      | .integer m => compare n.toInt m.toInt
      | .real (.finite x) => (Binary64.ofInt64 n).order (.finite x)
      | .real (.infinite _) => .lt := by
  unfold orderOperand operandNumeral
  rw [Numeral.read_eq_some_iff.mpr h]
  rcases v with m | x | negative <;> rfl

/-- Every integer is below an operand that is read as no numeral. -/
theorem Number.orderOperand_of_not_writtenAs {n : Int64} {s : String}
    (h : ∀ v : Numeral, ¬v.WrittenAs (Text.trim s).toList) : orderOperand n s = .lt := by
  have hnone : Numeral.read (Text.trim s) = none := Option.eq_none_iff_forall_ne_some.mpr fun v hv =>
    h v (Numeral.read_eq_some_iff.mp hv)
  unfold orderOperand operandNumeral
  rw [hnone]

/-! ### The rule and the order -/

namespace Stored

/-- The rule gives **one order** for each content of a column and each operand. -/
theorem exists_ruled {a b : Stored} (ha : a ≠ null) (hb : b ≠ null) :
    ∃ o, ∀ o', a.Ruled b o' ↔ o' = o := by
  cases a with
  | null => exact absurd rfl ha
  | integer n =>
      cases b with
      | null => exact absurd rfl hb
      | integer m => exact ⟨_, fun o => ⟨fun h => by cases h; rfl, fun h => h ▸ .integers⟩⟩
      | text s =>
          by_cases hv : ∃ v : Numeral, v.MeantBy s
          · obtain ⟨v, hv⟩ := hv
            refine ⟨v.against n, fun o => ⟨fun h => ?_, fun h => h ▸ .numeral hv⟩⟩
            cases h with
            | numeral hw => rw [hw.unique hv]
            | other hnone => exact absurd hv (hnone v)
          · rw [not_exists] at hv
            refine ⟨.lt, fun o => ⟨fun h => ?_, fun h => h ▸ .other hv⟩⟩
            cases h with
            | numeral hw => exact absurd hw (hv _)
            | other _ => rfl
  | text s =>
      cases b with
      | null => exact absurd rfl hb
      | integer m => exact ⟨_, fun o => ⟨fun h => by cases h; rfl, fun h => h ▸ .decimal⟩⟩
      | text s' => exact ⟨_, fun o => ⟨fun h => by cases h; rfl, fun h => h ▸ .texts⟩⟩

/-- Where an operand means a numeral, the order follows the rule unless the numeral is below all
doubles or the integer is rounded to it. -/
theorem orderOperand_eq_against_iff {n : Int64} {s : String} {v : Numeral} (hv : v.MeantBy s) :
    orderOperand n s = v.against n ↔ ¬(integer n).Departs (text s) := by
  have hread := hv
  rw [Numeral.MeantBy, ← Numeral.trim_of_writtenAs hv] at hread
  rw [orderOperand_of_writtenAs hread]
  -- An operand that means a numeral departs in no other way than by this numeral.
  have hdeparts : (integer n).Departs (text s) ↔ v = .real (.infinite true) ∨
      ∃ x, v = .real (.finite x) ∧ Binary64.ofInt64 n = .finite x ∧ (n.toInt : ℚ) ≠ x := by
    constructor
    · intro h
      cases h with
      | paddedInteger hnone _ _ => exact absurd hv (hnone v)
      | paddedReal hnone _ _ => exact absurd hv (hnone v)
      | boundless hw => exact .inl (hv.unique hw)
      | rounded hw hround hne => exact .inr ⟨_, hv.unique hw, hround, hne⟩
    · rintro (rfl | ⟨x, rfl, hround, hne⟩)
      · exact .boundless hv
      · exact .rounded hv hround hne
  rw [hdeparts]
  rcases v with m | x | ⟨_ | _⟩
  · simp [Numeral.against]
  · simpa [Numeral.against, Binary64.orderInteger, Binary64.ofInt64] using
      Binary64.order_nearest_eq_iff (q := n.toInt) (Numeral.isDouble_of_writtenAs hv)
  · simp [Numeral.against, Binary64.orderInteger, Binary64.order]
  · simp [Numeral.against, Binary64.orderInteger, Binary64.order]

/-- Where an operand means no numeral, the order follows the rule unless a numeral is left where all
blanks have been taken off, which the integer is not below. -/
theorem orderOperand_eq_lt_iff {n : Int64} {s : String} (hnone : ∀ v : Numeral, ¬v.MeantBy s) :
    orderOperand n s = .lt ↔ ¬(integer n).Departs (text s) := by
  by_cases hv : ∃ v : Numeral, v.WrittenAs (Text.trim s).toList
  · obtain ⟨v, hv⟩ := hv
    rw [orderOperand_of_writtenAs hv]
    have hdeparts : (integer n).Departs (text s) ↔
        (∃ m, v = .integer m ∧ m.toInt ≤ n.toInt) ∨
          ∃ x, v = .real (.finite x) ∧ (Binary64.ofInt64 n).order (.finite x) ≠ .lt := by
      constructor
      · intro h
        cases h with
        | paddedInteger _ hw hle => exact .inl ⟨_, hv.unique hw, hle⟩
        | paddedReal _ hw hle => exact .inr ⟨_, hv.unique hw, hle⟩
        | boundless hw => exact absurd hw (hnone _)
        | rounded hw _ _ => exact absurd hw (hnone _)
      · rintro (⟨m, rfl, hle⟩ | ⟨x, rfl, hle⟩)
        · exact .paddedInteger hnone hv hle
        · exact .paddedReal hnone hv hle
    rw [hdeparts]
    rcases v with m | x | negative
    · simp [compare_lt_iff_lt]
    · simp
    · simp
  · rw [not_exists] at hv
    rw [orderOperand_of_not_writtenAs hv]
    refine iff_of_true rfl fun h => ?_
    cases h with
    | paddedInteger _ hw _ => exact hv _ hw
    | paddedReal _ hw _ => exact hv _ hw
    | boundless hw => exact hnone _ hw
    | rounded hw _ _ => exact hnone _ hw

/-- **The order follows the rule exactly where it does not depart from it.** -/
theorem order_eq_some_iff_not_departs {a b : Stored} {o : Ordering} (h : a.Ruled b o) :
    a.order b = some o ↔ ¬a.Departs b := by
  cases h with
  | integers => exact iff_of_true rfl nofun
  | texts => exact iff_of_true rfl nofun
  | decimal => exact iff_of_true rfl nofun
  | numeral hv => rw [order, Option.some.injEq, orderOperand_eq_against_iff hv]
  | other hnone => rw [order, Option.some.injEq, orderOperand_eq_lt_iff hnone]

end Stored

/-- **Leaf comparison and the rule of a column.** For every field, under whatever spelling of its
name, every value that a task has there and every operand that is no null, the rule gives one order.
The order in memory is that one exactly where it does not depart from the rule, and there `equals`
holds if the rule says that the two are equal and `lessThan` if it says that the task's is below. -/
theorem order_follows_rule_iff {name : String} {f : Field} (hf : Field.find? name = some f)
    {t : Task} (ht : t.get f ≠ .null) {v : Value} (hv : v ≠ .null) :
    ∃ o, (∀ o', (t.row f).Ruled v.stored o' ↔ o' = o) ∧
      ((t.row f).order v.stored = some o ↔ ¬(t.row f).Departs v.stored) ∧
      ∃ equal below, Predicate.equals name v = .ok equal ∧ Predicate.lessThan name v = .ok below ∧
        (¬(t.row f).Departs v.stored →
          (equal.holds t = true ↔ o = .eq) ∧ (below.holds t = true ↔ o = .lt)) := by
  obtain ⟨o, ho⟩ := Stored.exists_ruled (mt Task.row_eq_null_iff.mp ht)
    (mt (Value.stored_eq_null_iff v).mp hv)
  have hiff := Stored.order_eq_some_iff_not_departs ((ho o).mpr rfl)
  obtain ⟨equal, hequal, hholds⟩ := Predicate.make_of_find? (c := .equals) hf fun _ => hv
  obtain ⟨below, hbelow, hholds'⟩ := Predicate.make_of_find? (c := .lessThan) hf fun _ => hv
  refine ⟨o, ho, hiff, equal, below, hequal, hbelow, fun hnot => ?_⟩
  have horder : (t.get f).stored.order v.stored = some o := hiff.mpr hnot
  rw [hholds, hholds', Comparison.holds, Comparison.holds, horder]
  exact ⟨by simp, by simp⟩

/-- The blanks of ASCII around a numeral do not count, nor does the case of the field's name. -/
theorem order_follows_rule_between_blanks :
    let t : Task := { title := "a", createdOn := ⟨1000⟩ }
    let v : Value := .text "\t+1.0E3 "
    (Field.find? "Created_ON" = some .createdOn ∧ t.get .createdOn ≠ .null ∧ v ≠ .null ∧
      ¬(t.row .createdOn).Departs v.stored) ∧
      ∃ o, (∀ o', (t.row .createdOn).Ruled v.stored o' ↔ o' = o) ∧
        ((t.row .createdOn).order v.stored = some o ↔ ¬(t.row .createdOn).Departs v.stored) ∧
        ∃ equal below, Predicate.equals "Created_ON" v = .ok equal ∧
          Predicate.lessThan "Created_ON" v = .ok below ∧
          (¬(t.row .createdOn).Departs v.stored →
            (equal.holds t = true ↔ o = .eq) ∧ (below.holds t = true ↔ o = .lt)) := by
  have hfind : Field.find? "Created_ON" = some .createdOn := by decide
  have hmeant : (Numeral.real (.finite 1000)).MeantBy "\t+1.0E3 " :=
    Numeral.read_eq_some_iff.mp (by decide +kernel)
  have horder : (Stored.integer 1000).order (.text "\t+1.0E3 ") =
      some ((Numeral.real (.finite 1000)).against 1000) := by
    decide +kernel
  have hnot := (Stored.order_eq_some_iff_not_departs (.numeral hmeant)).mp horder
  exact ⟨⟨hfind, by decide, by decide, hnot⟩, order_follows_rule_iff hfind (by decide) (by decide)⟩

/-- **Leaves against the rule**: a numeral between blanks outside ASCII, one below all doubles, and
one that the greatest integer is rounded to. -/
theorem leaves_against_rule :
    let created (n : Int64) : Task := { title := "a", createdOn := ⟨n⟩ }
    let name := Field.createdOn.name
    (((created 5).row .createdOn).Ruled (Value.text "\u00a05").stored .lt ∧
        ∃ p, Predicate.equals name (.text "\u00a05") = .ok p ∧ p.holds (created 5) = true) ∧
      (((created 0).row .createdOn).Ruled (Value.text "-1e400").stored .gt ∧
        ∃ p, Predicate.lessThan name (.text "-1e400") = .ok p ∧ p.holds (created 0) = true) ∧
      (((created Int64.maxValue).row .createdOn).Ruled (Value.text "9223372036854775808").stored .lt ∧
        ∃ p, Predicate.equals name (.text "9223372036854775808") = .ok p ∧
          p.holds (created Int64.maxValue) = true) := by
  refine ⟨⟨.other fun v hv => ?_, _, rfl, by decide +kernel⟩, ⟨?_, _, rfl, by decide +kernel⟩,
    ⟨?_, _, rfl, by decide +kernel⟩⟩
  · have hnone : Numeral.read (Text.trimAscii "\u00a05") = none := by decide +kernel
    exact Option.some_ne_none v ((Numeral.read_eq_some_iff.mpr hv).symm.trans hnone)
  · have hmeant : (Numeral.real (.infinite true)).MeantBy "-1e400" :=
      Numeral.read_eq_some_iff.mp (by decide +kernel)
    exact .numeral (n := 0) hmeant
  · have hmeant : (Numeral.real (.finite (2 ^ 63))).MeantBy "9223372036854775808" :=
      Numeral.read_eq_some_iff.mp (by decide +kernel)
    have hagainst : (Numeral.real (.finite (2 ^ 63))).against Int64.maxValue = .lt := by
      decide +kernel
    have hruled := Stored.Ruled.numeral (n := Int64.maxValue) hmeant
    rwa [hagainst] at hruled

end Taskbook
