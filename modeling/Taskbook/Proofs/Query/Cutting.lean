import Taskbook.Proofs.Clause.Meaning
import Taskbook.Proofs.Number.Nearest

/-!
# Leaves Cut Their Column

The values of a column have an order of their own: integers by value, titles by their bytes. An
operand need not be a value of the column, and its comparison with one follows one of five rules, of
which the rounding of integers to doubles keeps the order only weakly. Yet every operand cuts the
column in one place: going up the column, what is below the operand comes first, then what is equal
to it, then what is above.

## Null convention

A null is no value of the column. It is matched by neither `lessThan` nor `equals`, and by
`lessThanOrNull` always.

## Main results

* `Stored.order_mono`: **an operand is compared monotonically**, whatever its kind;
* `exists_cuts`: the leaves on a field with one operand can be built, and **they cut the column**.
-/

namespace Taskbook

open Number

/-! ### The order of a column -/

/-- Content of a column that is **not above** other content of it. -/
inductive Stored.AtMost : Stored → Stored → Prop
  | integer {a b : Int64} : a.toInt ≤ b.toInt → AtMost (integer a) (integer b)
  | text {a b : String} : Text.byteOrder a b ≠ .gt → AtMost (text a) (text b)

/-- A null is no value of a column. -/
theorem Stored.not_atMost_null (a : Stored) : ¬a.AtMost null := nofun

/-- Only the title is a text; what other fields hold is an integer. -/
theorem Task.row_cases (t : Task) {f : Field} (ht : t.get f ≠ .null) :
    f = .title ∧ t.row f = .text t.title ∨ f ≠ .title ∧ ∃ n, t.row f = .integer n := by
  cases f with
  | title => exact .inl ⟨rfl, rfl⟩
  | createdOn | priority => exact .inr ⟨nofun, _, rfl⟩
  | id => cases h : t.id <;> simp_all [row, get, Value.ofInteger?, Value.stored]
  | doneOn => cases h : t.doneOn <;> simp_all [row, get, Value.ofInstant?, Value.stored]
  | postponedUntil =>
      cases h : t.postponedUntil <;> simp_all [row, get, Value.ofInstant?, Value.stored]
  | createdFrom => cases h : t.createdFrom <;> simp_all [row, get, Value.ofInteger?, Value.stored]
  | dueDate => cases h : t.dueDate <;> simp_all [row, get, Value.ofInstant?, Value.stored]

/-- Of two values of a column one is not above the other. -/
theorem Task.row_total {s t : Task} {f : Field} (hs : s.get f ≠ .null) (ht : t.get f ≠ .null) :
    (s.row f).AtMost (t.row f) ∨ (t.row f).AtMost (s.row f) := by
  rcases s.row_cases hs with ⟨hf, hs⟩ | ⟨hf, n, hs⟩ <;>
    rcases t.row_cases ht with ⟨hf', ht⟩ | ⟨hf', m, ht⟩
  · rw [hs, ht]
    by_cases h : Text.byteOrder s.title t.title = .gt
    · refine .inr (.text ?_)
      rw [Text.byteOrder, Std.OrientedCmp.gt_iff_lt] at h
      rw [Text.byteOrder, h]
      decide
    · exact .inl (.text h)
  · exact absurd hf hf'
  · exact absurd hf' hf
  · rw [hs, ht]
    exact (le_total n.toInt m.toInt).imp .integer .integer

/-! ### Operands -/

/-- Two outcomes of comparing with one operand, of which the first belongs to what is not above the
second: whatever the second is not above, neither is the first. -/
def Precedes (a b : Ordering) : Prop :=
  (b = .lt → a = .lt) ∧ (b.isLE = true → a.isLE = true)

/-- An order that is transitive cuts what it orders. -/
theorem precedes_of_transCmp {α : Type} {cmp : α → α → Ordering} [Std.TransCmp cmp] {a b : α}
    (h : (cmp a b).isLE = true) (c : α) : Precedes (cmp a c) (cmp b c) :=
  ⟨Std.TransCmp.lt_of_isLE_of_lt h, Std.TransCmp.isLE_trans h⟩

/-- An integer column takes a text operand in its order: as an integer, as a double that the
column's integers are rounded for, or as above all integers. -/
theorem Number.orderOperand_mono {a b : Int64} (h : a.toInt ≤ b.toInt) (operand : String) :
    Precedes (orderOperand a operand) (orderOperand b operand) := by
  unfold orderOperand
  cases operandNumeral operand with
  | none => exact ⟨id, id⟩
  | some v =>
      cases v with
      | integer m => exact precedes_of_transCmp (Std.isLE_compare.mpr h) m.toInt
      | real x =>
          have hround : ((Binary64.ofInt64 a).order (Binary64.ofInt64 b)).isLE = true :=
            Binary64.nearest_mono (by exact_mod_cast h)
          exact precedes_of_transCmp hround x

/-- **An operand is compared monotonically**: going down a column, the outcome does not go up. -/
theorem Stored.order_mono {a b v : Stored} (h : a.AtMost b) (hv : v ≠ .null) :
    ∃ o o', a.order v = some o ∧ b.order v = some o' ∧ Precedes o o' := by
  cases h with
  | integer h =>
      cases v with
      | null => exact absurd rfl hv
      | integer m => exact ⟨_, _, rfl, rfl, precedes_of_transCmp (Std.isLE_compare.mpr h) m.toInt⟩
      | text s => exact ⟨_, _, rfl, rfl, Number.orderOperand_mono h s⟩
  | text h =>
      have hle : (compare (Text.bytes _) (Text.bytes _)).isLE = true := Ordering.ne_gt_iff_isLE.mp h
      cases v with
      | null => exact absurd rfl hv
      | integer m => exact ⟨_, _, rfl, rfl, precedes_of_transCmp hle (Text.bytes (decimal m))⟩
      | text s => exact ⟨_, _, rfl, rfl, precedes_of_transCmp hle (Text.bytes s)⟩

/-! ### Lists in ascending order -/

/-- A list in which a property holds of whatever comes before something that has it begins with the
elements that have it. -/
theorem filter_append_of_downward {α : Type} {r : α → α → Prop} {p : α → Bool}
    (hp : ∀ a b, r a b → p b = true → p a = true) {xs : List α} (h : xs.Pairwise r) :
    xs.filter p ++ xs.filter (fun a => !p a) = xs := by
  induction xs with
  | nil => rfl
  | cons x xs ih =>
      obtain ⟨hx, hxs⟩ := List.pairwise_cons.mp h
      cases hpx : p x with
      | true => rw [List.filter_cons_of_pos hpx, List.filter_cons_of_neg (by simp [hpx]),
          List.cons_append, ih hxs]
      | false =>
          have hnone : ∀ a ∈ xs, ¬p a = true := fun a ha hpa => by
            rw [hp x a (hx a ha) hpa] at hpx
            cases hpx
          rw [List.filter_cons_of_neg (by simp [hpx]), List.filter_eq_nil_iff.mpr hnone,
            List.nil_append, List.filter_eq_self.mpr]
          simpa [hpx] using hnone

/-! ### The leaves -/

/-- Two leaves on a field with one operand, which hold as the order of stored forms says. -/
structure Leaves (f : Field) (v : Value) (below equal : Predicate) : Prop where
  below_iff : ∀ t : Task, below.holds t = true ↔ (t.row f).order v.stored = some .lt
  equal_iff : ∀ t : Task, equal.holds t = true ↔ (t.row f).order v.stored = some .eq

/-- Leaves on a field with one operand **cut its column** in one place. -/
structure Cuts (f : Field) (v : Value) (below equal belowOrNull : Predicate) : Prop where
  /-- The values of the column are ordered: of two of them one is not above the other. -/
  total : ∀ {s t : Task}, s.get f ≠ .null → t.get f ≠ .null →
    (s.row f).AtMost (t.row f) ∨ (t.row f).AtMost (s.row f)
  below_downward : ∀ {s t : Task}, (s.row f).AtMost (t.row f) → below.holds t = true →
    below.holds s = true
  equal_downward : ∀ {s t : Task}, (s.row f).AtMost (t.row f) → equal.holds t = true →
    equal.holds s = true ∨ below.holds s = true
  above_upward : ∀ {s t : Task}, (s.row f).AtMost (t.row f) →
    equal.holds s = false ∧ below.holds s = false → equal.holds t = false ∧ below.holds t = false
  apart : ∀ t : Task, ¬(below.holds t = true ∧ equal.holds t = true)
  nulls : ∀ t : Task, t.get f = .null → below.holds t = false ∧ equal.holds t = false
  /-- Values in ascending order are split into those below the operand, those equal to it and
  those above. -/
  split : ∀ ts : List Task, (∀ t ∈ ts, t.get f ≠ .null) →
    ts.Pairwise (fun s t => (s.row f).AtMost (t.row f)) →
    ts.filter below.holds ++ (ts.filter equal.holds ++
      ts.filter fun t => (t.row f).order v.stored == some .gt) = ts
  belowOrNull_iff : ∀ t : Task, belowOrNull.holds t = true ↔ below.holds t = true ∨ t.get f = .null
  belowOrNull_downward : ∀ {s t : Task}, (s.row f).AtMost (t.row f) →
    belowOrNull.holds t = true → belowOrNull.holds s = true

namespace Leaves

variable {f : Field} {v : Value} {below equal belowOrNull : Predicate} {s t : Task}

theorem below_downward (h : Leaves f v below equal) (hv : v.stored ≠ .null)
    (hst : (s.row f).AtMost (t.row f)) (hbelow : below.holds t = true) : below.holds s = true := by
  obtain ⟨o, o', ho, ho', hlt, -⟩ := Stored.order_mono hst hv
  rw [h.below_iff, ho'] at hbelow
  rw [h.below_iff, ho, hlt (Option.some.inj hbelow)]

theorem equal_downward (h : Leaves f v below equal) (hv : v.stored ≠ .null)
    (hst : (s.row f).AtMost (t.row f)) (hequal : equal.holds t = true) :
    equal.holds s = true ∨ below.holds s = true := by
  obtain ⟨o, o', ho, ho', -, hle⟩ := Stored.order_mono hst hv
  rw [h.equal_iff, ho'] at hequal
  have hle' := hle (by rw [Option.some.inj hequal]; rfl)
  rw [h.below_iff, h.equal_iff, ho]
  rcases Ordering.isLE_iff_eq_lt_or_eq_eq.mp hle' with rfl | rfl
  · exact .inr rfl
  · exact .inl rfl

theorem apart (h : Leaves f v below equal) (t : Task) :
    ¬(below.holds t = true ∧ equal.holds t = true) := by
  rintro ⟨hbelow, hequal⟩
  rw [h.below_iff] at hbelow
  rw [h.equal_iff, hbelow] at hequal
  cases hequal

/-- What neither leaf matches stands above the operand, unless it is null. -/
theorem neither_eq (h : Leaves f v below equal) (hv : v.stored ≠ .null) (ht : t.row f ≠ .null) :
    (!(below.holds t || equal.holds t)) = ((t.row f).order v.stored == some .gt) := by
  have horder : (t.row f).order v.stored ≠ none := fun hnone =>
    ((Stored.order_eq_none_iff _ _).mp hnone).elim ht hv
  obtain ⟨o, ho⟩ := Option.ne_none_iff_exists'.mp horder
  have hbelow := h.below_iff t
  have hequal := h.equal_iff t
  rw [ho] at hbelow hequal ⊢
  rw [Bool.eq_iff_iff, Bool.not_eq_true', Bool.or_eq_false_iff, ← Bool.not_eq_true,
    ← Bool.not_eq_true, hbelow, hequal, beq_iff_eq]
  cases o <;> decide

/-- Values in ascending order are split in two places. -/
theorem split (h : Leaves f v below equal) (hv : v.stored ≠ .null) {ts : List Task}
    (hts : ts.Pairwise fun s t => (s.row f).AtMost (t.row f)) :
    ts.filter below.holds ++ (ts.filter equal.holds ++
      ts.filter fun t => !(below.holds t || equal.holds t)) = ts := by
  have houter := filter_append_of_downward (p := fun t => below.holds t || equal.holds t)
    (fun s t hst ht => by
      rw [Bool.or_eq_true] at ht ⊢
      exact ht.elim (fun ht => .inl (h.below_downward hv hst ht)) fun ht =>
        (h.equal_downward hv hst ht).symm) hts
  -- What is below or equal is itself in ascending order, so it begins with what is below.
  have hinner := filter_append_of_downward (fun s t hst ht => h.below_downward hv hst ht)
    (hts.filter fun t => below.holds t || equal.holds t)
  have hleft : (ts.filter fun t => below.holds t || equal.holds t).filter below.holds =
      ts.filter below.holds := by
    rw [List.filter_filter]
    refine List.filter_congr fun t _ => ?_
    cases below.holds t <;> simp
  have hright : ((ts.filter fun t => below.holds t || equal.holds t).filter fun t =>
      !below.holds t) = ts.filter equal.holds := by
    rw [List.filter_filter]
    refine List.filter_congr fun t _ => ?_
    have := h.apart t
    cases hbelow : below.holds t <;> simp_all
  rw [hleft, hright] at hinner
  rw [← List.append_assoc, hinner, houter]

/-- **Leaves that hold as the order says cut their column.** -/
theorem cuts (h : Leaves f v below equal) (hv : v.stored ≠ .null)
    (hor : ∀ t : Task, belowOrNull.holds t = true ↔ below.holds t = true ∨ t.get f = .null) :
    Cuts f v below equal belowOrNull where
  total := Task.row_total
  below_downward := h.below_downward hv
  equal_downward := h.equal_downward hv
  above_upward {s t} hst hs := by
    rw [← Bool.not_eq_true, ← Bool.not_eq_true] at hs ⊢
    exact ⟨fun ht => (h.equal_downward hv hst ht).elim hs.1 hs.2, fun ht =>
      hs.2 (h.below_downward hv hst ht)⟩
  apart := h.apart
  nulls t ht := by
    have hnone : (t.row f).order v.stored = none := by
      rw [Task.row_eq_null_iff.mpr ht, Stored.order_null_left]
    rw [← Bool.not_eq_true, ← Bool.not_eq_true, h.below_iff, h.equal_iff, hnone]
    exact ⟨nofun, nofun⟩
  split ts hts hsorted := by
    have hrow (t : Task) (ht : t ∈ ts) : t.row f ≠ .null := mt Task.row_eq_null_iff.mp (hts t ht)
    rw [← List.filter_congr fun t ht => h.neither_eq hv (hrow t ht)]
    exact h.split hv hsorted
  belowOrNull_iff := hor
  belowOrNull_downward {s t} hst ht := by
    rw [hor] at ht ⊢
    refine ht.imp (h.below_downward hv hst) fun hnull => ?_
    rw [Task.row_eq_null_iff.mpr hnull] at hst
    exact absurd hst (Stored.not_atMost_null _)

end Leaves

/-- The leaves on a field with one operand are **built**, and **they cut its column**, whatever the
kind of the operand and whatever the case of the field's name. -/
theorem exists_cuts {name : String} {f : Field} (hf : Field.find? name = some f) {v : Value}
    (hv : v ≠ .null) :
    ∃ below equal belowOrNull, Predicate.lessThan name v = .ok below ∧
      Predicate.equals name v = .ok equal ∧ Predicate.lessThanOrNull name v = .ok belowOrNull ∧
      Cuts f v below equal belowOrNull := by
  obtain ⟨below, hbelow, hbelow'⟩ := Predicate.make_of_find? (c := .lessThan) hf fun _ => hv
  obtain ⟨equal, hequal, hequal'⟩ := Predicate.make_of_find? (c := .equals) hf fun _ => hv
  obtain ⟨missing, hmissing, hmissing'⟩ :=
    Predicate.make_of_find? (c := .isNull) (v := .null) hf nofun
  have hleaves : Leaves f v below equal :=
    { below_iff := fun t => by rw [hbelow', Comparison.holds, beq_iff_eq, Task.row]
      equal_iff := fun t => by rw [hequal', Comparison.holds, beq_iff_eq, Task.row] }
  have hstored : v.stored ≠ .null := mt (Value.stored_eq_null_iff v).mp hv
  refine ⟨below, equal, below.or missing, hbelow, hequal, ?_, hleaves.cuts hstored fun t => ?_⟩
  · rw [Predicate.lessThanOrNull, Predicate.lessThan, hbelow, Predicate.isNull, hmissing]
    rfl
  · rw [Predicate.holds_or, Bool.or_eq_true, hmissing', Comparison.holds, beq_iff_eq,
      Value.stored_eq_null_iff]

/-- A numeral between two doubles cuts a column of integers, under another spelling of its name. -/
theorem exists_cuts_between_doubles :
    Field.find? "Due_DATE" = some .dueDate ∧ Value.text " 9007199254740992.5" ≠ .null ∧
      ∃ below equal belowOrNull,
        Predicate.lessThan "Due_DATE" (.text " 9007199254740992.5") = .ok below ∧
        Predicate.equals "Due_DATE" (.text " 9007199254740992.5") = .ok equal ∧
        Predicate.lessThanOrNull "Due_DATE" (.text " 9007199254740992.5") = .ok belowOrNull ∧
        Cuts .dueDate (.text " 9007199254740992.5") below equal belowOrNull :=
  ⟨by decide, nofun, exists_cuts (by decide) nofun⟩

end Taskbook
