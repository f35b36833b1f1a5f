import Taskbook.Query.Evaluation
import Taskbook.Table.Engine

/-!
# The Conditions of a Predicate

What can be said of a predicate is mostly said of its conditions, the leaves of the tree from
left to right. This module lists them and names the two classes of predicates that the rest of
the theory speaks of: those whose conditions all name fields of a task, and among them those
that never ask for the id.

A condition carries the proofs of its own well-formedness, so every condition is one that
`Predicate.make` accepts (`Predicate.make_eq`), and the predicates are exactly what can be
built from accepted conditions with `and` and `or`.

What a predicate says of a task or a row is a matter of the fields that its conditions name, and
where it is looked up among the ids, of the conditions on ids.
-/

namespace Taskbook

namespace Predicate

/-- The conditions of a predicate, from left to right. -/
def conditions : Predicate → List Condition
  | always => []
  | condition c => [c]
  | combine _ l r => l.conditions ++ r.conditions

/-- Every condition names a field of a task, in letters of whatever case. -/
def NamesFields (p : Predicate) : Prop :=
  ∀ c ∈ p.conditions, (Field.find? c.field).isSome = true

instance (p : Predicate) : Decidable p.NamesFields :=
  inferInstanceAs (Decidable (∀ c ∈ p.conditions, (Field.find? c.field).isSome = true))

/-- No condition is about the id. -/
def AvoidsId (p : Predicate) : Prop :=
  ∀ c ∈ p.conditions, Field.find? c.field ≠ some .id

instance (p : Predicate) : Decidable p.AvoidsId :=
  inferInstanceAs (Decidable (∀ c ∈ p.conditions, Field.find? c.field ≠ some .id))

/-- A condition is accepted as it is. -/
theorem make_eq (c : Condition) : make c.field c.comparison c.expected = .ok (condition c) := by
  obtain ⟨field, comparison, expected, identifier, carries⟩ := c
  have hne : field ≠ "" := by
    rintro rfl
    exact absurd identifier (by decide)
  cases huse : comparison.usesValue with
  | true => simp_all [make]
  | false =>
      rw [huse] at carries
      obtain rfl := (Value.isNull_iff expected).mp carries
      simp [make, hne, identifier, huse]

/-- The conditions of a joined predicate name fields if those of both parts do. -/
theorem namesFields_combine {k : Combinator} {l r : Predicate} :
    (combine k l r).NamesFields ↔ l.NamesFields ∧ r.NamesFields := by
  simp only [NamesFields, conditions, List.mem_append]
  constructor
  · intro h
    exact ⟨fun c hc => h c (.inl hc), fun c hc => h c (.inr hc)⟩
  · rintro ⟨hl, hr⟩ c (hc | hc)
    · exact hl c hc
    · exact hr c hc

/-- A condition alone names a field if its field is one. -/
theorem namesFields_condition {c : Condition} :
    (condition c).NamesFields ↔ ∃ f, Field.find? c.field = some f := by
  simp [NamesFields, conditions, Option.isSome_iff_exists]

end Predicate

/-! ### Conditions built by name -/

/-- The code of a letter in small. -/
theorem Text.toNat_toLower (c : Char) :
    c.toLower.toNat = if 65 ≤ c.toNat ∧ c.toNat ≤ 90 then c.toNat + 32 else c.toNat := by
  have hupper : (c.val ≥ 'A'.val ∧ c.val ≤ 'Z'.val) ↔ 65 ≤ c.toNat ∧ c.toNat ≤ 90 := by
    simp only [ge_iff_le, UInt32.le_iff_toNat_le]
    rfl
  unfold Char.toLower
  split
  · next h =>
    have hrange := hupper.mp h
    have hadd : (c.val + ('a'.val - 'A'.val)).toNat = c.toNat + 32 := by
      rw [UInt32.toNat_add]
      exact Nat.mod_eq_of_lt (by change c.toNat + 32 < 2 ^ 32; omega)
    rw [if_pos hrange]
    exact hadd
  · next h => rw [if_neg fun hrange => h (hupper.mpr hrange)]

theorem Text.isNameStart_iff_toNat (c : Char) : isNameStart c = true ↔
    65 ≤ c.toNat ∧ c.toNat ≤ 90 ∨ 97 ≤ c.toNat ∧ c.toNat ≤ 122 ∨ c.toNat = 95 := by
  have hline : c = '_' ↔ c.toNat = 95 := by
    rw [← Char.toNat_inj]
    rfl
  have halpha : c.isAlpha = (c.isUpper || c.isLower) := rfl
  have hupper : c.isUpper = decide ('A'.val ≤ c.val ∧ c.val ≤ 'Z'.val) := rfl
  have hlower : c.isLower = (decide ('a'.val ≤ c.val) && decide (c.val ≤ 'z'.val)) := rfl
  simp only [isNameStart, halpha, hupper, hlower, Bool.or_eq_true, Bool.and_eq_true, beq_iff_eq,
    decide_eq_true_eq, UInt32.le_iff_toNat_le, hline, or_assoc]
  rfl

/-- Whether a character can stand in an identifier does not depend on its case. -/
theorem Text.isNameStart_toLower (c : Char) :
    isNameStart c.toLower = isNameStart c ∧ c.toLower.isDigit = c.isDigit := by
  have hlower := toNat_toLower c
  have hzero : '0'.toNat = 48 := rfl
  have hnine : '9'.toNat = 57 := rfl
  constructor
  · rw [Bool.eq_iff_iff, isNameStart_iff_toNat, isNameStart_iff_toNat]
    split at hlower <;> omega
  · rw [Bool.eq_iff_iff, Char.isDigit_iff_toNat, Char.isDigit_iff_toNat]
    split at hlower <;> omega

/-- Whether a text is a plain identifier does not depend on the case of its letters. -/
theorem Text.isIdentifier_lower (s : String) : isIdentifier (lower s) = isIdentifier s := by
  have hchar := isNameStart_toLower
  simp only [isIdentifier, toList_lower]
  cases s.toList with
  | nil => rfl
  | cons c cs => simp [hchar, Function.comp_def]

/-- A name that finds a field is a plain identifier. -/
theorem Field.isIdentifier_of_find? {name : String} {f : Field} (h : find? name = some f) :
    Text.isIdentifier name = true := by
  have hsame := (Text.sameName_iff f.name name).mp (find?_eq_some_iff.mp h)
  rw [← Text.isIdentifier_lower, ← hsame, Text.isIdentifier_lower]
  exact f.isIdentifier_name

/-- A condition on a field, under whatever spelling of its name, is **built** unless a value is
missing, and compares the stored forms. -/
theorem Predicate.make_of_find? {name : String} {f : Field} {c : Comparison} {v : Value}
    (hf : Field.find? name = some f) (hv : c.usesValue = true → v ≠ .null) :
    ∃ p, make name c v = .ok p ∧ ∀ t : Task, p.holds t = c.holds (t.get f).stored v.stored := by
  have hname := Field.isIdentifier_of_find? hf
  have hne : name ≠ "" := by
    rintro rfl
    exact absurd hname (by decide)
  have hvalue (t : Task) : t.value? name = some (t.get f) := by rw [Task.value?, hf, Option.map_some]
  by_cases huses : c.usesValue = true
  · have hnull : ¬v.isNull = true := fun h => hv huses ((v.isNull_iff).mp h)
    rw [make, if_neg hne, dif_pos hname, dif_pos huses, dif_neg hnull]
    exact ⟨_, rfl, fun t => by simp only [holds, Condition.holds, hvalue]⟩
  · rw [make, if_neg hne, dif_pos hname, dif_neg huses]
    refine ⟨_, rfl, fun t => ?_⟩
    simp only [holds, Condition.holds, hvalue]
    cases c with
    | equals | lessThan => exact absurd rfl huses
    | isNull => rfl

/-- The name of a field is the name of its column. -/
theorem Field.column?_of_find? {name : String} {f : Field} (h : Field.find? name = some f) :
    Field.column? name = some f := by
  rw [Field.column?, h]

/-! ### What a predicate depends on -/

namespace Predicate

variable {p : Predicate}

/-- A condition of a predicate that names fields asks for the column of its field. -/
theorem NamesFields.column?_eq (named : p.NamesFields) {c : Condition} (hc : c ∈ p.conditions) :
    Field.column? c.field = Field.find? c.field := by
  obtain ⟨f, hf⟩ := Option.isSome_iff_exists.mp (named c hc)
  rw [hf, Field.column?_of_find? hf]

/-- **In memory** a predicate depends on the fields that its conditions name. -/
theorem holds_congr {s t : Task}
    (h : ∀ c ∈ p.conditions, ∀ f, Field.find? c.field = some f → s.get f = t.get f) :
    p.holds s = p.holds t := by
  induction p with
  | always => rfl
  | condition c =>
      have hvalue : s.value? c.field = t.value? c.field := by
        rw [Task.value?, Task.value?]
        cases hf : Field.find? c.field with
        | none => rfl
        | some f => exact congrArg some (h c List.mem_cons_self f hf)
      rw [holds, holds, Condition.holds, Condition.holds, hvalue]
  | combine k l r ihl ihr =>
      rw [holds, holds, ihl fun c hc => h c (List.mem_append_left _ hc),
        ihr fun c hc => h c (List.mem_append_right _ hc)]

/-- **Over the rows** it depends on the columns that its conditions name. -/
theorem seesAlike_of_conditions {a b : Cells}
    (h : ∀ c ∈ p.conditions, ∀ f, Field.column? c.field = some f → a f = b f) :
    p.SeesAlike a b := by
  induction p with
  | always => trivial
  | condition c => exact h c List.mem_cons_self
  | combine k l r ihl ihr =>
      exact ⟨ihl fun c hc => h c (List.mem_append_left _ hc),
        ihr fun c hc => h c (List.mem_append_right _ hc)⟩

/-- An id is found exactly if each condition on ids finds it. -/
theorem findsExactly_of_conditions {id : Cell}
    (h : ∀ c ∈ p.conditions, Field.column? c.field = some .id → c.comparison = .equals →
      id.FindsExactly c.expected.stored) : p.FindsExactly id := by
  induction p with
  | always => trivial
  | condition c => exact h c List.mem_cons_self
  | combine k l r ihl ihr =>
      exact ⟨ihl fun c hc => h c (List.mem_append_left _ hc),
        ihr fun c hc => h c (List.mem_append_right _ hc)⟩

end Predicate

end Taskbook
