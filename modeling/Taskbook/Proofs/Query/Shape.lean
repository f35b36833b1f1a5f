import Taskbook.Proofs.Query.Agreement
import Taskbook.Query.Clause

/-!
# What a Clause and an Answer Depend On

The text of a clause is made of the names of fields, of operators and of keywords. The expected
values are not in it; only how many there are can be told from it. So predicates of one *shape*,
which differ at most in their expected values, are written alike.

What a predicate selects depends on the columns that it asks for, whatever the engine is. One that
never asks for the title selects a row whatever its title is.

## Main results

* `Predicate.SameShape.clause`: **predicates of one shape are written alike**;
* `Predicate.AvoidsTitle.holds_congr`, `selects_congr`: **what is not asked for makes no
  difference**, in memory and over the rows.
-/

namespace Taskbook

namespace Predicate

/-! ### Shapes -/

/-- Two predicates have the **same shape** if they differ in their expected values only. -/
def SameShape : Predicate → Predicate → Prop
  | always, always => True
  | condition c, condition d => c.field = d.field ∧ c.comparison = d.comparison
  | combine k l r, combine k' l' r' => k = k' ∧ l.SameShape l' ∧ r.SameShape r'
  | _, _ => False

/-- Every predicate has its own shape. -/
theorem SameShape.refl (p : Predicate) : p.SameShape p := by
  induction p with
  | always => trivial
  | condition c => exact ⟨rfl, rfl⟩
  | combine k l r ihl ihr => exact ⟨rfl, ihl, ihr⟩

/-- **Predicates of one shape are written alike**: with the same text and as many operands. -/
theorem SameShape.clause {p q : Predicate} (h : p.SameShape q) :
    p.clause.text = q.clause.text ∧ p.clause.operands.length = q.clause.operands.length := by
  induction p generalizing q with
  | always =>
      cases q with
      | always => exact ⟨rfl, rfl⟩
      | condition _ | combine _ _ _ => exact h.elim
  | condition c =>
      cases q with
      | condition d =>
          obtain ⟨hfield, hcomparison⟩ := h
          simp only [Predicate.clause, Condition.clause, hfield, hcomparison]
          split <;> exact ⟨rfl, rfl⟩
      | always | combine _ _ _ => exact h.elim
  | combine k l r ihl ihr =>
      cases q with
      | combine k' l' r' =>
          obtain ⟨rfl, hl, hr⟩ := h
          obtain ⟨hltext, hlength⟩ := ihl hl
          obtain ⟨hrtext, hrlength⟩ := ihr hr
          simp only [Predicate.clause, Clause.join, hltext, hrtext, List.length_append, hlength,
            hrlength, and_self]
      | always | condition _ => exact h.elim

/-! ### Predicates that do not ask for the title -/

/-- No condition is about the title. -/
def AvoidsTitle (p : Predicate) : Prop :=
  ∀ c ∈ p.conditions, Field.find? c.field ≠ some .title

instance (p : Predicate) : Decidable p.AvoidsTitle :=
  inferInstanceAs (Decidable (∀ c ∈ p.conditions, Field.find? c.field ≠ some .title))

/-- The manager does not ask for titles. -/
theorem avoidsTitle_hasId (id : Int64) : (hasId id).AvoidsTitle := by
  simp [AvoidsTitle, conditions, hasId]

theorem avoidsTitle_always : always.AvoidsTitle := by
  simp [AvoidsTitle, conditions]

theorem avoidsTitle_relevantAt (now : Instant) : (relevantAt now).AvoidsTitle := by
  simp [AvoidsTitle, conditions, relevantAt, missing, before, Predicate.and, Predicate.or]

variable {p : Predicate}

/-- **In memory**, a predicate that avoids the title is about the other fields only. -/
theorem AvoidsTitle.holds_congr (avoids : p.AvoidsTitle) {s t : Task}
    (h : ∀ f ≠ Field.title, s.get f = t.get f) : p.holds s = p.holds t := by
  refine Predicate.holds_congr fun c hc f hf => h f ?_
  rintro rfl
  exact avoids c hc hf

/-- A predicate that avoids the title sees rows alike that differ in their titles only. -/
theorem AvoidsTitle.seesAlike (avoids : p.AvoidsTitle) {a b : Cells}
    (h : ∀ f ≠ Field.title, a f = b f) : p.SeesAlike a b := by
  refine seesAlike_of_conditions fun c hc f hcolumn => h f ?_
  rintro rfl
  rw [Field.column?] at hcolumn
  split at hcolumn
  · next f hf => exact avoids c hc (hf.trans hcolumn)
  · split at hcolumn <;> cases hcolumn

/-- **Over the rows**, a predicate that avoids the title selects a row whatever its title is. -/
theorem AvoidsTitle.selects_congr [Engine] (avoids : p.AvoidsTitle) {a b : Cells}
    (h : ∀ f ≠ Field.title, a f = b f) : p.selects a = p.selects b :=
  Predicate.selects_congr (h .id (by decide)) (avoids.seesAlike h)

end Predicate

end Taskbook
