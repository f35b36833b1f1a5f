import Taskbook.Proofs.Clause.Meaning
import Taskbook.Proofs.Query.Shape
import Taskbook.Proofs.Task.Access

/-!
# What a Clause Tells of Its Predicate

A clause is a flat text and a flat list of operands. The nesting of the predicate has gone into
parentheses, its fields and comparisons into words, and its expected values, in their stored forms,
into one list without marks between the leaves. All of it can be taken back: the text tells the tree,
since the grammar is unambiguous, and the tree tells how many operands belong to each part. What is
lost is the kind of an expected value, so `true`, the integer `1` and the first millisecond are one.

A predicate is therefore compared by its *stored form*, in which each expected value is replaced by
the value of its stored form. It is a predicate again, with the same clause.

## Main results

* `Predicate.tree_eq_iff`: **a tree is a shape**: predicates have one tree if they differ in their
  expected values only;
* `Predicate.inStoredForm_eq_of_tree`: trees and operands together **tell the stored form**;
* `Predicate.clause_unambiguous`: **compilation is unambiguous**.
-/

namespace Taskbook

/-- Every stored form is that of its value. -/
@[simp] theorem Stored.stored_value (v : Stored) : v.value.stored = v := by
  cases v <;> rfl

/-- Null values have a null stored form, and no others. -/
theorem Value.isNull_stored_value (v : Value) : v.stored.value.isNull = v.isNull := by
  cases v <;> rfl

/-- A condition with its expected value **in stored form**. -/
def Condition.inStoredForm (c : Condition) : Condition where
  field := c.field
  comparison := c.comparison
  expected := c.expected.stored.value
  identifier := c.identifier
  carries := c.expected.isNull_stored_value.trans c.carries

/-- Conditions have one stored form if they compare one field in one way with expected values of one
stored form. -/
theorem Condition.inStoredForm_eq_iff {c d : Condition} :
    c.inStoredForm = d.inStoredForm ↔
      c.field = d.field ∧ c.comparison = d.comparison ∧ c.expected.stored = d.expected.stored := by
  constructor
  · intro h
    have hfield := congrArg Condition.field h
    have hcomparison := congrArg Condition.comparison h
    have hexpected : c.expected.stored.value = d.expected.stored.value :=
      congrArg Condition.expected h
    refine ⟨hfield, hcomparison, ?_⟩
    rw [← Stored.stored_value c.expected.stored, hexpected, Stored.stored_value]
  · rintro ⟨hfield, hcomparison, hexpected⟩
    simp only [inStoredForm, hfield, hcomparison, hexpected]

namespace Predicate

/-- A predicate with all its expected values **in stored form**. -/
def inStoredForm : Predicate → Predicate
  | always => always
  | condition c => condition c.inStoredForm
  | combine k l r => combine k l.inStoredForm r.inStoredForm

/-- A predicate in stored form is written as the predicate is. -/
theorem clause_inStoredForm (p : Predicate) : p.inStoredForm.clause = p.clause := by
  induction p with
  | always => rfl
  | condition c =>
      simp only [inStoredForm, clause, Condition.clause, Condition.inStoredForm,
        Stored.stored_value]
  | combine k l r ihl ihr => simp only [inStoredForm, clause, ihl, ihr]

/-- A predicate in stored form holds where the predicate does. -/
theorem holds_inStoredForm (p : Predicate) (t : Task) : p.inStoredForm.holds t = p.holds t := by
  induction p with
  | always => rfl
  | condition c =>
      simp only [inStoredForm, holds, Condition.holds, Condition.inStoredForm, Stored.stored_value]
  | combine k l r ihl ihr => simp only [inStoredForm, holds, ihl, ihr]

/-- **A tree is a shape**: predicates have one tree if they differ in their expected values only. -/
theorem tree_eq_iff {p q : Predicate} : p.tree = q.tree ↔ p.SameShape q := by
  induction p generalizing q with
  | always => cases q <;> simp [tree, SameShape]
  | condition c => cases q <;> simp [tree, SameShape]
  | combine k l r ihl ihr =>
      cases q with
      | combine k' l' r' => simp [tree, SameShape, ihl, ihr]
      | always | condition _ => simp [tree, SameShape]

/-- **The text of a clause tells the tree**, whatever identifiers are the names of its fields. -/
theorem tree_eq_of_text {p q : Predicate} (h : p.clause.text = q.clause.text) : p.tree = q.tree :=
  p.spells_tree.unique (h ▸ q.spells_tree)

/-- A condition is told by its tree and its operands. -/
theorem condition_inStoredForm_eq {c d : Condition} (htree : (condition c).tree = (condition d).tree)
    (hoperands : c.clause.operands = d.clause.operands) : c.inStoredForm = d.inStoredForm := by
  simp only [tree, ClauseTree.compare.injEq] at htree
  obtain ⟨hfield, hcomparison⟩ := htree
  refine Condition.inStoredForm_eq_iff.mpr ⟨hfield, hcomparison, ?_⟩
  simp only [Condition.clause, hcomparison] at hoperands
  split at hoperands
  · exact (List.cons.inj hoperands).1
  · next huses =>
    -- Where no value is used there is none on either side.
    have hnull (e : Condition) (he : e.comparison = d.comparison) : e.expected = .null := by
      rw [← Value.isNull_iff, e.carries, he, Bool.eq_false_iff.mpr huses, Bool.not_false]
    rw [hnull c hcomparison, hnull d rfl]

/-- Trees and operands together **tell the stored form**. In a joined predicate the trees of the two
parts tell where the operands of one end and those of the other begin. -/
theorem inStoredForm_eq_of_tree {p q : Predicate} (htree : p.tree = q.tree)
    (hoperands : p.clause.operands = q.clause.operands) : p.inStoredForm = q.inStoredForm := by
  induction p generalizing q with
  | always =>
      cases q with
      | always => rfl
      | condition _ | combine _ _ _ => cases htree
  | condition c =>
      cases q with
      | condition d => exact congrArg condition (condition_inStoredForm_eq htree hoperands)
      | always | combine _ _ _ => cases htree
  | combine k l r ihl ihr =>
      cases q with
      | combine k' l' r' =>
          obtain ⟨rfl, hl, hr⟩ := ClauseTree.join.inj htree
          have hlength : l.clause.operands.length = l'.clause.operands.length := by
            rw [← questionMarks_tree, hl, questionMarks_tree]
          obtain ⟨hleft, hright⟩ := List.append_inj hoperands hlength
          simp only [inStoredForm, ihl hl hleft, ihr hr hright]
      | always | condition _ => cases htree

/-- **Compilation is unambiguous.** Two predicates have one clause if and only if they have one
stored form, one text if and only if they differ in their expected values only, and with one clause
they hold of the same tasks. -/
theorem clause_unambiguous (p q : Predicate) :
    (p.clause = q.clause ↔ p.inStoredForm = q.inStoredForm) ∧
      (p.clause.text = q.clause.text ↔ p.SameShape q) ∧
      (p.clause = q.clause → ∀ t : Task, p.holds t = q.holds t) := by
  have hform (h : p.clause = q.clause) : p.inStoredForm = q.inStoredForm :=
    inStoredForm_eq_of_tree (tree_eq_of_text (congrArg Clause.text h))
      (congrArg Clause.operands h)
  refine ⟨⟨hform, fun h => ?_⟩, ⟨fun h => tree_eq_iff.mp (tree_eq_of_text h), fun h => h.clause.1⟩,
    fun h t => ?_⟩
  · rw [← clause_inStoredForm p, h, clause_inStoredForm]
  · rw [← holds_inStoredForm p, hform h, holds_inStoredForm]

/-- Fields with the names of keywords: nested in two ways they have two texts, and an expected value
counts by its stored form. -/
theorem clause_unambiguous_keywords :
    let named (field : String) (identifier : Text.isIdentifier field = true) (v : Value)
        (carries : v.isNull = false) : Predicate :=
      condition ⟨field, .equals, v, identifier, carries⟩
    let keyAnd := named "AND" (by decide) (.bool true) rfl
    let keyOr := named "OR" (by decide) (.text "1") rfl
    let keyNull := named "NULL" (by decide) (.integer 1) rfl
    ¬((keyAnd.and keyOr).or keyNull).clause.text = (keyAnd.and (keyOr.or keyNull)).clause.text ∧
      ((named "AND" (by decide) (.integer 1) rfl).or keyOr).clause = (keyAnd.or keyOr).clause ∧
      ∀ t : Task, ((named "AND" (by decide) (.integer 1) rfl).or keyOr).holds t =
        (keyAnd.or keyOr).holds t := by
  intro named keyAnd keyOr keyNull
  have hsame : ((named "AND" (by decide) (.integer 1) rfl).or keyOr).clause =
      (keyAnd.or keyOr).clause := (clause_unambiguous _ _).1.mpr rfl
  exact ⟨fun h => absurd ((clause_unambiguous _ _).2.1.mp h).1 (by decide), hsame,
    (clause_unambiguous _ _).2.2 hsame⟩

end Predicate

end Taskbook
