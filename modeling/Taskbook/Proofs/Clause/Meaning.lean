import Taskbook.Proofs.Clause.Grammar
import Taskbook.Proofs.Query.Conditions
import Taskbook.Query.Clause
import Taskbook.Query.Evaluation
import Taskbook.Table.Selection

/-!
# The Meaning of a Clause

A predicate has two meanings. Evaluated in memory it holds of a task or it does not. Written
as a clause it is a text with question marks and a list of operands, and the text is evaluated
over a row by the three-valued logic of databases. This module gives the second meaning from
the text alone and proves that the two select the same tasks.

The text is read by its grammar (`Taskbook.Proofs.Clause.Grammar`), which yields a
`ClauseTree`. Evaluation numbers the question marks of the tree from the left; the one with
the number `k` stands for the operand at place `k`. A name that is no column, or a question
mark without an operand, has no truth value at all.

## Order convention

How the content of a column orders against an operand is `Stored.order` on both sides. What is
settled here is everything around it: the text, its parentheses, the place of each operand, the
look-up of names, and that an unknown outcome, which travels through `AND` and `OR` as a value
of its own, selects no more than false does.

## Main results

* `ClauseTree.Spells.count_eq`: the question marks of a tree are those of its text;
* `Predicate.spells_tree`: the clause of a predicate is the text of its tree;
* `Predicate.holds_iff_clause_yes`: **evaluation and the compiled clause agree**.
-/

namespace Taskbook

/-- The stored values of a task, one for each column. -/
def Task.row (t : Task) (f : Field) : Stored :=
  (t.get f).stored

/-- What a column holds is null exactly if the value of the field is. -/
theorem Task.row_eq_null_iff {t : Task} {f : Field} : t.row f = .null ↔ t.get f = .null :=
  Value.stored_eq_null_iff _

/-- The truth of a comparison between the content of a column and an operand, if one is
needed. A comparison of values with a null is unknown, a test for null never is. -/
def Comparison.kleene (c : Comparison) (column : Stored) (operand : Option Stored) :
    Option Truth :=
  match c with
  | isNull => some (.ofBool (column == .null))
  | equals => operand.map fun v => (column.order v).elim .unknown fun o => .ofBool (o == .eq)
  | lessThan => operand.map fun v => (column.order v).elim .unknown fun o => .ofBool (o == .lt)

namespace ClauseTree

/-- How many question marks a tree has. -/
def questionMarks : ClauseTree → Nat
  | always => 0
  | compare _ c => if c.usesValue then 1 else 0
  | join _ l r => l.questionMarks + r.questionMarks

/-- The **truth of a clause** on a row. The first question mark of the tree has the number
`k`, and the others are numbered from there, from left to right. -/
def truth (row : Field → Stored) (operand : Nat → Option Stored) :
    ClauseTree → Nat → Option Truth
  | always, _ => some .yes
  | compare f c, k => do
      let column ← Field.column? f
      c.kleene (row column) (operand k)
  | join combinator l r, k => do
      let a ← l.truth row operand k
      let b ← r.truth row operand (k + l.questionMarks)
      pure (combinator.truth a b)

/-! ### Question marks in the text -/

/-- A name has no question mark. -/
theorem count_name {f : String} (hf : Text.isIdentifier f = true) : f.toList.count '?' = 0 := by
  rw [List.count_eq_zero]
  intro hmem
  exact absurd (isNameChar_of_isIdentifier hf _ hmem) (by decide)

/-- The question marks of a tree are those of the text that spells it. -/
theorem Spells.count_eq {w : ClauseTree} {cs : List Char} (h : Spells w cs) :
    cs.count '?' = w.questionMarks := by
  induction h with
  | always => decide
  | equals hf =>
      rw [List.count_append, count_name hf]
      rfl
  | lessThan hf =>
      rw [List.count_append, count_name hf]
      rfl
  | isNull hf =>
      rw [List.count_append, count_name hf]
      rfl
  | and hl hr ihl ihr =>
      simp only [List.count_append, ihl, ihr, questionMarks]
      simp
  | or hl hr ihl ihr =>
      simp only [List.count_append, ihl, ihr, questionMarks]
      simp

end ClauseTree

namespace Predicate

/-- The tree of a predicate's clause: its shape, its names and its comparisons, without the
expected values. -/
def tree : Predicate → ClauseTree
  | always => .always
  | condition c => .compare c.field c.comparison
  | combine k l r => .join k l.tree r.tree

/-- The clause of a predicate is spelled as the grammar says. -/
theorem spells_tree (p : Predicate) : ClauseTree.Spells p.tree p.clause.text.toList := by
  induction p with
  | always => exact .always
  | condition c =>
      obtain ⟨field, comparison, expected, identifier, carries⟩ := c
      cases comparison with
      | equals =>
          have hs : (field ++ " " ++ "=" ++ " ?").toList = field.toList ++ " = ?".toList := by
            simp
          exact hs ▸ .equals identifier
      | lessThan =>
          have hs : (field ++ " " ++ "<" ++ " ?").toList = field.toList ++ " < ?".toList := by
            simp
          exact hs ▸ .lessThan identifier
      | isNull =>
          have hs : (field ++ " " ++ "IS NULL").toList = field.toList ++ " IS NULL".toList := by
            simp
          exact hs ▸ .isNull identifier
  | combine k l r ihl ihr =>
      cases k with
      | and =>
          have hs : (Clause.join "AND" l.clause r.clause).text.toList =
              "(".toList ++ l.clause.text.toList ++ ") AND (".toList ++
                r.clause.text.toList ++ ")".toList := by
            simp [Clause.join]
          exact hs ▸ .and ihl ihr
      | or =>
          have hs : (Clause.join "OR" l.clause r.clause).text.toList =
              "(".toList ++ l.clause.text.toList ++ ") OR (".toList ++
                r.clause.text.toList ++ ")".toList := by
            simp [Clause.join]
          exact hs ▸ .or ihl ihr

/-- A predicate has as many operands as its clause has question marks. -/
theorem questionMarks_tree (p : Predicate) :
    p.tree.questionMarks = p.clause.operands.length := by
  induction p with
  | always => rfl
  | condition c =>
      rw [tree, ClauseTree.questionMarks, clause, Condition.clause]
      cases c.comparison.usesValue <;> rfl
  | combine k l r ihl ihr =>
      simp only [tree, ClauseTree.questionMarks, clause, Clause.join, List.length_append, ihl,
        ihr]

/-! ### Evaluating the tree -/

/-- An outcome that may be unknown is yes if and only if it is there and is the wanted one. -/
theorem elim_unknown_beq_yes (outcome : Option Ordering) (wanted : Ordering) :
    (outcome.elim Truth.unknown (fun o => .ofBool (o == wanted)) == .yes) =
      (outcome == some wanted) := by
  rcases outcome with - | o
  · rfl
  · cases o <;> cases wanted <;> decide

/-- A comparison that has its operand is true if and only if it holds; unknown is not true. -/
theorem kleene_eq_some (c : Comparison) (column v : Stored) (operand : Option Stored)
    (ho : c.usesValue = true → operand = some v) :
    ∃ b, c.kleene column operand = some b ∧ (b == .yes) = c.holds column v := by
  cases c with
  | equals =>
      rw [ho rfl]
      exact ⟨_, rfl, elim_unknown_beq_yes _ .eq⟩
  | lessThan =>
      rw [ho rfl]
      exact ⟨_, rfl, elim_unknown_beq_yes _ .lt⟩
  | isNull =>
      refine ⟨_, rfl, ?_⟩
      by_cases hn : column = .null <;> simp [Comparison.holds, Truth.ofBool, hn]

/-- Two truth values are joined to yes as two Booleans are joined: **unknown collapses to
false through both combinators**. -/
theorem truth_beq_yes (k : Combinator) (a b : Truth) :
    (k.truth a b == .yes) = k.apply (a == .yes) (b == .yes) := by
  cases k with
  | and => exact Truth.and_beq_yes a b
  | or => exact Truth.or_beq_yes a b

/-- **The clause from a place on.** When the operands from place `k` on begin with those of the
predicate, its tree has a truth value there, and it is yes if and only if the predicate
holds. Induction on the predicate; the place moves by the question marks to the left. -/
theorem truth_tree {p : Predicate} (named : p.NamesFields) (t : Task)
    (operand : Nat → Option Stored) (k : Nat)
    (ho : ∀ i < p.clause.operands.length, operand (k + i) = p.clause.operands[i]?) :
    ∃ b, p.tree.truth t.row operand k = some b ∧ (b == .yes) = p.holds t := by
  induction p generalizing k with
  | always => exact ⟨.yes, rfl, rfl⟩
  | condition c =>
      obtain ⟨f, hf⟩ := namesFields_condition.mp named
      have hc : (condition c).holds t = c.comparison.holds (t.row f) c.expected.stored := by
        rw [holds, Condition.holds, Task.value?, hf]
        rfl
      have hv : c.comparison.usesValue = true → operand k = some c.expected.stored := by
        intro hu
        have hops : (condition c).clause.operands = [c.expected.stored] := by
          simp [clause, Condition.clause, hu]
        rw [hops] at ho
        exact ho 0 Nat.one_pos
      obtain ⟨b, hb, hyes⟩ := kleene_eq_some c.comparison (t.row f) c.expected.stored _ hv
      refine ⟨b, ?_, hyes.trans hc.symm⟩
      simp only [tree, ClauseTree.truth, Field.column?_of_find? hf, Option.bind_eq_bind,
        Option.bind_some, hb]
  | combine combinator l r ihl ihr =>
      obtain ⟨hl, hr⟩ := namesFields_combine.mp named
      have hops : (combine combinator l r).clause.operands =
          l.clause.operands ++ r.clause.operands := rfl
      rw [hops] at ho
      obtain ⟨a, ha, hyesl⟩ := ihl hl k fun i hi => by
        rw [ho i (by rw [List.length_append]; omega), List.getElem?_append_left hi]
      obtain ⟨b, hb, hyesr⟩ := ihr hr (k + l.tree.questionMarks) fun i hi => by
        rw [questionMarks_tree, Nat.add_assoc, ho _ (by rw [List.length_append]; omega),
          List.getElem?_append_right (by omega), Nat.add_sub_cancel_left]
      refine ⟨combinator.truth a b, ?_, ?_⟩
      · simp only [tree, ClauseTree.truth, ha, hb, Option.bind_eq_bind, Option.bind_some,
          Option.pure_def]
      · rw [truth_beq_yes, hyesl, hyesr, holds]

/-- **Evaluation and the compiled clause agree.** The clause of a predicate that names fields
is a text of the grammar, read as one tree only. The tree has as many question marks as the
text, and each takes one operand. On the row of any task it has a truth value, and that is yes
if and only if the predicate holds of the task. -/
theorem holds_iff_clause_yes (p : Predicate) (named : p.NamesFields) (t : Task) :
    ∃ w, ClauseTree.read? p.clause.text = some w ∧
      (∀ v, ClauseTree.Spells v p.clause.text.toList ↔ v = w) ∧
      w.questionMarks = p.clause.placeholders ∧
      w.questionMarks = p.clause.operands.length ∧
      ∃ b, w.truth t.row (fun k => p.clause.operands[k]?) 0 = some b ∧
        (b = .yes ↔ p.holds t = true) := by
  have hs := p.spells_tree
  refine ⟨p.tree, ClauseTree.read?_eq_some_iff.mpr hs, ?_, hs.count_eq.symm,
    p.questionMarks_tree, ?_⟩
  · intro v
    constructor
    · intro hv
      exact hv.unique hs
    · rintro rfl
      exact hs
  · obtain ⟨b, hb, hyes⟩ := truth_tree named t (fun k => p.clause.operands[k]?) 0
      fun i _ => by rw [Nat.zero_add]
    refine ⟨b, hb, ?_⟩
    rw [← hyes, beq_iff_eq]

/-- A nested filter on a task without a due date: names in mixed case, a text that reads as a
number, and a comparison with a null under an `or`. -/
theorem holds_iff_clause_yes_mixed :
    let p := Predicate.or
      (.and (.condition ⟨"Due_Date", .lessThan, .text " 7.5 ", by decide, by decide⟩)
        (.condition ⟨"TITLE", .equals, .integer 5, by decide, by decide⟩))
      (.and (.condition ⟨"DONE_ON", .isNull, .null, by decide, by decide⟩)
        (.condition ⟨"iD", .equals, .integer 3, by decide, by decide⟩))
    let t : Task := { id := some 3, title := "5", createdOn := ⟨0⟩ }
    p.NamesFields ∧
      ∃ w, ClauseTree.read? p.clause.text = some w ∧
        (∀ v, ClauseTree.Spells v p.clause.text.toList ↔ v = w) ∧
        w.questionMarks = p.clause.placeholders ∧
        w.questionMarks = p.clause.operands.length ∧
        ∃ b, w.truth t.row (fun k => p.clause.operands[k]?) 0 = some b ∧
          (b = .yes ↔ p.holds t = true) :=
  ⟨by decide, holds_iff_clause_yes _ (by decide) _⟩

end Predicate

end Taskbook
