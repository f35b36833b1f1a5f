import Taskbook.Proofs.Clause.Meaning
import Taskbook.Proofs.Results

/-!
# How Predicates Are Built

A caller builds a predicate by calls of constructors and passes texts for the names of fields and
values of whatever kind. A `Construction` is the calls as the caller writes them, before anything
has been checked. Its *requests* are the comparisons it asks for, from left to right: a name, a
comparison and a value each.

A construction is built if and only if each request is *acceptable*: the name is a plain name, and
a comparison that needs a value gets one. What is built then has the shape of the construction,
and the operands of its clause are the stored forms of the requested values, in their order.

## Value convention

A test for a missing value needs none, and one that is passed along is dropped. So only the
requests that need a value, the *valued* ones, show in the operands.

## Main results

* `Text.isIdentifier_iff`: what an identifier is, **character by character**;
* `Construction.exists_build_iff`: a construction is built **if and only if** all its requests are
  acceptable;
* `Construction.tree_of_build`, `operands_of_build`: what is built is **what was asked for**.
-/

namespace Taskbook

/-! ### Plain names -/

namespace Text

/-- A character of ASCII that may stand in a word. -/
def IsWordChar (c : Char) : Prop :=
  ('A' ≤ c ∧ c ≤ 'Z') ∨ ('a' ≤ c ∧ c ≤ 'z') ∨ ('0' ≤ c ∧ c ≤ '9') ∨ c = '_'

/-- A **plain name** has a first character, which is no digit, and is made of characters of words
to the very end of the text. -/
def IsPlainName (s : String) : Prop :=
  ∃ c cs, s.toList = c :: cs ∧ ¬('0' ≤ c ∧ c ≤ '9') ∧ ∀ d ∈ c :: cs, IsWordChar d

/-- The digits of ASCII stand between zero and nine. -/
theorem isDigit_iff (c : Char) : c.isDigit = true ↔ '0' ≤ c ∧ c ≤ '9' := by
  simp only [Char.isDigit, Bool.and_eq_true, decide_eq_true_eq, Char.le_def, ge_iff_le]

/-- A name starts with a character of words that is no digit. -/
theorem isNameStart_iff (c : Char) :
    isNameStart c = true ↔ ¬('0' ≤ c ∧ c ≤ '9') ∧ IsWordChar c := by
  have hunderscore : c = '_' ↔ c.toNat = 95 := (Char.toNat_inj (d := '_')).symm
  have halpha : c.isAlpha = (c.isUpper || c.isLower) := rfl
  have hupper : c.isUpper = decide ('A'.val ≤ c.val ∧ c.val ≤ 'Z'.val) := rfl
  have hlower : c.isLower = (decide ('a'.val ≤ c.val) && decide (c.val ≤ 'z'.val)) := rfl
  simp only [isNameStart, IsWordChar, halpha, hupper, hlower, Bool.or_eq_true, Bool.and_eq_true,
    decide_eq_true_eq, beq_iff_eq, Char.le_def, UInt32.le_iff_toNat_le, Char.toNat_val,
    hunderscore, Char.reduceToNat]
  omega

/-- The characters of a name are the characters of words. -/
theorem isNameChar_iff (c : Char) : ClauseTree.isNameChar c = true ↔ IsWordChar c := by
  rw [ClauseTree.isNameChar, Bool.or_eq_true, isNameStart_iff, isDigit_iff]
  constructor
  · rintro (⟨-, h⟩ | h)
    · exact h
    · exact .inr (.inr (.inl h))
  · intro h
    by_cases hdigit : '0' ≤ c ∧ c ≤ '9'
    · exact .inr hdigit
    · exact .inl ⟨hdigit, h⟩

/-- **Identifiers are the plain names.** -/
theorem isIdentifier_iff (s : String) : isIdentifier s = true ↔ IsPlainName s := by
  rw [isIdentifier, IsPlainName]
  cases s.toList with
  | nil => simp
  | cons c cs =>
      have hall : (cs.all fun d => isNameStart d || d.isDigit) = true ↔ ∀ d ∈ cs, IsWordChar d := by
        simp only [List.all_eq_true]
        exact forall₂_congr fun d _ => isNameChar_iff d
      rw [Bool.and_eq_true, isNameStart_iff, hall]
      constructor
      · rintro ⟨⟨hstart, hc⟩, hcs⟩
        exact ⟨c, cs, rfl, hstart, List.forall_mem_cons.mpr ⟨hc, hcs⟩⟩
      · rintro ⟨d, ds, hd, hstart, hword⟩
        obtain ⟨rfl, rfl⟩ := List.cons.inj hd
        obtain ⟨hc, hcs⟩ := List.forall_mem_cons.mp hword
        exact ⟨⟨hstart, hc⟩, hcs⟩

end Text

/-! ### Requests -/

/-- A comparison as a caller asks for it, before anything has been checked. -/
structure Request where
  field : String
  comparison : Comparison
  expected : Value
  deriving DecidableEq, Repr

namespace Request

/-- An **acceptable** request names a plain name and has a value where its comparison needs
one. -/
def Acceptable (r : Request) : Prop :=
  Text.IsPlainName r.field ∧ (r.comparison.usesValue = true → r.expected ≠ .null)

/-- The condition that is made for a request, unless it is refused. -/
def make (r : Request) : Except QueryError Predicate :=
  Predicate.make r.field r.comparison r.expected

/-- **A condition is made for the acceptable requests only**, and for all of them. -/
theorem exists_make_iff (r : Request) : (∃ p, r.make = .ok p) ↔ r.Acceptable := by
  obtain ⟨field, comparison, expected⟩ := r
  rw [make, Acceptable, ← Text.isIdentifier_iff, Predicate.make]
  by_cases hempty : field = ""
  · rw [if_pos hempty, hempty]
    simp [show Text.isIdentifier "" = false from rfl]
  · rw [if_neg hempty]
    by_cases hname : Text.isIdentifier field = true
    · by_cases huse : comparison.usesValue = true
      · by_cases hnull : expected.isNull = true
        · simp [hname, huse, (Value.isNull_iff expected).mp hnull, Value.isNull, Value.kind]
        · have hvalue : expected ≠ .null := fun h => hnull ((Value.isNull_iff expected).mpr h)
          simp [hname, huse, hnull, hvalue]
      · simp [hname, huse]
    · simp [hname]

/-- The condition that is made keeps the name and the comparison, and a value that is needed. -/
theorem eq_condition_of_make {r : Request} {p : Predicate} (h : r.make = .ok p) :
    ∃ c : Condition, p = .condition c ∧ c.field = r.field ∧ c.comparison = r.comparison ∧
      (r.comparison.usesValue = true → c.expected = r.expected) := by
  rw [make, Predicate.make] at h
  split at h
  · cases h
  · split at h
    · split at h
      · split at h
        · cases h
        · obtain rfl := Except.ok.inj h
          exact ⟨_, rfl, rfl, rfl, fun _ => rfl⟩
      · next huse =>
        obtain rfl := Except.ok.inj h
        exact ⟨_, rfl, rfl, rfl, fun h => absurd h huse⟩
    · cases h

end Request

/-! ### Constructions -/

/-- What a caller writes to build a predicate: calls of the constructors, those of `and` and `or`
with calls as arguments. -/
inductive Construction where
  | always
  | make (r : Request)
  | equals (field : String) (expected : Value)
  | lessThan (field : String) (expected : Value)
  | isNull (field : String)
  | lessThanOrNull (field : String) (expected : Value)
  | and (left right : Construction)
  | or (left right : Construction)
  deriving DecidableEq, Repr

namespace Construction

/-- The predicate that the calls build, unless one of them is refused. -/
def build : Construction → Except QueryError Predicate
  | always => .ok .always
  | make r => r.make
  | equals f v => Predicate.equals f v
  | lessThan f v => Predicate.lessThan f v
  | isNull f => Predicate.isNull f
  | lessThanOrNull f v => Predicate.lessThanOrNull f v
  | and l r => do return (← l.build).and (← r.build)
  | or l r => do return (← l.build).or (← r.build)

/-- The comparisons that are asked for, from left to right. -/
def requests : Construction → List Request
  | always => []
  | make r => [r]
  | equals f v => [⟨f, .equals, v⟩]
  | lessThan f v => [⟨f, .lessThan, v⟩]
  | isNull f => [⟨f, .isNull, .null⟩]
  | lessThanOrNull f v => [⟨f, .lessThan, v⟩, ⟨f, .isNull, .null⟩]
  | and l r | or l r => l.requests ++ r.requests

/-- The requests that need a value, from left to right. -/
def valued (x : Construction) : List Request :=
  x.requests.filter fun r => r.comparison.usesValue

/-- The **shape** of a construction: how it is joined, the names and the comparisons, without the
values. -/
def shape : Construction → ClauseTree
  | always => .always
  | make r => .compare r.field r.comparison
  | equals f _ => .compare f .equals
  | lessThan f _ => .compare f .lessThan
  | isNull f => .compare f .isNull
  | lessThanOrNull f _ => .join .or (.compare f .lessThan) (.compare f .isNull)
  | and l r => .join .and l.shape r.shape
  | or l r => .join .or l.shape r.shape

/-- Two parts are joined if both are there. -/
theorem join_eq_ok_iff {x y : Except QueryError Predicate} {k : Predicate → Predicate → Predicate}
    {p : Predicate} :
    (do return k (← x) (← y)) = Except.ok p ↔ ∃ l r, x = .ok l ∧ y = .ok r ∧ k l r = p := by
  cases x with
  | error e => simp [bind, Except.bind]
  | ok l =>
      cases y with
      | error e => simp [bind, Except.bind]
      | ok r => simp [bind, Except.bind, pure, Except.pure]

/-- Two parts can be joined if both can be built. -/
theorem exists_join_iff {x y : Except QueryError Predicate}
    {k : Predicate → Predicate → Predicate} :
    (∃ p, (do return k (← x) (← y)) = Except.ok p) ↔ (∃ l, x = .ok l) ∧ ∃ r, y = .ok r := by
  simp only [join_eq_ok_iff]
  constructor
  · rintro ⟨p, l, r, hl, hr, -⟩
    exact ⟨⟨l, hl⟩, r, hr⟩
  · rintro ⟨⟨l, hl⟩, r, hr⟩
    exact ⟨_, l, r, hl, hr, rfl⟩

/-- **A construction is built if and only if all its requests are acceptable.** -/
theorem exists_build_iff (x : Construction) :
    (∃ p, x.build = .ok p) ↔ ∀ r ∈ x.requests, r.Acceptable := by
  have hone (r : Request) : (∃ p, r.make = .ok p) ↔ ∀ s ∈ [r], s.Acceptable := by
    rw [r.exists_make_iff, List.forall_mem_singleton]
  induction x with
  | always => simp [build, requests]
  | make r => exact hone r
  | equals f v => exact hone ⟨f, .equals, v⟩
  | lessThan f v => exact hone ⟨f, .lessThan, v⟩
  | isNull f => exact hone ⟨f, .isNull, .null⟩
  | lessThanOrNull f v =>
      refine exists_join_iff.trans ?_
      rw [requests, List.forall_mem_cons]
      exact and_congr (Request.exists_make_iff ⟨f, .lessThan, v⟩) (hone ⟨f, .isNull, .null⟩)
  | and l r ihl ihr | or l r ihl ihr =>
      exact exists_join_iff.trans ((and_congr ihl ihr).trans List.forall_mem_append.symm)

/-- What is built has the shape of the construction. -/
theorem tree_of_build {x : Construction} {p : Predicate} (h : x.build = .ok p) :
    p.tree = x.shape := by
  have hone {r : Request} {p : Predicate} (h : r.make = .ok p) :
      p.tree = .compare r.field r.comparison := by
    obtain ⟨c, rfl, hfield, hcomparison, -⟩ := Request.eq_condition_of_make h
    rw [Predicate.tree, hfield, hcomparison]
  induction x generalizing p with
  | always =>
      obtain rfl := Except.ok.inj h
      rfl
  | make r => exact hone h
  | equals f v => exact hone (r := ⟨f, .equals, v⟩) h
  | lessThan f v => exact hone (r := ⟨f, .lessThan, v⟩) h
  | isNull f => exact hone (r := ⟨f, .isNull, .null⟩) h
  | lessThanOrNull f v =>
      obtain ⟨l, r, hl, hr, rfl⟩ := join_eq_ok_iff.mp h
      exact congrArg₂ _ (hone (r := ⟨f, .lessThan, v⟩) hl) (hone (r := ⟨f, .isNull, .null⟩) hr)
  | and l r ihl ihr | or l r ihl ihr =>
      obtain ⟨p, q, hp, hq, rfl⟩ := join_eq_ok_iff.mp h
      exact congrArg₂ _ (ihl hp) (ihr hq)

/-- The operands of what is built are the stored forms of the values that were asked for. -/
theorem operands_of_build {x : Construction} {p : Predicate} (h : x.build = .ok p) :
    p.clause.operands = x.valued.map fun r => r.expected.stored := by
  have hone {r : Request} {p : Predicate} (h : r.make = .ok p) :
      p.clause.operands =
        ([r].filter fun r => r.comparison.usesValue).map fun r => r.expected.stored := by
    obtain ⟨c, rfl, hfield, hcomparison, hexpected⟩ := Request.eq_condition_of_make h
    rw [Predicate.clause, Condition.clause, hcomparison, List.filter_singleton]
    cases huse : r.comparison.usesValue with
    | true => simp [hexpected huse]
    | false => simp
  induction x generalizing p with
  | always =>
      obtain rfl := Except.ok.inj h
      rfl
  | make r => exact hone h
  | equals f v => exact hone (r := ⟨f, .equals, v⟩) h
  | lessThan f v => exact hone (r := ⟨f, .lessThan, v⟩) h
  | isNull f => exact hone (r := ⟨f, .isNull, .null⟩) h
  | lessThanOrNull f v =>
      obtain ⟨l, r, hl, hr, rfl⟩ := join_eq_ok_iff.mp h
      exact congrArg₂ _ (hone (r := ⟨f, .lessThan, v⟩) hl) (hone (r := ⟨f, .isNull, .null⟩) hr)
  | and l r ihl ihr | or l r ihl ihr =>
      obtain ⟨p, q, hp, hq, rfl⟩ := join_eq_ok_iff.mp h
      have hparts : (p.and q).clause.operands = p.clause.operands ++ q.clause.operands := rfl
      rw [valued, requests, List.filter_append, List.map_append]
      exact congrArg₂ _ (ihl hp) (ihr hq)

end Construction

end Taskbook
