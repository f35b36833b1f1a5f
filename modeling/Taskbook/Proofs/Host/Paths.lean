import Mathlib.Logic.Relation
import Taskbook.Host.Path

/-!
# When Two Paths Are the Same

Two paths are the same if one can be turned into the other by writing slashes and steps `.` that
make no difference: a slash beside a slash, a step `.` between two slashes, a slash at the end. This
is said of the bytes of a path, without taking it apart. A path from the root can then be written
straight, with one slash in front of every part and nothing else, and the parts are all that two
such paths have to share.

## Main results

* `Path.parts_append_slash`: **the parts** of a path are those in front of a slash, then those
  behind it;
* `Path.same_straight`: a path from the root is the same as the one **written straight**;
* `Path.same_iff_of_isAbsolute`: what is **the same as a path from the root** is a path from the root
  with the same parts.
-/

namespace Taskbook.Path

/-! ### The parts of a path -/

theorem pieces_ne_nil {α : Type} [DecidableEq α] (sep : α) (xs : List α) : pieces sep xs ≠ [] := by
  fun_cases pieces sep xs <;> simp

/-- The pieces in front of a separator come before those behind it. -/
theorem pieces_append_sep {α : Type} [DecidableEq α] (sep : α) (xs ys : List α) :
    pieces sep (xs ++ sep :: ys) = pieces sep xs ++ pieces sep ys := by
  induction xs with
  | nil => simp [pieces]
  | cons x xs ih =>
      rw [List.cons_append, pieces, pieces, ih]
      by_cases hx : x = sep
      · rw [if_pos hx, if_pos hx, List.cons_append]
      · rw [if_neg hx, if_neg hx]
        cases hpieces : pieces sep xs with
        | nil => exact absurd hpieces (pieces_ne_nil sep xs)
        | cons p ps => rfl

/-- The pieces that are parts: those that are neither empty nor a step `.`. -/
def named (pieces : List FileName) : List FileName :=
  (pieces.filter (· != [])).filter (· != stay)

theorem parts_eq_named (path : List UInt8) : parts path = named (pieces slash path) := rfl

theorem named_cons_idle {p : FileName} (h : p = [] ∨ p = stay) (ps : List FileName) :
    named (p :: ps) = named ps := by
  rcases h with rfl | rfl <;> rfl

theorem named_cons_part {p : FileName} (h : ¬ (p = [] ∨ p = stay)) (ps : List FileName) :
    named (p :: ps) = p :: named ps := by
  obtain ⟨hnil, hstay⟩ := not_or.mp h
  simp [named, hnil, hstay]

/-- **The parts of a path** are those in front of a slash, then those behind it. -/
theorem parts_append_slash (p q : List UInt8) : parts (p ++ slash :: q) = parts p ++ parts q := by
  simp only [parts_eq_named, named, pieces_append_sep, List.filter_append]

/-- A slash in front is no part. -/
theorem parts_slash (q : List UInt8) : parts (slash :: q) = parts q :=
  parts_append_slash [] q

/-! ### Same paths -/

/-- A path is **shortened** by something that makes no difference. -/
inductive Shortens : List UInt8 → List UInt8 → Prop
  | slash (p q : List UInt8) : Shortens (p ++ slash :: slash :: q) (p ++ slash :: q)
  | stay (p q : List UInt8) : Shortens (p ++ slash :: (stay ++ slash :: q)) (p ++ slash :: q)
  | final {p : List UInt8} (h : p ≠ []) : Shortens (p ++ [slash]) p

/-- Two paths are the **same** if shortening leads from one to the other, back and forth. -/
def Same : List UInt8 → List UInt8 → Prop :=
  Relation.EqvGen Shortens

variable {p q : List UInt8}

theorem same_equivalence : Equivalence Same :=
  Relation.EqvGen.is_equivalence Shortens

theorem Same.refl (p : List UInt8) : Same p p :=
  same_equivalence.refl p

theorem Same.symm (h : Same p q) : Same q p :=
  same_equivalence.symm h

theorem Same.trans {r : List UInt8} (h : Same p q) (h' : Same q r) : Same p r :=
  same_equivalence.trans h h'

theorem Shortens.same (h : Shortens p q) : Same p q :=
  Relation.EqvGen.rel p q h

/-- An equivalence that shortening respects holds of same paths. -/
theorem Same.respects {R : List UInt8 → List UInt8 → Prop} (hR : Equivalence R)
    (hshortens : ∀ p q, Shortens p q → R p q) (h : Same p q) : R p q :=
  hR.eqvGen_iff.mp (Relation.EqvGen.mono hshortens p q h)

/-- Same paths have the same parts. -/
theorem Same.parts_eq (h : Same p q) : parts p = parts q := by
  refine h.respects (R := fun p q => parts p = parts q) ⟨fun _ => rfl, Eq.symm, Eq.trans⟩
    fun p q hshortens => ?_
  cases hshortens with
  | slash p q => rw [parts_append_slash, parts_append_slash, parts_slash]
  | stay p q =>
      have hstay : parts stay = [] := rfl
      rw [parts_append_slash, parts_append_slash, parts_append_slash, hstay, List.nil_append]
  | final =>
      have hnil : parts [] = [] := rfl
      rw [parts_append_slash, hnil, List.append_nil]

/-- Of two same paths both are from the root or none. -/
theorem Same.isAbsolute_eq (h : Same p q) : isAbsolute p = isAbsolute q := by
  refine h.respects (R := fun p q => isAbsolute p = isAbsolute q) ⟨fun _ => rfl, Eq.symm, Eq.trans⟩
    fun p q hshortens => ?_
  cases hshortens with
  | slash p q => cases p <;> rfl
  | stay p q => cases p <;> rfl
  | final hp =>
      obtain ⟨c, p, rfl⟩ := List.exists_cons_of_ne_nil hp
      rfl

/-- What stands in front of two paths makes no difference. -/
theorem Same.append_left (h : Same p q) (front : List UInt8) : Same (front ++ p) (front ++ q) := by
  refine h.respects (R := fun p q => Same (front ++ p) (front ++ q))
    (same_equivalence.comap (front ++ ·)) fun p q hshortens => ?_
  cases hshortens with
  | slash p q =>
      rw [← List.append_assoc, ← List.append_assoc]
      exact (Shortens.slash _ q).same
  | stay p q =>
      rw [← List.append_assoc, ← List.append_assoc]
      exact (Shortens.stay _ q).same
  | final hp =>
      rw [← List.append_assoc]
      exact (Shortens.final (List.append_ne_nil_of_right_ne_nil front hp)).same

/-! ### Straight paths -/

/-- The path along pieces, a slash in front of each. -/
def way (pieces : List FileName) : List UInt8 :=
  pieces.flatMap (slash :: ·)

/-- The path from the root along parts, **written straight**. -/
def straight (parts : List FileName) : List UInt8 :=
  if parts = [] then [slash] else way parts

/-- A path from the root is the way along its pieces. -/
theorem way_pieces (path : List UInt8) : way (pieces slash path) = slash :: path := by
  induction path with
  | nil => rfl
  | cons c path ih =>
      rw [pieces]
      by_cases hc : c = slash
      · rw [if_pos hc, hc, ← ih]
        rfl
      · rw [if_neg hc]
        cases hpieces : pieces slash path with
        | nil => exact absurd hpieces (pieces_ne_nil slash path)
        | cons p ps =>
            rw [hpieces] at ih
            have htail : p ++ way ps = path := (List.cons.inj ih).2
            exact congrArg (slash :: c :: ·) htail

theorem exists_straight (parts : List FileName) : ∃ tail, straight parts = slash :: tail := by
  cases parts with
  | nil => exact ⟨[], rfl⟩
  | cons part parts => exact ⟨part ++ way parts, rfl⟩

/-- A step `.` at the end makes no difference to the slash in front of it. -/
theorem same_stay (p : List UInt8) : Same (p ++ slash :: stay) (p ++ [slash]) := by
  have hlonger : Same (p ++ slash :: stay ++ [slash]) (p ++ slash :: stay) :=
    (Shortens.final (by simp)).same
  have hshorter : Same (p ++ slash :: (stay ++ [slash])) (p ++ [slash]) :=
    (Shortens.stay p []).same
  rw [List.append_assoc, List.cons_append] at hlonger
  exact hlonger.symm.trans hshorter

/-- An idle piece makes no difference to what follows it. -/
theorem same_idle {p : FileName} (h : p = [] ∨ p = stay) (parts : List FileName) :
    Same (slash :: p ++ straight parts) (straight parts) := by
  obtain ⟨tail, htail⟩ := exists_straight parts
  rw [htail]
  rcases h with rfl | rfl
  · exact (Shortens.slash [] tail).same
  · exact (Shortens.stay [] tail).same

/-- A part in front of a straight path makes a straight path. -/
theorem same_part (p : FileName) (parts : List FileName) :
    Same (slash :: p ++ straight parts) (straight (p :: parts)) := by
  cases parts with
  | nil =>
      have hfinal : Same (slash :: p ++ [slash]) (slash :: p) :=
        (Shortens.final (List.cons_ne_nil slash p)).same
      simpa [straight, way] using hfinal
  | cons q parts => exact .refl _

/-- The way along pieces is the straight path along those that are parts. -/
theorem same_way {ps : List FileName} (h : ps ≠ []) : Same (way ps) (straight (named ps)) := by
  induction ps with
  | nil => exact absurd rfl h
  | cons p ps ih =>
      by_cases hps : ps = []
      · subst hps
        by_cases hidle : p = [] ∨ p = stay
        · -- an idle piece on its own leaves the root
          rw [named_cons_idle hidle]
          rcases hidle with rfl | rfl
          · exact .refl _
          · exact same_stay []
        · rw [named_cons_part hidle]
          exact .refl _
      · have hrest : Same (way (p :: ps)) (slash :: p ++ straight (named ps)) :=
          (ih hps).append_left (slash :: p)
        by_cases hidle : p = [] ∨ p = stay
        · rw [named_cons_idle hidle]
          exact hrest.trans (same_idle hidle _)
        · rw [named_cons_part hidle]
          exact hrest.trans (same_part p _)

/-- A path from the root is the same as the one **written straight**. -/
theorem same_straight (h : isAbsolute p = true) : Same p (straight (parts p)) := by
  obtain ⟨tail, rfl⟩ : ∃ tail, p = slash :: tail := by
    cases p with
    | nil => cases h
    | cons c tail => exact ⟨tail, by rw [Option.some.inj (beq_iff_eq.mp h)]⟩
  have hway := same_way (pieces_ne_nil slash tail)
  rwa [way_pieces, ← parts_eq_named, ← parts_slash] at hway

/-- What is **the same as a path from the root** is a path from the root with the same parts. -/
theorem same_iff_of_isAbsolute (hq : isAbsolute q = true) :
    Same p q ↔ isAbsolute p = true ∧ parts p = parts q := by
  constructor
  · intro h
    exact ⟨h.isAbsolute_eq.trans hq, h.parts_eq⟩
  · rintro ⟨hp, hparts⟩
    have hstraight := same_straight hp
    rw [hparts] at hstraight
    exact hstraight.trans (same_straight hq).symm

end Taskbook.Path
