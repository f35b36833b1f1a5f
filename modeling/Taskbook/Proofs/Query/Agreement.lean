import Taskbook.Proofs.Clause.Meaning
import Taskbook.Table.Engine
import Taskbook.Table.Row
import Taskbook.Table.Statement

/-!
# Where Memory and Tables Agree on a Predicate

A predicate is evaluated in memory by the order of stored forms, and over a row by the order of
cells, which first turns the operand into what the column would keep. On most operands the two
orders are one. They part on a text that is compared with an integer column, where each side
reads a numeral in its own way. This module names the predicates without such an operand, the
*plain* ones, and shows that memory and tables agree on them.

A database refuses what nests too deeply, what has too many operands and what names no column. A
predicate that names fields is refused for its size alone, so to *fit* into a statement is the other
half of plainness.

## Main results

* `Predicate.fault?_eq_none_iff`: a predicate that names fields is **refused only for its size**;
* `Predicate.Plain.agrees`: **memory and tables agree** on a plain predicate and any task;
* `Predicate.plain_always`, `plain_hasId`, `plain_relevantAt`: what the manager asks is plain.
-/

namespace Taskbook

/-! ### Size and refusal -/

/-- The names of fields are written in small letters. -/
theorem Field.lower_name (f : Field) : Text.lower f.name = f.name := by
  cases f <;> decide

/-- The name of a field is no word of the language of statements. -/
theorem Field.sameName_word (f : Field) :
    ∀ word ∈ openingWords ++ prefaceWord :: queryWords ++ reservedWords,
      Text.sameName f.name word = false := by
  intro word hmem
  have hlower : ∀ word ∈ openingWords ++ prefaceWord :: queryWords ++ reservedWords,
      Text.lower word = word := by
    simp [openingWords, prefaceWord, queryWords, reservedWords, Text.lower]
  have hne : f.name ≠ word := by
    rintro rfl
    revert hmem
    cases f <;> simp [name, openingWords, prefaceWord, queryWords, reservedWords]
  rw [Text.sameName, f.lower_name, hlower word hmem]
  exact beq_false_of_ne hne

/-- A name that finds a field can stand for a column wherever a condition can stand. -/
theorem Condition.misplaced?_of_find? {c : Condition} {f : Field}
    (h : Field.find? c.field = some f) (nested : Bool) : c.misplaced? nested = none := by
  have hname : Text.lower f.name = Text.lower c.field :=
    (Text.sameName_iff _ _).mp (Field.find?_eq_some_iff.mp h)
  have hword (words : List String)
      (hsub : words ⊆ openingWords ++ prefaceWord :: queryWords ++ reservedWords) :
      words.any (Text.sameName c.field) = false := by
    rw [List.any_eq_false]
    intro word hmem
    rw [Text.sameName, ← hname]
    exact Bool.eq_false_iff.mp (f.sameName_word word (hsub hmem))
  have hopening := hword openingWords fun _ hw =>
    List.mem_append_left _ (List.mem_append_left _ hw)
  have hpreface := hword (prefaceWord :: queryWords) fun _ hw =>
    List.mem_append_left _ (List.mem_append_right _ hw)
  have hquery := hword queryWords fun _ hw =>
    List.mem_append_left _ (List.mem_append_right _ (List.mem_cons_of_mem _ hw))
  have hreserved := hword reservedWords fun _ hw => List.mem_append_right _ hw
  simp only [misplaced?, hopening, hpreface, hreserved, hquery, Bool.and_false, Bool.or_false,
    Bool.false_eq_true, if_false]

namespace Predicate

/-- How deep the conditions of a predicate nest. A lone condition counts two. -/
def depth : Predicate → Nat
  | always | condition _ => 2
  | combine _ left right => max left.depth right.depth + 1

/-- A predicate **fits** into a statement if it nests no deeper and has no more operands than a
database reads. -/
structure Fits (p : Predicate) : Prop where
  shallow : p.depth ≤ maxNesting
  few : p.clause.operands.length ≤ maxOperands

instance (p : Predicate) : Decidable p.Fits :=
  decidable_of_iff (p.depth ≤ maxNesting ∧ p.clause.operands.length ≤ maxOperands)
    ⟨fun h => ⟨h.1, h.2⟩, fun h => ⟨h.shallow, h.few⟩⟩

/-- The ways in which a predicate **exceeds** what a database reads, each with the refusal. -/
inductive Exceeds (p : Predicate) : SqlError → Prop
  | depth (h : maxNesting < p.depth) : p.Exceeds (.tooDeep maxNesting)
  | operands (h : maxOperands < p.clause.operands.length) : p.Exceeds .tooManyOperands

/-- What exceeds a limit does not fit. -/
theorem Exceeds.not_fits {p : Predicate} {e : SqlError} (h : p.Exceeds e) : ¬p.Fits := by
  rintro ⟨shallow, few⟩
  cases h with
  | depth h => omega
  | operands h => omega

/-- A condition has one operand if it uses a value, and none otherwise. -/
theorem length_operands_condition (c : Condition) :
    (condition c).clause.operands.length = if c.comparison.usesValue then 1 else 0 := by
  rw [clause, Condition.clause]
  split <;> rfl

/-- A joined predicate has the operands of both its parts. -/
theorem length_operands_combine (k : Combinator) (l r : Predicate) :
    (combine k l r).clause.operands.length =
      l.clause.operands.length + r.clause.operands.length :=
  List.length_append

/-- A predicate that names fields is **read to its end**, unless it nests too deeply or its operands
are too many together with those before it. -/
theorem read_cases {p : Predicate} (named : p.NamesFields) (nested : Bool) {before : Nat}
    (hbefore : before ≤ maxOperands) :
    (p.depth ≤ maxNesting ∧ before + p.clause.operands.length ≤ maxOperands ∧
        p.read nested before = .ok (p.depth, before + p.clause.operands.length)) ∨
      (maxNesting < p.depth ∧ p.read nested before = .error (.tooDeep maxNesting)) ∨
      (maxOperands < before + p.clause.operands.length ∧
        p.read nested before = .error .tooManyOperands) := by
  induction p generalizing nested before with
  | always => exact .inl ⟨by decide, hbefore, rfl⟩
  | condition c =>
      obtain ⟨f, hf⟩ := namesFields_condition.mp named
      rw [length_operands_condition]
      simp only [read, Condition.misplaced?_of_find? hf]
      cases c.comparison.usesValue with
      | false => exact .inl ⟨(by decide : 2 ≤ maxNesting), hbefore, rfl⟩
      | true =>
          by_cases hroom : before < maxOperands
          · exact .inl ⟨(by decide : 2 ≤ maxNesting), hroom, if_pos hroom⟩
          · exact .inr (.inr ⟨by simp only [if_true]; omega, if_neg hroom⟩)
  | combine k l r ihl ihr =>
      obtain ⟨hl, hr⟩ := namesFields_combine.mp named
      have hdepth : (combine k l r).depth = max l.depth r.depth + 1 := rfl
      rw [length_operands_combine, read]
      -- The parts are read one after the other; the first that is not read to its end decides.
      rcases ihl hl true hbefore with ⟨hdl, hcl, hleft⟩ | ⟨hdl, hleft⟩ | ⟨hcl, hleft⟩ <;> rw [hleft]
      · rcases ihr hr true hcl with ⟨hdr, hcr, hright⟩ | ⟨hdr, hright⟩ | ⟨hcr, hright⟩ <;>
          simp only [bind, Except.bind, hright]
        · by_cases hd : (combine k l r).depth ≤ maxNesting
          · refine .inl ⟨hd, by omega, ?_⟩
            rw [← Nat.add_assoc]
            exact if_neg (Nat.not_lt.mpr hd)
          · exact .inr (.inl ⟨Nat.not_le.mp hd, if_pos (Nat.not_le.mp hd)⟩)
        · exact .inr (.inl ⟨by omega, trivial⟩)
        · exact .inr (.inr ⟨by omega, trivial⟩)
      · exact .inr (.inl ⟨by omega, rfl⟩)
      · exact .inr (.inr ⟨by omega, rfl⟩)

/-- A predicate that names fields has no stray name. -/
theorem lookUp_none {p : Predicate} (named : p.NamesFields) : p.lookUp none = .ok none := by
  induction p with
  | always => rfl
  | condition c =>
      obtain ⟨f, hf⟩ := namesFields_condition.mp named
      simp only [lookUp, Field.column?_of_find? hf]
      cases c.comparison <;> rfl
  | combine k l r ihl ihr =>
      obtain ⟨hl, hr⟩ := namesFields_combine.mp named
      simp only [lookUp, ihl hl]
      exact ihr hr

/-- A predicate that names fields fits and is not refused, or it is refused for a limit that it
exceeds. -/
theorem fault?_cases {p : Predicate} (named : p.NamesFields) :
    (p.Fits ∧ p.fault? = none) ∨ ∃ e, p.Exceeds e ∧ p.fault? = some e := by
  simp only [fault?, strayName?, lookUp_none named]
  rcases read_cases named false (Nat.zero_le maxOperands) with
    ⟨hdepth, hcount, hread⟩ | ⟨hdepth, hread⟩ | ⟨hcount, hread⟩ <;>
    rw [hread]
  · exact .inl ⟨⟨hdepth, by omega⟩, rfl⟩
  · exact .inr ⟨_, .depth hdepth, rfl⟩
  · exact .inr ⟨_, .operands (by omega), rfl⟩

/-- A predicate that names fields is **refused only for its size**. -/
theorem fault?_eq_none_iff {p : Predicate} (named : p.NamesFields) :
    p.fault? = none ↔ p.Fits := by
  rcases fault?_cases named with ⟨hfits, hnone⟩ | ⟨e, hexceeds, hsome⟩
  · exact iff_of_true hnone hfits
  · exact iff_of_false (by rw [hsome]; exact nofun) hexceeds.not_fits

/-- A predicate that names fields and does not fit is refused for a limit that it exceeds. -/
theorem exists_fault?_of_not_fits {p : Predicate} (named : p.NamesFields) (h : ¬p.Fits) :
    ∃ e, p.Exceeds e ∧ p.fault? = some e :=
  (fault?_cases named).resolve_left fun hfits => h hfits.1

end Predicate

/-! ### The two orders -/

namespace Task

/-- Only the title is stored as a text. -/
theorem row_of_ne_title (t : Task) {f : Field} (hf : f ≠ .title) :
    t.row f = .null ∨ ∃ n, t.row f = .integer n := by
  obtain ⟨id, title, createdOn, doneOn, postponedUntil, dueDate, priority, createdFrom⟩ := t
  cases f with
  | title => exact absurd rfl hf
  | createdOn | priority => exact .inr ⟨_, rfl⟩
  | id => cases id with
    | none => exact .inl rfl
    | some n => exact .inr ⟨n, rfl⟩
  | doneOn => cases doneOn with
    | none => exact .inl rfl
    | some u => exact .inr ⟨u.millis, rfl⟩
  | postponedUntil => cases postponedUntil with
    | none => exact .inl rfl
    | some u => exact .inr ⟨u.millis, rfl⟩
  | createdFrom => cases createdFrom with
    | none => exact .inl rfl
    | some n => exact .inr ⟨n, rfl⟩
  | dueDate => cases dueDate with
    | none => exact .inl rfl
    | some u => exact .inr ⟨u.millis, rfl⟩

/-- The two orders of a field's content against an operand are **one order**, except of an
integer against a text. -/
theorem order_row (t : Task) {f : Field} {v : Stored} (h : f = .title ∨ ∀ s, v ≠ .text s) :
    (t.cells f).orderOperand f.affinity v = (t.row f).order v := by
  have hcells : t.cells f = (t.row f).cell := rfl
  rw [hcells]
  by_cases hf : f = .title
  · subst hf
    cases v <;> rfl
  · have htext := h.resolve_left hf
    have haff : f.affinity = .integer := by cases f <;> first | rfl | exact absurd rfl hf
    rw [haff]
    rcases t.row_of_ne_title hf with hrow | ⟨n, hrow⟩ <;> rw [hrow]
    · cases v <;> rfl
    · cases v with
      | null | integer m => rfl
      | text s => exact absurd rfl (htext s)

end Task

/-- A comparison whose two orders are one is true over the row if and only if it holds in
memory. -/
theorem Comparison.truth_beq_yes (c : Comparison) (t : Task) {f : Field} {v : Stored}
    (h : f = .title ∨ ∀ s, v ≠ .text s) :
    (c.truth f.affinity (t.cells f) v == .yes) = c.holds (t.row f) v := by
  cases c with
  | equals =>
      rw [truth, t.order_row h]
      exact Predicate.elim_unknown_beq_yes _ .eq
  | lessThan =>
      rw [truth, t.order_row h]
      exact Predicate.elim_unknown_beq_yes _ .lt
  | isNull =>
      have hnull : (t.cells f == .null) = (t.row f == .null) := by
        have hcells : t.cells f = (t.row f).cell := rfl
        rw [hcells]
        cases t.row f <;> rfl
      simp only [truth, holds, hnull]
      cases t.row f == .null <;> rfl

/-! ### Plain predicates -/

namespace Predicate

/-- Memory and tables **agree** on a predicate and a task. -/
def Agrees (p : Predicate) (t : Task) : Prop :=
  p.holds t = (p.truth t.cells == .yes)

instance (p : Predicate) (t : Task) : Decidable (p.Agrees t) :=
  inferInstanceAs (Decidable (p.holds t = (p.truth t.cells == .yes)))

/-- A **plain** predicate fits into a statement, names fields, and compares texts with titles
only. -/
structure Plain (p : Predicate) : Prop where
  fits : p.Fits
  named : p.NamesFields
  texts : ∀ c ∈ p.conditions,
    Field.find? c.field = some .title ∨ ∀ s, c.expected.stored ≠ .text s

/-- A condition agrees if its two orders are one. -/
theorem agrees_condition {c : Condition} {f : Field} (hf : Field.find? c.field = some f)
    (h : f = .title ∨ ∀ s, c.expected.stored ≠ .text s) (t : Task) : (condition c).Agrees t := by
  have hholds : (condition c).holds t = c.comparison.holds (t.row f) c.expected.stored := by
    simp only [holds, Condition.holds, Task.value?, hf]
    rfl
  have htruth : (condition c).truth t.cells =
      c.comparison.truth f.affinity (t.cells f) c.expected.stored := by
    simp only [truth, Condition.truth, Field.column?_of_find? hf]
  rw [Agrees, hholds, htruth, Comparison.truth_beq_yes c.comparison t h]

/-- A joined predicate agrees if both its parts do. -/
theorem agrees_combine {k : Combinator} {l r : Predicate} {t : Task} (hl : l.Agrees t)
    (hr : r.Agrees t) : (combine k l r).Agrees t := by
  rw [Agrees, holds, truth, Predicate.truth_beq_yes, ← hl, ← hr]

/-- **Memory and tables agree** on a plain predicate. Its size plays no part in it, so the induction
is on the other two properties. -/
theorem Plain.agrees {p : Predicate} (plain : p.Plain) (t : Task) : p.Agrees t := by
  obtain ⟨-, named, texts⟩ := plain
  induction p with
  | always => rfl
  | condition c =>
      obtain ⟨f, hf⟩ := namesFields_condition.mp named
      refine agrees_condition hf ?_ t
      rcases texts c List.mem_cons_self with htitle | htext
      · exact .inl (Option.some.inj (hf.symm.trans htitle))
      · exact .inr htext
  | combine k l r ihl ihr =>
      obtain ⟨hl, hr⟩ := namesFields_combine.mp named
      exact agrees_combine (ihl hl fun c hc => texts c (List.mem_append_left _ hc))
        (ihr hr fun c hc => texts c (List.mem_append_right _ hc))

/-- A plain predicate is not refused. -/
theorem Plain.fault? {p : Predicate} (plain : p.Plain) : p.fault? = none :=
  (fault?_eq_none_iff plain.named).mpr plain.fits

/-! ### Looking up ids -/

/-- A predicate that never asks for the id has no operand that could miss one. -/
theorem AvoidsId.findsExactly {p : Predicate} (named : p.NamesFields) (avoids : p.AvoidsId)
    (id : Cell) : p.FindsExactly id :=
  findsExactly_of_conditions fun c hc hid _ =>
    absurd ((named.column?_eq hc).symm.trans hid) (avoids c hc)

/-- A plain predicate compares ids with integers only, and an integer that equals an id finds
it. -/
theorem Plain.findsExactly {p : Predicate} (plain : p.Plain) (id : Cell) :
    p.FindsExactly id := by
  refine findsExactly_of_conditions fun c hc hid _ horder => ?_
  rw [plain.named.column?_eq hc] at hid
  have htext := (plain.texts c hc).resolve_left (by rw [hid]; decide)
  cases hv : c.expected.stored with
  | null =>
      rw [hv] at horder
      cases id <;> cases horder
  | integer n => exact ⟨n, rfl⟩
  | text s => exact absurd hv (htext s)

/-! ### What the manager asks -/

/-- The predicate that holds of everything is plain. -/
theorem plain_always : always.Plain where
  fits := by decide
  named := by simp [NamesFields, conditions]
  texts := by simp [conditions]

/-- Asking for an id is plain. -/
theorem plain_hasId (id : Int64) : (hasId id).Plain where
  fits := ⟨show 2 ≤ maxNesting by decide, show 1 ≤ maxOperands by decide⟩
  named := by simp [NamesFields, conditions, hasId]
  texts := by simp [conditions, hasId, Value.stored]

/-- Asking for the tasks to show is plain. -/
theorem plain_relevantAt (now : Instant) : (relevantAt now).Plain where
  fits := ⟨show 5 ≤ maxNesting by decide, show 2 ≤ maxOperands by decide⟩
  named := by
    simp [NamesFields, conditions, relevantAt, missing, before, Predicate.and, Predicate.or]
  texts := by
    simp [conditions, relevantAt, missing, before, Predicate.and, Predicate.or, Value.stored]

end Predicate

end Taskbook
