import Taskbook.Proofs.Query.Construction

/-!
# No Text Reaches a Clause, and No Operand Is Misplaced

What a caller passes to a constructor reaches the text of a clause only as a plain name, and a
value never reaches it at all: it is an operand, and the text has a question mark in its place.
This module proves both, from what the caller wrote to the characters of the text.

The characters are treated by the grammar. A text that the grammar spells is made of characters of
words, blanks, parentheses, two operators and question marks, and the tree alone determines it.
Its question marks stand in the order of the comparisons that need a value, each right after the
name and the operator of its own.

## Position convention

A question mark is met by splitting the text around it. Its number is how many question marks the
part before it has, so the first has the number zero.

## Main results

* `ClauseTree.Spells.isClauseChar`: which characters a clause is **made of**;
* `ClauseTree.Spells.text_unique`: the **tree determines the text**;
* `ClauseTree.Spells.aligned`: each question mark follows **its own name and operator**;
* `Construction.clause_aligned`: **no injection and no misalignment**, for every construction.
-/

namespace Taskbook

namespace ClauseTree

variable {w : ClauseTree} {cs ds : List Char}

/-! ### The characters of a clause -/

/-- A character that a clause may be made of. -/
def IsClauseChar (c : Char) : Prop :=
  Text.IsWordChar c ∨ c ∈ [' ', '(', ')', '=', '<', '?']

/-- The characters of an identifier may stand in a clause. -/
theorem isClauseChar_of_isIdentifier {f : String} (hf : Text.isIdentifier f = true) :
    ∀ c ∈ f.toList, IsClauseChar c :=
  fun c hc => .inl ((Text.isNameChar_iff c).mp (isNameChar_of_isIdentifier hf c hc))

instance (c : Char) : Decidable (IsClauseChar c) :=
  decidable_of_iff (isNameChar c = true ∨ c ∈ [' ', '(', ')', '=', '<', '?'])
    (or_congr_left (Text.isNameChar_iff c))

/-- A fixed text is checked character by character. -/
theorem isClauseChar_of_all (h : cs.all (fun c => decide (IsClauseChar c)) = true) :
    ∀ c ∈ cs, IsClauseChar c :=
  fun c hc => of_decide_eq_true (List.all_eq_true.mp h c hc)

/-- **What a clause is made of.** -/
theorem Spells.isClauseChar (h : Spells w cs) : ∀ c ∈ cs, IsClauseChar c := by
  induction h with
  | always => exact isClauseChar_of_all (by decide)
  | equals hf | lessThan hf | isNull hf =>
      exact List.forall_mem_append.mpr
        ⟨isClauseChar_of_isIdentifier hf, isClauseChar_of_all (by decide)⟩
  | and hl hr ihl ihr | or hl hr ihl ihr =>
      simp only [List.forall_mem_append]
      have hopen : ∀ c ∈ ['('], IsClauseChar c := isClauseChar_of_all (by decide)
      have hclose : ∀ c ∈ [')'], IsClauseChar c := isClauseChar_of_all (by decide)
      exact ⟨⟨⟨⟨hopen, ihl⟩, isClauseChar_of_all (by decide)⟩, ihr⟩, hclose⟩

/-- **The tree determines the text.** -/
theorem Spells.text_unique (h : Spells w cs) (h' : Spells w ds) : cs = ds := by
  induction h generalizing ds with
  | always | equals hf | lessThan hf | isNull hf =>
      cases h'
      rfl
  | and hl hr ihl ihr =>
      cases h' with
      | and hl' hr' => rw [ihl hl', ihr hr']
  | or hl hr ihl ihr =>
      cases h' with
      | or hl' hr' => rw [ihl hl', ihr hr']

/-! ### The question marks of a clause -/

/-- The comparisons that have a question mark, from left to right, each with its name. -/
def marked : ClauseTree → List (String × Comparison)
  | always => []
  | compare f c => if c.usesValue then [(f, c)] else []
  | join _ l r => l.marked ++ r.marked

/-- A tree has as many question marks as marked comparisons. -/
theorem length_marked (w : ClauseTree) : w.marked.length = w.questionMarks := by
  induction w with
  | always => rfl
  | compare f c =>
      rw [marked, questionMarks]
      cases c.usesValue <;> rfl
  | join k l r ihl ihr => rw [marked, questionMarks, List.length_append, ihl, ihr]

/-- A text is **aligned** with a list of comparisons: wherever it is split at a question mark, the
comparison with the number of the question mark ends the part before it, with its name, a blank,
its operator and a blank. The name is whole: it begins the text or follows a parenthesis. -/
def Aligned (marked : List (String × Comparison)) (cs : List Char) : Prop :=
  ∀ before after, cs = before ++ '?' :: after →
    ∃ f c, marked[before.count '?']? = some (f, c) ∧
      ∃ rest, before = rest ++ (f ++ " " ++ c.operator ++ " ").toList ∧
        (rest = [] ∨ rest.getLast? = some '(')

/-- A question mark in two texts stands in the first or in the second. -/
theorem eq_append_mark {before after : List Char} (h : cs ++ ds = before ++ '?' :: after) :
    (∃ rest, cs = before ++ '?' :: rest) ∨
      ∃ rest, before = cs ++ rest ∧ ds = rest ++ '?' :: after := by
  rcases List.append_eq_append_iff.mp h with ⟨rest, hbefore, hds⟩ | ⟨rest, hcs, hafter⟩
  · exact .inr ⟨rest, hbefore, hds⟩
  · rcases List.cons_eq_append_iff.mp hafter with ⟨rfl, hds⟩ | ⟨tail, rfl, -⟩
    · exact .inr ⟨[], by simpa using hcs.symm, by simpa using hds⟩
    · exact .inl ⟨tail, hcs⟩

/-- A text without question marks is aligned with anything. -/
theorem aligned_of_not_mem {marked : List (String × Comparison)} (h : '?' ∉ cs) :
    Aligned marked cs := by
  rintro before after rfl
  exact absurd (List.mem_append_right before List.mem_cons_self) h

/-- A comparison that ends in its question mark is aligned. -/
theorem aligned_compare {f : String} {c : Comparison} (hf : Text.isIdentifier f = true)
    (hc : '?' ∉ (" " ++ c.operator ++ " ").toList) :
    Aligned [(f, c)] ((f ++ " " ++ c.operator ++ " ").toList ++ ['?']) := by
  intro before after hsplit
  have hnone : (f ++ " " ++ c.operator ++ " ").toList.count '?' = 0 := by
    have htext : (f ++ " " ++ c.operator ++ " ").toList =
        f.toList ++ (" " ++ c.operator ++ " ").toList := by simp
    rw [htext, List.count_append, count_name hf, List.count_eq_zero_of_not_mem hc]
  rcases eq_append_mark hsplit with ⟨rest, hrest⟩ | ⟨rest, hbefore, hmark⟩
  · rw [hrest, List.count_append, List.count_cons_self] at hnone
    omega
  · obtain rfl : rest = [] := by
      rcases List.append_eq_cons_iff.mp hmark.symm with ⟨hnil, -⟩ | ⟨tail, -, htail⟩
      · exact hnil
      · simp at htail
    rw [List.append_nil] at hbefore
    exact ⟨f, c, by rw [hbefore, hnone]; rfl, [], hbefore, .inl rfl⟩

/-- Two aligned texts in parentheses are aligned, whatever stands between them, if it has no
question mark of its own and ends in the second parenthesis. -/
theorem Aligned.join {ls rs : List (String × Comparison)} {between : List Char}
    (hl : Aligned ls cs) (hr : Aligned rs ds) (hcount : cs.count '?' = ls.length)
    (hnone : '?' ∉ between) (hlast : between.getLast? = some '(') :
    Aligned (ls ++ rs) ("(".toList ++ cs ++ between ++ ds ++ ")".toList) := by
  intro before after hsplit
  rcases eq_append_mark hsplit with ⟨rest, hrest⟩ | ⟨rest, -, hclose⟩
  swap
  · exact absurd (hclose ▸ List.mem_append_right rest List.mem_cons_self) (by decide)
  rcases eq_append_mark hrest with ⟨rest, hrest⟩ | ⟨inner, hbefore, hds⟩
  · -- The question mark stands in the left text.
    rcases eq_append_mark hrest with ⟨rest, hrest⟩ | ⟨rest, -, hbetween⟩
    swap
    · exact absurd (hbetween ▸ List.mem_append_right rest List.mem_cons_self) hnone
    rcases eq_append_mark hrest with ⟨rest, hopen⟩ | ⟨inner, hbefore, hcs⟩
    · exact absurd (hopen ▸ List.mem_append_right before List.mem_cons_self) (by decide)
    obtain ⟨f, c, hmarked, start, hinner, hstart⟩ := hl inner rest hcs
    have hnumber : before.count '?' = inner.count '?' := by
      rw [hbefore, List.count_append]
      exact Nat.zero_add _
    refine ⟨f, c, ?_, "(".toList ++ start, ?_, .inr ?_⟩
    · have hlt : inner.count '?' < ls.length := (List.getElem?_eq_some_iff.mp hmarked).1
      rw [hnumber, List.getElem?_append_left hlt, hmarked]
    · rw [hbefore, hinner, List.append_assoc]
    · rcases hstart with rfl | hstart
      · rfl
      · rw [List.getLast?_append, hstart, Option.some_or]
  · -- The question mark stands in the right text, after those of the left one.
    obtain ⟨f, c, hmarked, start, hinner, hstart⟩ := hr inner rest hds
    have hnumber : before.count '?' = ls.length + inner.count '?' := by
      rw [hbefore, List.count_append, List.count_append, List.count_append,
        List.count_eq_zero_of_not_mem hnone, hcount]
      simp
    refine ⟨f, c, ?_, "(".toList ++ cs ++ between ++ start, ?_, .inr ?_⟩
    · rw [hnumber, List.getElem?_append_right (Nat.le_add_right _ _), Nat.add_sub_cancel_left,
        hmarked]
    · simp only [hbefore, hinner, List.append_assoc]
    · rcases hstart with rfl | hstart
      · rw [List.append_nil, List.getLast?_append, hlast, Option.some_or]
      · rw [List.getLast?_append, hstart, Option.some_or]

/-- **Each question mark follows its own name and operator.** -/
theorem Spells.aligned (h : Spells w cs) : Aligned w.marked cs := by
  induction h with
  | always => exact aligned_of_not_mem (by decide)
  | @equals f hf =>
      have htext : f.toList ++ " = ?".toList =
          (f ++ " " ++ Comparison.equals.operator ++ " ").toList ++ ['?'] := by
        simp [Comparison.operator]
      exact htext ▸ aligned_compare hf (by decide)
  | @lessThan f hf =>
      have htext : f.toList ++ " < ?".toList =
          (f ++ " " ++ Comparison.lessThan.operator ++ " ").toList ++ ['?'] := by
        simp [Comparison.operator]
      exact htext ▸ aligned_compare hf (by decide)
  | isNull hf =>
      refine aligned_of_not_mem (List.not_mem_append ?_ (by decide))
      exact List.count_eq_zero.mp (count_name hf)
  | and hl hr ihl ihr =>
      exact ihl.join ihr (by rw [hl.count_eq, length_marked]) (by decide) (by decide)
  | or hl hr ihl ihr =>
      exact ihl.join ihr (by rw [hl.count_eq, length_marked]) (by decide) (by decide)

end ClauseTree

/-! ### From what a caller wrote to the clause -/

namespace Construction

/-- The marked comparisons of a construction are its valued requests. -/
theorem marked_shape (x : Construction) :
    x.shape.marked = x.valued.map fun r => (r.field, r.comparison) := by
  induction x with
  | always | equals f v | lessThan f v | isNull f | lessThanOrNull f v => rfl
  | make r =>
      rw [shape, ClauseTree.marked, valued, requests, List.filter_singleton]
      cases r.comparison.usesValue <;> rfl
  | and l r ihl ihr | or l r ihl ihr =>
      rw [shape, ClauseTree.marked, valued, requests, List.filter_append, List.map_append]
      exact congrArg₂ _ ihl ihr

/-- A clause is **faithful** to a construction: what the caller wrote reaches it as names and as
operands, in the order in which it was written, and in no other way. -/
structure Faithful (x : Construction) (c : Clause) : Prop where
  /-- The text is made of characters of words, blanks, parentheses, operators and question
  marks. -/
  chars : ∀ d ∈ c.text.toList, ClauseTree.IsClauseChar d
  /-- The text depends on the shape alone, and on no value. -/
  shaped : ∀ (y : Construction) (q : Predicate), y.build = .ok q → y.shape = x.shape →
    q.clause.text = c.text
  /-- Each question mark has an operand. -/
  counted : c.placeholders = c.operands.length
  /-- No operand is null. -/
  present : .null ∉ c.operands
  /-- The operands are the stored forms of the valued requests, from left to right. -/
  operands : c.operands = x.valued.map fun r => r.expected.stored
  /-- The question mark with the number `k` comes right after the name and the operator of the
  valued request with that number, and the name is whole. -/
  aligned : ∀ before after, c.text.toList = before ++ '?' :: after →
    ∃ r, x.valued[before.count '?']? = some r ∧
      ∃ rest, before = rest ++ (r.field ++ " " ++ r.comparison.operator ++ " ").toList ∧
        (rest = [] ∨ rest.getLast? = some '(')

/-- The clause of what is built is faithful to the construction. -/
theorem faithful_of_build {x : Construction} {p : Predicate} (h : x.build = .ok p) :
    x.Faithful p.clause := by
  have hspells := p.spells_tree
  rw [tree_of_build h] at hspells
  have hoperands := operands_of_build h
  constructor
  case chars => exact hspells.isClauseChar
  case shaped =>
    intro y q hq hshape
    have hspells' := q.spells_tree
    rw [tree_of_build hq, hshape] at hspells'
    exact String.toList_inj.mp (hspells'.text_unique hspells)
  case counted =>
    rw [Clause.placeholders, hspells.count_eq, ← ClauseTree.length_marked, marked_shape, hoperands,
      List.length_map, List.length_map]
  case present =>
    rw [hoperands, List.mem_map]
    rintro ⟨r, hr, hnull⟩
    obtain ⟨hrequest, huse⟩ := List.mem_filter.mp hr
    obtain ⟨-, hvalue⟩ := x.exists_build_iff.mp ⟨p, h⟩ r hrequest
    exact hvalue huse ((Value.stored_eq_null_iff _).mp hnull)
  case operands => exact hoperands
  case aligned =>
    intro before after hsplit
    obtain ⟨f, c, hmarked, hrest⟩ := hspells.aligned before after hsplit
    rw [marked_shape, List.getElem?_map, Option.map_eq_some_iff] at hmarked
    obtain ⟨r, hr, hpair⟩ := hmarked
    obtain ⟨rfl, rfl⟩ := Prod.mk.inj hpair
    exact ⟨r, hr, hrest⟩

/-- **No text reaches a clause, and no operand is misplaced.** Whatever texts and values are passed
to the constructors, they build a predicate if and only if all names are plain and all needed
values are there, and the clause of what is built is faithful to what was asked for. -/
theorem clause_aligned (x : Construction) :
    ((∃ p, x.build = .ok p) ↔ ∀ r ∈ x.requests, r.Acceptable) ∧
      ∀ p, x.build = .ok p → x.Faithful p.clause :=
  ⟨x.exists_build_iff, fun _ h => faithful_of_build h⟩

/-- A field called like a keyword, a text that looks like a clause, and a value that is dropped. -/
theorem clause_aligned_hostile :
    let x : Construction :=
      .and (.lessThanOrNull "due_date" (.instant ⟨5⟩))
        (.or (.equals "AND" (.text "? OR 1 = 1")) (.make ⟨"title", .isNull, .text "?"⟩))
    ∃ p, x.build = .ok p ∧
      p.clause =
        ⟨"((due_date < ?) OR (due_date IS NULL)) AND ((AND = ?) OR (title IS NULL))",
          [.integer 5, .text "? OR 1 = 1"]⟩ ∧
      x.Faithful p.clause :=
  ⟨_, rfl, by decide, (clause_aligned _).2 _ rfl⟩

end Construction

end Taskbook
