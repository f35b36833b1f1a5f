import Mathlib.Data.List.Basic
import Taskbook.Query.Predicate

/-!
# The Grammar of Clauses, and a Reader for It

A clause is a text, and nothing but its grammar says which filter the text is. This module
fixes the grammar

    W ::= `1 = 1` | `f = ?` | `f < ?` | `f IS NULL` | `(W) AND (W)` | `(W) OR (W)`

over identifiers `f`, as the relation `Spells` between a `ClauseTree` and the characters
that it is written with, and a recursive-descent reader for it. The reader is given how
deep it may descend and answers the tree at the beginning of a text together with the text
after it.

No clause is a proper beginning of another one: a tree that is spelled at the beginning of a
text is the one that the reader finds there, whatever follows (`read_append`). This is what
makes the grammar unambiguous, although a field may be called `AND`, `OR`, `IS` or `NULL`.

## Main results

* `ClauseTree.read?_eq_some_iff`: the reader finds a tree in a text if and only if the
  grammar spells the tree so;
* `ClauseTree.Spells.unique`: **the grammar is unambiguous**.
-/

namespace Taskbook

/-- What a clause says: everything, a comparison of a named column, or two clauses joined. -/
inductive ClauseTree where
  | always
  | compare (field : String) (comparison : Comparison)
  | join (combinator : Combinator) (left right : ClauseTree)
  deriving DecidableEq, Repr

namespace ClauseTree

/-- The **grammar**: the characters that a tree is written with. -/
inductive Spells : ClauseTree → List Char → Prop
  | always : Spells always "1 = 1".toList
  | equals {f : String} (hf : Text.isIdentifier f = true) :
      Spells (compare f .equals) (f.toList ++ " = ?".toList)
  | lessThan {f : String} (hf : Text.isIdentifier f = true) :
      Spells (compare f .lessThan) (f.toList ++ " < ?".toList)
  | isNull {f : String} (hf : Text.isIdentifier f = true) :
      Spells (compare f .isNull) (f.toList ++ " IS NULL".toList)
  | and {l r : ClauseTree} {cs ds : List Char} (hl : Spells l cs) (hr : Spells r ds) :
      Spells (join .and l r)
        ("(".toList ++ cs ++ ") AND (".toList ++ ds ++ ")".toList)
  | or {l r : ClauseTree} {cs ds : List Char} (hl : Spells l cs) (hr : Spells r ds) :
      Spells (join .or l r)
        ("(".toList ++ cs ++ ") OR (".toList ++ ds ++ ")".toList)

/-- How deep a tree nests. A tree without a join has depth one. -/
def depth : ClauseTree → Nat
  | join _ l r => max l.depth r.depth + 1
  | _ => 1

/-! ### The reader -/

/-- Whether a character may stand in a name. -/
def isNameChar (c : Char) : Bool :=
  Text.isNameStart c || c.isDigit

/-- The comparison at the beginning of a text, and the text after it. -/
def readComparison (cs : List Char) : Option (Comparison × List Char) :=
  match cs.dropPrefix? " = ?".toList with
  | some rest => some (.equals, rest)
  | none =>
    match cs.dropPrefix? " < ?".toList with
    | some rest => some (.lessThan, rest)
    | none => (cs.dropPrefix? " IS NULL".toList).map (.isNull, ·)

/-- The clause without parentheses at the beginning of a text, and the text after it. A name
goes as far as it can. -/
def readPlain (cs : List Char) : Option (ClauseTree × List Char) :=
  match cs.dropPrefix? "1 = 1".toList with
  | some rest => some (always, rest)
  | none =>
    let name := String.ofList (cs.takeWhile isNameChar)
    if Text.isIdentifier name then
      (readComparison (cs.dropWhile isNameChar)).map fun c => (compare name c.1, c.2)
    else none

/-- The keyword between two parenthesised clauses, with the parentheses beside it, and the
text after it. -/
def readKeyword (cs : List Char) : Option (Combinator × List Char) :=
  match cs.dropPrefix? ") AND (".toList with
  | some rest => some (.and, rest)
  | none => (cs.dropPrefix? ") OR (".toList).map (.or, ·)

/-- The clause at the beginning of a text, and the text after it, when the clause does not
nest deeper than allowed. -/
def read : Nat → List Char → Option (ClauseTree × List Char)
  | 0, _ => none
  | n + 1, '(' :: cs => do
      let (l, cs) ← read n cs
      let (k, cs) ← readKeyword cs
      let (r, cs) ← read n cs
      let rest ← cs.dropPrefix? ")".toList
      pure (join k l r, rest)
  | _ + 1, cs => readPlain cs

/-- The clause that a whole text is. A text nests less deep than it is long. -/
def read? (s : String) : Option ClauseTree :=
  match read s.toList.length s.toList with
  | some (w, []) => some w
  | _ => none

/-! ### Beginnings of texts -/

/-- What follows a known beginning is found by dropping the beginning. -/
theorem dropPrefix?_append (p cs : List Char) : (p ++ cs).dropPrefix? p = some cs :=
  List.dropPrefix?_eq_some_iff.mpr ⟨p, rfl, beq_self_eq_true p⟩

/-- A beginning that can be dropped is there. -/
theorem eq_append_of_dropPrefix? {p cs rest : List Char} (h : cs.dropPrefix? p = some rest) :
    cs = p ++ rest := by
  obtain ⟨q, rfl, hq⟩ := List.dropPrefix?_eq_some_iff.mp h
  rw [eq_of_beq hq]

/-- All characters of an identifier may stand in a name. -/
theorem isNameChar_of_isIdentifier {f : String} (hf : Text.isIdentifier f = true) :
    ∀ c ∈ f.toList, isNameChar c = true := by
  rw [Text.isIdentifier] at hf
  cases hs : f.toList with
  | nil => simp
  | cons c cs =>
      rw [hs] at hf
      simp only [Bool.and_eq_true, List.all_eq_true] at hf
      obtain ⟨hc, hcs⟩ := hf
      intro d hd
      rcases List.mem_cons.mp hd with rfl | hd
      · simp [isNameChar, hc]
      · exact hcs d hd

/-- An identifier does not begin like the clause that is always true. -/
theorem isNameStart_head {f : String} (hf : Text.isIdentifier f = true) :
    ∃ c cs, f.toList = c :: cs ∧ Text.isNameStart c = true := by
  rw [Text.isIdentifier] at hf
  cases hs : f.toList with
  | nil => simp [hs] at hf
  | cons c cs =>
      rw [hs] at hf
      simp only [Bool.and_eq_true] at hf
      exact ⟨c, cs, rfl, hf.1⟩

/-- After a name and a blank the reader looks for a comparison. -/
theorem readPlain_name {f : String} {cs : List Char} (hf : Text.isIdentifier f = true)
    (hcs : cs.head? = some ' ') :
    readPlain (f.toList ++ cs) = (readComparison cs).map fun c => (compare f c.1, c.2) := by
  obtain ⟨cs, rfl⟩ := List.head?_eq_some_iff.mp hcs
  have hname := isNameChar_of_isIdentifier hf
  have htake : (f.toList ++ ' ' :: cs).takeWhile isNameChar = f.toList := by
    rw [List.takeWhile_append_of_pos hname, List.takeWhile_cons_of_neg (by decide),
      List.append_nil]
  have hdrop : (f.toList ++ ' ' :: cs).dropWhile isNameChar = ' ' :: cs := by
    rw [List.dropWhile_append_of_pos hname, List.dropWhile_cons_of_neg (by decide)]
  have hone : (f.toList ++ ' ' :: cs).dropPrefix? "1 = 1".toList = none := by
    obtain ⟨c, ds, hc, hstart⟩ := isNameStart_head hf
    rw [hc]
    have hne : ¬c = '1' := by
      rintro rfl
      exact absurd hstart (by decide)
    simp [List.dropPrefix?, hne]
  rw [readPlain, hone, htake, hdrop, String.ofList_toList]
  simp [hf]

/-! ### Reading what the grammar spells -/

/-- A tree is spelled with at least as many characters as it is deep. -/
theorem Spells.depth_le_length {w : ClauseTree} {cs : List Char} (h : Spells w cs) :
    w.depth ≤ cs.length := by
  induction h with
  | always => decide
  | equals hf => simp [depth]
  | lessThan hf => simp [depth]
  | isNull hf => simp [depth]
  | and hl hr ihl ihr =>
      simp only [depth, List.length_append]
      have : 1 ≤ "(".toList.length := by decide
      omega
  | or hl hr ihl ihr =>
      simp only [depth, List.length_append]
      have : 1 ≤ "(".toList.length := by decide
      omega

/-- A clause without a join that does not begin with a parenthesis is read as it is. -/
theorem read_of_head {n : Nat} {cs : List Char} (h : cs.head? ≠ some '(') :
    read (n + 1) cs = readPlain cs := by
  rw [read]
  rintro ds rfl
  exact h rfl

/-- An identifier does not begin with a parenthesis. -/
theorem head?_name {f : String} (hf : Text.isIdentifier f = true) (cs : List Char) :
    (f.toList ++ cs).head? ≠ some '(' := by
  obtain ⟨c, ds, hc, hstart⟩ := isNameStart_head hf
  rw [hc]
  simp only [List.cons_append, List.head?_cons, ne_eq, Option.some.injEq]
  rintro rfl
  exact absurd hstart (by decide)

/-- A comparison is read after the name that it is about. -/
theorem read_compare {n : Nat} {f : String} {c : Comparison} {cs rest : List Char}
    (hf : Text.isIdentifier f = true) (hcs : cs.head? = some ' ')
    (hc : readComparison cs = some (c, rest)) :
    read (n + 1) (f.toList ++ cs) = some (compare f c, rest) := by
  rw [read_of_head (head?_name hf _), readPlain_name hf hcs, hc]
  rfl

/-- Two clauses and the keyword between them are read one after the other. -/
theorem read_join {n : Nat} {l r : ClauseTree} {k : Combinator} {cs ds es rest : List Char}
    (hl : read n cs = some (l, ds)) (hk : readKeyword ds = some (k, es))
    (hr : read n es = some (r, ")".toList ++ rest)) :
    read (n + 1) ('(' :: cs) = some (join k l r, rest) := by
  simp only [read, hl, hk, hr, dropPrefix?_append, Option.bind_eq_bind, Option.bind_some,
    Option.pure_def]

/-- **Completeness, with a rest.** A spelled tree is read off the beginning of any text that
begins with its spelling. -/
theorem read_append {w : ClauseTree} {cs : List Char} (h : Spells w cs) :
    ∀ (n : Nat) (rest : List Char), w.depth ≤ n → read n (cs ++ rest) = some (w, rest) := by
  have succ {d n : Nat} (hd : d + 1 ≤ n) : ∃ m, n = m + 1 ∧ d ≤ m := ⟨n - 1, by omega⟩
  induction h with
  | always =>
      intro n rest hn
      obtain ⟨n, rfl, -⟩ := succ hn
      rw [read_of_head (by simp)]
      rw [readPlain, dropPrefix?_append]
  | equals hf =>
      intro n rest hn
      obtain ⟨n, rfl, -⟩ := succ hn
      rw [List.append_assoc]
      exact read_compare hf (by simp) (by simp [readComparison, List.dropPrefix?])
  | lessThan hf =>
      intro n rest hn
      obtain ⟨n, rfl, -⟩ := succ hn
      rw [List.append_assoc]
      exact read_compare hf (by simp) (by simp [readComparison, List.dropPrefix?])
  | isNull hf =>
      intro n rest hn
      obtain ⟨n, rfl, -⟩ := succ hn
      rw [List.append_assoc]
      exact read_compare hf (by simp) (by simp [readComparison, List.dropPrefix?])
  | @and l r cs ds hl hr ihl ihr =>
      intro n rest hn
      obtain ⟨n, rfl, hd⟩ := succ hn
      have hk : readKeyword (") AND (".toList ++ (ds ++ (")".toList ++ rest))) =
          some (.and, ds ++ (")".toList ++ rest)) := by
        simp [readKeyword, List.dropPrefix?]
      simp only [List.append_assoc]
      exact read_join (ihl n _ (by omega)) hk (ihr n _ (by omega))
  | @or l r cs ds hl hr ihl ihr =>
      intro n rest hn
      obtain ⟨n, rfl, hd⟩ := succ hn
      have hk : readKeyword (") OR (".toList ++ (ds ++ (")".toList ++ rest))) =
          some (.or, ds ++ (")".toList ++ rest)) := by
        simp [readKeyword, List.dropPrefix?]
      simp only [List.append_assoc]
      exact read_join (ihl n _ (by omega)) hk (ihr n _ (by omega))

/-! ### What is read is spelled so -/

/-- A comparison that is read stands there. -/
theorem spells_of_readComparison {f : String} {cs rest : List Char} {c : Comparison}
    (hf : Text.isIdentifier f = true) (h : readComparison cs = some (c, rest)) :
    ∃ ds, Spells (compare f c) ds ∧ f.toList ++ cs = ds ++ rest := by
  rw [readComparison] at h
  split at h
  · next r hr =>
    obtain ⟨rfl, rfl⟩ := Prod.mk.inj (Option.some.inj h)
    exact ⟨_, .equals hf, by rw [eq_append_of_dropPrefix? hr, List.append_assoc]⟩
  · split at h
    · next r hr =>
      obtain ⟨rfl, rfl⟩ := Prod.mk.inj (Option.some.inj h)
      exact ⟨_, .lessThan hf, by rw [eq_append_of_dropPrefix? hr, List.append_assoc]⟩
    · obtain ⟨r, hr, he⟩ := Option.map_eq_some_iff.mp h
      obtain ⟨rfl, rfl⟩ := Prod.mk.inj he
      exact ⟨_, .isNull hf, by rw [eq_append_of_dropPrefix? hr, List.append_assoc]⟩

/-- A clause without a join that is read stands there. -/
theorem spells_of_readPlain {cs rest : List Char} {w : ClauseTree}
    (h : readPlain cs = some (w, rest)) : ∃ ds, Spells w ds ∧ cs = ds ++ rest := by
  rw [readPlain] at h
  split at h
  · next r hr =>
    obtain ⟨rfl, rfl⟩ := Prod.mk.inj (Option.some.inj h)
    exact ⟨_, .always, eq_append_of_dropPrefix? hr⟩
  · simp only at h
    split at h
    · next hf =>
      obtain ⟨⟨c, r⟩, hc, he⟩ := Option.map_eq_some_iff.mp h
      obtain ⟨rfl, rfl⟩ := Prod.mk.inj he
      obtain ⟨ds, hs, hds⟩ := spells_of_readComparison hf hc
      refine ⟨ds, hs, ?_⟩
      rw [← hds, String.toList_ofList, List.takeWhile_append_dropWhile]
    · cases h

/-- **Soundness.** What the reader finds is spelled at the beginning of the text, and the
reader answers what follows. -/
theorem spells_of_read {n : Nat} {cs rest : List Char} {w : ClauseTree}
    (h : read n cs = some (w, rest)) : ∃ ds, Spells w ds ∧ cs = ds ++ rest := by
  induction n generalizing cs rest w with
  | zero => simp [read] at h
  | succ n ih =>
      by_cases hp : cs.head? = some '('
      · obtain ⟨cs, rfl⟩ : ∃ ds, cs = '(' :: ds := List.head?_eq_some_iff.mp hp
        simp only [read, Option.bind_eq_bind, Option.bind_eq_some_iff, Option.pure_def,
          Option.some.injEq, Prod.mk.injEq, Prod.exists] at h
        obtain ⟨l, cs₁, hl, k, cs₂, hk, r, cs₃, hr, cs₄, hcs, rfl, rfl⟩ := h
        obtain ⟨ds₁, hs₁, rfl⟩ := ih hl
        obtain ⟨ds₂, hs₂, rfl⟩ := ih hr
        obtain rfl := eq_append_of_dropPrefix? hcs
        rw [readKeyword] at hk
        split at hk
        · next r' hr' =>
          obtain ⟨rfl, rfl⟩ := Prod.mk.inj (Option.some.inj hk)
          obtain rfl := eq_append_of_dropPrefix? hr'
          exact ⟨_, .and hs₁ hs₂, by simp⟩
        · obtain ⟨r', hr', he⟩ := Option.map_eq_some_iff.mp hk
          obtain ⟨rfl, rfl⟩ := Prod.mk.inj he
          obtain rfl := eq_append_of_dropPrefix? hr'
          exact ⟨_, .or hs₁ hs₂, by simp⟩
      · rw [read_of_head hp] at h
        exact spells_of_readPlain h

/-! ### Whole texts -/

/-- The reader finds a tree in a text if and only if the grammar spells the tree so. -/
theorem read?_eq_some_iff {s : String} {w : ClauseTree} :
    read? s = some w ↔ Spells w s.toList := by
  constructor
  · intro h
    rw [read?] at h
    split at h
    · next v hv =>
      obtain rfl := Option.some.inj h
      obtain ⟨ds, hs, hds⟩ := spells_of_read hv
      rw [hds, List.append_nil]
      exact hs
    · cases h
  · intro h
    have hr := read_append h s.toList.length [] h.depth_le_length
    rw [List.append_nil] at hr
    rw [read?, hr]

/-- **The grammar is unambiguous**: no text is spelled by two trees. -/
theorem Spells.unique {v w : ClauseTree} {cs : List Char} (hv : Spells v cs)
    (hw : Spells w cs) : v = w := by
  have hv' : read? (.ofList cs) = some v := by
    rw [read?_eq_some_iff, String.toList_ofList]
    exact hv
  have hw' : read? (.ofList cs) = some w := by
    rw [read?_eq_some_iff, String.toList_ofList]
    exact hw
  exact Option.some.inj (hv'.symm.trans hw')

end ClauseTree

end Taskbook
