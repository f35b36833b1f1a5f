import Taskbook.Proofs.Json.Spelling

/-!
# Values from Their Tokens

A JSON value is written as one list of tokens, and the value is built from that list again. The
machine that builds values keeps the unfinished arrays and objects on a stack, so the statements
here are about a value inside others: the tokens of a value are used up, the stack around it is as
before, and the machine goes on behind the value.

Together with the spelling of tokens this gives the texts of a value: every text that spells the
tokens of a value, with whatever white space, is read as the value.

## Main results

* `Json.build_tokensOf`: **a value is built from its tokens**, whatever is around it;
* `Json.read_of_writtenAs`: **a text that writes a value** is read as the value.
-/

namespace Taskbook

namespace Json

mutual

/-- The tokens of a value. -/
def tokensOf : Json → List Token
  | null => [.null]
  | bool b => [.bool b]
  | number n => [.number n]
  | string units => [.string units]
  | array [] => [.openBracket, .closeBracket]
  | array (j :: items) => .openBracket :: (tokensOf j ++ itemsBehind items)
  | object [] => [.openBrace, .closeBrace]
  | object ((k, j) :: members) =>
    .openBrace :: .string k :: .colon :: (tokensOf j ++ membersBehind members)

/-- The tokens of the items of an array that stand behind another one, and of its end. -/
def itemsBehind : List Json → List Token
  | [] => [.closeBracket]
  | j :: items => .comma :: (tokensOf j ++ itemsBehind items)

/-- The tokens of the members of an object that stand behind another one, and of its end. -/
def membersBehind : List Member → List Token
  | [] => [.closeBrace]
  | (k, j) :: members => .comma :: .string k :: .colon :: (tokensOf j ++ membersBehind members)

end

/-- An array does not end where a value starts. -/
theorem build_itemOrEnd (st : List Frame) (j : Json) (rest : List Token) :
    build .itemOrEnd st (tokensOf j ++ rest) = build .value st (tokensOf j ++ rest) := by
  cases j with
  | array items => cases items <;> simp [tokensOf, build]
  | object members => cases members <;> simp [tokensOf, build]
  | _ => simp [tokensOf, build]

mutual

/-- **A value is built from its tokens**, whatever is around it. -/
theorem build_tokensOf (st : List Frame) (rest : List Token) :
    (j : Json) → build .value st (tokensOf j ++ rest) = build (.after j) st rest
  | null | bool _ | number _ | string _ => by
      simp only [tokensOf, List.singleton_append, build, build.start]
  | array [] | object [] => by
      simp only [tokensOf, List.cons_append, List.nil_append, build, build.start, List.reverse_nil]
  | array (j :: items) => by
      simp only [tokensOf, List.cons_append, List.append_assoc, build, build.start]
      rw [build_itemOrEnd, build_tokensOf _ _ j, build_itemsBehind, List.reverse_nil,
        List.nil_append]
  | object ((k, j) :: members) => by
      simp only [tokensOf, List.cons_append, List.append_assoc, build, build.start]
      rw [build_tokensOf _ _ j, build_membersBehind, List.reverse_nil, List.nil_append]

/-- An array is built from its items. -/
theorem build_itemsBehind (st : List Frame) (rest : List Token) (done : List Json) (j : Json) :
    (items : List Json) →
      build (.after j) (.array done :: st) (itemsBehind items ++ rest) =
        build (.after (.array (done.reverse ++ j :: items))) st rest
  | [] => by
      simp only [itemsBehind, List.singleton_append, build, List.reverse_cons]
  | i :: items => by
      simp only [itemsBehind, List.cons_append, List.append_assoc, build]
      rw [build_tokensOf _ _ i, build_itemsBehind, List.reverse_cons, List.append_assoc,
        List.singleton_append]

/-- An object is built from its members. -/
theorem build_membersBehind (st : List Frame) (rest : List Token) (done : List Member)
    (k : List StringUnit) (j : Json) :
    (members : List Member) →
      build (.after j) (.member done k :: st) (membersBehind members ++ rest) =
        build (.after (.object (done.reverse ++ (k, j) :: members))) st rest
  | [] => by
      simp only [membersBehind, List.singleton_append, build, List.reverse_cons]
  | (l, i) :: members => by
      simp only [membersBehind, List.cons_append, List.append_assoc, build]
      rw [build_tokensOf _ _ i, build_membersBehind, List.reverse_cons, List.append_assoc,
        List.singleton_append]

end

/-! ### Writing -/

/-- Characters **write** a value if they spell its tokens, whatever text comes behind them that
breaks a number. -/
def WrittenAs (j : Json) (cs : List Char) : Prop :=
  ∀ ⦃rest : List Char⦄ ⦃ts : List Token⦄, Breaks rest → Spells rest ts →
    Spells (cs ++ rest) (tokensOf j ++ ts)

/-- **A text that writes a value** is read as the value. -/
theorem read_of_writtenAs {text : String} {j : Json} (h : j.WrittenAs text.toList) :
    read text = some j := by
  have hspells : Spells (text.toList ++ []) (tokensOf j ++ []) := h nofun .nil
  rw [List.append_nil, List.append_nil] at hspells
  have hbuild := build_tokensOf [] [] j
  rw [List.append_nil] at hbuild
  rw [read, tokens_of_spells hspells, Option.bind_some, hbuild, build]

/-- A value of one token is written as the token is spelled. -/
theorem writtenAs_of_spelledBy {j : Json} {t : Token} {cs : List Char} (hj : tokensOf j = [t])
    (h : t.SpelledBy cs) : j.WrittenAs cs := by
  intro rest ts hrest hts
  rw [hj, List.singleton_append]
  refine .token h ?_ hts
  cases t with
  | number n => exact hrest
  | _ => trivial

/-- The character of a mark is spelled before anything. -/
theorem Spells.mark {c : Char} {t : Token} {cs : List Char} {ts : List Token}
    (hc : mark? c = some t) (h : Spells cs ts) : Spells (c :: cs) (t :: ts) := by
  have hmark : isSpace c = false ∧ t.EndsBefore cs := by
    unfold mark? at hc
    split at hc <;> cases hc <;> exact ⟨rfl, trivial⟩
  exact .token (spelledBy_mark hc hmark.1) hmark.2 h

section Object

variable {α : Type} (key : α → String) {value : α → Json} {text : α → String}

/-- A member is spelled by its key, a colon and its value. -/
theorem spells_member {a : α} (hvalue : (value a).WrittenAs (text a).toList) {rest : List Char}
    {ts : List Token} (hbreaks : Breaks rest) (hrest : Spells rest ts) :
    Spells ((quote (key a) ++ ":" ++ text a).toList ++ rest)
      (.string (unitsOf (key a)) :: .colon :: (tokensOf (value a) ++ ts)) := by
  have hcolon : Spells (':' :: ((text a).toList ++ rest)) (.colon :: (tokensOf (value a) ++ ts)) :=
    .mark rfl (hvalue hbreaks hrest)
  have hmember := Spells.token (spelledBy_quote (key a)) trivial hcolon
  simpa using hmember

/-- What ends a member breaks a number. -/
theorem breaks_membersBehind {β : Type} (text : β → List Char) (bs : List β) (rest : List Char) :
    Breaks ((bs.flatMap fun b => ',' :: text b) ++ '}' :: rest) := by
  cases bs with
  | nil =>
      rintro _ ⟨⟩
      decide
  | cons b bs =>
      rintro _ ⟨⟩
      decide

/-- The members that stand behind another one are spelled behind their commas. -/
theorem spells_membersBehind (hvalue : ∀ a, (value a).WrittenAs (text a).toList) (as : List α)
    {rest : List Char} {ts : List Token} (hrest : Spells rest ts) :
    Spells ((as.flatMap fun a => ',' :: (quote (key a) ++ ":" ++ text a).toList) ++ '}' :: rest)
      (membersBehind (as.map fun a => (unitsOf (key a), value a)) ++ ts) := by
  induction as with
  | nil => exact .mark rfl hrest
  | cons a as ih =>
      have hmember := spells_member key (hvalue a) (breaks_membersBehind _ as rest) ih
      rw [List.flatMap_cons, List.map_cons, membersBehind, List.append_assoc]
      simp only [List.cons_append, List.append_assoc]
      exact .mark rfl hmember

/-- Texts that are joined with a separator are the first and, behind a separator each, the
others. -/
theorem toList_intercalate_cons (sep s : String) (ss : List String) :
    (sep.intercalate (s :: ss)).toList =
      s.toList ++ ss.flatMap fun s => sep.toList ++ s.toList := by
  induction ss generalizing s with
  | nil => simp
  | cons s' ss ih => simp_all [String.toList_intercalate]

/-- **An object is written** by its members between commas and braces. -/
theorem writtenAs_object (hvalue : ∀ a, (value a).WrittenAs (text a).toList) (as : List α) :
    (object (as.map fun a => (unitsOf (key a), value a))).WrittenAs
      ("\x7b" ++ ",".intercalate (as.map fun a => quote (key a) ++ ":" ++ text a) ++
        "\x7d").toList := by
  intro rest ts _ hrest
  cases as with
  | nil =>
      have hobject := Spells.mark (c := '{') rfl (.mark (c := '}') rfl hrest)
      simpa [tokensOf] using hobject
  | cons a as =>
      have hmembers := spells_member key (hvalue a) (breaks_membersBehind _ as rest)
        (spells_membersBehind key hvalue as hrest)
      have hobject := Spells.mark (c := '{') rfl hmembers
      rw [List.map_cons, List.map_cons, String.toList_append, String.toList_append,
        toList_intercalate_cons]
      simpa [tokensOf, List.flatMap_map] using hobject

end Object

end Json

end Taskbook
