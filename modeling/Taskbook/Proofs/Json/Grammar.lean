import Taskbook.Proofs.Json.Tree

/-!
# The Grammar of JSON Texts

Which characters are the text of which value is said here by a grammar, without a reader: a string
is made of units, each written in one of three ways, a number of a sign, digits, a fraction and an
exponent, and the texts of the parts of an array or an object stand between their marks, with white
space on either side of every value, key and mark. The reader is then shown to accept every text of
the grammar, as the value whose text it is.

## Main results

* `Json.spell_of_names`: **the units that name a text spell it**, whichever of them are escapes;
* `Json.TextOf.writtenAs`: **what the grammar derives writes the value**, by induction on the
  derivation;
* `Json.read_of_text`: **every text of the grammar is read**, as the value whose text it is.
-/

namespace Taskbook

namespace Json

/-! ### Strings -/

/-- How a unit of a string is **written**: a character as itself, unless it needs an escape, or as
an escape of one letter; a code unit as its four hexadecimal digits, in either case. -/
inductive StringUnit.WrittenAs : StringUnit → List Char → Prop
  | plain {c : Char} : 0x20 ≤ c.toNat → c ≠ '"' → c ≠ '\\' → WrittenAs (.char c) [c]
  | letter {e c : Char} : simpleEscape? e = some c → WrittenAs (.char c) ['\\', e]
  | digits {a b c d : Char} {n : Nat} : hexCode? a b c d = some n →
      WrittenAs (.code n) ['\\', 'u', a, b, c, d]

/-- What stands between the quotes of a string: its units, one after the other. -/
inductive UnitsText : List StringUnit → List Char → Prop
  | nil : UnitsText [] []
  | cons {u : StringUnit} {us : List StringUnit} {cs rest : List Char} :
      u.WrittenAs cs → UnitsText us rest → UnitsText (u :: us) (cs ++ rest)

/-- What is written for a unit is read as the unit. -/
theorem readUnits_of_writtenAs {u : StringUnit} {cs : List Char} (h : u.WrittenAs cs)
    (done : List StringUnit) (rest : List Char) :
    readUnits done (cs ++ rest) = readUnits (u :: done) rest := by
  cases h with
  | @plain c hlow hquote hslash =>
      have hplain : ¬(c.toNat < 0x20 ∨ c = '\\') := not_or.mpr ⟨Nat.not_lt.mpr hlow, hslash⟩
      rw [List.singleton_append, readUnits, if_neg hplain]
      · exact hquote
      · exact fun _ _ _ _ _ h _ => hslash h
      · exact fun _ _ h _ => hslash h
  | @letter e c he =>
      have hu : e ≠ 'u' := by
        rintro rfl
        cases he
      simp only [List.cons_append, List.nil_append]
      rw [readUnits, he]
      exact fun _ _ _ _ _ h _ => hu h
  | digits hn => simp only [List.cons_append, List.nil_append, readUnits, hn]

/-- What stands between the quotes of a string is read up to the closing quote. -/
theorem readUnits_of_unitsText {us : List StringUnit} {cs : List Char} (h : UnitsText us cs)
    (done : List StringUnit) (rest : List Char) :
    readUnits done (cs ++ '"' :: rest) = some (done.reverse ++ us, rest) := by
  induction h generalizing done with
  | nil => rw [List.nil_append, readUnits, List.append_nil]
  | cons hu _ ih =>
      rw [List.append_assoc, readUnits_of_writtenAs hu, ih, List.reverse_cons, List.append_assoc,
        List.singleton_append]

/-- A string is spelled by its units between quotes. -/
theorem spelledBy_string {us : List StringUnit} {cs : List Char} (h : UnitsText us cs) :
    (Token.string us).SpelledBy ('"' :: (cs ++ ['"'])) where
  visible := ⟨'"', _, rfl, rfl⟩
  next rest _ := by
    have hmark : mark? '"' = none := rfl
    rw [List.cons_append, List.append_assoc, List.singleton_append, Token.next]
    simp only [hmark, if_true, readUnits_of_unitsText h, Option.map_some, List.reverse_nil,
      List.nil_append]

/-- Units **stand for characters**, by the UTF-16 code units of the characters: a character is
itself, one code unit below `0x10000`, or a surrogate pair. -/
inductive Spelling : List StringUnit → List Char → Prop
  | nil : Spelling [] []
  | char {c : Char} {us : List StringUnit} {cs : List Char} :
      Spelling us cs → Spelling (.char c :: us) (c :: cs)
  | code {c : Char} {us : List StringUnit} {cs : List Char} :
      c.toNat < 0x10000 → Spelling us cs → Spelling (.code c.toNat :: us) (c :: cs)
  | pair {c : Char} {us : List StringUnit} {cs : List Char} :
      0x10000 ≤ c.toNat → Spelling us cs →
      Spelling (.code (0xD800 + (c.toNat - 0x10000) / 0x400) ::
        .code (0xDC00 + (c.toNat - 0x10000) % 0x400) :: us) (c :: cs)

/-- A code unit that is no surrogate is the character with it. -/
theorem spellChars_of_scalar {n : Nat} (hhigh : isHighSurrogate n = false)
    (hlow : isLowSurrogate n = false) (done : List Char) (rest : List StringUnit) :
    spellChars done (.code n :: rest) = spellChars (Char.ofNat n :: done) rest := by
  cases rest with
  | nil => simp [spellChars, hhigh, hlow]
  | cons u rest => cases u <;> simp [spellChars, hhigh, hlow]

/-- No character is a surrogate. -/
theorem not_surrogate (c : Char) :
    isHighSurrogate c.toNat = false ∧ isLowSurrogate c.toNat = false := by
  have hvalid : c.toNat < 0xD800 ∨ 0xDFFF < c.toNat ∧ c.toNat < 0x110000 := c.valid
  simp only [isHighSurrogate, isLowSurrogate, Bool.and_eq_false_iff, decide_eq_false_iff_not]
  omega

/-- The characters that units stand for are spelled from them. -/
theorem spellChars_of_spelling {us : List StringUnit} {cs : List Char} (h : Spelling us cs)
    (done : List Char) : spellChars done us = some (done.reverse ++ cs) := by
  induction h generalizing done with
  | nil => rw [spellChars, List.append_nil]
  | char _ ih => rw [spellChars, ih, List.reverse_cons, List.append_assoc, List.singleton_append]
  | @code c us cs _ _ ih =>
      obtain ⟨hhigh, hlow⟩ := not_surrogate c
      rw [spellChars_of_scalar hhigh hlow, Char.ofNat_toNat, ih, List.reverse_cons,
        List.append_assoc, List.singleton_append]
  | @pair c us cs hlarge _ ih =>
      have hvalid : c.toNat < 0xD800 ∨ 0xDFFF < c.toNat ∧ c.toNat < 0x110000 := c.valid
      have hhigh : isHighSurrogate (0xD800 + (c.toNat - 0x10000) / 0x400) = true := by
        simp only [isHighSurrogate, Bool.and_eq_true, decide_eq_true_eq]
        omega
      have hlow : isLowSurrogate (0xDC00 + (c.toNat - 0x10000) % 0x400) = true := by
        simp only [isLowSurrogate, Bool.and_eq_true, decide_eq_true_eq]
        omega
      have hcode : 0x10000 + (0xD800 + (c.toNat - 0x10000) / 0x400 - 0xD800) * 0x400 +
          (0xDC00 + (c.toNat - 0x10000) % 0x400 - 0xDC00) = c.toNat := by
        omega
      rw [spellChars, if_pos hhigh, if_pos hlow, hcode, Char.ofNat_toNat, ih, List.reverse_cons,
        List.append_assoc, List.singleton_append]

/-- Units **name** a text if they stand for its characters. -/
def Names (us : List StringUnit) (s : String) : Prop :=
  Spelling us s.toList

/-- **The units that name a text spell it**, whichever of them are escapes. -/
theorem spell_of_names {us : List StringUnit} {s : String} (h : Names us s) :
    spell us = some s := by
  rw [spell, spellChars_of_spelling h, List.reverse_nil, List.nil_append, Option.map_some,
    String.ofList_toList]

/-- The units of a text that is written without escapes. -/
def plainUnits (s : String) : List StringUnit :=
  s.toList.map .char

theorem names_plainUnits (s : String) : Names (plainUnits s) s := by
  rw [Names, plainUnits]
  induction s.toList with
  | nil => exact .nil
  | cons c cs ih => exact .char ih

/-- A text that **needs no escape**. -/
def Plain (s : String) : Prop :=
  ∀ c ∈ s.toList, 0x20 ≤ c.toNat ∧ c ≠ '"' ∧ c ≠ '\\'

-- along the list, and not over all characters
instance (s : String) : Decidable (Plain s) :=
  List.decidableBAll _ s.toList

/-- A text that needs no escape stands between the quotes as it is. -/
theorem unitsText_plainUnits {s : String} (h : Plain s) : UnitsText (plainUnits s) s.toList := by
  rw [Plain] at h
  rw [plainUnits]
  revert h
  induction s.toList with
  | nil => exact fun _ => .nil
  | cons c cs ih =>
      intro h
      obtain ⟨⟨hlow, hquote, hslash⟩, hcs⟩ := List.forall_mem_cons.mp h
      exact .cons (.plain hlow hquote hslash) (ih hcs)

/-! ### Numbers -/

/-- One or more digits. -/
def Digits (cs : List Char) : Prop :=
  cs ≠ [] ∧ ∀ c ∈ cs, c.isDigit = true

instance (cs : List Char) : Decidable (Digits cs) :=
  @instDecidableAnd _ _ _ (List.decidableBAll _ cs)

/-- The fraction of a number, which may be missing. -/
inductive FractionText : List Char → Prop
  | none : FractionText []
  | digits {ds : List Char} : Digits ds → FractionText ('.' :: ds)

/-- The exponent of a number, which may be missing. -/
inductive ExponentText : List Char → Prop
  | none : ExponentText []
  | digits {e : Char} {sign ds : List Char} : e = 'e' ∨ e = 'E' →
      sign ∈ [[], ['+'], ['-']] → Digits ds → ExponentText (e :: (sign ++ ds))

/-- How a number is **written**: a sign if it is negative, digits without a leading zero, a
fraction and an exponent. It is plain if it has neither of the last two. -/
inductive NumberText.WrittenAs : NumberText → List Char → Prop
  | mk {negative : Bool} {ds fraction exponent : List Char} : Digits ds →
      (ds.head? = some '0' → ds = ['0']) → FractionText fraction → ExponentText exponent →
      WrittenAs ⟨negative, ds, (fraction ++ exponent).isEmpty⟩
        ((if negative then ['-'] else []) ++ (ds ++ (fraction ++ exponent)))

/-- Digits are skipped up to the first character that is none. -/
theorem skipDigits_append {ds : List Char} (h : Digits ds) {rest : List Char}
    (hrest : ∀ c ∈ rest.head?, c.isDigit = false) : skipDigits (ds ++ rest) = some rest := by
  obtain ⟨hne, hdigits⟩ := h
  cases ds with
  | nil => exact absurd rfl hne
  | cons d ds =>
      have hstop : rest.dropWhile Char.isDigit = rest := by
        cases rest with
        | nil => rfl
        | cons c rest => simp [hrest c rfl]
      rw [List.cons_append, skipDigits, if_pos (hdigits d List.mem_cons_self),
        List.dropWhile_append_of_pos fun c hc => hdigits c (List.mem_cons_of_mem d hc), hstop]

/-- An exponent is skipped up to a break. -/
theorem skipExponent_append {cs : List Char} (h : ExponentText cs) {rest : List Char}
    (hrest : Breaks rest) : skipExponent (cs ++ rest) = some rest := by
  cases h with
  | none => exact (skip_of_breaks hrest).2
  | @digits e sign ds he hsign hds =>
      have hskip := skipDigits_append hds fun c hc => (hrest c hc).1
      simp only [List.mem_cons, List.not_mem_nil, or_false] at hsign
      rw [List.cons_append, List.append_assoc, skipExponent.eq_def]
      rcases hsign with rfl | rfl | rfl
      · -- without a sign the first digit is taken for none
        obtain ⟨d, ds, rfl⟩ := List.exists_cons_of_ne_nil hds.1
        have hne (c : Char) (hc : c.isDigit = false) : d ≠ c := by
          rintro rfl
          exact Bool.false_ne_true (hc.symm.trans (hds.2 d List.mem_cons_self))
        simp only [if_pos he, List.nil_append, List.cons_append]
        split
        · next heq => exact absurd (List.cons.inj heq).1 (hne '+' rfl)
        · next heq => exact absurd (List.cons.inj heq).1 (hne '-' rfl)
        · exact hskip
      · simp only [if_pos he, List.cons_append, List.nil_append, hskip]
      · simp only [if_pos he, List.cons_append, List.nil_append, hskip]

/-- What follows the digits of a number begins with none. -/
theorem isDigit_head?_exponent {cs : List Char} (h : ExponentText cs) {rest : List Char}
    (hrest : Breaks rest) :
    ∀ c ∈ (cs ++ rest).head?, c.isDigit = false ∧ c ≠ '.' := by
  cases h with
  | none => exact fun c hc => ⟨(hrest c hc).1, (hrest c hc).2.1⟩
  | digits he hsign hds =>
      rintro c ⟨⟩
      rcases he with rfl | rfl <;> decide

/-- A fraction is skipped up to the exponent. -/
theorem skipFraction_append {fraction exponent : List Char} (hf : FractionText fraction)
    (he : ExponentText exponent) {rest : List Char} (hrest : Breaks rest) :
    skipFraction (fraction ++ (exponent ++ rest)) = some (exponent ++ rest) := by
  have hhead := isDigit_head?_exponent he hrest
  cases hf with
  | none =>
      rw [List.nil_append]
      cases hcs : exponent ++ rest with
      | nil => rfl
      | cons c cs =>
          rw [skipFraction]
          rintro _ ⟨rfl, -⟩
          exact (hhead '.' (by rw [hcs]; rfl)).2 rfl
  | digits hds =>
      rw [List.cons_append, skipFraction]
      exact skipDigits_append hds fun c hc => (hhead c hc).1

/-- The magnitude of a number is read up to a break. -/
theorem readMagnitude_append {ds fraction exponent : List Char} (hds : Digits ds)
    (hzero : ds.head? = some '0' → ds = ['0']) (hf : FractionText fraction)
    (he : ExponentText exponent) (negative : Bool) {rest : List Char} (hrest : Breaks rest) :
    readMagnitude negative (ds ++ (fraction ++ (exponent ++ rest))) =
      some (⟨negative, ds, (fraction ++ exponent).isEmpty⟩, rest) := by
  have hstop : ∀ c ∈ (fraction ++ (exponent ++ rest)).head?, c.isDigit = false := by
    cases hf with
    | none => exact fun c hc => (isDigit_head?_exponent he hrest c hc).1
    | digits _ =>
        rintro c ⟨⟩
        decide
  have htake : (ds ++ (fraction ++ (exponent ++ rest))).takeWhile Char.isDigit = ds := by
    rw [List.takeWhile_append_of_pos hds.2]
    cases hcs : fraction ++ (exponent ++ rest) with
    | nil => rw [List.takeWhile_nil, List.append_nil]
    | cons c cs => simp [hstop c (by rw [hcs]; rfl)]
  have hdrop : (ds ++ (fraction ++ (exponent ++ rest))).dropWhile Char.isDigit =
      fraction ++ (exponent ++ rest) := by
    rw [List.dropWhile_append_of_pos hds.2]
    cases hcs : fraction ++ (exponent ++ rest) with
    | nil => rfl
    | cons c cs => simp [hstop c (by rw [hcs]; rfl)]
  have hvalid : ¬(ds.isEmpty = true ∨ 1 < ds.length ∧ ds.head? = some '0') := by
    rw [List.isEmpty_iff]
    rintro (hnil | ⟨hlength, hhead⟩)
    · exact hds.1 hnil
    · rw [hzero hhead] at hlength
      exact absurd hlength (by decide)
  have hplain : (rest.length == (fraction ++ (exponent ++ rest)).length) =
      (fraction ++ exponent).isEmpty := by
    rw [Bool.eq_iff_iff, beq_iff_eq, List.isEmpty_iff, ← List.append_assoc, List.length_append,
      ← List.length_eq_zero_iff]
    omega
  simp only [readMagnitude, htake, hdrop, if_neg hvalid, skipFraction_append hf he hrest,
    skipExponent_append he hrest, hplain]

/-- A number is spelled by what is written for it. -/
theorem spelledBy_number {n : NumberText} {cs : List Char} (h : n.WrittenAs cs) :
    (Token.number n).SpelledBy cs := by
  obtain @⟨negative, ds, fraction, exponent, hds, hzero, hf, he⟩ := h
  obtain ⟨d, ds', rfl⟩ := List.exists_cons_of_ne_nil hds.1
  have hdigit := hds.2 d List.mem_cons_self
  have hread {rest : List Char} (hrest : Breaks rest) :=
    readMagnitude_append hds hzero hf he negative hrest
  cases negative with
  | true =>
      refine ⟨⟨'-', _, rfl, rfl⟩, fun rest hends => ?_⟩
      simp only [if_true, List.cons_append, List.nil_append, List.append_assoc] at hread ⊢
      rw [(next_of_number (.inr rfl) _).2, readNumber, hread hends, Option.map_some]
  | false =>
      refine ⟨⟨d, _, rfl, (next_of_number (.inl hdigit) []).1⟩, fun rest hends => ?_⟩
      simp only [Bool.false_eq_true, if_false, List.cons_append, List.nil_append,
        List.append_assoc] at hread ⊢
      rw [(next_of_number (.inl hdigit) _).2, readNumber, hread hends, Option.map_some]
      rintro _ h
      obtain ⟨rfl, -⟩ := List.cons.inj h
      exact absurd hdigit (by decide)

/-- The decimal text of an integer is written as the number that the integer is. -/
theorem writtenAs_decimal (n : Int64) : (numberOf n).WrittenAs (Number.decimal n).toList := by
  have hdigits : Digits (Nat.toDigits 10 n.toInt.natAbs) :=
    ⟨Nat.toDigits_ne_nil, fun c hc => Nat.isDigit_of_mem_toDigits (by decide) (by decide) hc⟩
  have hzero (h : (Nat.toDigits 10 n.toInt.natAbs).head? = some '0') :
      Nat.toDigits 10 n.toInt.natAbs = ['0'] := by
    rcases Nat.eq_zero_or_pos n.toInt.natAbs with hnat | hpos
    · rw [hnat]
      decide
    · exact absurd h (head?_toDigits_ne_zero hpos)
  have hwritten := @NumberText.WrittenAs.mk (decide (n.toInt < 0)) _ [] [] hdigits hzero .none .none
  rw [toList_decimal]
  by_cases hneg : n.toInt < 0
  · simpa [numberOf, hneg] using hwritten
  · simpa [numberOf, hneg] using hwritten

/-! ### Values -/

mutual

/-- The **texts of a value**. White space may stand on either side. -/
inductive TextOf : Json → List Char → Prop
  | null : TextOf .null ['n', 'u', 'l', 'l']
  | true : TextOf (.bool true) ['t', 'r', 'u', 'e']
  | false : TextOf (.bool false) ['f', 'a', 'l', 's', 'e']
  | number {n : NumberText} {cs : List Char} : n.WrittenAs cs → TextOf (.number n) cs
  | string {us : List StringUnit} {cs : List Char} :
      UnitsText us cs → TextOf (.string us) ('"' :: (cs ++ ['"']))
  | emptyArray {cs : List Char} : (∀ c ∈ cs, isSpace c = true) →
      TextOf (.array []) ('[' :: (cs ++ [']']))
  | array {items : List Json} {cs : List Char} :
      ItemsText items cs → TextOf (.array items) ('[' :: (cs ++ [']']))
  | emptyObject {cs : List Char} : (∀ c ∈ cs, isSpace c = true) →
      TextOf (.object []) ('{' :: (cs ++ ['}']))
  | object {members : List Member} {cs : List Char} :
      MembersText members cs → TextOf (.object members) ('{' :: (cs ++ ['}']))
  | spaceBefore {c : Char} {j : Json} {cs : List Char} :
      isSpace c = true → TextOf j cs → TextOf j (c :: cs)
  | spaceBehind {c : Char} {j : Json} {cs : List Char} :
      isSpace c = true → TextOf j cs → TextOf j (cs ++ [c])

/-- The texts of one or more items, with commas between them. -/
inductive ItemsText : List Json → List Char → Prop
  | last {j : Json} {cs : List Char} : TextOf j cs → ItemsText [j] cs
  | cons {j : Json} {items : List Json} {cs rest : List Char} :
      TextOf j cs → ItemsText items rest → ItemsText (j :: items) (cs ++ ',' :: rest)

/-- The texts of one or more members, with commas between them: a key, a colon and a value. -/
inductive MembersText : List Member → List Char → Prop
  | last {k : List StringUnit} {j : Json} {key cs : List Char} :
      TextOf (.string k) key → TextOf j cs → MembersText [(k, j)] (key ++ ':' :: cs)
  | cons {k : List StringUnit} {j : Json} {members : List Member} {key cs rest : List Char} :
      TextOf (.string k) key → TextOf j cs → MembersText members rest →
      MembersText ((k, j) :: members) (key ++ ':' :: (cs ++ ',' :: rest))

end

/-- The tokens of the items of an array, and of its end. -/
def itemTokens : List Json → List Token
  | [] => [.closeBracket]
  | j :: items => tokensOf j ++ itemsBehind items

/-- The tokens of the members of an object, and of its end. -/
def memberTokens : List Member → List Token
  | [] => [.closeBrace]
  | (k, j) :: members => .string k :: .colon :: (tokensOf j ++ membersBehind members)

theorem tokensOf_array (items : List Json) :
    tokensOf (.array items) = .openBracket :: itemTokens items := by
  cases items <;> rfl

theorem tokensOf_object (members : List Member) :
    tokensOf (.object members) = .openBrace :: memberTokens members := by
  cases members <;> rfl

/-- Items behind another one stand behind a comma. -/
theorem itemsBehind_eq {items : List Json} (h : items ≠ []) :
    itemsBehind items = .comma :: itemTokens items := by
  cases items with
  | nil => exact absurd rfl h
  | cons => rfl

/-- Members behind another one stand behind a comma. -/
theorem membersBehind_eq {members : List Member} (h : members ≠ []) :
    membersBehind members = .comma :: memberTokens members := by
  cases members with
  | nil => exact absurd rfl h
  | cons => rfl

theorem ItemsText.ne_nil {items : List Json} {cs : List Char} (h : ItemsText items cs) :
    items ≠ [] := by
  cases h <;> exact List.cons_ne_nil _ _

theorem MembersText.ne_nil {members : List Member} {cs : List Char}
    (h : MembersText members cs) : members ≠ [] := by
  cases h <;> exact List.cons_ne_nil _ _

/-- White space spells nothing. -/
theorem Spells.spaces {cs rest : List Char} {ts : List Token}
    (h : ∀ c ∈ cs, isSpace c = true) (hrest : Spells rest ts) : Spells (cs ++ rest) ts := by
  induction cs with
  | nil => exact hrest
  | cons c cs ih =>
      exact .space (h c List.mem_cons_self) (ih fun d hd => h d (List.mem_cons_of_mem c hd))

/-- White space and the marks between the parts of a value break a number. -/
theorem breaks_cons {c : Char} (h : isSpace c = true ∨ c ∈ [',', ':', ']', '}'])
    (rest : List Char) : Breaks (c :: rest) := by
  rintro _ ⟨⟩
  simp only [isSpace, Bool.or_eq_true, beq_iff_eq, List.mem_cons, List.not_mem_nil, or_false] at h
  rcases h with (((rfl | rfl) | rfl) | rfl) | rfl | rfl | rfl | rfl <;> decide

mutual

/-- **What the grammar derives writes the value.** -/
theorem TextOf.writtenAs {j : Json} {cs : List Char} : TextOf j cs → j.WrittenAs cs
  | .null => writtenAs_of_spelledBy rfl spelledBy_null
  | .true => writtenAs_of_spelledBy rfl (spelledBy_bool true)
  | .false => writtenAs_of_spelledBy rfl (spelledBy_bool false)
  | .number h => writtenAs_of_spelledBy rfl (spelledBy_number h)
  | .string h => writtenAs_of_spelledBy rfl (spelledBy_string h)
  | .emptyArray h => by
      intro rest ts _ hrest
      rw [List.cons_append, List.append_assoc]
      exact .mark rfl (.spaces h (.mark rfl hrest))
  | .array h => by
      intro rest ts _ hrest
      rw [tokensOf_array, List.cons_append, List.append_assoc]
      exact .mark rfl (h.spells hrest)
  | .emptyObject h => by
      intro rest ts _ hrest
      rw [List.cons_append, List.append_assoc]
      exact .mark rfl (.spaces h (.mark rfl hrest))
  | .object h => by
      intro rest ts _ hrest
      rw [tokensOf_object, List.cons_append, List.append_assoc]
      exact .mark rfl (h.spells hrest)
  | .spaceBefore hc h => fun _ _ hbreaks hrest => .space hc (h.writtenAs hbreaks hrest)
  | .spaceBehind hc h => by
      intro rest ts _ hrest
      rw [List.append_assoc]
      exact h.writtenAs (breaks_cons (.inl hc) rest) (.space hc hrest)

/-- Items are spelled up to the end of their array. -/
theorem ItemsText.spells {items : List Json} {cs rest : List Char} {ts : List Token}
    (hrest : Spells rest ts) :
    ItemsText items cs → Spells (cs ++ ']' :: rest) (itemTokens items ++ ts)
  | .last h => by
      rw [itemTokens, List.append_assoc]
      exact h.writtenAs (breaks_cons (.inr (by decide)) rest) (.mark rfl hrest)
  | .cons h hitems => by
      have hbehind := hitems.spells hrest
      rw [itemTokens, List.append_assoc, List.append_assoc, itemsBehind_eq hitems.ne_nil]
      exact h.writtenAs (breaks_cons (.inr (by decide)) _) (.mark rfl hbehind)

/-- Members are spelled up to the end of their object. -/
theorem MembersText.spells {members : List Member} {cs rest : List Char} {ts : List Token}
    (hrest : Spells rest ts) :
    MembersText members cs → Spells (cs ++ '}' :: rest) (memberTokens members ++ ts)
  | .last hk h => by
      have hvalue := h.writtenAs (breaks_cons (.inr (by decide)) rest)
        (.mark (c := '}') rfl hrest)
      have hmember := hk.writtenAs (breaks_cons (.inr (by decide)) _) (.mark (c := ':') rfl hvalue)
      simpa [memberTokens, membersBehind, tokensOf] using hmember
  | .cons hk h hmembers => by
      have hvalue := h.writtenAs (breaks_cons (.inr (by decide)) _)
        (.mark (c := ',') rfl (hmembers.spells hrest))
      have hmember := hk.writtenAs (breaks_cons (.inr (by decide)) _) (.mark (c := ':') rfl hvalue)
      simpa [memberTokens, membersBehind_eq hmembers.ne_nil, tokensOf] using hmember

end

/-- A text that needs no escape, between quotes. -/
theorem TextOf.plain {s : String} (h : Plain s) :
    TextOf (.string (plainUnits s)) ('"' :: (s.toList ++ ['"'])) :=
  .string (unitsText_plainUnits h)

/-- The decimal text of an integer. -/
theorem TextOf.decimal (n : Int64) : TextOf (.number (numberOf n)) (Number.decimal n).toList :=
  .number (writtenAs_decimal n)

/-- Characters are a **text of a value**. -/
def Text (j : Json) (text : String) : Prop :=
  TextOf j text.toList

/-- **Every text of the grammar is read**, as the value whose text it is. -/
theorem read_of_text {j : Json} {text : String} (h : Text j text) : read text = some j :=
  read_of_writtenAs h.writtenAs

end Json

end Taskbook
