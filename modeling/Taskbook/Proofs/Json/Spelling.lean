import Taskbook.Json.Value

/-!
# Texts That Spell Tokens

A JSON text is first taken apart into its tokens. There may be white space around them, and one
token can be written in several ways, so which tokens a text *spells* is a relation between texts
and lists of tokens. This module shows that a text is read as the tokens that it spells, and that
what is written for a text or an integer spells one token.

## Break convention

A mark, a word and a string end with their last character, whatever comes next. A number goes on
as long as it can: it ends only before a *break*, where the text is over or goes on with a
character that no number has.

## Main results

* `Json.tokensOnto_of_spells`: **a text is read as the tokens that it spells**;
* `Json.spelledBy_quote`, `spell_unitsOf`: a quoted text is **one string that spells the text**;
* `Json.spelledBy_decimal`, `integer?_numberOf`: a decimal text is **one number that is the
  integer**.
-/

namespace Taskbook.Json

/-! ### Spelling -/

/-- A text **breaks** a number in front of it: it is empty or begins with a character that no
number goes on with. -/
def Breaks (cs : List Char) : Prop :=
  ∀ c ∈ cs.head?, c.isDigit = false ∧ c ≠ '.' ∧ c ≠ 'e' ∧ c ≠ 'E'

/-- A token **ends** before a text. -/
def Token.EndsBefore : Token → List Char → Prop
  | number _, rest => Breaks rest
  | _, _ => True

/-- Characters **spell a token** if it is read off them and nothing else, before every text at
which it ends. -/
structure Token.SpelledBy (t : Token) (cs : List Char) : Prop where
  visible : ∃ c rest, cs = c :: rest ∧ isSpace c = false
  next : ∀ rest, t.EndsBefore rest → Token.next (cs ++ rest) = some (t, rest)

/-- A text **spells** tokens: it is made of the characters of the tokens, one after the other, with
white space anywhere between them. -/
inductive Spells : List Char → List Token → Prop
  | nil : Spells [] []
  | space {c : Char} {cs : List Char} {ts : List Token} :
      isSpace c = true → Spells cs ts → Spells (c :: cs) ts
  | token {t : Token} {cs rest : List Char} {ts : List Token} :
      t.SpelledBy cs → t.EndsBefore rest → Spells rest ts → Spells (cs ++ rest) (t :: ts)

/-- White space in front of a text makes no difference to its tokens. -/
theorem tokensOnto_cons_space {c : Char} (hc : isSpace c = true) (done : List Token)
    (cs : List Char) : tokensOnto done (c :: cs) = tokensOnto done cs := by
  have hskip : (c :: cs).dropWhile isSpace = cs.dropWhile isSpace := by
    rw [List.dropWhile_cons, if_pos hc]
  cases hstart : cs.dropWhile isSpace with
  | nil => rw [tokensOnto_of_space (hskip.trans hstart), tokensOnto_of_space hstart]
  | cons d ds =>
      have hne : cs.dropWhile isSpace ≠ [] := by simp [hstart]
      cases hnext : Token.next (cs.dropWhile isSpace) with
      | none =>
          rw [tokensOnto_of_none hne hnext,
            tokensOnto_of_none (hskip ▸ hne) (hskip ▸ hnext)]
      | some r =>
          obtain ⟨t, rest⟩ := r
          rw [tokensOnto_of_next hnext, tokensOnto_of_next (hskip ▸ hnext)]

/-- **A text is read as the tokens that it spells.** -/
theorem tokensOnto_of_spells {cs : List Char} {ts : List Token} (h : Spells cs ts)
    (done : List Token) : tokensOnto done cs = some (done.reverse ++ ts) := by
  induction h generalizing done with
  | nil => rw [tokensOnto_of_space rfl, List.append_nil]
  | space hc _ ih => rw [tokensOnto_cons_space hc, ih]
  | @token t cs rest ts hspelled hends _ ih =>
      obtain ⟨c, cs', rfl, hc⟩ := hspelled.visible
      have hskip : (c :: cs' ++ rest).dropWhile isSpace = c :: cs' ++ rest := by
        rw [List.cons_append, List.dropWhile_cons, if_neg (Bool.not_eq_true _ ▸ hc)]
      have hnext : Token.next ((c :: cs' ++ rest).dropWhile isSpace) = some (t, rest) :=
        hskip.symm ▸ hspelled.next rest hends
      rw [tokensOnto_of_next hnext, ih, List.reverse_cons, List.append_assoc,
        List.singleton_append]

/-- The tokens of a text are those that it spells. -/
theorem tokens_of_spells {text : String} {ts : List Token} (h : Spells text.toList ts) :
    tokens text = some ts :=
  tokensOnto_of_spells h []

/-! ### Marks and words -/

/-- A mark is spelled by its character. -/
theorem spelledBy_mark {c : Char} {t : Token} (h : mark? c = some t) (hc : isSpace c = false) :
    t.SpelledBy [c] where
  visible := ⟨c, [], rfl, hc⟩
  next rest _ := by
    rw [List.singleton_append, Token.next]
    simp only [h]

/-- The word for the null is spelled as it is. -/
theorem spelledBy_null : Token.null.SpelledBy "null".toList where
  visible := ⟨'n', _, rfl, rfl⟩
  next _ _ := rfl

/-- The words for the truth values are spelled as they are. -/
theorem spelledBy_bool (b : Bool) :
    (Token.bool b).SpelledBy (if b then "true" else "false").toList where
  visible := by cases b <;> exact ⟨_, _, rfl, rfl⟩
  next _ _ := by cases b <;> rfl

/-! ### Strings -/

/-- The digit that is written for a number below sixteen has it as its value. -/
theorem hexValue?_hexDigit : ∀ n < 16, hexValue? (hexDigit n) = some n := by
  decide

/-- The unit that a character is written as: the control characters without an escape of one
letter are written as codes. -/
def unitOf (c : Char) : StringUnit :=
  if c.toNat < 0x20 ∧ c ∉ ['\x08', '\x0c', '\n', '\r', '\t'] then .code c.toNat else .char c

/-- The units that a text is written as. -/
def unitsOf (s : String) : List StringUnit :=
  s.toList.map unitOf

/-- The escape of a code is read as the code. -/
theorem readUnits_codeEscape {n : Nat} (hn : n < 0x10000) (done : List StringUnit)
    (rest : List Char) :
    readUnits done (codeEscape n ++ rest) = readUnits (.code n :: done) rest := by
  have hcode : hexCode? (hexDigit (n / 0x1000)) (hexDigit (n / 0x100 % 16))
      (hexDigit (n / 16 % 16)) (hexDigit (n % 16)) = some n := by
    simp only [hexCode?, hexValue?_hexDigit _ (show n / 0x1000 < 16 by omega),
      hexValue?_hexDigit _ (Nat.mod_lt _ (show 16 > 0 by decide)), Option.bind_eq_bind,
      Option.bind_some, Option.pure_def, Option.some.injEq]
    omega
  rw [codeEscape]
  simp only [List.cons_append, List.nil_append, readUnits, hcode]

/-- What is written for a character is read as its unit. -/
theorem readUnits_escape (c : Char) (done : List StringUnit) (rest : List Char) :
    readUnits done (escape c ++ rest) = readUnits (unitOf c :: done) rest := by
  unfold escape
  split
  · rfl
  · rfl
  · rfl
  · rfl
  · rfl
  · rfl
  · rfl
  · next hquote hslash hb hf hn hr ht =>
    by_cases hlow : c.toNat < 0x20
    · have hunit : unitOf c = .code c.toNat := by
        rw [unitOf, if_pos]
        simp_all
      rw [if_pos hlow, readUnits_codeEscape (by omega), hunit]
    · have hunit : unitOf c = .char c := by
        rw [unitOf, if_neg]
        exact fun h => hlow h.1
      have hplain : ¬(c.toNat < 0x20 ∨ c = '\\') := not_or.mpr ⟨hlow, hslash⟩
      rw [if_neg hlow, List.singleton_append, readUnits, if_neg hplain, hunit]
      · exact hquote
      · exact fun _ _ _ _ _ h _ => hslash h
      · exact fun _ _ h _ => hslash h

/-- What is written for characters is read as their units. -/
theorem readUnits_flatMap_escape (cs : List Char) (done : List StringUnit) (rest : List Char) :
    readUnits done (cs.flatMap escape ++ '"' :: rest) =
      some (done.reverse ++ cs.map unitOf, rest) := by
  induction cs generalizing done with
  | nil => simp [readUnits]
  | cons c cs ih =>
      rw [List.flatMap_cons, List.append_assoc, readUnits_escape, ih, List.reverse_cons,
        List.append_assoc, List.singleton_append, List.map_cons]

/-- The characters of a quoted text. -/
theorem toList_quote (s : String) :
    (quote s).toList = '"' :: (s.toList.flatMap escape ++ ['"']) := by
  rw [quote, String.toList_ofList, List.cons_append]

/-- A quoted text spells **one string**. -/
theorem spelledBy_quote (s : String) : (Token.string (unitsOf s)).SpelledBy (quote s).toList where
  visible := ⟨'"', _, toList_quote s, rfl⟩
  next rest _ := by
    have hread := readUnits_flatMap_escape s.toList [] rest
    have hmark : mark? '"' = none := rfl
    rw [toList_quote, List.cons_append, List.append_assoc, List.singleton_append, Token.next]
    simp only [hmark, if_true, hread, Option.map_some, List.reverse_nil, List.nil_append, unitsOf]

/-- A code below the surrogates is the character with it. -/
theorem spellChars_code {n : Nat} (hn : n < 0xD800) (done : List Char) (rest : List StringUnit) :
    spellChars done (.code n :: rest) = spellChars (Char.ofNat n :: done) rest := by
  have hhigh : isHighSurrogate n = false := by
    simp only [isHighSurrogate, Bool.and_eq_false_iff, decide_eq_false_iff_not]
    omega
  have hlow : isLowSurrogate n = false := by
    simp only [isLowSurrogate, Bool.and_eq_false_iff, decide_eq_false_iff_not]
    omega
  cases rest with
  | nil => simp [spellChars, hhigh, hlow]
  | cons u rest => cases u <;> simp [spellChars, hhigh, hlow]

/-- The units of characters spell the characters. -/
theorem spellChars_map_unitOf (cs done : List Char) :
    spellChars done (cs.map unitOf) = some (done.reverse ++ cs) := by
  induction cs generalizing done with
  | nil => simp [spellChars]
  | cons c cs ih =>
      have hstep : spellChars done (unitOf c :: cs.map unitOf) =
          spellChars (c :: done) (cs.map unitOf) := by
        rw [unitOf]
        split
        · next hlow => rw [spellChars_code (by omega), Char.ofNat_toNat]
        · rw [spellChars]
      rw [List.map_cons, hstep, ih, List.reverse_cons, List.append_assoc, List.singleton_append]

/-- The units of a text **spell the text**. -/
theorem spell_unitsOf (s : String) : spell (unitsOf s) = some s := by
  rw [spell, unitsOf, spellChars_map_unitOf, List.reverse_nil, List.nil_append, Option.map_some,
    String.ofList_toList]

/-! ### Integers -/

/-- The digits of a positive number do not begin with a zero. -/
theorem head?_toDigits_ne_zero {n : Nat} (hn : 0 < n) : (Nat.toDigits 10 n).head? ≠ some '0' := by
  induction n using Nat.strongRecOn with
  | ind n ih =>
      rw [Nat.toDigits_eq_if (by decide)]
      split
      · next hlt =>
        have hdigit : ∀ d < 10, 0 < d → d.digitChar ≠ '0' := by decide
        simpa using hdigit n hlt hn
      · have hsome : (Nat.toDigits 10 (n / 10)).head?.isSome = true :=
          List.isSome_head?.mpr Nat.toDigits_ne_nil
        rw [List.head?_append, Option.or_of_isSome hsome]
        exact ih (n / 10) (by omega) (by omega)

/-- More than one digit do not begin with a zero. -/
theorem not_leading_zero (n : Nat) :
    ¬(1 < (Nat.toDigits 10 n).length ∧ (Nat.toDigits 10 n).head? = some '0') := by
  rintro ⟨hlength, hhead⟩
  rcases Nat.eq_zero_or_pos n with rfl | hpos
  · exact absurd hlength (by decide)
  · exact head?_toDigits_ne_zero hpos hhead

/-- The number that an integer is written as. -/
def numberOf (n : Int64) : NumberText where
  negative := decide (n.toInt < 0)
  digits := Nat.toDigits 10 n.toInt.natAbs
  plain := true

/-- The decimal text of an integer is a sign, if it is negative, and the digits. -/
theorem toList_decimal (n : Int64) :
    (Number.decimal n).toList =
      if n.toInt < 0 then '-' :: Nat.toDigits 10 n.toInt.natAbs
      else Nat.toDigits 10 n.toInt.natAbs := by
  rw [Number.decimal, Int.toString_eq_repr, Int.repr_eq_if]
  by_cases h : n.toInt < 0
  · rw [if_pos h, if_neg (by omega), show (-n.toInt).toNat = n.toInt.natAbs by omega,
      Nat.repr_eq_ofList_toDigits]
    simp
  · rw [if_neg h, if_pos (by omega), show n.toInt.toNat = n.toInt.natAbs by omega,
      Nat.repr_eq_ofList_toDigits, String.toList_ofList]

/-- Before a break a number has neither fraction nor exponent. -/
theorem skip_of_breaks {rest : List Char} (h : Breaks rest) :
    skipFraction rest = some rest ∧ skipExponent rest = some rest := by
  cases rest with
  | nil => exact ⟨rfl, rfl⟩
  | cons c rest =>
      obtain ⟨-, hpoint, he, hE⟩ := h c rfl
      refine ⟨?_, ?_⟩
      · rw [skipFraction]
        rintro _ ⟨rfl, -⟩
        exact hpoint rfl
      · rw [skipExponent.eq_def]
        exact if_neg (not_or.mpr ⟨he, hE⟩)

/-- The digits of a number are read as the number before a break. -/
theorem readMagnitude_toDigits (negative : Bool) (n : Nat) {rest : List Char} (h : Breaks rest) :
    readMagnitude negative (Nat.toDigits 10 n ++ rest) =
      some (⟨negative, Nat.toDigits 10 n, true⟩, rest) := by
  have hdigits : ∀ c ∈ Nat.toDigits 10 n, c.isDigit = true := fun c hc =>
    Nat.isDigit_of_mem_toDigits (by decide) (by decide) hc
  have hstop : rest.takeWhile Char.isDigit = [] ∧ rest.dropWhile Char.isDigit = rest := by
    cases rest with
    | nil => exact ⟨rfl, rfl⟩
    | cons c rest => simp [(h c rfl).1]
  have htake : (Nat.toDigits 10 n ++ rest).takeWhile Char.isDigit = Nat.toDigits 10 n := by
    rw [List.takeWhile_append_of_pos hdigits, hstop.1, List.append_nil]
  have hdrop : (Nat.toDigits 10 n ++ rest).dropWhile Char.isDigit = rest := by
    rw [List.dropWhile_append_of_pos hdigits, hstop.2]
  have hvalid : ¬((Nat.toDigits 10 n).isEmpty = true ∨
      1 < (Nat.toDigits 10 n).length ∧ (Nat.toDigits 10 n).head? = some '0') := by
    rw [List.isEmpty_iff]
    exact not_or.mpr ⟨Nat.toDigits_ne_nil, not_leading_zero n⟩
  obtain ⟨hfraction, hexponent⟩ := skip_of_breaks h
  simp only [readMagnitude, htake, hdrop, hfraction, hexponent, if_neg hvalid, beq_self_eq_true]

/-- A character that begins a number begins nothing else. -/
theorem next_of_number {c : Char} (hc : c.isDigit = true ∨ c = '-') (cs : List Char) :
    isSpace c = false ∧
      Token.next (c :: cs) = (readNumber (c :: cs)).map fun r => (.number r.1, r.2) := by
  have hne (d : Char) (hd : d.isDigit = false) (hminus : d ≠ '-') : c ≠ d := by
    rintro rfl
    rcases hc with hdigit | rfl
    · exact Bool.false_ne_true (hd.symm.trans hdigit)
    · exact hminus rfl
  have hmark : mark? c = none := by
    unfold mark?
    split
    case h_7 => rfl
    all_goals exact absurd rfl (hne _ rfl (by decide))
  have hword : readWord (c :: cs) = none := by
    unfold readWord
    split
    case h_4 => rfl
    all_goals
      next hcs =>
      obtain ⟨rfl, -⟩ := List.cons.inj hcs
      exact absurd rfl (hne _ rfl (by decide))
  constructor
  · simp only [isSpace, Bool.or_eq_false_iff, beq_eq_false_iff_ne]
    exact ⟨⟨⟨hne ' ' rfl (by decide), hne '\t' rfl (by decide)⟩, hne '\n' rfl (by decide)⟩,
      hne '\r' rfl (by decide)⟩
  · rw [Token.next]
    simp only [hmark, hword, if_neg (hne '"' rfl (by decide))]

/-- A decimal text spells **one number**. -/
theorem spelledBy_decimal (n : Int64) :
    (Token.number (numberOf n)).SpelledBy (Number.decimal n).toList := by
  obtain ⟨c, cs, hcs⟩ :=
    List.exists_cons_of_ne_nil (Nat.toDigits_ne_nil (n := n.toInt.natAbs) (b := 10))
  have hdigit : c.isDigit = true :=
    Nat.isDigit_of_mem_toDigits (b := 10) (by decide) (by decide) (hcs ▸ List.mem_cons_self)
  have hminus : c ≠ '-' := by
    rintro rfl
    exact absurd hdigit (by decide)
  by_cases hneg : n.toInt < 0
  · have htext : (Number.decimal n).toList = '-' :: Nat.toDigits 10 n.toInt.natAbs := by
      rw [toList_decimal, if_pos hneg]
    refine ⟨⟨'-', _, htext, rfl⟩, fun rest hends => ?_⟩
    rw [htext, List.cons_append, (next_of_number (.inr rfl) _).2, readNumber,
      readMagnitude_toDigits true _ hends, Option.map_some, numberOf, decide_eq_true hneg]
  · have htext : (Number.decimal n).toList = Nat.toDigits 10 n.toInt.natAbs := by
      rw [toList_decimal, if_neg hneg]
    have hread (rest : List Char) (h : Breaks rest) :
        readNumber (c :: cs ++ rest) = some (numberOf n, rest) := by
      rw [readNumber]
      · rw [← hcs, readMagnitude_toDigits false _ h, numberOf, decide_eq_false hneg]
      · rintro _ h
        exact hminus (List.cons.inj h).1
    refine ⟨⟨c, cs, htext.trans hcs, (next_of_number (.inl hdigit) cs).1⟩, fun rest hends => ?_⟩
    rw [htext, hcs, List.cons_append, (next_of_number (.inl hdigit) _).2, ← List.cons_append,
      hread rest hends, Option.map_some]

/-- The number that an integer is written as **is the integer**. -/
theorem integer?_numberOf (n : Int64) : (numberOf n).integer? = some n := by
  have hvalue : Number.digitsValue (Nat.toDigits 10 n.toInt.natAbs) = n.toInt.natAbs :=
    Nat.ofDigitChars_ten_toDigits
  have hplain : ¬(n.toInt < 0 ∧ n.toInt.natAbs = 0) := by omega
  have hsigned : Number.signed (decide (n.toInt < 0)) n.toInt.natAbs = n.toInt := by
    by_cases h : n.toInt < 0
    · rw [decide_eq_true h, Number.signed, if_pos rfl]
      omega
    · rw [decide_eq_false h, Number.signed, if_neg Bool.false_ne_true]
      omega
  simp only [NumberText.integer?, numberOf, hvalue, hsigned, decide_eq_true_eq, hplain,
    not_false_eq_true, and_self, if_true, Number.word?_toInt]

end Taskbook.Json
