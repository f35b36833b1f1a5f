import Mathlib.Tactic.FieldSimp
import Mathlib.Tactic.Ring
import Taskbook.Number.Numeral
import Taskbook.Proofs.Number.Nearest
import Taskbook.Text.Blank

/-!
# The Grammar of Numerals

A numeral is `[+-]?(d+(.d*)?|.d+)([eE][+-]?d+)?`, where `d` is a digit of ASCII. Here that is said by
a grammar without a reader, one constructor an alternative, and the value of a numeral is said by its
parts. The readers are then shown to accept the texts of the grammar and no others, and to take each
one as what it stands for.

## Reading convention

A numeral that is an integer in the 64-bit range stands for that integer. Any other numeral stands
for what its exact value is rounded to (`Rounds`), an infinity where the value is out of range. The
cut-offs of `Decimal.toBinary64`, which keep the powers of ten small, are therefore not part of the
meaning: they are shown to give the same double.

## Main results

* `readInteger_eq_some_iff`: **the integers that are read** are those of the grammar;
* `Spelling.read_eq_some_iff`: **the numerals that are read** are those of the grammar, with their
  parts;
* `Decimal.toBinary64_eq_nearest`: **the cut-offs are exact**;
* `Numeral.read_eq_some_iff`: **what a text is read as** is what it stands for;
* `Numeral.trim_of_writtenAs`: **blanks around a numeral**: if those of ASCII are all there is to take
  off, nothing else is taken off.
-/

namespace Taskbook.Number

/-! ### The grammar -/

/-- A sign in front of a number; without one the number is not negative. -/
inductive SignText : Bool → List Char → Prop
  | none : SignText false []
  | plus : SignText false ['+']
  | minus : SignText true ['-']

/-- The digits before the point and those after it, with at least one digit in all. -/
inductive MantissaText : List Char → List Char → List Char → Prop
  | whole {ds : List Char} : isDigits ds = true → MantissaText ds [] ds
  | point {ds ds' : List Char} : isDigits ds = true → (∀ c ∈ ds', c.isDigit = true) →
      MantissaText ds ds' (ds ++ '.' :: ds')
  | fraction {ds' : List Char} : isDigits ds' = true → MantissaText [] ds' ('.' :: ds')

/-- The exponent, which may be missing. -/
inductive ExponentText : Bool → List Char → List Char → Prop
  | none : ExponentText false [] []
  | some {negative : Bool} {mark : Char} {sign ds : List Char} : mark = 'e' ∨ mark = 'E' →
      SignText negative sign → isDigits ds = true → ExponentText negative ds (mark :: (sign ++ ds))

/-- The text of a numeral with these parts. -/
inductive Spelling.WrittenAs (p : Spelling) : List Char → Prop
  | mk {sign mantissa exponent : List Char} : SignText p.negative sign →
      MantissaText p.whole p.fraction mantissa →
      ExponentText p.exponentNegative p.exponent exponent →
      p.WrittenAs (sign ++ (mantissa ++ exponent))

/-- The text of an integer, which may have leading zeros. -/
inductive IntegerText : ℤ → List Char → Prop
  | mk {negative : Bool} {sign ds : List Char} : SignText negative sign → isDigits ds = true →
      IntegerText (signed negative (digitsValue ds)) (sign ++ ds)

variable {cs ds sign rest : List Char} {negative : Bool}

/-! ### Digits and signs -/

theorem isDigits_iff : isDigits ds = true ↔ ds ≠ [] ∧ ∀ c ∈ ds, c.isDigit = true := by
  simp [isDigits]

/-- The first character of digits is a digit. -/
theorem isDigit_of_mem_head? {c : Char} (h : isDigits ds = true) (hc : c ∈ ds.head?) :
    c.isDigit = true :=
  (isDigits_iff.mp h).2 c (List.mem_of_mem_head? hc)

/-- It is that whatever follows the digits. -/
theorem isDigit_of_mem_head?_append {c : Char} (h : isDigits ds = true)
    (hc : c ∈ (ds ++ rest).head?) : c.isDigit = true := by
  rw [List.head?_append_of_ne_nil _ (isDigits_iff.mp h).1] at hc
  exact isDigit_of_mem_head? h hc

/-- A digit is no sign. -/
theorem ne_sign_of_isDigit {c : Char} (h : c.isDigit = true) : c ≠ '+' ∧ c ≠ '-' := by
  constructor <;> rintro rfl <;> exact absurd h (by decide)

/-- A sign is taken off what does not begin with one. -/
theorem splitSign_append (h : SignText negative sign)
    (hrest : ∀ c ∈ rest.head?, c ≠ '+' ∧ c ≠ '-') :
    splitSign (sign ++ rest) = (negative, rest) := by
  cases h with
  | none =>
      cases rest with
      | nil => rfl
      | cons c rest =>
          obtain ⟨hplus, hminus⟩ := hrest c rfl
          rw [List.nil_append, splitSign]
          · rintro _ ⟨rfl, -⟩
            exact hminus rfl
          · rintro _ ⟨rfl, -⟩
            exact hplus rfl
  | plus => rfl
  | minus => rfl

/-- A sign is taken off digits. -/
theorem splitSign_append_digits (h : SignText negative sign) (hds : isDigits ds = true) :
    splitSign (sign ++ ds) = (negative, ds) :=
  splitSign_append h fun _ hc => ne_sign_of_isDigit (isDigit_of_mem_head? hds hc)

/-- What is taken off is a sign. -/
theorem exists_signText (cs : List Char) :
    ∃ sign, SignText (splitSign cs).1 sign ∧ cs = sign ++ (splitSign cs).2 := by
  unfold splitSign
  split
  · exact ⟨_, .minus, rfl⟩
  · exact ⟨_, .plus, rfl⟩
  · exact ⟨_, .none, rfl⟩

/-! ### Integers -/

/-- The text of an integer is read as that integer, if it is in range. -/
theorem readInteger_of_text {z : ℤ} {s : String} (h : IntegerText z s.toList) :
    readInteger s = word? z := by
  generalize hcs : s.toList = cs at h
  cases h with
  | mk hsign hds =>
      simp only [readInteger, hcs, splitSign_append_digits hsign hds, hds, if_true]

/-- **The integers that are read** are those of the grammar that are in range. -/
theorem readInteger_eq_some_iff {s : String} {n : Int64} :
    readInteger s = some n ↔ IntegerText n.toInt s.toList := by
  constructor
  · intro h
    obtain ⟨sign, hsign, hcs⟩ := exists_signText s.toList
    simp only [readInteger] at h
    split at h
    · next hds =>
      have htext := IntegerText.mk hsign hds
      rwa [← hcs, ← word?_eq_some_iff.mp h] at htext
    · cases h
  · intro h
    rw [readInteger_of_text h, word?_toInt]

/-! ### Numerals -/

/-- **The exponents that are read** are those of the grammar. -/
theorem readExponent_eq_some_iff :
    Spelling.readExponent cs = some (negative, ds) ↔ ExponentText negative ds cs := by
  constructor
  · intro h
    cases cs with
    | nil =>
        obtain ⟨rfl, rfl⟩ := Prod.mk.inj (Option.some.inj h)
        exact .none
    | cons c cs =>
        obtain ⟨sign, hsign, hcs⟩ := exists_signText cs
        simp only [Spelling.readExponent] at h
        split at h
        · next hmark =>
          split at h
          · next hds =>
            obtain ⟨rfl, rfl⟩ := Prod.mk.inj (Option.some.inj h)
            have htext := ExponentText.some hmark hsign hds
            rwa [← hcs] at htext
          · cases h
        · cases h
  · intro h
    cases h with
    | none => rfl
    | some hmark hsign hds =>
        simp only [Spelling.readExponent, hmark, splitSign_append_digits hsign hds, hds, if_true]

/-- Digits end where the exponent begins. -/
theorem ExponentText.stops (h : ExponentText negative ds cs) :
    cs.takeWhile Char.isDigit = [] ∧ cs.dropWhile Char.isDigit = cs ∧ ∀ c ∈ cs.head?, c ≠ '.' := by
  cases h with
  | none => simp
  | some hmark _ _ => rcases hmark with rfl | rfl <;> simp [Char.isDigit]

/-- A mantissa begins with a digit or the point, hence with no sign. -/
theorem MantissaText.head_ne_sign {whole fraction mantissa : List Char}
    (h : MantissaText whole fraction mantissa) :
    ∀ c ∈ (mantissa ++ rest).head?, c ≠ '+' ∧ c ≠ '-' := by
  cases h with
  | whole hds => exact fun c hc => ne_sign_of_isDigit (isDigit_of_mem_head?_append hds hc)
  | point hds _ =>
      rw [List.append_assoc]
      exact fun c hc => ne_sign_of_isDigit (isDigit_of_mem_head?_append hds hc)
  | fraction _ =>
      rintro c ⟨⟩
      decide

/-- A numeral is read as its parts. -/
theorem Spelling.read_of_writtenAs {p : Spelling} (h : p.WrittenAs cs) :
    Spelling.read cs = some p := by
  obtain ⟨negative, whole, fraction, exponentNegative, digits⟩ := p
  cases h with
  | @mk sign mantissa exponent hsign hmantissa hexponent =>
      obtain ⟨htake, hdrop, hpoint⟩ := hexponent.stops
      have hread := readExponent_eq_some_iff.mpr hexponent
      simp only [Spelling.read, splitSign_append hsign hmantissa.head_ne_sign]
      cases hmantissa with
      | whole hds =>
          obtain ⟨hne, hall⟩ := isDigits_iff.mp hds
          rw [List.takeWhile_append_of_pos hall, List.dropWhile_append_of_pos hall, htake, hdrop]
          split
          · exact absurd rfl (hpoint '.' rfl)
          · simp [hne, hread]
      | point hds hall' =>
          obtain ⟨hne, hall⟩ := isDigits_iff.mp hds
          rw [List.append_assoc, List.takeWhile_append_of_pos hall,
            List.dropWhile_append_of_pos hall, List.cons_append]
          simp [List.takeWhile_append_of_pos hall', List.dropWhile_append_of_pos hall', htake, hdrop,
            hne, hread]
      | fraction hds =>
          obtain ⟨hne, hall⟩ := isDigits_iff.mp hds
          simp [List.takeWhile_append_of_pos hall, List.dropWhile_append_of_pos hall, htake, hdrop,
            hne, hread]

/-- What is read as parts is a numeral with these parts. -/
theorem Spelling.writtenAs_of_read {p : Spelling} (h : Spelling.read cs = some p) :
    p.WrittenAs cs := by
  obtain ⟨sign, hsign, hcs⟩ := exists_signText cs
  rw [hcs]
  simp only [Spelling.read] at h
  generalize splitSign cs = signed at h hsign
  obtain ⟨negative, cs⟩ := signed
  simp only at h hsign ⊢
  have hwhole : ∀ c ∈ cs.takeWhile Char.isDigit, c.isDigit = true := fun c hc =>
    List.all_eq_true.mp List.all_takeWhile c hc
  rw [← List.takeWhile_append_dropWhile (p := Char.isDigit) (l := cs)]
  generalize cs.takeWhile Char.isDigit = whole at h hwhole ⊢
  split at h
  · next after hafter =>
    rw [hafter]
    have hfraction : ∀ c ∈ after.takeWhile Char.isDigit, c.isDigit = true := fun c hc =>
      List.all_eq_true.mp List.all_takeWhile c hc
    rw [← List.takeWhile_append_dropWhile (p := Char.isDigit) (l := after)]
    simp only at h
    generalize after.takeWhile Char.isDigit = fraction at h hfraction ⊢
    split at h
    · cases h
    next hne =>
    obtain ⟨⟨exponentNegative, digits⟩, hread, rfl⟩ := Option.map_eq_some_iff.mp h
    have hexponent := readExponent_eq_some_iff.mp hread
    by_cases hnil : whole = []
    · subst hnil
      have hds : isDigits fraction = true := isDigits_iff.mpr ⟨by simpa using hne, hfraction⟩
      change Spelling.WrittenAs _ (sign ++ ('.' :: fraction ++ _))
      exact .mk hsign (.fraction hds) hexponent
    · have hmantissa := MantissaText.point (isDigits_iff.mpr ⟨hnil, hwhole⟩) hfraction
      simpa using Spelling.WrittenAs.mk (p := ⟨negative, whole, fraction, exponentNegative, digits⟩)
        hsign hmantissa hexponent
  · simp only at h
    split at h
    · cases h
    next hne =>
    obtain ⟨⟨exponentNegative, digits⟩, hread, rfl⟩ := Option.map_eq_some_iff.mp h
    have hds : isDigits whole = true := isDigits_iff.mpr ⟨by simpa using hne, hwhole⟩
    exact .mk hsign (.whole hds) (readExponent_eq_some_iff.mp hread)

/-- **The numerals that are read** are those of the grammar, with their parts. -/
theorem Spelling.read_eq_some_iff {p : Spelling} : Spelling.read cs = some p ↔ p.WrittenAs cs :=
  ⟨writtenAs_of_read, read_of_writtenAs⟩

/-! ### Values -/

/-- The exact number that a numeral stands for. -/
def Spelling.value (p : Spelling) : ℚ :=
  (if p.negative then -1 else 1) *
    (digitsValue p.whole + digitsValue p.fraction / 10 ^ p.fraction.length) *
    10 ^ signed p.exponentNegative (digitsValue p.exponent)

theorem digitsValue_append (ds ds' : List Char) :
    digitsValue (ds ++ ds') = 10 ^ ds'.length * digitsValue ds + digitsValue ds' := by
  rw [digitsValue, Nat.ofDigitChars_append, Nat.ofDigitChars_eq_ofDigitChars_zero]
  rfl

/-- Digits spell a number with at most as many digits. -/
theorem digitsValue_lt (h : ∀ c ∈ ds, c.isDigit = true) : digitsValue ds < 10 ^ ds.length := by
  induction ds with
  | nil => decide
  | cons d ds ih =>
      obtain ⟨hd, hds⟩ := List.forall_mem_cons.mp h
      have hvalue : digitsValue [d] ≤ 9 := by
        have hd' : d.toNat ≤ 57 := by
          simp only [Char.isDigit, Bool.and_eq_true, decide_eq_true_eq, UInt32.le_iff_toNat_le] at hd
          exact hd.2
        simpa [digitsValue, Nat.ofDigitChars] using hd'
      have hsplit : digitsValue (d :: ds) = 10 ^ ds.length * digitsValue [d] + digitsValue ds :=
        digitsValue_append [d] ds
      have hscale := Nat.mul_le_mul_left (10 ^ ds.length) hvalue
      have htail := ih hds
      rw [hsplit, List.length_cons, pow_succ]
      omega

/-- The exact decimal of a numeral is its value. -/
theorem Spelling.value_ofSpelling (p : Spelling) : (Decimal.ofSpelling p).value = p.value := by
  have hten : (10 : ℚ) ≠ 0 := by norm_num
  simp only [Decimal.value, Decimal.ofSpelling, Spelling.value, tenPow_eq_zpow, digitsValue_append]
  rw [zpow_sub₀ hten, zpow_natCast]
  cases p.negative <;> simp only [signed] <;> push_cast <;> field_simp

namespace Decimal

theorem abs_value (d : Decimal) : |d.value| = d.digits * 10 ^ d.exponent := by
  have hsign : |(signed d.negative d.digits : ℚ)| = d.digits := by
    cases d.negative <;> simp [signed]
  rw [value, tenPow_eq_zpow, abs_mul, hsign, abs_of_pos (zpow_pos (by norm_num) _)]

/-- A decimal below `10 ^ -400` is rounded to zero. -/
theorem nearest_of_small {d : Decimal} (hwidth : d.digits < 10 ^ d.width)
    (h : (d.width : Int) + d.exponent < -400) : Binary64.nearest d.value = .finite 0 := by
  have hten : (0 : ℚ) < 10 ^ d.exponent := zpow_pos (by norm_num) _
  have hdigits : (d.digits : ℚ) < 10 ^ (d.width : ℤ) := by exact_mod_cast hwidth
  have hpow : (2 : ℚ) ^ 1075 < 10 ^ 400 := by
    rw [pow_mul 2 43 25, pow_mul 10 16 25]
    exact pow_lt_pow_left₀ (by norm_num) (by positivity) (by norm_num)
  have hcut : (10 : ℚ) ^ (-400 : ℤ) < 2 ^ (-1075 : ℤ) := by
    rw [zpow_neg, zpow_neg, inv_lt_inv₀ (by positivity) (by positivity)]
    exact_mod_cast hpow
  refine Binary64.nearest_of_small ?_
  calc |d.value| = d.digits * 10 ^ d.exponent := abs_value d
    _ < 10 ^ (d.width : ℤ) * 10 ^ d.exponent := mul_lt_mul_of_pos_right hdigits hten
    _ = 10 ^ (d.width + d.exponent) := (zpow_add₀ (by norm_num) _ _).symm
    _ ≤ 10 ^ (-400 : ℤ) := zpow_le_zpow_right₀ (by norm_num) h.le
    _ < 2 ^ (-1075 : ℤ) := hcut

/-- A decimal from `10 ^ 400` on is out of range, with its sign. -/
theorem nearest_of_large {d : Decimal} (hdigits : d.digits ≠ 0) (h : 400 < d.exponent) :
    Binary64.nearest d.value = .infinite d.negative := by
  have hten : (0 : ℚ) < 10 ^ d.exponent := zpow_pos (by norm_num) _
  have hone : (1 : ℚ) ≤ d.digits := by exact_mod_cast Nat.one_le_iff_ne_zero.mpr hdigits
  have hpow : (2 : ℚ) ^ 1024 ≤ 10 ^ 400 := by
    rw [pow_mul 2 64 16, pow_mul 10 25 16]
    exact pow_le_pow_left₀ (by positivity) (by norm_num) _
  have hcut : outOfRange ≤ 10 ^ (400 : ℤ) :=
    (sub_le_self _ (by positivity)).trans (by exact_mod_cast hpow)
  have hout : outOfRange ≤ |d.value| := by
    calc outOfRange ≤ 10 ^ (400 : ℤ) := hcut
      _ ≤ 10 ^ d.exponent := zpow_le_zpow_right₀ (by norm_num) h.le
      _ ≤ d.digits * 10 ^ d.exponent := le_mul_of_one_le_left hten.le hone
      _ = |d.value| := (abs_value d).symm
  have hsign : d.value < 0 ↔ d.negative = true := by
    have hpos : (0 : ℚ) < d.digits * 10 ^ d.exponent := mul_pos (by linarith only [hone]) hten
    rw [value, tenPow_eq_zpow]
    cases d.negative
    · simpa [signed] using hpos.le
    · simpa [signed] using hpos
  have hdecide : decide (d.value < 0) = d.negative := by
    rw [Bool.eq_iff_iff, decide_eq_true_iff, hsign]
  rw [(Binary64.rounds_nearest _).infinite hout, hdecide]

/-- **The cut-offs are exact**: where they decide by size, the closest double is the one they
answer. -/
theorem toBinary64_eq_nearest {d : Decimal} (hwidth : d.digits < 10 ^ d.width) :
    d.toBinary64 = .nearest d.value := by
  unfold toBinary64
  split
  · next h =>
    rcases h with hzero | hsmall
    · rw [value, hzero]
      simpa [signed] using (Binary64.nearest_of_isDouble isDouble_zero).symm
    · exact (nearest_of_small hwidth hsmall).symm
  · next h =>
    split
    · next hlarge => exact (nearest_of_large (fun hzero => h (.inl hzero)) hlarge).symm
    · rfl

end Decimal

/-- The digits of a numeral are digits. -/
theorem MantissaText.isDigit {whole fraction mantissa : List Char}
    (h : MantissaText whole fraction mantissa) : ∀ c ∈ whole ++ fraction, c.isDigit = true := by
  cases h with
  | whole hds => simpa using (isDigits_iff.mp hds).2
  | point hds hall =>
      exact List.forall_mem_append.mpr ⟨(isDigits_iff.mp hds).2, hall⟩
  | fraction hds => exact (isDigits_iff.mp hds).2

/-- A numeral is taken as the double that its value is rounded to. -/
theorem Spelling.toBinary64_of_writtenAs {p : Spelling} (h : p.WrittenAs cs) :
    (Decimal.ofSpelling p).toBinary64 = .nearest p.value := by
  obtain ⟨-, hmantissa, -⟩ := h
  rw [Decimal.toBinary64_eq_nearest (digitsValue_lt hmantissa.isDigit), value_ofSpelling]

/-- **What a numeral stands for**: the integer that it is, if that is in range, else what its value
is rounded to. -/
inductive Numeral.WrittenAs : Numeral → List Char → Prop
  | integer {n : Int64} {cs : List Char} : IntegerText n.toInt cs → (Numeral.integer n).WrittenAs cs
  | real {p : Spelling} {x : Binary64} {cs : List Char} : p.WrittenAs cs →
      (∀ n : Int64, ¬IntegerText n.toInt cs) → Rounds p.value x → (Numeral.real x).WrittenAs cs

/-- **What a text is read as** is what it stands for. -/
theorem Numeral.read_eq_some_iff {s : String} {v : Numeral} :
    Numeral.read s = some v ↔ v.WrittenAs s.toList := by
  unfold Numeral.read
  constructor
  · intro h
    split at h
    · next n hn =>
      obtain rfl := Option.some.inj h
      exact .integer (readInteger_eq_some_iff.mp hn)
    · next hnone =>
      obtain ⟨d, hd, rfl⟩ := Option.map_eq_some_iff.mp h
      obtain ⟨p, hp, rfl⟩ := Option.map_eq_some_iff.mp hd
      have hwritten := Spelling.read_eq_some_iff.mp hp
      refine .real hwritten (fun n hn => ?_)
        (Binary64.nearest_eq_iff.mp (Spelling.toBinary64_of_writtenAs hwritten).symm)
      exact Option.some_ne_none n ((readInteger_eq_some_iff.mpr hn).symm.trans hnone)
  · intro h
    generalize hcs : s.toList = cs at h
    cases h with
    | integer hn => rw [readInteger_eq_some_iff.mpr (hcs ▸ hn)]
    | @real p x _ hp hn hx =>
        have hnone : readInteger s = none := Option.eq_none_iff_forall_ne_some.mpr fun n h =>
          hn n (hcs ▸ readInteger_eq_some_iff.mp h)
        simp only [hnone, Decimal.read, Spelling.read_of_writtenAs hp, Option.map_some,
          Spelling.toBinary64_of_writtenAs hp, Binary64.nearest_eq_iff.mpr hx]

/-! ### Blanks around a numeral -/

/-- What trimming takes off has the property, at either end. -/
theorem exists_stripEnds {α : Type} (p : α → Bool) (xs : List α) :
    ∃ before after, (∀ x ∈ before, p x = true) ∧ (∀ x ∈ after, p x = true) ∧
      xs = before ++ (Text.stripEnds p xs ++ after) := by
  have hall (ys : List α) : ∀ y ∈ ys.takeWhile p, p y = true := fun y hy =>
    List.all_eq_true.mp List.all_takeWhile y hy
  refine ⟨xs.takeWhile p, ((xs.dropWhile p).reverse.takeWhile p).reverse, hall _, fun x hx =>
    hall _ x (List.mem_reverse.mp hx), ?_⟩
  rw [Text.stripEnds, ← List.reverse_append, List.takeWhile_append_dropWhile, List.reverse_reverse,
    List.takeWhile_append_dropWhile]

/-- Trimming takes off all of what has the property and stands around what has not. -/
theorem stripEnds_append {α : Type} {p : α → Bool} {before inner after : List α}
    (hbefore : ∀ x ∈ before, p x = true) (hinner : ∀ x ∈ inner, p x = false)
    (hafter : ∀ x ∈ after, p x = true) :
    Text.stripEnds p (before ++ (inner ++ after)) = inner := by
  have hdrop {xs ys : List α} (hxs : ∀ x ∈ xs, p x = false) (hys : ∀ y ∈ ys, p y = true) :
      (ys ++ xs).dropWhile p = xs := by
    rw [List.dropWhile_append_of_pos hys]
    cases xs with
    | nil => rfl
    | cons x xs => rw [List.dropWhile_cons, hxs x List.mem_cons_self, if_neg Bool.false_ne_true]
  rw [Text.stripEnds, List.dropWhile_append_of_pos hbefore]
  cases inner with
  | nil =>
      have hnil : after.dropWhile p = [] :=
        (Text.dropWhile_eq_nil_iff_all p after).mpr (List.all_eq_true.mpr hafter)
      rw [List.nil_append, hnil]
      rfl
  | cons x inner =>
      have hfirst : (x :: inner ++ after).dropWhile p = x :: inner ++ after := by
        rw [List.cons_append, List.dropWhile_cons, hinner x List.mem_cons_self,
          if_neg Bool.false_ne_true]
      rw [hfirst, List.reverse_append,
        hdrop (fun y hy => hinner y (List.mem_reverse.mp hy)) fun y hy =>
          hafter y (List.mem_reverse.mp hy), List.reverse_reverse]

/-- The characters that numerals are written with. -/
def IsNumeralChar (c : Char) : Prop :=
  c.isDigit = true ∨ c ∈ ['+', '-', '.', 'e', 'E']

/-- None of them is blank. -/
theorem IsNumeralChar.not_blank {c : Char} (h : IsNumeralChar c) : Text.isBlank c = false := by
  have hrange : 0x21 ≤ c.toNat ∧ c.toNat < 0x85 := by
    rcases h with h | h
    · simp only [Char.isDigit, Bool.and_eq_true, decide_eq_true_eq, UInt32.le_iff_toNat_le] at h
      have hlow : 48 ≤ c.toNat := h.1
      have hhigh : c.toNat ≤ 57 := h.2
      omega
    · revert h
      simp only [List.mem_cons, List.not_mem_nil, or_false]
      rintro (rfl | rfl | rfl | rfl | rfl) <;> decide
  simp only [Text.isBlank, Text.blankRanges, List.any_cons, List.any_nil, Bool.or_false,
    Bool.or_eq_false_iff, Bool.and_eq_false_iff, decide_eq_false_iff_not]
  omega

theorem SignText.isNumeralChar (h : SignText negative sign) : ∀ c ∈ sign, IsNumeralChar c := by
  cases h <;> simp [IsNumeralChar]

theorem isNumeralChar_of_isDigits (h : isDigits ds = true) : ∀ c ∈ ds, IsNumeralChar c :=
  fun c hc => .inl ((isDigits_iff.mp h).2 c hc)

theorem MantissaText.isNumeralChar {whole fraction mantissa : List Char}
    (h : MantissaText whole fraction mantissa) : ∀ c ∈ mantissa, IsNumeralChar c := by
  have hpoint : IsNumeralChar '.' := .inr (by decide)
  cases h with
  | whole hds => exact isNumeralChar_of_isDigits hds
  | point hds hall =>
      exact List.forall_mem_append.mpr ⟨isNumeralChar_of_isDigits hds,
        List.forall_mem_cons.mpr ⟨hpoint, fun c hc => .inl (hall c hc)⟩⟩
  | fraction hds => exact List.forall_mem_cons.mpr ⟨hpoint, isNumeralChar_of_isDigits hds⟩

theorem ExponentText.isNumeralChar (h : ExponentText negative ds cs) :
    ∀ c ∈ cs, IsNumeralChar c := by
  cases h with
  | none => exact fun c hc => absurd hc List.not_mem_nil
  | some hmark hsign hds =>
      refine List.forall_mem_cons.mpr ⟨.inr ?_, List.forall_mem_append.mpr
        ⟨hsign.isNumeralChar, isNumeralChar_of_isDigits hds⟩⟩
      rcases hmark with rfl | rfl <;> decide

/-- A numeral is written with characters of numerals. -/
theorem Numeral.WrittenAs.isNumeralChar {v : Numeral} (h : v.WrittenAs cs) :
    ∀ c ∈ cs, IsNumeralChar c := by
  cases h with
  | integer hn =>
      generalize Int64.toInt _ = z at hn
      obtain ⟨hsign, hds⟩ := hn
      exact List.forall_mem_append.mpr ⟨hsign.isNumeralChar, isNumeralChar_of_isDigits hds⟩
  | real hp _ _ =>
      obtain ⟨hsign, hmantissa, hexponent⟩ := hp
      exact List.forall_mem_append.mpr ⟨hsign.isNumeralChar,
        List.forall_mem_append.mpr ⟨hmantissa.isNumeralChar, hexponent.isNumeralChar⟩⟩

/-- **Blanks around a numeral**: if a numeral is left where the blanks of ASCII have been taken off,
it is also what is left where all blanks have been. -/
theorem Numeral.trim_of_writtenAs {s : String} {v : Numeral}
    (h : v.WrittenAs (Text.trimAscii s).toList) : Text.trim s = Text.trimAscii s := by
  obtain ⟨before, after, hbefore, hafter, hs⟩ := exists_stripEnds Text.isAsciiBlank s.toList
  have hblank {c : Char} (hc : Text.isAsciiBlank c = true) : Text.isBlank c = true := by
    simp only [Text.isAsciiBlank, Bool.or_eq_true, Bool.and_eq_true, decide_eq_true_eq,
      beq_iff_eq] at hc
    rcases hc with ⟨hlow, hhigh⟩ | rfl
    · simp [Text.isBlank, Text.blankRanges, hlow, hhigh]
    · decide
  rw [Text.trimAscii, String.toList_ofList] at h
  rw [Text.trim, Text.trimAscii]
  congr 1
  rw [hs, stripEnds_append (fun c hc => hblank (hbefore c hc))
    (fun c hc => (h.isNumeralChar c hc).not_blank) fun c hc => hblank (hafter c hc), ← hs]

end Taskbook.Number
