import Taskbook.Number.Integer

/-!
# Tokens of a JSON Text

A JSON text is a sequence of tokens with white space between them: six marks, the words
`null`, `true` and `false`, numbers, and strings. Every token is read to its end before
anything is made of it, so a text with a malformed token anywhere has no reading.

## String convention

A string is kept as its *units*: characters, and 16-bit code units written `\uXXXX`. A code
unit needs only its four hexadecimal digits. Whether the units spell a text, that is, whether
surrogates come in pairs, is asked later and only of the strings that matter (`spell`).

## Number convention

A number is kept as its digits before the point, its sign, and whether it is *plain*, without
fraction and exponent. Only a plain number is an integer, and minus zero is none.
-/

namespace Taskbook.Json

/-- A unit of a string. -/
inductive StringUnit where
  | char (c : Char)
  | code (n : Nat)
  deriving DecidableEq, Repr

/-- A number as it is written, up to its fraction and exponent. -/
structure NumberText where
  negative : Bool
  digits : List Char
  plain : Bool
  deriving DecidableEq, Repr

/-- A token. -/
inductive Token where
  | openBrace
  | closeBrace
  | openBracket
  | closeBracket
  | colon
  | comma
  | null
  | bool (b : Bool)
  | number (n : NumberText)
  | string (units : List StringUnit)
  deriving DecidableEq, Repr

/-- The white space that may stand between tokens. -/
def isSpace (c : Char) : Bool :=
  c == ' ' || c == '\t' || c == '\n' || c == '\r'

/-! ### Strings -/

/-- The value of a hexadecimal digit, in either case. -/
def hexValue? (c : Char) : Option Nat :=
  if c.isDigit then some (c.toNat - '0'.toNat)
  else if 'a' ≤ c ∧ c ≤ 'f' then some (c.toNat - 'a'.toNat + 10)
  else if 'A' ≤ c ∧ c ≤ 'F' then some (c.toNat - 'A'.toNat + 10)
  else none

/-- The code unit that four hexadecimal digits spell. -/
def hexCode? (a b c d : Char) : Option Nat := do
  return (((← hexValue? a) * 16 + (← hexValue? b)) * 16 + (← hexValue? c)) * 16 + (← hexValue? d)

/-- The character that a one-letter escape stands for. -/
def simpleEscape? : Char → Option Char
  | '"' => some '"'
  | '\\' => some '\\'
  | '/' => some '/'
  | 'b' => some '\x08'
  | 'f' => some '\x0c'
  | 'n' => some '\n'
  | 'r' => some '\r'
  | 't' => some '\t'
  | _ => none

/-- Reads the units of a string up to its closing quote, onto those read already (the last
one first). A control character must be escaped. -/
def readUnits (done : List StringUnit) : List Char → Option (List StringUnit × List Char)
  | [] => none
  | '"' :: rest => some (done.reverse, rest)
  | '\\' :: 'u' :: a :: b :: c :: d :: rest =>
    match hexCode? a b c d with
    | some n => readUnits (.code n :: done) rest
    | none => none
  | '\\' :: e :: rest =>
    match simpleEscape? e with
    | some c => readUnits (.char c :: done) rest
    | none => none
  | c :: rest => if c.toNat < 0x20 ∨ c = '\\' then none else readUnits (.char c :: done) rest

/-- Whether a code unit is the first or the second half of a surrogate pair. -/
def isHighSurrogate (n : Nat) : Bool := 0xD800 ≤ n && n < 0xDC00

@[inherit_doc isHighSurrogate]
def isLowSurrogate (n : Nat) : Bool := 0xDC00 ≤ n && n < 0xE000

/-- The characters that units spell; nothing if a surrogate stands alone. -/
def spellChars (done : List Char) : List StringUnit → Option (List Char)
  | [] => some done.reverse
  | .char c :: rest => spellChars (c :: done) rest
  | .code hi :: .code lo :: rest =>
    if isHighSurrogate hi then
      if isLowSurrogate lo then
        spellChars (Char.ofNat (0x10000 + (hi - 0xD800) * 0x400 + (lo - 0xDC00)) :: done) rest
      else none
    else if isLowSurrogate hi then none
    else spellChars (Char.ofNat hi :: done) (.code lo :: rest)
  | .code n :: rest =>
    if isHighSurrogate n ∨ isLowSurrogate n then none else spellChars (Char.ofNat n :: done) rest

/-- The text that units spell; nothing if a surrogate stands alone. -/
def spell (units : List StringUnit) : Option String :=
  (spellChars [] units).map String.ofList

/-! ### Numbers -/

/-- Skips one or more digits. -/
def skipDigits (cs : List Char) : Option (List Char) :=
  match cs with
  | c :: rest => if c.isDigit then some (rest.dropWhile Char.isDigit) else none
  | [] => none

/-- Skips the fraction of a number, if there is one. -/
def skipFraction : List Char → Option (List Char)
  | '.' :: rest => skipDigits rest
  | cs => some cs

/-- Skips the exponent of a number, if there is one. -/
def skipExponent : List Char → Option (List Char)
  | c :: rest =>
    if c = 'e' ∨ c = 'E' then
      match rest with
      | '+' :: digits => skipDigits digits
      | '-' :: digits => skipDigits digits
      | digits => skipDigits digits
    else some (c :: rest)
  | [] => some []

/-- Reads a number without its sign. A leading zero must be the only digit before the
point. -/
def readMagnitude (negative : Bool) (cs : List Char) : Option (NumberText × List Char) :=
  let digits := cs.takeWhile Char.isDigit
  let rest := cs.dropWhile Char.isDigit
  if digits.isEmpty ∨ (1 < digits.length ∧ digits.head? = some '0') then none
  else
    match skipFraction rest with
    | none => none
    | some afterFraction =>
      match skipExponent afterFraction with
      | none => none
      | some afterExponent =>
        some (⟨negative, digits, afterExponent.length == rest.length⟩, afterExponent)

/-- Reads a number. -/
def readNumber : List Char → Option (NumberText × List Char)
  | '-' :: cs => readMagnitude true cs
  | cs => readMagnitude false cs

/-- The 64-bit integer that a number is, if it is one. -/
def NumberText.integer? (n : NumberText) : Option Int64 :=
  let size := Number.digitsValue n.digits
  if n.plain ∧ ¬(n.negative ∧ size = 0) then Number.word? (Number.signed n.negative size)
  else none

/-! ### The tokens of a text -/

/-- The token that one character is. -/
def mark? : Char → Option Token
  | '{' => some .openBrace
  | '}' => some .closeBrace
  | '[' => some .openBracket
  | ']' => some .closeBracket
  | ':' => some .colon
  | ',' => some .comma
  | _ => none

/-- Reads one of the three words. -/
def readWord : List Char → Option (Token × List Char)
  | 'n' :: 'u' :: 'l' :: 'l' :: cs => some (.null, cs)
  | 't' :: 'r' :: 'u' :: 'e' :: cs => some (.bool true, cs)
  | 'f' :: 'a' :: 'l' :: 's' :: 'e' :: cs => some (.bool false, cs)
  | _ => none

/-- Reads the token at the start of a text. -/
def Token.next : List Char → Option (Token × List Char)
  | [] => none
  | c :: cs =>
    match mark? c with
    | some t => some (t, cs)
    | none =>
      if c = '"' then (readUnits [] cs).map fun r => (.string r.1, r.2)
      else
        match readWord (c :: cs) with
        | some r => some r
        | none => (readNumber (c :: cs)).map fun r => (.number r.1, r.2)

theorem length_readUnits {done : List StringUnit} {cs : List Char}
    {r : List StringUnit × List Char} (h : readUnits done cs = some r) :
    r.2.length < cs.length := by
  fun_induction readUnits done cs <;> simp_all <;> grind

theorem length_dropWhile_le {α : Type} (p : α → Bool) (xs : List α) :
    (xs.dropWhile p).length ≤ xs.length :=
  (List.dropWhile_suffix p).length_le

theorem length_skipDigits {cs rest : List Char} (h : skipDigits cs = some rest) :
    rest.length < cs.length := by
  cases cs with
  | nil => simp [skipDigits] at h
  | cons c cs =>
    have := length_dropWhile_le Char.isDigit cs
    simp only [skipDigits] at h
    split at h
    · obtain rfl := Option.some.inj h
      simp only [List.length_cons]
      omega
    · cases h

theorem length_skipFraction {cs rest : List Char} (h : skipFraction cs = some rest) :
    rest.length ≤ cs.length := by
  unfold skipFraction at h
  split at h
  · have := length_skipDigits h
    simp only [List.length_cons]
    omega
  · obtain rfl := Option.some.inj h
    exact Nat.le_refl _

theorem length_skipExponent {cs rest : List Char} (h : skipExponent cs = some rest) :
    rest.length ≤ cs.length := by
  unfold skipExponent at h
  repeat' split at h
  · exact Nat.le_succ_of_le (Nat.le_succ_of_le (Nat.le_of_lt (length_skipDigits h)))
  · exact Nat.le_succ_of_le (Nat.le_succ_of_le (Nat.le_of_lt (length_skipDigits h)))
  · exact Nat.le_succ_of_le (Nat.le_of_lt (length_skipDigits h))
  · exact Nat.le_of_eq (congrArg List.length (Option.some.inj h)).symm
  · exact Nat.le_of_eq (congrArg List.length (Option.some.inj h)).symm

theorem length_readMagnitude {negative : Bool} {cs : List Char} {r : NumberText × List Char}
    (h : readMagnitude negative cs = some r) : r.2.length < cs.length := by
  unfold readMagnitude at h
  simp only at h
  split at h
  · cases h
  · next hdigits =>
    have split := congrArg List.length (List.takeWhile_append_dropWhile (p := Char.isDigit) (l := cs))
    have pos : 0 < (cs.takeWhile Char.isDigit).length := by
      rw [List.length_pos_iff]
      intro hnil
      simp [hnil] at hdigits
    rw [List.length_append] at split
    repeat' split at h
    all_goals try cases h
    next afterFraction hf _ afterExponent he =>
    have := length_skipFraction hf
    have := length_skipExponent he
    simp only
    omega

theorem length_readNumber {cs : List Char} {r : NumberText × List Char}
    (h : readNumber cs = some r) : r.2.length < cs.length := by
  unfold readNumber at h
  split at h
  · have := length_readMagnitude h
    simp only [List.length_cons]
    omega
  · exact length_readMagnitude h

theorem length_readWord {cs : List Char} {r : Token × List Char} (h : readWord cs = some r) :
    r.2.length < cs.length := by
  unfold readWord at h
  split at h
  case h_4 => cases h
  all_goals
    obtain rfl := Option.some.inj h
    simp only [List.length_cons]
    omega

/-- Reading a token takes something off the text. -/
theorem Token.length_next {cs : List Char} {r : Token × List Char}
    (h : Token.next cs = some r) : r.2.length < cs.length := by
  cases cs with
  | nil => cases h
  | cons c cs =>
    simp only [Token.next] at h
    split at h
    · obtain rfl := Option.some.inj h
      exact Nat.lt_succ_self _
    · split at h
      · obtain ⟨u, hu, rfl⟩ := Option.map_eq_some_iff.mp h
        exact Nat.lt_succ_of_lt (length_readUnits hu)
      · split at h
        · next hword =>
          obtain rfl := Option.some.inj h
          exact length_readWord hword
        · obtain ⟨u, hu, rfl⟩ := Option.map_eq_some_iff.mp h
          exact length_readNumber hu

/-- Reads the tokens of a text onto those read already (the last one first). -/
def tokensOnto (done : List Token) (cs : List Char) : Option (List Token) :=
  match _hstart : cs.dropWhile isSpace with
  | [] => some done.reverse
  | c :: rest =>
    match _hnext : Token.next (c :: rest) with
    | none => none
    | some (t, rest') => tokensOnto (t :: done) rest'
termination_by cs.length
decreasing_by
  have taken := Token.length_next _hnext
  have skipped := length_dropWhile_le isSpace cs
  rw [_hstart] at skipped
  exact Nat.lt_of_lt_of_le taken skipped

/-- The tokens of a text. -/
def tokens (text : String) : Option (List Token) :=
  tokensOnto [] text.toList

/-! ### One token after another -/

/-- White space at the end is no token. -/
theorem tokensOnto_of_space {done : List Token} {cs : List Char}
    (h : cs.dropWhile isSpace = []) : tokensOnto done cs = some done.reverse := by
  rw [tokensOnto]
  split
  · rfl
  · next hstart => rw [h] at hstart; cases hstart

/-- White space before a token is skipped, and the tokens behind it follow. -/
theorem tokensOnto_of_next {done : List Token} {cs rest : List Char} {t : Token}
    (h : Token.next (cs.dropWhile isSpace) = some (t, rest)) :
    tokensOnto done cs = tokensOnto (t :: done) rest := by
  conv => lhs; rw [tokensOnto]
  split
  · next hstart => rw [hstart] at h; cases h
  · next hstart =>
    rw [hstart] at h
    split
    · next hnone => rw [h] at hnone; cases hnone
    · next hsome =>
      obtain ⟨rfl, rfl⟩ := Prod.mk.inj (Option.some.inj (h.symm.trans hsome))
      rfl

/-- What starts no token spoils the text. -/
theorem tokensOnto_of_none {done : List Token} {cs : List Char}
    (start : cs.dropWhile isSpace ≠ []) (h : Token.next (cs.dropWhile isSpace) = none) :
    tokensOnto done cs = none := by
  rw [tokensOnto]
  split
  · next hstart => exact absurd hstart start
  · next hstart =>
    rw [hstart] at h
    split
    · rfl
    · next hsome => rw [h] at hsome; cases hsome

end Taskbook.Json
