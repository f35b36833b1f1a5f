import Taskbook.Text.Ascii

/-!
# Decimal Integers of 64 Bits

Every number that the task book keeps (ids, instants, codes) is a signed 64-bit integer.
Arithmetic that leaves the range stops at its nearer end (`Int64.ofIntClamp`); reading a
text that leaves the range fails.

## Reading convention

An optional sign, `+` or `-`, then one or more ASCII digits, and nothing else. Leading zeros
carry no meaning. Callers that allow blanks around a number trim them first.
-/

namespace Taskbook.Number

/-- The number that a list of digits spells. -/
def digitsValue (cs : List Char) : Nat :=
  Nat.ofDigitChars 10 cs 0

/-- Whether a list is a digit string: at least one character, digits only. -/
def isDigits (cs : List Char) : Bool :=
  !cs.isEmpty && cs.all Char.isDigit

/-- A sign in front of a number; without one the number is not negative. -/
def splitSign : List Char → Bool × List Char
  | '-' :: cs => (true, cs)
  | '+' :: cs => (false, cs)
  | cs => (false, cs)

/-- The integer with a given sign and absolute value. -/
def signed (negative : Bool) (n : Nat) : Int :=
  if negative then -(n : Int) else n

/-- An integer as a 64-bit word, if it is in range. -/
def word? (z : Int) : Option Int64 :=
  if Int64.minValue.toInt ≤ z ∧ z ≤ Int64.maxValue.toInt then some (.ofInt z) else none

/-- Reads an optionally signed decimal integer of 64 bits. -/
def readInteger (s : String) : Option Int64 :=
  let (negative, digits) := splitSign s.toList
  if isDigits digits then word? (signed negative (digitsValue digits)) else none

/-- The decimal text of a 64-bit integer: no leading zeros, a minus sign if negative. -/
def decimal (n : Int64) : String :=
  toString n.toInt

/-- The sum of two words, held at the nearer end of the range when it leaves it. -/
def addClamped (a b : Int64) : Int64 :=
  .ofIntClamp (a.toInt + b.toInt)

/-- The product of two words, held at the nearer end of the range when it leaves it. -/
def mulClamped (a b : Int64) : Int64 :=
  .ofIntClamp (a.toInt * b.toInt)

/-- The next word after `n`, if `n` is not the last one. -/
def next? (n : Int64) : Option Int64 :=
  word? (n.toInt + 1)

/-- A word is its own reading in range. -/
@[simp] theorem word?_toInt (n : Int64) : word? n.toInt = some n := by
  have low := n.minValue_le_toInt
  have high := n.toInt_le
  simp only [word?, low, high, and_self, if_true, Int64.ofInt_toInt]

theorem word?_eq_some_iff {z : Int} {n : Int64} : word? z = some n ↔ n.toInt = z := by
  constructor
  · intro h
    unfold word? at h
    split at h
    · next hr =>
      obtain rfl := Option.some.inj h
      exact Int64.toInt_ofInt_of_le hr.1 (Int.lt_add_one_of_le hr.2)
    · cases h
  · rintro rfl
    simp

theorem next?_eq_some_iff {n m : Int64} : next? n = some m ↔ m.toInt = n.toInt + 1 :=
  word?_eq_some_iff

/-- Only the last word has no next one. -/
theorem next?_eq_none_iff {n : Int64} : next? n = none ↔ n = Int64.maxValue := by
  have low := n.minValue_le_toInt
  have high := n.toInt_le
  rw [next?, word?, ← Int64.toInt_inj]
  constructor
  · intro h
    apply Int.le_antisymm high
    refine Int.not_lt.mp fun hlt => ?_
    rw [if_pos ⟨by omega, hlt⟩] at h
    cases h
  · intro h
    rw [if_neg (by omega)]

/-- Below the last word there is a next one. -/
theorem exists_next? {n : Int64} (h : n.toInt < Int64.maxValue.toInt) :
    ∃ next, next? n = some next ∧ next.toInt = n.toInt + 1 := by
  cases hnext : next? n with
  | none =>
      rw [next?_eq_none_iff.mp hnext] at h
      exact absurd h (Int.lt_irrefl _)
  | some next => exact ⟨next, rfl, next?_eq_some_iff.mp hnext⟩

end Taskbook.Number
