/-!
# Codecs

A codec writes the values of a type as characters and reads them back. Reading stops where
writing stopped, whatever characters follow (`read_write`), so one codec can be put behind
another: those of lists, pairs and structures arise in this way from the codec of a number.

## Length convention

A number is written in base ten and ends with a full stop. Texts and lists begin with their
length; nothing inside them is escaped.
-/

namespace Taskbook

/-- A way to write values of a type and to read them back. -/
structure Codec (α : Type) where
  write : α → List Char
  read : List Char → Option (α × List Char)
  read_write : ∀ a rest, read (write a ++ rest) = some (a, rest)

namespace Codec

variable {α β : Type}

/-- Reads a number up to the full stop behind it. -/
def readNat (cs : List Char) : Option (Nat × List Char) :=
  match cs.dropWhile Char.isDigit with
  | '.' :: rest => some (Nat.ofDigitChars 10 (cs.takeWhile Char.isDigit) 0, rest)
  | _ => none

/-- Numbers. -/
def nat : Codec Nat where
  write n := Nat.toDigits 10 n ++ ['.']
  read := readNat
  read_write n rest := by
    have digits : ∀ c ∈ Nat.toDigits 10 n, c.isDigit = true := fun c hc =>
      Nat.isDigit_of_mem_toDigits (by decide) (by decide) hc
    have stop : ('.' :: rest).dropWhile Char.isDigit = '.' :: rest := rfl
    have none_ : ('.' :: rest).takeWhile Char.isDigit = [] := rfl
    rw [List.append_assoc, List.singleton_append]
    unfold readNat
    rw [List.dropWhile_append_of_pos digits, List.takeWhile_append_of_pos digits, stop, none_,
      List.append_nil]
    simp only [Nat.ofDigitChars_toDigits (b := 10) (by decide) (by decide)]

/-- The codec of values that are encoded as values of another type. Of that type's values some
may encode nothing. -/
def imap (c : Codec α) (encode : β → α) (decode : α → Option β)
    (h : ∀ b, decode (encode b) = some b) : Codec β where
  write b := c.write (encode b)
  read cs := (c.read cs).bind fun r => (decode r.1).map fun b => (b, r.2)
  read_write b rest := by simp [c.read_write, h]

/-- Pairs: the first part, then the second. -/
def prod (c : Codec α) (d : Codec β) : Codec (α × β) where
  write p := c.write p.1 ++ d.write p.2
  read cs := (c.read cs).bind fun r => (d.read r.2).map fun q => ((r.1, q.1), q.2)
  read_write p rest := by simp [c.read_write, d.read_write]

/-- Writes items one behind the other. -/
def writeItems (c : Codec α) (items : List α) : List Char :=
  items.flatMap c.write

/-- Reads a number of items that stand one behind the other. -/
def readItems (c : Codec α) : Nat → List Char → Option (List α × List Char)
  | 0, cs => some ([], cs)
  | n + 1, cs =>
    (c.read cs).bind fun r => (readItems c n r.2).map fun q => (r.1 :: q.1, q.2)

theorem readItems_writeItems (c : Codec α) (items : List α) (rest : List Char) :
    c.readItems items.length (c.writeItems items ++ rest) = some (items, rest) := by
  induction items with
  | nil => rfl
  | cons a items ih =>
    simp only [writeItems] at ih
    simp [readItems, writeItems, c.read_write, ih]

/-- Lists: their length, then their items. -/
def list (c : Codec α) : Codec (List α) where
  write items := nat.write items.length ++ c.writeItems items
  read cs := (nat.read cs).bind fun r => c.readItems r.1 r.2
  read_write items rest := by simp [nat.read_write, readItems_writeItems]

/-- Texts: their length, then their characters. -/
def text : Codec String where
  write s := nat.write s.toList.length ++ s.toList
  read cs := (nat.read cs).bind fun r =>
    if r.1 ≤ r.2.length then some (.ofList (r.2.take r.1), r.2.drop r.1) else none
  read_write s rest := by simp [nat.read_write]

/-- The only value of its type, which takes no characters. -/
def unit : Codec Unit where
  write _ := []
  read cs := some ((), cs)
  read_write _ _ := rfl

/-- Values of one of two types: a character that tells which, then the value. -/
def sum (c : Codec α) (d : Codec β) : Codec (α ⊕ β) where
  write
    | .inl a => 'l' :: c.write a
    | .inr b => 'r' :: d.write b
  read
    | 'l' :: cs => (c.read cs).map fun r => (.inl r.1, r.2)
    | 'r' :: cs => (d.read cs).map fun r => (.inr r.1, r.2)
    | _ => none
  read_write
    | .inl a, rest => by simp [c.read_write]
    | .inr b, rest => by simp [d.read_write]

/-! ### Numbers of other kinds -/

/-- Integers: a nonnegative one on the left, one below zero on the right. -/
def int : Codec Int :=
  (sum nat nat).imap
    (fun
      | .ofNat n => .inl n
      | .negSucc n => .inr n)
    (fun
      | .inl n => some (.ofNat n)
      | .inr n => some (.negSucc n))
    (fun z => by cases z <;> rfl)

/-- Words of 64 bits. -/
def word : Codec Int64 :=
  int.imap Int64.toInt (fun z => some (.ofInt z)) fun n => by simp

/-- Fractions in lowest terms. -/
def rat : Codec Rat :=
  (prod int nat).imap (fun q => (q.num, q.den)) (fun p => some (mkRat p.1 p.2)) fun q => by
    simp [Rat.mkRat_self]

/-- Truth values. -/
def bool : Codec Bool :=
  (sum unit unit).imap (fun b => if b then .inr () else .inl ()) (fun s => some s.isRight)
    fun b => by cases b <;> rfl

/-- Bytes. -/
def byte : Codec UInt8 :=
  nat.imap UInt8.toNat (fun n => some (.ofNat n)) fun b => by simp

end Codec

end Taskbook
