import Taskbook.Text.Bytes

/-!
# Texts from Bytes

Bytes that need not be UTF-8 are shown as a text all the same: characters are read as long as
the bytes allow it, and what cannot be the beginning of a character is shown as a mark.

## Marking convention

A *sequence* begins with a byte that tells how many bytes follow and in which range the first
of them must lie. One mark stands for all bytes of a sequence that breaks off, and one for each
byte that begins no sequence.
-/

namespace Taskbook.Text

/-- What stands for bytes that make up no character. -/
def mark : Char := '\ufffd'

/-- A sequence that has begun: how many more bytes follow the next one, the range of the next
one, and the bits that have been read. -/
structure Sequence where
  later : Nat
  low : Nat
  high : Nat
  bits : Nat
  deriving DecidableEq, Repr

namespace Sequence

/-- The least byte that may follow in a sequence. -/
def minFollower : Nat := 0x80

/-- The greatest byte that may follow in a sequence. -/
def maxFollower : Nat := 0xbf

/-- The sequence that a byte begins, if it begins one. -/
def start? (b : Nat) : Option Sequence :=
  if 0xc2 ≤ b ∧ b ≤ 0xdf then some ⟨0, minFollower, maxFollower, b - 0xc0⟩
  else if 0xe0 ≤ b ∧ b ≤ 0xef then
    some ⟨1, if b = 0xe0 then 0xa0 else minFollower, if b = 0xed then 0x9f else maxFollower,
      b - 0xe0⟩
  else if 0xf0 ≤ b ∧ b ≤ 0xf4 then
    some ⟨2, if b = 0xf0 then 0x90 else minFollower, if b = 0xf4 then 0x8f else maxFollower,
      b - 0xf0⟩
  else none

/-- What a byte gives outside a sequence: a character, or a sequence that has begun. -/
def outside (b : Nat) : List Char × Option Sequence :=
  if b < minFollower then ([Char.ofNat b], none)
  else
    match start? b with
    | some s => ([], some s)
    | none => ([mark], none)

/-- What a byte gives inside a sequence. One that does not fit ends it and stands for itself. -/
def inside (s : Sequence) (b : Nat) : List Char × Option Sequence :=
  if s.low ≤ b ∧ b ≤ s.high then
    let bits := 64 * s.bits + (b - minFollower)
    match s.later with
    | 0 => ([Char.ofNat bits], none)
    | later + 1 => ([], some ⟨later, minFollower, maxFollower, bits⟩)
  else
    let (cs, begun) := outside b
    (mark :: cs, begun)

end Sequence

/-- The characters of bytes, given the sequence that has begun, if one has. -/
def charsFrom : Option Sequence → List UInt8 → List Char
  | none, [] => []
  | some _, [] => [mark]
  | begun, b :: bs =>
    let (cs, begun) := (begun.elim Sequence.outside Sequence.inside) b.toNat
    cs ++ charsFrom begun bs

/-- The text that bytes are shown as. -/
def shown (bs : List UInt8) : String :=
  .ofList (charsFrom none bs)

end Taskbook.Text
