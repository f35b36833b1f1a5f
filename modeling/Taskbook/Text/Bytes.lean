/-!
# Texts Ordered by Their Bytes

Stored texts compare by their UTF-8 bytes, the first difference deciding and a proper
beginning coming first.
-/

namespace Taskbook.Text

/-- The UTF-8 bytes of a text. -/
def bytes (s : String) : List UInt8 :=
  s.toByteArray.data.toList

/-- The order of two texts by their UTF-8 bytes. -/
def byteOrder (a b : String) : Ordering :=
  compare (bytes a) (bytes b)

/-- A text is determined by its bytes. -/
theorem bytes_inj {a b : String} : bytes a = bytes b ↔ a = b := by
  constructor
  · intro h
    exact String.toByteArray_inj.mp (ByteArray.ext (Array.toList_inj.mp h))
  · rintro rfl
    rfl

end Taskbook.Text
