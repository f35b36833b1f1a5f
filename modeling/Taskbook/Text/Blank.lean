/-!
# Blank Characters

A character is *blank* when Unicode gives it the property `White_Space`. The property is
closed and short, so it is stored as a table of ranges. Titles, names of priorities and
levels, and numerals in text are all trimmed by this one notion; the neighbours that look
blank but are not (`U+001F`, `U+180E`, `U+200B`, `U+FEFF`) stay in the text.

## Main definitions

* `isBlank` — the property, read off `blankRanges`;
* `trim` — a text without the blank characters at its two ends;
* `isBlankText` — nothing is left after trimming, stated as "every character is blank".
-/

namespace Taskbook.Text

/-- The ranges of code points with the property `White_Space`, both ends included. -/
def blankRanges : List (Nat × Nat) :=
  [(0x09, 0x0D), (0x20, 0x20), (0x85, 0x85), (0xA0, 0xA0), (0x1680, 0x1680),
   (0x2000, 0x200A), (0x2028, 0x2029), (0x202F, 0x202F), (0x205F, 0x205F),
   (0x3000, 0x3000)]

/-- Whether Unicode counts the character as white space. -/
def isBlank (c : Char) : Bool :=
  blankRanges.any fun r => r.1 ≤ c.toNat && c.toNat ≤ r.2

/-- Whether a character is one of the blank ones of ASCII. -/
def isAsciiBlank (c : Char) : Bool :=
  (0x09 ≤ c.toNat && c.toNat ≤ 0x0D) || c == ' '

/-- A list without the elements at its two ends that satisfy a property. -/
def stripEnds {α : Type} (p : α → Bool) (xs : List α) : List α :=
  ((xs.dropWhile p).reverse.dropWhile p).reverse

/-- A text without the blank characters at its two ends. -/
def trim (s : String) : String :=
  .ofList (stripEnds isBlank s.toList)

/-- A text without the blank characters of ASCII at its two ends. -/
def trimAscii (s : String) : String :=
  .ofList (stripEnds isAsciiBlank s.toList)

/-- Whether a text holds no character but blank ones; the empty text is one. -/
def isBlankText (s : String) : Bool :=
  s.toList.all isBlank

theorem toList_trim (s : String) : (trim s).toList = stripEnds isBlank s.toList := by
  simp [trim]

/-- Dropping from the front leaves nothing exactly when everything may be dropped. -/
theorem dropWhile_eq_nil_iff_all {α : Type} (p : α → Bool) (xs : List α) :
    xs.dropWhile p = [] ↔ xs.all p = true := by
  induction xs with
  | nil => simp
  | cons x xs ih => by_cases h : p x <;> simp [h, ih]

/-- Trimming leaves nothing exactly when every character is blank. -/
theorem trim_eq_empty_iff (s : String) : trim s = "" ↔ isBlankText s = true := by
  rw [← String.toList_inj, toList_trim]
  simp only [stripEnds, String.toList_empty, List.reverse_eq_nil_iff,
    dropWhile_eq_nil_iff_all, List.all_reverse, isBlankText]
  constructor
  · intro h
    rw [← List.takeWhile_append_dropWhile (p := isBlank) (l := s.toList), List.all_append, h]
    simp [List.all_takeWhile]
  · intro h
    rw [(dropWhile_eq_nil_iff_all isBlank _).mpr h]
    rfl

end Taskbook.Text
