/-!
# Letters of ASCII

Names in this library (fields, priorities, levels, comparisons) are written in ASCII, and
two spellings of a name differ at most in the case of its letters `A`–`Z`. Letters outside
ASCII have no case here, so `É` stays `É`.
-/

namespace Taskbook.Text

/-- A text with `A`–`Z` replaced by `a`–`z`, every other character kept. -/
def lower (s : String) : String :=
  .ofList (s.toList.map Char.toLower)

/-- Whether two names are the same up to the case of their ASCII letters. -/
def sameName (a b : String) : Bool :=
  lower a == lower b

/-- Whether a character is a letter of ASCII or the underscore. -/
def isNameStart (c : Char) : Bool :=
  c.isAlpha || c == '_'

/-- Whether a text is a plain identifier: a letter or underscore, then letters, digits and
underscores to the very end of the text. -/
def isIdentifier (s : String) : Bool :=
  match s.toList with
  | [] => false
  | c :: cs => isNameStart c && cs.all fun d => isNameStart d || d.isDigit

@[simp] theorem toList_lower (s : String) : (lower s).toList = s.toList.map Char.toLower := by
  simp [lower]

theorem sameName_iff (a b : String) : sameName a b = true ↔ lower a = lower b := by
  simp [sameName]

theorem sameName_refl (a : String) : sameName a a = true := by
  simp [sameName]

end Taskbook.Text
