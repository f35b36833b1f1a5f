import Taskbook.Text.Ascii
import Taskbook.Text.Blank

/-!
# Priorities

A task has one of three priorities. Each has a *name*, a *code* under which it is stored, and
a *rank* that decides where it stands in a list shown to the user.

## Code convention

Codes are a stored contract: `low = 0`, `normal = 1`, `high = 2`. A filter compares
priorities by code, so low comes before high there; a shown list goes by rank, so high comes
first. The two orders are independent.
-/

namespace Taskbook

/-- How urgently a task should be handled. -/
inductive Priority where
  | high
  | normal
  | low
  deriving DecidableEq, Repr

namespace Priority

instance : Inhabited Priority := ⟨normal⟩

/-- Every priority, the most urgent first. -/
def all : List Priority := [high, normal, low]

/-- The stored codes, in ascending order. -/
def codes : List (Priority × Int64) := [(low, 0), (normal, 1), (high, 2)]

/-- The name shown to users and read from them. -/
def name : Priority → String
  | high => "high"
  | normal => "normal"
  | low => "low"

/-- The code under which a priority is stored. -/
def code : Priority → Int64
  | low => 0
  | normal => 1
  | high => 2

/-- The priority stored under a code, if there is one. -/
def ofCode? (code : Int64) : Option Priority :=
  (codes.find? fun entry => entry.2 == code).map Prod.fst

/-- The place of a priority in a shown list; the smallest comes first. -/
def rank : Priority → Nat
  | high => 1
  | normal => 2
  | low => 3

/-- A text that names no priority, as it was written. -/
structure Unknown where
  text : String
  deriving DecidableEq, Repr

/-- The wording of the refusal. -/
def Unknown.message (e : Unknown) : String :=
  "unknown priority `" ++ e.text ++ "`; expected high|normal|low"

/-- Reads a priority's name, ignoring blanks around it and the case of its letters. -/
def read (text : String) : Except Unknown Priority :=
  match all.find? fun p => p.name == Text.lower (Text.trim text) with
  | some p => .ok p
  | none => .error ⟨text⟩

/-- The code table and the code function say the same. -/
theorem mem_codes (p : Priority) : (p, p.code) ∈ codes := by
  cases p <;> decide

/-- A stored code leads back to its priority. -/
@[simp] theorem ofCode?_code (p : Priority) : ofCode? p.code = some p := by
  cases p <;> decide

/-- Only its own code leads to a priority. -/
theorem ofCode?_eq_some_iff {c : Int64} {p : Priority} : ofCode? c = some p ↔ c = p.code := by
  constructor
  · intro h
    simp only [ofCode?, codes, List.find?_cons, List.find?_nil] at h
    repeat' split at h
    all_goals simp_all [code]
    all_goals subst h
    all_goals simp_all
  · rintro rfl
    simp

end Priority

end Taskbook
