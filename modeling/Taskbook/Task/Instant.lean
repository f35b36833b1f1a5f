import Taskbook.Number.Integer

/-!
# Instants

An instant is a number of milliseconds since the epoch, negative before it. It is stored as
that number, so nothing is lost between a task and its stored form. Moving an instant past
either end of the 64-bit range leaves it at that end.
-/

namespace Taskbook

/-- A point in time, in milliseconds since the epoch. -/
structure Instant where
  millis : Int64
  deriving DecidableEq, Repr, Inhabited

namespace Instant

/-- The milliseconds of one day. -/
def millisPerDay : Int64 := 86400000

/-- The instant a number of milliseconds later, held inside the range. -/
def plusMillis (t : Instant) (n : Int64) : Instant :=
  ⟨Number.addClamped t.millis n⟩

/-- The instant a number of days later. The span is held inside the range first and the sum
after it. -/
def plusDays (t : Instant) (days : Int64) : Instant :=
  t.plusMillis (Number.mulClamped days millisPerDay)

/-- An instant is shown as its milliseconds. -/
def text (t : Instant) : String :=
  Number.decimal t.millis

end Instant

end Taskbook
