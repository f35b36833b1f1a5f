import Taskbook.Task.Instant

/-!
# Days Added to an Instant

Days are added in two steps: the days are turned into milliseconds, which are held inside the
range, and the sum is held inside the range after that. The two steps are compared here with one:
the sum without bounds, held inside the range once. They agree as long as the milliseconds of the
days are in range by themselves, which is so for 292 million years to either side. They agree beyond
that, too, where the instant and the days are on one side of the epoch, for then both come to the
same end of the range. Where they are on different sides, the first step has already cut off what
the second one would have needed, and the answer falls short of the sum.

It never goes too far. The answer lies between the instant and the sum without bounds, and it is
monotone in the instant and in the days, since each of the two steps is.

## Main results

* `Instant.holds_plusDays_iff`: adding days **is exact or stops at the true end**, unless the days
  reach across the epoch;
* `Instant.toInt_plusDays_of_across`: what comes out if they do;
* `Instant.plusDays_between`, `Instant.plusDays_mono`: the answer **never overshoots** and is
  monotone.
-/

namespace Taskbook

/-! ### Integers held inside the range -/

namespace Number

/-- An integer is **in range** if it is a word of 64 bits. -/
def InRange (z : Int) : Prop :=
  Int64.minValue.toInt ≤ z ∧ z ≤ Int64.maxValue.toInt

instance (z : Int) : Decidable (InRange z) :=
  inferInstanceAs (Decidable (_ ∧ _))

/-- A word **holds** an integer: it is the integer, or the end of the range that the integer lies
beyond. -/
structure Holds (n : Int64) (z : Int) : Prop where
  exact : InRange z → n.toInt = z
  above : Int64.maxValue.toInt < z → n = Int64.maxValue
  below : z < Int64.minValue.toInt → n = Int64.minValue

/-- The word at which an integer is held, as an integer. -/
theorem toInt_ofIntClamp (z : Int) :
    (Int64.ofIntClamp z).toInt = max Int64.minValue.toInt (min z Int64.maxValue.toInt) := by
  have hmin := Int64.toInt_minValue
  have hmax := Int64.toInt_maxValue
  by_cases hlow : Int64.minValue.toInt ≤ z
  · by_cases hhigh : z ≤ Int64.maxValue.toInt
    · rw [Int64.toInt_ofIntClamp hlow hhigh]
      omega
    · have hclamp : Int64.ofIntClamp z = Int64.maxValue := by
        rw [Int64.ofIntClamp, dif_pos hlow, dif_neg hhigh]
      rw [hclamp]
      omega
  · have hclamp : Int64.ofIntClamp z = Int64.minValue := by rw [Int64.ofIntClamp, dif_neg hlow]
    rw [hclamp]
    omega

/-- Exactly one word holds an integer. -/
theorem holds_iff {n : Int64} {z : Int} :
    Holds n z ↔ n.toInt = max Int64.minValue.toInt (min z Int64.maxValue.toInt) := by
  have hmin := Int64.toInt_minValue
  have hmax := Int64.toInt_maxValue
  constructor
  · rintro ⟨hexact, habove, hbelow⟩
    by_cases hlow : z < Int64.minValue.toInt
    · rw [hbelow hlow]
      omega
    · by_cases hhigh : Int64.maxValue.toInt < z
      · rw [habove hhigh]
        omega
      · rw [hexact ⟨Int.not_lt.mp hlow, Int.not_lt.mp hhigh⟩]
        omega
  · intro h
    refine ⟨?_, ?_, ?_⟩
    · rintro ⟨hlow, hhigh⟩
      omega
    · intro hhigh
      rw [← Int64.toInt_inj]
      omega
    · intro hlow
      rw [← Int64.toInt_inj]
      omega

end Number

/-! ### Days -/

namespace Instant

open Number

variable {t u : Instant} {days more : Int64}

/-- The milliseconds of a number of days, without bounds. -/
def span (days : Int64) : Int :=
  86400000 * days.toInt

/-- Days **reach across** the epoch if their milliseconds are out of range on one side of it and the
instant lies on the other. -/
def ReachAcross (t : Instant) (days : Int64) : Prop :=
  Int64.maxValue.toInt < span days ∧ t.millis.toInt < 0 ∨
    span days < Int64.minValue.toInt ∧ 0 < t.millis.toInt

instance (t : Instant) (days : Int64) : Decidable (t.ReachAcross days) :=
  inferInstanceAs (Decidable (_ ∨ _))

/-- Days whose milliseconds are in range do not. -/
theorem not_reachAcross_of_inRange (h : InRange (span days)) : ¬t.ReachAcross days := by
  obtain ⟨hlow, hhigh⟩ := h
  rw [ReachAcross]
  omega

/-- The two steps of adding days, as integers. -/
theorem toInt_plusDays (t : Instant) (days : Int64) :
    (t.plusDays days).millis.toInt =
      max Int64.minValue.toInt (min (t.millis.toInt +
        max Int64.minValue.toInt (min (span days) Int64.maxValue.toInt)) Int64.maxValue.toInt) := by
  have hday : millisPerDay.toInt = 86400000 := by decide
  have hspan : days.toInt * millisPerDay.toInt = span days := by rw [hday, span, Int.mul_comm]
  rw [plusDays, plusMillis, addClamped, toInt_ofIntClamp, mulClamped, toInt_ofIntClamp, hspan]

/-- **Adding days is exact or stops at the true end** of the range, if and only if the days do not
reach across the epoch. -/
theorem holds_plusDays_iff :
    Holds (t.plusDays days).millis (t.millis.toInt + span days) ↔ ¬t.ReachAcross days := by
  have hmin := Int64.toInt_minValue
  have hmax := Int64.toInt_maxValue
  have hlow := t.millis.minValue_le_toInt
  have hhigh := t.millis.toInt_le
  rw [holds_iff, toInt_plusDays, ReachAcross]
  omega

/-- Days that reach across the epoch count as all the milliseconds that there are on their side, and
no end of the range is reached. -/
theorem toInt_plusDays_of_across (h : t.ReachAcross days) :
    (t.plusDays days).millis.toInt =
      t.millis.toInt + if 0 < days.toInt then Int64.maxValue.toInt else Int64.minValue.toInt := by
  have hmin := Int64.toInt_minValue
  have hmax := Int64.toInt_maxValue
  have hlow := t.millis.minValue_le_toInt
  have hhigh := t.millis.toInt_le
  rw [toInt_plusDays]
  rcases h with ⟨hspan, ht⟩ | ⟨hspan, ht⟩
  · have hdays : 0 < days.toInt := by
      rw [span] at hspan
      omega
    rw [if_pos hdays]
    omega
  · have hdays : ¬0 < days.toInt := by
      rw [span] at hspan
      omega
    rw [if_neg hdays]
    omega

/-- The answer **never overshoots**: it lies between the instant and the sum without bounds. -/
theorem plusDays_between (t : Instant) (days : Int64) :
    (0 ≤ days.toInt → t.millis.toInt ≤ (t.plusDays days).millis.toInt ∧
      (t.plusDays days).millis.toInt ≤ t.millis.toInt + span days) ∧
    (days.toInt ≤ 0 → (t.plusDays days).millis.toInt ≤ t.millis.toInt ∧
      t.millis.toInt + span days ≤ (t.plusDays days).millis.toInt) := by
  have hmin := Int64.toInt_minValue
  have hmax := Int64.toInt_maxValue
  have hlow := t.millis.minValue_le_toInt
  have hhigh := t.millis.toInt_le
  rw [toInt_plusDays, span]
  constructor <;> intro hdays <;> omega

/-- The answer is **monotone** in the instant and in the days. -/
theorem plusDays_mono (ht : t.millis ≤ u.millis) (hdays : days ≤ more) :
    (t.plusDays days).millis ≤ (u.plusDays more).millis := by
  rw [Int64.le_iff_toInt_le] at ht hdays ⊢
  rw [toInt_plusDays, toInt_plusDays, span, span]
  omega

end Instant

end Taskbook
