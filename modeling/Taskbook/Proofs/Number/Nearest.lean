import Mathlib.Algebra.Order.Field.Power
import Mathlib.Data.Rat.Floor
import Mathlib.Tactic.Linarith
import Mathlib.Tactic.NormNum
import Mathlib.Tactic.Positivity
import Taskbook.Number.Binary64

/-!
# The Closest Double

A double is what `Binary64.nearest` makes of a rational, and that is computed: the size of the
rational gives the last place that a double of this size has, and the rational is rounded to a
multiple of it. This module says what comes out without saying how. The numbers of finite doubles
are the multiples `m * 2 ^ e` of powers of two with at most 53 bits, and rounding goes to one
than which none is closer. What follows from that alone is that rounding keeps the order and that
a double is rounded to itself.

## Range convention

A number is out of range from `2 ^ 1024 - 2 ^ 970` on. This is the middle between the greatest
double and `2 ^ 1024`, which would be the next one; the middle itself goes to the even neighbour,
which is no longer finite.

## Main results

* `Rounds.unique`: what a number is rounded to is **said without computing it**, and one double only
  answers to it;
* `Binary64.rounds_nearest`: **no double is closer**, of two equally close ones the even one is
  taken, and what is out of range becomes infinite;
* `Binary64.nearest_mono`: **rounding keeps the order**;
* `Binary64.nearest_of_isDouble`: **a double is rounded to itself**;
* `Binary64.order_nearest_eq_iff`: against a double, a number and what it is rounded to stand on
  **the same side**, unless it is rounded to that very double.
-/

namespace Taskbook.Number

variable {q : ℚ}

/-! ### Powers and sizes -/

/-- A power with an integer exponent, written as a fraction where the exponent is negative. -/
theorem zpow_eq_ite (b : Nat) (e : Int) :
    (if 0 ≤ e then (Nat.pow b e.toNat : ℚ) else 1 / (Nat.pow b (-e).toNat : ℚ)) = (b : ℚ) ^ e := by
  split
  · next h =>
    obtain ⟨n, rfl⟩ := Int.eq_ofNat_of_zero_le h
    simp
  · next h =>
    obtain ⟨n, hn⟩ := Int.eq_ofNat_of_zero_le (Int.neg_nonneg_of_nonpos (Int.le_of_not_le h))
    obtain rfl : e = -n := by omega
    simp

theorem twoPow_eq_zpow (e : Int) : twoPow e = (2 : ℚ) ^ e :=
  zpow_eq_ite 2 e

theorem tenPow_eq_zpow (e : Int) : tenPow e = (10 : ℚ) ^ e :=
  zpow_eq_ite 10 e

theorem two_zpow_pos (e : Int) : (0 : ℚ) < 2 ^ e := by positivity

/-- The binary exponent of a number tells its **size** up to a factor of two. -/
theorem binaryExponent_spec (hq : q ≠ 0) :
    (2 : ℚ) ^ binaryExponent q ≤ |q| ∧ |q| < 2 ^ (binaryExponent q + 1) := by
  have habs : q.abs = |q| := by
    rw [Rat.abs]
    split
    · next h => exact (abs_of_nonneg h).symm
    · next h => exact (abs_of_neg (not_le.mp h)).symm
  have hn : q.num.natAbs ≠ 0 := Int.natAbs_ne_zero.mpr (Rat.num_ne_zero.mpr hq)
  have hsize : |q| = (q.num.natAbs : ℚ) / q.den := by
    rw [Rat.abs_def, Rat.divInt_eq_div]
    rfl
  rw [binaryExponent]
  simp only [twoPow_eq_zpow, habs]
  set a := q.num.natAbs.log2
  set b := q.den.log2
  have hd : (0 : ℚ) < q.den := by exact_mod_cast q.den_pos
  have ha : (2 : ℚ) ^ (a : ℤ) ≤ q.num.natAbs := by exact_mod_cast Nat.log2_self_le hn
  have ha' : (q.num.natAbs : ℚ) < 2 ^ ((a : ℤ) + 1) := by
    exact_mod_cast Nat.lt_log2_self (n := q.num.natAbs)
  have hb : (2 : ℚ) ^ (b : ℤ) ≤ q.den := by exact_mod_cast Nat.log2_self_le q.den_nz
  have hb' : (q.den : ℚ) < 2 ^ ((b : ℤ) + 1) := by
    exact_mod_cast Nat.lt_log2_self (n := q.den)
  have hlow : (2 : ℚ) ^ ((a : ℤ) - b - 1) ≤ |q| := by
    rw [hsize, le_div_iff₀ hd]
    calc (2 : ℚ) ^ ((a : ℤ) - b - 1) * q.den
        ≤ 2 ^ ((a : ℤ) - b - 1) * 2 ^ ((b : ℤ) + 1) :=
          mul_le_mul_of_nonneg_left hb'.le (two_zpow_pos _).le
      _ = 2 ^ (a : ℤ) := by rw [← zpow_add₀ two_ne_zero]; congr 1; omega
      _ ≤ q.num.natAbs := ha
  have hhigh : |q| < (2 : ℚ) ^ ((a : ℤ) - b + 1) := by
    rw [hsize, div_lt_iff₀ hd]
    calc (q.num.natAbs : ℚ) < 2 ^ ((a : ℤ) + 1) := ha'
      _ = 2 ^ ((a : ℤ) - b + 1) * 2 ^ (b : ℤ) := by
          rw [← zpow_add₀ two_ne_zero]; congr 1; omega
      _ ≤ 2 ^ ((a : ℤ) - b + 1) * q.den :=
          mul_le_mul_of_nonneg_left hb (two_zpow_pos _).le
  split
  · next h => exact ⟨h, hhigh⟩
  · next h => exact ⟨hlow, by rw [sub_add_cancel]; exact not_le.mp h⟩

/-! ### Rounding to an integer -/

/-- The rounded number is the integer below or the one above. -/
theorem roundHalfEven_cases (q : ℚ) :
    (roundHalfEven q = ⌊q⌋ ∧ 2 * (q - ⌊q⌋) ≤ 1 ∧ (2 * (q - ⌊q⌋) = 1 → ⌊q⌋ % 2 = 0)) ∨
      (roundHalfEven q = ⌊q⌋ + 1 ∧ 1 ≤ 2 * (q - ⌊q⌋) ∧ (2 * (q - ⌊q⌋) = 1 → (⌊q⌋ + 1) % 2 = 0)) := by
  have hfloor : q.floor = ⌊q⌋ := rfl
  simp only [roundHalfEven, hfloor]
  split
  · next h => exact .inl ⟨rfl, by linarith, fun he => by linarith⟩
  · next h =>
    split
    · next h' => exact .inr ⟨rfl, by linarith, fun he => by linarith⟩
    · next h' =>
      split
      · next heven => exact .inl ⟨rfl, by linarith, fun _ => heven⟩
      · next hodd => exact .inr ⟨rfl, by linarith, fun _ => by omega⟩

/-- **No integer is closer** than the rounded number, and of two equally close ones it is the even
one. -/
theorem roundHalfEven_closest (q : ℚ) (k : ℤ) :
    |(roundHalfEven q : ℚ) - q| ≤ |k - q| ∧
      (|(k : ℚ) - q| = |(roundHalfEven q : ℚ) - q| → k ≠ roundHalfEven q →
        roundHalfEven q % 2 = 0) := by
  have hlow := Int.floor_le q
  have hhigh := Int.lt_floor_add_one q
  have hside : (k : ℚ) ≤ ⌊q⌋ ∨ (⌊q⌋ : ℚ) + 1 ≤ k := by
    rcases Int.lt_or_le ⌊q⌋ k with h | h
    · exact .inr (by exact_mod_cast h)
    · exact .inl (by exact_mod_cast h)
  have hk : |(k : ℚ) - q| = q - k ∧ (k : ℚ) ≤ ⌊q⌋ ∨ |(k : ℚ) - q| = k - q ∧ (⌊q⌋ : ℚ) + 1 ≤ k := by
    rcases hside with h | h
    · exact .inl ⟨by rw [abs_of_nonpos (by linarith)]; ring, h⟩
    · exact .inr ⟨abs_of_nonneg (by linarith), h⟩
  rcases roundHalfEven_cases q with ⟨hr, hrest, heven⟩ | ⟨hr, hrest, heven⟩
  · have hdist : |(roundHalfEven q : ℚ) - q| = q - ⌊q⌋ := by
      rw [hr, abs_of_nonpos (by linarith)]; ring
    rw [hdist]
    refine ⟨by rcases hk with ⟨h, h'⟩ | ⟨h, h'⟩ <;> rw [h] <;> linarith, fun he hne => ?_⟩
    rw [hr] at hne ⊢
    rcases hk with ⟨h, h'⟩ | ⟨h, h'⟩
    · exact absurd (by exact_mod_cast (show (k : ℚ) = ⌊q⌋ by linarith)) hne
    · exact heven (by linarith)
  · have hdist : |(roundHalfEven q : ℚ) - q| = ⌊q⌋ + 1 - q := by
      rw [hr]; push_cast; exact abs_of_nonneg (by linarith)
    rw [hdist]
    refine ⟨by rcases hk with ⟨h, h'⟩ | ⟨h, h'⟩ <;> rw [h] <;> linarith, fun he hne => ?_⟩
    rw [hr] at hne ⊢
    rcases hk with ⟨h, h'⟩ | ⟨h, h'⟩
    · exact heven (by linarith)
    · exact absurd (by exact_mod_cast (show (k : ℚ) = ⌊q⌋ + 1 by linarith)) hne

/-- Rounding does not pass an integer from below. -/
theorem roundHalfEven_le {k : ℤ} (h : q ≤ k) : roundHalfEven q ≤ k := by
  have hfloor : ⌊q⌋ ≤ k := by exact_mod_cast (Int.floor_le q).trans h
  rcases roundHalfEven_cases q with ⟨hr, -, -⟩ | ⟨hr, hrest, -⟩
  · rw [hr]
    exact hfloor
  · have hne : ⌊q⌋ ≠ k := fun he => by
      rw [he] at hrest
      linarith
    omega

/-- Rounding does not pass an integer from above. -/
theorem le_roundHalfEven {k : ℤ} (h : (k : ℚ) ≤ q) : k ≤ roundHalfEven q := by
  have hfloor : k ≤ ⌊q⌋ := Int.le_floor.mpr h
  rcases roundHalfEven_cases q with ⟨hr, -, -⟩ | ⟨hr, -, -⟩ <;> omega

theorem abs_roundHalfEven_le {k : ℤ} (h : |q| ≤ k) : |roundHalfEven q| ≤ k := by
  obtain ⟨hlow, hhigh⟩ := abs_le.mp h
  exact abs_le.mpr ⟨le_roundHalfEven (by exact_mod_cast hlow), roundHalfEven_le hhigh⟩

theorem le_abs_roundHalfEven {k : ℤ} (h : (k : ℚ) ≤ |q|) : k ≤ |roundHalfEven q| := by
  rcases le_abs.mp h with h | h
  · exact (le_roundHalfEven h).trans (le_abs_self _)
  · have hneg : roundHalfEven q ≤ -k := roundHalfEven_le (by push_cast; linarith)
    exact (le_neg_of_le_neg hneg).trans (neg_le_abs _)

/-- The middle below an even integer is rounded up to it. -/
theorem le_abs_roundHalfEven_of_half {k : ℤ} (heven : k % 2 = 0) (h : (k : ℚ) - 1 / 2 ≤ |q|) :
    k ≤ |roundHalfEven q| := by
  rcases le_or_gt (k : ℚ) |q| with hk | hk
  · exact le_abs_roundHalfEven hk
  obtain ⟨hlow, hhigh⟩ := abs_lt.mp hk
  rcases le_abs.mp h with h | h
  · have hfloor : ⌊q⌋ = k - 1 := Int.floor_eq_iff.mpr ⟨by push_cast; linarith, by
      push_cast; linarith⟩
    refine le_trans ?_ (le_abs_self _)
    rcases roundHalfEven_cases q with ⟨-, hrest, hodd⟩ | ⟨hr, -, -⟩
    · rw [hfloor] at hrest hodd
      push_cast at hrest hodd
      have := hodd (by linarith)
      omega
    · omega
  · have hfloor : ⌊q⌋ = -k := Int.floor_eq_iff.mpr ⟨by push_cast; linarith, by
      push_cast; linarith⟩
    refine le_trans ?_ (neg_le_abs _)
    rcases roundHalfEven_cases q with ⟨hr, -, -⟩ | ⟨-, hrest, hodd⟩
    · omega
    · rw [hfloor] at hrest hodd
      push_cast at hrest hodd
      have := hodd (by linarith)
      omega

/-! ### Rounding to a place -/

theorem roundTo_eq (e : Int) (q : ℚ) : roundTo e q = roundHalfEven (q / 2 ^ e) * 2 ^ e := by
  rw [roundTo, twoPow_eq_zpow]

/-- **No multiple is closer** than the one that a number is rounded to, and of two equally close
ones it is the even one. -/
theorem roundTo_closest (e : Int) (q : ℚ) (k : ℤ) :
    |roundTo e q - q| ≤ |k * 2 ^ e - q| ∧
      (|k * 2 ^ e - q| = |roundTo e q - q| → k * 2 ^ e ≠ roundTo e q →
        roundHalfEven (q / 2 ^ e) % 2 = 0) := by
  have hpos := two_zpow_pos e
  have hscale (j : ℤ) : |(j : ℚ) * 2 ^ e - q| = |(j : ℚ) - q / 2 ^ e| * 2 ^ e := by
    have hj : (j : ℚ) * 2 ^ e - q = ((j : ℚ) - q / 2 ^ e) * 2 ^ e := by
      rw [sub_mul, div_mul_cancel₀ q hpos.ne']
    rw [hj, abs_mul, abs_of_pos hpos]
  obtain ⟨hclosest, heven⟩ := roundHalfEven_closest (q / 2 ^ e) k
  rw [roundTo_eq, hscale, hscale]
  refine ⟨mul_le_mul_of_nonneg_right hclosest hpos.le, fun he hne => ?_⟩
  refine heven (mul_right_cancel₀ hpos.ne' he) ?_
  rintro rfl
  exact hne rfl

/-- Rounding to a multiple does not cross zero. -/
theorem roundTo_nonneg {e : ℤ} (h : 0 ≤ q) : 0 ≤ roundTo e q := by
  have hr : 0 ≤ roundHalfEven (q / 2 ^ e) :=
    le_roundHalfEven (by exact_mod_cast div_nonneg h (two_zpow_pos e).le)
  rw [roundTo_eq]
  exact mul_nonneg (by exact_mod_cast hr) (two_zpow_pos e).le

theorem roundTo_nonpos {e : ℤ} (h : q ≤ 0) : roundTo e q ≤ 0 := by
  have hr : roundHalfEven (q / 2 ^ e) ≤ 0 :=
    roundHalfEven_le (by exact_mod_cast div_nonpos_of_nonpos_of_nonneg h (two_zpow_pos e).le)
  rw [roundTo_eq]
  exact mul_nonpos_of_nonpos_of_nonneg (by exact_mod_cast hr) (two_zpow_pos e).le

/-- The last place of a number leaves it 53 bits, of which the first is used unless the last place
is the lowest of all. -/
theorem lastPlace_spec (hq : q ≠ 0) :
    -1074 ≤ lastPlace q ∧ |q| < 2 ^ (lastPlace q + 53) ∧
      (lastPlace q = -1074 ∨ (2 : ℚ) ^ (lastPlace q + 52) ≤ |q|) := by
  obtain ⟨hlow, hhigh⟩ := binaryExponent_spec hq
  refine ⟨le_max_right _ _, hhigh.trans_le (zpow_le_zpow_right₀ one_le_two ?_), ?_⟩
  · rw [lastPlace]
    omega
  · rcases max_choice (binaryExponent q - 52) (-1074) with h | h
    · right
      rw [lastPlace, h, sub_add_cancel]
      exact hlow
    · exact .inl h

/-! ### Doubles -/

/-- The number of a finite **double**: at most 53 bits at a place between the lowest and the
highest. -/
def IsDouble (v : ℚ) : Prop :=
  ∃ m e : ℤ, |m| < 2 ^ 53 ∧ -1074 ≤ e ∧ e ≤ 971 ∧ v = m * 2 ^ e

/-- A double whose **last bit is zero**. Its first bit is used unless the place is the lowest, so
there is one last bit only. -/
def IsEvenDouble (v : ℚ) : Prop :=
  ∃ m e : ℤ, m % 2 = 0 ∧ |m| < 2 ^ 53 ∧ -1074 ≤ e ∧ e ≤ 971 ∧ (e = -1074 ∨ 2 ^ 52 ≤ |m|) ∧
    v = m * 2 ^ e

theorem isDouble_zero : IsDouble 0 := ⟨0, 0, by norm_num⟩

/-- Where the numbers begin that are out of the range of doubles. -/
def outOfRange : ℚ := 2 ^ 1024 - 2 ^ 970

/-- What a number is **rounded** to: an infinity if it is out of range, else a double than which none
is closer, which is the even one where another one is as close. -/
structure Rounds (q : ℚ) (x : Binary64) : Prop where
  infinite : outOfRange ≤ |q| → x = .infinite (q < 0)
  finite : |q| < outOfRange → ∃ v, x = .finite v ∧ IsDouble v ∧
    ∀ w, IsDouble w → |v - q| ≤ |w - q| ∧ (|w - q| = |v - q| → w ≠ v → IsEvenDouble v)

/-- A finite number that is rounded to is a double. -/
theorem Rounds.isDouble {v : ℚ} (h : Rounds q (.finite v)) : IsDouble v := by
  rcases le_or_gt outOfRange |q| with hout | hin
  · cases h.infinite hout
  · obtain ⟨w, hw, hdouble, -⟩ := h.finite hin
    obtain rfl := Binary64.finite.inj hw
    exact hdouble

/-! ### One double only -/

/-- A multiple of a place is one of a lower place. -/
theorem zpow_at_lower_place {e d : ℤ} (m : ℤ) (h : e ≤ d) :
    (m : ℚ) * 2 ^ d = ((m * 2 ^ (d - e).toNat : ℤ) : ℚ) * 2 ^ e := by
  have hsplit : (2 : ℚ) ^ (d - e).toNat * 2 ^ e = 2 ^ d := by
    rw [← zpow_natCast, Int.toNat_of_nonneg (by omega), ← zpow_add₀ two_ne_zero, sub_add_cancel]
  push_cast
  rw [mul_assoc, hsplit]

/-- What is at least as close as something smaller lies beyond the middle. -/
theorem middle_le {v w : ℚ} (hlt : w < v) (h : |v - q| ≤ |w - q|) : v + w ≤ 2 * q := by
  rcases abs_cases (v - q) with ⟨hv, hv'⟩ | ⟨hv, hv'⟩ <;>
    rcases abs_cases (w - q) with ⟨hw, hw'⟩ | ⟨hw, hw'⟩ <;> rw [hv, hw] at h <;> linarith

/-- What is at least as close as something greater lies on this side of the middle. -/
theorem le_middle {v w : ℚ} (hlt : v < w) (h : |v - q| ≤ |w - q|) : 2 * q ≤ v + w := by
  rcases abs_cases (v - q) with ⟨hv, hv'⟩ | ⟨hv, hv'⟩ <;>
    rcases abs_cases (w - q) with ⟨hw, hw'⟩ | ⟨hw, hw'⟩ <;> rw [hv, hw] at h <;> linarith

/-- The next numbers at the place of an even double are doubles. -/
theorem IsEvenDouble.exists_neighbours {v : ℚ} (hv : IsEvenDouble v) :
    ∃ m e : ℤ, m % 2 = 0 ∧ v = m * 2 ^ e ∧ IsDouble (v + 2 ^ e) ∧ IsDouble (v - 2 ^ e) := by
  obtain ⟨m, e, heven, hm, hlow, hhigh, -, rfl⟩ := hv
  obtain ⟨hmin, hmax⟩ := abs_lt.mp hm
  refine ⟨m, e, heven, rfl, ⟨m + 1, e, abs_lt.mpr ⟨by omega, ?_⟩, hlow, hhigh, by push_cast; ring⟩,
    ⟨m - 1, e, abs_lt.mpr ⟨?_, by omega⟩, hlow, hhigh, by push_cast; ring⟩⟩ <;> omega

/-- Two even doubles are not next to each other. -/
theorem IsEvenDouble.not_adjacent {v w : ℚ} (hv : IsEvenDouble v) (hw : IsEvenDouble w)
    (hlt : v < w) : ∃ x, IsDouble x ∧ v < x ∧ x < w := by
  obtain ⟨m, e, hm, hvm, hup, -⟩ := hv.exists_neighbours
  obtain ⟨k, d, hk, hwk, -, hdown⟩ := hw.exists_neighbours
  by_contra hnone
  have habove : w ≤ v + 2 ^ e := not_lt.mp fun h =>
    hnone ⟨_, hup, lt_add_of_pos_right v (two_zpow_pos e), h⟩
  have hbelow : w ≤ v + 2 ^ d := by
    have : w - 2 ^ d ≤ v := not_lt.mp fun h =>
      hnone ⟨_, hdown, h, sub_lt_self w (two_zpow_pos d)⟩
    linarith
  -- At the lower of the two places both are even multiples, so they differ by two units at least.
  obtain ⟨f, a, b, ha, hb, hva, hwb, hgap⟩ : ∃ f a b : ℤ, a % 2 = 0 ∧ b % 2 = 0 ∧
      v = a * 2 ^ f ∧ w = b * 2 ^ f ∧ w ≤ v + 2 ^ f := by
    rcases le_total e d with h | h
    · exact ⟨e, m, k * 2 ^ (d - e).toNat, hm, by rw [Int.mul_emod, hk]; simp, hvm,
        by rw [hwk]; exact zpow_at_lower_place k h, habove⟩
    · exact ⟨d, m * 2 ^ (e - d).toNat, k, by rw [Int.mul_emod, hm]; simp, hk,
        by rw [hvm]; exact zpow_at_lower_place m h, hwk, hbelow⟩
  have hpos := two_zpow_pos f
  rw [hva, hwb] at hlt hgap
  have hab : a < b := by exact_mod_cast lt_of_mul_lt_mul_right hlt hpos.le
  have hba : b ≤ a + 1 := by
    rw [← add_one_mul] at hgap
    exact_mod_cast le_of_mul_le_mul_right hgap hpos
  omega

/-- **A number is rounded to one double only.** Of two that are equally close both would be even, and
another double would stand between them. -/
theorem Rounds.unique {x y : Binary64} (hx : Rounds q x) (hy : Rounds q y) : x = y := by
  rcases le_or_gt outOfRange |q| with hout | hin
  · rw [hx.infinite hout, hy.infinite hout]
  obtain ⟨v, rfl, hv, hvclosest⟩ := hx.finite hin
  obtain ⟨w, rfl, hw, hwclosest⟩ := hy.finite hin
  have hsame : |w - q| = |v - q| := le_antisymm (hwclosest v hv).1 (hvclosest w hw).1
  have hbetween {v w : ℚ} (hclosest : ∀ x, IsDouble x → |v - q| ≤ |x - q|)
      (hsame : |w - q| = |v - q|) (hlt : v < w) (hev : IsEvenDouble v) (hew : IsEvenDouble w) :
      False := by
    obtain ⟨x, hx, hlow, hhigh⟩ := hev.not_adjacent hew hlt
    have hmiddle := middle_le hlt hsame.le
    have hmiddle' := le_middle hlt hsame.ge
    have hclose : |x - q| < |v - q| := by
      rw [abs_of_nonpos (by linarith : v - q ≤ 0)]
      exact abs_lt.mpr ⟨by linarith, by linarith⟩
    exact absurd (hclosest x hx) (not_le.mpr hclose)
  congr 1
  by_contra hne
  have hev := (hvclosest w hw).2 hsame (Ne.symm hne)
  have hew := (hwclosest v hv).2 hsame.symm hne
  rcases lt_or_gt_of_ne hne with h | h
  · exact hbetween (fun x hx => (hvclosest x hx).1) hsame h hev hew
  · exact hbetween (fun x hx => (hwclosest x hx).1) hsame.symm h hew hev

/-! ### Rounding to the last place -/

/-- A double is a multiple of a place, or it is smaller than a number with this last place. -/
theorem IsDouble.grid_or_small {w : ℚ} (hw : IsDouble w) (e : ℤ) :
    (∃ k : ℤ, w = k * 2 ^ e) ∨ (-1074 < e ∧ |w| < 2 ^ (e + 52)) := by
  obtain ⟨m, d, hm, hd, -, rfl⟩ := hw
  rcases le_or_gt e d with h | h
  · exact .inl ⟨m * 2 ^ (d - e).toNat, zpow_at_lower_place m h⟩
  · refine .inr ⟨by omega, ?_⟩
    have hm' : |(m : ℚ)| < 2 ^ (53 : ℤ) := by exact_mod_cast hm
    calc |(m : ℚ) * 2 ^ d| = |(m : ℚ)| * 2 ^ d := by rw [abs_mul, abs_of_pos (two_zpow_pos d)]
      _ < 2 ^ (53 : ℤ) * 2 ^ d := mul_lt_mul_of_pos_right hm' (two_zpow_pos d)
      _ = 2 ^ (53 + d) := (zpow_add₀ two_ne_zero _ _).symm
      _ ≤ 2 ^ (e + 52) := zpow_le_zpow_right₀ one_le_two (by omega)

/-- **No double is closer** than the multiple of the last place that a number is rounded to. -/
theorem roundTo_lastPlace_closest (hq : q ≠ 0) {w : ℚ} (hw : IsDouble w) :
    |roundTo (lastPlace q) q - q| ≤ |w - q| ∧
      (|w - q| = |roundTo (lastPlace q) q - q| → w ≠ roundTo (lastPlace q) q →
        roundHalfEven (q / 2 ^ lastPlace q) % 2 = 0) := by
  rcases hw.grid_or_small (lastPlace q) with ⟨k, rfl⟩ | ⟨hlast, hsmall⟩
  · exact roundTo_closest _ q k
  -- The first number of this size is a multiple of the last place and lies between `w` and `q`.
  obtain ⟨-, -, hfirst⟩ := lastPlace_spec hq
  have hsize := hfirst.resolve_left hlast.ne'
  obtain ⟨k, hk⟩ : ∃ k : ℤ, |(k : ℚ) * 2 ^ lastPlace q - q| = |q| - 2 ^ (lastPlace q + 52) := by
    have hfirst : ((2 ^ 52 : ℤ) : ℚ) * 2 ^ lastPlace q = 2 ^ (lastPlace q + 52) := by
      rw [zpow_add₀ two_ne_zero, mul_comm]
      norm_num
    rcases le_total 0 q with hsign | hsign
    · rw [abs_of_nonneg hsign] at hsize ⊢
      refine ⟨2 ^ 52, ?_⟩
      rw [hfirst, abs_of_nonpos (by linarith)]
      ring
    · rw [abs_of_nonpos hsign] at hsize ⊢
      refine ⟨-2 ^ 52, ?_⟩
      rw [Int.cast_neg, neg_mul, hfirst, abs_of_nonneg (by linarith)]
      ring
  have hfar : |q| - |w| ≤ |w - q| := by
    rw [abs_sub_comm]
    exact abs_sub_abs_le_abs_sub q w
  have hclosest := (roundTo_closest (lastPlace q) q k).1
  exact ⟨by linarith, fun he => by linarith⟩

/-- A number of at most 53 bits above the lowest place is a double, unless it is out of range. -/
theorem isDouble_of_bits {m e : ℤ} (hm : |m| ≤ 2 ^ 53) (he : -1074 ≤ e)
    (hfirst : e = -1074 ∨ 2 ^ 52 ≤ |m|) (hrange : |(m : ℚ) * 2 ^ e| < 2 ^ 1024) :
    IsDouble (m * 2 ^ e) ∧ (m % 2 = 0 → IsEvenDouble (m * 2 ^ e)) := by
  -- How high the place can be, if the first of the bits is used.
  have hplace {b : ℕ} (hb : 2 ^ b ≤ |m|) : (b : ℤ) + e < 1024 := by
    have hb' : (2 : ℚ) ^ (b : ℤ) ≤ |(m : ℚ)| := by exact_mod_cast hb
    refine (zpow_lt_zpow_iff_right₀ (one_lt_two (α := ℚ))).mp ?_
    calc (2 : ℚ) ^ ((b : ℤ) + e) = 2 ^ (b : ℤ) * 2 ^ e := zpow_add₀ two_ne_zero _ _
      _ ≤ |(m : ℚ)| * 2 ^ e := mul_le_mul_of_nonneg_right hb' (two_zpow_pos e).le
      _ = |(m : ℚ) * 2 ^ e| := by rw [abs_mul, abs_of_pos (two_zpow_pos e)]
      _ < 2 ^ (1024 : ℤ) := by exact_mod_cast hrange
  rcases hm.lt_or_eq with hlt | heq
  · have hhigh : e ≤ 971 := by
      rcases hfirst with rfl | hfirst
      · norm_num
      · have := hplace hfirst
        omega
    exact ⟨⟨m, e, hlt, he, hhigh, rfl⟩, fun heven => ⟨m, e, heven, hlt, he, hhigh, hfirst, rfl⟩⟩
  · -- With all 53 bits above the first one at zero, the number is written one place higher.
    have hhigh := hplace heq.ge
    obtain ⟨n, rfl, hn⟩ : ∃ n : ℤ, m = 2 * n ∧ |n| = 2 ^ 52 := by
      rcases eq_or_eq_neg_of_abs_eq heq with rfl | rfl
      · exact ⟨2 ^ 52, by norm_num, by norm_num⟩
      · exact ⟨-2 ^ 52, by norm_num, by norm_num⟩
    have hmove : ((2 * n : ℤ) : ℚ) * 2 ^ e = n * 2 ^ (e + 1) := by
      rw [zpow_add_one₀ two_ne_zero]
      push_cast
      ring
    have hn' : |n| < 2 ^ 53 := by
      rw [hn]
      norm_num
    have heven : n % 2 = 0 := by
      rcases eq_or_eq_neg_of_abs_eq hn with rfl | rfl <;> norm_num
    rw [hmove]
    exact ⟨⟨n, e + 1, hn', by omega, by omega, rfl⟩,
      fun _ => ⟨n, e + 1, heven, hn', by omega, by omega, .inr hn.ge, rfl⟩⟩

/-- The bits of a number that is rounded to its last place. -/
theorem bits_lastPlace (hq : q ≠ 0) :
    |roundHalfEven (q / 2 ^ lastPlace q)| ≤ 2 ^ 53 ∧
      (lastPlace q = -1074 ∨ 2 ^ 52 ≤ |roundHalfEven (q / 2 ^ lastPlace q)|) := by
  obtain ⟨-, hhigh, hfirst⟩ := lastPlace_spec hq
  have hpos := two_zpow_pos (lastPlace q)
  have hsize : |q / 2 ^ lastPlace q| = |q| / 2 ^ lastPlace q := by rw [abs_div, abs_of_pos hpos]
  have hsplit (b : ℕ) : (2 : ℚ) ^ (lastPlace q + b) = 2 ^ b * 2 ^ lastPlace q := by
    rw [zpow_add₀ two_ne_zero, zpow_natCast, mul_comm]
  refine ⟨abs_roundHalfEven_le ?_, hfirst.imp_right fun hlow => le_abs_roundHalfEven ?_⟩
  · rw [hsize, div_le_iff₀ hpos]
    push_cast
    exact (hsplit 53 ▸ hhigh).le
  · rw [hsize, le_div_iff₀ hpos]
    push_cast
    exact hsplit 52 ▸ hlow

/-! ### The range of doubles -/

/-- The powers about the end of the range, as multiples of half its last place. -/
theorem exists_rangeUnit :
    ∃ u : ℚ, 0 < u ∧ 2 ^ 971 = 2 * u ∧ 2 ^ 1023 = 2 ^ 53 * u ∧ 2 ^ 1024 = 2 ^ 54 * u ∧
      outOfRange = 2 ^ 54 * u - u :=
  ⟨2 ^ 970, by positivity, pow_succ' 2 970, pow_add 2 53 970, pow_add 2 54 970,
    congrArg (· - 2 ^ 970) (pow_add 2 54 970)⟩

theorem outOfRange_pos : 0 < outOfRange := by
  obtain ⟨u, hu, -, -, -, hout⟩ := exists_rangeUnit
  rw [hout]
  linarith only [hu]

/-- The greatest double and the least one. -/
theorem isDouble_greatest :
    IsDouble (2 ^ 1024 - 2 ^ 971) ∧ IsDouble (-(2 ^ 1024 - 2 ^ 971)) := by
  obtain ⟨u, -, hplace, -, hend, -⟩ := exists_rangeUnit
  have hvalue : (2 : ℚ) ^ 1024 - 2 ^ 971 = ((2 ^ 53 - 1 : ℤ) : ℚ) * 2 ^ (971 : ℤ) := by
    have hcast : (2 : ℚ) ^ (971 : ℤ) = 2 * u := (zpow_natCast 2 971).trans hplace
    rw [hcast, hplace, hend]
    push_cast
    ring
  refine ⟨⟨2 ^ 53 - 1, 971, by norm_num, by norm_num, by norm_num, hvalue⟩,
    ⟨-(2 ^ 53 - 1), 971, by norm_num, by norm_num, by norm_num, ?_⟩⟩
  rw [hvalue, Int.cast_neg, neg_mul]

/-- A number out of range is rounded to one from `2 ^ 1024` on. -/
theorem le_abs_roundTo (hq : outOfRange ≤ |q|) : 2 ^ 1024 ≤ |roundTo (lastPlace q) q| := by
  obtain ⟨u, hu, hplace, hhalf, hend, hout⟩ := exists_rangeUnit
  rw [hout] at hq
  have hlarge : (2 : ℚ) ^ 1023 < |q| := by
    rw [hhalf]
    linarith only [hq, hu]
  have hq0 : q ≠ 0 := by
    rintro rfl
    rw [abs_zero] at hq
    linarith only [hq, hu]
  obtain ⟨-, hhigh, -⟩ := lastPlace_spec hq0
  obtain ⟨-, hfirst⟩ := bits_lastPlace hq0
  have hlast : 971 ≤ lastPlace q := by
    have hexponent : (2 : ℚ) ^ (1023 : ℤ) < 2 ^ (lastPlace q + 53) :=
      ((zpow_natCast 2 1023).trans_lt hlarge).trans hhigh
    have := (zpow_lt_zpow_iff_right₀ (one_lt_two (α := ℚ))).mp hexponent
    omega
  -- At the highest place all 53 bits are used up; a higher one has its first bit.
  obtain ⟨b, hb, hbits⟩ : ∃ b : ℕ, 1024 ≤ b + lastPlace q ∧
      2 ^ b ≤ |roundHalfEven (q / 2 ^ lastPlace q)| := by
    rcases hlast.eq_or_lt with heq | hlt
    · refine ⟨53, by omega, le_abs_roundHalfEven_of_half (by norm_num) ?_⟩
      have hcast : (2 : ℚ) ^ (971 : ℤ) = 2 * u := (zpow_natCast 2 971).trans hplace
      have hunit : 0 < 2 * u := by linarith only [hu]
      rw [← heq, hcast, abs_div, abs_of_pos hunit, le_div_iff₀ hunit]
      push_cast
      linarith only [hq]
    · exact ⟨52, by omega, hfirst.resolve_left (by omega)⟩
  have hbits' : (2 : ℚ) ^ (b : ℤ) ≤ |(roundHalfEven (q / 2 ^ lastPlace q) : ℚ)| := by
    exact_mod_cast hbits
  calc (2 : ℚ) ^ 1024 = 2 ^ (1024 : ℤ) := (zpow_natCast 2 1024).symm
    _ ≤ 2 ^ ((b : ℤ) + lastPlace q) := zpow_le_zpow_right₀ one_le_two hb
    _ = 2 ^ (b : ℤ) * 2 ^ lastPlace q := zpow_add₀ two_ne_zero _ _
    _ ≤ |(roundHalfEven (q / 2 ^ lastPlace q) : ℚ)| * 2 ^ lastPlace q :=
        mul_le_mul_of_nonneg_right hbits' (two_zpow_pos _).le
    _ = |roundTo (lastPlace q) q| := by rw [roundTo_eq, abs_mul, abs_of_pos (two_zpow_pos _)]

/-- A number in range is rounded to one before `2 ^ 1024`: the greatest double would be closer than
that. -/
theorem abs_roundTo_lt (hq0 : q ≠ 0) (hq : |q| < outOfRange) :
    |roundTo (lastPlace q) q| < 2 ^ 1024 := by
  obtain ⟨u, hu, hplace, -, hend, hout⟩ := exists_rangeUnit
  obtain ⟨hgreatest, hleast⟩ := isDouble_greatest
  have hup := (roundTo_lastPlace_closest hq0 hgreatest).1
  have hdown := (roundTo_lastPlace_closest hq0 hleast).1
  rw [hplace, hend] at hup hdown
  rw [hout] at hq
  obtain ⟨hlow, hhigh⟩ := abs_lt.mp hq
  rw [hend]
  generalize roundTo (lastPlace q) q = r at hup hdown ⊢
  by_contra hfar
  rw [not_lt, le_abs] at hfar
  rcases hfar with hfar | hfar
  · rw [abs_of_pos (by linarith only [hfar, hhigh, hu])] at hup
    rcases abs_cases (2 ^ 54 * u - 2 * u - q) with ⟨h, -⟩ | ⟨h, -⟩ <;> rw [h] at hup <;>
      linarith only [hup, hfar, hhigh, hu]
  · rw [abs_of_neg (by linarith only [hfar, hlow, hu])] at hdown
    rcases abs_cases (-(2 ^ 54 * u - 2 * u) - q) with ⟨h, -⟩ | ⟨h, -⟩ <;> rw [h] at hdown <;>
      linarith only [hdown, hfar, hlow, hu]

namespace Binary64

theorem nearest_eq (q : ℚ) :
    nearest q = if |roundTo (lastPlace q) q| < 2 ^ 1024 then .finite (roundTo (lastPlace q) q)
      else .infinite (roundTo (lastPlace q) q < 0) := by
  have hpow : twoPow 1024 = 2 ^ 1024 := (twoPow_eq_zpow 1024).trans (zpow_natCast 2 1024)
  have hiff : roundTo (lastPlace q) q < 2 ^ 1024 ∧ -2 ^ 1024 < roundTo (lastPlace q) q ↔
      |roundTo (lastPlace q) q| < 2 ^ 1024 := by
    rw [abs_lt, and_comm]
  simp only [nearest, hpow, hiff]

/-- **No double is closer** to a number than the one that it is rounded to, of two equally close ones
it is the even one, and what is out of range becomes infinite. -/
theorem rounds_nearest (q : ℚ) : Rounds q (nearest q) := by
  constructor
  · intro hout
    have hlarge := le_abs_roundTo hout
    have hsign : roundTo (lastPlace q) q < 0 ↔ q < 0 := by
      have hpos : (0 : ℚ) < 2 ^ 1024 := by positivity
      constructor
      · exact fun h => lt_of_not_ge fun hq => absurd (roundTo_nonneg hq) (not_le.mpr h)
      · intro hq
        refine lt_of_le_of_ne (roundTo_nonpos hq.le) fun h => ?_
        rw [h, abs_zero] at hlarge
        exact absurd hpos (not_lt.mpr hlarge)
    rw [nearest_eq, if_neg (not_lt.mpr hlarge), decide_eq_decide.mpr hsign]
  · intro hin
    by_cases hq0 : q = 0
    · have hround : roundTo (lastPlace q) q = 0 :=
        le_antisymm (roundTo_nonpos hq0.le) (roundTo_nonneg hq0.ge)
      refine ⟨0, by rw [nearest_eq, hround, abs_zero, if_pos (by positivity)], isDouble_zero,
        fun w _ => ?_⟩
      rw [hq0, sub_zero, sub_zero, abs_zero]
      exact ⟨abs_nonneg w, fun h hne => absurd (abs_eq_zero.mp h) hne⟩
    obtain ⟨hlow, -, -⟩ := lastPlace_spec hq0
    obtain ⟨hbits, hfirst⟩ := bits_lastPlace hq0
    have hrange := abs_roundTo_lt hq0 hin
    rw [nearest_eq, if_pos hrange]
    have hvalue := roundTo_eq (lastPlace q) q
    rw [hvalue] at hrange
    obtain ⟨hdouble, heven⟩ := isDouble_of_bits hbits hlow hfirst hrange
    rw [← hvalue] at hdouble heven
    refine ⟨_, rfl, hdouble, fun w hw => ?_⟩
    obtain ⟨hclosest, htie⟩ := roundTo_lastPlace_closest hq0 hw
    exact ⟨hclosest, fun h hne => heven (htie h hne)⟩

/-- A number is rounded to what it may be rounded to. -/
theorem nearest_eq_iff {x : Binary64} : nearest q = x ↔ Rounds q x :=
  ⟨fun h => h ▸ rounds_nearest q, (rounds_nearest q).unique⟩

/-- A number is rounded to zero if it is less than half of the lowest place. -/
theorem nearest_of_small (hq : |q| < 2 ^ (-1075 : ℤ)) : nearest q = .finite 0 := by
  have hhalf : (2 : ℚ) ^ (-1074 : ℤ) = 2 ^ (-1075 : ℤ) + 2 ^ (-1075 : ℤ) := by
    rw [← two_mul, ← zpow_one_add₀ two_ne_zero]
    norm_num
  have hone : (2 : ℚ) ^ (-1075 : ℤ) < outOfRange := by
    obtain ⟨u, -, hplace, -, hend, hout⟩ := exists_rangeUnit
    have hu : (1 : ℚ) ≤ 2 ^ 971 := one_le_pow₀ one_le_two
    have hle : (2 : ℚ) ^ (-1075 : ℤ) ≤ 1 := zpow_le_one_of_nonpos₀ one_le_two (by norm_num)
    rw [hplace] at hu
    rw [hout]
    linarith only [hu, hle]
  have hfar {w : ℚ} (hw : IsDouble w) (hne : w ≠ 0) : |q| < |w - q| := by
    obtain ⟨m, e, -, he, -, rfl⟩ := hw
    have hm : (1 : ℚ) ≤ |(m : ℚ)| := by
      have : m ≠ 0 := by
        rintro rfl
        exact hne (by simp)
      exact_mod_cast Int.one_le_abs this
    have hw : (2 : ℚ) ^ (-1074 : ℤ) ≤ |(m : ℚ) * 2 ^ e| := by
      rw [abs_mul, abs_of_pos (two_zpow_pos e)]
      calc (2 : ℚ) ^ (-1074 : ℤ) ≤ 2 ^ e := zpow_le_zpow_right₀ one_le_two he
        _ ≤ |(m : ℚ)| * 2 ^ e := le_mul_of_one_le_left (two_zpow_pos e).le hm
    have := abs_sub_abs_le_abs_sub ((m : ℚ) * 2 ^ e) q
    linarith only [hq, hhalf, hw, this]
  refine nearest_eq_iff.mpr ⟨fun hout => absurd (hq.trans hone) (not_lt.mpr hout), fun _ =>
    ⟨0, rfl, isDouble_zero, fun w hw => ?_⟩⟩
  rw [zero_sub, abs_neg]
  rcases eq_or_ne w 0 with rfl | hne
  · exact ⟨by rw [zero_sub, abs_neg], fun _ h => absurd rfl h⟩
  · exact ⟨(hfar hw hne).le, fun h => absurd h (hfar hw hne).ne'⟩

/-! ### The order of doubles -/

/-- A double as a point of the line with its two ends. -/
def point : Binary64 → WithBot (WithTop ℚ)
  | finite q => ((q : WithTop ℚ) : WithBot (WithTop ℚ))
  | infinite true => ⊥
  | infinite false => ((⊤ : WithTop ℚ) : WithBot (WithTop ℚ))

/-- Doubles are ordered as points of the line. -/
theorem order_eq_compare (x y : Binary64) : x.order y = compare x.point y.point := by
  rw [LinearOrder.compare_eq_compareOfLessAndEq, compareOfLessAndEq]
  rcases x with a | ⟨_ | _⟩ <;> rcases y with b | ⟨_ | _⟩
  · rcases lt_trichotomy a b with h | rfl | h
    · simp [order, point, h]
    · simp [order, point]
    · simp [order, point, h, h.not_gt, h.ne']
  all_goals rfl

instance : Std.TransCmp order where
  eq_swap {x y} := by
    rw [order_eq_compare, order_eq_compare]
    exact Std.OrientedCmp.eq_swap
  isLE_trans {x y z} := by
    rw [order_eq_compare, order_eq_compare, order_eq_compare]
    exact Std.TransCmp.isLE_trans

theorem isLE_order_finite {a b : ℚ} : (order (.finite a) (.finite b)).isLE = true ↔ a ≤ b := by
  rw [order_eq_compare, ← Ordering.ne_gt_iff_isLE, ← ne_eq, compare_le_iff_le]
  simp [point]

theorem order_finite_eq_lt {a b : ℚ} : order (.finite a) (.finite b) = .lt ↔ a < b := by
  rw [order_eq_compare, compare_lt_iff_lt]
  simp [point]

theorem order_finite_eq_gt {a b : ℚ} : order (.finite a) (.finite b) = .gt ↔ b < a := by
  rw [order_eq_compare, compare_gt_iff_gt]
  simp [point]

/-- Doubles that stand at the same point are one. -/
theorem order_eq_eq {x y : Binary64} : x.order y = .eq ↔ x = y := by
  rw [order_eq_compare, compare_eq_iff_eq]
  rcases x with a | ⟨⟨⟩⟩ <;> rcases y with b | ⟨⟨⟩⟩ <;> simp [point]

theorem isLE_order_bot (y : Binary64) : (order (.infinite true) y).isLE = true := by
  rw [order_eq_compare, ← Ordering.ne_gt_iff_isLE, ← ne_eq, compare_le_iff_le]
  exact bot_le

theorem isLE_order_top (x : Binary64) : (order x (.infinite false)).isLE = true := by
  rw [order_eq_compare, ← Ordering.ne_gt_iff_isLE, ← ne_eq, compare_le_iff_le]
  exact le_top

/-- **Rounding keeps the order.** Two numbers of which the smaller one is rounded to a greater double
would both have to lie on the far side of the middle between the two doubles. -/
theorem nearest_mono {q q' : ℚ} (h : q ≤ q') : ((nearest q).order (nearest q')).isLE = true := by
  have hq := rounds_nearest q
  have hq' := rounds_nearest q'
  have hpos := outOfRange_pos
  rcases le_or_gt outOfRange |q| with hout | hin
  · rw [hq.infinite hout]
    by_cases hsign : q < 0
    · rw [decide_eq_true hsign]
      exact isLE_order_bot _
    · rw [abs_of_nonneg (not_lt.mp hsign)] at hout
      have hsign' : ¬q' < 0 := by linarith
      rw [hq'.infinite (by rw [abs_of_nonneg (not_lt.mp hsign')]; linarith),
        decide_eq_false hsign']
      exact isLE_order_top _
  · obtain ⟨hlow, -⟩ := abs_lt.mp hin
    rcases le_or_gt outOfRange |q'| with hout' | hin'
    · have hsign' : ¬q' < 0 := fun hneg => by
        rw [abs_of_neg hneg] at hout'
        linarith
      rw [hq'.infinite hout', decide_eq_false hsign']
      exact isLE_order_top _
    · obtain ⟨v, hv, hdouble, hclosest⟩ := hq.finite hin
      obtain ⟨v', hv', hdouble', hclosest'⟩ := hq'.finite hin'
      rw [hv, hv', isLE_order_finite]
      by_contra hlt
      rw [not_le] at hlt
      have hbelow := middle_le hlt (hclosest v' hdouble').1
      have habove := le_middle hlt (hclosest' v hdouble).1
      obtain rfl : q = q' := by linarith
      obtain rfl := Binary64.finite.inj (hv.symm.trans hv')
      exact lt_irrefl v hlt

/-- Doubles lie in their range. -/
theorem abs_lt_of_isDouble {v : ℚ} (hv : IsDouble v) : |v| < outOfRange := by
  obtain ⟨u, hu, hplace, -, -, hout⟩ := exists_rangeUnit
  obtain ⟨m, e, hm, -, he, rfl⟩ := hv
  have hm' : |(m : ℚ)| ≤ 2 ^ 53 - 1 := by exact_mod_cast Int.le_sub_one_of_lt hm
  have hlast : (2 : ℚ) ^ (971 : ℤ) = 2 * u := (zpow_natCast 2 971).trans hplace
  have hunit : 0 < 2 * u := by linarith only [hu]
  rw [hout]
  calc |(m : ℚ) * 2 ^ e| = |(m : ℚ)| * 2 ^ e := by rw [abs_mul, abs_of_pos (two_zpow_pos e)]
    _ ≤ |(m : ℚ)| * 2 ^ (971 : ℤ) :=
        mul_le_mul_of_nonneg_left (zpow_le_zpow_right₀ one_le_two he) (abs_nonneg _)
    _ ≤ (2 ^ 53 - 1) * (2 * u) := by
        rw [hlast]
        exact mul_le_mul_of_nonneg_right hm' hunit.le
    _ < 2 ^ 54 * u - u := by linarith only [hu]

/-- **A double is rounded to itself**, since nothing else is as close. -/
theorem nearest_of_isDouble {v : ℚ} (hv : IsDouble v) : nearest v = .finite v := by
  obtain ⟨w, hw, -, hclosest⟩ := (rounds_nearest v).finite (abs_lt_of_isDouble hv)
  have hzero := (hclosest v hv).1
  rw [sub_self, abs_zero, abs_nonpos_iff, sub_eq_zero] at hzero
  rw [hw, hzero]

/-- Against a double, a number and what it is rounded to stand on **the same side**, unless the
number is rounded to that very double without being it. -/
theorem order_nearest_eq_iff {v : ℚ} (hv : IsDouble v) :
    (nearest q).order (.finite v) = order (.finite q) (.finite v) ↔
      ¬(nearest q = .finite v ∧ q ≠ v) := by
  have hself := nearest_of_isDouble hv
  rcases lt_trichotomy q v with h | rfl | h
  · rw [order_finite_eq_lt.mpr h]
    have hle := nearest_mono h.le
    rw [hself, Ordering.isLE_iff_eq_lt_or_eq_eq, order_eq_eq] at hle
    rcases hle with hlt | heq
    · have hne : nearest q ≠ .finite v := fun heq => by
        rw [order_eq_eq.mpr heq] at hlt
        cases hlt
      simp [hlt, hne]
    · simp [heq, h.ne, order_eq_eq.mpr]
  · simp [hself]
  · rw [order_finite_eq_gt.mpr h]
    have hle := nearest_mono h.le
    rw [hself, Ordering.isLE_iff_eq_lt_or_eq_eq, order_eq_eq] at hle
    rcases hle with hlt | heq
    · have hgt := Std.OrientedCmp.gt_of_lt hlt
      have hne : nearest q ≠ .finite v := fun heq => by
        rw [order_eq_eq.mpr heq] at hgt
        cases hgt
      simp [hgt, hne]
    · simp [← heq, h.ne', order_eq_eq.mpr]

end Binary64

end Taskbook.Number
