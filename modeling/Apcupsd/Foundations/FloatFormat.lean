import Mathlib.Algebra.Order.Floor.Ring
import Mathlib.Algebra.Order.Field.Rat
import Mathlib.Data.Int.Log
import Mathlib.Data.Rat.Floor
import Mathlib.Tactic.FieldSimp
import Mathlib.Tactic.Linarith

/-!
# Rounding to a binary floating point format

A format has so many binary places, the last of which is no smaller than a least unit.  A number
is rounded to the multiple of its last place that is nearest to it, and of two to the even one.
The exponents are not limited above.

Main results:

- Theorem {lit}`representable_round`: what is rounded is a number of the format.
- Theorem {lit}`round_eq_self_iff`: exactly the numbers of the format are kept.
-/

/-- A format: the number of binary places, and the exponent of the least unit. -/
structure FloatFormat where
  precision : ℕ
  leastUnit : ℤ
  pos : 0 < precision

namespace FloatFormat

variable {R : Type*} [Field R] [LinearOrder R] [FloorRing R]

/-! ## Rounding -/

/-- The integer that is nearest to a number, or the even one of two. -/
def nearestInt (x : R) : ℤ :=
  if 2 * Int.fract x < 1 then ⌊x⌋
  else if 1 < 2 * Int.fract x then ⌊x⌋ + 1
  else ⌊x⌋ + ⌊x⌋ % 2

/-- The exponent of the last place of a number. -/
def lastPlace (format : FloatFormat) (x : R) : ℤ :=
  max (Int.log 2 |x| + 1 - format.precision) format.leastUnit

/-- The number of the format that is nearest to a number, or the even one of two. -/
def round (format : FloatFormat) (x : R) : R :=
  nearestInt (x / 2 ^ format.lastPlace x) * 2 ^ format.lastPlace x

/-- A number of the format. -/
def Representable (format : FloatFormat) (x : R) : Prop :=
  ∃ n e : ℤ, |n| ≤ 2 ^ format.precision ∧ format.leastUnit ≤ e ∧ x = n * 2 ^ e

/-- A double, but for its largest exponent. -/
def binary64 : FloatFormat where
  precision := 53
  leastUnit := -1074
  pos := by decide

/-! ## The nearest integer -/

variable [IsStrictOrderedRing R]

@[simp]
theorem nearestInt_intCast (n : ℤ) : nearestInt (n : R) = n := by
  simp [nearestInt]

omit [IsStrictOrderedRing R] in
theorem floor_le_nearestInt (x : R) : ⌊x⌋ ≤ nearestInt x := by
  unfold nearestInt
  split_ifs <;> omega

theorem nearestInt_le_ceil (x : R) : nearestInt x ≤ ⌈x⌉ := by
  rcases (Int.floor_le x).eq_or_lt with hint | hlt
  · rw [← hint, nearestInt_intCast, Int.ceil_intCast]
  · have hceil : ⌊x⌋ < ⌈x⌉ := Int.lt_ceil.mpr hlt
    unfold nearestInt
    split_ifs <;> omega

/-- It does not leave a range with integer bounds. -/
theorem abs_nearestInt_le {x : R} {n : ℤ} (hx : |x| ≤ n) : |nearestInt x| ≤ n := by
  have hbounds := abs_le.mp hx
  refine abs_le.mpr ⟨?_, ?_⟩
  · have hfloor : -n ≤ ⌊x⌋ := Int.le_floor.mpr (by exact_mod_cast hbounds.1)
    exact hfloor.trans (floor_le_nearestInt x)
  · exact (nearestInt_le_ceil x).trans (Int.ceil_le.mpr hbounds.2)

/-! ## The numbers of a format -/

variable {format : FloatFormat} {x : R}

/-- A number has no more places than the format. -/
theorem abs_lt_lastPlace (format : FloatFormat) (x : R) :
    |x| < 2 ^ (format.precision + format.lastPlace x : ℤ) := by
  have hlog : |x| < 2 ^ (Int.log 2 |x| + 1) := by
    simpa using Int.lt_zpow_succ_log_self (by decide : 1 < 2) |x|
  have hplace : Int.log 2 |x| + 1 - format.precision ≤ format.lastPlace x := le_max_left _ _
  exact hlog.trans_le (zpow_le_zpow_right₀ one_le_two (by omega))

/-- What is rounded is a number of the format. -/
theorem representable_round (format : FloatFormat) (x : R) :
    format.Representable (format.round x) := by
  refine ⟨_, _, ?_, le_max_right _ _, rfl⟩
  apply abs_nearestInt_le
  have hunit : (0 : R) < 2 ^ format.lastPlace x := zpow_pos two_pos _
  have hlt := abs_lt_lastPlace format x
  rw [zpow_add₀ two_ne_zero, zpow_natCast] at hlt
  rw [abs_div, abs_of_pos hunit, div_le_iff₀ hunit]
  exact_mod_cast hlt.le

/-- The last place of a number is not above that of any of its representations. -/
theorem lastPlace_le {n e : ℤ} (hne : n ≠ 0) (hn : |n| < 2 ^ format.precision)
    (he : format.leastUnit ≤ e) : format.lastPlace ((n : R) * 2 ^ e) ≤ e := by
  have hunit : (0 : R) < 2 ^ e := zpow_pos two_pos e
  have hpos : 0 < |(n : R) * 2 ^ e| := by
    rw [abs_pos]
    exact mul_ne_zero (Int.cast_ne_zero.mpr hne) hunit.ne'
  have hlt : |(n : R) * 2 ^ e| < 2 ^ (format.precision + e : ℤ) := by
    rw [abs_mul, abs_of_pos hunit, zpow_add₀ two_ne_zero, zpow_natCast]
    exact mul_lt_mul_of_pos_right (by exact_mod_cast hn) hunit
  have hlog : Int.log 2 |(n : R) * 2 ^ e| < format.precision + e := by
    rw [← Int.lt_zpow_iff_log_lt (by decide) hpos]
    exact_mod_cast hlt
  exact max_le (by omega) he

/-- The integer of a representation can be chosen below the largest one. -/
theorem Representable.exists_lt (hx : format.Representable x) :
    ∃ n e : ℤ, |n| < 2 ^ format.precision ∧ format.leastUnit ≤ e ∧ x = n * 2 ^ e := by
  obtain ⟨n, e, hn, he, rfl⟩ := hx
  rcases hn.lt_or_eq with hlt | hlarge
  · exact ⟨n, e, hlt, he, rfl⟩
  · -- half of the integer, of a unit twice as large
    have hhalf : (2 : ℤ) ^ format.precision = 2 * 2 ^ (format.precision - 1) := by
      rw [← pow_succ', Nat.sub_add_cancel format.pos]
    obtain ⟨m, rfl⟩ : 2 ∣ n := by
      rw [← dvd_abs, hlarge, hhalf]
      exact dvd_mul_right _ _
    have hm : |m| = 2 ^ (format.precision - 1) := by
      rw [abs_mul, abs_two] at hlarge
      omega
    have hpow : (0 : ℤ) < 2 ^ (format.precision - 1) := by positivity
    refine ⟨m, e + 1, by omega, by omega, ?_⟩
    rw [zpow_add_one₀ two_ne_zero]
    push_cast
    ring

/-- The numbers of the format are kept. -/
theorem round_of_representable (hx : format.Representable x) : format.round x = x := by
  obtain ⟨n, e, hn, he, rfl⟩ := hx.exists_lt
  by_cases hzero : n = 0
  · have hnearest : nearestInt (0 : R) = 0 := by
      simpa using nearestInt_intCast (R := R) 0
    simp [hzero, round, hnearest]
  · have hplace : format.lastPlace ((n : R) * 2 ^ e) ≤ e := lastPlace_le hzero hn he
    have hunit : (2 : R) ^ format.lastPlace ((n : R) * 2 ^ e) ≠ 0 := zpow_ne_zero _ two_ne_zero
    have hint : (n : R) * 2 ^ e / 2 ^ format.lastPlace ((n : R) * 2 ^ e) =
        ((n * 2 ^ (e - format.lastPlace ((n : R) * 2 ^ e)).toNat : ℤ) : R) := by
      rw [mul_div_assoc, ← zpow_sub₀ two_ne_zero, Int.cast_mul, Int.cast_pow, Int.cast_ofNat,
        ← zpow_natCast, Int.toNat_of_nonneg (by omega)]
    rw [round, hint, nearestInt_intCast, ← hint, div_mul_cancel₀ _ hunit]

/-- Exactly the numbers of the format are kept. -/
theorem round_eq_self_iff : format.round x = x ↔ format.Representable x :=
  ⟨fun hsame => hsame ▸ representable_round format x, round_of_representable⟩

/-- The integers with no more places than the format are kept. -/
theorem round_intCast (hleast : format.leastUnit ≤ 0) {n : ℤ}
    (hn : |n| ≤ 2 ^ format.precision) : format.round (n : R) = n :=
  round_of_representable ⟨n, 0, hn, hleast, by rw [zpow_zero, mul_one]⟩

end FloatFormat
