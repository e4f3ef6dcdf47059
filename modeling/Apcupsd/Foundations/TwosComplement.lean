import Mathlib.Algebra.Order.Ring.Int
import Mathlib.Tactic.Linarith
import Apcupsd.Foundations.Radix

/-!
# Two's complement in bytes

A signed number is written with any number of bytes, the most significant one first; bit 7
of the first byte tells the sign.  The shortest form of a number has no first byte that only
repeats the sign.

Main results:

- Theorems {lit}`signedValue_lt` and {lit}`le_signedValue`: the range of so many bytes.
- Theorem {lit}`Shortest.large`: a number in its shortest form does not fit into fewer bytes.
- Theorems {lit}`toInt_wordOf` and {lit}`toNat_wordOf_of_nonneg`: bytes that are shifted into a
  word filled with their sign give the number back.
-/

namespace Apcupsd
namespace TwosComplement

open Radix

/-! ## The number that bytes denote -/

/-- The bytes as an unsigned number. -/
def unsignedValue (bytes : List UInt8) : ℕ :=
  value 256 (bytes.map UInt8.toNat)

/-- Bit 7 of the first byte is set. -/
def Negative (bytes : List UInt8) : Prop :=
  128 ≤ (bytes.headD 0).toNat

instance (bytes : List UInt8) : Decidable (Negative bytes) :=
  inferInstanceAs (Decidable (_ ≤ _))

/-- The bytes as a signed number. -/
def signedValue (bytes : List UInt8) : ℤ :=
  if Negative bytes then unsignedValue bytes - 256 ^ bytes.length else unsignedValue bytes

theorem unsignedValue_cons (b : UInt8) (bytes : List UInt8) :
    unsignedValue (b :: bytes) = b.toNat * 256 ^ bytes.length + unsignedValue bytes := by
  rw [unsignedValue, List.map_cons, value_cons, List.length_map, unsignedValue]

theorem unsignedValue_lt (bytes : List UInt8) : unsignedValue bytes < 256 ^ bytes.length := by
  induction bytes with
  | nil => exact Nat.one_pos
  | cons b bytes ih =>
      have hb : b.toNat < 256 := b.toNat_lt
      rw [unsignedValue_cons, List.length_cons, Nat.pow_succ]
      calc
        b.toNat * 256 ^ bytes.length + unsignedValue bytes
            < b.toNat * 256 ^ bytes.length + 256 ^ bytes.length := by omega
        _ = (b.toNat + 1) * 256 ^ bytes.length := by ring
        _ ≤ 256 * 256 ^ bytes.length := Nat.mul_le_mul_right _ hb
        _ = 256 ^ bytes.length * 256 := Nat.mul_comm _ _

/-! ## The range of a number of bytes -/

theorem negative_cons {b : UInt8} {bytes : List UInt8} :
    Negative (b :: bytes) ↔ 128 ≤ b.toNat := Iff.rfl

/-- The sign of the number is the sign bit. -/
theorem signedValue_neg_iff (bytes : List UInt8) : signedValue bytes < 0 ↔ Negative bytes := by
  have hlt := unsignedValue_lt bytes
  have hcast : ((256 ^ bytes.length : ℕ) : ℤ) = 256 ^ bytes.length := by simp
  unfold signedValue
  split_ifs with hneg
  · refine iff_of_true ?_ hneg
    omega
  · refine iff_of_false ?_ hneg
    omega

theorem signedValue_lt {b : UInt8} {bytes : List UInt8} :
    2 * signedValue (b :: bytes) < 256 ^ (b :: bytes).length := by
  have hlt := unsignedValue_lt (b :: bytes)
  have hcast : ((256 ^ (b :: bytes).length : ℕ) : ℤ) = 256 ^ (b :: bytes).length := by simp
  unfold signedValue
  split_ifs with hneg
  · omega
  · rw [negative_cons, not_le] at hneg
    have hrest := unsignedValue_lt bytes
    have hdouble : 2 * unsignedValue (b :: bytes) < 256 ^ (b :: bytes).length := by
      have hfirst : b.toNat * 256 ^ bytes.length ≤ 127 * 256 ^ bytes.length :=
        Nat.mul_le_mul_right _ (by omega)
      rw [unsignedValue_cons, List.length_cons, Nat.pow_succ]
      omega
    omega

theorem le_signedValue {b : UInt8} {bytes : List UInt8} :
    -256 ^ (b :: bytes).length ≤ 2 * signedValue (b :: bytes) := by
  have hcast : ((256 ^ (b :: bytes).length : ℕ) : ℤ) = 256 ^ (b :: bytes).length := by simp
  unfold signedValue
  split_ifs with hneg
  · rw [negative_cons] at hneg
    have hdouble : 256 ^ (b :: bytes).length ≤ 2 * unsignedValue (b :: bytes) := by
      have hfirst : 128 * 256 ^ bytes.length ≤ b.toNat * 256 ^ bytes.length :=
        Nat.mul_le_mul_right _ hneg
      rw [unsignedValue_cons, List.length_cons, Nat.pow_succ]
      omega
    omega
  · have hpos : (0 : ℤ) ≤ 256 ^ (b :: bytes).length := by positivity
    omega

/-! ## Shortest forms -/

/-- There is a first byte, and it does not only repeat the sign of the rest. -/
def Shortest : List UInt8 → Prop
  | [] => False
  | [_] => True
  | b :: c :: _ => ¬ (b.toNat = 0 ∧ c.toNat < 128) ∧ ¬ (b.toNat = 255 ∧ 128 ≤ c.toNat)

/-- A number in its shortest form does not fit into fewer bytes. -/
theorem Shortest.large {b c : UInt8} {bytes : List UInt8} (hshortest : Shortest (b :: c :: bytes)) :
    256 ^ (c :: bytes).length ≤ 2 * signedValue (b :: c :: bytes) ∨
      2 * signedValue (b :: c :: bytes) < -256 ^ (c :: bytes).length := by
  obtain ⟨hzero, hones⟩ := hshortest
  have hb : b.toNat < 256 := b.toNat_lt
  have hrest := unsignedValue_lt bytes
  have hsmall := unsignedValue_lt (c :: bytes)
  have hpos : 0 < 256 ^ bytes.length := Nat.pow_pos (by decide)
  have hcast : ((256 ^ (c :: bytes).length : ℕ) : ℤ) = 256 ^ (c :: bytes).length := by simp
  have hwhole : (256 : ℤ) ^ (b :: c :: bytes).length = 256 * 256 ^ (c :: bytes).length := by
    rw [List.length_cons, pow_succ]
    ring
  have htail : unsignedValue (c :: bytes) = c.toNat * 256 ^ bytes.length + unsignedValue bytes :=
    unsignedValue_cons c bytes
  have hsize : 256 ^ (c :: bytes).length = 256 * 256 ^ bytes.length := by
    rw [List.length_cons, Nat.pow_succ, Nat.mul_comm]
  have hsum := unsignedValue_cons b (c :: bytes)
  unfold signedValue
  rw [hwhole]
  generalize 256 ^ bytes.length = m at *
  split_ifs with hneg
  · rw [negative_cons] at hneg
    right
    rcases Nat.lt_or_ge b.toNat 255 with hlt | hge
    · have hupper : unsignedValue (b :: c :: bytes) < 255 * 256 ^ (c :: bytes).length := by
        have hfirst : b.toNat * 256 ^ (c :: bytes).length ≤ 254 * 256 ^ (c :: bytes).length :=
          Nat.mul_le_mul_right _ (by omega)
        omega
      omega
    · have hbyte : b.toNat = 255 := by omega
      have hc : c.toNat < 128 := by
        by_contra hlarge
        exact hones ⟨hbyte, not_lt.mp hlarge⟩
      have hhalf : 2 * unsignedValue (c :: bytes) < 256 ^ (c :: bytes).length := by
        have hsecond : c.toNat * m ≤ 127 * m := Nat.mul_le_mul_right _ (by omega)
        omega
      rw [hbyte] at hsum
      omega
  · left
    rcases Nat.eq_zero_or_pos b.toNat with hbyte | hpositive
    · have hc : 128 ≤ c.toNat := by
        by_contra hlow
        exact hzero ⟨hbyte, not_le.mp hlow⟩
      have hhalf : 256 ^ (c :: bytes).length ≤ 2 * unsignedValue (c :: bytes) := by
        have hsecond : 128 * m ≤ c.toNat * m := Nat.mul_le_mul_right _ hc
        omega
      rw [hbyte] at hsum
      omega
    · have hlower : 256 ^ (c :: bytes).length ≤ unsignedValue (b :: c :: bytes) := by
        have hfirst : 1 * 256 ^ (c :: bytes).length ≤ b.toNat * 256 ^ (c :: bytes).length :=
          Nat.mul_le_mul_right _ hpositive
        omega
      omega

/-- A number that fits into so many bytes has no more of them in its shortest form. -/
theorem Shortest.length_le {bytes : List UInt8} (hshortest : Shortest bytes) {k : ℕ} (hk : 0 < k)
    (hlower : -256 ^ k ≤ 2 * signedValue bytes) (hupper : 2 * signedValue bytes < 256 ^ k) :
    bytes.length ≤ k := by
  rcases bytes with _ | ⟨b, _ | ⟨c, bytes⟩⟩
  · exact Nat.zero_le k
  · exact hk
  · have hpow : (256 : ℤ) ^ (c :: bytes).length < 256 ^ k := by
      rcases hshortest.large with hlarge | hlarge
      · exact hlarge.trans_lt hupper
      · omega
    exact (pow_lt_pow_iff_right₀ (by decide)).mp hpow

/-- A number that does not fit into so many bytes has more of them in every form. -/
theorem lt_length {bytes : List UInt8} {k : ℕ} (hk : 256 ^ k ≤ 2 * signedValue bytes) :
    k < bytes.length := by
  rcases bytes with _ | ⟨b, bytes⟩
  · have hpos : (0 : ℤ) < 256 ^ k := by positivity
    have hzero : signedValue [] = 0 := rfl
    omega
  · have hupper := @signedValue_lt b bytes
    exact (pow_lt_pow_iff_right₀ (by decide)).mp (hk.trans_lt hupper)

/-! ## Machine words -/

/-- Bytes that are shifted into a word stand behind what it held. -/
theorem toNat_shiftAll_bytes {w : ℕ} (word : BitVec w) (bytes : List UInt8) :
    (shiftAll 8 word (bytes.map UInt8.toNat)).toNat =
      (word.toNat * 256 ^ bytes.length + unsignedValue bytes) % 2 ^ w := by
  have hbytes : ∀ d ∈ bytes.map UInt8.toNat, d < 2 ^ 8 := by
    intro d hd
    obtain ⟨b, -, rfl⟩ := List.mem_map.mp hd
    exact b.toNat_lt
  have hshift := toNat_shiftAll word (bytes.map UInt8.toNat) hbytes
  rw [List.length_map] at hshift
  exact hshift

/-- A word filled with the sign of some bytes. -/
def signWord (w : ℕ) (bytes : List UInt8) : BitVec w :=
  if Negative bytes then BitVec.allOnes w else 0#w

/-- The word into which bytes have been shifted. -/
def wordOf (w : ℕ) (bytes : List UInt8) : BitVec w :=
  shiftAll 8 (signWord w bytes) (bytes.map UInt8.toNat)

theorem toNat_wordOf (w : ℕ) (bytes : List UInt8) :
    (wordOf w bytes).toNat =
      ((signWord w bytes).toNat * 256 ^ bytes.length + unsignedValue bytes) % 2 ^ w :=
  toNat_shiftAll_bytes _ bytes

/-- Bytes that are not negative give their number. -/
theorem toNat_wordOf_of_nonneg {w : ℕ} {bytes : List UInt8} (hneg : ¬ Negative bytes)
    (hfits : 256 ^ bytes.length ≤ 2 ^ w) :
    ((wordOf w bytes).toNat : ℤ) = signedValue bytes := by
  have hlt := unsignedValue_lt bytes
  rw [toNat_wordOf, signWord, if_neg hneg, BitVec.toNat_zero, Nat.zero_mul, Nat.zero_add,
    Nat.mod_eq_of_lt (hlt.trans_le hfits), signedValue, if_neg hneg]

/-- Bytes that are negative fill the word up from above. -/
theorem toNat_wordOf_of_neg {w : ℕ} {bytes : List UInt8} (hneg : Negative bytes)
    (hfits : 256 ^ bytes.length ≤ 2 ^ w) :
    (wordOf w bytes).toNat = 2 ^ w - 256 ^ bytes.length + unsignedValue bytes := by
  have hlt := unsignedValue_lt bytes
  have hpos : 0 < 256 ^ bytes.length := Nat.pow_pos (by decide)
  rw [toNat_wordOf, signWord, if_pos hneg, BitVec.toNat_allOnes]
  have hsplit : (2 ^ w - 1) * 256 ^ bytes.length + unsignedValue bytes =
      2 ^ w * (256 ^ bytes.length - 1) + (2 ^ w - 256 ^ bytes.length + unsignedValue bytes) := by
    have hproduct : 256 ^ bytes.length ≤ 2 ^ w * 256 ^ bytes.length :=
      Nat.le_mul_of_pos_left _ (Nat.two_pow_pos w)
    have hright : 2 ^ w ≤ 2 ^ w * 256 ^ bytes.length := Nat.le_mul_of_pos_right _ hpos
    rw [Nat.sub_mul, Nat.mul_sub, Nat.one_mul, Nat.mul_one]
    omega
  rw [hsplit, Nat.mul_add_mod, Nat.mod_eq_of_lt (by omega)]

/-- The bytes of a signed number give it back as a signed word. -/
theorem toInt_wordOf {w : ℕ} {bytes : List UInt8} (hbytes : bytes ≠ [])
    (hfits : 256 ^ bytes.length ≤ 2 ^ w) : (wordOf w bytes).toInt = signedValue bytes := by
  obtain ⟨b, bytes, rfl⟩ := List.exists_cons_of_ne_nil hbytes
  have hcast : ((256 ^ (b :: bytes).length : ℕ) : ℤ) = 256 ^ (b :: bytes).length := by simp
  have hpow : ((2 ^ w : ℕ) : ℤ) = 2 ^ w := by simp
  have hlower := @le_signedValue b bytes
  have hupper := @signedValue_lt b bytes
  rw [BitVec.toInt_eq_toNat_cond]
  by_cases hneg : Negative (b :: bytes)
  · have hvalue := toNat_wordOf_of_neg hneg hfits
    have hsigned : signedValue (b :: bytes) =
        unsignedValue (b :: bytes) - 256 ^ (b :: bytes).length := if_pos hneg
    rw [if_neg (by omega)]
    omega
  · have hvalue := toNat_wordOf_of_nonneg hneg hfits
    rw [if_pos (by omega)]
    exact hvalue

end TwosComplement
end Apcupsd
