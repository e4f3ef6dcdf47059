import Mathlib.Data.Nat.Bits
import Mathlib.Data.Nat.Log
import Mathlib.Tactic.Ring

/-!
# Numbers in a given base

Fixed numbers of digits, the most significant one first, and the machine words that are
built from digits by shifting them in.

Main results:

- Theorem {lit}`value_digits`: enough digits give the number back.
- Theorem {lit}`toNat_shiftIn`: shifting a digit into a word appends it to the number.
- Theorem {lit}`lt_two_pow_numbits`: a number fits into its bits.
-/

namespace Apcupsd
namespace Radix

/-! ## Digits -/

/-- The last digits of a number, the most significant one first. -/
def digits (base : ℕ) : ℕ → ℕ → List ℕ
  | 0, _ => []
  | k + 1, n => n / base ^ k % base :: digits base k n

/-- The number that digits denote. -/
def value (base : ℕ) (ds : List ℕ) : ℕ :=
  ds.foldl (fun n d => n * base + d) 0

section Digits

variable {base : ℕ}

@[simp]
theorem length_digits (k n : ℕ) : (digits base k n).length = k := by
  induction k with
  | zero => rfl
  | succ k ih => rw [digits, List.length_cons, ih]

theorem foldl_digit (ds : List ℕ) (n : ℕ) :
    ds.foldl (fun n d => n * base + d) n = n * base ^ ds.length + value base ds := by
  unfold value
  induction ds generalizing n with
  | nil => simp
  | cons d ds ih =>
      rw [List.foldl_cons, ih, List.foldl_cons, ih (0 * base + d), List.length_cons]
      ring

@[simp]
theorem value_cons (d : ℕ) (ds : List ℕ) :
    value base (d :: ds) = d * base ^ ds.length + value base ds := by
  rw [value, List.foldl_cons, foldl_digit, Nat.zero_mul, Nat.zero_add]

theorem value_digits_mod (k n : ℕ) : value base (digits base k n) = n % base ^ k := by
  induction k with
  | zero => rw [Nat.pow_zero, Nat.mod_one]; rfl
  | succ k ih =>
      rw [digits, value_cons, length_digits, ih, Nat.pow_succ, Nat.mod_mul]
      ring

/-- Enough digits give the number back. -/
theorem value_digits {k n : ℕ} (hn : n < base ^ k) : value base (digits base k n) = n := by
  rw [value_digits_mod, Nat.mod_eq_of_lt hn]

theorem digits_lt (hbase : 0 < base) {k n d : ℕ} (hd : d ∈ digits base k n) : d < base := by
  induction k with
  | zero => cases hd
  | succ k ih =>
      rcases List.mem_cons.mp hd with rfl | htail
      · exact Nat.mod_lt _ hbase
      · exact ih htail

end Digits

/-! ## Machine words -/

/-- {lit}`word <<= shift; word |= digit`. -/
def shiftIn {w : ℕ} (shift : ℕ) (word : BitVec w) (digit : ℕ) : BitVec w :=
  (word <<< shift) ||| BitVec.ofNat w digit

/-- Shifting a digit into a word appends it to the number. -/
theorem toNat_shiftIn {w shift digit : ℕ} (hdigit : digit < 2 ^ shift) (word : BitVec w) :
    (shiftIn shift word digit).toNat = (word.toNat * 2 ^ shift + digit) % 2 ^ w := by
  have hor : word.toNat <<< shift ||| digit = word.toNat * 2 ^ shift + digit := by
    rw [Nat.shiftLeft_eq, Nat.mul_comm, Nat.two_pow_add_eq_or_of_lt hdigit]
  rw [shiftIn, BitVec.toNat_or, BitVec.toNat_shiftLeft, BitVec.toNat_ofNat, ← hor,
    Nat.or_mod_two_pow]

/-- A word into which digits have been shifted. -/
def shiftAll {w : ℕ} (shift : ℕ) (word : BitVec w) (ds : List ℕ) : BitVec w :=
  ds.foldl (shiftIn shift) word

theorem toNat_shiftAll {w shift : ℕ} (word : BitVec w) (ds : List ℕ)
    (hds : ∀ d ∈ ds, d < 2 ^ shift) :
    (shiftAll shift word ds).toNat =
      (word.toNat * (2 ^ shift) ^ ds.length + value (2 ^ shift) ds) % 2 ^ w := by
  induction ds generalizing word with
  | nil =>
      rw [shiftAll, List.foldl_nil, List.length_nil, Nat.pow_zero, Nat.mul_one, value,
        List.foldl_nil, Nat.add_zero, Nat.mod_eq_of_lt word.isLt]
  | cons d ds ih =>
      rw [shiftAll, List.foldl_cons, ← shiftAll,
        ih _ fun e he => hds e (List.mem_cons_of_mem d he),
        toNat_shiftIn (hds d List.mem_cons_self), value_cons, List.length_cons]
      rw [Nat.add_mod, Nat.mod_mul_mod, ← Nat.add_mod]
      congr 1
      ring

/-- The digits of a number that fits, shifted into an empty word. -/
theorem toNat_shiftAll_digits {w shift k n : ℕ} (hk : n < (2 ^ shift) ^ k) (hw : n < 2 ^ w) :
    (shiftAll shift (0#w) (digits (2 ^ shift) k n)).toNat = n := by
  rw [toNat_shiftAll _ _ fun d hd => digits_lt (Nat.two_pow_pos shift) hd, BitVec.toNat_zero,
    Nat.zero_mul, Nat.zero_add, value_digits hk, Nat.mod_eq_of_lt hw]

/-! ## The size of a number -/

/-- The number of bits of a number; zero has one. -/
def numbits (num : ℕ) : ℕ :=
  if num = 0 then 1 else num.log2 + 1

/-- A number fits into its bits. -/
theorem lt_two_pow_numbits (num : ℕ) : num < 2 ^ numbits num := by
  unfold numbits
  split_ifs with hzero
  · simp [hzero]
  · exact Nat.lt_log2_self

theorem numbits_pos (num : ℕ) : 0 < numbits num := by
  unfold numbits
  split_ifs <;> omega

theorem numbits_le_iff {num k : ℕ} (hk : 0 < k) : numbits num ≤ k ↔ num < 2 ^ k := by
  unfold numbits
  split_ifs with hzero
  · simp [hzero]
    omega
  · rw [← Nat.log2_lt hzero]
    omega

/-- Digits for all bits give the number back. -/
theorem lt_pow_of_numbits {num shift k : ℕ} (hk : numbits num ≤ shift * k) :
    num < (2 ^ shift) ^ k := by
  rw [← Nat.pow_mul]
  exact (lt_two_pow_numbits num).trans_le (Nat.pow_le_pow_right (by decide) hk)

end Radix
end Apcupsd
