import Mathlib.Data.BitVec

/-!
# Flag words

A status word packs independent flags into one machine word, and a program
reads and writes them through masks.  This module fixes the four mask
operations such programs use and the laws by which they compose, for words of
any width.

Main results:

- Theorems {lit}`testMask_raiseMask_self` and {lit}`testMask_dropMask_self`: a
  raised mask tests true and a dropped nonzero mask tests false.
- Theorems {lit}`testMask_raiseMask_of_disjoint` and
  {lit}`testMask_dropMask_of_disjoint`: writing one mask does not disturb the
  test of a disjoint one.
- Theorem {lit}`testMask_eq_of_and_eq`: two words that agree under a mask agree
  on every flag inside it.
- Theorem {lit}`testMask_xor_twoPow`: the test of a single-bit mask on the
  exclusive or of two words is the disagreement of their tests.
-/

namespace Apcupsd
namespace BitFlags

variable {w : Nat}

/-- All bits of {lit}`mask` are set in {lit}`word`. -/
def testMask (word mask : BitVec w) : Bool :=
  word &&& mask == mask

/-- Set the bits of {lit}`mask`. -/
def raiseMask (word mask : BitVec w) : BitVec w :=
  word ||| mask

/-- Clear the bits of {lit}`mask`. -/
def dropMask (word mask : BitVec w) : BitVec w :=
  word &&& ~~~mask

/-! ## Laws of one mask -/

@[simp]
theorem testMask_raiseMask_self (word mask : BitVec w) :
    testMask (raiseMask word mask) mask = true := by
  have habsorb : (word ||| mask) &&& mask = mask := by
    ext i hi
    simp only [BitVec.getElem_and, BitVec.getElem_or]
    cases word[i] <;> simp
  simp [testMask, raiseMask, habsorb]

theorem dropMask_and_self (word mask : BitVec w) :
    dropMask word mask &&& mask = 0 := by
  ext i hi
  simp only [dropMask, BitVec.getElem_and, BitVec.getElem_not]
  cases mask[i] <;> simp

theorem testMask_dropMask_self {mask : BitVec w} (hmask : mask ≠ 0)
    (word : BitVec w) : testMask (dropMask word mask) mask = false := by
  rw [testMask, dropMask_and_self, beq_eq_false_iff_ne]
  exact hmask.symm

/-! ## Frame laws of disjoint masks -/

theorem raiseMask_and_of_disjoint {mask other : BitVec w}
    (hdisjoint : other &&& mask = 0) (word : BitVec w) :
    raiseMask word other &&& mask = word &&& mask := by
  ext i hi
  have hbit : (other &&& mask)[i] = false := by simp [hdisjoint]
  simp only [BitVec.getElem_and] at hbit
  simp only [raiseMask, BitVec.getElem_and, BitVec.getElem_or]
  cases ho : other[i] <;> simp_all

theorem dropMask_and_of_disjoint {mask other : BitVec w}
    (hdisjoint : other &&& mask = 0) (word : BitVec w) :
    dropMask word other &&& mask = word &&& mask := by
  ext i hi
  have hbit : (other &&& mask)[i] = false := by simp [hdisjoint]
  simp only [BitVec.getElem_and] at hbit
  simp only [dropMask, BitVec.getElem_and, BitVec.getElem_not]
  cases ho : other[i] <;> simp_all

theorem testMask_raiseMask_of_disjoint {mask other : BitVec w}
    (hdisjoint : other &&& mask = 0) (word : BitVec w) :
    testMask (raiseMask word other) mask = testMask word mask := by
  simp only [testMask, raiseMask_and_of_disjoint hdisjoint]

theorem testMask_dropMask_of_disjoint {mask other : BitVec w}
    (hdisjoint : other &&& mask = 0) (word : BitVec w) :
    testMask (dropMask word other) mask = testMask word mask := by
  simp only [testMask, dropMask_and_of_disjoint hdisjoint]

/-! ## Agreement under a mask -/

/-- Two words that agree under {lit}`wide` agree on every mask inside it. -/
theorem testMask_eq_of_and_eq {wide mask : BitVec w} {left right : BitVec w}
    (hinside : mask &&& wide = mask) (hagree : left &&& wide = right &&& wide) :
    testMask left mask = testMask right mask := by
  have hand : ∀ word : BitVec w, word &&& mask = (word &&& wide) &&& mask := by
    intro word
    rw [BitVec.and_assoc, BitVec.and_comm wide mask, hinside]
  simp only [testMask, hand left, hand right, hagree]

/-- A mask that is disjoint from {lit}`wide` is disjoint from every mask inside it. -/
theorem and_eq_zero_of_inside {wide inside mask : BitVec w}
    (hinside : inside &&& wide = inside) (hdisjoint : mask &&& wide = 0) :
    mask &&& inside = 0 := by
  calc
    mask &&& inside = mask &&& (inside &&& wide) := by rw [hinside]
    _ = inside &&& (mask &&& wide) := by
      rw [← BitVec.and_assoc, BitVec.and_comm mask, BitVec.and_assoc]
    _ = 0 := by simp [hdisjoint]

/-- Replacing the bits outside {lit}`kept` leaves those inside it. -/
theorem replace_and_kept (word new kept : BitVec w) :
    ((word &&& kept) ||| (new &&& ~~~kept)) &&& kept = word &&& kept := by
  ext i hi
  simp only [BitVec.getElem_and, BitVec.getElem_or, BitVec.getElem_not]
  cases kept[i] <;> simp

/-- A mask outside the kept bits is tested in the new word. -/
theorem testMask_replace_of_disjoint {mask kept : BitVec w} (hdisjoint : kept &&& mask = 0)
    (word new : BitVec w) :
    testMask ((word &&& kept) ||| (new &&& ~~~kept)) mask = testMask new mask := by
  have hand : ((word &&& kept) ||| (new &&& ~~~kept)) &&& mask = new &&& mask := by
    ext i hi
    have hbit : (kept &&& mask)[i] = false := by simp [hdisjoint]
    simp only [BitVec.getElem_and] at hbit
    simp only [BitVec.getElem_and, BitVec.getElem_or, BitVec.getElem_not]
    cases hk : kept[i] <;> simp_all
  simp only [testMask, hand]

/-! ## Single-bit masks -/

theorem testMask_twoPow {i : Nat} (hi : i < w) (word : BitVec w) :
    testMask word (BitVec.twoPow w i) = word.getLsbD i := by
  rw [testMask, Bool.eq_iff_iff, beq_iff_eq]
  constructor
  · intro hand
    have hbit := congrArg (fun v => v.getLsbD i) hand
    simpa [BitVec.getLsbD_and, BitVec.getLsbD_twoPow, hi] using hbit
  · intro hbit
    ext j hj
    simp only [BitVec.getElem_and, BitVec.getElem_twoPow]
    by_cases hji : j = i
    · subst hji
      simpa [BitVec.getLsbD_eq_getElem hj] using hbit
    · simp [hji]

/-- Dropping a bit that is clear changes nothing. -/
theorem dropMask_twoPow_of_clear {i : Nat} (hi : i < w) {word : BitVec w}
    (hclear : testMask word (BitVec.twoPow w i) = false) :
    dropMask word (BitVec.twoPow w i) = word := by
  rw [testMask_twoPow hi] at hclear
  ext j hj
  simp only [dropMask, BitVec.getElem_and, BitVec.getElem_not, BitVec.getElem_twoPow]
  by_cases hji : j = i
  · subst hji
    rw [BitVec.getLsbD_eq_getElem hj] at hclear
    simp [hclear]
  · simp [hji]

/-- The test of one bit of an exclusive or is the disagreement of the bits. -/
theorem testMask_xor_twoPow {i : Nat} (hi : i < w) (left right : BitVec w) :
    testMask (left ^^^ right) (BitVec.twoPow w i) =
      (testMask left (BitVec.twoPow w i) ^^ testMask right (BitVec.twoPow w i)) := by
  simp only [testMask_twoPow hi, BitVec.getLsbD_xor]

end BitFlags
end Apcupsd
