import Apcupsd.Foundations.BitFields
import Apcupsd.Usb.LocateItem
import Mathlib.Algebra.Order.Group.Nat
import Mathlib.Tactic.SplitIfs

/-!
# The data of an item in a report

{lit}`hid_get_data` and {lit}`hid_set_data` read and write the bits of an item.  Their loops go
one byte too far where the item ends with a byte, and shift a byte by 32 bits where it reaches
the 32nd bit counted from its first byte; such a shift is not defined.

Main results:

- Theorem {lit}`hidSetData_spec`: a value that is written is read back, and the items beside it
  keep theirs; an item that reaches the 32nd bit is refused.
- Theorem {lit}`hidGetData_eq`: what is read is the field, extended as its minimum says.
-/

namespace Apcupsd

open BitFields

/-! ## Items -/

/-- The fields of {lit}`hid_item_t` that {lit}`LocateItem` only copies. -/
structure ItemData where
  usagePage : UInt32
  logicalMinimum : Int32
  logicalMaximum : Int32
  physicalMinimum : Int32
  physicalMaximum : Int32
  unitExponent : Int32
  unit : Int32
  reportSize : Int32
  reportId : Int32
  reportCount : Int32
  usageMinimum : UInt32
  usageMaximum : UInt32
  designatorIndex : Int32
  designatorMinimum : Int32
  designatorMaximum : Int32
  stringIndex : Int32
  stringMinimum : Int32
  stringMaximum : Int32
  setDelimiter : Int32
  collevel : Int32
  flags : UInt32
  pos : UInt32
deriving DecidableEq, Inhabited

/-- {lit}`hid_item_t`. -/
abbrev ReportItem := HidItem ItemData

namespace ReportItem

/-- {lit}`hpos`. -/
abbrev hpos (h : ReportItem) : UInt32 := h.other.pos

/-- {lit}`hsize`. -/
abbrev hsize (h : ReportItem) : UInt32 := h.other.reportSize.toUInt32

/-- How often the loops run: {lit}`end` is their last index. -/
def turns (h : ReportItem) : ℕ :=
  (((h.hpos + h.hsize) / 8 - h.hpos / 8).toInt32.toInt + 1).toNat

end ReportItem

/-! ## Reading and writing -/

/-- A shift to the left; one by the width or more is not defined. -/
def shiftLeft32 (x : BitVec 32) (n : ℕ) : Option (BitVec 32) :=
  if n < 32 then some (x <<< n) else none

/-- A shift of a signed number to the right. -/
def shiftRight32 (x : BitVec 32) (n : ℕ) : Option (BitVec 32) :=
  if n < 32 then some (x.sshiftRight n) else none

/-- {lit}`(1ULL << hsize) - 1` is laid over the number. -/
def maskTo (hsize : ℕ) (data : BitVec 32) : Option (BitVec 32) :=
  if hsize < 64 then some ((data.signExtend 64 &&& (1#64 <<< hsize - 1#64)).setWidth 32) else none

/-- The loop of {lit}`hid_get_data`, from index {lit}`i`. -/
def gatherBytes (buf : List UInt8) (offs : ℕ) : ℕ → ℕ → BitVec 32 → Option (BitVec 32)
  | 0, _, data => some data
  | n + 1, i, data => do
      let byte ← buf[offs + i]?
      let part ← shiftLeft32 (byte.toBitVec.setWidth 32) (i * 8)
      gatherBytes buf offs n (i + 1) (data ||| part)

/-- {lit}`hid_get_data`. -/
def hidGetData (buf : List UInt8) (h : ReportItem) : Option Int32 :=
  if h.hsize = 0 then some 0 else do
    let gathered ← gatherBytes buf (h.hpos / 8).toNat h.turns 0 0
    let data ← maskTo h.hsize.toNat (gathered.sshiftRight (h.hpos % 8).toNat)
    if h.other.logicalMinimum < 0 then do
      let high ← shiftLeft32 data (32 - h.hsize).toNat
      let extended ← shiftRight32 high (32 - h.hsize).toNat
      some (Int32.ofBitVec extended)
    else some (Int32.ofBitVec data)

/-- The loop of {lit}`hid_set_data`, from index {lit}`i`. -/
def scatterBytes (offs : ℕ) (mask data : BitVec 32) : ℕ → ℕ → List UInt8 → Option (List UInt8)
  | 0, _, buf => some buf
  | n + 1, i, buf => do
      let byte ← buf[offs + i]?
      let kept ← shiftRight32 mask (i * 8)
      let part ← shiftRight32 data (i * 8)
      let written := (byte.toBitVec.setWidth 32 &&& kept) ||| (part &&& 0xff#32)
      scatterBytes offs mask data n (i + 1) (buf.set (offs + i) ⟨written.setWidth 8⟩)

/-- {lit}`mask`, before it is moved to the bits of the item. -/
def itemMask (hsize : UInt32) : Option (BitVec 32) :=
  if hsize = 32 then some (BitVec.allOnes 32)
  else (shiftLeft32 1#32 hsize.toNat).map fun high => high - 1#32

/-- {lit}`hid_set_data`. -/
def hidSetData (buf : List UInt8) (h : ReportItem) (data : Int32) : Option (List UInt8) := do
  let mask ← itemMask h.hsize
  let masked := if h.hsize = 32 then data.toBitVec else data.toBitVec &&& mask
  scatterBytes (h.hpos / 8).toNat (~~~(mask <<< (h.hpos % 8).toNat))
    (masked <<< (h.hpos % 8).toNat) h.turns 0 buf

/-! ## The loops -/

namespace ReportItem

/-- The item lies in front of the last bit position there is. -/
def InRange (h : ReportItem) : Prop :=
  h.hpos.toNat + h.hsize.toNat < 2 ^ 32

instance (h : ReportItem) : Decidable h.InRange :=
  inferInstanceAs (Decidable (h.hpos.toNat + h.hsize.toNat < 2 ^ 32))

/-- The byte behind the last bit is in the buffer, and the last bit is one of the first 31 bits
from the first byte of the item on. -/
structure Fits (h : ReportItem) (buf : List UInt8) : Prop where
  bits : h.hpos.toNat % 8 + h.hsize.toNat < 32
  bytes : (h.hpos.toNat + h.hsize.toNat) / 8 < buf.length

theorem turns_eq {h : ReportItem} (hrange : h.InRange) :
    h.turns = (h.hpos.toNat + h.hsize.toNat) / 8 - h.hpos.toNat / 8 + 1 := by
  have hsum : (h.hpos + h.hsize).toNat = h.hpos.toNat + h.hsize.toNat := by
    rw [UInt32.toNat_add, Nat.mod_eq_of_lt hrange]
  have hle : h.hpos / 8 ≤ (h.hpos + h.hsize) / 8 := by
    rw [UInt32.le_iff_toNat_le, UInt32.toNat_div, UInt32.toNat_div, hsum]
    exact Nat.div_le_div_right (Nat.le_add_right _ _)
  have hlast : ((h.hpos + h.hsize) / 8 - h.hpos / 8).toNat =
      (h.hpos.toNat + h.hsize.toNat) / 8 - h.hpos.toNat / 8 := by
    rw [UInt32.toNat_sub_of_le _ _ hle, UInt32.toNat_div, UInt32.toNat_div, hsum]
    rfl
  have hsmall : ((h.hpos + h.hsize) / 8 - h.hpos / 8).toInt32.toInt =
      (((h.hpos.toNat + h.hsize.toNat) / 8 - h.hpos.toNat / 8 : ℕ) : ℤ) := by
    rw [← hlast, ← Int32.toInt_toBitVec, UInt32.toBitVec_toInt32, BitVec.toInt_eq_toNat_of_lt]
    · rfl
    · rw [UInt32.toNat_toBitVec, hlast]
      unfold InRange at hrange
      omega
  rw [turns, hsmall]
  omega

end ReportItem

section

variable {buf after : List UInt8} {offs n i : ℕ} {data mask r : BitVec 32}

/-- A turn of the reading loop needs its byte and a defined shift. -/
theorem gatherBytes_succ_eq_some : gatherBytes buf offs (n + 1) i data = some r ↔
    ∃ byte, buf[offs + i]? = some byte ∧ i < 4 ∧
      gatherBytes buf offs n (i + 1)
        (data ||| byte.toBitVec.setWidth 32 <<< (i * 8)) = some r := by
  rw [gatherBytes]
  cases hbyte : buf[offs + i]? with
  | none => simp
  | some byte =>
      by_cases hi : i < 4
      · have hshift : i * 8 < 32 := by omega
        simp [shiftLeft32, hshift, hi]
      · have hshift : ¬ i * 8 < 32 := by omega
        simp [shiftLeft32, hshift, hi]

/-- What the reading loop needs. -/
theorem gatherBytes_isSome : (gatherBytes buf offs n i data).isSome = true ↔
    ∀ k < n, i + k < 4 ∧ offs + i + k < buf.length := by
  induction n generalizing i data with
  | zero => simp [gatherBytes]
  | succ n ih =>
      constructor
      · intro hsome k hk
        obtain ⟨r, hr⟩ := Option.isSome_iff_exists.mp hsome
        obtain ⟨byte, hbyte, hi, hrest⟩ := gatherBytes_succ_eq_some.mp hr
        cases k with
        | zero => exact ⟨hi, (List.getElem?_eq_some_iff.mp hbyte).1⟩
        | succ k =>
            have hnext := ih.mp (Option.isSome_iff_exists.mpr ⟨r, hrest⟩) k (by omega)
            omega
      · intro hall
        have hfirst := hall 0 (Nat.succ_pos n)
        have hrest : (gatherBytes buf offs n (i + 1)
            (data ||| buf[offs + i].toBitVec.setWidth 32 <<< (i * 8))).isSome = true := by
          apply ih.mpr
          intro k hk
          have hk' := hall (k + 1) (by omega)
          omega
        obtain ⟨r, hr⟩ := Option.isSome_iff_exists.mp hrest
        apply Option.isSome_iff_exists.mpr
        refine ⟨r, gatherBytes_succ_eq_some.mpr ⟨_, ?_, hfirst.1, hr⟩⟩
        exact List.getElem?_eq_getElem _

/-- The bits that the reading loop collects. -/
theorem getLsbD_gatherBytes (hr : gatherBytes buf offs n i data = some r) (j : ℕ) (hj : j < 32) :
    r.getLsbD j = (data.getLsbD j ||
      (decide (8 * i ≤ j ∧ j < 8 * (i + n)) && bitAt buf (8 * offs + j))) := by
  induction n generalizing i data with
  | zero =>
      rw [gatherBytes, Option.some.injEq] at hr
      simp [hr]
  | succ n ih =>
      obtain ⟨byte, hbyte, hi, hrest⟩ := gatherBytes_succ_eq_some.mp hr
      rw [ih hrest, BitVec.getLsbD_or, BitVec.getLsbD_shiftLeft, BitVec.getLsbD_setWidth]
      by_cases hin : 8 * i ≤ j ∧ j < 8 * i + 8
      · -- the byte that this turn reads
        have hbit : bitAt buf (8 * offs + j) = byte.toBitVec.getLsbD (j - i * 8) := by
          have hdiv : (8 * offs + j) / 8 = offs + i := by omega
          have hmod : (8 * offs + j) % 8 = j - i * 8 := by omega
          rw [bitAt_of_getElem? (by rw [hdiv]; exact hbyte), hmod]
        have hlow : ¬ j < i * 8 := by omega
        have hwidth : j - i * 8 < 32 := by omega
        have hlater : ¬ (8 * (i + 1) ≤ j ∧ j < 8 * (i + 1 + n)) := by omega
        have hhere : 8 * i ≤ j ∧ j < 8 * (i + (n + 1)) := by omega
        simp [hbit, hj, hlow, hwidth, hlater, hhere]
      · have hbyte' : ¬ j < i * 8 → byte.toBitVec.getLsbD (j - i * 8) = false :=
          fun hlow => BitVec.getLsbD_of_ge _ _ (by omega)
        have hsame : (8 * (i + 1) ≤ j ∧ j < 8 * (i + 1 + n)) ↔
            (8 * i ≤ j ∧ j < 8 * (i + (n + 1))) := by omega
        by_cases hlow : j < i * 8
        · simp [hj, hlow, hsame]
        · simp [hj, hlow, hsame, hbyte' hlow]

/-- A turn of the writing loop. -/
theorem scatterBytes_succ_eq_some : scatterBytes offs mask data (n + 1) i buf = some after ↔
    ∃ byte, buf[offs + i]? = some byte ∧ i < 4 ∧
      scatterBytes offs mask data n (i + 1) (buf.set (offs + i)
        ⟨((byte.toBitVec.setWidth 32 &&& mask.sshiftRight (i * 8)) |||
          (data.sshiftRight (i * 8) &&& 0xff#32)).setWidth 8⟩) = some after := by
  rw [scatterBytes]
  cases hbyte : buf[offs + i]? with
  | none => simp
  | some byte =>
      by_cases hi : i < 4
      · have hshift : i * 8 < 32 := by omega
        simp [shiftRight32, hshift, hi]
      · have hshift : ¬ i * 8 < 32 := by omega
        simp [shiftRight32, hshift, hi]

/-- What the writing loop needs. -/
theorem scatterBytes_isSome : (scatterBytes offs mask data n i buf).isSome = true ↔
    ∀ k < n, i + k < 4 ∧ offs + i + k < buf.length := by
  induction n generalizing i buf with
  | zero => simp [scatterBytes]
  | succ n ih =>
      constructor
      · intro hsome k hk
        obtain ⟨r, hr⟩ := Option.isSome_iff_exists.mp hsome
        obtain ⟨byte, hbyte, hi, hrest⟩ := scatterBytes_succ_eq_some.mp hr
        cases k with
        | zero => exact ⟨hi, (List.getElem?_eq_some_iff.mp hbyte).1⟩
        | succ k =>
            have hnext := ih.mp (Option.isSome_iff_exists.mpr ⟨r, hrest⟩) k (by omega)
            rw [List.length_set] at hnext
            omega
      · intro hall
        have hfirst := hall 0 (Nat.succ_pos n)
        have hrest : (scatterBytes offs mask data n (i + 1) (buf.set (offs + i)
            ⟨((buf[offs + i].toBitVec.setWidth 32 &&& mask.sshiftRight (i * 8)) |||
              (data.sshiftRight (i * 8) &&& 0xff#32)).setWidth 8⟩)).isSome = true := by
          apply ih.mpr
          intro k hk
          have hk' := hall (k + 1) (by omega)
          rw [List.length_set]
          omega
        obtain ⟨r, hr⟩ := Option.isSome_iff_exists.mp hrest
        apply Option.isSome_iff_exists.mpr
        refine ⟨r, scatterBytes_succ_eq_some.mpr ⟨_, ?_, hfirst.1, hr⟩⟩
        exact List.getElem?_eq_getElem _

theorem length_scatterBytes (hafter : scatterBytes offs mask data n i buf = some after) :
    after.length = buf.length := by
  induction n generalizing i buf with
  | zero =>
      rw [scatterBytes, Option.some.injEq] at hafter
      rw [hafter]
  | succ n ih =>
      obtain ⟨byte, -, -, hrest⟩ := scatterBytes_succ_eq_some.mp hafter
      rw [ih hrest, List.length_set]

/-- One bit of the byte that a turn writes. -/
theorem getLsbD_writtenByte (byte : UInt8) (hi : i < 4) (j : ℕ) (hj : j < 8) :
    (((byte.toBitVec.setWidth 32 &&& mask.sshiftRight (i * 8)) |||
      (data.sshiftRight (i * 8) &&& 0xff#32)).setWidth 8).getLsbD j =
      ((byte.toBitVec.getLsbD j && mask.getLsbD (8 * i + j)) || data.getLsbD (8 * i + j)) := by
  have hindex : i * 8 + j = 8 * i + j := by omega
  have hin : 8 * i + j < 32 := by omega
  have hlow : j < 32 := by omega
  have hff : (0xff#32).getLsbD j = true := by
    rw [BitVec.getLsbD_ofNat, decide_eq_true hlow, Bool.true_and]
    exact (Nat.testBit_two_pow_sub_one 8 j).trans (decide_eq_true hj)
  rw [BitVec.getLsbD_setWidth, BitVec.getLsbD_or, BitVec.getLsbD_and, BitVec.getLsbD_and,
    BitVec.getLsbD_setWidth, BitVec.getLsbD_sshiftRight, BitVec.getLsbD_sshiftRight, hff, hindex]
  simp [hj, hin, hlow, Nat.not_le.mpr hlow]

/-- The bits behind the writing loop. -/
theorem bitAt_scatterBytes (hafter : scatterBytes offs mask data n i buf = some after) (m : ℕ) :
    bitAt after m = if 8 * (offs + i) ≤ m ∧ m < 8 * (offs + i + n) then
      (bitAt buf m && mask.getLsbD (m - 8 * offs)) || data.getLsbD (m - 8 * offs)
    else bitAt buf m := by
  induction n generalizing i buf with
  | zero =>
      have hnone : ¬ (8 * (offs + i) ≤ m ∧ m < 8 * (offs + i + 0)) := by omega
      rw [scatterBytes, Option.some.injEq] at hafter
      rw [if_neg hnone, hafter]
  | succ n ih =>
      obtain ⟨byte, hbyte, hi, hrest⟩ := scatterBytes_succ_eq_some.mp hafter
      have hlength := (List.getElem?_eq_some_iff.mp hbyte).1
      rw [ih hrest, bitAt_set]
      by_cases hin : m / 8 = offs + i
      · -- the byte that this turn writes
        have hlater : ¬ (8 * (offs + (i + 1)) ≤ m ∧ m < 8 * (offs + (i + 1) + n)) := by omega
        have hhere : 8 * (offs + i) ≤ m ∧ m < 8 * (offs + i + (n + 1)) := by omega
        have hindex : 8 * i + m % 8 = m - 8 * offs := by omega
        rw [if_neg hlater, if_pos ⟨hin, hlength⟩, if_pos hhere,
          getLsbD_writtenByte byte hi _ (Nat.mod_lt _ (by decide)), hindex,
          bitAt_of_getElem? (by rw [hin]; exact hbyte)]
      · have hsame : (8 * (offs + (i + 1)) ≤ m ∧ m < 8 * (offs + (i + 1) + n)) ↔
            (8 * (offs + i) ≤ m ∧ m < 8 * (offs + i + (n + 1))) := by omega
        simp [hin, hsame]

end

/-! ## The masks -/

section

variable {size : ℕ}

/-- The lowest bits of a mask. -/
theorem getLsbD_low {w : ℕ} (hsize : size < w) (j : ℕ) :
    (1#w <<< size - 1#w).getLsbD j = decide (j < size) := by
  have hone : (1#w).toNat = 1 := by
    rw [BitVec.toNat_ofNat, Nat.mod_eq_of_lt (Nat.one_lt_two_pow (by omega))]
  have hpow : (1#w <<< size).toNat = 2 ^ size := by
    rw [BitVec.toNat_shiftLeft, hone, Nat.one_shiftLeft,
      Nat.mod_eq_of_lt (Nat.pow_lt_pow_right (by omega) hsize)]
  have hle : 1#w ≤ 1#w <<< size := by
    rw [BitVec.le_def, hone, hpow]
    exact Nat.one_le_two_pow
  rw [BitVec.getLsbD, BitVec.toNat_sub_of_le hle, hone, hpow, Nat.testBit_two_pow_sub_one]

theorem getLsbD_maskTo (hsize : size ≤ 32) {data r : BitVec 32} (hr : maskTo size data = some r)
    (j : ℕ) : r.getLsbD j = (decide (j < size) && data.getLsbD j) := by
  rw [maskTo, if_pos (by omega), Option.some.injEq] at hr
  subst hr
  rw [BitVec.getLsbD_setWidth, BitVec.getLsbD_and, getLsbD_low (by omega),
    BitVec.getLsbD_signExtend]
  by_cases hj : j < size
  · have h32 : j < 32 := by omega
    have h64 : j < 64 := by omega
    simp [hj, h32, h64]
  · simp [hj]

/-- Moved to the left and back, a field is extended by its highest bit. -/
theorem sshiftRight_shiftLeft_setWidth (hpos : 0 < size) (hsize : size ≤ 32) (x : BitVec size) :
    ((x.setWidth 32) <<< (32 - size)).sshiftRight (32 - size) = x.signExtend 32 := by
  apply BitVec.eq_of_getLsbD_eq
  intro j hj
  rw [BitVec.getLsbD_sshiftRight, BitVec.getLsbD_signExtend]
  by_cases hin : j < size
  · have hsum : 32 - size + j < 32 := by omega
    have hlow : ¬ 32 - size + j < 32 - size := by omega
    have hback : 32 - size + j - (32 - size) = j := by omega
    simp [hj, hin, hsum, hlow, hback]
  · have hsum : ¬ 32 - size + j < 32 := by omega
    have hback : 31 - (32 - size) = size - 1 := by omega
    have htop : ¬ 31 < 32 - size := by omega
    have hmsb : x.msb = x.getLsbD (size - 1) := BitVec.msb_eq_getLsbD_last x
    simp [hj, hin, hsum, BitVec.msb_eq_getLsbD_last, htop, hback]

/-- The bits of {lit}`mask`. -/
theorem getLsbD_itemMask {hsize : UInt32} {mask : BitVec 32} (hmask : itemMask hsize = some mask)
    (j : ℕ) : mask.getLsbD j = decide (j < hsize.toNat) := by
  unfold itemMask at hmask
  by_cases h32 : hsize = 32
  · subst h32
    rw [if_pos rfl, Option.some.injEq] at hmask
    rw [← hmask, BitVec.getLsbD_allOnes]
    rfl
  · rw [if_neg h32, shiftLeft32] at hmask
    split at hmask
    · next hlt =>
        rw [Option.map_some, Option.some.injEq] at hmask
        rw [← hmask, getLsbD_low hlt]
    · cases hmask

theorem itemMask_isSome {hsize : UInt32} :
    (itemMask hsize).isSome = true ↔ hsize.toNat ≤ 32 := by
  unfold itemMask
  by_cases h32 : hsize = 32
  · subst h32
    simp
  · have hne : hsize.toNat ≠ 32 := fun h => h32 (UInt32.toNat_inj.mp h)
    rw [if_neg h32, shiftLeft32]
    split
    · next hlt => simpa using hlt.le
    · next hge =>
        simp
        omega

end

/-! ## What is read and what is written -/

namespace ReportItem

/-- The bits of an item. -/
def bits (h : ReportItem) (buf : List UInt8) : BitVec h.hsize.toNat :=
  field buf h.hpos.toNat h.hsize.toNat

/-- The number that an item stands for: signed if its minimum is. -/
def value (h : ReportItem) (bits : BitVec h.hsize.toNat) : Int32 :=
  Int32.ofBitVec (if h.other.logicalMinimum < 0 then bits.signExtend 32 else bits.setWidth 32)

/-- The lowest bits of a number, as many as the item has. -/
def cut (h : ReportItem) (data : Int32) : BitVec h.hsize.toNat :=
  data.toBitVec.setWidth h.hsize.toNat

/-- No bit belongs to both items. -/
def Disjoint (h other : ReportItem) : Prop :=
  h.hpos.toNat + h.hsize.toNat ≤ other.hpos.toNat ∨
    other.hpos.toNat + other.hsize.toNat ≤ h.hpos.toNat

end ReportItem

section

variable {buf after : List UInt8} {h other : ReportItem} {data : Int32}

/-- The loops run over defined shifts and bytes of the buffer just if the item fits. -/
theorem fits_iff_turns (hrange : h.InRange) : h.Fits buf ↔
    ∀ k < h.turns, 0 + k < 4 ∧ (h.hpos / 8).toNat + 0 + k < buf.length := by
  have hoffs : (h.hpos / 8).toNat = h.hpos.toNat / 8 := UInt32.toNat_div _ _
  rw [ReportItem.turns_eq hrange, hoffs]
  constructor
  · rintro ⟨hbits, hbytes⟩ k hk
    omega
  · intro hall
    have hlast := hall ((h.hpos.toNat + h.hsize.toNat) / 8 - h.hpos.toNat / 8) (by omega)
    exact ⟨by omega, by omega⟩

/-- {lit}`hid_get_data` of an item that fits. -/
theorem hidGetData_eq (hrange : h.InRange) (hfits : h.Fits buf) :
    hidGetData buf h = some (h.value (h.bits buf)) := by
  have hmod : (h.hpos % 8).toNat = h.hpos.toNat % 8 := UInt32.toNat_mod _ _
  have hoffs : (h.hpos / 8).toNat = h.hpos.toNat / 8 := UInt32.toNat_div _ _
  have hsmall := hfits.bits
  by_cases hzero : h.hsize = 0
  · -- no bits: both are zero
    rw [hidGetData, if_pos hzero, ReportItem.value]
    have hnat : h.hsize.toNat = 0 := by rw [hzero]; rfl
    have hbits : (h.bits buf).setWidth 32 = 0#32 ∧ (h.bits buf).signExtend 32 = 0#32 := by
      constructor <;> apply BitVec.eq_of_getLsbD_eq <;> intro j hj
      · rw [BitVec.getLsbD_setWidth, BitVec.getLsbD_of_ge _ j (by omega)]
        simp
      · rw [BitVec.getLsbD_signExtend, BitVec.msb_eq_getLsbD_last,
          BitVec.getLsbD_of_ge _ _ (by omega)]
        simp [hnat]
    rw [hbits.1, hbits.2, ite_self]
    rfl
  have hpositive : 0 < h.hsize.toNat := by
    apply Nat.pos_of_ne_zero
    intro hnat
    exact hzero (UInt32.toNat_inj.mp hnat)
  have hgathers : (gatherBytes buf (h.hpos / 8).toNat h.turns 0 0).isSome = true :=
    gatherBytes_isSome.mpr ((fits_iff_turns hrange).mp hfits)
  obtain ⟨gathered, hgathered⟩ := Option.isSome_iff_exists.mp hgathers
  have hbits : maskTo h.hsize.toNat (gathered.sshiftRight (h.hpos % 8).toNat) =
      some ((h.bits buf).setWidth 32) := by
    obtain ⟨r, hr⟩ : ∃ r, maskTo h.hsize.toNat (gathered.sshiftRight (h.hpos % 8).toNat) =
        some r := ⟨_, if_pos (by omega)⟩
    rw [hr, Option.some.injEq]
    apply BitVec.eq_of_getLsbD_eq
    intro j hj
    rw [getLsbD_maskTo (by omega) hr, BitVec.getLsbD_setWidth, ReportItem.bits, getLsbD_field,
      decide_eq_true hj, Bool.true_and]
    by_cases hin : j < h.hsize.toNat
    · have hindex : h.hpos.toNat % 8 + j < 32 := by omega
      have hturn : 8 * 0 ≤ h.hpos.toNat % 8 + j ∧
          h.hpos.toNat % 8 + j < 8 * (0 + h.turns) := by
        rw [ReportItem.turns_eq hrange]
        omega
      have hplace : 8 * (h.hpos.toNat / 8) + (h.hpos.toNat % 8 + j) = h.hpos.toNat + j := by omega
      rw [BitVec.getLsbD_sshiftRight, hmod, if_pos hindex,
        getLsbD_gatherBytes hgathered _ hindex, hoffs, decide_eq_true hturn, hplace]
      simp [hin, hj]
    · simp [hin]
  have hle : h.hsize ≤ 32 := by
    rw [UInt32.le_iff_toNat_le, show (32 : UInt32).toNat = 32 from rfl]
    omega
  have hback : (32 - h.hsize).toNat = 32 - h.hsize.toNat := UInt32.toNat_sub_of_le _ _ hle
  rw [hidGetData, if_neg hzero, hgathered, Option.bind_eq_bind, Option.bind_some, hbits,
    Option.bind_some, ReportItem.value]
  by_cases hsigned : h.other.logicalMinimum < 0
  · have hlt : 32 - h.hsize.toNat < 32 := by omega
    rw [if_pos hsigned, if_pos hsigned, hback, shiftLeft32, if_pos hlt, Option.bind_some,
      shiftRight32, if_pos hlt, Option.bind_some,
      sshiftRight_shiftLeft_setWidth hpositive (by omega)]
  · rw [if_neg hsigned, if_neg hsigned]

/-- {lit}`hid_set_data` of an item that fits: the bits of the item are written. -/
theorem hidSetData_written (hrange : h.InRange) (hafter : hidSetData buf h data = some after) :
    Written buf h.hpos.toNat (h.cut data) after := by
  have hmod : (h.hpos % 8).toNat = h.hpos.toNat % 8 := UInt32.toNat_mod _ _
  have hoffs : (h.hpos / 8).toNat = h.hpos.toNat / 8 := UInt32.toNat_div _ _
  rw [hidSetData] at hafter
  obtain ⟨mask, hmask, hscatter⟩ := Option.bind_eq_some_iff.mp hafter
  have hfits : h.Fits buf := (fits_iff_turns hrange).mpr
    (scatterBytes_isSome.mp (Option.isSome_iff_exists.mpr ⟨after, hscatter⟩))
  have hsmall := hfits.bits
  have hturns := ReportItem.turns_eq hrange
  have hbits := bitAt_scatterBytes hscatter
  rw [hmod, hoffs, hturns] at hbits
  have hne : h.hsize ≠ 32 := by
    intro h32
    rw [h32] at hsmall
    exact absurd hsmall (by rw [show (32 : UInt32).toNat = 32 from rfl]; omega)
  rw [if_neg hne] at hbits
  have hshifted (x : BitVec 32) (m : ℕ) (hlow : h.hpos.toNat % 8 ≤ m) (hm : m < 32) :
      (x <<< (h.hpos.toNat % 8)).getLsbD m = x.getLsbD (m - h.hpos.toNat % 8) := by
    rw [BitVec.getLsbD_shiftLeft, decide_eq_true hm, decide_eq_false (Nat.not_lt.mpr hlow)]
    rfl
  refine ⟨length_scatterBytes hscatter, ?_, ?_⟩
  · intro j hj
    have hin : 8 * (h.hpos.toNat / 8 + 0) ≤ h.hpos.toNat + j ∧ h.hpos.toNat + j <
        8 * (h.hpos.toNat / 8 + 0 +
          ((h.hpos.toNat + h.hsize.toNat) / 8 - h.hpos.toNat / 8 + 1)) := by omega
    have hindex : h.hpos.toNat + j - 8 * (h.hpos.toNat / 8) = h.hpos.toNat % 8 + j := by omega
    have h32 : h.hpos.toNat % 8 + j < 32 := by omega
    have hback : h.hpos.toNat % 8 + j - h.hpos.toNat % 8 = j := by omega
    have hj32 : j < 32 := by omega
    rw [hbits, if_pos hin, hindex, BitVec.getLsbD_not, hshifted _ _ (by omega) h32,
      hshifted _ _ (by omega) h32, hback, BitVec.getLsbD_and, getLsbD_itemMask hmask j,
      ReportItem.cut, BitVec.getLsbD_setWidth]
    simp [hj]
  · intro m hm
    rw [hbits]
    split
    · -- the other bits of the bytes of the item
      next hin =>
        have h32 : m - 8 * (h.hpos.toNat / 8) < 32 := by omega
        by_cases hlow : m < h.hpos.toNat
        · have hbelow : m - 8 * (h.hpos.toNat / 8) < h.hpos.toNat % 8 := by omega
          rw [BitVec.getLsbD_not, BitVec.getLsbD_shiftLeft, BitVec.getLsbD_shiftLeft]
          simp [h32, hbelow]
        · have hbeyond : ¬ m - 8 * (h.hpos.toNat / 8) - h.hpos.toNat % 8 < h.hsize.toNat := by
            omega
          rw [BitVec.getLsbD_not, hshifted _ _ (by omega) h32, hshifted _ _ (by omega) h32,
            BitVec.getLsbD_and, getLsbD_itemMask hmask]
          simp [h32, hbeyond]
    · rfl

/-- What {lit}`hid_set_data` needs. -/
theorem hidSetData_isSome (hrange : h.InRange) :
    (hidSetData buf h data).isSome = true ↔ h.Fits buf := by
  constructor
  · intro hsome
    obtain ⟨after, hafter⟩ := Option.isSome_iff_exists.mp hsome
    obtain ⟨mask, -, hscatter⟩ := Option.bind_eq_some_iff.mp hafter
    exact (fits_iff_turns hrange).mpr
      (scatterBytes_isSome.mp (Option.isSome_iff_exists.mpr ⟨after, hscatter⟩))
  · intro hfits
    obtain ⟨mask, hmask⟩ := Option.isSome_iff_exists.mp
      (itemMask_isSome.mpr (by have := hfits.bits; omega : h.hsize.toNat ≤ 32))
    rw [hidSetData, hmask, Option.bind_eq_bind, Option.bind_some]
    exact scatterBytes_isSome.mpr ((fits_iff_turns hrange).mp hfits)

/-- What {lit}`hid_get_data` needs, where there are bits at all. -/
theorem hidGetData_isSome (hrange : h.InRange) :
    (hidGetData buf h).isSome = true ↔ h.hsize = 0 ∨ h.Fits buf := by
  constructor
  · intro hsome
    by_cases hzero : h.hsize = 0
    · exact Or.inl hzero
    · right
      rw [hidGetData, if_neg hzero] at hsome
      obtain ⟨value, hvalue⟩ := Option.isSome_iff_exists.mp hsome
      obtain ⟨gathered, hgathered, -⟩ := Option.bind_eq_some_iff.mp hvalue
      exact (fits_iff_turns hrange).mpr
        (gatherBytes_isSome.mp (Option.isSome_iff_exists.mpr ⟨gathered, hgathered⟩))
  · rintro (hzero | hfits)
    · rw [hidGetData, if_pos hzero]
      rfl
    · rw [hidGetData_eq hrange hfits]
      rfl

/-- Items of other bits are read as before. -/
theorem hidGetData_of_written (hrange : h.InRange) (hother : other.InRange)
    (hafter : hidSetData buf h data = some after) (hdisjoint : h.Disjoint other) :
    hidGetData after other = hidGetData buf other := by
  have hwritten := hidSetData_written hrange hafter
  have hfits : other.Fits after ↔ other.Fits buf := by
    constructor <;> rintro ⟨hbits, hbytes⟩
    · exact ⟨hbits, hwritten.length_eq ▸ hbytes⟩
    · exact ⟨hbits, hwritten.length_eq.symm ▸ hbytes⟩
  by_cases hsome : other.Fits buf
  · rw [hidGetData_eq hother hsome, hidGetData_eq hother (hfits.mpr hsome), ReportItem.bits,
      hwritten.field_eq_of_disjoint hdisjoint, ReportItem.bits]
  · by_cases hzero : other.hsize = 0
    · rw [hidGetData, hidGetData, if_pos hzero, if_pos hzero]
    · have hnone (b : List UInt8) (hb : ¬ other.Fits b) : hidGetData b other = none := by
        rw [← Option.not_isSome_iff_eq_none, hidGetData_isSome hother]
        simp [hzero, hb]
      rw [hnone after (fun hafits => hsome (hfits.mp hafits)), hnone buf hsome]

/-- A number that the bits of an item can stand for. -/
def ReportItem.Holds (h : ReportItem) (data : Int32) : Prop :=
  if h.other.logicalMinimum < 0 then
    -(2 ^ h.hsize.toNat : ℕ) ≤ 2 * data.toInt ∧ 2 * data.toInt < (2 ^ h.hsize.toNat : ℕ)
  else 0 ≤ data.toInt ∧ data.toInt < (2 ^ h.hsize.toNat : ℕ)

instance (h : ReportItem) (data : Int32) : Decidable (h.Holds data) :=
  inferInstanceAs (Decidable (if h.other.logicalMinimum < 0 then
    -(2 ^ h.hsize.toNat : ℕ) ≤ 2 * data.toInt ∧ 2 * data.toInt < (2 ^ h.hsize.toNat : ℕ)
    else 0 ≤ data.toInt ∧ data.toInt < (2 ^ h.hsize.toNat : ℕ)))

/-- The numbers that are not changed by being cut. -/
theorem value_cut_eq_iff (hsize : h.hsize.toNat < 32) : h.value (h.cut data) = data ↔
    h.Holds data := by
  have hpow : (2 : ℕ) ^ h.hsize.toNat ≤ 2 ^ 31 := Nat.pow_le_pow_right (by omega) (by omega)
  have hpositive : 0 < (2 : ℕ) ^ h.hsize.toNat := Nat.two_pow_pos _
  have hint : data.toBitVec.toInt =
      if 2 * data.toBitVec.toNat < 2 ^ 32 then (data.toBitVec.toNat : ℤ)
      else (data.toBitVec.toNat : ℤ) - (2 ^ 32 : ℕ) := BitVec.toInt_eq_toNat_cond _
  have hlt := data.toBitVec.isLt
  rw [ReportItem.value, ReportItem.cut, ReportItem.Holds, ← Int32.toBitVec_inj,
    Int32.toBitVec_ofBitVec, ← Int32.toInt_toBitVec]
  by_cases hsigned : h.other.logicalMinimum < 0
  · rw [if_pos hsigned, if_pos hsigned, ← BitVec.toInt_inj,
      BitVec.toInt_signExtend_of_le (by omega), BitVec.toInt_setWidth, Int.bmod_eq_iff hpositive]
    -- a number and its unsigned reading differ by a multiple of the modulus
    have hdvd : ((2 ^ h.hsize.toNat : ℕ) : ℤ) ∣ data.toBitVec.toInt - data.toBitVec.toNat := by
      have h32 : ((2 ^ h.hsize.toNat : ℕ) : ℤ) ∣ ((2 ^ 32 : ℕ) : ℤ) :=
        Int.natCast_dvd_natCast.mpr (Nat.pow_dvd_pow 2 (by omega))
      rw [hint]
      split
      · simp
      · have hdiff : (data.toBitVec.toNat : ℤ) - (2 ^ 32 : ℕ) - data.toBitVec.toNat =
            -((2 ^ 32 : ℕ) : ℤ) := by omega
        rw [hdiff]
        exact Int.dvd_neg.mpr h32
    constructor
    · rintro ⟨hlow, hhigh, -⟩
      omega
    · rintro ⟨hlow, hhigh⟩
      exact ⟨by omega, by omega, hdvd⟩
  · rw [if_neg hsigned, if_neg hsigned, ← BitVec.toNat_inj, BitVec.toNat_setWidth,
      BitVec.toNat_setWidth]
    have hcut := Nat.mod_lt data.toBitVec.toNat hpositive
    rw [Nat.mod_eq_of_lt (by omega)]
    constructor
    · intro hsame
      rw [hsame] at hcut
      rw [hint]
      split <;> omega
    · rintro ⟨hlow, hhigh⟩
      apply Nat.mod_eq_of_lt
      rw [hint] at hlow hhigh
      split at hhigh <;> split at hlow <;> omega

end

/-- Just the items that fit can be written.  Then the value is read back as far as the item
has bits for it, no other bit of the report is different, and every item of other bits has
the value that it had. -/
theorem hidSetData_spec (buf : List UInt8) (h : ReportItem) (data : Int32)
    (hrange : h.InRange) :
    ((hidSetData buf h data).isSome = true ↔ h.Fits buf) ∧
      ∀ after, hidSetData buf h data = some after →
        hidGetData after h = some (h.value (h.cut data)) ∧
        (hidGetData after h = some data ↔ h.Holds data) ∧
        after.length = buf.length ∧
        (∀ n, n < h.hpos.toNat ∨ h.hpos.toNat + h.hsize.toNat ≤ n →
          bitAt after n = bitAt buf n) ∧
        ∀ other : ReportItem, other.InRange → h.Disjoint other →
          hidGetData after other = hidGetData buf other := by
  refine ⟨hidSetData_isSome hrange, fun after hafter => ?_⟩
  have hwritten := hidSetData_written hrange hafter
  have hfits := (hidSetData_isSome hrange).mp (Option.isSome_iff_exists.mpr ⟨after, hafter⟩)
  have hread : hidGetData after h = some (h.value (h.cut data)) := by
    rw [hidGetData_eq hrange ⟨hfits.bits, hwritten.length_eq.symm ▸ hfits.bytes⟩,
      ReportItem.bits, hwritten.field_eq]
  have hsize : h.hsize.toNat < 32 := by
    have hbits := hfits.bits
    omega
  refine ⟨hread, ?_, hwritten.length_eq, hwritten.outside, fun other hother hdisjoint =>
    hidGetData_of_written hrange hother hafter hdisjoint⟩
  rw [hread, Option.some.injEq, value_cut_eq_iff hsize]

/-- Seven bits from the fourth bit of a report on. -/
theorem hidSetData_spec_sevenBits :
    hidGetData [175, 254, 255] ⟨.feature, 0, 0, { (default : ItemData) with
      pos := 3, reportSize := 7 }⟩ = some 85 :=
  (((hidSetData_spec [255, 255, 255] ⟨.feature, 0, 0, { (default : ItemData) with
    pos := 3, reportSize := 7 }⟩ 85 (by decide)).2 [175, 254, 255] (by decide)).2.1).mpr
    (by decide)

end Apcupsd
