import Apcupsd.Foundations.ShiftRegister
import Apcupsd.Modbus.Comm

/-!
# Burst errors in a frame

{lit}`ModbusCrc` is a shift register that is fed with the bits of a frame, the least significant
bit of each byte first.  Behind the frame and its checksum the register is empty, and after a
burst of at most sixteen bits it is not.

Main results:

- Theorem {lit}`toBitVec_modbusCrc`: the loops of {lit}`ModbusCrc` run the shift register.
- Theorem {lit}`crcOk_iff`: the test of the last two bytes is whether the register is empty.
- Theorem {lit}`burst_discarded`: a frame with a burst error fails the test, and is discarded.
-/

namespace Apcupsd

open ShiftRegister

/-! ## The bits of a frame -/

/-- The bits of a byte in the order of the checksum. -/
def byteBits (byte : UInt8) : List Bool :=
  (List.range 8).map fun i => byte.toBitVec.getLsbD i

/-- The bits of a frame in the order of the checksum. -/
def bitsOf (data : List UInt8) : List Bool :=
  data.flatMap byteBits

@[simp]
theorem length_byteBits (byte : UInt8) : (byteBits byte).length = 8 := by
  simp [byteBits]

@[simp]
theorem length_bitsOf (data : List UInt8) : (bitsOf data).length = 8 * data.length := by
  simp [bitsOf, List.length_flatMap, Nat.mul_comm]

theorem bitsOf_append (front back : List UInt8) :
    bitsOf (front ++ back) = bitsOf front ++ bitsOf back :=
  List.flatMap_append

theorem getD_byteBits (byte : UInt8) (i : ℕ) :
    (byteBits byte).getD i false = byte.toBitVec.getLsbD i := by
  by_cases hi : i < 8
  · simp [byteBits, hi]
  · rw [List.getD_eq_default _ _ (by simpa using hi), BitVec.getLsbD_of_ge _ _ (by omega)]

theorem byteBits_inj {a b : UInt8} (heq : byteBits a = byteBits b) : a = b := by
  apply UInt8.toBitVec_inj.mp
  apply BitVec.eq_of_getLsbD_eq
  intro i _
  rw [← getD_byteBits, heq, getD_byteBits]

theorem bitsOf_inj {a b : List UInt8} (hlength : a.length = b.length) (heq : bitsOf a = bitsOf b) :
    a = b := by
  induction a generalizing b with
  | nil => exact (List.length_eq_zero_iff.mp hlength.symm).symm
  | cons x a ih =>
      cases b with
      | nil => cases hlength
      | cons y b =>
      have hsame : (byteBits x).length = (byteBits y).length := by simp
      obtain ⟨hfirst, hrest⟩ := List.append_inj (show byteBits x ++ bitsOf a =
        byteBits y ++ bitsOf b from heq) hsame
      rw [byteBits_inj hfirst, ih (Nat.succ.inj hlength) hrest]

/-! ## The register -/

/-- {lit}`MODBUS_CRC_POLY` as a polynomial with its constant term on top. -/
abbrev crcPoly : BitVec 16 := modbusCrcPoly.toBitVec

theorem crcPoly_msb : crcPoly.msb = true := by decide

theorem and_one_eq_one_iff (crc : UInt16) : crc &&& 1 = 1 ↔ crc.toBitVec.getLsbD 0 = true := by
  rw [← UInt16.toBitVec_inj, UInt16.toBitVec_and, UInt16.toBitVec_one,
    BitVec.and_one_eq_setWidth_ofBool_getLsbD]
  cases crc.toBitVec.getLsbD 0 with
  | true => decide
  | false => decide

/-- One round of the inner loop is one step of the register. -/
theorem toBitVec_crcBit (crc : UInt16) :
    (crcBit crc).toBitVec = step crcPoly crc.toBitVec false := by
  unfold crcBit step
  rw [Bool.xor_false]
  by_cases hlow : crc.toBitVec.getLsbD 0 = true
  · rw [if_pos ((and_one_eq_one_iff crc).mpr hlow), if_pos hlow]
    simp [crcPoly]
  · rw [if_neg (mt (and_one_eq_one_iff crc).mp hlow), if_neg hlow]
    simp

theorem toBitVec_iterate_crcBit (n : ℕ) (crc : UInt16) :
    (Nat.iterate crcBit n crc).toBitVec = run crcPoly crc.toBitVec (List.replicate n false) := by
  induction n generalizing crc with
  | zero => rfl
  | succ n ih =>
      rw [Function.iterate_succ_apply, ih, toBitVec_crcBit, List.replicate_succ, run_cons]

theorem wordOfBits_byteBits (byte : UInt8) :
    wordOfBits 16 (byteBits byte) = byte.toUInt16.toBitVec := by
  apply BitVec.eq_of_getLsbD_eq
  intro i hi
  rw [getLsbD_wordOfBits, getD_byteBits]
  simp [hi]

/-- One round of the outer loop feeds the register with the bits of a byte. -/
theorem toBitVec_crcByte (crc : UInt16) (byte : UInt8) :
    (crcByte crc byte).toBitVec = run crcPoly crc.toBitVec (byteBits byte) := by
  have hbits := @run_eq_run_zeros 16 crcPoly crc.toBitVec (byteBits byte) (by simp)
  rw [crcByte, toBitVec_iterate_crcBit, hbits, wordOfBits_byteBits, length_byteBits,
    UInt16.toBitVec_xor]

/-- {lit}`ModbusCrc` runs the shift register. -/
theorem toBitVec_modbusCrc (data : List UInt8) :
    (modbusCrc data).toBitVec = run crcPoly 0xffff (bitsOf data) := by
  have hfold (crc : UInt16) : (data.foldl crcByte crc).toBitVec =
      run crcPoly crc.toBitVec (bitsOf data) := by
    induction data generalizing crc with
    | nil => rfl
    | cons byte data ih =>
        rw [List.foldl_cons, ih, toBitVec_crcByte, ← run_append]
        rfl
  exact hfold 0xffff

/-! ## The checksum -/

theorem wordOfBits_two (lo hi : UInt8) (crc : UInt16) :
    wordOfBits 16 (byteBits lo ++ byteBits hi) = crc.toBitVec ↔
      lo = crc.toUInt8 ∧ hi = (crc >>> 8).toUInt8 := by
  have hlow : ∀ i < 8, (wordOfBits 16 (byteBits lo ++ byteBits hi)).getLsbD i =
      lo.toBitVec.getLsbD i := by
    intro i hi
    rw [getLsbD_wordOfBits, List.getD_append _ _ _ _ (by simpa using hi), getD_byteBits]
    simp [show i < 16 by omega]
  have hhigh : ∀ i < 8, (wordOfBits 16 (byteBits lo ++ byteBits hi)).getLsbD (8 + i) =
      hi.toBitVec.getLsbD i := by
    intro i hi
    rw [getLsbD_wordOfBits, List.getD_append_right _ _ _ _ (by simp), getD_byteBits]
    simp [show 8 + i < 16 by omega]
  constructor
  · intro heq
    rw [heq] at hlow hhigh
    constructor
    · apply UInt8.toBitVec_inj.mp
      apply BitVec.eq_of_getLsbD_eq
      intro i hi
      rw [← hlow i hi]
      simp [hi]
    · apply UInt8.toBitVec_inj.mp
      apply BitVec.eq_of_getLsbD_eq
      intro i hi
      rw [← hhigh i hi]
      simp [hi]
  · rintro ⟨rfl, rfl⟩
    apply BitVec.eq_of_getLsbD_eq
    intro i hi
    by_cases hbyte : i < 8
    · rw [hlow i hbyte]
      simp [hbyte]
    · obtain ⟨j, rfl⟩ := Nat.exists_eq_add_of_le (Nat.le_of_not_lt hbyte)
      have hj : j < 8 := by omega
      rw [hhigh j hj]
      simp [hj]

/-- Behind a frame with a right checksum the register is empty, and behind no other one. -/
theorem crcOk_iff {frame : List UInt8} (hlength : 2 ≤ frame.length) :
    crcOk frame = true ↔ run crcPoly 0xffff (bitsOf frame) = 0#16 := by
  obtain ⟨body, last, rfl, hlast⟩ :
      ∃ body last : List UInt8, frame = body ++ last ∧ last.length = 2 := by
    refine ⟨frame.take (frame.length - 2), frame.drop (frame.length - 2),
      (List.take_append_drop _ _).symm, ?_⟩
    rw [List.length_drop]
    omega
  obtain ⟨lo, hi, rfl⟩ := List.length_eq_two.mp hlast
  have htake : (body ++ [lo, hi]).take ((body ++ [lo, hi]).length - 2) = body := by simp
  have htwo : bitsOf [lo, hi] = byteBits lo ++ byteBits hi := by simp [bitsOf]
  rw [bitsOf_append, run_append, ← toBitVec_modbusCrc, htwo,
    run_eq_zero_iff crcPoly_msb (by simp), wordOfBits_two]
  unfold crcOk
  rw [htake]
  simp

/-! ## Errors -/

/-- The bits that differ. -/
def flipsOf (frame received : List UInt8) : List Bool :=
  List.zipWith (· ^^ ·) (bitsOf frame) (bitsOf received)

theorem zipWith_xor_zipWith_xor {a b : List Bool} (hlength : a.length = b.length) :
    List.zipWith (· ^^ ·) a (List.zipWith (· ^^ ·) a b) = b := by
  induction a generalizing b with
  | nil => exact (List.length_eq_zero_iff.mp hlength.symm).symm
  | cons x a ih =>
      cases b with
      | nil => cases hlength
      | cons y b =>
          rw [List.zipWith_cons_cons, List.zipWith_cons_cons, ih (Nat.succ.inj hlength)]
          simp

/-- Some bits of the frame have been changed, and no others than sixteen in a row. -/
structure BurstError (frame received : List UInt8) : Prop where
  length : received.length = frame.length
  changed : received ≠ frame
  within : ∃ start, ∀ p, (bitsOf frame)[p]? ≠ (bitsOf received)[p]? → start ≤ p ∧ p < start + 16

theorem BurstError.isBurst {frame received : List UInt8} (herror : BurstError frame received) :
    IsBurst 16 (flipsOf frame received) := by
  have hbits : (bitsOf frame).length = (bitsOf received).length := by
    rw [length_bitsOf, length_bitsOf, herror.length]
  constructor
  · by_contra hclear
    have hsame : bitsOf frame = bitsOf received := by
      apply List.ext_getElem hbits
      intro p hp hp'
      by_contra hdiffer
      apply hclear
      rw [flipsOf, List.mem_iff_getElem]
      refine ⟨p, ?_, ?_⟩
      · rw [List.length_zipWith]
        exact Nat.lt_min.mpr ⟨hp, hp'⟩
      · simpa using hdiffer
    exact herror.changed (bitsOf_inj herror.length.symm hsame).symm
  · obtain ⟨start, hwithin⟩ := herror.within
    refine ⟨start, fun p hflip => hwithin p fun hequal => ?_⟩
    rw [flipsOf, List.getElem?_zipWith, hequal] at hflip
    cases hbit : (bitsOf received)[p]? with
    | none => simp [hbit] at hflip
    | some bit => simp [hbit] at hflip

/-- Every burst error is found by the checksum, and {lit}`SendAndWait` discards the frame. -/
theorem burst_discarded {frame received : List UInt8} (hlength : 4 ≤ frame.length)
    (hcrc : crcOk frame = true) (herror : BurstError frame received) :
    crcOk received = false ∧ ∀ (comm : ModbusComm) (fc : UInt8) (rxsz : ℕ) (elapsedMs : ℤ),
      comm.judge fc rxsz elapsedMs received = .discard := by
  have hbits : (bitsOf frame).length = (bitsOf received).length := by
    rw [length_bitsOf, length_bitsOf, herror.length]
  have hflips : (bitsOf frame).length = (flipsOf frame received).length := by
    rw [flipsOf, List.length_zipWith, hbits, Nat.min_self]
  have hne := run_xor_burst_ne crcPoly_msb hflips
    ((crcOk_iff (by omega)).mp hcrc) herror.isBurst
  rw [flipsOf, zipWith_xor_zipWith_xor hbits] at hne
  have hfails : crcOk received = false := by
    by_contra hok
    exact hne ((crcOk_iff (by rw [herror.length]; omega)).mp (by simpa using hok))
  refine ⟨hfails, fun comm fc rxsz elapsedMs => ?_⟩
  rw [ModbusComm.judge, hfails]
  simp

/-- A burst across the data and the checksum: the last bit of the data and the first three bits of
the checksum are changed. -/
theorem burst_discarded_across :
    crcOk [0x01, 0x03, 0x02, 0x01, 0x82, 0x3f, 0x15] = false ∧
      ∀ (comm : ModbusComm) (fc : UInt8) (rxsz : ℕ) (elapsedMs : ℤ),
        comm.judge fc rxsz elapsedMs [0x01, 0x03, 0x02, 0x01, 0x82, 0x3f, 0x15] = .discard := by
  apply @burst_discarded [0x01, 0x03, 0x02, 0x01, 0x02, 0x38, 0x15]
  · decide
  · decide +kernel
  · refine ⟨rfl, by decide, 39, fun p hdiffer => ?_⟩
    have hinside : ∀ q < 56,
        (bitsOf [0x01, 0x03, 0x02, 0x01, 0x02, 0x38, 0x15])[q]? ≠
          (bitsOf [0x01, 0x03, 0x02, 0x01, 0x82, 0x3f, 0x15])[q]? → 39 ≤ q ∧ q < 39 + 16 := by
      decide +kernel
    by_cases hp : p < 56
    · exact hinside p hp hdiffer
    · rw [List.getElem?_eq_none (by simp; omega), List.getElem?_eq_none (by simp; omega)] at hdiffer
      exact absurd rfl hdiffer

end Apcupsd
