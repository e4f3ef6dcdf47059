import Apcupsd.Foundations.TwosComplement
import Apcupsd.Modbus.Mapping
import Apcupsd.Modbus.Reads

/-!
# Values of integer registers

{lit}`write_int_to_ups`, {lit}`read_int_from_ups` and {lit}`read_dbl_from_ups` lay a number
out in registers and put it together again.  Between them lie the frames of
{lit}`WriteRegister` and {lit}`ReadRegister`.

Main results:

- Theorem {lit}`toNat_bigEndian_intBytes`: the bytes that are written denote the low bits of
  the number.
- Theorem {lit}`signExtend_eq`: the two shifts extend the sign of those bits.
- Theorem {lit}`registers_survive_iff`: a value that is written is read back, if and only if
  the answer to the read is not taken for a stale duplicate and a {lit}`double` holds the value.
-/

namespace Apcupsd

open Radix TwosComplement

/-! ## The functions of the driver -/

/-- {lit}`data[i] = val >> (8*(len-i-1))`. -/
def intBytes (val : UInt64) (len : ℕ) : List UInt8 :=
  (List.range len).map fun i => (val >>> UInt64.ofNat (8 * (len - i - 1))).toUInt8

/-- The sign extension of {lit}`UpdateCi` and {lit}`read_dbl_from_ups`: a shift to the left
and an arithmetic one to the right. -/
def signExtend (nbytes : ℕ) (uint : UInt64) : ℤ :=
  ((uint.toBitVec <<< (8 * (8 - nbytes))).sshiftRight (8 * (8 - nbytes))).toInt

/-- The scaling of {lit}`read_dbl_from_ups`.  The cast rounds, and the division by a power of
two does not. -/
def RegInfo.scaled (reg : RegInfo) (uint : UInt64) : CDouble :=
  let raw : ℤ := if reg.type = .dtInt then signExtend (reg.nregs * 2) uint else uint.toNat
  .finite (FloatFormat.binary64.round (raw : ℚ) / (2 ^ reg.scale : ℕ))

namespace ModbusComm

variable {W : Type} (t : Transport W) (fuel : ℕ) (comm : ModbusComm) (reg : RegInfo)

/-- {lit}`write_int_to_ups`. -/
def writeIntToUps (val : UInt64) (w : W) : Option (Bool × ModbusComm × W) :=
  if reg.type ≠ .dtUint ∧ reg.type ≠ .dtInt then some (false, comm, w)
  else
    comm.writeRegister t fuel (UInt16.ofNat reg.addr) reg.nregs (intBytes val (reg.nregs * 2)) w

/-- {lit}`read_int_from_ups`. -/
def readIntFromUps (w : W) : Option (Option UInt64 × ModbusComm × W) :=
  if reg.type ≠ .dtUint ∧ reg.type ≠ .dtInt then some (none, comm, w)
  else
    (comm.readRegister t fuel (UInt16.ofNat reg.addr) reg.nregs w).map fun result =>
      (result.1.map bigEndian, result.2)

/-- {lit}`read_dbl_from_ups`. -/
def readDblFromUps (w : W) : Option (Option CDouble × ModbusComm × W) :=
  (comm.readIntFromUps t fuel reg w).map fun result =>
    (result.1.map reg.scaled, result.2)

end ModbusComm

/-! ## Bytes and numbers -/

@[simp]
theorem length_intBytes (val : UInt64) (len : ℕ) : (intBytes val len).length = len := by
  simp [intBytes]

/-- The bytes are the last digits of the number. -/
theorem map_toNat_intBytes (val : UInt64) {len : ℕ} (hlen : len ≤ 8) :
    (intBytes val len).map UInt8.toNat = digits 256 len val.toNat := by
  induction len with
  | zero => rfl
  | succ len ih =>
      have hrest := ih (by omega)
      have hshift : (UInt64.ofNat (8 * len)).toNat = 8 * len := by
        rw [UInt64.toNat_ofNat', Nat.mod_eq_of_lt (by omega)]
      have hfirst : (val >>> UInt64.ofNat (8 * len)).toUInt8.toNat =
          val.toNat / 256 ^ len % 256 := by
        rw [UInt64.toNat_toUInt8, UInt64.toNat_shiftRight, hshift,
          Nat.mod_eq_of_lt (by omega : 8 * len < 64), Nat.shiftRight_eq_div_pow, pow_mul]
        rfl
      rw [digits, ← hrest, ← hfirst]
      simp only [intBytes, List.range_succ_eq_map, List.map_cons, List.map_map]
      congr 1
      apply List.map_congr_left
      intro i _
      have hindex : len + 1 - (i + 1) - 1 = len - i - 1 := by omega
      simp only [Function.comp_apply, Nat.succ_eq_add_one, hindex]

/-- The loop that puts the bytes together shifts them into an empty word. -/
theorem toBitVec_bigEndian (data : List UInt8) :
    (bigEndian data).toBitVec = shiftAll 8 0#64 (data.map UInt8.toNat) := by
  have hfold (start : UInt64) :
      (data.foldl (fun (value : UInt64) (byte : UInt8) =>
        (value <<< 8) ||| byte.toUInt64) start).toBitVec =
        shiftAll 8 start.toBitVec (data.map UInt8.toNat) := by
    induction data generalizing start with
    | nil => rfl
    | cons byte data ih =>
        rw [List.foldl_cons, ih, List.map_cons, shiftAll, shiftAll, List.foldl_cons]
        congr 1
        apply BitVec.eq_of_toNat_eq
        simp [shiftIn]
  exact hfold 0

theorem toNat_bigEndian (data : List UInt8) :
    (bigEndian data).toNat = unsignedValue data % 2 ^ 64 := by
  rw [← UInt64.toNat_toBitVec, toBitVec_bigEndian, toNat_shiftAll_bytes]
  simp

/-- What is written denotes the low bits of the number. -/
theorem toNat_bigEndian_intBytes (val : UInt64) {len : ℕ} (hlen : len ≤ 8) :
    (bigEndian (intBytes val len)).toNat = val.toNat % 256 ^ len := by
  have hval := val.toNat_lt
  rw [toNat_bigEndian, unsignedValue, map_toNat_intBytes val hlen, value_digits_mod]
  exact Nat.mod_eq_of_lt (lt_of_le_of_lt (Nat.mod_le _ _) hval)

/-- The two shifts keep the low bits and extend their sign. -/
theorem signExtend_eq {nbytes : ℕ} (hpos : 0 < nbytes) (hbytes : nbytes ≤ 8) (uint : UInt64) :
    signExtend nbytes uint = (uint.toBitVec.setWidth (8 * nbytes)).toInt := by
  have hwidth : 2 ^ 64 = 2 ^ (8 * (8 - nbytes)) * 2 ^ (8 * nbytes) := by
    rw [← pow_add]
    congr 1
    omega
  have heven : 2 ∣ 2 ^ (8 * nbytes) := dvd_pow_self 2 (by omega)
  have hshift := Int.mod_bmod_mul_of_pos (uint.toNat : ℤ) (2 ^ (8 * nbytes))
    (Nat.two_pow_pos (8 * (8 - nbytes))) heven
  rw [signExtend, BitVec.toInt_sshiftRight, BitVec.toInt_shiftLeft, BitVec.toInt_setWidth,
    Nat.shiftLeft_eq, hwidth, Nat.mul_comm, Nat.cast_mul]
  rw [UInt64.toNat_toBitVec, hshift, Int.shiftRight_eq_div_pow]
  exact Int.mul_ediv_cancel_left _ (by positivity)

/-- A signed number is told from the low bits that are written of it. -/
theorem bmod_of_written {val : UInt64} {v : ℤ} {nbytes : ℕ} (hpos : 0 < nbytes)
    (hbytes : nbytes ≤ 8) (hval : (val.toNat : ℤ) = v % 2 ^ 64)
    (hlower : -2 ^ (8 * nbytes - 1) ≤ v) (hupper : v < 2 ^ (8 * nbytes - 1)) :
    Int.bmod (val.toNat % 256 ^ nbytes : ℕ) (2 ^ (8 * nbytes)) = v := by
  have hpow : 256 ^ nbytes = 2 ^ (8 * nbytes) := by
    rw [pow_mul]
    rfl
  have hhalf : (2 : ℤ) ^ (8 * nbytes) = 2 * 2 ^ (8 * nbytes - 1) := by
    rw [← pow_succ']
    congr 1
    omega
  have hcast : ((2 ^ (8 * nbytes) : ℕ) : ℤ) = 2 ^ (8 * nbytes) := by simp
  have hdvd : ((2 ^ (8 * nbytes) : ℕ) : ℤ) ∣ 2 ^ 64 := by
    rw [hcast]
    exact pow_dvd_pow 2 (by omega)
  rw [hpow, Int.natCast_mod, Int.emod_bmod, hval, ← Int.emod_bmod, Int.emod_emod_of_dvd v hdvd,
    Int.emod_bmod]
  apply Int.bmod_eq_of_le
  · omega
  · omega

/-! ## A write and a read -/

/-- The answer to the read, as the history keeps it. -/
def readAnswer (reg : RegInfo) (val : UInt64) : LastRx where
  fc := modbusFcReadHoldingRegs
  sz := reg.nregs * 2 + 1
  pdu := UInt8.ofNat (reg.nregs * 2) :: intBytes val (reg.nregs * 2)

/-- The answer to the write, as the history keeps it. -/
def writeAnswer (reg : RegInfo) : LastRx where
  fc := modbusFcWriteMultipleRegs
  sz := 4
  pdu := wordBytes (UInt16.ofNat reg.addr) ++ countBytes reg.nregs

/-- The accepted responses that are held when the read is sent. -/
def historyAtRead (reg : RegInfo) (lastRx : Ring lastRxHistory LastRx) :
    Ring lastRxHistory LastRx :=
  if lastRx.contains (writeAnswer reg) then lastRx else lastRx.push (writeAnswer reg)

/-- The write of a number. -/
def writeRequest (reg : RegInfo) (val : UInt64) : Request :=
  .write (UInt16.ofNat reg.addr) reg.nregs (intBytes val (reg.nregs * 2))

/-- The slave stores a write: when it answers later requests the registers hold what was
written. -/
def Slave.Stores (slave : Slave) (k : ℕ) : Request → Prop
  | .read _ _ => True
  | .write reg nregs data => ∀ j, k < j → slave.contents j reg nregs = data

/-- The bytes that are read give the number back: its low bits, and, if it was a signed number
of that width, the number itself, to {lit}`read_dbl_from_ups` and to {lit}`UpdateCi`. -/
def Survives (reg : RegInfo) (val : UInt64) (data : Option (List UInt8)) : Prop :=
  ∃ bytes, data = some bytes ∧
    (bigEndian bytes).toNat = val.toNat % 2 ^ (16 * reg.nregs) ∧
    ∀ v : ℤ, (val.toNat : ℤ) = v % 2 ^ 64 → -2 ^ (16 * reg.nregs - 1) ≤ v →
      v < 2 ^ (16 * reg.nregs - 1) →
        (decode { reg with type := .dtInt } bytes).sint = v ∧
          RegInfo.scaled { reg with type := .dtInt } (bigEndian bytes) =
            .finite (v / (2 ^ reg.scale : ℕ))

/-- As a signed number of the width of the register, if it is one, the value is held by a
{lit}`double`. -/
def FitsDouble (reg : RegInfo) (val : UInt64) : Prop :=
  ∀ v : ℤ, (val.toNat : ℤ) = v % 2 ^ 64 → -2 ^ (16 * reg.nregs - 1) ≤ v →
    v < 2 ^ (16 * reg.nregs - 1) → FloatFormat.binary64.Representable (v : ℚ)

/-- Scaling keeps exactly the numbers that a {lit}`double` holds. -/
theorem scaled_eq_iff (v : ℤ) (scale : ℕ) :
    CDouble.finite (FloatFormat.binary64.round (v : ℚ) / (2 ^ scale : ℕ)) =
        .finite (v / (2 ^ scale : ℕ)) ↔ FloatFormat.binary64.Representable (v : ℚ) := by
  have hpow : ((2 ^ scale : ℕ) : ℚ) ≠ 0 := by positivity
  rw [CDouble.finite.injEq, div_left_inj' hpow, FloatFormat.round_eq_self_iff]

/-- What was written is what is read, as a {lit}`double` if it fits. -/
theorem survives_intBytes_iff {reg : RegInfo} (hpos : 0 < reg.nregs) (hnregs : reg.nregs ≤ 4)
    (val : UInt64) :
    Survives reg val (some (intBytes val (reg.nregs * 2))) ↔ FitsDouble reg val := by
  have hpow : 256 ^ (reg.nregs * 2) = 2 ^ (16 * reg.nregs) := by
    rw [Nat.mul_comm 16, show (256 : ℕ) = 2 ^ 8 from rfl, ← pow_mul]
    congr 1
    omega
  have hlow := toNat_bigEndian_intBytes val (by omega : reg.nregs * 2 ≤ 8)
  have hwidth : 8 * (reg.nregs * 2) = 16 * reg.nregs := by omega
  have hsigned (v : ℤ) (hval : (val.toNat : ℤ) = v % 2 ^ 64)
      (hlower : -2 ^ (16 * reg.nregs - 1) ≤ v) (hupper : v < 2 ^ (16 * reg.nregs - 1)) :
      ((bigEndian (intBytes val (reg.nregs * 2))).toBitVec.setWidth
        (8 * (reg.nregs * 2))).toInt = v := by
    rw [BitVec.toInt_setWidth, UInt64.toNat_toBitVec, hlow]
    apply bmod_of_written (by omega) (by omega) hval
    · rw [hwidth]
      exact hlower
    · rw [hwidth]
      exact hupper
  have hextended := signExtend_eq (by omega : 0 < reg.nregs * 2) (by omega)
    (bigEndian (intBytes val (reg.nregs * 2)))
  have hscaled (v : ℤ) (hval : (val.toNat : ℤ) = v % 2 ^ 64)
      (hlower : -2 ^ (16 * reg.nregs - 1) ≤ v) (hupper : v < 2 ^ (16 * reg.nregs - 1)) :
      RegInfo.scaled { reg with type := .dtInt } (bigEndian (intBytes val (reg.nregs * 2))) =
        .finite (v / (2 ^ reg.scale : ℕ)) ↔ FloatFormat.binary64.Representable (v : ℚ) := by
    rw [RegInfo.scaled, if_pos rfl]
    dsimp only
    rw [hextended, hsigned v hval hlower hupper]
    exact scaled_eq_iff v reg.scale
  constructor
  · rintro ⟨_, ⟨rfl⟩, -, hdecoded⟩ v hval hlower hupper
    exact (hscaled v hval hlower hupper).mp (hdecoded v hval hlower hupper).2
  · intro hfits
    refine ⟨_, rfl, hlow.trans (by rw [hpow]), fun v hval hlower hupper => ?_⟩
    exact ⟨hsigned v hval hlower hupper,
      (hscaled v hval hlower hupper).mpr (hfits v hval hlower hupper)⟩

theorem survives_ite_iff {reg : RegInfo} (hpos : 0 < reg.nregs) (hnregs : reg.nregs ≤ 4)
    (val : UInt64) (held : Bool) :
    Survives reg val (if held then none else some (intBytes val (reg.nregs * 2))) ↔
      held = false ∧ FitsDouble reg val := by
  cases held with
  | true => simp [Survives]
  | false => simp [survives_intBytes_iff hpos hnregs val]

/-- Registers of up to three words hold no number with more places than a {lit}`double`. -/
theorem fitsDouble_of_nregs {reg : RegInfo} (hnregs : reg.nregs ≤ 3) (val : UInt64) :
    FitsDouble reg val := by
  intro v _ hlower hupper
  have hpow : (2 : ℤ) ^ (16 * reg.nregs - 1) ≤ 2 ^ 53 :=
    pow_le_pow_right₀ one_le_two (by omega)
  have hv : |v| ≤ 2 ^ 53 := abs_le.mpr ⟨by omega, by omega⟩
  exact FloatFormat.round_eq_self_iff.mp (FloatFormat.round_intCast (by decide) hv)

section Exchanges

variable {slave : Slave} {reg : RegInfo} {val : UInt64} {lastRx : Ring lastRxHistory LastRx}
  {state : SlaveState}

/-- Whether or not its acknowledgement is held, the write is executed. -/
theorem exchange_writeRequest :
    historyAfter slave (writeRequest reg val) lastRx
        (exchange slave lastRx (writeRequest reg val) 3 state).1 = historyAtRead reg lastRx ∧
      state.received <
        (exchange slave lastRx (writeRequest reg val) 3 state).2.received := by
  have hentry (k : ℕ) : slave.entry k (writeRequest reg val) = writeAnswer reg := rfl
  unfold historyAtRead
  simp only [exchange, hentry]
  split_ifs
  · refine ⟨rfl, ?_⟩
    simp only [received_execute]
    omega
  · exact ⟨rfl, Nat.lt_succ_self _⟩

/-- A read of what was written before. -/
theorem exchange_read_of_stores {k : ℕ} (hstores : slave.Stores k (writeRequest reg val))
    (hlater : k < state.received) :
    resultOf slave (.read (UInt16.ofNat reg.addr) reg.nregs)
        (exchange slave lastRx (.read (UInt16.ofNat reg.addr) reg.nregs) 3 state).1 =
      .bytes (if lastRx.contains (readAnswer reg val) then none
        else some (intBytes val (reg.nregs * 2))) := by
  have hcontents : ∀ j, k < j → slave.contents j (UInt16.ofNat reg.addr) reg.nregs =
      intBytes val (reg.nregs * 2) := hstores
  have hentry : ∀ j, k < j →
      slave.entry j (.read (UInt16.ofNat reg.addr) reg.nregs) = readAnswer reg val := by
    intro j hj
    simp only [Slave.entry, Slave.answer, hcontents j hj]
    rfl
  simp only [exchange]
  rw [hentry _ hlater]
  split_ifs with hheld hagain hlast
  · rfl
  · rw [hentry _ (by simp only [received_execute]; omega)] at hlast
    exact absurd hheld hlast
  · rw [hentry _ (by simp only [received_execute]; omega)] at hagain
    exact absurd hheld hagain
  · rw [resultOf, Option.map_some, hcontents _ hlater]

end Exchanges

theorem not_and_of_type {reg : RegInfo} (htype : reg.type ≠ .dtString) :
    ¬ (reg.type ≠ .dtUint ∧ reg.type ≠ .dtInt) := by
  cases hreg : reg.type with
  | dtString => exact absurd hreg htype
  | dtUint => simp
  | dtInt => simp

namespace ModbusComm

variable {W : Type} {t : Transport W} {fuel : ℕ} {comm comm' : ModbusComm} {w w' : W}
  {reg : UInt16} {nregs : ℕ}

theorem writeRegister_of_call {data : List UInt8} {result : CallResult}
    (hcall : comm.call t fuel w (.write reg nregs data) = some (result, comm', w')) :
    ∃ written, comm.writeRegister t fuel reg nregs data w = some (written, comm', w') := by
  obtain ⟨⟨written, comm₁, w₁⟩, hrun, hout⟩ := Option.map_eq_some_iff.mp hcall
  obtain ⟨-, hsame⟩ := Prod.mk.inj hout
  obtain ⟨rfl, rfl⟩ := Prod.mk.inj hsame
  exact ⟨written, hrun⟩

theorem readRegister_of_call {data : Option (List UInt8)}
    (hcall : comm.call t fuel w (.read reg nregs) = some (.bytes data, comm', w')) :
    comm.readRegister t fuel reg nregs w = some (data, comm', w') := by
  obtain ⟨⟨data', comm₁, w₁⟩, hrun, hout⟩ := Option.map_eq_some_iff.mp hcall
  obtain ⟨hdata, hsame⟩ := Prod.mk.inj hout
  obtain ⟨rfl, rfl⟩ := Prod.mk.inj hsame
  obtain rfl := CallResult.bytes.inj hdata
  exact hrun

/-- What the two functions make of the bytes that are read. -/
theorem readFromUps_of_readRegister {reg : RegInfo} (htype : reg.type ≠ .dtString)
    {data : Option (List UInt8)}
    (hread : comm.readRegister t fuel (UInt16.ofNat reg.addr) reg.nregs w =
      some (data, comm', w')) :
    comm.readIntFromUps t fuel reg w = some (data.map bigEndian, comm', w') ∧
      comm.readDblFromUps t fuel reg w =
        some ((data.map bigEndian).map reg.scaled, comm', w') := by
  have hint : comm.readIntFromUps t fuel reg w = some (data.map bigEndian, comm', w') := by
    rw [readIntFromUps, if_neg (not_and_of_type htype), hread]
    rfl
  refine ⟨hint, ?_⟩
  rw [readDblFromUps, hint]
  rfl

end ModbusComm

/-- A number that is written to a slave that stores it comes back, whatever its width and its
sign, exactly if the answer to the read is not held in the history at that time and a
{lit}`double` holds the number. -/
theorem registers_survive_iff {c : Connection} (hprompt : c.Prompt) {fuel : ℕ}
    (hfuel : modbusMaxFrameSz ≤ fuel) {comm : ModbusComm}
    (haddr : comm.slaveaddr = c.slave.address) (hopen : comm.opened = true) {w : c.World}
    {state : SlaveState} (hquiet : c.Quiet w state) {reg : RegInfo}
    (htype : reg.type ≠ .dtString) (hpos : 0 < reg.nregs) (hnregs : reg.nregs ≤ 4)
    (val : UInt64) (hstores : c.slave.Stores state.received (writeRequest reg val)) :
    ∃ written comm₁ w₁ data comm₂ w₂,
      comm.writeIntToUps (c.transport fuel) fuel reg val w = some (written, comm₁, w₁) ∧
      comm₁.readRegister (c.transport fuel) fuel (UInt16.ofNat reg.addr) reg.nregs w₁ =
        some (data, comm₂, w₂) ∧
      comm₁.readIntFromUps (c.transport fuel) fuel reg w₁ =
        some (data.map bigEndian, comm₂, w₂) ∧
      comm₁.readDblFromUps (c.transport fuel) fuel reg w₁ =
        some ((data.map bigEndian).map reg.scaled, comm₂, w₂) ∧
      (Survives reg val data ↔
        (historyAtRead reg comm.lastRx).contains (readAnswer reg val) = false ∧
          FitsDouble reg val) := by
  have hlink := Connection.promptLink hprompt hfuel
  have hfuel₂ : 2 ≤ fuel := le_trans (by decide) hfuel
  have hroom : 15 ≤ c.capacity := by
    cases c with
    | serial slave => exact (by decide : 15 ≤ 254)
    | usb slave => exact (by decide : 15 ≤ modbusUsbReportMaxFrameSize)
  have hsizeWrite : (writeRequest reg val).size ≤ c.capacity := by
    simp only [writeRequest, Request.size]
    omega
  have hsizeRead : (Request.read (UInt16.ofNat reg.addr) reg.nregs).size ≤ c.capacity := by
    simp only [Request.size]
    omega
  obtain ⟨w₁, hwrite, hquiet₁⟩ := ModbusComm.call_eq hlink c.capacity_le haddr hopen
    (show (writeRequest reg val).WellFormed from length_intBytes _ _) hsizeWrite hfuel₂ hquiet
  obtain ⟨hhistory, hlater⟩ := @exchange_writeRequest c.slave reg val comm.lastRx state
  rw [hhistory] at hwrite
  obtain ⟨written, hwritten⟩ := ModbusComm.writeRegister_of_call hwrite
  obtain ⟨w₂, hread, -⟩ := @ModbusComm.call_eq _ _ _ _ _
    (comm.withHistory (historyAtRead reg comm.lastRx))
    (.read (UInt16.ofNat reg.addr) reg.nregs) hlink c.capacity_le haddr hopen trivial hsizeRead
    fuel hfuel₂ _ _ hquiet₁
  rw [exchange_read_of_stores hstores hlater] at hread
  have hbytes := ModbusComm.readRegister_of_call hread
  obtain ⟨hint, hdbl⟩ := ModbusComm.readFromUps_of_readRegister htype hbytes
  refine ⟨written, _, w₁, _, _, w₂, ?_, hbytes, hint, hdbl, ?_⟩
  · rw [ModbusComm.writeIntToUps, if_neg (not_and_of_type htype)]
    exact hwritten
  · exact survives_ite_iff hpos hnregs val _

/-- A slave whose registers hold five. -/
def fiveSlave : Connection :=
  .serial (serialSlave fun _ _ => 5)

/-- A register of one word. -/
def oneWord : RegInfo :=
  ⟨1029, 1, .dtInt, 0⟩

theorem fiveSlave_stores (k : ℕ) : fiveSlave.slave.Stores k (writeRequest oneWord 5) := by
  intro j _
  change fiveSlave.slave.contents 0 (UInt16.ofNat oneWord.addr) oneWord.nregs = _
  decide +kernel

/-- On a newly opened object. -/
theorem registers_survive_five :
    ∃ written comm₁ w₁ data comm₂ w₂,
      (ModbusComm.newOpened 1).writeIntToUps (fiveSlave.transport 256) 256 oneWord 5
        (fiveSlave.idle 0) = some (written, comm₁, w₁) ∧
      comm₁.readRegister (fiveSlave.transport 256) 256 1029 1 w₁ = some (data, comm₂, w₂) ∧
      Survives oneWord 5 data := by
  obtain ⟨written, comm₁, w₁, data, comm₂, w₂, hwrite, hread, -, -, hiff⟩ :=
    @registers_survive_iff fiveSlave (serialSlave_prompt _) 256 le_rfl (ModbusComm.newOpened 1)
      rfl rfl (fiveSlave.idle 0) ⟨0, []⟩ (fiveSlave.quiet_idle 0) oneWord (by decide) (by decide)
      (by decide) 5 (fiveSlave_stores 0)
  exact ⟨written, comm₁, w₁, data, comm₂, w₂, hwrite, hread,
    hiff.mpr ⟨by decide +kernel, fitsDouble_of_nregs (by decide) 5⟩⟩

/-- The register held five before and has been read: writing five again and reading it fails,
since each answer repeats the one that is held. -/
theorem read_after_write_fails :
    (∀ k, fiveSlave.slave.Stores k (writeRequest oneWord 5)) ∧
    ((ModbusComm.newOpened 1).readIntFromUps (fiveSlave.transport 256) 256 oneWord
        (fiveSlave.idle 0)).bind (fun first =>
      (first.2.1.writeIntToUps (fiveSlave.transport 256) 256 oneWord 5 first.2.2).bind
        fun second => (second.2.1.readIntFromUps (fiveSlave.transport 256) 256 oneWord
          second.2.2).map fun third => (first.1, second.1, third.1)) =
      some (some 5, true, none) :=
  ⟨fiveSlave_stores, by decide +kernel⟩

end Apcupsd
