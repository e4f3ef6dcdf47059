import Mathlib.Data.Int.Basic
import Mathlib.Tactic.SplitIfs
import Apcupsd.Foundations.RecentWindow
import Apcupsd.Modbus.Frame

/-!
# Request and response

{lit}`ModbusComm` sends a request, collects what comes back until a response passes
all its tests, and sends the request again when nothing acceptable came.

The two virtual methods {lit}`ModbusTx` and {lit}`ModbusRx` and the clock are a
{lit}`Transport`.  Loops that are bounded only by the behaviour of the line take fuel;
{lit}`none` says that it ran out.
-/

namespace Apcupsd

/-! ## The clock -/

/-- {lit}`TV_DIFF_MS` of two times in microseconds: the seconds and the microseconds are
subtracted separately, and the division truncates. -/
def tvDiffMs (a b : ℕ) : ℤ :=
  (((b / 1000000 : ℕ) : ℤ) - ((a / 1000000 : ℕ) : ℤ)) * 1000 +
    (((b % 1000000 : ℕ) : ℤ) - ((a % 1000000 : ℕ) : ℤ)).tdiv 1000

theorem tdiv_thousand (x : ℤ) : x.tdiv 1000 = if 0 ≤ x then x / 1000 else -(-x / 1000) := by
  split_ifs with hx
  · exact Int.tdiv_eq_ediv_of_nonneg hx
  · have hneg : (-x).tdiv 1000 = -x / 1000 := Int.tdiv_eq_ediv_of_nonneg (by omega)
    rw [← hneg, Int.neg_tdiv, neg_neg]

/-- The truncation adds less than a millisecond. -/
theorem tvDiffMs_le {a b ms : ℕ} (hb : b ≤ a + ms * 1000) : tvDiffMs a b ≤ ms + 1 := by
  unfold tvDiffMs
  rw [tdiv_thousand]
  split_ifs <;> omega

theorem tvDiffMs_add_seconds (a seconds : ℕ) :
    tvDiffMs a (a + seconds * 1000000) = seconds * 1000 := by
  unfold tvDiffMs
  rw [tdiv_thousand]
  split_ifs <;> omega

/-- What {lit}`ModbusComm` asks of its subclasses. -/
structure Transport (W : Type) where
  modbusTx : List UInt8 → W → Option (Bool × W)
  modbusRx : W → Option (Option (List UInt8) × W)
  gettimeofday : W → ℕ

/-! ## The object -/

/-- {lit}`LAST_RX_HISTORY`. -/
abbrev lastRxHistory : ℕ := 6

instance neZero_lastRxHistory : NeZero lastRxHistory :=
  ⟨Nat.succ_ne_zero 5⟩

/-- {lit}`MODBUS_MAX_PDU_SZ`. -/
def modbusMaxPduSz : ℕ := 252

/-- {lit}`MODBUS_TOTAL_REQUEST_TIMEOUT_MS`. -/
def modbusTotalRequestTimeoutMs : ℤ := 3000

/-- An accepted response as the history keeps it. -/
structure LastRx where
  fc : UInt8
  sz : ℕ
  pdu : List UInt8
  deriving DecidableEq, Repr

/-- The state of a {lit}`ModbusComm`. -/
structure ModbusComm where
  slaveaddr : UInt8
  opened : Bool
  lastRx : Ring lastRxHistory LastRx

namespace ModbusComm

/-- The constructor followed by a successful {lit}`Open`. -/
def newOpened (slaveaddr : UInt8) : ModbusComm where
  slaveaddr := slaveaddr
  opened := true
  lastRx := Ring.empty

/-! ## SendAndWait -/

/-- What {lit}`SendAndWait` makes of a received frame. -/
inductive Verdict where
  | discard
  | exception
  | accept (rxpdu : List UInt8)
  deriving DecidableEq, Repr

/-- The entry of the history for a received frame. -/
def lastRxOf (fc : UInt8) (rxsz : ℕ) (rxfrm : List UInt8) : LastRx where
  fc := fc
  sz := rxsz
  pdu := (rxfrm.drop 2).take rxsz

/-- {lit}`nearDeadline`: a repeated response is taken for real from here on. -/
def nearDeadline (elapsedMs : ℤ) : Bool :=
  elapsedMs > modbusTotalRequestTimeoutMs * 4 / 5

/-- The tests of a received frame, in their order. -/
def judge (comm : ModbusComm) (fc : UInt8) (rxsz : ℕ) (elapsedMs : ℤ)
    (rxfrm : List UInt8) : Verdict :=
  if rxfrm.length < 4 then .discard
  else if !crcOk rxfrm then .discard
  else if rxfrm.getD 0 0 ≠ comm.slaveaddr then .discard
  else if rxfrm.getD 1 0 = fc ||| modbusFcError then .exception
  else if rxfrm.getD 1 0 ≠ fc then .discard
  else if rxfrm.length ≠ rxsz + 4 then .discard
  else if !nearDeadline elapsedMs && comm.lastRx.contains (lastRxOf fc rxsz rxfrm) then .discard
  else .accept (lastRxOf fc rxsz rxfrm).pdu

/-- How the receiving half of an attempt ends. -/
inductive Reception where
  /-- {lit}`ModbusRx` gave up, or the time of the attempt is over. -/
  | nothing
  | exception
  | accepted (rxpdu : List UInt8)
  deriving DecidableEq, Repr

variable {W : Type}

/-- The inner loop of {lit}`SendAndWait`: receive until a frame decides. -/
def receive (t : Transport W) (comm : ModbusComm) (fc : UInt8) (rxsz attemptStart : ℕ) :
    ℕ → W → Option (Reception × W)
  | 0, _ => none
  | fuel + 1, w =>
      match t.modbusRx w with
      | none => none
      | some (none, w) => some (.nothing, w)
      | some (some rxfrm, w) =>
          let elapsedMs := tvDiffMs attemptStart (t.gettimeofday w)
          if elapsedMs > modbusTotalRequestTimeoutMs then some (.nothing, w)
          else
            match comm.judge fc rxsz elapsedMs rxfrm with
            | .discard => receive t comm fc rxsz attemptStart fuel w
            | .exception => some (.exception, w)
            | .accept rxpdu => some (.accepted rxpdu, w)

/-- The outer loop of {lit}`SendAndWait`, with the retries that are left. -/
def transmit (t : Transport W) (fuel : ℕ) (comm : ModbusComm) (fc : UInt8) (rxsz : ℕ)
    (txfrm : List UInt8) : ℕ → W → Option (Option (List UInt8) × ModbusComm × W)
  | retries, w =>
      match t.modbusTx txfrm w with
      | none => none
      | some (false, w) => some (none, comm, w)
      | some (true, w) =>
          match receive t comm fc rxsz (t.gettimeofday w) fuel w with
          | none => none
          | some (.accepted rxpdu, w) =>
              some (some rxpdu, { comm with lastRx := comm.lastRx.push ⟨fc, rxsz, rxpdu⟩ }, w)
          | some (.exception, w) => some (none, comm, w)
          | some (.nothing, w) =>
              match retries with
              | 0 => some (none, comm, w)
              | retries + 1 => transmit t fuel comm fc rxsz txfrm retries w

/-- {lit}`SendAndWait`. -/
def sendAndWait (t : Transport W) (fuel : ℕ) (comm : ModbusComm) (fc : UInt8)
    (txpdu : List UInt8) (rxsz : ℕ) (w : W) : Option (Option (List UInt8) × ModbusComm × W) :=
  if txpdu.length > modbusMaxPduSz || rxsz > modbusMaxPduSz then some (none, comm, w)
  else transmit t fuel comm fc rxsz (sealFrame (comm.slaveaddr :: fc :: txpdu)) 2 w

/-! ## The public methods -/

/-- {lit}`ReadRegister`.  A wrong byte count in the answer is only reported. -/
def readRegister (t : Transport W) (fuel : ℕ) (comm : ModbusComm) (reg : UInt16) (nregs : ℕ)
    (w : W) : Option (Option (List UInt8) × ModbusComm × W) :=
  let request := Request.read reg nregs
  if !comm.opened then some (none, comm, w)
  else
    (sendAndWait t fuel comm request.fc request.pdu request.rxsz w).map fun result =>
      (result.1.map fun rxpdu => (rxpdu.drop 1).take (nregs * 2), result.2)

/-- {lit}`WriteRegister`.  The response has to match the first four bytes of the
command. -/
def writeRegister (t : Transport W) (fuel : ℕ) (comm : ModbusComm) (reg : UInt16) (nregs : ℕ)
    (data : List UInt8) (w : W) : Option (Bool × ModbusComm × W) :=
  let request := Request.write reg nregs data
  if !comm.opened then some (false, comm, w)
  else
    (sendAndWait t fuel comm request.fc request.pdu request.rxsz w).map fun result =>
      (match result.1 with
        | some rxpdu => rxpdu.take 4 == request.pdu.take 4
        | none => false, result.2)

end ModbusComm

end Apcupsd
