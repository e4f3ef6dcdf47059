import Mathlib.Data.List.Basic
import Mathlib.Data.List.Flatten
import Mathlib.Data.Nat.Notation
import Mathlib.Logic.Function.Iterate
import Mathlib.Tactic.SplitIfs

/-!
# MODBUS frames

The bytes of the requests that {lit}`ReadRegister` and {lit}`WriteRegister` send, of
the answers of a slave, and the checksum of a frame.

Main results:

- Theorem {lit}`crcOk_sealFrame`: a sealed frame passes the checksum test.
- Theorem {lit}`eq_sealFrame_of_crcOk`: a frame that passes it is sealed.
- Theorem {lit}`Request.parse_encode`: a slave that parses an encoded request, whatever
  follows it, gets the request back.
- Theorem {lit}`Slave.length_answer`: an answer has the size its request announces.
-/

namespace Apcupsd

/-! ## Words and bytes -/

/-- The high and the low byte of a word, in the order of the wire. -/
def wordBytes (word : UInt16) : List UInt8 :=
  [(word >>> 8).toUInt8, word.toUInt8]

/-- The low sixteen bits of a count, in the order of the wire. -/
def countBytes (count : ℕ) : List UInt8 :=
  [UInt8.ofNat (count >>> 8), UInt8.ofNat count]

/-- The number in two bytes of the wire. -/
def fromBytes (hi lo : UInt8) : ℕ :=
  hi.toNat * 256 + lo.toNat

theorem fromBytes_word (word : UInt16) :
    UInt16.ofNat (fromBytes (word >>> 8).toUInt8 word.toUInt8) = word := by
  apply UInt16.toNat_inj.mp
  have hlt := word.toNat_lt
  simp only [fromBytes, UInt16.toNat_toUInt8, UInt16.toNat_shiftRight, UInt16.toNat_ofNat',
    Nat.shiftRight_eq_div_pow]
  simp
  omega

theorem fromBytes_count {count : ℕ} (hcount : count < 65536) :
    fromBytes (UInt8.ofNat (count >>> 8)) (UInt8.ofNat count) = count := by
  simp only [fromBytes, UInt8.toNat_ofNat', Nat.shiftRight_eq_div_pow]
  omega

/-! ## The checksum -/

/-- {lit}`MODBUS_CRC_POLY`. -/
def modbusCrcPoly : UInt16 := 0xA001

/-- One round of the inner loop of {lit}`ModbusCrc`. -/
def crcBit (crc : UInt16) : UInt16 :=
  if crc &&& 1 = 1 then (crc >>> 1) ^^^ modbusCrcPoly else crc >>> 1

/-- One round of the outer loop of {lit}`ModbusCrc`. -/
def crcByte (crc : UInt16) (byte : UInt8) : UInt16 :=
  Nat.iterate crcBit 8 (crc ^^^ byte.toUInt16)

/-- {lit}`ModbusCrc`. -/
def modbusCrc (data : List UInt8) : UInt16 :=
  data.foldl crcByte 0xffff

/-- The checksum on the wire, least significant byte first. -/
def crcBytes (data : List UInt8) : List UInt8 :=
  [(modbusCrc data).toUInt8, (modbusCrc data >>> 8).toUInt8]

/-- A frame with its checksum. -/
def sealFrame (body : List UInt8) : List UInt8 :=
  body ++ crcBytes body

/-- The test of the last two bytes of a received frame. -/
def crcOk (frame : List UInt8) : Bool :=
  let crc := modbusCrc (frame.take (frame.length - 2))
  frame.getD (frame.length - 2) 0 == crc.toUInt8 &&
    frame.getD (frame.length - 1) 0 == (crc >>> 8).toUInt8

@[simp] theorem length_sealFrame (body : List UInt8) :
    (sealFrame body).length = body.length + 2 := by
  simp [sealFrame, crcBytes]

theorem take_sealFrame (body : List UInt8) :
    (sealFrame body).take ((sealFrame body).length - 2) = body := by
  simp [sealFrame, crcBytes]

theorem crcOk_sealFrame (body : List UInt8) : crcOk (sealFrame body) = true := by
  unfold crcOk
  rw [take_sealFrame]
  simp [sealFrame, crcBytes]

/-- A frame that passes the checksum test is its sealed body. -/
theorem eq_sealFrame_of_crcOk {frame : List UInt8} (hlength : 2 ≤ frame.length)
    (hcrc : crcOk frame = true) : frame = sealFrame (frame.take (frame.length - 2)) := by
  obtain ⟨body, last, rfl, hlast⟩ :
      ∃ body last : List UInt8, frame = body ++ last ∧ last.length = 2 := by
    refine ⟨frame.take (frame.length - 2), frame.drop (frame.length - 2),
      (List.take_append_drop _ _).symm, ?_⟩
    rw [List.length_drop]
    omega
  obtain ⟨lo, hi, rfl⟩ := List.length_eq_two.mp hlast
  have htake : (body ++ [lo, hi]).take ((body ++ [lo, hi]).length - 2) = body := by simp
  unfold crcOk at hcrc
  rw [htake] at hcrc ⊢
  simp only [List.length_append, List.length_cons, List.length_nil, Bool.and_eq_true,
    beq_iff_eq] at hcrc
  have hlo : (body ++ [lo, hi]).getD body.length 0 = lo := by simp
  have hhi : (body ++ [lo, hi]).getD (body.length + 1) 0 = hi := by simp
  have hcrcLo : lo = (modbusCrc body).toUInt8 := hlo.symm.trans hcrc.1
  have hcrcHi : hi = (modbusCrc body >>> 8).toUInt8 := hhi.symm.trans hcrc.2
  rw [sealFrame, crcBytes, ← hcrcLo, ← hcrcHi]

/-! ## Requests and answers -/

/-- {lit}`MODBUS_FC_READ_HOLDING_REGS`. -/
def modbusFcReadHoldingRegs : UInt8 := 0x03

/-- {lit}`MODBUS_FC_WRITE_MULTIPLE_REGS`. -/
def modbusFcWriteMultipleRegs : UInt8 := 0x10

/-- {lit}`MODBUS_FC_ERROR`, the flag of an exception response. -/
def modbusFcError : UInt8 := 0x80

/-- The requests of the driver. -/
inductive Request where
  | read (reg : UInt16) (nregs : ℕ)
  | write (reg : UInt16) (nregs : ℕ) (data : List UInt8)
  deriving DecidableEq, Repr

namespace Request

def fc : Request → UInt8
  | read _ _ => modbusFcReadHoldingRegs
  | write _ _ _ => modbusFcWriteMultipleRegs

/-- The PDU that {lit}`ReadRegister` and {lit}`WriteRegister` assemble. -/
def pdu : Request → List UInt8
  | read reg nregs => wordBytes reg ++ countBytes nregs
  | write reg nregs data =>
      wordBytes reg ++ countBytes nregs ++ UInt8.ofNat (nregs * 2) :: data.take (nregs * 2)

/-- The size of the answer's PDU that the caller asks {lit}`SendAndWait` for. -/
def rxsz : Request → ℕ
  | read _ nregs => nregs * 2 + 1
  | write _ _ _ => 4

/-- The request without slave address and checksum. -/
def encode (request : Request) : List UInt8 :=
  request.fc :: request.pdu

/-- The caller provides the bytes that are written. -/
def WellFormed : Request → Prop
  | read _ _ => True
  | write _ nregs data => data.length = nregs * 2

instance (request : Request) : Decidable request.WellFormed :=
  match request with
  | read _ _ => inferInstanceAs (Decidable True)
  | write _ nregs data => inferInstanceAs (Decidable (data.length = nregs * 2))

/-- The longer of the request and its answer, with slave address and function code and
without checksum. -/
def size : Request → ℕ
  | read _ nregs => max 6 (nregs * 2 + 3)
  | write _ nregs _ => nregs * 2 + 7

/-- How a slave reads a request; the bytes after it are returned. -/
def parse : List UInt8 → Option (Request × List UInt8)
  | fc :: a :: b :: c :: d :: rest =>
      let reg := UInt16.ofNat (fromBytes a b)
      let nregs := fromBytes c d
      if fc = modbusFcReadHoldingRegs then some (read reg nregs, rest)
      else if fc = modbusFcWriteMultipleRegs then
        match rest with
        | nbytes :: data =>
            if nbytes.toNat = nregs * 2 ∧ nregs * 2 ≤ data.length then
              some (write reg nregs (data.take (nregs * 2)), data.drop (nregs * 2))
            else none
        | [] => none
      else none
  | _ => none

/-- Whatever follows the request on the wire, the slave gets it back. -/
theorem parse_encode {request : Request} (hwell : request.WellFormed)
    (hsize : request.size ≤ 254) (rest : List UInt8) :
    parse (request.encode ++ rest) = some (request, rest) := by
  cases request with
  | read reg nregs =>
      have hnregs : nregs < 65536 := by simp only [size] at hsize; omega
      simp [encode, pdu, fc, wordBytes, countBytes, parse, fromBytes_word,
        fromBytes_count hnregs]
  | write reg nregs data =>
      have hnregs : nregs * 2 < 256 := by simp only [size] at hsize; omega
      have hcount : nregs < 65536 := by omega
      have hlength : data.length = nregs * 2 := hwell
      rw [← hlength] at hnregs
      simp [encode, pdu, fc, wordBytes, countBytes, parse, fromBytes_word,
        fromBytes_count hcount, ← hlength, Nat.mod_eq_of_lt hnregs, modbusFcReadHoldingRegs,
        modbusFcWriteMultipleRegs]

end Request

/-! ## The slave -/

/-- A slave as its requests see it: its address and the register contents at the time of
each answer, by the number of requests received before. -/
structure Slave where
  address : UInt8
  image : ℕ → ℕ → UInt16

/-- What a slave has done so far: how many requests it received, and the writes it
executed, latest first. -/
structure SlaveState where
  received : ℕ
  executed : List Request
  deriving DecidableEq, Repr

/-- The slave has received one more request and executes it if it is a write. -/
def SlaveState.execute (state : SlaveState) (request : Request) : SlaveState where
  received := state.received + 1
  executed :=
    match request with
    | .read _ _ => state.executed
    | .write _ _ _ => request :: state.executed

namespace Slave

/-- The contents of a range of registers when the {lit}`k`-th request is answered. -/
def contents (slave : Slave) (k : ℕ) (reg : UInt16) (nregs : ℕ) : List UInt8 :=
  (List.range nregs).flatMap fun i => wordBytes (slave.image k (reg.toNat + i))

/-- The PDU of the correct answer to the {lit}`k`-th request. -/
def answer (slave : Slave) (k : ℕ) : Request → List UInt8
  | .read reg nregs => UInt8.ofNat (nregs * 2) :: slave.contents k reg nregs
  | .write reg nregs _ => wordBytes reg ++ countBytes nregs

/-- The answer with slave address and function code, without checksum. -/
def reply (slave : Slave) (k : ℕ) (request : Request) : List UInt8 :=
  slave.address :: request.fc :: slave.answer k request

theorem length_contents (slave : Slave) (k : ℕ) (reg : UInt16) (nregs : ℕ) :
    (slave.contents k reg nregs).length = nregs * 2 := by
  simp [contents, wordBytes, List.length_flatMap, List.map_const']

theorem length_answer (slave : Slave) (k : ℕ) (request : Request) :
    (slave.answer k request).length = request.rxsz := by
  cases request with
  | read reg nregs => simp [answer, length_contents, Request.rxsz]
  | write reg nregs data => simp [answer, wordBytes, countBytes, Request.rxsz]

theorem length_reply (slave : Slave) (k : ℕ) (request : Request) :
    (slave.reply k request).length = request.rxsz + 2 := by
  simp [reply, length_answer]

end Slave

end Apcupsd
