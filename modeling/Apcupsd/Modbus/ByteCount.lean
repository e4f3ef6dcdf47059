import Apcupsd.Modbus.Accepted
import Apcupsd.Modbus.Rs232
import Apcupsd.Modbus.Usb

/-!
# The byte count of a read

{lit}`ReadRegister` compares the byte count of the answer with the size that it asked for,
and says so when they differ, but it returns the data all the same.  Over a serial port the
size of a frame does not come from its byte count; over USB it does.

Main results:

- Theorem {lit}`readRegister_wellFormed_iff`: a read returns the data of a well formed answer
  exactly when the frame that it accepts has the right byte count.
- Theorem {lit}`readsWellFormed_usb`: over USB it always has.
-/

namespace Apcupsd

namespace ModbusComm

variable {W : Type} {t : Transport W} {comm comm' : ModbusComm} {call : SendCall}

/-! ## The accepted frame -/

/-- The frame received last came from the transport, within the time of its attempt. -/
def InTime (t : Transport W) (heard : List (ℤ × List UInt8)) : Prop :=
  ∃ elapsedMs rxfrm earlier, heard = (elapsedMs, rxfrm) :: earlier ∧
    elapsedMs ≤ modbusTotalRequestTimeoutMs ∧ ∃ w w', t.modbusRx w = some (some rxfrm, w')

theorem inTime_receive {fc : UInt8} {rxsz fuel : ℕ} {r r' : RecordedWorld W}
    {rxpdu : List UInt8}
    (hrun : receive t.recorded comm fc rxsz r.sentAt fuel r = some (.accepted rxpdu, r')) :
    InTime t r'.heard := by
  induction fuel generalizing r with
  | zero => cases hrun
  | succ fuel ih =>
      rw [receive, modbusRx_recorded] at hrun
      rcases hrx : t.modbusRx r.world with - | ⟨- | rxfrm, w⟩
      · simp [hrx] at hrun
      · simp [hrx] at hrun
      · have hclock : t.recorded.gettimeofday (r.received t w (some rxfrm)) =
            t.gettimeofday w := rfl
        simp only [hrx, Option.map_some, hclock] at hrun
        by_cases htotal : tvDiffMs r.sentAt (t.gettimeofday w) > modbusTotalRequestTimeoutMs
        · simp [htotal] at hrun
        · rw [if_neg htotal] at hrun
          cases hjudge : comm.judge fc rxsz (tvDiffMs r.sentAt (t.gettimeofday w)) rxfrm with
          | discard =>
              simp only [hjudge] at hrun
              exact ih (r := r.received t w (some rxfrm)) hrun
          | exception => simp [hjudge] at hrun
          | accept accepted =>
              simp only [hjudge, Option.some.injEq, Prod.mk.injEq] at hrun
              rcases hrun with ⟨-, rfl⟩
              exact ⟨_, rxfrm, r.heard, rfl, not_lt.mp htotal, r.world, w, hrx⟩

theorem inTime_attempt {fc : UInt8} {rxsz fuel : ℕ} {txfrm rxpdu : List UInt8}
    {again : RecordedWorld W → Option (Option (List UInt8) × ModbusComm × RecordedWorld W)}
    (hagain : ∀ r rxpdu comm' r', again r = some (some rxpdu, comm', r') → InTime t r'.heard)
    {r r' : RecordedWorld W}
    (hrun : attempt t.recorded fuel comm fc rxsz txfrm again r = some (some rxpdu, comm', r')) :
    InTime t r'.heard := by
  rw [attempt, modbusTx_recorded] at hrun
  rcases htx : t.modbusTx txfrm r.world with - | ⟨- | -, w⟩
  · simp [htx] at hrun
  · simp [htx] at hrun
  · have hsent : (r.sent t w).sentAt = t.recorded.gettimeofday (r.sent t w) := rfl
    simp only [htx, Option.map_some, Option.bind_some, if_true] at hrun
    rw [← hsent] at hrun
    rcases hreceive : receive t.recorded comm fc rxsz (r.sent t w).sentAt fuel
        (r.sent t w) with - | ⟨reception, received⟩
    · simp [hreceive] at hrun
    · rw [hreceive, Option.bind_some] at hrun
      cases reception with
      | nothing => exact hagain received rxpdu comm' r' hrun
      | exception => simp [conclude] at hrun
      | accepted accepted =>
          simp only [conclude, Option.some.injEq, Prod.mk.injEq] at hrun
          rcases hrun with ⟨-, -, rfl⟩
          exact inTime_receive hreceive

theorem inTime_transmit {fc : UInt8} {rxsz fuel : ℕ} {txfrm rxpdu : List UInt8} (retries : ℕ)
    {r r' : RecordedWorld W}
    (hrun : transmit t.recorded fuel comm fc rxsz txfrm retries r =
      some (some rxpdu, comm', r')) :
    InTime t r'.heard := by
  induction retries generalizing r rxpdu comm' r' with
  | zero =>
      rw [transmit_zero] at hrun
      exact inTime_attempt (fun r rxpdu comm' r' hgiven => by simp at hgiven) hrun
  | succ retries ih =>
      rw [transmit_succ] at hrun
      exact inTime_attempt (fun r rxpdu comm' r' hgiven => ih hgiven) hrun

/-- The frame that an accepted response came in was in time. -/
theorem inTime_serve {fuel : ℕ} {w w' : W} {rxpdu : List UInt8}
    (hrun : comm.serve t fuel call w = some (some rxpdu, comm', w')) :
    InTime t (comm.heard t fuel call w) := by
  have hrecorded := @sendAndWait_recorded W t comm call fuel ⟨w, 0, []⟩
  rw [hrun] at hrecorded
  rcases Option.map_eq_some_iff.mp hrecorded with ⟨⟨result, after, r'⟩, hout, herase⟩
  simp only [erase, Prod.mk.injEq] at herase
  rcases herase with ⟨rfl, rfl, -⟩
  have hheard : comm.heard t fuel call w = r'.heard := by
    rw [heard, hout]
  rw [hheard]
  simp only [serve, sendAndWait] at hout
  split_ifs at hout with hsize
  · simp at hout
  · exact inTime_transmit 2 hout

/-! ## A read -/

/-- The call that {lit}`ReadRegister` makes. -/
def readCall (reg : UInt16) (nregs : ℕ) : SendCall :=
  let request := Request.read reg nregs
  { fc := request.fc, txpdu := request.pdu, rxsz := request.rxsz }

/-- The frames that a read receives, latest first, each with the time since the request
was sent. -/
def heardByRead (t : Transport W) (fuel : ℕ) (comm : ModbusComm) (reg : UInt16) (nregs : ℕ)
    (w : W) : List (ℤ × List UInt8) :=
  match comm.readRegister t.recorded fuel reg nregs { world := w, sentAt := 0, heard := [] } with
  | some (_, _, r) => r.heard
  | none => []

theorem readRegister_of_opened (hopened : comm.opened = true) (fuel : ℕ) (reg : UInt16)
    (nregs : ℕ) (w : W) :
    comm.readRegister t fuel reg nregs w =
      (comm.serve t fuel (readCall reg nregs) w).map fun out =>
        (out.1.map fun rxpdu => (rxpdu.drop 1).take (nregs * 2), out.2) := by
  simp [readRegister, hopened, serve, readCall]

theorem heardByRead_of_opened (hopened : comm.opened = true) (fuel : ℕ) (reg : UInt16)
    (nregs : ℕ) (w : W) :
    heardByRead t fuel comm reg nregs w = comm.heard t fuel (readCall reg nregs) w := by
  unfold heardByRead heard
  rw [readRegister_of_opened hopened]
  cases comm.serve t.recorded fuel (readCall reg nregs) ⟨w, 0, []⟩ <;> rfl

/-- The read returns data only if the frame that it received last, and did not pass over as
all those before, is a well formed answer with these data. -/
def ReadsWellFormed (t : Transport W) (fuel : ℕ) (comm : ModbusComm) (reg : UInt16)
    (nregs : ℕ) (w : W) : Prop :=
  ∀ data comm' w', comm.readRegister t fuel reg nregs w = some (some data, comm', w') →
    ∃ elapsedMs count earlier,
      heardByRead t fuel comm reg nregs w =
          (elapsedMs, sealFrame (comm.slaveaddr :: modbusFcReadHoldingRegs :: count :: data)) ::
            earlier ∧
        count.toNat = nregs * 2 ∧ data.length = nregs * 2 ∧
          ∀ reading ∈ earlier, comm.PassedOver (readCall reg nregs) reading

/-- A frame that comes in time and passes the tests of {lit}`SendAndWait` has the byte count
that belongs to the size of the read. -/
def RightCount (comm : ModbusComm) (reg : UInt16) (nregs : ℕ) (reading : ℤ × List UInt8) :
    Prop :=
  reading.1 ≤ modbusTotalRequestTimeoutMs →
    ∀ rxpdu, comm.judge (readCall reg nregs).fc (readCall reg nregs).rxsz reading.1 reading.2 =
      .accept rxpdu → (reading.2.getD 2 0).toNat = nregs * 2

/-- An accepted answer consists of its address, the function code, its byte count and the
data. -/
theorem eq_sealFrame_of_accept {reg : UInt16} {nregs : ℕ} {elapsedMs : ℤ}
    {rxfrm rxpdu : List UInt8}
    (hjudge : comm.judge (readCall reg nregs).fc (readCall reg nregs).rxsz elapsedMs rxfrm =
      .accept rxpdu) :
    rxfrm = sealFrame (comm.slaveaddr :: modbusFcReadHoldingRegs :: rxfrm.getD 2 0 ::
        (rxpdu.drop 1).take (nregs * 2)) ∧
      ((rxpdu.drop 1).take (nregs * 2)).length = nregs * 2 := by
  rcases judge_eq_accept_iff.mp hjudge with ⟨hanswers, hfc, -, hpdu⟩
  have hframe : rxfrm = sealFrame (comm.slaveaddr :: modbusFcReadHoldingRegs :: rxpdu) := by
    rw [hpdu]
    exact hanswers.eq_frame
  have hlength : rxpdu.length = nregs * 2 + 1 := by
    rw [hpdu]
    exact (hanswers.wellFormed hfc).length
  cases rxpdu with
  | nil => cases hlength
  | cons count data =>
      have hdata : data.length = nregs * 2 := Nat.succ.inj hlength
      have htake : data.take (nregs * 2) = data := List.take_of_length_le hdata.le
      have hcount : rxfrm.getD 2 0 = count := by
        rw [hframe]
        rfl
      rw [hcount, List.drop_one, List.tail_cons, htake]
      exact ⟨hframe, hdata⟩

/-- Frames are heard only in calls that return. -/
theorem serve_of_heard {fuel : ℕ} {w : W} {reading : ℤ × List UInt8}
    (hmem : reading ∈ comm.heard t fuel call w) :
    ∃ result comm' w', comm.serve t fuel call w = some (result, comm', w') := by
  unfold heard at hmem
  have hrecorded := @sendAndWait_recorded W t comm call fuel ⟨w, 0, []⟩
  cases hserve : comm.serve t.recorded fuel call ⟨w, 0, []⟩ with
  | none => simp [hserve] at hmem
  | some out =>
      rw [hserve] at hrecorded
      exact ⟨_, _, _, hrecorded.symm⟩

/-- A frame that comes in time and passes the tests decides the call. -/
theorem decides_of_accept {reception : Reception} {readings : List (ℤ × List UInt8)}
    (hdecides : Decides comm call reception readings) {reading : ℤ × List UInt8}
    (hmem : reading ∈ readings) (hintime : reading.1 ≤ modbusTotalRequestTimeoutMs)
    {rxpdu : List UInt8}
    (hjudge : comm.judge call.fc call.rxsz reading.1 reading.2 = .accept rxpdu) :
    reception = .accepted rxpdu ∧ readings.head? = some reading := by
  have hnot : ¬ comm.PassedOver call reading := by
    rintro (hlate | hdiscard)
    · omega
    · rw [hjudge] at hdiscard
      cases hdiscard
  cases hdecides with
  | nothing hpassed => exact absurd (hpassed _ hmem) hnot
  | exception hexception hpassed =>
      rcases List.mem_cons.mp hmem with rfl | hearlier
      · rw [hjudge] at hexception
        cases hexception
      · exact absurd (hpassed _ hearlier) hnot
  | accepted haccept hpassed =>
      rcases List.mem_cons.mp hmem with rfl | hearlier
      · rw [hjudge] at haccept
        cases haccept
        exact ⟨rfl, rfl⟩
      · exact absurd (hpassed _ hearlier) hnot

/-- With the right byte count, what a read returns are the data of a well formed answer. -/
theorem readsWellFormed_of_rightCount {fuel : ℕ} {reg : UInt16} {nregs : ℕ} {w : W}
    (hcounts : ∀ reading ∈ heardByRead t fuel comm reg nregs w,
      RightCount comm reg nregs reading) :
    ReadsWellFormed t fuel comm reg nregs w := by
  intro data comm' w' hread
  by_cases hopened : comm.opened = true
  · rw [heardByRead_of_opened hopened] at hcounts ⊢
    rw [readRegister_of_opened hopened] at hread
    rcases Option.map_eq_some_iff.mp hread with ⟨⟨result, after, w₁⟩, hserve, hout⟩
    simp only [Prod.mk.injEq, Option.map_eq_some_iff] at hout
    rcases hout with ⟨⟨rxpdu, rfl, rfl⟩, -, -⟩
    have hintime := inTime_serve hserve
    rcases decides_serve hserve with ⟨reception, hdecides, hresult, -⟩
    generalize comm.heard t fuel (readCall reg nregs) w = readings
      at hdecides hintime hcounts ⊢
    cases hdecides with
    | nothing hpassed => cases hresult
    | exception hjudge hpassed => cases hresult
    | @accepted elapsedMs rxfrm accepted earlier hjudge hpassed =>
        cases hresult
        rcases eq_sealFrame_of_accept hjudge with ⟨hframe, hlength⟩
        rcases hintime with ⟨_, _, _, hheard, helapsed, -⟩
        cases hheard
        have hcount := hcounts _ List.mem_cons_self helapsed _ hjudge
        refine ⟨elapsedMs, rxfrm.getD 2 0, earlier, ?_, hcount, hlength, hpassed⟩
        rw [← hframe]
  · simp [readRegister, hopened] at hread

/-- A frame with another byte count, once accepted, shows in what the read returns. -/
theorem rightCount_of_readsWellFormed {fuel : ℕ} {reg : UInt16} {nregs : ℕ} {w : W}
    (hreads : ReadsWellFormed t fuel comm reg nregs w) {reading : ℤ × List UInt8}
    (hmem : reading ∈ heardByRead t fuel comm reg nregs w) :
    RightCount comm reg nregs reading := by
  intro hintime rxpdu hjudge
  by_cases hopened : comm.opened = true
  · unfold ReadsWellFormed at hreads
    rw [heardByRead_of_opened hopened] at hmem hreads
    rw [readRegister_of_opened hopened] at hreads
    rcases serve_of_heard hmem with ⟨result, comm', w', hserve⟩
    rcases decides_serve hserve with ⟨reception, hdecides, rfl, -⟩
    rcases decides_of_accept hdecides hmem hintime hjudge with ⟨rfl, hhead⟩
    rcases hreads _ comm' w' (by rw [hserve]; rfl) with
      ⟨elapsedMs, count, earlier, hheard, hcount, -⟩
    rw [hheard, List.head?_cons, Option.some.injEq] at hhead
    rw [← hhead]
    exact hcount
  · simp [heardByRead, readRegister, hopened] at hmem

/-- A read returns data only from well formed answers, if and only if the frame that it
accepts, should there be one, has the right byte count. -/
theorem readRegister_wellFormed_iff (t : Transport W) (fuel : ℕ) (comm : ModbusComm)
    (reg : UInt16) (nregs : ℕ) (w : W) :
    ReadsWellFormed t fuel comm reg nregs w ↔
      ∀ reading ∈ heardByRead t fuel comm reg nregs w, RightCount comm reg nregs reading :=
  ⟨fun hreads _ hmem => rightCount_of_readsWellFormed hreads hmem, readsWellFormed_of_rightCount⟩

end ModbusComm

/-! ## USB -/

namespace ModbusUsbComm

variable {W : Type} (usb : ModbusUsbComm) (port : HidPort W)

/-- A received frame is unpacked from a full report. -/
theorem rxLoop_eq_some {exittime fuel : ℕ} {w w' : W} {rxfrm : List UInt8}
    (hrun : rxLoop usb port exittime fuel w = some (some rxfrm, w')) :
    ∃ rpt : List UInt8, rpt.length = modbusUsbReportSize ∧ unpack rpt = some rxfrm := by
  induction fuel generalizing w with
  | zero => cases hrun
  | succ fuel ih =>
      unfold rxLoop at hrun
      dsimp only at hrun
      split_ifs at hrun with htimeout
      · simp at hrun
      · cases hread : port.interruptRead (tvDiffMs (port.gettimeofday w) exittime).toNat w with
        | mk read after =>
            rw [hread] at hrun
            cases read with
            | timedOut => simp at hrun
            | interrupted => exact ih hrun
            | failed => simp at hrun
            | report rpt =>
                dsimp only at hrun
                split_ifs at hrun with hother hsize
                · exact ih hrun
                · simp at hrun
                · simp only [Option.some.injEq, Prod.mk.injEq] at hrun
                  exact ⟨rpt, not_not.mp hsize, hrun.1⟩

/-- The size of a frame that answers a read comes from its byte count. -/
theorem unpack_count {rpt rxfrm : List UInt8} (hrpt : rpt.length = modbusUsbReportSize)
    (hunpack : unpack rpt = some rxfrm) (hfc : rxfrm.getD 1 0 = modbusFcReadHoldingRegs) :
    rxfrm.length = (rxfrm.getD 2 0).toNat + 5 := by
  have hbytes : ∃ report address fc count rest, rpt = report :: address :: fc :: count :: rest := by
    rcases rpt with - | ⟨report, - | ⟨address, - | ⟨fc, - | ⟨count, rest⟩⟩⟩⟩
    · cases hrpt
    · cases hrpt
    · cases hrpt
    · cases hrpt
    · exact ⟨report, address, fc, count, rest, rfl⟩
  rcases hbytes with ⟨report, address, fc, count, rest, rfl⟩
  have hrest : rest.length = 60 := by
    simpa [modbusUsbReportSize] using hrpt
  unfold unpack frmsz at hunpack
  simp only [List.getD_cons_succ, List.getD_cons_zero, List.drop_succ_cons,
    List.drop_zero] at hunpack
  by_cases hread : fc = modbusFcReadHoldingRegs
  · rw [if_pos hread] at hunpack
    dsimp only at hunpack
    split_ifs at hunpack with hlong
    have htake : (address :: fc :: count :: rest).take (count.toNat + 3) =
        address :: fc :: count :: rest.take count.toNat := rfl
    rw [htake, Option.some.injEq] at hunpack
    have hshort : count.toNat ≤ rest.length := by
      simp only [modbusUsbReportMaxFrameSize, modbusUsbReportSize] at hlong
      omega
    rw [← hunpack, length_sealFrame]
    simp [sealFrame, hshort]
  · rw [if_neg hread] at hunpack
    split_ifs at hunpack with hwrite
    dsimp only at hunpack
    split_ifs at hunpack with hlong
    have htake : (address :: fc :: count :: rest).take 6 =
        address :: fc :: count :: rest.take 3 := rfl
    rw [htake, Option.some.injEq] at hunpack
    rw [← hunpack] at hfc
    exact absurd hfc hread

end ModbusUsbComm

/-- Over USB a read returns data only from well formed answers. -/
theorem ModbusComm.readsWellFormed_usb {W : Type} (usb : ModbusUsbComm) (port : HidPort W)
    (rxFuel fuel : ℕ) (comm : ModbusComm) (reg : UInt16) (nregs : ℕ) (w : W) :
    ReadsWellFormed (usb.transport port rxFuel) fuel comm reg nregs w := by
  apply readsWellFormed_of_rightCount
  intro reading hmem hintime rxpdu hjudge
  by_cases hopened : comm.opened = true
  · rw [heardByRead_of_opened hopened] at hmem
    rcases serve_of_heard hmem with ⟨result, comm', w', hserve⟩
    rcases decides_serve hserve with ⟨reception, hdecides, rfl, -⟩
    rcases decides_of_accept hdecides hmem hintime hjudge with ⟨rfl, hhead⟩
    rcases inTime_serve hserve with ⟨_, rxfrm, _, hheard, -, before, after, hrx⟩
    rw [hheard, List.head?_cons, Option.some.injEq] at hhead
    subst hhead
    rcases usb.rxLoop_eq_some port hrx with ⟨rpt, hrpt, hunpack⟩
    rcases judge_eq_accept_iff.mp hjudge with ⟨hanswers, -⟩
    have hlength := ModbusUsbComm.unpack_count hrpt hunpack hanswers.fc
    dsimp only
    have hsize : rxfrm.length = nregs * 2 + 1 + 4 := hanswers.length
    omega
  · simp [heardByRead, readRegister, hopened] at hmem

/-! ## Examples of runs -/

/-- A serial port on which the listed characters arrive at once, whatever is written; where
the list says {lit}`none` the line is silent until {lit}`select` gives up. -/
def scriptedSerial : SerialPort (List (Option (List UInt8))) where
  select _ w :=
    match w with
    | [] => (.timeout, [])
    | none :: rest => (.timeout, rest)
    | some _ :: _ => (.ready, w)
  read size w :=
    match w with
    | some characters :: rest => (some (characters.take size), rest)
    | _ => (none, w)
  write frm w := (some frm.length, w)
  gettimeofday _ := 0

/-- One register is asked for, and the answer has room for one but says that it brings two:
its data are returned. -/
theorem ModbusComm.readRegister_wrongCount :
    ¬ ReadsWellFormed (ModbusRs232Comm.transport scriptedSerial 5) 5 (newOpened 1) 0 1
      [none, some (sealFrame [0x01, 0x03, 0x04, 0x00, 0x2A])] := by
  intro hreads
  have hrun : ((newOpened 1).readRegister (ModbusRs232Comm.transport scriptedSerial 5) 5 0 1
      [none, some (sealFrame [0x01, 0x03, 0x04, 0x00, 0x2A])]).map Prod.fst =
        some (some [0x00, 0x2A]) := by
    decide +kernel
  have hframes : (heardByRead (ModbusRs232Comm.transport scriptedSerial 5) 5 (newOpened 1) 0 1
      [none, some (sealFrame [0x01, 0x03, 0x04, 0x00, 0x2A])]).map Prod.snd =
        [sealFrame [0x01, 0x03, 0x04, 0x00, 0x2A]] := by
    decide +kernel
  rcases Option.map_eq_some_iff.mp hrun with ⟨⟨result, comm', w'⟩, hread, hresult⟩
  dsimp only at hresult
  rw [hresult] at hread
  rcases hreads _ _ _ hread with ⟨elapsedMs, count, earlier, hheard, hcount, -⟩
  rw [hheard, List.map_cons, List.cons.injEq] at hframes
  have hfour : count = 4 := congrArg (fun frame => List.getD frame 2 0) hframes.1
  rw [hfour] at hcount
  cases hcount

end Apcupsd
