import Apcupsd.Modbus.Rs232

/-!
# MODBUS on USB

{lit}`ModbusUsbComm` carries a frame without its checksum in one HID report of 64 bytes.
It waits for silence before it writes a report, recovers the length of a received frame
from its header, and fills in the checksum for the upper layer.

The port is given by the two interrupt transfers; a signal of the watchdog is one of the
interruptions that a read may meet.

Main results:

- Theorems {lit}`UsbLine.modbusTx_quiet` and {lit}`UsbLine.modbusRx_report`: a request
  reaches the slave in one report, and its answer comes back whole.
- Theorem {lit}`UsbLine.promptLink`: a USB port with a prompt slave is a prompt link.
-/

namespace Apcupsd

/-! ## The transfers -/

/-- {lit}`MODBUS_USB_REPORT_SIZE`. -/
def modbusUsbReportSize : ℕ := 64

/-- {lit}`MODBUS_USB_REPORT_MAX_FRAME_SIZE`. -/
def modbusUsbReportMaxFrameSize : ℕ := modbusUsbReportSize - 1

/-- The result of {lit}`InterruptRead`: a report, {lit}`-ETIMEDOUT`, an interruption
({lit}`-EINTR` or {lit}`-EAGAIN`), or another error. -/
inductive HidRead where
  | report (rpt : List UInt8)
  | timedOut
  | interrupted
  | failed
  deriving DecidableEq, Repr

/-- The interrupt transfers of a HID device and the clock. -/
structure HidPort (W : Type) where
  interruptRead : ℕ → W → HidRead × W
  interruptWrite : List UInt8 → W → ℤ × W
  gettimeofday : W → ℕ

/-- The report numbers found by {lit}`Open`. -/
structure ModbusUsbComm where
  rxrpt : UInt8
  txrpt : UInt8
  deriving DecidableEq, Repr

/-- A buffer of the size of a report, filled up with zeros. -/
def reportOf (bytes : List UInt8) : List UInt8 :=
  bytes ++ List.replicate (modbusUsbReportSize - bytes.length) 0

namespace ModbusUsbComm

variable {W : Type} (usb : ModbusUsbComm) (port : HidPort W)

/-- {lit}`GetTod`, in nanoseconds. -/
def getTod (w : W) : ℕ :=
  port.gettimeofday w * 1000

/-- The loop of {lit}`WaitIdle`, with the time of giving up, the time at which the line
counts as idle, and the latest time taken. -/
def waitIdleLoop (exittime : ℕ) : ℕ → ℕ → ℕ → W → Option (Bool × W)
  | 0, _, _, _ => none
  | fuel + 1, target, now, w =>
      if target ≤ exittime then
        let remainMs := if now < target then (target - now + 999999) / 1000000 else 1
        match port.interruptRead remainMs w with
        | (.timedOut, w) => some (true, w)
        | (.failed, w) => some (false, w)
        | (.interrupted, w) => waitIdleLoop exittime fuel target (getTod port w) w
        | (.report rpt, w) =>
            let now := getTod port w
            let target :=
              if rpt.getD 0 0 = usb.rxrpt then now + modbusInterframeTimeoutMs * 1000000
              else target
            waitIdleLoop exittime fuel target now w
      else some (false, w)

/-- {lit}`WaitIdle`. -/
def waitIdle (fuel : ℕ) (w : W) : Option (Bool × W) :=
  let now := getTod port w
  waitIdleLoop usb port (now + modbusIdleWaitTimeoutMs * 1000000) fuel
    (now + modbusInterframeTimeoutMs * 1000000) now w

/-- {lit}`ModbusTx`.  The checksum is not sent. -/
def modbusTx (fuel : ℕ) (frm : List UInt8) (w : W) : Option (Bool × W) :=
  if frm.length - 2 > modbusUsbReportMaxFrameSize then some (false, w)
  else
    match waitIdle usb port fuel w with
    | none => none
    | some (false, w) => some (false, w)
    | some (true, w) =>
        let rpt := reportOf (usb.txrpt :: frm.take (frm.length - 2))
        let result := port.interruptWrite rpt w
        some (result.1 == modbusUsbReportSize, result.2)

/-- The size of the frame in a report, from the header of the PDU. -/
def frmsz (rpt : List UInt8) : Option ℕ :=
  if rpt.getD 2 0 = modbusFcReadHoldingRegs then some ((rpt.getD 3 0).toNat + 3)
  else if rpt.getD 2 0 = modbusFcWriteMultipleRegs then some 6
  else none

/-- The frame in a report, with a checksum for the upper layer. -/
def unpack (rpt : List UInt8) : Option (List UInt8) :=
  match frmsz rpt with
  | none => none
  | some size =>
      if size > modbusUsbReportMaxFrameSize then none
      else some (sealFrame ((rpt.drop 1).take size))

/-- The loop of {lit}`ModbusRx`, with the time at which it gives up. -/
def rxLoop (exittime : ℕ) : ℕ → W → Option (Option (List UInt8) × W)
  | 0, _ => none
  | fuel + 1, w =>
      let timeout := tvDiffMs (port.gettimeofday w) exittime
      if timeout ≤ 0 then some (none, w)
      else
        match port.interruptRead timeout.toNat w with
        | (.timedOut, w) => some (none, w)
        | (.interrupted, w) => rxLoop exittime fuel w
        | (.failed, w) => some (none, w)
        | (.report rpt, w) =>
            if rpt.getD 0 0 ≠ usb.rxrpt then rxLoop exittime fuel w
            else if rpt.length ≠ modbusUsbReportSize then some (none, w)
            else some (unpack rpt, w)

/-- {lit}`ModbusRx`. -/
def modbusRx (fuel : ℕ) (w : W) : Option (Option (List UInt8) × W) :=
  rxLoop usb port (port.gettimeofday w + modbusResponseTimeoutMs * 1000) fuel w

/-- The USB port as a transport. -/
def transport (fuel : ℕ) : Transport W where
  modbusTx := modbusTx usb port fuel
  modbusRx := modbusRx usb port fuel
  gettimeofday := port.gettimeofday

end ModbusUsbComm

/-! ## The healthy line -/

/-- A slave on USB: {lit}`delay k` microseconds after the {lit}`k`-th request the report
with its answer arrives. -/
structure UsbSlave extends Slave where
  reports : ModbusUsbComm
  delay : ℕ → ℕ

/-- The answer arrives within 100 ms. -/
def UsbSlave.Prompt (slave : UsbSlave) : Prop :=
  ∀ k, slave.delay k ≤ 100000

namespace UsbLine

/-- {lit}`InterruptRead` waits for the next report. -/
def interruptRead (timeoutMs : ℕ) (line : Line (List UInt8)) : HidRead × Line (List UInt8) :=
  match line.arriving with
  | [] => (.timedOut, { line with clock := line.clock + timeoutMs * 1000 })
  | (arrival, rpt) :: rest =>
      if arrival ≤ line.clock + timeoutMs * 1000 then
        (.report rpt, { line with clock := max line.clock arrival, arriving := rest })
      else (.timedOut, { line with clock := line.clock + timeoutMs * 1000 })

/-- The slave answers a report that is addressed to it and that it can parse. -/
def receiveReport (slave : UsbSlave) (rpt : List UInt8) : Option Request :=
  if rpt.length = modbusUsbReportSize ∧ rpt.getD 0 0 = slave.reports.txrpt ∧
      rpt.getD 1 0 = slave.address then
    (Request.parse (rpt.drop 2)).map Prod.fst
  else none

/-- {lit}`InterruptWrite` puts a report on the line. -/
def interruptWrite (slave : UsbSlave) (rpt : List UInt8) (line : Line (List UInt8)) :
    ℤ × Line (List UInt8) :=
  match receiveReport slave rpt with
  | none => (rpt.length, line)
  | some request =>
      let k := line.state.received
      let answer := reportOf (slave.reports.rxrpt :: slave.reply k request)
      (rpt.length,
        { line with
          arriving := line.arriving ++ [(line.clock + slave.delay k, answer)]
          state := line.state.execute request })

/-- The transfers on a healthy line. -/
def port (slave : UsbSlave) : HidPort (Line (List UInt8)) where
  interruptRead := interruptRead
  interruptWrite := interruptWrite slave
  gettimeofday := Line.clock

/-- A port whose reads come from the line, whatever its writes do. -/
structure ReadsLine (p : HidPort (Line (List UInt8))) : Prop where
  interruptRead : p.interruptRead = interruptRead
  gettimeofday : p.gettimeofday = Line.clock

theorem readsLine_port (slave : UsbSlave) : ReadsLine (port slave) := ⟨rfl, rfl⟩

/-! ## A prompt link -/

/-- Nothing is on its way to the program. -/
def Quiet (line : Line (List UInt8)) (state : SlaveState) : Prop :=
  line.arriving = [] ∧ line.state = state

theorem length_encode {request : Request} (hwell : request.WellFormed) :
    request.encode.length + 1 ≤ request.size := by
  cases request with
  | read reg nregs =>
      simp [Request.encode, Request.pdu, Request.size, wordBytes, countBytes]
  | write reg nregs data =>
      have hlength : data.length = nregs * 2 := hwell
      simp [Request.encode, Request.pdu, Request.size, wordBytes, countBytes, ← hlength]

theorem length_reply_le (slave : Slave) (k : ℕ) (request : Request) :
    (slave.reply k request).length ≤ request.size := by
  rw [slave.length_reply]
  cases request with
  | read reg nregs =>
      simp only [Request.rxsz, Request.size]
      omega
  | write reg nregs data =>
      simp only [Request.rxsz, Request.size]
      omega

theorem length_reportOf {bytes : List UInt8} (hlength : bytes.length ≤ modbusUsbReportSize) :
    (reportOf bytes).length = modbusUsbReportSize := by
  simp only [reportOf, List.length_append, List.length_replicate]
  omega

/-- The report with an encoded request reaches the slave. -/
theorem receiveReport_reportOf (slave : UsbSlave) {request : Request}
    (hwell : request.WellFormed) (hsize : request.size ≤ modbusUsbReportMaxFrameSize) :
    receiveReport slave (reportOf (slave.reports.txrpt :: slave.address :: request.encode)) =
      some request := by
  have hencode := length_encode hwell
  have hlength : (slave.reports.txrpt :: slave.address :: request.encode).length ≤
      modbusUsbReportSize := by
    simp only [List.length_cons, modbusUsbReportMaxFrameSize, modbusUsbReportSize] at hsize ⊢
    omega
  have hparse := Request.parse_encode hwell (hsize.trans (by decide))
    (List.replicate
      (modbusUsbReportSize - (slave.reports.txrpt :: slave.address :: request.encode).length) 0)
  unfold receiveReport
  rw [if_pos ⟨length_reportOf hlength, rfl, rfl⟩]
  simp only [reportOf, List.cons_append, List.drop_succ_cons, List.drop_zero, hparse,
    Option.map_some]

/-- On a quiet line {lit}`WaitIdle` waits for the silence between two frames. -/
theorem waitIdle_quiet {p : HidPort (Line (List UInt8))} (hp : ReadsLine p)
    (usb : ModbusUsbComm) {line : Line (List UInt8)} (harriving : line.arriving = [])
    {fuel : ℕ} (hfuel : 1 ≤ fuel) :
    usb.waitIdle p fuel line =
      some (true, { line with clock := line.clock + modbusInterframeTimeoutMs * 1000 }) := by
  obtain ⟨fuel, rfl⟩ : ∃ m, fuel = m + 1 := ⟨fuel - 1, by omega⟩
  simp [ModbusUsbComm.waitIdle, ModbusUsbComm.waitIdleLoop, ModbusUsbComm.getTod,
    hp.interruptRead, hp.gettimeofday, interruptRead, harriving, modbusInterframeTimeoutMs,
    modbusIdleWaitTimeoutMs]

/-- On a quiet line {lit}`ModbusTx` sends after that silence. -/
theorem modbusTx_quiet (slave : UsbSlave) {request : Request} {line : Line (List UInt8)}
    {state : SlaveState} (hquiet : Quiet line state) (hwell : request.WellFormed)
    (hsize : request.size ≤ modbusUsbReportMaxFrameSize) {fuel : ℕ} (hfuel : 1 ≤ fuel) :
    slave.reports.modbusTx (port slave) fuel
        (sealFrame (slave.address :: request.encode)) line =
      some (true,
        { clock := line.clock + modbusInterframeTimeoutMs * 1000
          arriving :=
            [(line.clock + modbusInterframeTimeoutMs * 1000 + slave.delay state.received,
              reportOf (slave.reports.rxrpt :: slave.reply state.received request))]
          state := state.execute request }) := by
  rcases hquiet with ⟨harriving, rfl⟩
  have hencode := length_encode hwell
  have hfits : ¬ (sealFrame (slave.address :: request.encode)).length - 2 >
      modbusUsbReportMaxFrameSize := by
    rw [length_sealFrame, List.length_cons]
    omega
  have hlength : (slave.reports.txrpt :: slave.address :: request.encode).length ≤
      modbusUsbReportSize := by
    simp only [List.length_cons, modbusUsbReportMaxFrameSize, modbusUsbReportSize] at hsize ⊢
    omega
  unfold ModbusUsbComm.modbusTx
  rw [if_neg hfits, waitIdle_quiet (readsLine_port slave) slave.reports harriving hfuel,
    take_sealFrame]
  simp [port, interruptWrite, receiveReport_reportOf slave hwell hsize,
    length_reportOf hlength, harriving]

/-- The frame in the report of an answer. -/
theorem unpack_reply (slave : UsbSlave) (k : ℕ) {request : Request}
    (hsize : request.size ≤ modbusUsbReportMaxFrameSize) :
    ModbusUsbComm.unpack (reportOf (slave.reports.rxrpt :: slave.reply k request)) =
      some (sealFrame (slave.reply k request)) := by
  have hlength := slave.length_reply k request
  have hbound := length_reply_le slave.toSlave k request
  have hfrmsz : ModbusUsbComm.frmsz (reportOf (slave.reports.rxrpt :: slave.reply k request)) =
      some (slave.reply k request).length := by
    rw [hlength]
    cases request with
    | read reg nregs =>
        have hbyte : nregs * 2 < 256 := by
          simp only [Request.size, modbusUsbReportMaxFrameSize, modbusUsbReportSize] at hsize
          omega
        simp [ModbusUsbComm.frmsz, reportOf, Slave.reply, Slave.answer, Request.fc,
          Request.rxsz, Nat.mod_eq_of_lt hbyte]
    | write reg nregs data =>
        have hne : modbusFcWriteMultipleRegs ≠ modbusFcReadHoldingRegs := by decide
        simp [ModbusUsbComm.frmsz, reportOf, Slave.reply, Request.fc, Request.rxsz, hne]
  have htake : ((reportOf (slave.reports.rxrpt :: slave.reply k request)).drop 1).take
      (slave.reply k request).length = slave.reply k request := by
    simp [reportOf]
  unfold ModbusUsbComm.unpack
  rw [hfrmsz]
  dsimp only
  rw [if_neg (by omega), htake]

/-- A report that arrives in time is unpacked. -/
theorem modbusRx_arriving {p : HidPort (Line (List UInt8))} (hp : ReadsLine p)
    (usb : ModbusUsbComm) {line : Line (List UInt8)} {arrival : ℕ} {rpt : List UInt8}
    (hid : rpt.getD 0 0 = usb.rxrpt) (hlength : rpt.length = modbusUsbReportSize)
    (harriving : line.arriving = [(arrival, rpt)])
    (hprompt : arrival ≤ line.clock + modbusResponseTimeoutMs * 1000) {fuel : ℕ}
    (hfuel : 1 ≤ fuel) :
    usb.modbusRx p fuel line =
      some (ModbusUsbComm.unpack rpt,
        { line with clock := max line.clock arrival, arriving := [] }) := by
  obtain ⟨fuel, rfl⟩ : ∃ m, fuel = m + 1 := ⟨fuel - 1, by omega⟩
  have htimeout : tvDiffMs line.clock (line.clock + modbusResponseTimeoutMs * 1000) = 1000 :=
    tvDiffMs_add_seconds line.clock 1
  have hread : interruptRead 1000 line =
      (.report rpt, { line with clock := max line.clock arrival, arriving := [] }) := by
    simp only [interruptRead, harriving]
    exact if_pos hprompt
  unfold ModbusUsbComm.modbusRx ModbusUsbComm.rxLoop
  simp only [hp.gettimeofday, hp.interruptRead, htimeout]
  rw [if_neg (by decide)]
  have hms : (1000 : ℤ).toNat = 1000 := rfl
  rw [hms, hread]
  dsimp only
  rw [if_neg (not_not.mpr hid), if_neg (not_not.mpr hlength)]

/-- The answer to a transmitted request comes back whole. -/
theorem modbusRx_report (slave : UsbSlave) {request : Request} {line : Line (List UInt8)}
    {k arrival : ℕ} (hsize : request.size ≤ modbusUsbReportMaxFrameSize)
    (harriving : line.arriving =
      [(arrival, reportOf (slave.reports.rxrpt :: slave.reply k request))])
    (hprompt : arrival ≤ line.clock + modbusResponseTimeoutMs * 1000) {fuel : ℕ}
    (hfuel : 1 ≤ fuel) :
    slave.reports.modbusRx (port slave) fuel line =
      some (some (sealFrame (slave.reply k request)),
        { line with clock := max line.clock arrival, arriving := [] }) := by
  have hlength : (reportOf (slave.reports.rxrpt :: slave.reply k request)).length =
      modbusUsbReportSize := by
    refine length_reportOf ?_
    have hreply := length_reply_le slave.toSlave k request
    simp only [List.length_cons, modbusUsbReportMaxFrameSize, modbusUsbReportSize] at hsize ⊢
    omega
  have hid : (reportOf (slave.reports.rxrpt :: slave.reply k request)).getD 0 0 =
      slave.reports.rxrpt := rfl
  rw [modbusRx_arriving (readsLine_port slave) slave.reports hid hlength harriving hprompt
    hfuel, unpack_reply slave k hsize]

/-- On a quiet line {lit}`ModbusRx` times out. -/
theorem modbusRx_quiet {p : HidPort (Line (List UInt8))} (hp : ReadsLine p)
    (usb : ModbusUsbComm) {line : Line (List UInt8)} (harriving : line.arriving = [])
    {fuel : ℕ} (hfuel : 1 ≤ fuel) :
    usb.modbusRx p fuel line =
      some (none, { line with clock := line.clock + modbusResponseTimeoutMs * 1000 }) := by
  obtain ⟨fuel, rfl⟩ : ∃ m, fuel = m + 1 := ⟨fuel - 1, by omega⟩
  have htimeout : tvDiffMs line.clock (line.clock + modbusResponseTimeoutMs * 1000) = 1000 :=
    tvDiffMs_add_seconds line.clock 1
  unfold ModbusUsbComm.modbusRx ModbusUsbComm.rxLoop
  simp only [hp.gettimeofday, hp.interruptRead, htimeout]
  rw [if_neg (by decide)]
  simp [interruptRead, harriving, modbusResponseTimeoutMs]

/-- A USB port with a prompt slave at the other end is a prompt link. -/
theorem promptLink {slave : UsbSlave} (hprompt : slave.Prompt) {fuel : ℕ} (hfuel : 1 ≤ fuel) :
    PromptLink (slave.reports.transport (port slave) fuel) slave.toSlave
      modbusUsbReportMaxFrameSize Quiet := by
  refine ⟨?_, ?_⟩
  · intro line state request hquiet hwell hsize
    have hdelay := hprompt state.received
    let sent : Line (List UInt8) :=
      { clock := line.clock + modbusInterframeTimeoutMs * 1000
        arriving :=
          [(line.clock + modbusInterframeTimeoutMs * 1000 + slave.delay state.received,
            reportOf (slave.reports.rxrpt :: slave.reply state.received request))]
        state := state.execute request }
    have harrival : sent.clock + slave.delay state.received ≤
        sent.clock + modbusResponseTimeoutMs * 1000 := by
      refine Nat.add_le_add_left (hdelay.trans ?_) _
      decide
    have hrx := @modbusRx_report slave request sent state.received _ hsize rfl harrival fuel
      hfuel
    refine ⟨sent, _, modbusTx_quiet slave hquiet hwell hsize hfuel, hrx, ?_, rfl, rfl⟩
    have hclock : max sent.clock (sent.clock + slave.delay state.received) ≤
        sent.clock + 100 * 1000 :=
      max_le (Nat.le_add_right _ _) (Nat.add_le_add_left hdelay _)
    exact le_trans (tvDiffMs_le hclock) (by decide)
  · intro line state hquiet
    exact ⟨_, modbusRx_quiet (readsLine_port slave) slave.reports hquiet.1 hfuel, hquiet.1,
      hquiet.2⟩

end UsbLine

end Apcupsd
