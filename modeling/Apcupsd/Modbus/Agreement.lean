import Apcupsd.Modbus.Usb
import Apcupsd.Modbus.Accepted

/-!
# The two transports compared

A slave answers the transmissions of one {lit}`SendAndWait` with one frame, or leaves
them unanswered.  On a serial line the frame arrives with its checksum; on USB it arrives
in a report, from which {lit}`ModbusRx` takes as many bytes as its header announces.

Main results:

- Theorem {lit}`Answering.transmit_eq`: over either transport the outer loop of
  {lit}`SendAndWait` refines an abstract series of tries.
- Theorem {lit}`SlaveReply.unpack_report`: what is left of a frame that came in a report.
- Theorem {lit}`transports_agree_iff`: when a reply ends a call in the same way over both
  transports.
- Theorem {lit}`exception_reply`: an exception ends a call over a serial line only.
-/

namespace Apcupsd

/-! ## A series of tries -/

namespace ModbusComm

variable {W : Type} {t : Transport W} {comm : ModbusComm} {call : SendCall}

/-- What an attempt makes of the one frame it receives, well before its deadline. -/
def reception (comm : ModbusComm) (call : SendCall) : Option (List UInt8) → Reception
  | none => .nothing
  | some rxfrm =>
      match comm.judge call.fc call.rxsz 0 rxfrm with
      | .discard => .nothing
      | .exception => .exception
      | .accept rxpdu => .accepted rxpdu

/-- A number of transmissions from the {lit}`k`-th on, with what each of them comes to: the
result and the number of the next transmission. -/
def tries (outcome : ℕ → Reception) : ℕ → ℕ → Option (List UInt8) × ℕ
  | 0, k => (none, k)
  | attempts + 1, k =>
      match outcome k with
      | .nothing => tries outcome attempts (k + 1)
      | .exception => (none, k + 1)
      | .accepted rxpdu => (some rxpdu, k + 1)

theorem lt_tries_snd (outcome : ℕ → Reception) (attempts k : ℕ) :
    k < (tries outcome (attempts + 1) k).2 := by
  induction attempts generalizing k with
  | zero =>
      simp only [tries]
      cases outcome k <;> simp
  | succ attempts ih =>
      rw [tries]
      cases outcome k with
      | nothing => exact Nat.lt_trans (Nat.lt_succ_self k) (ih (k + 1))
      | exception => exact Nat.lt_succ_self k
      | accepted rxpdu => exact Nat.lt_succ_self k

/-- When no transmission comes to anything, all are made. -/
theorem tries_nothing {outcome : ℕ → Reception} {attempts k : ℕ}
    (hnothing : ∀ j < attempts, outcome (k + j) = .nothing) :
    tries outcome attempts k = (none, k + attempts) := by
  induction attempts generalizing k with
  | zero => rfl
  | succ attempts ih =>
      have hfirst : outcome k = .nothing := hnothing 0 (Nat.succ_pos attempts)
      have hrest : ∀ j < attempts, outcome (k + 1 + j) = .nothing := by
        intro j hj
        rw [Nat.add_assoc, Nat.add_comm 1 j]
        exact hnothing (j + 1) (Nat.succ_lt_succ hj)
      simp only [tries, hfirst]
      rw [ih hrest, Nat.add_assoc, Nat.add_comm 1 attempts]

/-- What is made of a frame that either is accepted or passes unnoticed. -/
def ofResult : Option (List UInt8) → Reception
  | some rxpdu => .accepted rxpdu
  | none => .nothing

/-- The first answer that is accepted is the result. -/
theorem tries_ofResult_fst (result : Option (List UInt8)) {answered : ℕ → Bool}
    {attempts k j : ℕ} (hj : j < attempts) (hanswered : answered (k + j) = true) :
    (tries (fun k => if answered k then ofResult result else .nothing) attempts k).1 =
      result := by
  induction attempts generalizing k j with
  | zero => omega
  | succ attempts ih =>
      cases result with
      | none =>
          rw [tries_nothing]
          intro i hi
          cases answered (k + i) <;> rfl
      | some rxpdu =>
          cases hfirst : answered k with
          | true => simp [tries, hfirst, ofResult]
          | false =>
              cases j with
              | zero => simp [hfirst] at hanswered
              | succ j =>
                  have hnext : answered (k + 1 + j) = true := by
                    rw [Nat.add_assoc, Nat.add_comm 1 j]
                    exact hanswered
                  simpa [tries, hfirst] using ih (Nat.lt_of_succ_lt_succ hj) hnext

/-- Two answers end a series of tries in the same way if they are the same, or if there is
no answer. -/
theorem tries_ofResult_eq_iff {first second : Option (List UInt8)} {answered : ℕ → Bool}
    {attempts : ℕ} :
    tries (fun k => if answered k then ofResult first else .nothing) attempts 0 =
        tries (fun k => if answered k then ofResult second else .nothing) attempts 0 ↔
      (∀ k < attempts, answered k = false) ∨ first = second := by
  constructor
  · intro hsame
    by_cases hanswered : ∃ k < attempts, answered k = true
    · obtain ⟨k, hk, hanswer⟩ := hanswered
      have hzero : answered (0 + k) = true := by rwa [Nat.zero_add]
      right
      rw [← tries_ofResult_fst first hk hzero, hsame, tries_ofResult_fst second hk hzero]
    · left
      intro k hk
      by_contra hanswer
      exact hanswered ⟨k, hk, by simpa using hanswer⟩
  · rintro (hunanswered | rfl)
    · have hnothing : ∀ result : Option (List UInt8), ∀ j < attempts,
          (if answered (0 + j) then ofResult result else Reception.nothing) = .nothing := by
        intro result j hj
        rw [Nat.zero_add, hunanswered j hj]
        rfl
      rw [tries_nothing (hnothing first), tries_nothing (hnothing second)]
    · rfl

/-- {lit}`SendAndWait` does not even begin. -/
def Refused (call : SendCall) : Prop :=
  modbusMaxPduSz < call.txpdu.length ∨ modbusMaxPduSz < call.rxsz

instance (call : SendCall) : Decidable (Refused call) :=
  inferInstanceAs (Decidable (_ ∨ _))

theorem serve_refused (hrefused : Refused call) (fuel : ℕ) (w : W) :
    comm.serve t fuel call w = some (none, comm, w) := by
  unfold serve sendAndWait
  rw [if_pos]
  simpa [Refused] using hrefused

theorem serve_of_not_refused (hrefused : ¬ Refused call) (fuel : ℕ) (w : W) :
    comm.serve t fuel call w =
      transmit t fuel comm call.fc call.rxsz
        (sealFrame (comm.slaveaddr :: call.fc :: call.txpdu)) 2 w := by
  unfold serve sendAndWait
  rw [if_neg]
  simpa [Refused] using hrefused

/-- Well before the deadline the time does not matter. -/
theorem judge_early {elapsedMs : ℤ} (helapsed : elapsedMs ≤ 2400) (rxfrm : List UInt8) :
    comm.judge call.fc call.rxsz elapsedMs rxfrm = comm.judge call.fc call.rxsz 0 rxfrm := by
  have hnear : nearDeadline elapsedMs = false := by
    apply decide_eq_false
    simp only [modbusTotalRequestTimeoutMs]
    omega
  have hzero : nearDeadline 0 = false := by decide
  unfold judge
  rw [hnear, hzero]

end ModbusComm

/-! ## Answered transmissions -/

/-- A transport on which each transmission is answered with what {lit}`rx` says, or not at
all.  {lit}`Quiet` says that nothing is on the way and how often was transmitted. -/
structure Answering {W : Type} (t : Transport W) (txfrm : List UInt8)
    (rx : Option (List UInt8)) (answered : ℕ → Bool) (Quiet : W → ℕ → Prop) : Prop where
  answers : ∀ {w : W} {k : ℕ}, Quiet w k → answered k = true → ∃ w₁ w₂,
    t.modbusTx txfrm w = some (true, w₁) ∧ t.modbusRx w₁ = some (rx, w₂) ∧
      tvDiffMs (t.gettimeofday w₁) (t.gettimeofday w₂) ≤ 2400 ∧ Quiet w₂ (k + 1)
  ignores : ∀ {w : W} {k : ℕ}, Quiet w k → answered k = false → ∃ w₁,
    t.modbusTx txfrm w = some (true, w₁) ∧ Quiet w₁ (k + 1)
  silent : ∀ {w : W} {k : ℕ}, Quiet w k →
    ∃ w', t.modbusRx w = some (none, w') ∧ Quiet w' k

namespace Answering

variable {W : Type} {t : Transport W} {txfrm : List UInt8} {rx : Option (List UInt8)}
  {answered : ℕ → Bool} {Quiet : W → ℕ → Prop} {comm : ModbusComm} {call : SendCall}

/-- What the {lit}`k`-th transmission comes to. -/
def outcome (comm : ModbusComm) (call : SendCall) (rx : Option (List UInt8))
    (answered : ℕ → Bool) (k : ℕ) : ModbusComm.Reception :=
  if answered k then comm.reception call rx else .nothing

/-- One attempt: the answer decides, or the line stays silent. -/
theorem receive_eq (hlink : Answering t txfrm rx answered Quiet) {w : W} {k : ℕ}
    (hquiet : Quiet w k) {fuel : ℕ} (hfuel : 2 ≤ fuel) :
    ∃ w₁ w₂, t.modbusTx txfrm w = some (true, w₁) ∧
      comm.receive t call.fc call.rxsz (t.gettimeofday w₁) fuel w₁ =
        some (outcome comm call rx answered k, w₂) ∧ Quiet w₂ (k + 1) := by
  obtain ⟨fuel, rfl⟩ : ∃ m, fuel = m + 2 := ⟨fuel - 2, by omega⟩
  cases hanswered : answered k with
  | false =>
      obtain ⟨w₁, htx, hquiet₁⟩ := hlink.ignores hquiet hanswered
      obtain ⟨w₂, hsilent, hquiet₂⟩ := hlink.silent hquiet₁
      refine ⟨w₁, w₂, htx, ?_, hquiet₂⟩
      simp [ModbusComm.receive, hsilent, outcome, hanswered]
  | true =>
      obtain ⟨w₁, w₂, htx, hrx, helapsed, hquiet₂⟩ := hlink.answers hquiet hanswered
      cases rx with
      | none =>
          refine ⟨w₁, w₂, htx, ?_, hquiet₂⟩
          simp [ModbusComm.receive, hrx, outcome, hanswered, ModbusComm.reception]
      | some rxfrm =>
          have htotal : ¬ tvDiffMs (t.gettimeofday w₁) (t.gettimeofday w₂) >
              modbusTotalRequestTimeoutMs := by
            simp only [modbusTotalRequestTimeoutMs]
            omega
          obtain ⟨w₃, hsilent, hquiet₃⟩ := hlink.silent hquiet₂
          have hearly := @ModbusComm.judge_early comm call _ helapsed rxfrm
          cases hjudge : comm.judge call.fc call.rxsz 0 rxfrm with
          | discard =>
              refine ⟨w₁, w₃, htx, ?_, hquiet₃⟩
              simp [ModbusComm.receive, hrx, if_neg htotal, hearly, hjudge, hsilent, outcome,
                hanswered, ModbusComm.reception]
          | exception =>
              refine ⟨w₁, w₂, htx, ?_, hquiet₂⟩
              simp [ModbusComm.receive, hrx, if_neg htotal, hearly, hjudge, outcome,
                hanswered, ModbusComm.reception]
          | accept rxpdu =>
              refine ⟨w₁, w₂, htx, ?_, hquiet₂⟩
              simp [ModbusComm.receive, hrx, if_neg htotal, hearly, hjudge, outcome,
                hanswered, ModbusComm.reception]

/-- One transmission and what follows it. -/
theorem attempt_eq (hlink : Answering t txfrm rx answered Quiet) {fuel : ℕ}
    (hfuel : 2 ≤ fuel) {again : W → Option (Option (List UInt8) × ModbusComm × W)}
    {attempts k : ℕ} {w : W} (hquiet : Quiet w k)
    (hagain : ∀ w, Quiet w (k + 1) → ∃ w', again w =
        some ((ModbusComm.tries (outcome comm call rx answered) attempts (k + 1)).1,
          comm.remember call
            (ModbusComm.tries (outcome comm call rx answered) attempts (k + 1)).1, w') ∧
      Quiet w' (ModbusComm.tries (outcome comm call rx answered) attempts (k + 1)).2) :
    ∃ w', comm.attempt t fuel call.fc call.rxsz txfrm again w =
        some ((ModbusComm.tries (outcome comm call rx answered) (attempts + 1) k).1,
          comm.remember call
            (ModbusComm.tries (outcome comm call rx answered) (attempts + 1) k).1, w') ∧
      Quiet w' (ModbusComm.tries (outcome comm call rx answered) (attempts + 1) k).2 := by
  obtain ⟨w₁, w₂, htx, hreceive, hquiet₂⟩ :=
    @receive_eq W t txfrm rx answered Quiet comm call hlink w k hquiet fuel hfuel
  simp only [ModbusComm.attempt, htx, Option.bind_some, if_true, hreceive, ModbusComm.tries]
  cases outcome comm call rx answered k with
  | nothing => exact hagain w₂ hquiet₂
  | exception => exact ⟨w₂, rfl, hquiet₂⟩
  | accepted rxpdu => exact ⟨w₂, rfl, hquiet₂⟩

/-- The outer loop refines the series of tries. -/
theorem transmit_eq (hlink : Answering t txfrm rx answered Quiet) {fuel : ℕ}
    (hfuel : 2 ≤ fuel) (retries : ℕ) {w : W} {k : ℕ} (hquiet : Quiet w k) :
    ∃ w', comm.transmit t fuel call.fc call.rxsz txfrm retries w =
        some ((ModbusComm.tries (outcome comm call rx answered) (retries + 1) k).1,
          comm.remember call
            (ModbusComm.tries (outcome comm call rx answered) (retries + 1) k).1, w') ∧
      Quiet w' (ModbusComm.tries (outcome comm call rx answered) (retries + 1) k).2 := by
  induction retries generalizing w k with
  | zero =>
      rw [ModbusComm.transmit_zero]
      exact hlink.attempt_eq hfuel hquiet fun w hquiet => ⟨w, rfl, hquiet⟩
  | succ retries ih =>
      rw [ModbusComm.transmit_succ]
      exact hlink.attempt_eq hfuel hquiet fun w hquiet => ih hquiet

end Answering

/-! ## The reply of a slave -/

/-- A frame of a slave without its checksum, which fits in a report. -/
structure SlaveReply where
  address : UInt8
  fc : UInt8
  pdu : List UInt8
  fits : pdu.length + 2 ≤ modbusUsbReportMaxFrameSize

/-- The bytes of the reply. -/
def SlaveReply.frame (reply : SlaveReply) : List UInt8 :=
  reply.address :: reply.fc :: reply.pdu

/-- Which transmissions are answered, and how long after each of them the characters and
the report arrive, in microseconds.  A report has the response timeout, which on a serial
line is the time of the first character; the others follow within the inter-character
timeout. -/
structure Schedule where
  answered : ℕ → Bool
  offset : ℕ → ℕ → ℕ
  delay : ℕ → ℕ
  first : ∀ k, offset k 0 ≤ modbusResponseTimeoutMs * 1000
  flow : ∀ k i, offset k (i + 1) ≤ offset k i + modbusIntercharTimeoutMs * 1000
  whole : ∀ k i, i < modbusMaxFrameSz → offset k i ≤ 2000000
  prompt : ∀ k, delay k ≤ modbusResponseTimeoutMs * 1000

namespace Line

variable {α : Type}

/-- A line on which nothing has happened yet. -/
def idle (clock : ℕ) : Line α where
  clock := clock
  arriving := []
  state := ⟨0, []⟩

/-- Something has been transmitted, and an answer is on its way. -/
def answering (line : Line α) (answer : List (ℕ × α)) : Line α :=
  { line with
    arriving := line.arriving ++ answer
    state := { line.state with received := line.state.received + 1 } }

/-- Nothing is on its way, and so much has been transmitted. -/
def Transmitted (line : Line α) (k : ℕ) : Prop :=
  line.arriving = [] ∧ line.state.received = k

theorem transmitted_idle (clock : ℕ) : (idle clock : Line α).Transmitted 0 := ⟨rfl, rfl⟩

end Line

namespace SerialLine

/-- A slave that answers with the characters of the sealed frame. -/
def answeringPort (reply : SlaveReply) (schedule : Schedule) : SerialPort (Line UInt8) where
  select := select
  read := read
  write frm line :=
    (some frm.length, line.answering
      (if schedule.answered line.state.received then
        timed (schedule.offset line.state.received) line.clock 0 (sealFrame reply.frame)
      else []))
  gettimeofday := Line.clock

theorem readsLine_answeringPort (reply : SlaveReply) (schedule : Schedule) :
    ReadsLine (answeringPort reply schedule) := ⟨rfl, rfl, rfl⟩

theorem length_sealFrame_lt (reply : SlaveReply) :
    (sealFrame reply.frame).length < modbusMaxFrameSz := by
  have hfits := reply.fits
  simp only [length_sealFrame, SlaveReply.frame, List.length_cons, modbusMaxFrameSz,
    modbusUsbReportMaxFrameSize, modbusUsbReportSize] at hfits ⊢
  omega

/-- {lit}`ModbusTx` always sends. -/
theorem modbusTx_answering (reply : SlaveReply) (schedule : Schedule) (txfrm : List UInt8)
    {line : Line UInt8} {k : ℕ} (hquiet : line.Transmitted k) {fuel : ℕ} (hfuel : 1 ≤ fuel) :
    ModbusRs232Comm.modbusTx (answeringPort reply schedule) fuel txfrm line =
      some (true,
        { clock := line.clock + modbusInterframeTimeoutMs * 1000
          arriving :=
            if schedule.answered k then
              timed (schedule.offset k) (line.clock + modbusInterframeTimeoutMs * 1000) 0
                (sealFrame reply.frame)
            else []
          state := { line.state with received := k + 1 } }) := by
  rcases hquiet with ⟨harriving, rfl⟩
  unfold ModbusRs232Comm.modbusTx
  rw [modbusWaitIdle_quiet (readsLine_answeringPort reply schedule) harriving hfuel]
  simp [answeringPort, Line.answering, harriving]

/-- Over a serial line the frame comes with its checksum. -/
theorem answering (reply : SlaveReply) (schedule : Schedule) (txfrm : List UInt8) {fuel : ℕ}
    (hfuel : modbusMaxFrameSz ≤ fuel) :
    Answering (ModbusRs232Comm.transport (answeringPort reply schedule) fuel) txfrm
      (some (sealFrame reply.frame)) schedule.answered Line.Transmitted := by
  have hone : 1 ≤ fuel := le_trans (by decide) hfuel
  have hreads := readsLine_answeringPort reply schedule
  refine ⟨?_, ?_, ?_⟩
  · intro line k hquiet hanswered
    have htx := modbusTx_answering reply schedule txfrm hquiet hone
    rw [if_pos hanswered] at htx
    have hframe : sealFrame reply.frame ≠ [] := by simp [sealFrame, SlaveReply.frame]
    obtain ⟨clock, hrx, hbound⟩ := @modbusRx_timed _ hreads _ (schedule.first k)
      (schedule.flow k) (schedule.whole k)
      { clock := line.clock + modbusInterframeTimeoutMs * 1000
        arriving := timed (schedule.offset k)
          (line.clock + modbusInterframeTimeoutMs * 1000) 0 (sealFrame reply.frame)
        state := { line.state with received := k + 1 } }
      _ _ hframe (length_sealFrame_lt reply) rfl rfl fuel hfuel
    exact ⟨_, _, htx, hrx, le_trans (tvDiffMs_le hbound) (by decide), rfl, rfl⟩
  · intro line k hquiet hanswered
    have htx := modbusTx_answering reply schedule txfrm hquiet hone
    rw [if_neg (by simp [hanswered])] at htx
    exact ⟨_, htx, rfl, rfl⟩
  · intro line k hquiet
    exact ⟨_, modbusRx_quiet hreads hquiet.1 hone, hquiet.1, hquiet.2⟩

end SerialLine

namespace UsbLine

/-- The report in which a reply comes. -/
def reportFor (usb : ModbusUsbComm) (reply : SlaveReply) : List UInt8 :=
  reportOf (usb.rxrpt :: reply.frame)

/-- A slave that answers with a report. -/
def answeringPort (usb : ModbusUsbComm) (reply : SlaveReply) (schedule : Schedule) :
    HidPort (Line (List UInt8)) where
  interruptRead := interruptRead
  interruptWrite rpt line :=
    (rpt.length, line.answering
      (if schedule.answered line.state.received then
        [(line.clock + schedule.delay line.state.received, reportFor usb reply)]
      else []))
  gettimeofday := Line.clock

theorem readsLine_answeringPort (usb : ModbusUsbComm) (reply : SlaveReply) (schedule : Schedule) :
    ReadsLine (answeringPort usb reply schedule) := ⟨rfl, rfl⟩

theorem length_reportFor (usb : ModbusUsbComm) (reply : SlaveReply) :
    (reportFor usb reply).length = modbusUsbReportSize := by
  apply length_reportOf
  have hfits := reply.fits
  simp only [SlaveReply.frame, List.length_cons, modbusUsbReportMaxFrameSize,
    modbusUsbReportSize] at hfits ⊢
  omega

/-- {lit}`ModbusTx` sends what fits in a report. -/
theorem modbusTx_answering (usb : ModbusUsbComm) (reply : SlaveReply) (schedule : Schedule)
    {body : List UInt8} (hbody : body.length ≤ modbusUsbReportMaxFrameSize)
    {line : Line (List UInt8)} {k : ℕ} (hquiet : line.Transmitted k) {fuel : ℕ}
    (hfuel : 1 ≤ fuel) :
    usb.modbusTx (answeringPort usb reply schedule) fuel (sealFrame body) line =
      some (true,
        { clock := line.clock + modbusInterframeTimeoutMs * 1000
          arriving :=
            if schedule.answered k then
              [(line.clock + modbusInterframeTimeoutMs * 1000 + schedule.delay k,
                reportFor usb reply)]
            else []
          state := { line.state with received := k + 1 } }) := by
  rcases hquiet with ⟨harriving, rfl⟩
  have hfits : ¬ (sealFrame body).length - 2 > modbusUsbReportMaxFrameSize := by
    rw [length_sealFrame]
    omega
  have hlength : (reportOf (usb.txrpt :: body)).length = modbusUsbReportSize := by
    apply length_reportOf
    simp only [List.length_cons, modbusUsbReportMaxFrameSize, modbusUsbReportSize] at hbody ⊢
    omega
  unfold ModbusUsbComm.modbusTx
  rw [if_neg hfits, waitIdle_quiet (readsLine_answeringPort usb reply schedule) usb harriving
    hfuel, take_sealFrame]
  simp [answeringPort, Line.answering, harriving, hlength]

/-- Over USB the frame is what can be unpacked from the report. -/
theorem answering (usb : ModbusUsbComm) (reply : SlaveReply) (schedule : Schedule)
    {body : List UInt8} (hbody : body.length ≤ modbusUsbReportMaxFrameSize) {fuel : ℕ}
    (hfuel : 1 ≤ fuel) :
    Answering (usb.transport (answeringPort usb reply schedule) fuel) (sealFrame body)
      (ModbusUsbComm.unpack (reportFor usb reply)) schedule.answered Line.Transmitted := by
  have hreads := readsLine_answeringPort usb reply schedule
  refine ⟨?_, ?_, ?_⟩
  · intro line k hquiet hanswered
    have htx := modbusTx_answering usb reply schedule hbody hquiet hfuel
    rw [if_pos hanswered] at htx
    let sent : Line (List UInt8) :=
      { clock := line.clock + modbusInterframeTimeoutMs * 1000
        arriving := [(line.clock + modbusInterframeTimeoutMs * 1000 + schedule.delay k,
          reportFor usb reply)]
        state := { line.state with received := k + 1 } }
    have hprompt : sent.clock + schedule.delay k ≤ sent.clock + modbusResponseTimeoutMs * 1000 :=
      Nat.add_le_add_left (schedule.prompt k) _
    have hrx := @modbusRx_arriving _ hreads usb sent _ _ rfl (length_reportFor usb reply) rfl
      hprompt fuel hfuel
    have hclock : max sent.clock (sent.clock + schedule.delay k) ≤ sent.clock + 1000 * 1000 :=
      max_le (Nat.le_add_right _ _) hprompt
    exact ⟨sent, _, htx, hrx, le_trans (tvDiffMs_le hclock) (by decide), rfl, rfl⟩
  · intro line k hquiet hanswered
    have htx := modbusTx_answering usb reply schedule hbody hquiet hfuel
    rw [if_neg (by simp [hanswered])] at htx
    exact ⟨_, htx, rfl, rfl⟩
  · intro line k hquiet
    exact ⟨_, modbusRx_quiet hreads usb hquiet.1 hfuel, hquiet.1, hquiet.2⟩

end UsbLine

/-! ## What is left of a reply -/

namespace SlaveReply

/-- The size of the PDU that {lit}`ModbusRx` takes from the header in a report. -/
def announced (reply : SlaveReply) : Option ℕ :=
  if reply.fc = modbusFcReadHoldingRegs then some ((reply.pdu.getD 0 0).toNat + 1)
  else if reply.fc = modbusFcWriteMultipleRegs then some 4
  else none

/-- The PDU that comes out of a report: cut off, or filled up with zeros, to the announced
size. -/
def delivered (reply : SlaveReply) : Option (List UInt8) :=
  match reply.announced with
  | none => none
  | some size =>
      if size + 2 ≤ modbusUsbReportMaxFrameSize then
        some ((reply.pdu ++ List.replicate (61 - reply.pdu.length) 0).take size)
      else none

/-- The sealed frame of a slave with another PDU. -/
def sealed (reply : SlaveReply) (pdu : List UInt8) : List UInt8 :=
  sealFrame (reply.address :: reply.fc :: pdu)

theorem frmsz_reportFor (usb : ModbusUsbComm) (reply : SlaveReply) :
    ModbusUsbComm.frmsz (UsbLine.reportFor usb reply) = reply.announced.map (· + 2) := by
  have hfc : (UsbLine.reportFor usb reply).getD 2 0 = reply.fc := rfl
  have hcount : (UsbLine.reportFor usb reply).getD 3 0 = reply.pdu.getD 0 0 := by
    rcases hpdu : reply.pdu with - | ⟨count, rest⟩
    · simp [UsbLine.reportFor, reportOf, frame, hpdu, modbusUsbReportSize]
    · simp [UsbLine.reportFor, reportOf, frame, hpdu]
  unfold ModbusUsbComm.frmsz announced
  rw [hfc, hcount]
  split_ifs <;> rfl

theorem unpack_report (usb : ModbusUsbComm) (reply : SlaveReply) :
    ModbusUsbComm.unpack (UsbLine.reportFor usb reply) = reply.delivered.map reply.sealed := by
  have hfits := reply.fits
  unfold ModbusUsbComm.unpack delivered
  rw [frmsz_reportFor]
  cases reply.announced with
  | none => rfl
  | some size =>
      dsimp only [Option.map_some]
      by_cases hsize : size + 2 ≤ modbusUsbReportMaxFrameSize
      · rw [if_neg (not_lt.mpr hsize), if_pos hsize]
        simp only [modbusUsbReportMaxFrameSize, modbusUsbReportSize] at hfits
        have hfill : modbusUsbReportSize - (usb.rxrpt :: reply.frame).length =
            61 - reply.pdu.length := by
          simp only [frame, List.length_cons, modbusUsbReportSize]
          omega
        rw [UsbLine.reportFor, reportOf, hfill]
        simp [frame, sealed]
      · rw [if_pos (not_le.mp hsize), if_neg hsize]
        rfl

/-- The report delivers the PDU unchanged if and only if its header announces its length. -/
theorem delivered_eq_pdu_iff (reply : SlaveReply) :
    reply.delivered = some reply.pdu ↔ reply.announced = some reply.pdu.length := by
  have hfits := reply.fits
  have hcapacity : modbusUsbReportMaxFrameSize = 63 := rfl
  unfold delivered
  cases reply.announced with
  | none => simp
  | some size =>
      simp only [Option.some.injEq]
      constructor
      · intro hdelivered
        by_cases hsize : size + 2 ≤ modbusUsbReportMaxFrameSize
        · rw [if_pos hsize] at hdelivered
          have hlength := congrArg List.length (Option.some.inj hdelivered)
          simp only [List.length_take, List.length_append, List.length_replicate] at hlength
          omega
        · rw [if_neg hsize] at hdelivered
          cases hdelivered
      · rintro rfl
        rw [if_pos hfits]
        simp

end SlaveReply

/-! ## What becomes of a reply -/

namespace ModbusComm

variable {comm : ModbusComm} {call : SendCall} {reply : SlaveReply}

/-- A PDU of the expected size that is not held in the history. -/
def Wants (comm : ModbusComm) (call : SendCall) (pdu : List UInt8) : Prop :=
  pdu.length = call.rxsz ∧ comm.lastRx.contains ⟨call.fc, call.rxsz, pdu⟩ = false

instance (comm : ModbusComm) (call : SendCall) (pdu : List UInt8) :
    Decidable (comm.Wants call pdu) :=
  inferInstanceAs (Decidable (_ ∧ _))

/-- The reply raises an exception for the request. -/
def Raises (comm : ModbusComm) (call : SendCall) (reply : SlaveReply) : Prop :=
  reply.address = comm.slaveaddr ∧ reply.fc = call.fc ||| modbusFcError

/-- The PDU that is accepted when a reply comes with the given PDU. -/
def taken (comm : ModbusComm) (call : SendCall) (reply : SlaveReply)
    (pdu : Option (List UInt8)) : Option (List UInt8) :=
  pdu.filter fun pdu =>
    reply.address = comm.slaveaddr ∧ reply.fc = call.fc ∧ comm.Wants call pdu

theorem judge_sealed (hraises : ¬ comm.Raises call reply) (pdu : List UInt8) :
    comm.judge call.fc call.rxsz 0 (reply.sealed pdu) =
      if reply.address = comm.slaveaddr ∧ reply.fc = call.fc ∧ comm.Wants call pdu then
        .accept pdu
      else .discard := by
  have hlength : (reply.sealed pdu).length = pdu.length + 4 := by simp [SlaveReply.sealed]
  have hpdu : pdu.length = call.rxsz →
      lastRxOf call.fc call.rxsz (reply.sealed pdu) = ⟨call.fc, call.rxsz, pdu⟩ := by
    intro hsize
    simp [lastRxOf, SlaveReply.sealed, sealFrame, ← hsize]
  split_ifs with hwanted
  · obtain ⟨haddress, hfc, hsize, hfresh⟩ := hwanted
    apply judge_eq_accept_iff.mpr
    refine ⟨⟨by omega, crcOk_sealFrame _, haddress, hfc⟩, ?_, ?_, ?_⟩
    · rw [← hfc]
      intro hexception
      exact hraises ⟨haddress, by rwa [← hfc]⟩
    · rw [hpdu hsize]
      exact fun _ => hfresh
    · rw [hpdu hsize]
  · cases hjudge : comm.judge call.fc call.rxsz 0 (reply.sealed pdu) with
    | discard => rfl
    | exception =>
        obtain ⟨-, -, haddress, hfc⟩ := judge_eq_exception_iff.mp hjudge
        exact absurd ⟨haddress, hfc⟩ hraises
    | accept rxpdu =>
        obtain ⟨⟨hsize, -, haddress, hfc⟩, -, hfresh, -⟩ := judge_eq_accept_iff.mp hjudge
        have hsize' : pdu.length = call.rxsz := by omega
        rw [hpdu hsize'] at hfresh
        exact absurd ⟨haddress, hfc, hsize', hfresh (by decide)⟩ hwanted

/-- Unless it raises an exception, a reply is taken or passes unnoticed. -/
theorem reception_sealed (hraises : ¬ comm.Raises call reply) (pdu : Option (List UInt8)) :
    comm.reception call (pdu.map reply.sealed) = ofResult (comm.taken call reply pdu) := by
  cases pdu with
  | none => rfl
  | some pdu =>
      simp only [Option.map_some, reception, judge_sealed hraises, taken, Option.filter_some,
        decide_eq_true_eq]
      split_ifs <;> rfl

/-- Both transports take the same from the reply. -/
def Alike (comm : ModbusComm) (call : SendCall) (reply : SlaveReply) : Prop :=
  reply.address ≠ comm.slaveaddr ∨ reply.fc ≠ call.fc ∨
    reply.announced = some reply.pdu.length ∨
      (¬ comm.Wants call reply.pdu ∧
        ∀ pdu, reply.delivered = some pdu → ¬ comm.Wants call pdu)

theorem taken_eq_some_iff {pdu : Option (List UInt8)} {rxpdu : List UInt8} :
    comm.taken call reply pdu = some rxpdu ↔
      pdu = some rxpdu ∧ reply.address = comm.slaveaddr ∧ reply.fc = call.fc ∧
        comm.Wants call rxpdu := by
  simp [taken, Option.filter_eq_some_iff]

theorem taken_eq_iff :
    comm.taken call reply (some reply.pdu) = comm.taken call reply reply.delivered ↔
      comm.Alike call reply := by
  constructor
  · intro hsame
    by_contra halike
    simp only [Alike, not_or, not_not, not_and, not_forall] at halike
    obtain ⟨haddress, hfc, hannounced, hwanted⟩ := halike
    have hchanged : reply.delivered ≠ some reply.pdu := by
      rwa [Ne, reply.delivered_eq_pdu_iff]
    by_cases hwants : comm.Wants call reply.pdu
    · have htaken := taken_eq_some_iff.mpr
        (⟨rfl, haddress, hfc, hwants⟩ : some reply.pdu = some reply.pdu ∧ _)
      rw [hsame] at htaken
      exact hchanged (taken_eq_some_iff.mp htaken).1
    · obtain ⟨pdu, hdelivered, hwants'⟩ := hwanted hwants
      have htaken := taken_eq_some_iff.mpr ⟨hdelivered, haddress, hfc, hwants'⟩
      rw [← hsame] at htaken
      obtain ⟨hpdu, -⟩ := taken_eq_some_iff.mp htaken
      rw [← hpdu] at hdelivered
      exact hchanged hdelivered
  · rintro (haddress | hfc | hannounced | ⟨hunwanted, hdelivered⟩)
    · simp [taken, haddress]
    · simp [taken, hfc]
    · rw [reply.delivered_eq_pdu_iff.mpr hannounced]
    · ext rxpdu
      simp only [taken_eq_some_iff, Option.some.injEq]
      constructor
      · rintro ⟨rfl, -, -, hwants⟩
        exact absurd hwants hunwanted
      · rintro ⟨hpdu, -, -, hwants⟩
        exact absurd hwants (hdelivered rxpdu hpdu)

/-! ## One call over each transport -/

/-- The result, the object and the number of transmissions of a call over a serial line. -/
def overRs232 (comm : ModbusComm) (call : SendCall) (reply : SlaveReply) (schedule : Schedule)
    (fuel clock : ℕ) : Option (Option (List UInt8) × ModbusComm × ℕ) :=
  (comm.serve (ModbusRs232Comm.transport (SerialLine.answeringPort reply schedule) fuel) fuel
    call (Line.idle clock)).map fun out => (out.1, out.2.1, out.2.2.state.received)

/-- The same over USB. -/
def overUsb (usb : ModbusUsbComm) (comm : ModbusComm) (call : SendCall) (reply : SlaveReply)
    (schedule : Schedule) (fuel clock : ℕ) : Option (Option (List UInt8) × ModbusComm × ℕ) :=
  (comm.serve (usb.transport (UsbLine.answeringPort usb reply schedule) fuel) fuel
    call (Line.idle clock)).map fun out => (out.1, out.2.1, out.2.2.state.received)

/-- The end of a call after a series of tries. -/
def ending (comm : ModbusComm) (call : SendCall) (tried : Option (List UInt8) × ℕ) :
    Option (List UInt8) × ModbusComm × ℕ :=
  (tried.1, comm.remember call tried.1, tried.2)

theorem ending_injective : Function.Injective (comm.ending call) := by
  rintro ⟨result, count⟩ ⟨result', count'⟩ hsame
  simp only [ending, Prod.mk.injEq] at hsame
  exact Prod.ext hsame.1 hsame.2.2

section Calls

variable (usb : ModbusUsbComm) (schedule : Schedule) (clock : ℕ) {fuel : ℕ}

theorem overRs232_refused (hrefused : Refused call) :
    comm.overRs232 call reply schedule fuel clock = some (none, comm, 0) := by
  rw [overRs232, serve_refused hrefused]
  rfl

theorem overUsb_refused (hrefused : Refused call) :
    comm.overUsb usb call reply schedule fuel clock = some (none, comm, 0) := by
  rw [overUsb, serve_refused hrefused]
  rfl

theorem overRs232_eq (hrefused : ¬ Refused call) (hfuel : modbusMaxFrameSz ≤ fuel) :
    comm.overRs232 call reply schedule fuel clock =
      some (comm.ending call (tries (Answering.outcome comm call
        (some (reply.sealed reply.pdu)) schedule.answered) 3 0)) := by
  have hlink := SerialLine.answering reply schedule
    (sealFrame (comm.slaveaddr :: call.fc :: call.txpdu)) hfuel
  obtain ⟨line, hrun, -, hcount⟩ := @Answering.transmit_eq _ _ _ _ _ _ comm call hlink fuel
    (le_trans (by decide) hfuel) 2 (Line.idle clock) 0 (Line.transmitted_idle clock)
  rw [overRs232, serve_of_not_refused hrefused, hrun, Option.map_some, hcount]
  rfl

theorem overUsb_eq (hrefused : ¬ Refused call)
    (hfits : call.txpdu.length + 2 ≤ modbusUsbReportMaxFrameSize)
    (hfuel : modbusMaxFrameSz ≤ fuel) :
    comm.overUsb usb call reply schedule fuel clock =
      some (comm.ending call (tries (Answering.outcome comm call
        (reply.delivered.map reply.sealed) schedule.answered) 3 0)) := by
  have hbody : (comm.slaveaddr :: call.fc :: call.txpdu).length ≤
      modbusUsbReportMaxFrameSize := by
    simp only [List.length_cons]
    omega
  have hlink := @UsbLine.answering usb reply schedule _ hbody fuel (le_trans (by decide) hfuel)
  rw [SlaveReply.unpack_report] at hlink
  obtain ⟨line, hrun, -, hcount⟩ := @Answering.transmit_eq _ _ _ _ _ _ comm call hlink fuel
    (le_trans (by decide) hfuel) 2 (Line.idle clock) 0 (Line.transmitted_idle clock)
  rw [overUsb, serve_of_not_refused hrefused, hrun, Option.map_some, hcount]
  rfl

/-- A request that does not fit in a report is not sent at all. -/
theorem overUsb_of_long (hrefused : ¬ Refused call)
    (hlong : modbusUsbReportMaxFrameSize < call.txpdu.length + 2) :
    comm.overUsb usb call reply schedule fuel clock = some (none, comm, 0) := by
  have hlength : (sealFrame (comm.slaveaddr :: call.fc :: call.txpdu)).length - 2 >
      modbusUsbReportMaxFrameSize := by
    simp only [length_sealFrame, List.length_cons]
    omega
  rw [overUsb, serve_of_not_refused hrefused, transmit_succ, attempt]
  simp only [ModbusUsbComm.transport, ModbusUsbComm.modbusTx]
  rw [if_pos hlength]
  rfl

/-- One call over a serial line and one over USB, with the same history and a reply that
raises no exception, end with the same result, history and number of transmissions if and
only if the request is refused, or it fits in a report and either no transmission is
answered or both transports take the same from the reply. -/
theorem transports_agree_iff (hfuel : modbusMaxFrameSz ≤ fuel)
    (hraises : ¬ comm.Raises call reply) :
    ∃ serial hid, comm.overRs232 call reply schedule fuel clock = some serial ∧
      comm.overUsb usb call reply schedule fuel clock = some hid ∧
        (serial = hid ↔ Refused call ∨
          (call.txpdu.length + 2 ≤ modbusUsbReportMaxFrameSize ∧
            ((∀ k < 3, schedule.answered k = false) ∨ comm.Alike call reply))) := by
  by_cases hrefused : Refused call
  · refine ⟨_, _, overRs232_refused schedule clock hrefused,
      overUsb_refused usb schedule clock hrefused, ?_⟩
    simp [hrefused]
  · have hserial := @overRs232_eq comm call reply schedule clock fuel hrefused hfuel
    by_cases hfits : call.txpdu.length + 2 ≤ modbusUsbReportMaxFrameSize
    · refine ⟨_, _, hserial, overUsb_eq usb schedule clock hrefused hfits hfuel, ?_⟩
      have houtcome : ∀ pdu : Option (List UInt8),
          Answering.outcome comm call (pdu.map reply.sealed) schedule.answered =
            fun k => if schedule.answered k then ofResult (comm.taken call reply pdu)
              else .nothing := by
        intro pdu
        funext k
        rw [Answering.outcome, reception_sealed hraises]
      have hpdu : some (reply.sealed reply.pdu) = (some reply.pdu).map reply.sealed := rfl
      rw [ending_injective.eq_iff, hpdu, houtcome, houtcome, tries_ofResult_eq_iff,
        taken_eq_iff]
      simp [hrefused, hfits]
    · refine ⟨_, _, hserial, overUsb_of_long usb schedule clock hrefused (not_le.mp hfits), ?_⟩
      simp only [hrefused, hfits, false_and, or_self, iff_false]
      intro hsame
      have hcount : (tries (Answering.outcome comm call (some (reply.sealed reply.pdu))
          schedule.answered) 3 0).2 = 0 := congrArg (fun out => out.2.2) hsame
      have hsent := lt_tries_snd (Answering.outcome comm call
        (some (reply.sealed reply.pdu)) schedule.answered) 2 0
      exact absurd hcount (Nat.ne_of_gt hsent)

/-- An exception ends a call over a serial line after one transmission; over USB it passes
unnoticed, and the request is transmitted three times. -/
theorem exception_reply (hfuel : modbusMaxFrameSz ≤ fuel) (hrefused : ¬ Refused call)
    (hfits : call.txpdu.length + 2 ≤ modbusUsbReportMaxFrameSize)
    (hraises : comm.Raises call reply) (hanswered : schedule.answered 0 = true) :
    comm.overRs232 call reply schedule fuel clock = some (none, comm, 1) ∧
      comm.overUsb usb call reply schedule fuel clock = some (none, comm, 3) := by
  constructor
  · have hjudge : comm.judge call.fc call.rxsz 0 (reply.sealed reply.pdu) = .exception :=
      judge_eq_exception_iff.mpr
        ⟨by simp [SlaveReply.sealed], crcOk_sealFrame _, hraises.1, hraises.2⟩
    rw [overRs232_eq schedule clock hrefused hfuel]
    simp [tries, Answering.outcome, hanswered, reception, hjudge, ending, remember]
  · have hflag : 128 ≤ reply.fc.toNat := by
      rw [hraises.2, UInt8.toNat_or]
      exact Nat.right_le_or
    have hannounced : reply.announced = none := by
      unfold SlaveReply.announced
      rw [if_neg, if_neg]
      · intro hfc
        rw [hfc] at hflag
        exact absurd hflag (by decide)
      · intro hfc
        rw [hfc] at hflag
        exact absurd hflag (by decide)
    have hnothing : Answering.outcome comm call (reply.delivered.map reply.sealed)
        schedule.answered = fun _ => .nothing := by
      funext k
      simp [Answering.outcome, SlaveReply.delivered, hannounced, reception]
    rw [overUsb_eq usb schedule clock hrefused hfits hfuel, hnothing,
      tries_nothing (fun _ _ => rfl)]
    rfl

end Calls

/-! ## Examples of runs -/

/-- Every transmission is answered, and the answer is complete after 25 ms. -/
def atOnce : Schedule where
  answered _ := true
  offset _ _ := 0
  delay _ := 25000
  first _ := Nat.zero_le _
  flow _ _ := Nat.zero_le _
  whole _ _ _ := Nat.zero_le _
  prompt _ := by decide

/-- The contents of one register. -/
def oneRegister : SlaveReply where
  address := 1
  fc := modbusFcReadHoldingRegs
  pdu := [0x02, 0x12, 0x34]
  fits := by decide

/-- The same with a byte too many. -/
def spareByte : SlaveReply where
  address := 1
  fc := modbusFcReadHoldingRegs
  pdu := [0x02, 0x12, 0x34, 0x00]
  fits := by decide

/-- A write of 29 registers. -/
def longWrite : SendCall where
  fc := modbusFcWriteMultipleRegs
  txpdu := (Request.write 0x0400 29 (List.replicate 58 0x20)).pdu
  rxsz := 4

/-- The answer to it. -/
def written : SlaveReply where
  address := 1
  fc := modbusFcWriteMultipleRegs
  pdu := [0x04, 0x00, 0x00, 0x1d]
  fits := by decide

/-- The contents of a register end a read in the same way over both transports. -/
theorem transports_agree_read :
    (newOpened 1).overRs232 readOne oneRegister atOnce 256 0 =
      (newOpened 1).overUsb ⟨0x89, 0x90⟩ readOne oneRegister atOnce 256 0 := by
  obtain ⟨serial, hid, hserial, hhid, hagree⟩ :=
    @transports_agree_iff (newOpened 1) readOne oneRegister ⟨0x89, 0x90⟩ atOnce 0 256
      (by decide) (by simp only [Raises]; decide)
  have hsame : serial = hid := by
    apply hagree.mpr
    right
    exact ⟨by decide, Or.inr (Or.inr (Or.inr (Or.inl (by decide))))⟩
  rw [hserial, hhid, hsame]

/-- A reply with a byte too many is discarded on a serial line and cut off on USB, and a
request that is too long for a report is sent only on a serial line. -/
theorem transports_differ :
    ((newOpened 1).overRs232 readOne spareByte atOnce 256 0).map (fun out => (out.1, out.2.2)) =
        some (none, 3) ∧
      ((newOpened 1).overUsb ⟨0x89, 0x90⟩ readOne spareByte atOnce 256 0).map
          (fun out => (out.1, out.2.2)) = some (some [0x02, 0x12, 0x34], 1) ∧
      ((newOpened 1).overRs232 longWrite written atOnce 256 0).map
          (fun out => (out.1, out.2.2)) = some (some [0x04, 0x00, 0x00, 0x1d], 1) ∧
      ((newOpened 1).overUsb ⟨0x89, 0x90⟩ longWrite written atOnce 256 0).map
          (fun out => (out.1, out.2.2)) = some (none, 0) := by
  decide +kernel

end ModbusComm

end Apcupsd
