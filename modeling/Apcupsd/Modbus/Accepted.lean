import Mathlib.Data.List.TakeDrop
import Apcupsd.Modbus.Comm

/-!
# What SendAndWait accepts

A transport that records the frames handed over by {lit}`ModbusRx` shows what a call has
heard.  Of the frames heard, the last one decides the call, and the others were passed
over.  The history of a series of calls lists the responses they accepted.

Main results:

- Theorem {lit}`sendAndWait_recorded`: recording does not change a call.
- Theorem {lit}`decides_serve`: a call returns what the last frame it heard decides.
- Theorem {lit}`Served.keeps`: after any series of calls the ring holds the responses
  accepted last.
- Theorem {lit}`sendAndWait_accepts`: what a call returns is a fresh answer to its
  request, and the true one among copies of recent responses.
-/

namespace Apcupsd

/-! ## Recording a line -/

/-- A world with a record: when the last request was sent, and the frames received so far,
latest first, each with the time it took as {lit}`SendAndWait` reads it. -/
structure RecordedWorld (W : Type) where
  world : W
  sentAt : ℕ
  heard : List (ℤ × List UInt8)

section Recording

variable {W : Type}

/-- The record after a successful or failed {lit}`ModbusTx`. -/
def RecordedWorld.sent (t : Transport W) (r : RecordedWorld W) (w : W) : RecordedWorld W :=
  { r with world := w, sentAt := t.gettimeofday w }

/-- The record after {lit}`ModbusRx` has returned. -/
def RecordedWorld.received (t : Transport W) (r : RecordedWorld W) (w : W) :
    Option (List UInt8) → RecordedWorld W
  | none => { r with world := w }
  | some rxfrm =>
      { r with
        world := w
        heard := (tvDiffMs r.sentAt (t.gettimeofday w), rxfrm) :: r.heard }

/-- The same transport, with a record of what it does. -/
def Transport.recorded (t : Transport W) : Transport (RecordedWorld W) where
  modbusTx frm r := (t.modbusTx frm r.world).map fun result => (result.1, r.sent t result.2)
  modbusRx r :=
    (t.modbusRx r.world).map fun result => (result.1, r.received t result.2 result.1)
  gettimeofday r := t.gettimeofday r.world

end Recording

/-- The arguments of one {lit}`SendAndWait`. -/
structure SendCall where
  fc : UInt8
  txpdu : List UInt8
  rxsz : ℕ
  deriving DecidableEq, Repr

namespace ModbusComm

variable {W : Type} {t : Transport W} {comm comm' : ModbusComm} {call : SendCall}

/-! ## One call -/

/-- One call over a transport. -/
def serve (t : Transport W) (fuel : ℕ) (comm : ModbusComm) (call : SendCall) (w : W) :
    Option (Option (List UInt8) × ModbusComm × W) :=
  comm.sendAndWait t fuel call.fc call.txpdu call.rxsz w

/-- The frames that a call receives, latest first, each with the time since the request
was sent. -/
def heard (t : Transport W) (fuel : ℕ) (comm : ModbusComm) (call : SendCall) (w : W) :
    List (ℤ × List UInt8) :=
  match comm.serve t.recorded fuel call { world := w, sentAt := 0, heard := [] } with
  | some (_, _, r) => r.heard
  | none => []

/-- What the history is given when a call returns. -/
def accepted (call : SendCall) : Option (List UInt8) → List LastRx
  | none => []
  | some rxpdu => [{ fc := call.fc, sz := call.rxsz, pdu := rxpdu }]

/-! ## One transmission -/

/-- What {lit}`SendAndWait` does when the receiving half of an attempt has ended. -/
def conclude (comm : ModbusComm) (fc : UInt8) (rxsz : ℕ)
    (again : W → Option (Option (List UInt8) × ModbusComm × W)) :
    Reception × W → Option (Option (List UInt8) × ModbusComm × W)
  | (.accepted rxpdu, w) =>
      some (some rxpdu, { comm with lastRx := comm.lastRx.push ⟨fc, rxsz, rxpdu⟩ }, w)
  | (.exception, w) => some (none, comm, w)
  | (.nothing, w) => again w

/-- One transmission and what follows; {lit}`again` is the next round of the loop. -/
def attempt (t : Transport W) (fuel : ℕ) (comm : ModbusComm) (fc : UInt8) (rxsz : ℕ)
    (txfrm : List UInt8) (again : W → Option (Option (List UInt8) × ModbusComm × W)) (w : W) :
    Option (Option (List UInt8) × ModbusComm × W) :=
  (t.modbusTx txfrm w).bind fun sent =>
    if sent.1 then
      (receive t comm fc rxsz (t.gettimeofday sent.2) fuel sent.2).bind
        (conclude comm fc rxsz again)
    else some (none, comm, sent.2)

theorem transmit_zero (fuel : ℕ) (fc : UInt8) (rxsz : ℕ) (txfrm : List UInt8) (w : W) :
    transmit t fuel comm fc rxsz txfrm 0 w =
      attempt t fuel comm fc rxsz txfrm (fun w => some (none, comm, w)) w := by
  rw [transmit, attempt]
  rcases t.modbusTx txfrm w with - | ⟨- | -, w⟩
  · rfl
  · rfl
  · simp only [Option.bind_some, if_true]
    rcases receive t comm fc rxsz (t.gettimeofday w) fuel w with - | ⟨- | - | -, w⟩ <;> rfl

theorem transmit_succ (fuel : ℕ) (fc : UInt8) (rxsz : ℕ) (txfrm : List UInt8) (retries : ℕ)
    (w : W) :
    transmit t fuel comm fc rxsz txfrm (retries + 1) w =
      attempt t fuel comm fc rxsz txfrm (transmit t fuel comm fc rxsz txfrm retries) w := by
  rw [transmit, attempt]
  rcases t.modbusTx txfrm w with - | ⟨- | -, w⟩
  · rfl
  · rfl
  · simp only [Option.bind_some, if_true]
    rcases receive t comm fc rxsz (t.gettimeofday w) fuel w with - | ⟨- | - | -, w⟩ <;> rfl

/-! ## Recording changes nothing -/

theorem modbusTx_recorded (frm : List UInt8) (r : RecordedWorld W) :
    t.recorded.modbusTx frm r =
      (t.modbusTx frm r.world).map fun result => (result.1, r.sent t result.2) := rfl

theorem modbusRx_recorded (r : RecordedWorld W) :
    t.recorded.modbusRx r =
      (t.modbusRx r.world).map fun result => (result.1, r.received t result.2 result.1) := rfl

theorem receive_recorded (fc : UInt8) (rxsz attemptStart fuel : ℕ) (r : RecordedWorld W) :
    (receive t.recorded comm fc rxsz attemptStart fuel r).map
        (fun result => (result.1, result.2.world)) =
      receive t comm fc rxsz attemptStart fuel r.world := by
  induction fuel generalizing r with
  | zero => rfl
  | succ fuel ih =>
      rw [receive, receive, modbusRx_recorded]
      rcases t.modbusRx r.world with - | ⟨- | rxfrm, w⟩
      · rfl
      · rfl
      · simp only [Option.map_some]
        -- the next frame is judged at the same time
        have hclock : t.recorded.gettimeofday (r.received t w (some rxfrm)) =
            t.gettimeofday w := rfl
        rw [hclock]
        by_cases htotal :
            tvDiffMs attemptStart (t.gettimeofday w) > modbusTotalRequestTimeoutMs
        · rw [if_pos htotal, if_pos htotal]
          rfl
        · rw [if_neg htotal, if_neg htotal]
          cases comm.judge fc rxsz (tvDiffMs attemptStart (t.gettimeofday w)) rxfrm with
          | discard => exact ih (r.received t w (some rxfrm))
          | exception => rfl
          | accept rxpdu => rfl

/-- The result of a recorded call without its record. -/
def erase (result : Option (List UInt8) × ModbusComm × RecordedWorld W) :
    Option (List UInt8) × ModbusComm × W :=
  (result.1, result.2.1, result.2.2.world)

theorem attempt_recorded {again : W → Option (Option (List UInt8) × ModbusComm × W)}
    {again' : RecordedWorld W → Option (Option (List UInt8) × ModbusComm × RecordedWorld W)}
    (hagain : ∀ r, (again' r).map erase = again r.world) (fuel : ℕ) (fc : UInt8) (rxsz : ℕ)
    (txfrm : List UInt8) (r : RecordedWorld W) :
    (attempt t.recorded fuel comm fc rxsz txfrm again' r).map erase =
      attempt t fuel comm fc rxsz txfrm again r.world := by
  rw [attempt, attempt, modbusTx_recorded]
  rcases t.modbusTx txfrm r.world with - | ⟨- | -, w⟩
  · rfl
  · rfl
  · have hreceive := @receive_recorded W t comm fc rxsz (t.gettimeofday w) fuel (r.sent t w)
    have hworld : (r.sent t w).world = w := rfl
    have hclock : t.recorded.gettimeofday (r.sent t w) = t.gettimeofday w := rfl
    rw [hworld] at hreceive
    simp only [Option.map_some, Option.bind_some, if_true]
    rw [hclock, ← hreceive]
    rcases receive t.recorded comm fc rxsz (t.gettimeofday w) fuel (r.sent t w) with
      - | ⟨- | - | rxpdu, r'⟩
    · rfl
    · exact hagain r'
    · rfl
    · rfl

theorem transmit_recorded (fuel : ℕ) (fc : UInt8) (rxsz : ℕ) (txfrm : List UInt8)
    (retries : ℕ) (r : RecordedWorld W) :
    (transmit t.recorded fuel comm fc rxsz txfrm retries r).map erase =
      transmit t fuel comm fc rxsz txfrm retries r.world := by
  induction retries generalizing r with
  | zero =>
      rw [transmit_zero, transmit_zero]
      exact attempt_recorded (fun _ => rfl) fuel fc rxsz txfrm r
  | succ retries ih =>
      rw [transmit_succ, transmit_succ]
      exact attempt_recorded ih fuel fc rxsz txfrm r

/-- A recorded call is the call, with a record. -/
theorem sendAndWait_recorded (fuel : ℕ) (r : RecordedWorld W) :
    (comm.serve t.recorded fuel call r).map erase = comm.serve t fuel call r.world := by
  simp only [serve, sendAndWait]
  by_cases hsize : (decide (call.txpdu.length > modbusMaxPduSz) ||
      decide (call.rxsz > modbusMaxPduSz)) = true
  · rw [if_pos hsize, if_pos hsize]
    rfl
  · rw [if_neg hsize, if_neg hsize]
    exact transmit_recorded fuel call.fc call.rxsz _ 2 r

/-! ## What decides a call -/

/-- A frame that {lit}`SendAndWait` passes over: it came too late, or it is discarded. -/
def PassedOver (comm : ModbusComm) (call : SendCall) (reading : ℤ × List UInt8) : Prop :=
  reading.1 > modbusTotalRequestTimeoutMs ∨
    comm.judge call.fc call.rxsz reading.1 reading.2 = .discard

/-- What the frames heard decide, latest first. -/
inductive Decides (comm : ModbusComm) (call : SendCall) :
    Reception → List (ℤ × List UInt8) → Prop
  | nothing {earlier : List (ℤ × List UInt8)}
      (hpassed : ∀ reading ∈ earlier, comm.PassedOver call reading) :
      Decides comm call .nothing earlier
  | exception {elapsedMs : ℤ} {rxfrm : List UInt8} {earlier : List (ℤ × List UInt8)}
      (hjudge : comm.judge call.fc call.rxsz elapsedMs rxfrm = .exception)
      (hpassed : ∀ reading ∈ earlier, comm.PassedOver call reading) :
      Decides comm call .exception ((elapsedMs, rxfrm) :: earlier)
  | accepted {elapsedMs : ℤ} {rxfrm rxpdu : List UInt8} {earlier : List (ℤ × List UInt8)}
      (hjudge : comm.judge call.fc call.rxsz elapsedMs rxfrm = .accept rxpdu)
      (hpassed : ∀ reading ∈ earlier, comm.PassedOver call reading) :
      Decides comm call (.accepted rxpdu) ((elapsedMs, rxfrm) :: earlier)

/-- The response that a call returns. -/
def Reception.result : Reception → Option (List UInt8)
  | .accepted rxpdu => some rxpdu
  | .exception => none
  | .nothing => none

/-- The object after a call. -/
def remember (comm : ModbusComm) (call : SendCall) : Option (List UInt8) → ModbusComm
  | some rxpdu => { comm with lastRx := comm.lastRx.push ⟨call.fc, call.rxsz, rxpdu⟩ }
  | none => comm

/-- One attempt decides by the last frame it receives. -/
theorem decides_receive {fuel : ℕ} {r r' : RecordedWorld W} {reception : Reception}
    (hbefore : ∀ reading ∈ r.heard, comm.PassedOver call reading)
    (hrun : receive t.recorded comm call.fc call.rxsz r.sentAt fuel r = some (reception, r')) :
    Decides comm call reception r'.heard := by
  induction fuel generalizing r with
  | zero => simp [receive] at hrun
  | succ fuel ih =>
      rw [receive, modbusRx_recorded] at hrun
      rcases hrx : t.modbusRx r.world with - | ⟨- | rxfrm, w⟩
      · simp [hrx] at hrun
      · simp only [hrx, Option.map_some, Option.some.injEq, Prod.mk.injEq] at hrun
        obtain ⟨rfl, rfl⟩ := hrun
        exact Decides.nothing hbefore
      · have hclock : t.recorded.gettimeofday (r.received t w (some rxfrm)) =
            t.gettimeofday w := rfl
        simp only [hrx, Option.map_some, hclock] at hrun
        have hheard : (r.received t w (some rxfrm)).heard =
            (tvDiffMs r.sentAt (t.gettimeofday w), rxfrm) :: r.heard := rfl
        by_cases htotal : tvDiffMs r.sentAt (t.gettimeofday w) > modbusTotalRequestTimeoutMs
        · simp only [if_pos htotal, Option.some.injEq, Prod.mk.injEq] at hrun
          obtain ⟨rfl, rfl⟩ := hrun
          refine Decides.nothing ?_
          rw [hheard]
          exact List.forall_mem_cons.mpr ⟨Or.inl htotal, hbefore⟩
        · rw [if_neg htotal] at hrun
          cases hjudge : comm.judge call.fc call.rxsz
              (tvDiffMs r.sentAt (t.gettimeofday w)) rxfrm with
          | discard =>
              simp only [hjudge] at hrun
              refine ih (r := r.received t w (some rxfrm)) ?_ hrun
              rw [hheard]
              exact List.forall_mem_cons.mpr ⟨Or.inr hjudge, hbefore⟩
          | exception =>
              simp only [hjudge, Option.some.injEq, Prod.mk.injEq] at hrun
              obtain ⟨rfl, rfl⟩ := hrun
              exact Decides.exception hjudge hbefore
          | accept rxpdu =>
              simp only [hjudge, Option.some.injEq, Prod.mk.injEq] at hrun
              obtain ⟨rfl, rfl⟩ := hrun
              exact Decides.accepted hjudge hbefore

/-- A call returns what the frames it heard decide. -/
def Concluded (comm : ModbusComm) (call : SendCall)
    (out : Option (List UInt8) × ModbusComm × RecordedWorld W) : Prop :=
  ∃ reception, Decides comm call reception out.2.2.heard ∧ out.1 = reception.result ∧
    out.2.1 = comm.remember call reception.result

theorem concluded_attempt
    {again : RecordedWorld W → Option (Option (List UInt8) × ModbusComm × RecordedWorld W)}
    {fuel : ℕ} {txfrm : List UInt8}
    (hagain : ∀ r out, (∀ reading ∈ r.heard, comm.PassedOver call reading) →
      again r = some out → comm.Concluded call out)
    {r : RecordedWorld W} {out : Option (List UInt8) × ModbusComm × RecordedWorld W}
    (hbefore : ∀ reading ∈ r.heard, comm.PassedOver call reading)
    (hrun : attempt t.recorded fuel comm call.fc call.rxsz txfrm again r = some out) :
    comm.Concluded call out := by
  rw [attempt, modbusTx_recorded] at hrun
  rcases htx : t.modbusTx txfrm r.world with - | ⟨- | -, w⟩
  · simp [htx] at hrun
  · simp only [htx, Option.map_some, Option.bind_some, Bool.false_eq_true, if_false,
      Option.some.injEq] at hrun
    subst hrun
    exact ⟨.nothing, Decides.nothing hbefore, rfl, rfl⟩
  · have hsent : (r.sent t w).sentAt = t.recorded.gettimeofday (r.sent t w) := rfl
    simp only [htx, Option.map_some, Option.bind_some, if_true] at hrun
    rw [← hsent] at hrun
    rcases hreceive : receive t.recorded comm call.fc call.rxsz (r.sent t w).sentAt fuel
        (r.sent t w) with - | ⟨reception, r'⟩
    · simp [hreceive] at hrun
    · have hdecides := @decides_receive W t comm call fuel (r.sent t w) r' reception hbefore
        hreceive
      rw [hreceive, Option.bind_some] at hrun
      cases reception with
      | nothing =>
          cases hdecides with
          | nothing hpassed => exact hagain r' out hpassed hrun
      | exception =>
          simp only [conclude, Option.some.injEq] at hrun
          subst hrun
          exact ⟨.exception, hdecides, rfl, rfl⟩
      | accepted rxpdu =>
          simp only [conclude, Option.some.injEq] at hrun
          subst hrun
          exact ⟨.accepted rxpdu, hdecides, rfl, rfl⟩

theorem concluded_transmit {fuel : ℕ} {txfrm : List UInt8} (retries : ℕ) {r : RecordedWorld W}
    {out : Option (List UInt8) × ModbusComm × RecordedWorld W}
    (hbefore : ∀ reading ∈ r.heard, comm.PassedOver call reading)
    (hrun : transmit t.recorded fuel comm call.fc call.rxsz txfrm retries r = some out) :
    comm.Concluded call out := by
  induction retries generalizing r out with
  | zero =>
      rw [transmit_zero] at hrun
      refine concluded_attempt ?_ hbefore hrun
      intro r out hpassed hgiven
      cases hgiven
      exact ⟨.nothing, Decides.nothing hpassed, rfl, rfl⟩
  | succ retries ih =>
      rw [transmit_succ] at hrun
      exact concluded_attempt (fun r out hpassed hgiven => ih hpassed hgiven) hbefore hrun

/-- What a call returns is what the last frame it heard decides. -/
theorem decides_serve {fuel : ℕ} {w w' : W} {result : Option (List UInt8)}
    (hrun : comm.serve t fuel call w = some (result, comm', w')) :
    ∃ reception, Decides comm call reception (comm.heard t fuel call w) ∧
      result = reception.result ∧ comm' = comm.remember call result := by
  have hrecorded := @sendAndWait_recorded W t comm call fuel ⟨w, 0, []⟩
  rw [hrun] at hrecorded
  obtain ⟨out, hout, herase⟩ := Option.map_eq_some_iff.mp hrecorded
  have hheard : comm.heard t fuel call w = out.2.2.heard := by
    rw [heard, hout]
  have hconcluded : comm.Concluded call out := by
    simp only [serve, sendAndWait] at hout
    by_cases hsize : (decide (call.txpdu.length > modbusMaxPduSz) ||
        decide (call.rxsz > modbusMaxPduSz)) = true
    · rw [if_pos hsize, Option.some.injEq] at hout
      subst hout
      exact ⟨.nothing, Decides.nothing (by simp), rfl, rfl⟩
    · rw [if_neg hsize] at hout
      exact concluded_transmit 2 (by simp) hout
  obtain ⟨reception, hdecides, hresult, hcomm⟩ := hconcluded
  simp only [erase, Prod.mk.injEq] at herase
  obtain ⟨rfl, rfl, -⟩ := herase
  rw [hheard]
  exact ⟨reception, hdecides, hresult, by rw [hcomm, hresult]⟩

/-! ## Accepted frames -/

/-- The tests that do not depend on the history. -/
structure Answers (comm : ModbusComm) (call : SendCall) (rxfrm : List UInt8) : Prop where
  length : rxfrm.length = call.rxsz + 4
  crc : crcOk rxfrm = true
  address : rxfrm.getD 0 0 = comm.slaveaddr
  fc : rxfrm.getD 1 0 = call.fc

theorem judge_eq_accept_iff {elapsedMs : ℤ} {rxfrm rxpdu : List UInt8} :
    comm.judge call.fc call.rxsz elapsedMs rxfrm = .accept rxpdu ↔
      comm.Answers call rxfrm ∧ call.fc ≠ call.fc ||| modbusFcError ∧
        (nearDeadline elapsedMs = false →
          comm.lastRx.contains (lastRxOf call.fc call.rxsz rxfrm) = false) ∧
        rxpdu = (lastRxOf call.fc call.rxsz rxfrm).pdu := by
  constructor
  · intro hjudge
    unfold judge at hjudge
    split_ifs at hjudge with hrunt hcrc haddress hexception hfc hlength hheld
    have hfc' : rxfrm.getD 1 0 = call.fc := not_not.mp hfc
    have hcrc' : crcOk rxfrm = true := by simpa using hcrc
    refine ⟨⟨not_not.mp hlength, hcrc', not_not.mp haddress, hfc'⟩, ?_, ?_, ?_⟩
    · rwa [hfc'] at hexception
    · intro hearly
      simpa [hearly] using hheld
    · exact (Verdict.accept.inj hjudge).symm
  · rintro ⟨⟨hlength, hcrc, haddress, hfc⟩, hexception, hfresh, rfl⟩
    unfold judge
    rw [if_neg (by omega), if_neg (by simp [hcrc]), if_neg (not_not.mpr haddress),
      if_neg (by rwa [hfc]), if_neg (not_not.mpr hfc), if_neg (not_not.mpr hlength), if_neg ?_]
    intro hheld
    simp only [Bool.and_eq_true, Bool.not_eq_true'] at hheld
    rw [hfresh hheld.1] at hheld
    exact absurd hheld.2 (by simp)

theorem judge_eq_exception_iff {elapsedMs : ℤ} {rxfrm : List UInt8} :
    comm.judge call.fc call.rxsz elapsedMs rxfrm = .exception ↔
      4 ≤ rxfrm.length ∧ crcOk rxfrm = true ∧ rxfrm.getD 0 0 = comm.slaveaddr ∧
        rxfrm.getD 1 0 = call.fc ||| modbusFcError := by
  constructor
  · intro hjudge
    unfold judge at hjudge
    split_ifs at hjudge with hrunt hcrc haddress hexception
    exact ⟨not_lt.mp hrunt, by simpa using hcrc, not_not.mp haddress, hexception⟩
  · rintro ⟨hrunt, hcrc, haddress, hexception⟩
    unfold judge
    rw [if_neg (not_lt.mpr hrunt), if_neg (by simp [hcrc]), if_neg (not_not.mpr haddress),
      if_pos hexception]

end ModbusComm

/-- The bytes of an accepted response on the line. -/
def LastRx.frame (slaveaddr : UInt8) (entry : LastRx) : List UInt8 :=
  sealFrame (slaveaddr :: entry.fc :: entry.pdu)

/-- An entry of the history has the size it says and is no exception. -/
structure LastRx.WellFormed (entry : LastRx) : Prop where
  length : entry.pdu.length = entry.sz
  fc : entry.fc ≠ entry.fc ||| modbusFcError

namespace ModbusComm

variable {W : Type} {t : Transport W} {comm comm' : ModbusComm} {call : SendCall}
  {history : List LastRx}

/-- An accepted frame is made up of its entry in the history. -/
theorem Answers.eq_frame {rxfrm : List UInt8} (hanswers : comm.Answers call rxfrm) :
    rxfrm = (lastRxOf call.fc call.rxsz rxfrm).frame comm.slaveaddr := by
  have hlength := hanswers.length
  have hsealed := eq_sealFrame_of_crcOk (by omega) hanswers.crc
  have hbody : rxfrm.take (rxfrm.length - 2) =
      comm.slaveaddr :: call.fc :: (rxfrm.drop 2).take call.rxsz := by
    rw [← hanswers.address, ← hanswers.fc]
    rcases rxfrm with - | ⟨address, - | ⟨fc, rest⟩⟩
    · simp at hlength
    · simp at hlength
    · simp only [List.length_cons] at hlength
      have hsize : rest.length + 1 + 1 - 2 = call.rxsz + 2 := by omega
      simp [hsize]
  rw [hbody] at hsealed
  exact hsealed

theorem Answers.wellFormed {rxfrm : List UInt8} (hanswers : comm.Answers call rxfrm)
    (hfc : call.fc ≠ call.fc ||| modbusFcError) :
    (lastRxOf call.fc call.rxsz rxfrm).WellFormed := by
  have hlength := hanswers.length
  refine ⟨?_, hfc⟩
  simp only [lastRxOf, List.length_take, List.length_drop]
  omega

/-! ## The history -/

/-- The objects after any series of calls on a newly constructed and opened one, over any
transport and from any world, with the responses accepted so far, latest first. -/
inductive Served (slaveaddr : UInt8) : ModbusComm → List LastRx → Prop
  | opened : Served slaveaddr (newOpened slaveaddr) []
  | served {comm comm' : ModbusComm} {history : List LastRx} {W : Type} {t : Transport W}
      {fuel : ℕ} {call : SendCall} {w w' : W} {result : Option (List UInt8)}
      (hserved : Served slaveaddr comm history)
      (hrun : comm.serve t fuel call w = some (result, comm', w')) :
      Served slaveaddr comm' (accepted call result ++ history)

/-- What holds between the calls. -/
structure Keeps (slaveaddr : UInt8) (comm : ModbusComm) (history : List LastRx) : Prop where
  address : comm.slaveaddr = slaveaddr
  remembers : comm.lastRx.Remembers history
  wellFormed : ∀ entry ∈ history, entry.WellFormed

/-- One call keeps the ring in step with the history. -/
theorem keeps_serve {slaveaddr : UInt8} (hkeeps : Keeps slaveaddr comm history) {fuel : ℕ}
    {w w' : W} {result : Option (List UInt8)}
    (hrun : comm.serve t fuel call w = some (result, comm', w')) :
    Keeps slaveaddr comm' (accepted call result ++ history) := by
  obtain ⟨reception, hdecides, rfl, rfl⟩ := decides_serve hrun
  generalize comm.heard t fuel call w = readings at hdecides
  cases hdecides with
  | nothing hpassed => exact hkeeps
  | exception hjudge hpassed => exact hkeeps
  | @accepted elapsedMs rxfrm rxpdu earlier hjudge hpassed =>
      obtain ⟨hanswers, hfc, -, rfl⟩ := judge_eq_accept_iff.mp hjudge
      refine ⟨hkeeps.address, Ring.remembers_push hkeeps.remembers _, ?_⟩
      exact List.forall_mem_cons.mpr ⟨hanswers.wellFormed hfc, hkeeps.wellFormed⟩

theorem Served.keeps {slaveaddr : UInt8} (hserved : Served slaveaddr comm history) :
    Keeps slaveaddr comm history := by
  induction hserved with
  | opened => exact ⟨rfl, Ring.remembers_empty, by simp⟩
  | served hserved hrun ih => exact keeps_serve ih hrun

/-! ## Copies of recent responses -/

/-- A byte copy of one of the last six accepted responses. -/
def Stray (slaveaddr : UInt8) (history : List LastRx) (rxfrm : List UInt8) : Prop :=
  ∃ entry ∈ history.take lastRxHistory, rxfrm = entry.frame slaveaddr

theorem lastRxOf_frame {slaveaddr : UInt8} {entry : LastRx} (hentry : entry.WellFormed)
    (hanswers : comm.Answers call (entry.frame slaveaddr)) :
    lastRxOf call.fc call.rxsz (entry.frame slaveaddr) = entry := by
  have hfc : entry.fc = call.fc := hanswers.fc
  have hsize : entry.pdu.length = call.rxsz := by
    have hlength := hanswers.length
    simp only [LastRx.frame, length_sealFrame, List.length_cons] at hlength
    omega
  have hsz : entry.sz = call.rxsz := hentry.length.symm.trans hsize
  have hpdu : (((entry.frame slaveaddr).drop 2).take call.rxsz) = entry.pdu := by
    simp [LastRx.frame, sealFrame, ← hsize]
  rw [lastRxOf, hpdu, ← hfc, ← hsz]

/-- Before the near deadline a copy of a recent response is not accepted. -/
theorem judge_ne_accept_of_stray {slaveaddr : UInt8} (hkeeps : Keeps slaveaddr comm history)
    {elapsedMs : ℤ} (hearly : nearDeadline elapsedMs = false) {rxfrm : List UInt8}
    (hstray : Stray slaveaddr history rxfrm) (rxpdu : List UInt8) :
    comm.judge call.fc call.rxsz elapsedMs rxfrm ≠ .accept rxpdu := by
  intro hjudge
  obtain ⟨entry, hentry, rfl⟩ := hstray
  obtain ⟨hanswers, -, hfresh, -⟩ := judge_eq_accept_iff.mp hjudge
  have hwell := hkeeps.wellFormed entry (List.mem_of_mem_take hentry)
  have hheld := (Ring.contains_iff hkeeps.remembers entry).mpr hentry
  have hnew := hfresh hearly
  rw [lastRxOf_frame hwell hanswers, hheld] at hnew
  exact absurd hnew (by simp)

/-- A copy of a response never looks like an exception. -/
theorem judge_ne_exception_of_stray {slaveaddr : UInt8}
    (hkeeps : Keeps slaveaddr comm history) {elapsedMs : ℤ} {rxfrm : List UInt8}
    (hstray : Stray slaveaddr history rxfrm) :
    comm.judge call.fc call.rxsz elapsedMs rxfrm ≠ .exception := by
  intro hjudge
  obtain ⟨entry, hentry, rfl⟩ := hstray
  have hwell := hkeeps.wellFormed entry (List.mem_of_mem_take hentry)
  have hfc : entry.fc = call.fc ||| modbusFcError := (judge_eq_exception_iff.mp hjudge).2.2.2
  apply hwell.fc
  rw [hfc, UInt8.or_assoc, UInt8.or_self]

/-! ## What a call returns -/

section Results

variable {slaveaddr : UInt8} {fuel : ℕ} {w w' : W} {result : Option (List UInt8)}

/-- All frames but the true response are copies of recent responses. -/
def OnlyStrays (slaveaddr : UInt8) (history : List LastRx) (response : List UInt8)
    (readings : List (ℤ × List UInt8)) : Prop :=
  ∀ reading ∈ readings, reading.2 ≠ response → Stray slaveaddr history reading.2

/-- Among copies of recent responses only the true one can be accepted early. -/
theorem eq_response_of_accept (hkeeps : Keeps slaveaddr comm history) {elapsedMs : ℤ}
    (hearly : nearDeadline elapsedMs = false) {rxfrm rxpdu response : List UInt8}
    (hstray : rxfrm ≠ response → Stray slaveaddr history rxfrm)
    (hjudge : comm.judge call.fc call.rxsz elapsedMs rxfrm = .accept rxpdu) :
    rxfrm = response := by
  by_contra hne
  exact judge_ne_accept_of_stray hkeeps hearly (hstray hne) rxpdu hjudge

/-- Before the near deadline the true response is accepted if it is no copy. -/
theorem judge_response (hkeeps : Keeps slaveaddr comm history) {elapsedMs : ℤ}
    {response : List UInt8} (hanswers : comm.Answers call response)
    (hfc : call.fc ≠ call.fc ||| modbusFcError) (hfresh : ¬ Stray slaveaddr history response) :
    comm.judge call.fc call.rxsz elapsedMs response =
      .accept (lastRxOf call.fc call.rxsz response).pdu := by
  apply judge_eq_accept_iff.mpr
  refine ⟨hanswers, hfc, ?_, rfl⟩
  intro hearly
  apply Bool.eq_false_iff.mpr
  intro hheld
  apply hfresh
  refine ⟨_, (Ring.contains_iff hkeeps.remembers _).mp hheld, ?_⟩
  rw [← hkeeps.address]
  exact hanswers.eq_frame

/-- A true response that is heard early among copies of recent responses decides the call. -/
theorem decides_response (hkeeps : Keeps slaveaddr comm history) {reception : Reception}
    {readings : List (ℤ × List UInt8)} (hdecides : Decides comm call reception readings)
    {response : List UInt8} (hanswers : comm.Answers call response)
    (hfc : call.fc ≠ call.fc ||| modbusFcError) (hfresh : ¬ Stray slaveaddr history response)
    (hstrays : OnlyStrays slaveaddr history response readings)
    (hearly : ∀ reading ∈ readings, nearDeadline reading.1 = false)
    (hheard : ∃ reading ∈ readings, reading.2 = response) :
    reception = .accepted ((response.drop 2).take call.rxsz) := by
  have hjudge : ∀ elapsedMs, comm.judge call.fc call.rxsz elapsedMs response =
      .accept ((response.drop 2).take call.rxsz) :=
    fun elapsedMs => judge_response hkeeps hanswers hfc hfresh
  cases hdecides with
  | nothing hpassed =>
      obtain ⟨reading, hmem, rfl⟩ := hheard
      rcases hpassed reading hmem with hlate | hdiscard
      · have hnear : ¬ reading.1 > modbusTotalRequestTimeoutMs * 4 / 5 :=
          of_decide_eq_false (hearly reading hmem)
        simp only [modbusTotalRequestTimeoutMs] at hnear hlate
        omega
      · rw [hjudge] at hdiscard
        cases hdiscard
  | @exception elapsedMs rxfrm earlier hexception hpassed =>
      by_cases hresponse : rxfrm = response
      · rw [hresponse, hjudge] at hexception
        cases hexception
      · have hstray := hstrays _ List.mem_cons_self hresponse
        exact absurd hexception (judge_ne_exception_of_stray hkeeps hstray)
  | @accepted elapsedMs rxfrm rxpdu earlier haccept hpassed =>
      have hsame : rxfrm = response := eq_response_of_accept hkeeps
        (hearly _ List.mem_cons_self) (hstrays _ List.mem_cons_self) haccept
      rw [hsame, hjudge] at haccept
      rw [Verdict.accept.inj haccept]

/-- After any series of calls, a call returns only the PDU of the frame that it heard last.
That frame answers its request; before the near deadline it is none of the last six accepted
responses, and it is the true one if all others are copies of these.  A true response that
is no copy and is heard early among copies is returned.  The ring then holds the last six
accepted responses in their order. -/
theorem sendAndWait_accepts (hserved : Served slaveaddr comm history)
    (hrun : comm.serve t fuel call w = some (result, comm', w')) :
    (∀ rxpdu, result = some rxpdu → ∃ elapsedMs rxfrm earlier,
      comm.heard t fuel call w = (elapsedMs, rxfrm) :: earlier ∧
        comm.Answers call rxfrm ∧ rxpdu = (rxfrm.drop 2).take call.rxsz ∧
          (nearDeadline elapsedMs = false →
            (⟨call.fc, call.rxsz, rxpdu⟩ : LastRx) ∉ history.take lastRxHistory ∧
              ∀ response, OnlyStrays slaveaddr history response (comm.heard t fuel call w) →
                rxfrm = response)) ∧
      (∀ response, comm.Answers call response → call.fc ≠ call.fc ||| modbusFcError →
        ¬ Stray slaveaddr history response →
          OnlyStrays slaveaddr history response (comm.heard t fuel call w) →
            (∀ reading ∈ comm.heard t fuel call w, nearDeadline reading.1 = false) →
              (∃ reading ∈ comm.heard t fuel call w, reading.2 = response) →
                result = some ((response.drop 2).take call.rxsz)) ∧
        comm'.lastRx.Remembers (accepted call result ++ history) := by
  have hkeeps := hserved.keeps
  refine ⟨?_, ?_, (keeps_serve hkeeps hrun).remembers⟩
  · rintro rxpdu rfl
    obtain ⟨reception, hdecides, hresult, -⟩ := decides_serve hrun
    generalize comm.heard t fuel call w = readings at hdecides ⊢
    cases hdecides with
    | nothing hpassed => cases hresult
    | exception hjudge hpassed => cases hresult
    | @accepted elapsedMs rxfrm rxpdu' earlier hjudge hpassed =>
        obtain rfl : rxpdu = rxpdu' := Option.some.inj hresult
        obtain ⟨hanswers, -, hfresh, hpdu⟩ := judge_eq_accept_iff.mp hjudge
        refine ⟨elapsedMs, rxfrm, earlier, rfl, hanswers, hpdu, fun hearly => ⟨?_, ?_⟩⟩
        · intro hmem
          have hheld := (Ring.contains_iff hkeeps.remembers _).mpr hmem
          rw [hpdu] at hheld
          exact absurd hheld (by simpa [lastRxOf] using hfresh hearly)
        · intro response hstrays
          exact eq_response_of_accept hkeeps hearly (hstrays _ List.mem_cons_self) hjudge
  · intro response hanswers hfc hfresh hstrays hearly hheard
    obtain ⟨reception, hdecides, hresult, -⟩ := decides_serve hrun
    rw [hresult, decides_response hkeeps hdecides hanswers hfc hfresh hstrays hearly hheard]
    rfl

end Results

/-! ## Examples of runs -/

/-- A line on which the listed frames arrive at the listed times, whatever is sent. -/
def scripted : Transport (ℕ × List (ℕ × List UInt8)) where
  modbusTx _ w := some (true, w)
  modbusRx w :=
    match w.2 with
    | [] => some (none, w)
    | (time, rxfrm) :: rest => some (some rxfrm, time, rest)
  gettimeofday w := w.1

/-- A read of one register. -/
def readOne : SendCall where
  fc := modbusFcReadHoldingRegs
  txpdu := [0x00, 0x00, 0x00, 0x01]
  rxsz := 3

/-- The object after it has accepted a first response. -/
def afterOne : ModbusComm := (newOpened 1).remember readOne (some [0x02, 0x12, 0x34])

theorem served_afterOne :
    Served 1 afterOne [⟨modbusFcReadHoldingRegs, 3, [0x02, 0x12, 0x34]⟩] := by
  have hrun : ((newOpened 1).serve scripted 3 readOne
      (0, [(50000, sealFrame [1, 3, 0x02, 0x12, 0x34])])).map (fun out => (out.1, out.2.2)) =
        some (some [0x02, 0x12, 0x34], 50000, []) := by decide +kernel
  obtain ⟨⟨result, comm', w'⟩, hserve, hout⟩ := Option.map_eq_some_iff.mp hrun
  obtain ⟨rfl, rfl⟩ := Prod.mk.inj hout
  obtain ⟨-, -, -, hcomm⟩ := decides_serve hserve
  have hserved := Served.served Served.opened hserve
  rw [hcomm] at hserved
  exact hserved

/-- A second read hears a copy of the first response before its own. -/
theorem sendAndWait_accepts_second : ∃ comm' w',
    afterOne.serve scripted 3 readOne
        (0, [(30000, sealFrame [1, 3, 0x02, 0x12, 0x34]),
          (60000, sealFrame [1, 3, 0x02, 0x56, 0x78])]) =
      some (some [0x02, 0x56, 0x78], comm', w') ∧
    comm'.lastRx.Remembers
      [⟨modbusFcReadHoldingRegs, 3, [0x02, 0x56, 0x78]⟩,
        ⟨modbusFcReadHoldingRegs, 3, [0x02, 0x12, 0x34]⟩] := by
  have hrun : (afterOne.serve scripted 3 readOne
      (0, [(30000, sealFrame [1, 3, 0x02, 0x12, 0x34]),
        (60000, sealFrame [1, 3, 0x02, 0x56, 0x78])])).map (fun out => (out.1, out.2.2)) =
      some (some [0x02, 0x56, 0x78], 60000, []) := by decide +kernel
  obtain ⟨⟨result, comm', w'⟩, hserve, hout⟩ := Option.map_eq_some_iff.mp hrun
  obtain ⟨rfl, rfl⟩ := Prod.mk.inj hout
  exact ⟨comm', _, hserve, (sendAndWait_accepts served_afterOne hserve).2.2⟩

end ModbusComm

end Apcupsd
