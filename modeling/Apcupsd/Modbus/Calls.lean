import Apcupsd.Modbus.Usb

/-!
# Sequences of calls

A run calls {lit}`ReadRegister` and {lit}`WriteRegister` one after the other on one
newly constructed and opened object, with a healthy slave on a serial or a USB port.

Main results:

- Theorem {lit}`ModbusComm.call_eq`: over a prompt link a call is an abstract exchange
  of three transmissions.
- Theorem {lit}`ModbusComm.runCalls_eq`: a run of calls refines the run of abstract
  exchanges.
- Theorem {lit}`remembers_of_abstractRun`: before each call the history holds the last
  six accepted answers.
-/

namespace Apcupsd

/-! ## Healthy slaves -/

/-- A slave on one of the two ports. -/
inductive Connection where
  | serial (slave : SerialSlave)
  | usb (slave : UsbSlave)

namespace Connection

def slave : Connection → Slave
  | serial slave => slave.toSlave
  | usb slave => slave.toSlave

/-- The slave answers within 100 ms. -/
def Prompt : Connection → Prop
  | serial slave => slave.Prompt
  | usb slave => slave.Prompt

/-- What fits in one frame, without the checksum. -/
def capacity : Connection → ℕ
  | serial _ => 254
  | usb _ => modbusUsbReportMaxFrameSize

/-- The state of the line. -/
def World : Connection → Type
  | serial _ => Line UInt8
  | usb _ => Line (List UInt8)

def transport (fuel : ℕ) : (c : Connection) → Transport c.World
  | serial slave => ModbusRs232Comm.transport (SerialLine.port slave) fuel
  | usb slave => slave.reports.transport (UsbLine.port slave) fuel

/-- What the slave has done. -/
def state : (c : Connection) → c.World → SlaveState
  | serial _, line => Line.state line
  | usb _, line => Line.state line

/-- Nothing is on its way to the program. -/
def Quiet : (c : Connection) → c.World → SlaveState → Prop
  | serial _ => SerialLine.Quiet
  | usb _ => UsbLine.Quiet

/-- An idle line at a given time, with a slave that has received nothing yet. -/
def idle (clock : ℕ) : (c : Connection) → c.World
  | serial _ => ({ clock := clock, arriving := [], state := ⟨0, []⟩ } : Line UInt8)
  | usb _ => ({ clock := clock, arriving := [], state := ⟨0, []⟩ } : Line (List UInt8))

theorem quiet_idle (c : Connection) (clock : ℕ) : c.Quiet (c.idle clock) ⟨0, []⟩ := by
  cases c <;> exact ⟨rfl, rfl⟩

theorem state_of_quiet {c : Connection} {w : c.World} {state : SlaveState}
    (hquiet : c.Quiet w state) : c.state w = state := by
  cases c <;> exact hquiet.2

theorem capacity_le (c : Connection) : c.capacity ≤ 254 := by
  cases c with
  | serial slave => exact le_refl 254
  | usb slave =>
      have hle : modbusUsbReportMaxFrameSize ≤ 254 := by decide
      exact hle

theorem promptLink {c : Connection} (hprompt : c.Prompt) {fuel : ℕ}
    (hfuel : modbusMaxFrameSz ≤ fuel) :
    PromptLink (c.transport fuel) c.slave c.capacity c.Quiet := by
  cases c with
  | serial slave => exact SerialLine.promptLink hprompt hfuel
  | usb slave => exact UsbLine.promptLink hprompt (le_trans (by decide) hfuel)

end Connection

/-! ## One call -/

/-- What a call returns. -/
inductive CallResult where
  | bytes (data : Option (List UInt8))
  | done (ok : Bool)
  deriving DecidableEq, Repr

/-- The result of a call whose exchange accepted the given answer. -/
def resultOf (slave : Slave) : Request → Option ℕ → CallResult
  | .read reg nregs, accepted => .bytes (accepted.map fun k => slave.contents k reg nregs)
  | .write _ _ _, accepted => .done accepted.isSome

/-- The history after a call. -/
def historyAfter (slave : Slave) (request : Request) (lastRx : Ring lastRxHistory LastRx) :
    Option ℕ → Ring lastRxHistory LastRx
  | none => lastRx
  | some k => lastRx.push (slave.entry k request)

namespace ModbusComm

variable {W : Type} {t : Transport W} {slave : Slave} {capacity : ℕ}
  {Quiet : W → SlaveState → Prop} {comm : ModbusComm} {request : Request}

/-- The object with another history. -/
def withHistory (comm : ModbusComm) (lastRx : Ring lastRxHistory LastRx) : ModbusComm :=
  { comm with lastRx := lastRx }

/-- A call of one of the two public methods. -/
def call (t : Transport W) (fuel : ℕ) (comm : ModbusComm) (w : W) :
    Request → Option (CallResult × ModbusComm × W)
  | .read reg nregs =>
      (readRegister t fuel comm reg nregs w).map fun r => (.bytes r.1, r.2)
  | .write reg nregs data =>
      (writeRegister t fuel comm reg nregs data w).map fun r => (.done r.1, r.2)

/-- {lit}`SendAndWait` is an abstract exchange of three transmissions. -/
theorem sendAndWait_eq (hlink : PromptLink t slave capacity Quiet) (hcapacity : capacity ≤ 254)
    (haddr : comm.slaveaddr = slave.address) (hwell : request.WellFormed)
    (hsize : request.size ≤ capacity) {fuel : ℕ} (hfuel : 2 ≤ fuel) {w : W}
    {state : SlaveState} (hquiet : Quiet w state) :
    ∃ w', comm.sendAndWait t fuel request.fc request.pdu request.rxsz w =
        some ((PromptLink.outcome slave comm request
            (exchange slave comm.lastRx request 3 state).1).1,
          (PromptLink.outcome slave comm request
            (exchange slave comm.lastRx request 3 state).1).2, w') ∧
      Quiet w' (exchange slave comm.lastRx request 3 state).2 := by
  have htx : request.pdu.length ≤ modbusMaxPduSz := by
    have hencode := UsbLine.length_encode hwell
    simp only [Request.encode, List.length_cons] at hencode
    simp only [modbusMaxPduSz]
    omega
  have hrx : request.rxsz ≤ modbusMaxPduSz := by
    have hreply := UsbLine.length_reply_le slave 0 request
    rw [slave.length_reply] at hreply
    simp only [modbusMaxPduSz]
    omega
  have hfits : ¬ (decide (request.pdu.length > modbusMaxPduSz) ||
      decide (request.rxsz > modbusMaxPduSz)) = true := by
    simpa using ⟨htx, hrx⟩
  unfold sendAndWait
  rw [if_neg hfits, haddr]
  exact hlink.transmit_eq haddr hwell hsize hfuel 2 hquiet

/-- A call is an abstract exchange. -/
theorem call_eq (hlink : PromptLink t slave capacity Quiet) (hcapacity : capacity ≤ 254)
    (haddr : comm.slaveaddr = slave.address) (hopen : comm.opened = true)
    (hwell : request.WellFormed) (hsize : request.size ≤ capacity) {fuel : ℕ}
    (hfuel : 2 ≤ fuel) {w : W} {state : SlaveState} (hquiet : Quiet w state) :
    ∃ w', comm.call t fuel w request =
        some (resultOf slave request (exchange slave comm.lastRx request 3 state).1,
          comm.withHistory (historyAfter slave request comm.lastRx
            (exchange slave comm.lastRx request 3 state).1), w') ∧
      Quiet w' (exchange slave comm.lastRx request 3 state).2 := by
  obtain ⟨w', hsend, hquiet'⟩ :=
    sendAndWait_eq hlink hcapacity haddr hwell hsize hfuel hquiet
  refine ⟨w', ?_, hquiet'⟩
  cases request with
  | read reg nregs =>
      simp only [call, readRegister, hopen, Bool.not_true, Bool.false_eq_true, if_false, hsend]
      cases (exchange slave comm.lastRx (.read reg nregs) 3 state).1 with
      | none => rfl
      | some k =>
          have hdata : (slave.contents k reg nregs).take (nregs * 2) =
              slave.contents k reg nregs :=
            List.take_of_length_le (slave.length_contents k reg nregs).le
          simp [PromptLink.outcome, resultOf, historyAfter, withHistory, Slave.answer, hdata]
  | write reg nregs data =>
      simp only [call, writeRegister, hopen, Bool.not_true, Bool.false_eq_true, if_false, hsend]
      cases (exchange slave comm.lastRx (.write reg nregs data) 3 state).1 with
      | none => rfl
      | some k =>
          simp [PromptLink.outcome, resultOf, historyAfter, withHistory, Slave.answer,
            Request.pdu, wordBytes, countBytes]

end ModbusComm

/-! ## Runs of calls -/

/-- A call with its surroundings. -/
structure CallRecord where
  request : Request
  history : Ring lastRxHistory LastRx
  before : SlaveState
  result : CallResult
  after : SlaveState

/-- The results of a run. -/
def resultsOf (records : List CallRecord) : List CallResult :=
  records.map CallRecord.result

/-- Calls one after the other; {lit}`stateOf` reads off what the slave has done. -/
def ModbusComm.runCalls {W : Type} (t : Transport W) (fuel : ℕ) (stateOf : W → SlaveState) :
    List Request → ModbusComm → W → Option (List CallRecord)
  | [], _, _ => some []
  | request :: requests, comm, w =>
      match comm.call t fuel w request with
      | none => none
      | some (result, comm', w') =>
          (runCalls t fuel stateOf requests comm' w').map fun records =>
            { request := request
              history := comm.lastRx
              before := stateOf w
              result := result
              after := stateOf w' } :: records

/-- The run as abstract exchanges. -/
def abstractRun (slave : Slave) :
    List Request → Ring lastRxHistory LastRx → SlaveState → List CallRecord
  | [], _, _ => []
  | request :: requests, lastRx, state =>
      let result := exchange slave lastRx request 3 state
      { request := request
        history := lastRx
        before := state
        result := resultOf slave request result.1
        after := result.2 } ::
        abstractRun slave requests (historyAfter slave request lastRx result.1) result.2

/-- A run over a prompt link refines the abstract run. -/
theorem ModbusComm.runCalls_eq {W : Type} {t : Transport W} {slave : Slave} {capacity : ℕ}
    {Quiet : W → SlaveState → Prop} (hlink : PromptLink t slave capacity Quiet)
    (hcapacity : capacity ≤ 254) {stateOf : W → SlaveState}
    (hstate : ∀ {w state}, Quiet w state → stateOf w = state) {fuel : ℕ} (hfuel : 2 ≤ fuel)
    {requests : List Request}
    (hfit : ∀ request ∈ requests, request.WellFormed ∧ request.size ≤ capacity)
    {comm : ModbusComm} (haddr : comm.slaveaddr = slave.address) (hopen : comm.opened = true)
    {w : W} {state : SlaveState} (hquiet : Quiet w state) :
    ModbusComm.runCalls t fuel stateOf requests comm w =
      some (abstractRun slave requests comm.lastRx state) := by
  induction requests generalizing comm w state with
  | nil => rfl
  | cons request requests ih =>
      rcases hfit request (by simp) with ⟨hwell, hsize⟩
      have hrest : ∀ r ∈ requests, r.WellFormed ∧ r.size ≤ capacity :=
        fun r hr => hfit r (List.mem_cons_of_mem request hr)
      obtain ⟨w', hcall, hquiet'⟩ :=
        ModbusComm.call_eq hlink hcapacity haddr hopen hwell hsize hfuel hquiet
      have htail := @ih hrest (comm.withHistory (historyAfter slave request comm.lastRx
        (exchange slave comm.lastRx request 3 state).1)) haddr hopen w' _ hquiet'
      rw [ModbusComm.runCalls, hcall]
      dsimp only
      rw [htail, hstate hquiet, hstate hquiet']
      rfl

theorem map_request_abstractRun (slave : Slave) (requests : List Request)
    (lastRx : Ring lastRxHistory LastRx) (state : SlaveState) :
    (abstractRun slave requests lastRx state).map CallRecord.request = requests := by
  induction requests generalizing lastRx state with
  | nil => rfl
  | cons request requests ih => simp [abstractRun, ih]

/-- Every record of the abstract run is one abstract exchange. -/
theorem eq_of_mem_abstractRun {slave : Slave} {requests : List Request}
    {lastRx : Ring lastRxHistory LastRx} {state : SlaveState} {record : CallRecord}
    (hmem : record ∈ abstractRun slave requests lastRx state) :
    record.result = resultOf slave record.request
        (exchange slave record.history record.request 3 record.before).1 ∧
      record.after = (exchange slave record.history record.request 3 record.before).2 := by
  induction requests generalizing lastRx state with
  | nil => cases hmem
  | cons request requests ih =>
      rcases List.mem_cons.mp hmem with rfl | hrest
      · exact ⟨rfl, rfl⟩
      · exact ih hrest

/-- The entry that a call added to the history. -/
def CallRecord.accepted (slave : Slave) (record : CallRecord) : Option LastRx :=
  (exchange slave record.history record.request 3 record.before).1.map fun k =>
    slave.entry k record.request

/-- Before each call the history holds the entries accepted so far, of which a ring of
six shows the last six. -/
theorem remembers_of_abstractRun {slave : Slave} {requests : List Request}
    {lastRx : Ring lastRxHistory LastRx} {state : SlaveState} {entries : List LastRx}
    {earlier later : List CallRecord} {record : CallRecord}
    (hremembers : lastRx.Remembers entries)
    (hrun : abstractRun slave requests lastRx state = earlier ++ record :: later) :
    record.history.Remembers
      ((earlier.filterMap (CallRecord.accepted slave)).reverse ++ entries) := by
  induction requests generalizing lastRx state entries earlier with
  | nil => simp [abstractRun] at hrun
  | cons request requests ih =>
      cases earlier with
      | nil =>
          obtain ⟨hfirst, _⟩ := List.cons.inj hrun
          subst hfirst
          simpa using hremembers
      | cons first earlier =>
          obtain ⟨hfirst, htail⟩ := List.cons.inj hrun
          subst hfirst
          cases haccepted : (exchange slave lastRx request 3 state).1 with
          | none =>
              rw [haccepted] at htail
              simpa [CallRecord.accepted, haccepted] using ih hremembers htail
          | some k =>
              rw [haccepted] at htail
              simpa [CallRecord.accepted, haccepted] using
                ih (Ring.remembers_push hremembers _) htail

/-- The run of calls on a newly constructed and opened object. -/
theorem Connection.runCalls_eq {c : Connection} (hprompt : c.Prompt) {fuel : ℕ}
    (hfuel : modbusMaxFrameSz ≤ fuel) {requests : List Request}
    (hfit : ∀ request ∈ requests, request.WellFormed ∧ request.size ≤ c.capacity)
    (clock : ℕ) :
    ModbusComm.runCalls (c.transport fuel) fuel c.state requests
        (ModbusComm.newOpened c.slave.address) (c.idle clock) =
      some (abstractRun c.slave requests Ring.empty ⟨0, []⟩) :=
  ModbusComm.runCalls_eq (Connection.promptLink hprompt hfuel) c.capacity_le
    Connection.state_of_quiet
    (le_trans (by decide) hfuel) hfit rfl rfl (c.quiet_idle clock)

end Apcupsd
