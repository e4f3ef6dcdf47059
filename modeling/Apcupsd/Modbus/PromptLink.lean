import Apcupsd.Modbus.Comm

/-!
# Requests over a prompt link

A prompt link delivers every request to the slave, hands back its one answer well
before the deadline of the attempt, and is silent otherwise.  On such a link a request
is a small abstract exchange: up to three transmissions, each of which executes the
request, until an answer comes that the history does not hold.

Main results:

- Theorem {lit}`PromptLink.judge_reply`: a correct answer is accepted or taken for a
  stale duplicate, depending on the history alone.
- Theorem {lit}`PromptLink.transmit_eq`: the outer loop of {lit}`SendAndWait` refines
  the abstract exchange.
- Theorem {lit}`exchange_isSome_iff`: when an exchange has a result.
-/

namespace Apcupsd

/-! ## The abstract exchange -/

/-- What the history would hold after accepting the answer to the {lit}`k`-th request. -/
def Slave.entry (slave : Slave) (k : ℕ) (request : Request) : LastRx where
  fc := request.fc
  sz := request.rxsz
  pdu := slave.answer k request

/-- A request with a number of transmissions left, seen from outside: the number of the
accepted answer and the state of the slave. -/
def exchange (slave : Slave) (lastRx : Ring lastRxHistory LastRx) (request : Request) :
    ℕ → SlaveState → Option ℕ × SlaveState
  | 0, state => (none, state)
  | attempts + 1, state =>
      if lastRx.contains (slave.entry state.received request) then
        exchange slave lastRx request attempts (state.execute request)
      else (some state.received, state.execute request)

section Exchange

variable {slave : Slave} {lastRx : Ring lastRxHistory LastRx} {request : Request}

@[simp] theorem received_execute (state : SlaveState) :
    (state.execute request).received = state.received + 1 := rfl

/-- An exchange has a result if and only if one of the answers is not held in the
history. -/
theorem exchange_isSome_iff (attempts : ℕ) (state : SlaveState) :
    (exchange slave lastRx request attempts state).1.isSome = true ↔
      ∃ j < attempts, lastRx.contains (slave.entry (state.received + j) request) = false := by
  induction attempts generalizing state with
  | zero => simp [exchange]
  | succ attempts ih =>
      simp only [exchange]
      split_ifs with hheld
      · rw [ih]
        constructor
        · rintro ⟨j, hj, hfresh⟩
          refine ⟨j + 1, by omega, ?_⟩
          simpa [Nat.add_assoc, Nat.add_comm 1 j] using hfresh
        · rintro ⟨j, hj, hfresh⟩
          cases j with
          | zero => simp [hheld] at hfresh
          | succ j =>
              refine ⟨j, by omega, ?_⟩
              simpa [Nat.add_assoc, Nat.add_comm 1 j] using hfresh
      · refine ⟨fun _ => ⟨0, by omega, by simpa using hheld⟩, fun _ => rfl⟩

/-- The accepted answer is the one to the last request the slave has received. -/
theorem exchange_some {attempts k : ℕ} {state : SlaveState}
    (hsome : (exchange slave lastRx request attempts state).1 = some k) :
    (exchange slave lastRx request attempts state).2.received = k + 1 := by
  induction attempts generalizing state with
  | zero => simp [exchange] at hsome
  | succ attempts ih =>
      simp only [exchange] at hsome ⊢
      split_ifs at hsome ⊢ with hheld
      · exact ih hsome
      · simpa using hsome

end Exchange

/-! ## Prompt links -/

/-- A transport with a healthy slave at the other end.  {lit}`Quiet` says that nothing
is on the way and what the slave has done. -/
structure PromptLink {W : Type} (t : Transport W) (slave : Slave) (capacity : ℕ)
    (Quiet : W → SlaveState → Prop) : Prop where
  answers : ∀ {w : W} {state : SlaveState} {request : Request}, Quiet w state →
    request.WellFormed → request.size ≤ capacity → ∃ w₁ w₂,
      t.modbusTx (sealFrame (slave.address :: request.encode)) w = some (true, w₁) ∧
        t.modbusRx w₁ = some (some (sealFrame (slave.reply state.received request)), w₂) ∧
          tvDiffMs (t.gettimeofday w₁) (t.gettimeofday w₂) ≤ 2400 ∧
            Quiet w₂ (state.execute request)
  silent : ∀ {w : W} {state : SlaveState}, Quiet w state →
    ∃ w', t.modbusRx w = some (none, w') ∧ Quiet w' state

namespace PromptLink

variable {W : Type} {t : Transport W} {slave : Slave} {capacity : ℕ}
  {Quiet : W → SlaveState → Prop} {comm : ModbusComm} {request : Request}

theorem lastRxOf_reply (k : ℕ) :
    ModbusComm.lastRxOf request.fc request.rxsz (sealFrame (slave.reply k request)) =
      slave.entry k request := by
  have hlength := slave.length_answer k request
  simp only [ModbusComm.lastRxOf, Slave.entry, sealFrame, Slave.reply, LastRx.mk.injEq,
    true_and]
  simp [← hlength]

theorem fc_ne_exception : request.fc ≠ request.fc ||| modbusFcError := by
  cases request with
  | read reg nregs =>
      have hne : modbusFcReadHoldingRegs ≠ modbusFcReadHoldingRegs ||| modbusFcError := by
        decide
      exact hne
  | write reg nregs data =>
      have hne : modbusFcWriteMultipleRegs ≠ modbusFcWriteMultipleRegs ||| modbusFcError := by
        decide
      exact hne

/-- A correct answer passes every test but the one against the history. -/
theorem judge_reply (haddr : comm.slaveaddr = slave.address) {elapsedMs : ℤ}
    (helapsed : elapsedMs ≤ 2400) (k : ℕ) :
    comm.judge request.fc request.rxsz elapsedMs (sealFrame (slave.reply k request)) =
      if comm.lastRx.contains (slave.entry k request) then .discard
      else .accept (slave.answer k request) := by
  have hlength : (sealFrame (slave.reply k request)).length = request.rxsz + 4 := by
    simp [slave.length_reply]
  have hnear : ModbusComm.nearDeadline elapsedMs = false := by
    have hlate : ¬ elapsedMs > modbusTotalRequestTimeoutMs * 4 / 5 := by
      simp only [modbusTotalRequestTimeoutMs]
      omega
    exact decide_eq_false hlate
  have hfirst : (sealFrame (slave.reply k request)).getD 0 0 = comm.slaveaddr := by
    rw [haddr]
    rfl
  have hsecond : (sealFrame (slave.reply k request)).getD 1 0 = request.fc := rfl
  unfold ModbusComm.judge
  rw [lastRxOf_reply, hfirst, hsecond, hlength, crcOk_sealFrame, hnear,
    if_neg (by omega), if_neg (by simp), if_neg (by simp), if_neg fc_ne_exception,
    if_neg (by simp), if_neg (by simp)]
  rfl

/-- One attempt: the answer is taken, or it is discarded and the line stays silent. -/
theorem receive_eq (hlink : PromptLink t slave capacity Quiet)
    (haddr : comm.slaveaddr = slave.address) (hwell : request.WellFormed)
    (hsize : request.size ≤ capacity) {w : W} {state : SlaveState} (hquiet : Quiet w state)
    {fuel : ℕ} (hfuel : 2 ≤ fuel) :
    ∃ w₁ w₂, t.modbusTx (sealFrame (slave.address :: request.encode)) w = some (true, w₁) ∧
      comm.receive t request.fc request.rxsz (t.gettimeofday w₁) fuel w₁ =
        some (if comm.lastRx.contains (slave.entry state.received request) then .nothing
          else .accepted (slave.answer state.received request), w₂) ∧
        Quiet w₂ (state.execute request) := by
  obtain ⟨w₁, w₂, htx, hrx, helapsed, hquiet₂⟩ := hlink.answers hquiet hwell hsize
  obtain ⟨w₃, hsilent, hquiet₃⟩ := hlink.silent hquiet₂
  obtain ⟨fuel, rfl⟩ : ∃ m, fuel = m + 2 := ⟨fuel - 2, by omega⟩
  have htotal : ¬ tvDiffMs (t.gettimeofday w₁) (t.gettimeofday w₂) >
      modbusTotalRequestTimeoutMs := by
    simp only [modbusTotalRequestTimeoutMs]
    omega
  by_cases hheld : comm.lastRx.contains (slave.entry state.received request) = true
  · refine ⟨w₁, w₃, htx, ?_, hquiet₃⟩
    simp only [ModbusComm.receive, hrx, if_neg htotal, judge_reply haddr helapsed,
      if_pos hheld, hsilent]
  · refine ⟨w₁, w₂, htx, ?_, hquiet₂⟩
    simp only [ModbusComm.receive, hrx, if_neg htotal, judge_reply haddr helapsed,
      if_neg hheld]

/-- What {lit}`SendAndWait` returns when the abstract exchange has the given result. -/
def outcome (slave : Slave) (comm : ModbusComm) (request : Request) :
    Option ℕ → Option (List UInt8) × ModbusComm
  | none => (none, comm)
  | some k =>
      (some (slave.answer k request),
        { comm with lastRx := comm.lastRx.push (slave.entry k request) })

/-- The outer loop refines the abstract exchange. -/
theorem transmit_eq (hlink : PromptLink t slave capacity Quiet)
    (haddr : comm.slaveaddr = slave.address) (hwell : request.WellFormed)
    (hsize : request.size ≤ capacity) {fuel : ℕ} (hfuel : 2 ≤ fuel) (retries : ℕ)
    {w : W} {state : SlaveState} (hquiet : Quiet w state) :
    ∃ w', comm.transmit t fuel request.fc request.rxsz
        (sealFrame (slave.address :: request.encode)) retries w =
          some ((outcome slave comm request
            (exchange slave comm.lastRx request (retries + 1) state).1).1,
            (outcome slave comm request
              (exchange slave comm.lastRx request (retries + 1) state).1).2, w') ∧
        Quiet w' (exchange slave comm.lastRx request (retries + 1) state).2 := by
  induction retries generalizing w state with
  | zero =>
      obtain ⟨w₁, w₂, htx, hreceive, hquiet₂⟩ :=
        hlink.receive_eq haddr hwell hsize hquiet hfuel
      refine ⟨w₂, ?_, ?_⟩
      · rw [ModbusComm.transmit, htx]
        dsimp only
        rw [hreceive]
        simp only [exchange]
        split_ifs <;> rfl
      · simp only [exchange]
        split_ifs <;> exact hquiet₂
  | succ retries ih =>
      obtain ⟨w₁, w₂, htx, hreceive, hquiet₂⟩ :=
        hlink.receive_eq haddr hwell hsize hquiet hfuel
      rw [ModbusComm.transmit, htx]
      dsimp only
      rw [hreceive, exchange]
      split_ifs with hheld
      · exact ih hquiet₂
      · exact ⟨w₂, rfl, hquiet₂⟩

end PromptLink

end Apcupsd
