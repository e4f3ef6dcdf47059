import Apcupsd.Modbus.Reads

/-!
# Writing to a healthy slave

The acknowledgement of a write carries the address and the count of its registers and
nothing of the data.  A write whose acknowledgement is held in the history is executed
by the slave at each of the three transmissions and reported as failed.

Main results:

- Theorem {lit}`CallRecord.appliedOnce_iff`: one write is executed once and reported as
  done if and only if its acknowledgement is not held in the history.
- Theorem {lit}`CallRecord.applied_of_held`: otherwise it is executed three times and
  reported as failed.
- Theorem {lit}`writes_applied_once_iff`: the first statement for every write of a run.
-/

namespace Apcupsd

/-- The acknowledgement of a write does not depend on the state of the slave. -/
theorem entry_write (slave : Slave) (k : ℕ) (reg : UInt16) (nregs : ℕ) (data : List UInt8) :
    slave.entry k (.write reg nregs data) = slave.entry 0 (.write reg nregs data) := rfl

namespace CallRecord

variable {slave : Slave} {record : CallRecord} {reg : UInt16} {nregs : ℕ} {data : List UInt8}

/-- The call is a {lit}`WriteRegister`. -/
def IsWrite (record : CallRecord) : Prop :=
  ∃ reg nregs data, record.request = .write reg nregs data

/-- The write returned {lit}`true`, and during the call the slave executed it once and
nothing else. -/
def AppliedOnce (record : CallRecord) : Prop :=
  record.result = .done true ∧ record.after.executed = record.request :: record.before.executed

/-- The acknowledgement of the write is not held in the history. -/
def AcknowledgedAnew (slave : Slave) (record : CallRecord) : Prop :=
  record.history.contains (slave.entry 0 record.request) = false

instance (slave : Slave) (record : CallRecord) : Decidable (record.AcknowledgedAnew slave) :=
  inferInstanceAs (Decidable (_ = false))

/-- A write with a fresh acknowledgement needs one transmission. -/
theorem exchange_of_anew (hrequest : record.request = .write reg nregs data)
    (hanew : record.AcknowledgedAnew slave) :
    exchange slave record.history record.request 3 record.before =
      (some record.before.received, record.before.execute record.request) := by
  unfold AcknowledgedAnew at hanew
  rw [hrequest] at hanew ⊢
  rw [exchange, entry_write, if_neg (by simp [hanew])]

/-- A write whose acknowledgement is held is transmitted three times in vain. -/
theorem exchange_of_held (hrequest : record.request = .write reg nregs data)
    (hheld : record.history.contains (slave.entry 0 record.request) = true) :
    exchange slave record.history record.request 3 record.before =
      (none, ((record.before.execute record.request).execute record.request).execute
        record.request) := by
  rw [hrequest] at hheld ⊢
  simp only [exchange]
  rw [entry_write, if_pos hheld, entry_write, if_pos hheld, entry_write, if_pos hheld]

variable (hrequest : record.request = .write reg nregs data)
  (hresult : record.result = resultOf slave record.request
    (exchange slave record.history record.request 3 record.before).1)
  (hafter : record.after = (exchange slave record.history record.request 3 record.before).2)

include hrequest hresult hafter

/-- A held acknowledgement makes the slave execute the write three times, and the call
fails. -/
theorem applied_of_held
    (hheld : record.history.contains (slave.entry 0 record.request) = true) :
    record.result = .done false ∧ record.after.executed =
      record.request :: record.request :: record.request :: record.before.executed := by
  rw [exchange_of_held hrequest hheld] at hresult hafter
  rw [hresult, hafter, hrequest]
  exact ⟨rfl, rfl⟩

theorem appliedOnce_iff : record.AppliedOnce ↔ record.AcknowledgedAnew slave := by
  constructor
  · rintro ⟨hdone, _⟩
    unfold AcknowledgedAnew
    cases hheld : record.history.contains (slave.entry 0 record.request) with
    | false => rfl
    | true =>
        have hfailed := (applied_of_held hrequest hresult hafter hheld).1
        exact absurd (hdone.symm.trans hfailed) (by simp)
  · intro hanew
    rw [exchange_of_anew hrequest hanew] at hresult hafter
    unfold AppliedOnce
    rw [hresult, hafter, hrequest]
    exact ⟨rfl, rfl⟩

end CallRecord

/-- In a run of calls every {lit}`WriteRegister` is executed exactly once and reported as
done if and only if before every one of them its acknowledgement is not held in the
history. -/
theorem writes_applied_once_iff {c : Connection} (hprompt : c.Prompt) {fuel : ℕ}
    (hfuel : modbusMaxFrameSz ≤ fuel) {requests : List Request}
    (hfit : ∀ request ∈ requests, request.WellFormed ∧ request.size ≤ c.capacity)
    (clock : ℕ) :
    ∃ records, ModbusComm.runCalls (c.transport fuel) fuel c.state requests
        (ModbusComm.newOpened c.slave.address) (c.idle clock) = some records ∧
      records.map CallRecord.request = requests ∧
        ((∀ record ∈ records, record.IsWrite → record.AppliedOnce) ↔
          ∀ record ∈ records, record.IsWrite → record.AcknowledgedAnew c.slave) := by
  refine ⟨_, Connection.runCalls_eq hprompt hfuel hfit clock,
    map_request_abstractRun _ _ _ _, forall₂_congr ?_⟩
  intro record hrecord
  obtain ⟨hresult, hafter⟩ := eq_of_mem_abstractRun hrecord
  refine forall_congr' ?_
  rintro ⟨reg, nregs, data, hwrite⟩
  exact CallRecord.appliedOnce_iff hwrite hresult hafter

/-! ## Examples of runs -/

/-- Two writes of different registers with a read between them. -/
theorem writes_applied_once_twoRegisters :
    ∃ records, ModbusComm.runCalls (countingSlave.transport 256) 256 countingSlave.state
        [.write 5 1 [0, 1], .read 0 1, .write 6 1 [0, 1]] (ModbusComm.newOpened 1)
        (countingSlave.idle 0) = some records ∧
      ∀ record ∈ records, record.IsWrite → record.AppliedOnce := by
  have hprompt : countingSlave.Prompt := serialSlave_prompt _
  have hfit : ∀ request ∈ [Request.write 5 1 [0, 1], .read 0 1, .write 6 1 [0, 1]],
      request.WellFormed ∧ request.size ≤ countingSlave.capacity := by
    decide
  have hcalls := Connection.runCalls_eq hprompt (le_refl 256) hfit 0
  obtain ⟨records, hrun, _, hiff⟩ :=
    writes_applied_once_iff hprompt (le_refl 256) hfit 0
  obtain rfl := Option.some.inj (hrun.symm.trans hcalls)
  have hanew : ∀ record ∈ abstractRun countingSlave.slave
      [.write 5 1 [0, 1], .read 0 1, .write 6 1 [0, 1]] Ring.empty ⟨0, []⟩,
      record.AcknowledgedAnew countingSlave.slave := by
    decide +kernel
  exact ⟨_, hrun, hiff.mpr fun record hrecord _ => hanew record hrecord⟩

/-- The same write twice in a row, as two kill-power commands: the slave executes the
second one three times, and the call fails. -/
theorem writes_fail_repeated :
    ¬ ∀ (c : Connection) (_ : c.Prompt) (fuel : ℕ) (_ : modbusMaxFrameSz ≤ fuel)
      (requests : List Request)
      (_ : ∀ request ∈ requests, request.WellFormed ∧ request.size ≤ c.capacity)
      (clock : ℕ),
      ∃ records, ModbusComm.runCalls (c.transport fuel) fuel c.state requests
          (ModbusComm.newOpened c.slave.address) (c.idle clock) = some records ∧
        ∀ record ∈ records, record.IsWrite → record.AppliedOnce := by
  intro hclaim
  obtain ⟨records, hrun, hall⟩ := hclaim countingSlave (serialSlave_prompt _) 256 le_rfl
    [.write 5 1 [0, 1], .write 5 1 [0, 1]] (by decide) 0
  have hresults : (some records).map (fun list => list.map fun r => (r.request, r.result)) =
      some [(.write 5 1 [0, 1], .done true), (.write 5 1 [0, 1], .done false)] := by
    rw [← hrun]
    decide +kernel
  have hmem : (Request.write 5 1 [0, 1], CallResult.done false) ∈
      records.map fun r => (r.request, r.result) := by
    rw [show (records.map fun r => (r.request, r.result)) = _ from Option.some.inj hresults]
    simp
  obtain ⟨record, hrecord, hpair⟩ := List.mem_map.mp hmem
  obtain ⟨hrequest, hfailed⟩ := Prod.mk.inj hpair
  have hdone := (hall record hrecord ⟨5, 1, [0, 1], hrequest⟩).1
  exact absurd (hfailed.symm.trans hdone) (by simp)

end Apcupsd
