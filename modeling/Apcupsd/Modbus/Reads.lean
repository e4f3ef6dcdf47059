import Apcupsd.Modbus.Calls

/-!
# Reading from a healthy slave

A correct response that repeats one of the last six accepted ones is taken for a stale
duplicate.  The slave has answered, so nothing else arrives, the attempt times out after
a second, well before the exception for the end of the attempt, and the request is sent
again, three times in all.

Main results:

- Theorem {lit}`CallRecord.returnsContents_iff`: one call returns the register contents
  if and only if one of the three answers is not held in the history.
- Theorem {lit}`reads_return_contents_iff`: the same for every call of a run.
-/

namespace Apcupsd

namespace CallRecord

/-- The call is a {lit}`ReadRegister`, and it returned the contents of its registers at
the time of the last answer. -/
def ReturnsContents (slave : Slave) (record : CallRecord) : Prop :=
  ∃ reg nregs, record.request = .read reg nregs ∧
    record.result = .bytes (some (slave.contents (record.after.received - 1) reg nregs))

/-- One of the next three answers of the slave is not held in the history. -/
def AnswersAnew (slave : Slave) (record : CallRecord) : Prop :=
  ∃ j, j < 3 ∧ record.history.contains
    (slave.entry (record.before.received + j) record.request) = false

instance (slave : Slave) (record : CallRecord) : Decidable (record.AnswersAnew slave) :=
  inferInstanceAs (Decidable (∃ j, j < 3 ∧ _))

theorem returnsContents_iff {slave : Slave} {record : CallRecord} {reg : UInt16} {nregs : ℕ}
    (hrequest : record.request = .read reg nregs)
    (hresult : record.result = resultOf slave record.request
      (exchange slave record.history record.request 3 record.before).1)
    (hafter : record.after =
      (exchange slave record.history record.request 3 record.before).2) :
    record.ReturnsContents slave ↔ record.AnswersAnew slave := by
  have hsome := @exchange_isSome_iff slave record.history record.request 3 record.before
  cases haccepted : (exchange slave record.history record.request 3 record.before).1 with
  | none =>
      rw [haccepted] at hsome hresult
      rw [hrequest] at hresult
      constructor
      · rintro ⟨reg', nregs', _, hbytes⟩
        simp [hresult, resultOf] at hbytes
      · intro hanew
        simpa using hsome.mpr hanew
  | some k =>
      have hreceived := exchange_some haccepted
      rw [haccepted] at hsome hresult
      rw [hrequest] at hresult
      constructor
      · intro _
        exact hsome.mp rfl
      · intro _
        refine ⟨reg, nregs, hrequest, ?_⟩
        rw [hresult, hafter, hreceived]
        rfl

end CallRecord

/-- In a run of {lit}`ReadRegister` calls every call returns the current contents if and
only if before every call one of the next three answers is not held in the history. -/
theorem reads_return_contents_iff {c : Connection} (hprompt : c.Prompt) {fuel : ℕ}
    (hfuel : modbusMaxFrameSz ≤ fuel) {requests : List Request}
    (hreads : ∀ request ∈ requests, ∃ reg nregs, request = .read reg nregs)
    (hfit : ∀ request ∈ requests, request.size ≤ c.capacity) (clock : ℕ) :
    ∃ records, ModbusComm.runCalls (c.transport fuel) fuel c.state requests
        (ModbusComm.newOpened c.slave.address) (c.idle clock) = some records ∧
      records.map CallRecord.request = requests ∧
        ((∀ record ∈ records, record.ReturnsContents c.slave) ↔
          ∀ record ∈ records, record.AnswersAnew c.slave) := by
  have hwell : ∀ request ∈ requests, request.WellFormed ∧ request.size ≤ c.capacity := by
    intro request hrequest
    obtain ⟨reg, nregs, rfl⟩ := hreads request hrequest
    exact ⟨trivial, hfit _ hrequest⟩
  refine ⟨_, Connection.runCalls_eq hprompt hfuel hwell clock,
    map_request_abstractRun _ _ _ _, forall₂_congr ?_⟩
  intro record hrecord
  obtain ⟨hresult, hafter⟩ := eq_of_mem_abstractRun hrecord
  have hrequest : record.request ∈ requests := by
    rw [← map_request_abstractRun c.slave requests Ring.empty ⟨0, []⟩]
    exact List.mem_map_of_mem hrecord
  obtain ⟨reg, nregs, hread⟩ := hreads _ hrequest
  exact CallRecord.returnsContents_iff hread hresult hafter

/-! ## Examples of runs -/

/-- A slave on a serial line at 9600 baud that starts each answer after 50 ms. -/
def serialSlave (image : ℕ → ℕ → UInt16) : SerialSlave where
  address := 1
  image := image
  offset := fun _ i => 50000 + 1042 * i

theorem serialSlave_prompt (image : ℕ → ℕ → UInt16) : (serialSlave image).Prompt := by
  refine ⟨?_, ?_, ?_, ?_⟩ <;> intros <;> simp only [serialSlave] <;> omega

/-- A slave whose registers count the answers. -/
def countingSlave : Connection :=
  .serial (serialSlave fun k _ => UInt16.ofNat k)

/-- One register of it, read three times in a row. -/
theorem reads_return_contents_counting :
    ∃ records, ModbusComm.runCalls (countingSlave.transport 256) 256 countingSlave.state
        [.read 0 1, .read 0 1, .read 0 1] (ModbusComm.newOpened 1) (countingSlave.idle 0) =
          some records ∧
      ∀ record ∈ records, record.ReturnsContents countingSlave.slave := by
  have hprompt : countingSlave.Prompt := serialSlave_prompt _
  have hcalls := @Connection.runCalls_eq _ hprompt 256 le_rfl
    [.read 0 1, .read 0 1, .read 0 1] (by decide) 0
  obtain ⟨records, hrun, _, hiff⟩ := @reads_return_contents_iff _ hprompt 256 le_rfl
    [.read 0 1, .read 0 1, .read 0 1] (by simp) (by decide) 0
  obtain rfl := Option.some.inj (hrun.symm.trans hcalls)
  exact ⟨_, hrun, hiff.mpr (by decide +kernel)⟩

/-- A register that does not change, read twice in a row: the second read discards the
answer to each of its three requests and fails. -/
theorem reads_fail_unchanged :
    ¬ ∀ (c : Connection) (_ : c.Prompt) (fuel : ℕ) (_ : modbusMaxFrameSz ≤ fuel)
      (requests : List Request)
      (_ : ∀ request ∈ requests, ∃ reg nregs, request = .read reg nregs)
      (_ : ∀ request ∈ requests, request.size ≤ c.capacity) (clock : ℕ),
      ∃ records, ModbusComm.runCalls (c.transport fuel) fuel c.state requests
          (ModbusComm.newOpened c.slave.address) (c.idle clock) = some records ∧
        ∀ record ∈ records, record.ReturnsContents c.slave := by
  intro hclaim
  obtain ⟨records, hrun, hall⟩ := hclaim (.serial (serialSlave fun _ _ => 0))
    (serialSlave_prompt _) 256 le_rfl [.read 0 1, .read 0 1] (by simp) (by decide) 0
  have hresults : (some records).map resultsOf = some [.bytes (some [0, 0]), .bytes none] := by
    rw [← hrun]
    decide +kernel
  have hmem : CallResult.bytes none ∈ resultsOf records := by
    rw [Option.some.inj hresults]
    simp
  obtain ⟨record, hrecord, hnone⟩ := List.mem_map.mp hmem
  obtain ⟨reg, nregs, _, hsome⟩ := hall record hrecord
  simp [hnone] at hsome

end Apcupsd
