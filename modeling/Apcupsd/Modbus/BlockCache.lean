import Apcupsd.Modbus.Driver

/-!
# The buffers of the measurement blocks

The arrays {lit}`_measBlockA`, {lit}`_measBlockB` and {lit}`_measBlockC` with their
flags.  An array keeps the bytes of the last fetch that succeeded, however long ago that
was, and only the flag says whether they count.

Main results:

- Theorem {lit}`toDriver_fetchMeasurementBlocks`, {lit}`getRegisterData_toDriver`: behind
  the flags, a block that is not valid has no bytes.
- Theorem {lit}`getRegisterData_agrees`: a register that a fetched block covers is read
  from the cache as it would be read from the UPS.
-/

namespace Apcupsd

open ModbusUpsDriver (Registers registerBytes covered)

/-! ## The driver with its buffers -/

/-- {lit}`_measBlockX` and {lit}`_measBlockXValid`. -/
structure BlockBuffer where
  bytes : List UInt8
  valid : Bool
deriving DecidableEq, Repr

/-- The bytes, as far as the flag lets them through. -/
def BlockBuffer.current (buffer : BlockBuffer) : Option (List UInt8) :=
  if buffer.valid then some buffer.bytes else none

/-- {lit}`ModbusUpsDriver`, with the buffers as the source has them. -/
structure BufferedDriver where
  blockA : BlockBuffer
  blockB : BlockBuffer
  blockC : BlockBuffer
  commlostTime : Int
  statusFailCount : ℕ
  lastVolatileOk : Int
deriving DecidableEq, Repr

namespace BufferedDriver

variable (port : RegisterPort)

/-- The driver behind the flags. -/
def toDriver (driver : BufferedDriver) : ModbusUpsDriver where
  blockA := driver.blockA.current
  blockB := driver.blockB.current
  blockC := driver.blockC.current
  commlostTime := driver.commlostTime
  statusFailCount := driver.statusFailCount
  lastVolatileOk := driver.lastVolatileOk

/-- Each block with its buffer. -/
def blocks (driver : BufferedDriver) : List (MeasBlock × BlockBuffer) :=
  [(measBlockA, driver.blockA), (measBlockB, driver.blockB), (measBlockC, driver.blockC)]

/-- The retry loop of one block, with the attempts that are left. -/
def fetchBuffer (block : MeasBlock) : ℕ → BlockBuffer → ℕ → BlockBuffer × ℕ
  | 0, buffer, call => (buffer, call)
  | attempts + 1, buffer, call =>
      if buffer.valid then (buffer, call)
      else
        match port call block.addr block.nregs with
        | some data => fetchBuffer block attempts ⟨data, true⟩ (call + 1)
        | none => fetchBuffer block attempts buffer (call + 1)

/-- {lit}`FetchMeasurementBlocks`. -/
def fetchMeasurementBlocks (driver : BufferedDriver) (call : ℕ) : BufferedDriver × ℕ :=
  let (blockA, call) := fetchBuffer port measBlockA 2 { driver.blockA with valid := false } call
  let (blockB, call) := fetchBuffer port measBlockB 2 { driver.blockB with valid := false } call
  let (blockC, call) := fetchBuffer port measBlockC 2 { driver.blockC with valid := false } call
  ({ driver with blockA := blockA, blockB := blockB, blockC := blockC }, call)

/-- {lit}`GetRegisterData`. -/
def getRegisterData (driver : BufferedDriver) (reg : RegInfo) (forceLiveRead : Bool)
    (call : ℕ) : Option (List UInt8) × ℕ :=
  let inBlockA := measBlockA.covers reg
  let inBlockB := measBlockB.covers reg
  let inBlockC := measBlockC.covers reg
  if !forceLiveRead && (inBlockA || inBlockB || inBlockC) then
    if inBlockA && driver.blockA.valid then
      (some (measBlockA.slice reg driver.blockA.bytes), call)
    else if inBlockB && driver.blockB.valid then
      (some (measBlockB.slice reg driver.blockB.bytes), call)
    else if inBlockC && driver.blockC.valid then
      (some (measBlockC.slice reg driver.blockC.bytes), call)
    else (none, call)
  else ((port call reg.addr reg.nregs).map (List.take (reg.nregs * 2)), call + 1)

/-! ## Behind the flags -/

/-- What the flags let through of a fetch does not depend on what the buffer held. -/
theorem fetchBuffer_current (block : MeasBlock) (attempts : ℕ) (bytes : List UInt8)
    (call : ℕ) :
    ((fetchBuffer port block attempts ⟨bytes, false⟩ call).1.current,
        (fetchBuffer port block attempts ⟨bytes, false⟩ call).2) =
      ModbusUpsDriver.fetchBlock port block attempts call := by
  have hvalid : ∀ attempts data call,
      fetchBuffer port block attempts ⟨data, true⟩ call = (⟨data, true⟩, call) := by
    intro attempts data call
    cases attempts with
    | zero => rfl
    | succ attempts => simp [fetchBuffer]
  induction attempts generalizing call with
  | zero => rfl
  | succ attempts ih =>
      cases hanswer : port call block.addr block.nregs with
      | some data => simp [fetchBuffer, ModbusUpsDriver.fetchBlock, hanswer, hvalid,
          BlockBuffer.current]
      | none => simpa [fetchBuffer, ModbusUpsDriver.fetchBlock, hanswer] using ih (call + 1)

/-- A fetch of the buffers is a fetch of the blocks. -/
theorem toDriver_fetchMeasurementBlocks (driver : BufferedDriver) (call : ℕ) :
    ((driver.fetchMeasurementBlocks port call).1.toDriver,
        (driver.fetchMeasurementBlocks port call).2) =
      driver.toDriver.fetchMeasurementBlocks port call := by
  have hblock := fetchBuffer_current port
  unfold fetchMeasurementBlocks ModbusUpsDriver.fetchMeasurementBlocks toDriver
  simp only [← hblock measBlockA 2 driver.blockA.bytes, ← hblock measBlockB 2 driver.blockB.bytes,
    ← hblock measBlockC 2 driver.blockC.bytes]

/-- The flag of a buffer is tested beside the test of the range. -/
theorem orElse_current (block : MeasBlock) (buffer : BlockBuffer) (reg : RegInfo)
    (rest : Option (List UInt8)) :
    ((if block.covers reg then buffer.current.map (block.slice reg) else none) <|> rest) =
      if block.covers reg && buffer.valid then some (block.slice reg buffer.bytes) else rest := by
  rcases buffer with ⟨bytes, valid⟩
  cases block.covers reg <;> cases valid <;> rfl

/-- The bytes of a covered register in the buffers. -/
theorem toDriver_cachedData (driver : BufferedDriver) (reg : RegInfo) :
    driver.toDriver.cachedData reg =
      if measBlockA.covers reg && driver.blockA.valid then
        some (measBlockA.slice reg driver.blockA.bytes)
      else if measBlockB.covers reg && driver.blockB.valid then
        some (measBlockB.slice reg driver.blockB.bytes)
      else if measBlockC.covers reg && driver.blockC.valid then
        some (measBlockC.slice reg driver.blockC.bytes)
      else none := by
  have hnone : ∀ found : Option (List UInt8), found = (found <|> none) := by
    intro found
    cases found <;> rfl
  have hassoc : ∀ first second third : Option (List UInt8),
      ((first <|> second) <|> third) = (first <|> (second <|> third)) := by
    intro first second third
    cases first <;> rfl
  unfold ModbusUpsDriver.cachedData toDriver
  dsimp only
  rw [hassoc, orElse_current, orElse_current, hnone (if measBlockC.covers reg then _ else none),
    orElse_current]

/-- A read through the buffers is a read through the driver behind the flags. -/
theorem getRegisterData_toDriver (driver : BufferedDriver) (reg : RegInfo)
    (forceLiveRead : Bool) (call : ℕ) :
    driver.getRegisterData port reg forceLiveRead call =
      driver.toDriver.getRegisterData port reg forceLiveRead call := by
  unfold getRegisterData ModbusUpsDriver.getRegisterData ModbusUpsDriver.covered
  rw [toDriver_cachedData]
  dsimp only
  split_ifs <;> rfl

/-! ## Agreement with the live path -/

/-- Every answer of {lit}`ReadRegister` is what the registers hold. -/
def ReadsFrom (image : Registers) : Prop :=
  ∀ call addr nregs data, port call addr nregs = some data →
    data = registerBytes image addr nregs

theorem covers_iff (block : MeasBlock) (reg : RegInfo) :
    block.covers reg = true ↔
      block.addr ≤ reg.addr ∧ reg.addr + reg.nregs ≤ block.addr + block.nregs := by
  unfold MeasBlock.covers
  rw [decide_eq_true_iff]

/-- No range lies in two of the blocks. -/
theorem covers_disjoint (reg : RegInfo) :
    ¬ (measBlockA.covers reg = true ∧ measBlockB.covers reg = true) ∧
      ¬ (measBlockA.covers reg = true ∧ measBlockC.covers reg = true) ∧
      ¬ (measBlockB.covers reg = true ∧ measBlockC.covers reg = true) := by
  rw [covers_iff, covers_iff, covers_iff]
  unfold measBlockA measBlockB measBlockC
  dsimp only
  omega

/-- The covering block, and no other, answers, and it does so without a call. -/
theorem getRegisterData_of_covers {driver : BufferedDriver} {reg : RegInfo} {block : MeasBlock}
    {buffer : BlockBuffer} (hmem : (block, buffer) ∈ driver.blocks)
    (hcovers : block.covers reg = true) (call : ℕ) :
    driver.getRegisterData port reg false call =
      (if buffer.valid then some (block.slice reg buffer.bytes) else none, call) := by
  rcases covers_disjoint reg with ⟨hAB, hAC, hBC⟩
  simp only [blocks, List.mem_cons, Prod.mk.injEq, List.not_mem_nil, or_false] at hmem
  rcases hmem with ⟨rfl, rfl⟩ | ⟨rfl, rfl⟩ | ⟨rfl, rfl⟩
  · simp only [hcovers, true_and, Bool.not_eq_true] at hAB hAC
    unfold getRegisterData
    simp only [hcovers, hAB, hAC, Bool.not_false, Bool.or_false, Bool.and_self, if_true,
      Bool.true_and, Bool.false_and, Bool.false_eq_true, if_false]
    split_ifs <;> rfl
  · simp only [hcovers, and_true, true_and, Bool.not_eq_true] at hAB hBC
    unfold getRegisterData
    simp only [hcovers, hAB, hBC, Bool.not_false, Bool.or_false, Bool.or_true, Bool.and_self,
      if_true, Bool.true_and, Bool.false_and, Bool.false_eq_true, if_false]
    split_ifs <;> rfl
  · simp only [hcovers, and_true, Bool.not_eq_true] at hAC hBC
    unfold getRegisterData
    simp only [hcovers, hAC, hBC, Bool.not_false, Bool.or_true, Bool.and_self, if_true,
      Bool.true_and, Bool.false_and, Bool.false_eq_true, if_false]
    split_ifs <;> rfl

theorem answer_of_fetchBlock {block : MeasBlock} {attempts call : ℕ} {data : List UInt8}
    (hdata : (ModbusUpsDriver.fetchBlock port block attempts call).1 = some data) :
    ∃ turn, port turn block.addr block.nregs = some data := by
  induction attempts generalizing call with
  | zero => cases hdata
  | succ attempts ih =>
      unfold ModbusUpsDriver.fetchBlock at hdata
      split at hdata
      · rename_i answer hanswer
        obtain rfl := Option.some.inj hdata
        exact ⟨call, hanswer⟩
      · exact ih hdata

/-- A buffer that has been fetched holds the bytes of an answer. -/
theorem answer_of_fetched (driver : BufferedDriver) (call : ℕ) {block : MeasBlock}
    {buffer : BlockBuffer}
    (hmem : (block, buffer) ∈ (driver.fetchMeasurementBlocks port call).1.blocks)
    (hvalid : buffer.valid = true) :
    ∃ turn, port turn block.addr block.nregs = some buffer.bytes := by
  have hbuffer : ∀ (before : BlockBuffer) call,
      (fetchBuffer port block 2 { before with valid := false } call).1 = buffer →
      ∃ turn, port turn block.addr block.nregs = some buffer.bytes := by
    intro before call hfetched
    have hcurrent := congrArg Prod.fst (fetchBuffer_current port block 2 before.bytes call)
    dsimp only at hcurrent
    rw [hfetched, BlockBuffer.current, if_pos hvalid] at hcurrent
    exact answer_of_fetchBlock port hcurrent.symm
  simp only [fetchMeasurementBlocks, blocks, List.mem_cons, Prod.mk.injEq, List.not_mem_nil,
    or_false] at hmem
  rcases hmem with ⟨rfl, hfetched⟩ | ⟨rfl, hfetched⟩ | ⟨rfl, hfetched⟩
  · exact hbuffer _ _ hfetched.symm
  · exact hbuffer _ _ hfetched.symm
  · exact hbuffer _ _ hfetched.symm

/-- What a live read of registers returns, if it succeeds. -/
theorem getRegisterData_live {image : Registers} (himage : ReadsFrom port image)
    (driver : BufferedDriver) (reg : RegInfo) (call : ℕ) {data : List UInt8}
    (hdata : (driver.getRegisterData port reg true call).1 = some data) :
    data = registerBytes image reg.addr reg.nregs := by
  simp only [getRegisterData, Bool.not_true, Bool.false_and, Bool.false_eq_true, if_false,
    Option.map_eq_some_iff] at hdata
  rcases hdata with ⟨answer, hanswer, rfl⟩
  rw [himage _ _ _ _ hanswer, ← ModbusUpsDriver.length_registerBytes image reg.addr reg.nregs,
    List.take_length]

/-- After a fetch, a range that a valid block covers is read from the cache as it would be
read from the UPS, and one whose block is not valid is not read; a range that no block
covers is read from the UPS. -/
theorem getRegisterData_agrees {image : Registers} (himage : ReadsFrom port image)
    (driver : BufferedDriver) (call : ℕ) (reg : RegInfo) (later : ℕ) :
    let fetched := (driver.fetchMeasurementBlocks port call).1
    (∀ block buffer, (block, buffer) ∈ fetched.blocks → block.covers reg = true →
      if buffer.valid then
        fetched.getRegisterData port reg false later =
            (some (registerBytes image reg.addr reg.nregs), later) ∧
          ∀ again data, (fetched.getRegisterData port reg true again).1 = some data →
            data = registerBytes image reg.addr reg.nregs
      else fetched.getRegisterData port reg false later = (none, later)) ∧
    ((∀ block buffer, (block, buffer) ∈ fetched.blocks → block.covers reg = false) →
      fetched.getRegisterData port reg false later =
        ((port later reg.addr reg.nregs).map (List.take (reg.nregs * 2)), later + 1)) := by
  intro fetched
  constructor
  · intro block buffer hmem hcovers
    have hcached := getRegisterData_of_covers port hmem hcovers later
    cases hvalid : buffer.valid with
    | true =>
        rw [if_pos rfl]
        rcases answer_of_fetched port driver call hmem hvalid with ⟨turn, hanswer⟩
        rw [hvalid, if_pos rfl, himage _ _ _ _ hanswer, ModbusUpsDriver.slice_registerBytes hcovers] at hcached
        exact ⟨hcached, fun again data => getRegisterData_live port himage fetched reg again⟩
    | false =>
        rw [if_neg Bool.false_ne_true]
        rwa [hvalid, if_neg Bool.false_ne_true] at hcached
  · intro hnone
    have hA := hnone measBlockA fetched.blockA (by simp [blocks])
    have hB := hnone measBlockB fetched.blockB (by simp [blocks])
    have hC := hnone measBlockC fetched.blockC (by simp [blocks])
    simp [getRegisterData, hA, hB, hC]

/-! ## Examples of reads -/

/-- Each register holds its own address. -/
def countingImage : Registers := fun addr => UInt16.ofNat addr

/-- A UPS that does not answer for the second block. -/
def patchyPort : RegisterPort := fun _ addr nregs =>
  if addr = measBlockB.addr then none else some (registerBytes countingImage addr nregs)

theorem patchyPort_readsFrom : ReadsFrom patchyPort countingImage := by
  intro call addr nregs data hdata
  unfold patchyPort at hdata
  split_ifs at hdata
  exact (Option.some.inj hdata).symm

/-- A driver whose buffers are valid and full of zeros. -/
def zeroDriver : BufferedDriver where
  blockA := ⟨List.replicate 38 0, true⟩
  blockB := ⟨List.replicate 4 0, true⟩
  blockC := ⟨List.replicate 54 0, true⟩
  commlostTime := 0
  statusFailCount := 0
  lastVolatileOk := 0

/-- The last register of the first block comes from the cache, the one behind it is read, and
one of the second block is not. -/
theorem getRegisterData_agrees_patchy :
    let fetched := (zeroDriver.fetchMeasurementBlocks patchyPort 0).1
    fetched.getRegisterData patchyPort ⟨146, 1, .dtUint, 0⟩ false 9 = (some [0, 146], 9) ∧
      fetched.getRegisterData patchyPort ⟨147, 1, .dtUint, 0⟩ false 9 = (some [0, 147], 10) ∧
      fetched.getRegisterData patchyPort ⟨150, 1, .dtUint, 0⟩ false 9 = (none, 9) := by
  have hagrees := getRegisterData_agrees patchyPort patchyPort_readsFrom zeroDriver 0
  refine ⟨?_, ?_, ?_⟩
  · exact ((hagrees ⟨146, 1, .dtUint, 0⟩ 9).1 measBlockA _ List.mem_cons_self (by decide)).1
  · refine ((hagrees ⟨147, 1, .dtUint, 0⟩ 9).2 ?_).trans (by decide +kernel)
    intro block buffer hmem
    simp only [blocks, List.mem_cons, Prod.mk.injEq, List.not_mem_nil, or_false] at hmem
    rcases hmem with ⟨rfl, -⟩ | ⟨rfl, -⟩ | ⟨rfl, -⟩ <;> decide
  · exact (hagrees ⟨150, 1, .dtUint, 0⟩ 9).1 measBlockB _
      (List.mem_cons_of_mem _ List.mem_cons_self) (by decide)

end BufferedDriver

end Apcupsd
