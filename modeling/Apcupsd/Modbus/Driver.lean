import Apcupsd.Core.PowerFailurePass
import Apcupsd.Modbus.Frame
import Apcupsd.Modbus.Mapping

/-!
# The MODBUS driver

{lit}`ModbusUpsDriver` from {lit}`drivers/modbus/modbus.cpp`: the measurement blocks
that it caches, the capability probe, the passes over {lit}`CI_TABLE`, and its
{lit}`entry_point`.

Main results:

- Theorem {lit}`updateCis_dynamic`: the items of a dynamic pass are decoded from the
  cached blocks.
- Theorem {lit}`applyUpdates_lineFlags`: a pass over the table leaves the line flags of the
  status register it decodes.
- Theorem {lit}`getCapabilities_cap`: if every read succeeds, every item of the table is
  a capability.
-/

namespace Apcupsd

open BitFlags Apcupsd.Core

/-! ## The measurement blocks -/

/-- A range of registers that is fetched in one transaction. -/
structure MeasBlock where
  addr : ℕ
  nregs : ℕ
deriving DecidableEq, Repr

def measBlockA : MeasBlock := ⟨128, 19⟩
def measBlockB : MeasBlock := ⟨150, 2⟩
def measBlockC : MeasBlock := ⟨0, 27⟩

namespace MeasBlock

/-- The test {lit}`inBlockX` of {lit}`GetRegisterData`. -/
def covers (block : MeasBlock) (reg : RegInfo) : Bool :=
  decide (block.addr ≤ reg.addr ∧ reg.addr + reg.nregs ≤ block.addr + block.nregs)

/-- The bytes of a register in the bytes of a block. -/
def slice (block : MeasBlock) (reg : RegInfo) (data : List UInt8) : List UInt8 :=
  (data.drop ((reg.addr - block.addr) * 2)).take (reg.nregs * 2)

end MeasBlock

/-- {lit}`ModbusUpsDriver`; a block that is not valid has no bytes. -/
structure ModbusUpsDriver where
  blockA : Option (List UInt8)
  blockB : Option (List UInt8)
  blockC : Option (List UInt8)
  commlostTime : Int
  statusFailCount : ℕ
  lastVolatileOk : Int

/-- The constructor. -/
def newModbusUpsDriver (time : Int) : ModbusUpsDriver where
  blockA := none
  blockB := none
  blockC := none
  commlostTime := 0
  statusFailCount := 0
  lastVolatileOk := time

/-- The answers to the calls of {lit}`ReadRegister`, by the number of the call. -/
abbrev RegisterPort := ℕ → (addr nregs : ℕ) → Option (List UInt8)

namespace ModbusUpsDriver

variable (port : RegisterPort)

/-- The retry loop of one block; the second component is the number of the next
call. -/
def fetchBlock (block : MeasBlock) : ℕ → ℕ → Option (List UInt8) × ℕ
  | 0, call => (none, call)
  | attempts + 1, call =>
      match port call block.addr block.nregs with
      | some data => (some data, call + 1)
      | none => fetchBlock block attempts (call + 1)

/-- {lit}`FetchMeasurementBlocks`. -/
def fetchMeasurementBlocks (driver : ModbusUpsDriver) (call : ℕ) : ModbusUpsDriver × ℕ :=
  let (blockA, call) := fetchBlock port measBlockA 2 call
  let (blockB, call) := fetchBlock port measBlockB 2 call
  let (blockC, call) := fetchBlock port measBlockC 2 call
  ({ driver with blockA := blockA, blockB := blockB, blockC := blockC }, call)

/-- The register lies in one of the blocks. -/
def covered (reg : RegInfo) : Bool :=
  measBlockA.covers reg || measBlockB.covers reg || measBlockC.covers reg

/-- The bytes of a covered register in the cache. -/
def cachedData (driver : ModbusUpsDriver) (reg : RegInfo) : Option (List UInt8) :=
  let inBlock (block : MeasBlock) (cached : Option (List UInt8)) : Option (List UInt8) :=
    if block.covers reg then cached.map (block.slice reg) else none
  (inBlock measBlockA driver.blockA <|> inBlock measBlockB driver.blockB) <|>
    inBlock measBlockC driver.blockC

/-- {lit}`GetRegisterData`: no individual read of a covered register, unless a live
read is forced. -/
def getRegisterData (driver : ModbusUpsDriver) (reg : RegInfo) (forceLiveRead : Bool)
    (call : ℕ) : Option (List UInt8) × ℕ :=
  if !forceLiveRead && covered reg then (driver.cachedData reg, call)
  else ((port call reg.addr reg.nregs).map (List.take (reg.nregs * 2)), call + 1)

/-- {lit}`UpdateCi` up to the lock: the item to be stored, if the register could be
read. -/
def updateCi (driver : ModbusUpsDriver) (info : CiInfo) (forceLiveRead : Bool) (call : ℕ) :
    Option (Ci × CiValue) × ℕ :=
  let (data, call) := getRegisterData port driver info.reg forceLiveRead call
  (data.map fun data => (info.ci, decode info.reg data), call)

/-- {lit}`UpdateCis` over the rest of the table. -/
def updateCis (driver : ModbusUpsDriver) (cap : Ci → Bool) (dynamic : Bool) :
    List CiInfo → ℕ → List (Ci × CiValue) × ℕ
  | [], call => ([], call)
  | info :: table, call =>
      if cap info.ci && info.dynamic == dynamic then
        let (item, call) := updateCi port driver info false call
        let (items, call) := updateCis driver cap dynamic table call
        (item.toList ++ items, call)
      else updateCis driver cap dynamic table call

/-- The stores of a pass over the table, one lock for each. -/
def storeItems (items : List (Ci × CiValue)) : List DriverUpdate :=
  items.map fun item => ciUpdate item.1 item.2

/-! ## Set-up -/

/-- The probe of one capability: the blocks are fetched anew after each failure. -/
def probe (info : CiInfo) : ℕ → ModbusUpsDriver → ℕ → Bool × ModbusUpsDriver × ℕ
  | 0, driver, call => (false, driver, call)
  | attempts + 1, driver, call =>
      match getRegisterData port driver info.reg false call with
      | (some _, call) => (true, driver, call)
      | (none, call) =>
          let (driver, call) := fetchMeasurementBlocks port driver call
          probe info attempts driver call

/-- The loop of {lit}`get_capabilities`. -/
def probeAll : List CiInfo → (Ci → Bool) → ModbusUpsDriver → ℕ →
    (Ci → Bool) × ModbusUpsDriver × ℕ
  | [], cap, driver, call => (cap, driver, call)
  | info :: table, cap, driver, call =>
      let (ok, driver, call) := probe port info 3 driver call
      probeAll table (fun ci => if ok ∧ ci = info.ci then true else cap ci) driver call

/-- {lit}`get_capabilities`. -/
def getCapabilities (driver : ModbusUpsDriver) (cap : Ci → Bool) (call : ℕ) :
    (Ci → Bool) × ModbusUpsDriver × ℕ :=
  let (driver, call) := fetchMeasurementBlocks port driver call
  probeAll port ciTable cap driver call

/-- {lit}`read_static_data`: the whole pass is made a few times. -/
def readStaticData (driver : ModbusUpsDriver) (cap : Ci → Bool) :
    ℕ → ℕ → List (Ci × CiValue)
  | 0, _ => []
  | attempts + 1, call =>
      let (items, call) := updateCis port driver cap false ciTable call
      items ++ readStaticData driver cap attempts call

/-! ## The polled data and the entry point -/

/-- {lit}`_ups->poll_time = time(NULL)`. -/
def stampPollTime (time : Int) : DriverUpdate where
  apply := fun ups => { ups with pollTime := time }
  frame := fun _ => ⟨rfl, rfl, rfl⟩

/-- A transfer that was a self test sets the start time of the test. -/
def stampSelfTest (time : Int) : DriverUpdate where
  apply := fun ups => if ups.lastxfer = .xferSelftest then { ups with selfTest := time } else ups
  frame := fun ups => by
    split
    · exact ⟨rfl, rfl, rfl⟩
    · exact DriverFrame.refl ups

/-- {lit}`read_volatile_data`: the driver afterwards, what it stores, and whether it has
reopened the device because the blocks have been stale for too long. -/
def readVolatileData (time : Int) (driver : ModbusUpsDriver) (cap : Ci → Bool) :
    ModbusUpsDriver × List DriverUpdate × Bool :=
  let (fetched, call) := fetchMeasurementBlocks port driver 0
  let clean := fetched.blockA.isSome && fetched.blockB.isSome && fetched.blockC.isSome
  let reopened := !clean && decide (time - fetched.lastVolatileOk ≥ 180)
  let dated := if clean || reopened then { fetched with lastVolatileOk := time } else fetched
  let (items, _) := updateCis port dated cap true ciTable call
  (dated, storeItems items ++ (if items = [] then [] else [stampPollTime time]), reopened)

/-- {lit}`entry_point`: only the check for a self test does anything, and it decodes
the cached blocks. -/
def entryPoint (time : Int) (driver : ModbusUpsDriver) (cap : Ci → Bool) :
    DeviceCmd → List DriverUpdate
  | .checkSelftest =>
      if cap .whyBatt then
        let (items, _) := updateCis port driver cap true ciTable 0
        storeItems items ++ (if items = [] then [] else [stampSelfTest time])
      else []
  | .getSelftestMsg | .dtrEnable | .dtrStDisable => []

/-! ## A dynamic pass over the table -/

/-- The item that a dynamic entry of the table yields. -/
def cachedItem (driver : ModbusUpsDriver) (info : CiInfo) : Option (Ci × CiValue) :=
  (driver.cachedData info.reg).map fun data => (info.ci, decode info.reg data)

/-- The items of a dynamic pass. -/
def cachedItems (driver : ModbusUpsDriver) (cap : Ci → Bool) : List (Ci × CiValue) :=
  (ciTable.filter fun info => cap info.ci && info.dynamic).filterMap (cachedItem driver)

theorem covered_of_dynamic :
    ∀ info ∈ ciTable, info.dynamic = true → covered info.reg = true := by
  decide

theorem getRegisterData_of_covered {reg : RegInfo} (hcovered : covered reg = true)
    (driver : ModbusUpsDriver) (call : ℕ) :
    getRegisterData port driver reg false call = (driver.cachedData reg, call) := by
  unfold getRegisterData
  rw [hcovered]
  rfl

/-- A dynamic pass makes no call and decodes the cached blocks. -/
theorem updateCis_dynamic (driver : ModbusUpsDriver) (cap : Ci → Bool) (call : ℕ) :
    updateCis port driver cap true ciTable call = (cachedItems driver cap, call) := by
  unfold cachedItems
  have htable := covered_of_dynamic
  revert htable
  generalize ciTable = table
  intro htable
  induction table with
  | nil => rfl
  | cons info table ih =>
      have hrest := ih fun later hlater => htable later (List.mem_cons_of_mem _ hlater)
      unfold updateCis
      rw [show (info.dynamic == true) = info.dynamic from beq_true info.dynamic]
      cases hquery : cap info.ci && info.dynamic with
      | false =>
          rw [if_neg Bool.false_ne_true, hrest, List.filter_cons_of_neg (by simp [hquery])]
      | true =>
          have hdynamic : info.dynamic = true := (Bool.and_eq_true_iff.mp hquery).2
          rw [if_pos rfl, List.filter_cons_of_pos
            (p := fun info : CiInfo => cap info.ci && info.dynamic) hquery]
          unfold updateCi
          rw [getRegisterData_of_covered port (htable info List.mem_cons_self hdynamic)]
          dsimp only
          rw [hrest, List.filterMap_cons]
          unfold cachedItem
          cases driver.cachedData info.reg <;> rfl

theorem mem_cachedItems {driver : ModbusUpsDriver} {cap : Ci → Bool} {ci : Ci}
    {value : CiValue} (hmem : (ci, value) ∈ cachedItems driver cap) :
    ∃ info ∈ ciTable, info.ci = ci ∧
      ∃ data, driver.cachedData info.reg = some data ∧ value = decode info.reg data := by
  rcases List.mem_filterMap.mp hmem with ⟨info, hinfo, hitem⟩
  rcases Option.map_eq_some_iff.mp hitem with ⟨data, hdata, hvalue⟩
  rcases Prod.mk.inj hvalue with ⟨hci, hvalue⟩
  exact ⟨info, (List.mem_filter.mp hinfo).1, hci, data, hdata, hvalue.symm⟩

/-- The status register is one of the items, if it is a capability and cached. -/
theorem status_mem_cachedItems {driver : ModbusUpsDriver} {cap : Ci → Bool}
    (hcap : cap .status = true) {data : List UInt8}
    (hdata : driver.cachedData regUpsStatus = some data) :
    (Ci.status, decode regUpsStatus data) ∈ cachedItems driver cap := by
  refine List.mem_filterMap.mpr ⟨⟨.status, true, regUpsStatus⟩, ?_, ?_⟩
  · exact List.mem_filter.mpr ⟨by decide, by simp [hcap]⟩
  · unfold cachedItem
    rw [hdata]
    rfl

/-- The line flags that the cached status register stands for. -/
def cachedFlags (driver : ModbusUpsDriver) : Bool × Bool :=
  match driver.cachedData regUpsStatus with
  | some data => lineFlagsOf (decode regUpsStatus data).uint
  | none => (false, false)

theorem storeItems_lineFlags {items : List (Ci × CiValue)} {flags : Bool × Bool}
    (hflags : ∀ value, (Ci.status, value) ∈ items → lineFlagsOf value.uint = flags)
    {ups : UpsInfo}
    (hstart : ups.lineFlags = flags ∨ ∃ value, (Ci.status, value) ∈ items) :
    (applyUpdates (storeItems items) ups).lineFlags = flags := by
  induction items generalizing ups with
  | nil =>
      rcases hstart with hsame | ⟨value, hmem⟩
      · exact hsame
      · cases hmem
  | cons item items ih =>
      rcases item with ⟨ci, value⟩
      refine ih (fun later hlater => hflags later (List.mem_cons_of_mem _ hlater)) ?_
      by_cases hci : ci = .status
      · subst hci
        exact .inl ((applyCi_status value ups).trans (hflags value List.mem_cons_self))
      · rcases hstart with hsame | ⟨later, hmem⟩
        · exact .inl ((applyCi_lineFlags hci value ups).trans hsame)
        · rcases List.mem_cons.mp hmem with heq | hmem
          · exact absurd (Prod.mk.inj heq).1.symm hci
          · exact .inr ⟨later, hmem⟩

/-- Updates after which the status word and the capabilities are as before. -/
def Stamps (updates : List DriverUpdate) : Prop :=
  ∀ update ∈ updates, ∀ ups, (update.apply ups).status = ups.status ∧
    (update.apply ups).upsCap = ups.upsCap

theorem stamps_pollTime (time : Int) (empty : Prop) [Decidable empty] :
    Stamps (if empty then [] else [stampPollTime time]) := by
  intro update hmem ups
  split at hmem
  · cases hmem
  · rw [List.mem_singleton.mp hmem]
    exact ⟨rfl, rfl⟩

theorem stamps_selfTest (time : Int) (empty : Prop) [Decidable empty] :
    Stamps (if empty then [] else [stampSelfTest time]) := by
  intro update hmem ups
  split at hmem
  · cases hmem
  · rw [List.mem_singleton.mp hmem]
    unfold stampSelfTest
    dsimp only
    split <;> exact ⟨rfl, rfl⟩

theorem applyUpdates_append (first second : List DriverUpdate) (ups : UpsInfo) :
    applyUpdates (first ++ second) ups = applyUpdates second (applyUpdates first ups) :=
  List.foldl_append

/-- A dynamic pass leaves the line flags of the cached status register. -/
theorem applyUpdates_lineFlags {driver : ModbusUpsDriver} {cap : Ci → Bool}
    (hcap : cap .status = true) {data : List UInt8}
    (hdata : driver.cachedData regUpsStatus = some data) {stamps : List DriverUpdate}
    (hstamps : Stamps stamps) (ups : UpsInfo) :
    (applyUpdates (storeItems (cachedItems driver cap) ++ stamps) ups).lineFlags =
      driver.cachedFlags := by
  have hflags : ∀ value, (Ci.status, value) ∈ cachedItems driver cap →
      lineFlagsOf value.uint = driver.cachedFlags := by
    intro value hmem
    have honly : ∀ info ∈ ciTable, info.ci = .status → info.reg = regUpsStatus := by decide
    rcases mem_cachedItems hmem with ⟨info, hinfo, hci, found, hfound, rfl⟩
    rw [honly info hinfo hci] at hfound ⊢
    unfold cachedFlags
    rw [hfound]
  rw [applyUpdates_append]
  refine applyUpdates_invariant (P := fun ups => ups.lineFlags = driver.cachedFlags) ?_
    (storeItems_lineFlags hflags (.inr ⟨_, status_mem_cachedItems hcap hdata⟩))
  intro update hmem before hbefore
  rw [← hbefore]
  unfold UpsInfo.lineFlags UpsInfo.isOnline UpsInfo.isOnbatt UpsInfo.test
  rw [(hstamps update hmem before).1]

theorem mem_storeItems {items : List (Ci × CiValue)} {stamps : List DriverUpdate}
    {update : DriverUpdate} (hmem : update ∈ storeItems items ++ stamps) :
    (∃ ci value, (ci, value) ∈ items ∧ update = ciUpdate ci value) ∨ update ∈ stamps := by
  rcases List.mem_append.mp hmem with hitem | hstamp
  · rcases List.mem_map.mp hitem with ⟨⟨ci, value⟩, hlisted, rfl⟩
    exact .inl ⟨ci, value, hlisted, rfl⟩
  · exact .inr hstamp

/-- No pass over the table writes the capabilities. -/
theorem update_upsCap {items : List (Ci × CiValue)} {stamps : List DriverUpdate}
    (hstamps : Stamps stamps) {update : DriverUpdate}
    (hmem : update ∈ storeItems items ++ stamps) (ups : UpsInfo) :
    (update.apply ups).upsCap = ups.upsCap := by
  rcases mem_storeItems hmem with ⟨ci, value, _, rfl⟩ | hstamp
  · exact (applyCi_fields ci value ups).2.2
  · exact (hstamps update hstamp ups).2

/-! ## Calm records -/

/-- No calibration, no remote shutdown, and the connection is up. -/
structure Calm (ups : UpsInfo) : Prop where
  calibration : ups.isCalibration = false
  remote : ups.isShutRemote = false
  commlost : ups.isCommlost = false

/-- The value of the calibration register shows a calibration. -/
def calibrating (value : CiValue) : Bool :=
  anyBit value.uint (csPending ||| csInProgress)

/-- The cached calibration register shows no calibration. -/
def CachedCalm (driver : ModbusUpsDriver) : Prop :=
  ∀ data, driver.cachedData regCalibrationStatus = some data →
    calibrating (decode regCalibrationStatus data) = false

theorem Calm.of_status {before after : UpsInfo} (hcalm : Calm before)
    (hstatus : after.status = before.status) : Calm after := by
  have htest : ∀ mask, after.test mask = before.test mask := by
    intro mask
    unfold UpsInfo.test
    rw [hstatus]
  exact ⟨(htest _).trans hcalm.calibration, (htest _).trans hcalm.remote,
    (htest _).trans hcalm.commlost⟩

/-- An item keeps a record calm, unless it reports a calibration. -/
theorem Calm.applyCi {ups : UpsInfo} (hcalm : Calm ups) {ci : Ci} {value : CiValue}
    (hvalue : ci = .calibration → calibrating value = false) : Calm (applyCi ci value ups) := by
  have hother : ∀ ci : Ci, upsShutRemote &&& ~~~ciBits ci = upsShutRemote ∧
      upsCommlost &&& ~~~ciBits ci = upsCommlost := by
    intro ci
    cases ci <;> decide
  refine ⟨?_, (applyCi_test (hother ci).1 value ups).trans hcalm.remote,
    (applyCi_test (hother ci).2 value ups).trans hcalm.commlost⟩
  by_cases hci : ci = .calibration
  · subst hci
    change (ups.setVal upsCalibration (calibrating value)).isCalibration = false
    rw [hvalue rfl]
    exact UpsInfo.test_clear_self (by decide) ups
  · have hmask : upsCalibration &&& ~~~ciBits ci = upsCalibration := by
      cases ci <;> first | exact absurd rfl hci | decide
    exact (applyCi_test hmask value ups).trans hcalm.calibration

/-- A dynamic pass over calm blocks keeps a record calm. -/
theorem update_calm {driver : ModbusUpsDriver} (hcached : driver.CachedCalm)
    {cap : Ci → Bool} {stamps : List DriverUpdate} (hstamps : Stamps stamps)
    {update : DriverUpdate} (hmem : update ∈ storeItems (cachedItems driver cap) ++ stamps)
    {ups : UpsInfo} (hcalm : Calm ups) : Calm (update.apply ups) := by
  have honly : ∀ info ∈ ciTable, info.ci = .calibration → info.reg = regCalibrationStatus := by
    decide
  rcases mem_storeItems hmem with ⟨ci, value, hitem, rfl⟩ | hstamp
  · refine hcalm.applyCi (fun hci => ?_)
    rcases mem_cachedItems hitem with ⟨info, hinfo, hsame, data, hdata, rfl⟩
    rw [honly info hinfo (hsame.trans hci)] at hdata ⊢
    exact hcached data hdata
  · exact hcalm.of_status (hstamps update hstamp ups).1

/-! ## Reads that all succeed -/

/-- The contents of the registers. -/
abbrev Registers := ℕ → UInt16

/-- The bytes of a range of registers. -/
def registerBytes (image : Registers) (addr nregs : ℕ) : List UInt8 :=
  (List.range nregs).flatMap fun i => wordBytes (image (addr + i))

/-- Every call of {lit}`ReadRegister` succeeds with the contents at its time. -/
def Answers (port : RegisterPort) (image : ℕ → Registers) : Prop :=
  ∀ call addr nregs, port call addr nregs = some (registerBytes (image call) addr nregs)

theorem length_registerBytes (image : Registers) (addr nregs : ℕ) :
    (registerBytes image addr nregs).length = nregs * 2 := by
  simp [registerBytes, wordBytes, List.length_flatMap, List.map_const']

theorem registerBytes_add (image : Registers) (addr left right : ℕ) :
    registerBytes image addr (left + right) =
      registerBytes image addr left ++ registerBytes image (addr + left) right := by
  unfold registerBytes
  rw [List.range_add, List.flatMap_append, List.flatMap_map]
  simp only [Nat.add_assoc]

/-- A register in a block has its own contents at the time of the fetch. -/
theorem slice_registerBytes {block : MeasBlock} {reg : RegInfo}
    (hcovers : block.covers reg = true) (image : Registers) :
    block.slice reg (registerBytes image block.addr block.nregs) =
      registerBytes image reg.addr reg.nregs := by
  rcases of_decide_eq_true hcovers with ⟨hlow, hhigh⟩
  obtain ⟨left, hleft⟩ := Nat.exists_eq_add_of_le hlow
  obtain ⟨right, hright⟩ := Nat.exists_eq_add_of_le hhigh
  have hnregs : block.nregs = left + (reg.nregs + right) := by omega
  have hstart : reg.addr - block.addr = left := by omega
  unfold MeasBlock.slice
  rw [hnregs, hstart, registerBytes_add, registerBytes_add,
    List.drop_left' (length_registerBytes image block.addr left),
    List.take_left' (length_registerBytes image (block.addr + left) reg.nregs), hleft]

theorem fetchMeasurementBlocks_of_answers {port : RegisterPort} {image : ℕ → Registers}
    (hanswers : Answers port image) (driver : ModbusUpsDriver) (call : ℕ) :
    fetchMeasurementBlocks port driver call =
      ({ driver with
        blockA := some (registerBytes (image call) measBlockA.addr measBlockA.nregs)
        blockB := some (registerBytes (image (call + 1)) measBlockB.addr measBlockB.nregs)
        blockC := some (registerBytes (image (call + 2)) measBlockC.addr measBlockC.nregs) },
        call + 3) := by
  have hblock : ∀ block call, fetchBlock port block 2 call =
      (some (registerBytes (image call) block.addr block.nregs), call + 1) := by
    intro block call
    unfold fetchBlock
    rw [hanswers]
  unfold fetchMeasurementBlocks
  rw [hblock]
  dsimp only
  rw [hblock]
  dsimp only
  rw [hblock]

/-- A register of the third block has its contents at the time of that fetch. -/
theorem cachedData_of_blockC {driver : ModbusUpsDriver} {image : Registers}
    (hblock : driver.blockC = some (registerBytes image measBlockC.addr measBlockC.nregs))
    {reg : RegInfo} (hcovers : measBlockC.covers reg = true)
    (hA : measBlockA.covers reg = false) (hB : measBlockB.covers reg = false) :
    driver.cachedData reg = some (registerBytes image reg.addr reg.nregs) := by
  unfold cachedData
  dsimp only
  rw [hA, hB, hcovers, hblock, if_neg Bool.false_ne_true, if_neg Bool.false_ne_true, if_pos rfl]
  exact congrArg some (slice_registerBytes hcovers image)

/-- With valid blocks and a port that answers, every register can be read. -/
theorem isSome_getRegisterData {port : RegisterPort} {image : ℕ → Registers}
    (hanswers : Answers port image) {driver : ModbusUpsDriver} {dataA dataB dataC : List UInt8}
    (hA : driver.blockA = some dataA) (hB : driver.blockB = some dataB)
    (hC : driver.blockC = some dataC) (reg : RegInfo) (call : ℕ) :
    ∃ data call', getRegisterData port driver reg false call = (some data, call') := by
  cases hcovered : covered reg with
  | true =>
      rw [getRegisterData_of_covered port hcovered]
      unfold cachedData
      dsimp only
      rw [hA, hB, hC]
      unfold covered at hcovered
      cases hcoversA : measBlockA.covers reg with
      | true => exact ⟨_, _, rfl⟩
      | false =>
          cases hcoversB : measBlockB.covers reg with
          | true => exact ⟨_, _, rfl⟩
          | false =>
              rw [hcoversA, hcoversB] at hcovered
              rw [show measBlockC.covers reg = true from hcovered]
              exact ⟨_, _, rfl⟩
  | false =>
      unfold getRegisterData
      rw [hcovered, if_neg (by decide), hanswers]
      exact ⟨_, _, rfl⟩

theorem probeAll_of_readable {port : RegisterPort} {driver : ModbusUpsDriver}
    (hreadable : ∀ reg call, ∃ data call',
      getRegisterData port driver reg false call = (some data, call'))
    (table : List CiInfo) (cap : Ci → Bool) (call : ℕ) :
    (probeAll port table cap driver call).2.1 = driver ∧
      ∀ ci, ((∃ info ∈ table, info.ci = ci) ∨ cap ci = true) →
        (probeAll port table cap driver call).1 ci = true := by
  induction table generalizing cap call with
  | nil =>
      refine ⟨rfl, ?_⟩
      rintro ci (⟨info, hinfo, _⟩ | hcap)
      · cases hinfo
      · exact hcap
  | cons info table ih =>
      obtain ⟨data, call', hdata⟩ := hreadable info.reg call
      have hprobe : probe port info 3 driver call = (true, driver, call') := by
        unfold probe
        rw [hdata]
      unfold probeAll
      rw [hprobe]
      dsimp only
      refine ⟨(ih _ _).1, ?_⟩
      rintro ci (⟨other, hother, hci⟩ | hcap)
      · rcases List.mem_cons.mp hother with rfl | hlater
        · exact (ih _ _).2 ci (.inr (if_pos ⟨rfl, hci.symm⟩))
        · exact (ih _ _).2 ci (.inl ⟨other, hlater, hci⟩)
      · refine (ih _ _).2 ci (.inr ?_)
        split
        · rfl
        · exact hcap

/-- If every read succeeds, every item of the table is a capability, and the third
block is cached. -/
theorem getCapabilities_cap {port : RegisterPort} {image : ℕ → Registers}
    (hanswers : Answers port image) (driver : ModbusUpsDriver) (cap : Ci → Bool) (call : ℕ) :
    (∀ info ∈ ciTable, (getCapabilities port driver cap call).1 info.ci = true) ∧
      (getCapabilities port driver cap call).2.1.blockC =
        some (registerBytes (image (call + 2)) measBlockC.addr measBlockC.nregs) := by
  unfold getCapabilities
  rw [fetchMeasurementBlocks_of_answers hanswers]
  let fetched := { driver with
    blockA := some (registerBytes (image call) measBlockA.addr measBlockA.nregs)
    blockB := some (registerBytes (image (call + 1)) measBlockB.addr measBlockB.nregs)
    blockC := some (registerBytes (image (call + 2)) measBlockC.addr measBlockC.nregs) }
  have hreadable : ∀ reg call, ∃ data call',
      getRegisterData port fetched reg false call = (some data, call') :=
    isSome_getRegisterData hanswers rfl rfl rfl
  have hprobed := probeAll_of_readable hreadable ciTable cap (call + 3)
  refine ⟨fun info hinfo => hprobed.2 info.ci (.inl ⟨info, hinfo, rfl⟩), ?_⟩
  dsimp only
  rw [hprobed.1]

/-- A static pass stores static items only. -/
theorem mem_updateCis_static {port : RegisterPort} {driver : ModbusUpsDriver} {cap : Ci → Bool}
    {table : List CiInfo} {call : ℕ} {ci : Ci} {value : CiValue}
    (hmem : (ci, value) ∈ (updateCis port driver cap false table call).1) :
    ∃ info ∈ table, info.ci = ci ∧ info.dynamic = false := by
  induction table generalizing call with
  | nil => cases hmem
  | cons info table ih =>
      unfold updateCis at hmem
      split at hmem
      · rename_i hquery
        have hstatic : info.dynamic = false := by
          simpa using (Bool.and_eq_true_iff.mp hquery).2
        rcases List.mem_append.mp hmem with hhead | hlater
        · unfold updateCi at hhead
          rcases Option.map_eq_some_iff.mp (Option.mem_toList.mp hhead) with ⟨_, _, hitem⟩
          exact ⟨info, List.mem_cons_self, (Prod.mk.inj hitem).1, hstatic⟩
        · rcases ih hlater with ⟨other, hother, hfound⟩
          exact ⟨other, List.mem_cons_of_mem _ hother, hfound⟩
      · rcases ih hmem with ⟨other, hother, hfound⟩
        exact ⟨other, List.mem_cons_of_mem _ hother, hfound⟩

theorem mem_readStaticData {port : RegisterPort} {driver : ModbusUpsDriver} {cap : Ci → Bool}
    {attempts call : ℕ} {ci : Ci} {value : CiValue}
    (hmem : (ci, value) ∈ readStaticData port driver cap attempts call) :
    ∃ info ∈ ciTable, info.ci = ci ∧ info.dynamic = false := by
  induction attempts generalizing call with
  | zero => cases hmem
  | succ attempts ih =>
      rcases List.mem_append.mp hmem with hfirst | hlater
      · exact mem_updateCis_static hfirst
      · exact ih hlater

end ModbusUpsDriver

end Apcupsd
