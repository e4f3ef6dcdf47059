import Apcupsd.Core.ReportFields
import Apcupsd.Modbus.BlockCache

/-!
# One read of the volatile data

What {lit}`ModbusUpsDriver::read_volatile_data` leaves in the record, item by item and
block by block.

Main results:

- Theorem {lit}`toDriver_readVolatileData`: behind the flags of the buffers this is the
  read of the driver whose invalid blocks have no bytes.
- Theorem {lit}`shows_storeItems`: what the record shows of an item after a pass is what
  was decoded for it, or what it showed before.
- Theorem {lit}`readVolatileData_blocks`: an item changes only if its block was fetched in
  this call, and then it is decoded from the bytes of that fetch.
-/

namespace Apcupsd

open BitFlags Apcupsd.Core
open ModbusUpsDriver (Registers registerBytes covered storeItems stampPollTime)

/-! ## The read through the buffers -/

namespace BufferedDriver

variable (port : RegisterPort)

/-- {lit}`UpdateCi` up to the lock. -/
def updateCi (driver : BufferedDriver) (info : CiInfo) (forceLiveRead : Bool) (call : ℕ) :
    Option (Ci × CiValue) × ℕ :=
  let (data, call) := driver.getRegisterData port info.reg forceLiveRead call
  (data.map fun data => (info.ci, decode info.reg data), call)

/-- {lit}`UpdateCis` over the rest of the table. -/
def updateCis (driver : BufferedDriver) (cap : Ci → Bool) (dynamic : Bool) :
    List CiInfo → ℕ → List (Ci × CiValue) × ℕ
  | [], call => ([], call)
  | info :: table, call =>
      if cap info.ci && info.dynamic == dynamic then
        let (item, call) := driver.updateCi port info false call
        let (items, call) := updateCis driver cap dynamic table call
        (item.toList ++ items, call)
      else updateCis driver cap dynamic table call

/-- {lit}`read_volatile_data`: the driver afterwards, what it stores, and whether it has
reopened the device. -/
def readVolatileData (time : Int) (driver : BufferedDriver) (cap : Ci → Bool) :
    BufferedDriver × List DriverUpdate × Bool :=
  let (fetched, call) := driver.fetchMeasurementBlocks port 0
  let clean := fetched.blockA.valid && fetched.blockB.valid && fetched.blockC.valid
  let reopened := !clean && decide (time - fetched.lastVolatileOk ≥ 180)
  let dated := if clean || reopened then { fetched with lastVolatileOk := time } else fetched
  let (items, _) := dated.updateCis port cap true ciTable call
  (dated, storeItems items ++ (if items = [] then [] else [stampPollTime time]), reopened)

/-- A pass through the buffers is a pass of the driver behind the flags. -/
theorem updateCis_toDriver (driver : BufferedDriver) (cap : Ci → Bool) (dynamic : Bool)
    (table : List CiInfo) (call : ℕ) :
    driver.updateCis port cap dynamic table call =
      driver.toDriver.updateCis port cap dynamic table call := by
  induction table generalizing call with
  | nil => rfl
  | cons info table ih =>
      unfold updateCis ModbusUpsDriver.updateCis updateCi ModbusUpsDriver.updateCi
      simp only [getRegisterData_toDriver, ih]

theorem isSome_current (buffer : BlockBuffer) : buffer.current.isSome = buffer.valid := by
  rcases buffer with ⟨bytes, valid⟩
  cases valid <;> rfl

/-- Behind the flags, this is the read of the driver whose invalid blocks have no bytes. -/
theorem toDriver_readVolatileData (time : Int) (driver : BufferedDriver) (cap : Ci → Bool) :
    ((driver.readVolatileData port time cap).1.toDriver,
        (driver.readVolatileData port time cap).2) =
      driver.toDriver.readVolatileData port time cap := by
  have hfetched := toDriver_fetchMeasurementBlocks port driver 0
  unfold readVolatileData ModbusUpsDriver.readVolatileData
  rw [← hfetched]
  generalize driver.fetchMeasurementBlocks port 0 = fetched
  rcases fetched with ⟨fetched, call⟩
  dsimp only
  simp only [updateCis_toDriver]
  have hclean : (fetched.toDriver.blockA.isSome && fetched.toDriver.blockB.isSome &&
      fetched.toDriver.blockC.isSome) =
        (fetched.blockA.valid && fetched.blockB.valid && fetched.blockC.valid) := by
    simp only [toDriver, isSome_current]
  have htime : fetched.toDriver.lastVolatileOk = fetched.lastVolatileOk := rfl
  rw [hclean, htime]
  generalize (fetched.blockA.valid && fetched.blockB.valid && fetched.blockC.valid) = clean
  generalize decide (time - fetched.lastVolatileOk ≥ 180) = stale
  cases clean <;> cases stale <;> rfl

end BufferedDriver

/-! ## What the record shows of an item -/

/-- The value of a field or of bits of the status word. -/
inductive CiView where
  | number (value : CDouble)
  | flag (value : Bool)
  | line (online onbatt : Bool)
  | test (result : SelfTestResult)
  | cause (cause : LastXferCause)
  | absent
deriving DecidableEq

/-- The field, or the bits of the status word, that a dynamic item is decoded into. -/
def shows (ci : Ci) (ups : UpsInfo) : CiView :=
  match ci with
  | .vline => .number ups.lineVoltage
  | .vout => .number ups.outputVoltage
  | .outputCurrent => .number ups.outputCurrent
  | .vbatt => .number ups.battVoltage
  | .freq => .number ups.lineFreq
  | .itemp => .number ups.upsTemp
  | .battlev => .number ups.battChg
  | .runtim => .number ups.timeLeft
  | .load => .number ups.upsLoad
  | .loadApparent => .number ups.loadApparent
  | .status => .line ups.isOnline ups.isOnbatt
  | .whyBatt => .cause ups.lastxfer
  | .stStat => .test ups.testresult
  | .calibration => .flag ups.isCalibration
  | .overload => .flag ups.isOverload
  | .needReplacement => .flag ups.isReplacebatt
  | .batteryPresent => .flag ups.isBattpresent
  | .boost => .flag ups.isBoost
  | .trim => .flag ups.isTrim
  | .lowBattery => .flag ups.isBattlow
  | _ => .absent

/-- What the value of a register stands for. -/
def decoded (ci : Ci) (value : CiValue) : CiView :=
  match ci with
  | .vline | .vout | .outputCurrent | .vbatt | .freq | .itemp | .battlev | .load
  | .loadApparent => .number value.dbl
  | .runtim => .number (.finite (value.uint.toNat / 60 : ℕ))
  | .status => .line (lineFlagsOf value.uint).1 (lineFlagsOf value.uint).2
  | .whyBatt => .cause (lastxferOf value.uint)
  | .stStat => .test (testresultOf value.uint)
  | .calibration => .flag (anyBit value.uint (csPending ||| csInProgress))
  | .overload => .flag (anyBit value.uint pseOutputOverload)
  | .needReplacement => .flag (anyBit value.uint bseNeedsReplacement)
  | .batteryPresent => .flag (!anyBit value.uint bseDisconnected)
  | .boost => .flag (anyBit value.uint isBoost)
  | .trim => .flag (anyBit value.uint isTrim)
  | .lowBattery => .flag (anyBit value.uint sssShutdownImminent)
  | _ => .absent

/-- The cause of a transfer is only stored while the record says that we are on battery. -/
def stored (ci : Ci) (value : CiValue) (ups : UpsInfo) : CiView :=
  if ci = .whyBatt ∧ ups.isOnbatt = false then shows ci ups else decoded ci value

theorem UpsInfo.test_setVal {mask : StatusWord} (hmask : mask ≠ 0) (val : Bool)
    (ups : UpsInfo) : (ups.setVal mask val).test mask = val := by
  cases val with
  | true => exact UpsInfo.test_set_self ups mask
  | false => exact UpsInfo.test_clear_self hmask ups

/-- An item that writes bits of the status word writes nothing else. -/
theorem applyCi_of_ciBits {ci : Ci} (hbits : ciBits ci ≠ 0) (value : CiValue) (ups : UpsInfo) :
    ∃ word, applyCi ci value ups = { ups with status := word } := by
  cases ci with
  | status =>
      change ∃ word, applyStatus value.uint ups = { ups with status := word }
      unfold applyStatus
      dsimp only
      split_ifs <;> exact ⟨_, rfl⟩
  | lowBattery | calibration | overload | needReplacement | batteryPresent | boost | trim =>
      unfold applyCi UpsInfo.setVal
      dsimp only
      split <;> exact ⟨_, rfl⟩
  | _ => exact absurd rfl hbits

/-- What the record shows of an item that has just been stored. -/
theorem shows_applyCi_self (ci : Ci) (value : CiValue) (ups : UpsInfo) :
    shows ci (applyCi ci value ups) = stored ci value ups := by
  unfold stored
  cases ci with
  | status =>
      have hline := applyCi_status value ups
      rw [if_neg (by simp), decoded, ← hline]
      rfl
  | whyBatt =>
      cases honbatt : ups.isOnbatt with
      | true => simp [shows, decoded, applyCi, honbatt]
      | false => simp [shows, applyCi, honbatt]
  | calibration | overload | needReplacement | batteryPresent | boost | trim | lowBattery =>
      exact congrArg CiView.flag (UpsInfo.test_setVal (by decide) _ ups)
  | _ => rfl

/-- An item leaves alone what the record shows of the others. -/
theorem shows_applyCi_of_ne {ci other : Ci} (hne : other ≠ ci) (value : CiValue)
    (ups : UpsInfo) : shows ci (applyCi other value ups) = shows ci ups := by
  cases ci with
  | status =>
      have hline := applyCi_lineFlags hne value ups
      exact congrArg₂ CiView.line (Prod.ext_iff.mp hline).1 (Prod.ext_iff.mp hline).2
  | calibration | overload | needReplacement | batteryPresent | boost | trim | lowBattery =>
      refine congrArg CiView.flag (applyCi_test ?_ value ups)
      cases other <;> first | exact absurd rfl hne | decide
  | vline | vout | outputCurrent | vbatt | freq | itemp | battlev | runtim | load | loadApparent
  | whyBatt | stStat =>
      by_cases hbits : ciBits other = 0
      · cases other with
        | whyBatt =>
            unfold applyCi
            dsimp only
            split <;> first | exact absurd rfl hne | rfl
        | status | lowBattery | calibration | overload | needReplacement | batteryPresent
        | boost | trim => exact absurd hbits (by decide)
        | _ => first | exact absurd rfl hne | rfl
      · rcases applyCi_of_ciBits hbits value ups with ⟨word, hword⟩
        rw [hword]
        rfl
  | _ => rfl

/-! ## What it shows after a pass -/

/-- The second item may be stored behind the first one and disturbs nothing of it. -/
def Settled (first second : Ci) : Prop :=
  second ≠ first ∧ (first = .whyBatt → second ≠ .status)

instance (first second : Ci) : Decidable (Settled first second) :=
  inferInstanceAs (Decidable (_ ∧ _))

/-- The table is in an order that keeps what has been stored. -/
theorem ciTable_settled : ciTable.Pairwise fun first second => Settled first.ci second.ci := by
  decide

theorem cachedItems_settled (driver : ModbusUpsDriver) (cap : Ci → Bool) :
    (driver.cachedItems cap).Pairwise fun first second => Settled first.1 second.1 := by
  unfold ModbusUpsDriver.cachedItems
  rw [List.pairwise_filterMap]
  refine (ciTable_settled.filter _).imp fun {info next} hsettled item hitem later hlater => ?_
  rcases Option.map_eq_some_iff.mp hitem with ⟨_, -, rfl⟩
  rcases Option.map_eq_some_iff.mp hlater with ⟨_, -, rfl⟩
  exact hsettled

theorem shows_storeItems_of_forall_ne {items : List (Ci × CiValue)} {ci : Ci}
    (hne : ∀ item ∈ items, item.1 ≠ ci) (ups : UpsInfo) :
    shows ci (applyUpdates (storeItems items) ups) = shows ci ups := by
  induction items generalizing ups with
  | nil => rfl
  | cons item items ih =>
      rcases List.forall_mem_cons.mp hne with ⟨hitem, hrest⟩
      exact (ih hrest _).trans (shows_applyCi_of_ne hitem item.2 ups)

/-- After a pass the record shows of an item what was decoded for it; the cause of a transfer
is as before, unless the record says that we are on battery. -/
theorem shows_storeItems {items : List (Ci × CiValue)}
    (hsettled : items.Pairwise fun first second => Settled first.1 second.1) {ci : Ci}
    {value : CiValue} (hmem : (ci, value) ∈ items) (ups : UpsInfo) :
    shows ci (applyUpdates (storeItems items) ups) =
      if ci = .whyBatt ∧ (applyUpdates (storeItems items) ups).isOnbatt = false then shows ci ups
      else decoded ci value := by
  induction items generalizing ups with
  | nil => cases hmem
  | cons item items ih =>
      rcases List.pairwise_cons.mp hsettled with ⟨hhead, hrest⟩
      rcases List.mem_cons.mp hmem with rfl | hlater
      · have hafter : shows ci (applyUpdates (storeItems ((ci, value) :: items)) ups) =
            stored ci value ups := by
          have hback : shows ci (applyUpdates (storeItems items) (applyCi ci value ups)) =
              shows ci (applyCi ci value ups) :=
            shows_storeItems_of_forall_ne (fun later hlater => (hhead later hlater).1) _
          exact hback.trans (shows_applyCi_self ci value ups)
        rw [hafter, stored]
        by_cases hwhy : ci = .whyBatt
        · subst hwhy
          have hline : shows .status (applyUpdates (storeItems ((.whyBatt, value) :: items)) ups) =
              shows .status ups := by
            refine shows_storeItems_of_forall_ne (fun later hlater => ?_) ups
            rcases List.mem_cons.mp hlater with rfl | hlater
            · exact (by decide : Ci.whyBatt ≠ Ci.status)
            · exact (hhead later hlater).2 rfl
          rw [(CiView.line.inj hline).2]
        · simp [hwhy]
      · have hfront := shows_applyCi_of_ne (hhead _ hlater).1.symm item.2 ups
        have hitems := ih hrest hlater (applyCi item.1 item.2 ups)
        rw [hfront] at hitems
        exact hitems

/-! ## Block by block -/

namespace BufferedDriver

variable (port : RegisterPort)

/-- The items of the pass that a read of the volatile data makes. -/
theorem readVolatileData_updates (time : Int) (driver : BufferedDriver) (cap : Ci → Bool) :
    (driver.readVolatileData port time cap).2.1 =
      storeItems ((driver.readVolatileData port time cap).1.toDriver.cachedItems cap) ++
        (if (driver.readVolatileData port time cap).1.toDriver.cachedItems cap = [] then []
          else [stampPollTime time]) := by
  unfold readVolatileData
  simp only [updateCis_toDriver, ModbusUpsDriver.updateCis_dynamic]

theorem cachedData_of_covers {driver : BufferedDriver} {reg : RegInfo} {block : MeasBlock}
    {buffer : BlockBuffer} (hmem : (block, buffer) ∈ driver.blocks)
    (hcovers : block.covers reg = true) :
    driver.toDriver.cachedData reg =
      if buffer.valid then some (block.slice reg buffer.bytes) else none := by
  have hcovered : covered reg = true := by
    simp only [blocks, List.mem_cons, Prod.mk.injEq, List.not_mem_nil, or_false] at hmem
    rcases hmem with ⟨rfl, -⟩ | ⟨rfl, -⟩ | ⟨rfl, -⟩ <;> simp [covered, hcovers]
  have hread := getRegisterData_of_covers (fun _ _ _ => none) hmem hcovers 0
  rw [getRegisterData_toDriver, ModbusUpsDriver.getRegisterData_of_covered _ hcovered] at hread
  exact congrArg Prod.fst hread

/-- An item of the pass is one that is a capability and whose block is valid. -/
theorem mem_cachedItems_iff {driver : BufferedDriver} {cap : Ci → Bool} {info : CiInfo}
    (hinfo : info ∈ ciTable) (hdynamic : info.dynamic = true) {block : MeasBlock}
    {buffer : BlockBuffer} (hmem : (block, buffer) ∈ driver.blocks)
    (hcovers : block.covers info.reg = true) (value : CiValue) :
    (info.ci, value) ∈ driver.toDriver.cachedItems cap ↔
      cap info.ci = true ∧ buffer.valid = true ∧
        value = decode info.reg (block.slice info.reg buffer.bytes) := by
  have honly : ∀ first ∈ ciTable, ∀ second ∈ ciTable, first.ci = second.ci → first = second := by
    decide
  have hdata := cachedData_of_covers hmem hcovers
  constructor
  · intro hitem
    rcases List.mem_filterMap.mp hitem with ⟨other, hother, hfound⟩
    rcases List.mem_filter.mp hother with ⟨hlisted, hquery⟩
    rcases Option.map_eq_some_iff.mp hfound with ⟨data, hcached, heq⟩
    rcases Prod.mk.inj heq with ⟨hci, rfl⟩
    obtain rfl := honly other hlisted info hinfo hci
    rw [hdata] at hcached
    cases hvalid : buffer.valid with
    | false => simp [hvalid] at hcached
    | true =>
        rw [hvalid, if_pos rfl] at hcached
        exact ⟨(Bool.and_eq_true_iff.mp hquery).1, rfl, by rw [Option.some.inj hcached]⟩
  · rintro ⟨hcap, hvalid, rfl⟩
    rw [hvalid, if_pos rfl] at hdata
    refine List.mem_filterMap.mpr ⟨info, ?_, ?_⟩
    · exact List.mem_filter.mpr ⟨hinfo, by simp [hcap, hdynamic]⟩
    · simp [ModbusUpsDriver.cachedItem, hdata]

/-- A valid buffer holds the bytes of an answer in this call. -/
theorem fetched_of_valid (time : Int) (driver : BufferedDriver) (cap : Ci → Bool)
    {block : MeasBlock} {buffer : BlockBuffer}
    (hmem : (block, buffer) ∈ (driver.readVolatileData port time cap).1.blocks)
    (hvalid : buffer.valid = true) :
    ∃ call, port call block.addr block.nregs = some buffer.bytes := by
  refine answer_of_fetched port driver 0 ?_ hvalid
  unfold readVolatileData at hmem
  generalize driver.fetchMeasurementBlocks port 0 = fetched at hmem ⊢
  dsimp only at hmem
  split_ifs at hmem <;> exact hmem

/-- Each dynamic item has its block. -/
theorem exists_block (driver : BufferedDriver) {info : CiInfo} (hinfo : info ∈ ciTable)
    (hdynamic : info.dynamic = true) :
    ∃ block buffer, (block, buffer) ∈ driver.blocks ∧ block.covers info.reg = true := by
  have hcovered := ModbusUpsDriver.covered_of_dynamic info hinfo hdynamic
  simp only [covered, Bool.or_eq_true] at hcovered
  rcases hcovered with (hA | hB) | hC
  · exact ⟨measBlockA, driver.blockA, by simp [blocks], hA⟩
  · exact ⟨measBlockB, driver.blockB, by simp [blocks], hB⟩
  · exact ⟨measBlockC, driver.blockC, by simp [blocks], hC⟩

/-- A pass decodes nothing if no block is valid that a capable item needs. -/
theorem cachedItems_ne_nil_iff (driver : BufferedDriver) (cap : Ci → Bool) :
    driver.toDriver.cachedItems cap ≠ [] ↔
      ∃ info ∈ ciTable, info.dynamic = true ∧ cap info.ci = true ∧
        ∃ entry ∈ driver.blocks, entry.1.covers info.reg = true ∧ entry.2.valid = true := by
  constructor
  · intro hne
    rcases List.exists_mem_of_ne_nil _ hne with ⟨⟨ci, value⟩, hitem⟩
    have hmem := hitem
    rcases List.mem_filterMap.mp hitem with ⟨info, hlisted, hfound⟩
    rcases List.mem_filter.mp hlisted with ⟨hinfo, hquery⟩
    have hdynamic := (Bool.and_eq_true_iff.mp hquery).2
    rcases Option.map_eq_some_iff.mp hfound with ⟨data, -, heq⟩
    rcases exists_block driver hinfo hdynamic with ⟨block, buffer, hblock, hcovers⟩
    rw [← (Prod.mk.inj heq).1, mem_cachedItems_iff hinfo hdynamic hblock hcovers] at hmem
    exact ⟨info, hinfo, hdynamic, hmem.1, _, hblock, hcovers, hmem.2.1⟩
  · rintro ⟨info, hinfo, hdynamic, hcap, ⟨block, buffer⟩, hblock, hcovers, hvalid⟩
    exact List.ne_nil_of_mem
      ((mem_cachedItems_iff hinfo hdynamic hblock hcovers _).mpr ⟨hcap, hvalid, rfl⟩)

/-- The stores of a pass, and the time stamp behind them. -/
theorem applyUpdates_pass (items : List (Ci × CiValue)) (time : Int) (ups : UpsInfo) :
    applyUpdates (storeItems items ++ (if items = [] then [] else [stampPollTime time])) ups =
      if items = [] then ups else { applyUpdates (storeItems items) ups with pollTime := time } := by
  rw [ModbusUpsDriver.applyUpdates_append]
  split_ifs with hnil
  · subst hnil
    rfl
  · rfl

/-- After a read of the volatile data, an item whose block was not fetched is as before, and
one whose block was fetched is decoded from the bytes of that fetch; the cause of a transfer
is decoded only while the record says that we are on battery. -/
theorem readVolatileData_blocks (time : Int) (driver : BufferedDriver) (ups : UpsInfo) :
    let read := driver.readVolatileData port time ups.upsCap
    let after := applyUpdates read.2.1 ups
    (∀ info ∈ ciTable, info.dynamic = true → ∃ block buffer,
      (block, buffer) ∈ read.1.blocks ∧ block.covers info.reg = true ∧
      (buffer.valid = false → shows info.ci after = shows info.ci ups) ∧
      (buffer.valid = true → (∃ call, port call block.addr block.nregs = some buffer.bytes) ∧
        shows info.ci after =
          if ups.upsCap info.ci = false ∨ info.ci = .whyBatt ∧ after.isOnbatt = false then
            shows info.ci ups
          else decoded info.ci (decode info.reg (block.slice info.reg buffer.bytes)))) ∧
    after.pollTime =
      if ∃ info ∈ ciTable, info.dynamic = true ∧ ups.upsCap info.ci = true ∧
        ∃ entry ∈ read.1.blocks, entry.1.covers info.reg = true ∧ entry.2.valid = true
      then time else ups.pollTime := by
  intro read after
  let items := read.1.toDriver.cachedItems ups.upsCap
  have hafter : after =
      if items = [] then ups else { applyUpdates (storeItems items) ups with pollTime := time } := by
    rw [← applyUpdates_pass, ← readVolatileData_updates]
  have hshows : ∀ ci, shows ci after = shows ci (applyUpdates (storeItems items) ups) := by
    intro ci
    rw [hafter]
    split_ifs with hnil
    · rw [hnil]
      rfl
    · cases ci <;> rfl
  have honbatt : after.isOnbatt = (applyUpdates (storeItems items) ups).isOnbatt :=
    (CiView.line.inj (hshows .status)).2
  refine ⟨fun info hinfo hdynamic => ?_, ?_⟩
  · rcases exists_block read.1 hinfo hdynamic with ⟨block, buffer, hmem, hcovers⟩
    have hitem : ∀ value, (info.ci, value) ∈ items ↔ ups.upsCap info.ci = true ∧
        buffer.valid = true ∧ value = decode info.reg (block.slice info.reg buffer.bytes) :=
      mem_cachedItems_iff hinfo hdynamic hmem hcovers
    have hkept : (∀ value, (info.ci, value) ∉ items) → shows info.ci after = shows info.ci ups := by
      intro hnone
      rw [hshows]
      refine shows_storeItems_of_forall_ne (fun item hlisted hci => ?_) ups
      exact hnone item.2 (hci ▸ hlisted)
    refine ⟨block, buffer, hmem, hcovers, fun hfailed => ?_, fun hvalid => ⟨?_, ?_⟩⟩
    · refine hkept fun value hlisted => ?_
      have hvalid := ((hitem value).mp hlisted).2.1
      rw [hfailed] at hvalid
      cases hvalid
    · exact fetched_of_valid port time driver ups.upsCap hmem hvalid
    · cases hcap : ups.upsCap info.ci with
      | false =>
          rw [if_pos (Or.inl rfl)]
          refine hkept fun value hlisted => ?_
          have hquery := ((hitem value).mp hlisted).1
          rw [hcap] at hquery
          cases hquery
      | true =>
          have hlisted := (hitem _).mpr ⟨hcap, hvalid, rfl⟩
          have hsettled : items.Pairwise fun first second => Settled first.1 second.1 :=
            cachedItems_settled _ _
          rw [hshows, honbatt, shows_storeItems hsettled hlisted]
          exact if_congr (by simp) rfl rfl
  · have hnil := cachedItems_ne_nil_iff read.1 ups.upsCap
    rw [hafter]
    by_cases hempty : items = []
    · rw [if_pos hempty, if_neg fun hsome => hnil.mpr hsome hempty]
    · rw [if_neg hempty, if_pos (hnil.mp hempty)]

/-! ## Examples of reads -/

/-- On mains, after a transfer that was a self test. -/
def onlineImage : Registers := fun addr => if addr = 1 then 2 else if addr = 2 then 9 else 0

/-- A UPS that answers everything from these registers. -/
def promptPort : RegisterPort := fun _ addr nregs => some (registerBytes onlineImage addr nregs)

/-- A record of a UPS with all capabilities, whose last transfer was for a low voltage. -/
def undervoltUps : UpsInfo :=
  { newUps (defaultConfig 0) with upsCap := fun _ => true, lastxfer := .xferUndervolt }

/-- The block with the cause of the last transfer is fetched, and the record keeps the cause of
an earlier fetch. -/
theorem lastxfer_of_earlier_fetch :
    let read := zeroDriver.readVolatileData promptPort 100 undervoltUps.upsCap
    let after := applyUpdates read.2.1 undervoltUps
    read.1.blockC.valid = true ∧
      decoded .whyBatt (decode regUpsStatusChangeCause
        (measBlockC.slice regUpsStatusChangeCause read.1.blockC.bytes)) = .cause .xferSelftest ∧
      shows .whyBatt after = .cause .xferUndervolt := by
  decide +kernel

/-- Without the second block the line voltage stays as it is, while the load is read and the
time of the poll is set. -/
theorem readVolatileData_patchy :
    let read := zeroDriver.readVolatileData patchyPort 100 undervoltUps.upsCap
    let after := applyUpdates read.2.1 undervoltUps
    shows .vline after = shows .vline undervoltUps ∧ after.pollTime = 100 := by
  have hblocks := readVolatileData_blocks patchyPort 100 zeroDriver undervoltUps
  constructor
  · rcases hblocks.1 ⟨.vline, true, regInput0Voltage⟩ (by decide) rfl with
      ⟨block, buffer, hmem, hcovers, hfailed, -⟩
    simp only [blocks, List.mem_cons, Prod.mk.injEq, List.not_mem_nil, or_false] at hmem
    rcases hmem with ⟨rfl, -⟩ | ⟨rfl, rfl⟩ | ⟨rfl, -⟩
    · exact absurd hcovers (by decide)
    · exact hfailed (by decide +kernel)
    · exact absurd hcovers (by decide)
  · refine hblocks.2.trans (if_pos ?_)
    exact ⟨⟨.load, true, regOutput0RealPowerPct⟩, by decide, rfl, rfl, _, List.mem_cons_self,
      by decide, by decide +kernel⟩

end BufferedDriver

end Apcupsd
