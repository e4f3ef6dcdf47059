import Apcupsd.Modbus.Driver

/-!
# The device loop over the MODBUS driver

{lit}`open_ups` and {lit}`do_device` from {lit}`src/device.c` with the MODBUS driver
behind them, one step for each call that the loop makes and for each round of
{lit}`check_state`.

Main results:

- Definition {lit}`deviceStep`: one step of the device thread.
- Theorem {lit}`deviceStep_inv`: while every read succeeds and the UPS does not calibrate,
  the record stays calm and the cache complete.
- Theorem {lit}`takeAction_lineFlags`: a pass leaves the line flags alone, unless it takes
  {lit}`st_PowerFailure`, where it leaves those of the cache.
-/

namespace Apcupsd

open BitFlags Apcupsd.Core ModbusUpsDriver

/-! ## The thread -/

/-- Where the device thread stands.  {lit}`loopTop` is the first half of an iteration
up to the first {lit}`do_action`, {lit}`secondAction` the part from the second
{lit}`do_action` to the call of {lit}`check_state`. -/
inductive DevicePoint where
  | openUps (eventTime : Int)
  | firstFill
  | loopTop
  | fillUps
  | secondAction
  | checkState (exittime : ℕ)
  | stopped
deriving DecidableEq, Repr

/-- The record and the core, the driver, and the thread. -/
structure Device where
  core : Core
  driver : ModbusUpsDriver
  point : DevicePoint

/-- What the surroundings decide during one step: the answers of the UPS, whether
{lit}`ModbusComm::Open` succeeds, {lit}`time(NULL)`, the time of day in microseconds,
{lit}`shutdown_requested`, the name of the host, and what a pass sees. -/
structure DeviceEnv where
  port : RegisterPort
  opens : Bool
  time : Int
  tod : ℕ
  shutdownRequested : Bool
  hostname : List Char
  pass : PassEnv

/-- The surroundings of a pass: the driver calls inside it go to the MODBUS driver.
{lit}`kill_power` writes a register and not the record, and only a dumb UPS is polled
by {lit}`initiate_hibernate`. -/
def DeviceEnv.passEnv (env : DeviceEnv) (driver : ModbusUpsDriver) (cap : Ci → Bool) : PassEnv :=
  { env.pass with
    checkSelftest := entryPoint env.port env.time driver cap .checkSelftest
    dtrEnable := entryPoint env.port env.time driver cap .dtrEnable
    getSelftestMsg := entryPoint env.port env.time driver cap .getSelftestMsg
    dtrStDisable := entryPoint env.port env.time driver cap .dtrStDisable
    readVolatileData := []
    killPower := [] }

/-- {lit}`prep_device` after {lit}`read_static_data`: a name for the UPS, and no
unprintable characters in its model. -/
def prepDevice (hostname : List Char) (ups : UpsInfo) : UpsInfo :=
  let printable := ups.upsmodel.map fun c => if ' ' ≤ c ∧ c ≤ '~' then c else ' '
  let host := strlcpy hostname 100
  { ups with
    upsname :=
      if ups.upsname ≠ [] then ups.upsname
      else if host ≠ [] then host
      else "default".toList
    upsmodel := printable }

/-- One round of the loop of {lit}`open_ups`. -/
def openUps (env : DeviceEnv) (eventTime : Int) (device : Device) : Device :=
  if env.opens then
    let restored :=
      if device.core.ups.isCommlost then
        let cleared := device.core.mapUps UpsInfo.clearCommlost
        if eventTime ≠ 0 then generateEvent env.pass cleared .cmdCommok else cleared
      else device.core
    let (cap, driver, call) :=
      getCapabilities env.port device.driver restored.ups.upsCap 0
    let capable := restored.mapUps fun ups => { ups with upsCap := cap }
    let items := readStaticData env.port driver cap 3 call
    { core := capable.mapUps fun ups =>
        prepDevice env.hostname (applyUpdates (storeItems items) ups)
      driver := driver
      point := .firstFill }
  else
    let lost := device.core.mapUps UpsInfo.setCommlost
    if env.time - lost.ups.startTime ≥ 60 then
      let announced :=
        if eventTime = 0 then generateEvent env.pass lost .cmdCommfailure else lost
      let since := if eventTime = 0 then env.time else eventTime
      if env.time - since ≥ 10 * 60 then
        { device with
          core := logEvent announced (eventMsg .cmdCommfailure).1 (eventMsg .cmdCommfailure).2
          point := .openUps env.time }
      else { device with core := announced, point := .openUps since }
    else { device with core := lost, point := .openUps eventTime }

/-- {lit}`fillUPS`. -/
def fillUps (env : DeviceEnv) (device : Device) : Device :=
  let (driver, updates, reopened) :=
    readVolatileData env.port env.time device.driver device.core.ups.upsCap
  let logged :=
    if reopened then
      logEvent device.core .logWarning
        "MODBUS: measurement data stale for over %d seconds -- reopening device to force resync"
    else device.core
  { device with core := logged.mapUps (applyUpdates updates), driver := driver }

/-- {lit}`ups->wait_time = device_wait_time(ups)`. -/
def setWaitTime (ups : UpsInfo) : UpsInfo :=
  { ups with waitTime := deviceWaitTime ups }

/-- A call of {lit}`do_action`. -/
def takeAction (env : DeviceEnv) (device : Device) : Core :=
  doAction (env.passEnv device.driver device.core.ups.upsCap) device.core

/-- The poll of {lit}`CI_STATUS` that {lit}`check_state` makes: always a live read. -/
def pollStatus (env : DeviceEnv) (device : Device) : Option (Ci × CiValue) :=
  if !device.core.ups.isCommlost || env.opens then
    match ciTable.find? fun info => info.ci = .status with
    | some info => (updateCi env.port device.driver info true 0).1
    | none => none
  else none

/-- A poll that failed: the connection is declared lost after the third. -/
def pollFailed (env : DeviceEnv) (device : Device) : Device :=
  if device.core.ups.isCommlost then
    if env.time - device.driver.commlostTime ≥ 10 * 60 then
      { device with
        core := logEvent device.core (eventMsg .cmdCommfailure).1 (eventMsg .cmdCommfailure).2
        driver := { device.driver with commlostTime := env.time } }
    else device
  else
    let counted := { device.driver with statusFailCount := device.driver.statusFailCount + 1 }
    if counted.statusFailCount ≥ 3 then
      { device with
        core := generateEvent env.pass (device.core.mapUps UpsInfo.setCommlost) .cmdCommfailure
        driver := { counted with commlostTime := env.time } }
    else { device with driver := counted }

/-- The part of a round of {lit}`check_state` after the tests that end it: the loop is
left as soon as a line flag has changed. -/
def checkStateRound (env : DeviceEnv) (device : Device) : Device :=
  match pollStatus env device with
  | some (ci, value) =>
      let polled := device.core.mapUps (applyCi ci value)
      let restored :=
        if polled.ups.isCommlost then
          generateEvent env.pass (polled.mapUps UpsInfo.clearCommlost) .cmdCommok
        else polled
      { core := restored
        driver := { device.driver with statusFailCount := 0 }
        point :=
          if restored.ups.lineFlags ≠ device.core.ups.lineFlags then .loopTop else device.point }
  | none => pollFailed env device

/-- One step of the device thread, over a record whose log is empty. -/
def threadStep (env : DeviceEnv) (device : Device) : Device :=
  match device.point with
  | .openUps eventTime => openUps env eventTime device
  | .firstFill => { fillUps env device with point := .loopTop }
  | .loopTop =>
      if env.shutdownRequested then { device with point := .stopped }
      else
        let waited := { device with core := device.core.mapUps setWaitTime }
        let acted := takeAction env waited
        { device with core := acted, point := if acted.exited then .stopped else .fillUps }
  | .fillUps => { fillUps env device with point := .secondAction }
  | .secondAction =>
      let acted := takeAction env device
      if acted.exited then { device with core := acted, point := .stopped }
      else
        let waited := acted.mapUps setWaitTime
        { device with
          core := waited
          point := .checkState (env.tod + waited.ups.waitTime.toNat * 1000000) }
  | .checkState exittime =>
      if env.shutdownRequested ∨ exittime ≤ env.tod then { device with point := .loopTop }
      else checkStateRound env device
  | .stopped => device

/-- One step; the log is that of the step. -/
def deviceStep (env : DeviceEnv) (device : Device) : Device :=
  threadStep env { device with core := { device.core with log := [] } }

/-- The thread when the daemon has built the driver. -/
def Device.start (config : UpsConfig) : Device where
  core := Core.start config
  driver := newModbusUpsDriver config.startTime
  point := .openUps 0

/-- A run of the thread, for a UPS that is configured as a MODBUS UPS. -/
structure DeviceRun where
  config : UpsConfig
  modbus : config.modeType = .modbusUps
  env : ℕ → DeviceEnv

/-- The default configuration with a MODBUS UPS. -/
theorem modeType_modbusDefault :
    ({ defaultConfig 0 with modeType := .modbusUps } : UpsConfig).modeType = .modbusUps :=
  rfl

/-- The thread before step {lit}`n`. -/
def DeviceRun.device (run : DeviceRun) : ℕ → Device
  | 0 => Device.start run.config
  | n + 1 => deviceStep (run.env n) (device run n)

/-! ## Events of the thread -/

/-- An event that is no shutdown cause counts a child and changes nothing else that the
thread reads. -/
theorem generateEvent_keeps (env : PassEnv) (core : Core) {event : Command}
    (hcause : event.isShutdownCause = false) :
    (generateEvent env core event).ups.status = core.ups.status ∧
      (generateEvent env core event).ups.upsCap = core.ups.upsCap ∧
      (generateEvent env core event).exited = core.exited ∧
      (generateEvent env core event).first = core.first := by
  have hwrites : PassWrites env .onMains false core (generateEvent env core event) :=
    generateEvent_writes .refl
  have hsteps : PassSteps env core (generateEvent env core event) := hwrites.steps
  rcases generateEvent_ups env core hcause with ⟨children, hups⟩
  refine ⟨?_, ?_, generateEvent_exited env core hcause, hsteps.first_eq⟩
  · rw [hups]
  · rw [hups]

/-- The process runs, no pass has been made, and the UPS neither calibrates nor has
asked for a shutdown. -/
structure Fresh (core : Core) : Prop where
  running : core.exited = false
  first : core.first = true
  calibration : core.ups.isCalibration = false
  remote : core.ups.isShutRemote = false

namespace Fresh

theorem of_keeps {before after : Core} (hfresh : Fresh before)
    (hexited : after.exited = before.exited) (hfirst : after.first = before.first)
    (hstatus : ∀ mask : StatusWord, mask &&& ~~~upsCommlost = mask →
      after.ups.test mask = before.ups.test mask) : Fresh after where
  running := hexited.trans hfresh.running
  first := hfirst.trans hfresh.first
  calibration := (hstatus _ (by decide)).trans hfresh.calibration
  remote := (hstatus _ (by decide)).trans hfresh.remote

theorem setCommlost {core : Core} (hfresh : Fresh core) :
    Fresh (core.mapUps UpsInfo.setCommlost) :=
  hfresh.of_keeps rfl rfl fun _ hmask =>
    testMask_eq_of_and_eq hmask (raiseMask_and_of_disjoint (by decide) core.ups.status)

theorem clearCommlost {core : Core} (hfresh : Fresh core) :
    Fresh (core.mapUps UpsInfo.clearCommlost) :=
  hfresh.of_keeps rfl rfl fun _ hmask =>
    testMask_eq_of_and_eq hmask (dropMask_and_of_disjoint (by decide) core.ups.status)

theorem generateEvent {core : Core} (hfresh : Fresh core) (env : PassEnv) {event : Command}
    (hcause : event.isShutdownCause = false) : Fresh (generateEvent env core event) := by
  rcases generateEvent_keeps env core hcause with ⟨hstatus, _, hexited, hfirst⟩
  refine hfresh.of_keeps hexited hfirst fun mask _ => ?_
  unfold UpsInfo.test
  rw [hstatus]

theorem logEvent {core : Core} (hfresh : Fresh core) (level : LogLevel) (msg : String) :
    Fresh (logEvent core level msg) :=
  ⟨hfresh.running, hfresh.first, hfresh.calibration, hfresh.remote⟩

end Fresh

/-! ## Steps in which every read succeeds -/

/-- Every call of the step is answered with the contents of the registers at its time,
and the UPS does not calibrate. -/
structure DeviceEnv.Answered (env : DeviceEnv) (image : ℕ → Registers) : Prop where
  answers : Answers env.port image
  calm : ∀ call, calibrating (decode regCalibrationStatus
    (registerBytes (image call) regCalibrationStatus.addr regCalibrationStatus.nregs)) = false

/-- The line flags that the status register stands for. -/
def registerFlags (image : Registers) : Bool × Bool :=
  lineFlagsOf (decode regUpsStatus
    (registerBytes image regUpsStatus.addr regUpsStatus.nregs)).uint

/-- The cache holds a third block that was fetched from these registers. -/
def Caches (driver : ModbusUpsDriver) (image : Registers) : Prop :=
  driver.blockC = some (registerBytes image measBlockC.addr measBlockC.nregs)

theorem Caches.status {driver : ModbusUpsDriver} {image : Registers}
    (hcaches : Caches driver image) :
    driver.cachedData regUpsStatus =
      some (registerBytes image regUpsStatus.addr regUpsStatus.nregs) :=
  cachedData_of_blockC hcaches (by decide) (by decide) (by decide)

theorem Caches.cachedFlags {driver : ModbusUpsDriver} {image : Registers}
    (hcaches : Caches driver image) : driver.cachedFlags = registerFlags image := by
  unfold ModbusUpsDriver.cachedFlags
  rw [hcaches.status]
  rfl

theorem Caches.calm {driver : ModbusUpsDriver} {image : Registers}
    (hcaches : Caches driver image)
    (hcalm : calibrating (decode regCalibrationStatus
      (registerBytes image regCalibrationStatus.addr regCalibrationStatus.nregs)) = false) :
    driver.CachedCalm := by
  have hcached : driver.cachedData regCalibrationStatus = _ :=
    cachedData_of_blockC hcaches (by decide) (by decide) (by decide)
  intro data hdata
  rw [hcached] at hdata
  cases hdata
  exact hcalm

/-- What {lit}`open_ups` establishes and every later step keeps while the process runs. -/
structure Ready (device : Device) : Prop where
  running : device.core.exited = false
  calm : Calm device.core.ups
  status : device.core.ups.upsCap .status = true
  whyBatt : device.core.ups.upsCap .whyBatt = true
  cached : ∃ data, device.driver.cachedData regUpsStatus = some data
  cachedCalm : device.driver.CachedCalm

/-- The state of the thread at its point. -/
def DeviceInv (device : Device) : Prop :=
  match device.point with
  | .openUps _ => Fresh device.core
  | .firstFill => Ready device ∧ device.core.first = true
  | .stopped => True
  | _ => Ready device

/-! ## Set-up -/

/-- A static item keeps the flags that the thread reads. -/
theorem ModbusUpsDriver.Calm.storeStatic {items : List (Ci × CiValue)} {ups : UpsInfo} (hcalm : Calm ups)
    (hstatic : ∀ ci value, (ci, value) ∈ items → ∃ info ∈ ciTable, info.ci = ci ∧
      info.dynamic = false) : Calm (applyUpdates (storeItems items) ups) := by
  have hdynamic : ∀ info ∈ ciTable, info.ci = .calibration → info.dynamic = true := by decide
  refine applyUpdates_invariant (P := Calm) (fun update hmem before hbefore => ?_) hcalm
  rcases List.mem_map.mp hmem with ⟨⟨ci, value⟩, hitem, rfl⟩
  refine hbefore.applyCi (fun hci => ?_)
  rcases hstatic ci value hitem with ⟨info, hinfo, hsame, hstatic⟩
  rw [hdynamic info hinfo (hsame.trans hci)] at hstatic
  cases hstatic

theorem applyUpdates_upsCap {items : List (Ci × CiValue)} {stamps : List DriverUpdate}
    (hstamps : Stamps stamps) (ups : UpsInfo) :
    (applyUpdates (storeItems items ++ stamps) ups).upsCap = ups.upsCap :=
  applyUpdates_invariant (P := fun after => after.upsCap = ups.upsCap)
    (fun _ hmem before hbefore => (update_upsCap hstamps hmem before).trans hbefore) rfl

/-- The flag of a lost connection is clear after {lit}`Open` has succeeded. -/
theorem restored_commlost (env : PassEnv) (eventTime : Int) (core : Core) :
    let restored :=
      if core.ups.isCommlost then
        let cleared := core.mapUps UpsInfo.clearCommlost
        if eventTime ≠ 0 then Apcupsd.generateEvent env cleared .cmdCommok else cleared
      else core
    restored.ups.isCommlost = false := by
  have hcleared : (core.mapUps UpsInfo.clearCommlost).ups.isCommlost = false :=
    UpsInfo.test_clear_self (by decide) core.ups
  dsimp only
  split_ifs with hlost htime
  · rcases generateEvent_keeps env (core.mapUps UpsInfo.clearCommlost)
      (show Command.isShutdownCause .cmdCommok = false from rfl) with ⟨hstatus, _⟩
    refine Eq.trans ?_ hcleared
    unfold UpsInfo.isCommlost UpsInfo.test
    rw [hstatus]
  · exact hcleared
  · exact Bool.eq_false_iff.mpr hlost

/-- The core after {lit}`Open` has succeeded. -/
theorem Fresh.restored {core : Core} (hfresh : Fresh core) (env : PassEnv) (eventTime : Int) :
    let restored :=
      if core.ups.isCommlost then
        let cleared := core.mapUps UpsInfo.clearCommlost
        if eventTime ≠ 0 then Apcupsd.generateEvent env cleared .cmdCommok else cleared
      else core
    Fresh restored ∧ restored.ups.isCommlost = false := by
  refine ⟨?_, restored_commlost env eventTime core⟩
  dsimp only
  split_ifs
  · exact hfresh.clearCommlost.generateEvent env rfl
  · exact hfresh.clearCommlost
  · exact hfresh

/-- What the rest of {lit}`open_ups` does to the record keeps it calm. -/
theorem ModbusUpsDriver.Calm.prepared {items : List (Ci × CiValue)} {ups : UpsInfo} (hcalm : Calm ups)
    (hstatic : ∀ ci value, (ci, value) ∈ items → ∃ info ∈ ciTable, info.ci = ci ∧
      info.dynamic = false) (hostname : List Char) :
    Calm (prepDevice hostname (applyUpdates (storeItems items) ups)) ∧
      (prepDevice hostname (applyUpdates (storeItems items) ups)).upsCap = ups.upsCap := by
  have hcap := @applyUpdates_upsCap items [] (by simp [Stamps]) ups
  rw [List.append_nil] at hcap
  exact ⟨(hcalm.storeStatic hstatic).of_status rfl, hcap⟩

/-- A round of {lit}`open_ups` that opens the device makes the thread ready. -/
theorem openUps_of_opens {env : DeviceEnv} {image : ℕ → Registers}
    (hanswered : env.Answered image) (hopens : env.opens = true) (eventTime : Int)
    {device : Device} (hfresh : Fresh device.core) :
    (openUps env eventTime device).point = .firstFill ∧
      Ready (openUps env eventTime device) ∧
      (openUps env eventTime device).core.first = true := by
  rcases hfresh.restored env.pass eventTime with ⟨hrestored, hcommlost⟩
  unfold openUps
  rw [if_pos hopens]
  dsimp only at hrestored hcommlost ⊢
  generalize (if device.core.ups.isCommlost then _ else device.core) = restored
    at hrestored hcommlost ⊢
  have hcap := getCapabilities_cap hanswered.answers device.driver restored.ups.upsCap 0
  generalize getCapabilities env.port device.driver restored.ups.upsCap 0 = probed at hcap ⊢
  rcases probed with ⟨cap, driver, call⟩
  have hcaches : Caches driver (image 2) := hcap.2
  have hstatic : ∀ ci value, (ci, value) ∈ readStaticData env.port driver cap 3 call →
      ∃ info ∈ ciTable, info.ci = ci ∧ info.dynamic = false :=
    fun _ _ => mem_readStaticData
  dsimp only
  generalize readStaticData env.port driver cap 3 call = items at hstatic
  have hcalm : Calm { restored.ups with upsCap := cap } :=
    ⟨hrestored.calibration, hrestored.remote, hcommlost⟩
  have hprepared := hcalm.prepared hstatic env.hostname
  have hlisted : (∃ info ∈ ciTable, info.ci = .status) ∧
      ∃ info ∈ ciTable, info.ci = .whyBatt := by
    decide
  rcases hlisted with ⟨⟨status, hstatus, hstatusCi⟩, why, hwhy, hwhyCi⟩
  refine ⟨rfl, ?_, hrestored.first⟩
  exact
    { running := hrestored.running
      calm := hprepared.1
      status := (congrFun hprepared.2 .status).trans (hstatusCi ▸ hcap.1 status hstatus)
      whyBatt := (congrFun hprepared.2 .whyBatt).trans (hwhyCi ▸ hcap.1 why hwhy)
      cached := ⟨_, hcaches.status⟩
      cachedCalm := hcaches.calm (hanswered.calm 2) }

/-- A round of {lit}`open_ups` that does not open the device. -/
theorem openUps_of_not_opens {env : DeviceEnv} (hopens : env.opens = false) (eventTime : Int)
    {device : Device} (hfresh : Fresh device.core) :
    (∃ since, (openUps env eventTime device).point = .openUps since) ∧
      Fresh (openUps env eventTime device).core := by
  have hlost := hfresh.setCommlost
  have hannounced : Fresh
      (if eventTime = 0 then
        generateEvent env.pass (device.core.mapUps UpsInfo.setCommlost) .cmdCommfailure
      else device.core.mapUps UpsInfo.setCommlost) := by
    split
    · exact hlost.generateEvent env.pass rfl
    · exact hlost
  unfold openUps
  rw [if_neg (Bool.eq_false_iff.mp hopens)]
  dsimp only
  generalize (if eventTime = 0 then generateEvent _ _ _ else _) = announced at hannounced ⊢
  generalize (if eventTime = 0 then env.time else eventTime) = since
  split_ifs
  · exact ⟨⟨_, rfl⟩, hannounced.logEvent _ _⟩
  · exact ⟨⟨_, rfl⟩, hannounced⟩
  · exact ⟨⟨_, rfl⟩, hlost⟩

/-! ## Fetches -/

/-- The thread after {lit}`fillUPS`: the line flags are those of the registers, in the
record and in the cache. -/
theorem fillUps_of_ready {env : DeviceEnv} {image : ℕ → Registers}
    (hanswered : env.Answered image) {device : Device} (hready : Ready device) :
    Ready (fillUps env device) ∧
      (fillUps env device).core.ups.lineFlags = registerFlags (image 2) ∧
      (fillUps env device).driver.cachedFlags = registerFlags (image 2) := by
  have hcaches : Caches (readVolatileData env.port env.time device.driver
      device.core.ups.upsCap).1 (image 2) := by
    unfold readVolatileData
    rw [fetchMeasurementBlocks_of_answers hanswered.answers]
    dsimp only
    split <;> rfl
  have hupdates : ∃ stamps, Stamps stamps ∧
      (readVolatileData env.port env.time device.driver device.core.ups.upsCap).2.1 =
        storeItems (cachedItems (readVolatileData env.port env.time device.driver
          device.core.ups.upsCap).1 device.core.ups.upsCap) ++ stamps := by
    unfold readVolatileData
    dsimp only
    rw [updateCis_dynamic]
    exact ⟨_, stamps_pollTime env.time _, rfl⟩
  unfold fillUps
  generalize readVolatileData env.port env.time device.driver device.core.ups.upsCap = polled
    at hcaches hupdates ⊢
  rcases polled with ⟨driver, updates, reopened⟩
  rcases hupdates with ⟨stamps, hstamps, hupdates⟩
  dsimp only at hcaches hupdates ⊢
  have hcalm : driver.CachedCalm := hcaches.calm (hanswered.calm 2)
  have hlogged : ∀ logged : Core, logged =
      (if reopened then logEvent device.core .logWarning
        "MODBUS: measurement data stale for over %d seconds -- reopening device to force resync"
      else device.core) → logged.ups = device.core.ups ∧ logged.exited = device.core.exited := by
    rintro logged rfl
    split <;> exact ⟨rfl, rfl⟩
  generalize (if reopened then _ else device.core) = logged at hlogged ⊢
  rcases hlogged logged rfl with ⟨hups, hexited⟩
  have hcap := @applyUpdates_upsCap (cachedItems driver device.core.ups.upsCap) stamps
    hstamps logged.ups
  have hflags := applyUpdates_lineFlags hready.status hcaches.status hstamps logged.ups
  rw [← hupdates] at hcap hflags
  refine ⟨?_, hflags.trans hcaches.cachedFlags, hcaches.cachedFlags⟩
  refine
    { running := hexited.trans hready.running
      calm := ?_
      status := ((congrFun hcap .status).trans (by rw [hups])).trans hready.status
      whyBatt := ((congrFun hcap .whyBatt).trans (by rw [hups])).trans hready.whyBatt
      cached := ⟨_, hcaches.status⟩
      cachedCalm := hcalm }
  refine applyUpdates_invariant (P := Calm) (fun update hmem before hbefore => ?_)
    (hups ▸ hready.calm)
  rw [hupdates] at hmem
  exact update_calm hcalm hstamps hmem hbefore

/-- A fetch leaves the core's fields alone and announces no outage. -/
theorem fillUps_keeps (env : DeviceEnv) (device : Device) :
    (fillUps env device).core.ups.toCoreFields = device.core.ups.toCoreFields ∧
      (fillUps env device).core.first = device.core.first ∧
      outageEvents (fillUps env device).core = outageEvents device.core := by
  unfold fillUps
  dsimp only
  split
  · exact ⟨(applyUpdates_frame _ _).core, rfl, outageEvents_logEvent device.core _ _⟩
  · exact ⟨(applyUpdates_frame _ _).core, rfl, rfl⟩

/-! ## Passes -/

/-- The check for a self test decodes the cached blocks. -/
theorem entryPoint_checkSelftest (port : RegisterPort) (time : Int) (driver : ModbusUpsDriver)
    {cap : Ci → Bool} (hwhy : cap .whyBatt = true) :
    ∃ stamps, Stamps stamps ∧ entryPoint port time driver cap .checkSelftest =
      storeItems (cachedItems driver cap) ++ stamps := by
  unfold entryPoint
  dsimp only
  rw [if_pos hwhy, updateCis_dynamic]
  exact ⟨_, stamps_selfTest time _, rfl⟩

/-- The driver calls of a pass: the check for a self test, and calls that write
nothing. -/
theorem mem_driverCalls {env : DeviceEnv} {driver : ModbusUpsDriver} {cap : Ci → Bool}
    {updates : List DriverUpdate} (hmem : updates ∈ (env.passEnv driver cap).driverCalls) :
    updates = entryPoint env.port env.time driver cap .checkSelftest ∨ updates = [] := by
  simp only [PassEnv.driverCalls, DeviceEnv.passEnv, entryPoint, List.mem_cons,
    List.not_mem_nil, or_false] at hmem ⊢
  tauto

theorem ModbusUpsDriver.Calm.of_own {before after : UpsInfo} (hcalm : Calm before)
    (hbits : after.status &&& ~~~ownBits = before.status &&& ~~~ownBits) : Calm after :=
  ⟨(testMask_eq_of_and_eq (by decide) hbits).trans hcalm.calibration,
    (testMask_eq_of_and_eq (by decide) hbits).trans hcalm.remote,
    (testMask_eq_of_and_eq (by decide) hbits).trans hcalm.commlost⟩

theorem firstCall_status (env : PassEnv) (core : Core) :
    (firstCall env core).ups.status = core.ups.status ∧
      (firstCall env core).ups.upsCap = core.ups.upsCap := by
  unfold firstCall
  split <;> exact ⟨rfl, rfl⟩

/-- A pass that stays in the process keeps the thread ready. -/
theorem takeAction_ready {env : DeviceEnv} {device : Device} (hready : Ready device)
    (hexited : (takeAction env device).exited = false) :
    Ready { device with core := takeAction env device } := by
  rcases entryPoint_checkSelftest env.port env.time device.driver hready.whyBatt with
    ⟨stamps, hstamps, hcheck⟩
  have hkept : Calm (takeAction env device).ups ∧
      (takeAction env device).ups.upsCap = device.core.ups.upsCap := by
    refine (doAction_steps (env.passEnv device.driver device.core.ups.upsCap)
      device.core).invariant
      (P := fun ups => Calm ups ∧ ups.upsCap = device.core.ups.upsCap) ?_ ?_ ?_
    · intro change hchange ups hups
      exact ⟨hups.1.of_own (hchange ups).1, (hchange ups).2.trans hups.2⟩
    · intro updates hupdates update hmem ups hups
      rcases mem_driverCalls hupdates with rfl | rfl
      · rw [hcheck] at hmem
        exact ⟨update_calm hready.cachedCalm hstamps hmem hups.1,
          (update_upsCap hstamps hmem ups).trans hups.2⟩
      · cases hmem
    · rcases firstCall_status (env.passEnv device.driver device.core.ups.upsCap) device.core
        with ⟨hstatus, hcap⟩
      exact ⟨hready.calm.of_status hstatus, hcap⟩
  exact
    { running := hexited
      calm := hkept.1
      status := (congrFun hkept.2 .status).trans hready.status
      whyBatt := (congrFun hkept.2 .whyBatt).trans hready.whyBatt
      cached := hready.cached
      cachedCalm := hready.cachedCalm }

/-- The pass that the thread would make takes {lit}`st_PowerFailure`. -/
def failing (env : DeviceEnv) (device : Device) : Bool :=
  takesPowerFailure (env.passEnv device.driver device.core.ups.upsCap) device.core

theorem UpsInfo.lineFlags_of_own {before after : UpsInfo}
    (hbits : after.status &&& ~~~ownBits = before.status &&& ~~~ownBits) :
    after.lineFlags = before.lineFlags :=
  Prod.ext (testMask_eq_of_and_eq (by decide) hbits) (testMask_eq_of_and_eq (by decide) hbits)

/-- A pass leaves the line flags alone, unless it takes {lit}`st_PowerFailure`, where it
leaves those of the cache and does not leave the process. -/
theorem takeAction_lineFlags {env : DeviceEnv} {device : Device} (hready : Ready device) :
    (takeAction env device).ups.lineFlags =
        (if failing env device then device.driver.cachedFlags else device.core.ups.lineFlags) ∧
      (failing env device = true → (takeAction env device).exited = false) := by
  let passEnv := env.passEnv device.driver device.core.ups.upsCap
  cases hfailing : failing env device with
  | true =>
      have hdone := @doAction_of_powerFailure passEnv device.core rfl hready.running hfailing
      rcases hdone with ⟨hrunning, called, hcalled, hstatus⟩
      rcases entryPoint_checkSelftest env.port env.time device.driver hready.whyBatt with
        ⟨stamps, hstamps, hcheck⟩
      rcases hready.cached with ⟨data, hdata⟩
      refine ⟨?_, fun _ => hrunning⟩
      rw [if_pos rfl, ← applyUpdates_lineFlags hready.status hdata hstamps called, ← hcheck]
      exact UpsInfo.lineFlags_of_own (congrArg (· &&& ~~~ownBits) hstatus)
  | false =>
      refine ⟨?_, nofun⟩
      rw [if_neg Bool.false_ne_true]
      have hquiet : takeAction env device = doAction { passEnv with checkSelftest := [] }
          device.core :=
        doAction_of_not_powerFailure hfailing
      rw [hquiet]
      refine UpsInfo.lineFlags_of_own ?_
      refine (doAction_steps { passEnv with checkSelftest := [] } device.core).invariant
        (P := fun ups => ups.status &&& ~~~ownBits = device.core.ups.status &&& ~~~ownBits)
        ?_ ?_ ?_
      · exact fun change hchange ups hups => (hchange ups).1.trans hups
      · intro updates hupdates update hmem
        have hnone : updates = [] := by
          simp only [passEnv, PassEnv.driverCalls, DeviceEnv.passEnv, entryPoint, List.mem_cons,
            List.not_mem_nil, or_false, or_self] at hupdates
          exact hupdates
        rw [hnone] at hmem
        cases hmem
      · rw [(firstCall_status { passEnv with checkSelftest := [] } device.core).1]

/-! ## Polls -/

/-- The poll of {lit}`CI_STATUS` reads the registers and not the cache. -/
theorem pollStatus_of_answers {env : DeviceEnv} {image : ℕ → Registers}
    (hanswers : Answers env.port image) {device : Device}
    (hcommlost : device.core.ups.isCommlost = false) :
    pollStatus env device = some (.status, decode regUpsStatus
      (registerBytes (image 0) regUpsStatus.addr regUpsStatus.nregs)) := by
  have hlisted : ciTable.find? (fun info => info.ci = .status) =
      some ⟨.status, true, regUpsStatus⟩ := by
    decide
  have hlength := length_registerBytes (image 0) regUpsStatus.addr regUpsStatus.nregs
  unfold pollStatus
  rw [hlisted, hcommlost]
  unfold updateCi getRegisterData
  dsimp only
  rw [hanswers, ← hlength]
  exact congrArg (fun data => some (Ci.status, decode regUpsStatus data)) List.take_length

/-- A poll stores the line flags of the registers; the round is over if they differ
from those before. -/
theorem checkStateRound_of_ready {env : DeviceEnv} {image : ℕ → Registers}
    (hanswered : env.Answered image) {device : Device} (hready : Ready device) :
    ∃ polled : Device, checkStateRound env device = polled ∧
      Ready polled ∧
      polled.core.ups.lineFlags = registerFlags (image 0) ∧
      polled.core.ups.prevStatus = device.core.ups.prevStatus ∧
      polled.core.ups.numXfers = device.core.ups.numXfers ∧
      polled.core.first = device.core.first ∧
      polled.core.log = device.core.log ∧
      polled.driver.cachedFlags = device.driver.cachedFlags ∧
      polled.point =
        (if registerFlags (image 0) ≠ device.core.ups.lineFlags then .loopTop
        else device.point) := by
  let value := decode regUpsStatus
    (registerBytes (image 0) regUpsStatus.addr regUpsStatus.nregs)
  have hpolled : pollStatus env device = some (.status, value) :=
    pollStatus_of_answers hanswered.answers hready.calm.commlost
  have hfields := applyCi_fields .status value device.core.ups
  have hcalm : Calm (applyCi .status value device.core.ups) := hready.calm.applyCi nofun
  have hflags : (applyCi .status value device.core.ups).lineFlags = registerFlags (image 0) :=
    applyCi_status value device.core.ups
  have hround : checkStateRound env device =
      { core := device.core.mapUps (applyCi .status value)
        driver := { device.driver with statusFailCount := 0 }
        point :=
          if registerFlags (image 0) ≠ device.core.ups.lineFlags then .loopTop
          else device.point } := by
    have hsame : (device.core.mapUps (applyCi .status value)).ups.isCommlost = false :=
      hcalm.commlost
    unfold checkStateRound
    rw [hpolled]
    dsimp only
    rw [hsame, if_neg Bool.false_ne_true, mapUps_ups, hflags]
  refine ⟨_, hround, ?_, hflags, ?_, ?_, rfl, rfl, rfl, rfl⟩
  · exact
      { running := hready.running
        calm := hcalm
        status := (congrFun hfields.2.2 .status).trans hready.status
        whyBatt := (congrFun hfields.2.2 .whyBatt).trans hready.whyBatt
        cached := hready.cached
        cachedCalm := hready.cachedCalm }
  · exact congrArg CoreFields.prevStatus hfields.2.1
  · exact congrArg CoreFields.numXfers hfields.2.1

/-! ## The invariant -/

theorem Ready.clearLog {device : Device} (hready : Ready device) :
    Ready { device with core := { device.core with log := [] } } :=
  ⟨hready.running, hready.calm, hready.status, hready.whyBatt, hready.cached,
    hready.cachedCalm⟩

theorem Ready.moveTo {device : Device} (hready : Ready device) (point : DevicePoint) :
    Ready { device with point := point } :=
  ⟨hready.running, hready.calm, hready.status, hready.whyBatt, hready.cached,
    hready.cachedCalm⟩

theorem Ready.setWaitTime {device : Device} (hready : Ready device) :
    Ready { device with core := device.core.mapUps setWaitTime } :=
  ⟨hready.running, hready.calm.of_status rfl, hready.status, hready.whyBatt, hready.cached,
    hready.cachedCalm⟩

/-- The invariant does not look at the log. -/
theorem DeviceInv.clearLog {device : Device} (hinv : DeviceInv device) :
    DeviceInv { device with core := { device.core with log := [] } } := by
  rcases device with ⟨core, driver, point⟩
  cases point with
  | openUps _ => exact ⟨hinv.running, hinv.first, hinv.calibration, hinv.remote⟩
  | firstFill => exact ⟨Ready.clearLog hinv.1, hinv.2⟩
  | stopped => trivial
  | loopTop | fillUps | secondAction | checkState _ => exact Ready.clearLog hinv

theorem openUps_inv {env : DeviceEnv} {image : ℕ → Registers} (hanswered : env.Answered image)
    (eventTime : Int) {device : Device} (hfresh : Fresh device.core) :
    DeviceInv (openUps env eventTime device) := by
  cases hopens : env.opens with
  | true =>
      rcases openUps_of_opens hanswered hopens eventTime hfresh with ⟨hnext, hready, hfirst⟩
      unfold DeviceInv
      rw [hnext]
      exact ⟨hready, hfirst⟩
  | false =>
      rcases openUps_of_not_opens hopens eventTime hfresh with ⟨⟨since, hnext⟩, hlater⟩
      unfold DeviceInv
      rw [hnext]
      exact hlater

theorem threadStep_inv {env : DeviceEnv} {image : ℕ → Registers}
    (hanswered : env.Answered image) {device : Device} (hinv : DeviceInv device) :
    DeviceInv (threadStep env device) := by
  rcases device with ⟨core, driver, point⟩
  cases point with
  | openUps eventTime => exact openUps_inv hanswered eventTime hinv
  | firstFill => exact (fillUps_of_ready hanswered hinv.1).1.moveTo .loopTop
  | loopTop =>
      have hready := Ready.setWaitTime hinv
      unfold threadStep
      dsimp only
      split
      · trivial
      · cases hexited : (takeAction env ⟨core.mapUps setWaitTime, driver, .loopTop⟩).exited with
        | true => trivial
        | false => exact (takeAction_ready hready hexited).moveTo .fillUps
  | fillUps => exact (fillUps_of_ready hanswered hinv).1.moveTo .secondAction
  | secondAction =>
      unfold threadStep
      dsimp only
      split
      · trivial
      · rename_i hexited
        exact (takeAction_ready hinv (Bool.eq_false_iff.mpr hexited)).setWaitTime.moveTo _
  | checkState exittime =>
      unfold threadStep
      dsimp only
      split
      · exact Ready.moveTo hinv .loopTop
      · rcases checkStateRound_of_ready hanswered hinv with
          ⟨polled, hround, hready, _, _, _, _, _, _, hnext⟩
        rw [hround]
        unfold DeviceInv
        rw [hnext]
        split_ifs
        · exact hready
        · exact hready
  | stopped => trivial

/-- Every step keeps the invariant. -/
theorem deviceStep_inv {env : DeviceEnv} {image : ℕ → Registers}
    (hanswered : env.Answered image) {device : Device} (hinv : DeviceInv device) :
    DeviceInv (deviceStep env device) :=
  threadStep_inv hanswered hinv.clearLog

/-- Every read of the run succeeds with the current contents, and the UPS does not
calibrate. -/
def DeviceRun.Answered (run : DeviceRun) (image : ℕ → ℕ → Registers) : Prop :=
  ∀ n, (run.env n).Answered (image n)

/-- The invariant holds at every step of such a run. -/
theorem DeviceRun.inv {run : DeviceRun} {image : ℕ → ℕ → Registers}
    (hanswered : run.Answered image) (n : ℕ) : DeviceInv (run.device n) := by
  induction n with
  | zero =>
      refine ⟨rfl, rfl, ?_, ?_⟩
      · change testMask (upsPlugged ||| upsBattpresent) upsCalibration = false
        decide
      · change testMask (upsPlugged ||| upsBattpresent) upsShutRemote = false
        decide
  | succ n ih => exact deviceStep_inv (hanswered n) ih

end Apcupsd
