import Apcupsd.Core.PassPolls
import Apcupsd.Foundations.RecursiveLock
import Apcupsd.Modbus.DeviceLoop

/-!
# Reads and the lock of the record

The lock of {lit}`UPSINFO` is recursive.  {lit}`do_action` holds it for a whole pass and
{lit}`UpdateCi` for one store, so the check for a self test locks it twice.  The trace of
the device thread lists what it does to the lock and the calls of
{lit}`ModbusComm::ReadRegister`, by their number in the step.

Main results:

- Definition {lit}`threadTrace`: the trace of one step.
- Theorem {lit}`updateCisTrace_dynamic`: a dynamic pass over the table locks and does not
  read.
- Theorem {lit}`LockedRun.reads_unlocked`: in every run each read happens with the lock
  free.
-/

namespace Apcupsd

open Apcupsd.Core LockStep ModbusUpsDriver

/-! ## Traces of the driver -/

/-- What the device thread does: the actions are the calls of {lit}`ReadRegister`. -/
abbrev DeviceTrace := List (LockStep ℕ)

/-- The calls between two values of the counter. -/
def readCalls (before after : ℕ) : DeviceTrace :=
  (List.range' before (after - before)).map .act

/-- {lit}`write_lock` or {lit}`read_lock`, a few assignments, and the unlock. -/
def lockSection : DeviceTrace :=
  [.acquire, .release]

namespace ModbusUpsDriver

variable (port : RegisterPort)

/-- {lit}`UpdateCi`: the lock is taken once the register has been read. -/
def updateCiTrace (driver : ModbusUpsDriver) (info : CiInfo) (forceLiveRead : Bool)
    (call : ℕ) : DeviceTrace :=
  let (item, next) := updateCi port driver info forceLiveRead call
  readCalls call next ++ (if item.isSome then lockSection else [])

/-- {lit}`UpdateCis` over the rest of the table. -/
def updateCisTrace (driver : ModbusUpsDriver) (cap : Ci → Bool) (dynamic : Bool) :
    List CiInfo → ℕ → DeviceTrace
  | [], _ => []
  | info :: table, call =>
      if cap info.ci && info.dynamic == dynamic then
        updateCiTrace port driver info false call ++
          updateCisTrace driver cap dynamic table (updateCi port driver info false call).2
      else updateCisTrace driver cap dynamic table call

/-- {lit}`get_capabilities` reads without the lock. -/
def getCapabilitiesTrace (driver : ModbusUpsDriver) (cap : Ci → Bool) (call : ℕ) :
    DeviceTrace :=
  readCalls call (getCapabilities port driver cap call).2.2

/-- {lit}`read_static_data`. -/
def readStaticTrace (driver : ModbusUpsDriver) (cap : Ci → Bool) : ℕ → ℕ → DeviceTrace
  | 0, _ => []
  | attempts + 1, call =>
      updateCisTrace port driver cap false ciTable call ++
        readStaticTrace driver cap attempts (updateCis port driver cap false ciTable call).2

/-- {lit}`read_volatile_data`: the blocks, the pass over the table, and the lock for the
time of the poll if anything was stored. -/
def readVolatileTrace (time : Int) (driver : ModbusUpsDriver) (cap : Ci → Bool) :
    DeviceTrace :=
  let call := (fetchMeasurementBlocks port driver 0).2
  let (dated, updates, _) := readVolatileData port time driver cap
  readCalls 0 call ++ (updateCisTrace port dated cap true ciTable call ++
    (if updates.isEmpty then [] else lockSection))

/-- {lit}`entry_point`: the check for a self test makes the whole dynamic pass. -/
def entryPointTrace (driver : ModbusUpsDriver) (cap : Ci → Bool) : DeviceCmd → DeviceTrace
  | .checkSelftest => if cap .whyBatt then updateCisTrace port driver cap true ciTable 0 else []
  | .getSelftestMsg | .dtrEnable | .dtrStDisable => []

end ModbusUpsDriver

/-! ## Traces of the thread -/

/-- What an effect of a pass does: {lit}`kill_power` writes a register and reads none. -/
def effectTrace (env : DeviceEnv) (driver : ModbusUpsDriver) (cap : Ci → Bool) :
    Effect → DeviceTrace
  | .entryPoint cmd => entryPointTrace env.port driver cap cmd
  | .readVolatileData => readVolatileTrace env.port env.time driver cap
  | _ => []

/-- {lit}`do_action` holds the lock from its first statement to its last; a process that
exits in between does not release it. -/
def doActionTrace (env : DeviceEnv) (device : Device) : DeviceTrace :=
  let acted := takeAction env device
  .acquire ::
    (acted.log.flatMap (effectTrace env device.driver device.core.ups.upsCap) ++
      (if acted.exited then [] else [.release]))

/-- {lit}`do_reports`: every report that is written locks the record once. -/
def reportsTrace (reports : ℕ) : DeviceTrace :=
  (List.range reports).flatMap fun _ => lockSection

/-- The rest of {lit}`open_ups` once {lit}`Open` has succeeded; the events before it leave
the capabilities alone. -/
def openUpsTrace (env : DeviceEnv) (device : Device) : DeviceTrace :=
  if env.opens then
    let (cap, driver, call) := getCapabilities env.port device.driver device.core.ups.upsCap 0
    getCapabilitiesTrace env.port device.driver device.core.ups.upsCap 0 ++
      readStaticTrace env.port driver cap 3 call
  else []

/-- The poll of {lit}`check_state`. -/
def pollTrace (env : DeviceEnv) (device : Device) : DeviceTrace :=
  if !device.core.ups.isCommlost || env.opens then
    match ciTable.find? fun info => info.ci = .status with
    | some info => updateCiTrace env.port device.driver info true 0
    | none => []
  else []

/-- The trace of one step of the thread. -/
def threadTrace (reports : ℕ) (env : DeviceEnv) (device : Device) : DeviceTrace :=
  match device.point with
  | .openUps _ => openUpsTrace env device
  | .firstFill | .fillUps =>
      readVolatileTrace env.port env.time device.driver device.core.ups.upsCap
  | .loopTop =>
      if env.shutdownRequested then []
      else doActionTrace env { device with core := device.core.mapUps setWaitTime }
  | .secondAction =>
      doActionTrace env device ++
        (if (takeAction env device).exited then [] else reportsTrace reports)
  | .checkState exittime =>
      if env.shutdownRequested ∨ exittime ≤ env.tod then [] else pollTrace env device
  | .stopped => []

/-- A step starts with an empty log. -/
def Device.clearLog (device : Device) : Device :=
  { device with core := { device.core with log := [] } }

/-- A run of the thread with the options of the command line and the number of reports
that are written in each iteration. -/
structure LockedRun extends DeviceRun where
  killOnPowerfail : Bool
  terminateOnPowerfail : Bool
  reports : ℕ → ℕ

namespace LockedRun

/-- The thread before step {lit}`n`. -/
def device (run : LockedRun) : ℕ → Device
  | 0 =>
      { Device.start run.config with
        core := { Core.start run.config with
          killOnPowerfail := run.killOnPowerfail
          terminateOnPowerfail := run.terminateOnPowerfail } }
  | n + 1 => deviceStep (run.env n) (device run n)

/-- The trace of the first {lit}`n` steps. -/
def trace (run : LockedRun) : ℕ → DeviceTrace
  | 0 => []
  | n + 1 => trace run n ++ threadTrace (run.reports n) (run.env n) (run.device n).clearLog

end LockedRun

/-! ## The driver -/

theorem inside_lockSection : Inside lockSection :=
  Inside.enclosed .nil

theorem outside_readCalls (before after : ℕ) : Outside (readCalls before after) :=
  .acts _

theorem inside_ite {condition : Prop} [Decidable condition] {trace : DeviceTrace}
    (htrace : Inside trace) : Inside (if condition then [] else trace) := by
  split
  · exact .nil
  · exact htrace

namespace ModbusUpsDriver

variable {port : RegisterPort} {driver : ModbusUpsDriver} {cap : Ci → Bool}

theorem updateCi_counter (info : CiInfo) (forceLiveRead : Bool) (call : ℕ) :
    call ≤ (updateCi port driver info forceLiveRead call).2 := by
  unfold updateCi getRegisterData
  dsimp only
  split
  · exact le_rfl
  · exact Nat.le_succ call

theorem updateCis_counter (dynamic : Bool) (table : List CiInfo) (call : ℕ) :
    call ≤ (updateCis port driver cap dynamic table call).2 := by
  induction table generalizing call with
  | nil => exact le_rfl
  | cons info table ih =>
      unfold updateCis
      split
      · exact (updateCi_counter info false call).trans (ih _)
      · exact ih call

theorem readCalls_append {before middle after : ℕ} (hfirst : before ≤ middle)
    (hsecond : middle ≤ after) :
    readCalls before middle ++ readCalls middle after = readCalls before after := by
  have hsplit := @List.range'_append_1 before (middle - before) (after - middle)
  rw [show before + (middle - before) = middle by omega,
    show middle - before + (after - middle) = after - before by omega] at hsplit
  unfold readCalls
  rw [← List.map_append, hsplit]

theorem actions_updateCiTrace (info : CiInfo) (forceLiveRead : Bool) (call : ℕ) :
    actions (updateCiTrace port driver info forceLiveRead call) =
      actions (readCalls call (updateCi port driver info forceLiveRead call).2) := by
  unfold updateCiTrace
  dsimp only
  rw [actions_append]
  split
  · exact List.append_nil _
  · exact List.append_nil _

/-- The reads in the trace of a pass over the table are the calls that the pass makes. -/
theorem actions_updateCisTrace (dynamic : Bool) (table : List CiInfo) (call : ℕ) :
    actions (updateCisTrace port driver cap dynamic table call) =
      actions (readCalls call (updateCis port driver cap dynamic table call).2) := by
  induction table generalizing call with
  | nil => simp [updateCisTrace, updateCis, readCalls]
  | cons info table ih =>
      unfold updateCisTrace updateCis
      split
      · have hhead := @updateCi_counter port driver info false call
        have htail := @updateCis_counter port driver cap dynamic table
          (updateCi port driver info false call).2
        rw [actions_append, actions_updateCiTrace, ih, ← actions_append,
          readCalls_append hhead htail]
      · exact ih call

theorem outside_updateCiTrace (info : CiInfo) (forceLiveRead : Bool) (call : ℕ) :
    Outside (updateCiTrace port driver info forceLiveRead call) := by
  refine (outside_readCalls call _).append ?_
  split
  · exact inside_lockSection.outside
  · exact .nil

theorem outside_updateCisTrace (dynamic : Bool) (table : List CiInfo) (call : ℕ) :
    Outside (updateCisTrace port driver cap dynamic table call) := by
  induction table generalizing call with
  | nil => exact .nil
  | cons info table ih =>
      unfold updateCisTrace
      split
      · exact (outside_updateCiTrace info false call).append (ih _)
      · exact ih call

theorem outside_readStaticTrace (attempts call : ℕ) :
    Outside (readStaticTrace port driver cap attempts call) := by
  induction attempts generalizing call with
  | zero => exact .nil
  | succ attempts ih => exact (outside_updateCisTrace false ciTable call).append (ih _)

theorem outside_readVolatileTrace (time : Int) :
    Outside (readVolatileTrace port time driver cap) :=
  (outside_readCalls 0 _).append
    ((outside_updateCisTrace true ciTable _).append (inside_ite inside_lockSection).outside)

/-- The pieces of a pass over dynamic items: every register is covered, so a block that is
not valid refuses it and no read is made. -/
theorem inside_updateCisTrace {table : List CiInfo}
    (htable : ∀ info ∈ table, info.dynamic = true → covered info.reg = true) (call : ℕ) :
    Inside (updateCisTrace port driver cap true table call) := by
  induction table generalizing call with
  | nil => exact .nil
  | cons info table ih =>
      have hrest := ih fun later hlater => htable later (List.mem_cons_of_mem _ hlater)
      unfold updateCisTrace
      cases hquery : cap info.ci && info.dynamic == true with
      | false => exact hrest call
      | true =>
          have hdynamic : info.dynamic = true := by
            simpa using (Bool.and_eq_true_iff.mp hquery).2
          have hcached := getRegisterData_of_covered port
            (htable info List.mem_cons_self hdynamic) driver call
          have hnone : readCalls call (updateCi port driver info false call).2 = [] := by
            unfold updateCi
            rw [hcached]
            simp [readCalls]
          rw [if_pos rfl]
          refine Inside.append ?_ (hrest _)
          unfold updateCiTrace
          dsimp only
          rw [hnone, List.nil_append]
          split
          · exact inside_lockSection
          · exact .nil

/-- A dynamic pass over the table locks and does not read. -/
theorem updateCisTrace_dynamic (driver : ModbusUpsDriver) (cap : Ci → Bool) (call : ℕ) :
    Inside (updateCisTrace port driver cap true ciTable call) :=
  inside_updateCisTrace covered_of_dynamic call

theorem inside_entryPointTrace (driver : ModbusUpsDriver) (cap : Ci → Bool) (cmd : DeviceCmd) :
    Inside (entryPointTrace port driver cap cmd) := by
  cases cmd with
  | checkSelftest =>
      unfold entryPointTrace
      dsimp only
      split
      · exact updateCisTrace_dynamic driver cap 0
      · exact .nil
  | getSelftestMsg | dtrEnable | dtrStDisable => exact .nil

end ModbusUpsDriver

/-! ## The UPS is no dumb UPS -/

theorem Unpolled.applyUpdates {core : Core} (hcore : Unpolled core)
    (updates : List DriverUpdate) : Unpolled (core.mapUps (applyUpdates updates)) :=
  hcore.mapUps (congrArg UpsConfig.modeType (applyUpdates_frame updates core.ups).config)

theorem Unpolled.prepDevice {core : Core} (hcore : Unpolled core) (hostname : List Char)
    (updates : List DriverUpdate) :
    Unpolled (core.mapUps fun ups =>
      Apcupsd.prepDevice hostname (Apcupsd.applyUpdates updates ups)) := by
  refine hcore.mapUps ?_
  change (Apcupsd.applyUpdates updates core.ups).modeType = core.ups.modeType
  exact congrArg UpsConfig.modeType (applyUpdates_frame updates core.ups).config

theorem unpolled_openUps {env : DeviceEnv} (eventTime : Int) {device : Device}
    (hcore : Unpolled device.core) : Unpolled (openUps env eventTime device).core := by
  have hlost : Unpolled (device.core.mapUps UpsInfo.setCommlost) := hcore.mapUps rfl
  have hcleared : Unpolled (device.core.mapUps UpsInfo.clearCommlost) := hcore.mapUps rfl
  have hannounced : Unpolled
      (if eventTime = 0 then
        generateEvent env.pass (device.core.mapUps UpsInfo.setCommlost) .cmdCommfailure
      else device.core.mapUps UpsInfo.setCommlost) := by
    split
    · exact hlost.generateEvent
    · exact hlost
  have hrestored : Unpolled
      (if device.core.ups.isCommlost then
        let cleared := device.core.mapUps UpsInfo.clearCommlost
        if eventTime ≠ 0 then generateEvent env.pass cleared .cmdCommok else cleared
      else device.core) := by
    dsimp only
    split_ifs
    · exact hcleared.generateEvent
    · exact hcleared
    · exact hcore
  unfold openUps
  dsimp only at hrestored ⊢
  generalize (if eventTime = 0 then generateEvent _ _ _ else _) = announced at hannounced ⊢
  generalize (if eventTime = 0 then env.time else eventTime) = since
  generalize (if device.core.ups.isCommlost then _ else device.core) = restored
    at hrestored ⊢
  generalize getCapabilities env.port device.driver restored.ups.upsCap 0 = probed
  rcases probed with ⟨cap, driver, call⟩
  dsimp only
  generalize readStaticData env.port driver cap 3 call = items
  split_ifs
  · have hcapable : Unpolled (restored.mapUps fun ups => { ups with upsCap := cap }) :=
      hrestored.mapUps rfl
    exact hcapable.prepDevice env.hostname (storeItems items)
  · exact hannounced.logEvent
  · exact hannounced
  · exact hlost

theorem unpolled_fillUps {env : DeviceEnv} {device : Device} (hcore : Unpolled device.core) :
    Unpolled (fillUps env device).core := by
  unfold fillUps
  dsimp only
  split
  · exact hcore.logEvent.applyUpdates _
  · exact hcore.applyUpdates _

theorem unpolled_checkStateRound {env : DeviceEnv} {device : Device}
    (hcore : Unpolled device.core) : Unpolled (checkStateRound env device).core := by
  unfold checkStateRound
  split
  · rename_i ci value _
    have hpolled : Unpolled (device.core.mapUps (applyCi ci value)) :=
      hcore.applyUpdates [ciUpdate ci value]
    have hcleared : Unpolled
        ((device.core.mapUps (applyCi ci value)).mapUps UpsInfo.clearCommlost) :=
      hpolled.mapUps rfl
    dsimp only
    split
    · exact hcleared.generateEvent
    · exact hpolled
  · have hlost : Unpolled (device.core.mapUps UpsInfo.setCommlost) := hcore.mapUps rfl
    unfold pollFailed
    dsimp only
    split_ifs
    · exact hcore.logEvent
    · exact hcore
    · have hannounced : Unpolled (generateEvent env.pass
          (device.core.mapUps UpsInfo.setCommlost) .cmdCommfailure) := hlost.generateEvent
      exact hannounced
    · exact hcore

/-- Every step keeps the mode and polls nothing in a pass. -/
theorem unpolled_threadStep {env : DeviceEnv} {device : Device} (hcore : Unpolled device.core) :
    Unpolled (threadStep env device).core := by
  have hwaited : Unpolled (device.core.mapUps setWaitTime) := hcore.mapUps rfl
  unfold threadStep
  split
  · exact unpolled_openUps _ hcore
  · exact unpolled_fillUps hcore
  · split
    · exact hcore
    · exact hwaited.doAction
  · exact unpolled_fillUps hcore
  · have hacted : Unpolled (takeAction env device) := hcore.doAction
    dsimp only
    split
    · exact hacted
    · exact hacted.mapUps rfl
  · split
    · exact hcore
    · exact unpolled_checkStateRound hcore
  · exact hcore

/-! ## Passes -/

/-- The driver calls of a pass lock and do not read. -/
theorem inside_effects {env : DeviceEnv} {driver : ModbusUpsDriver} {cap : Ci → Bool}
    {acted : Core} (hacted : Unpolled acted) :
    Inside (acted.log.flatMap (effectTrace env driver cap)) := by
  refine Inside.flatMap fun effect heffect => ?_
  cases effect with
  | entryPoint cmd => exact inside_entryPointTrace driver cap cmd
  | readVolatileData => exact absurd heffect hacted.log
  | logEvent _ _ | executeCommand _ | deleteLockfile | makePwrfailFile | logonfail _
  | killPower | driverWrite _ | clearFiles | sendsigTerminate | errorAbort => exact .nil

/-- A pass from which the process does not exit releases the lock as often as it takes
it, and reads nothing. -/
theorem inside_doActionTrace {env : DeviceEnv} {device : Device} (hcore : Unpolled device.core)
    (hexited : (takeAction env device).exited = false) : Inside (doActionTrace env device) := by
  have hacted : Unpolled (takeAction env device) := hcore.doAction
  unfold doActionTrace
  dsimp only
  rw [hexited]
  exact (inside_effects hacted).enclosed

/-- A pass reads nothing. -/
theorem actions_doActionTrace {env : DeviceEnv} {device : Device}
    (hcore : Unpolled device.core) : actions (doActionTrace env device) = [] := by
  have hacted : Unpolled (takeAction env device) := hcore.doAction
  cases hexited : (takeAction env device).exited with
  | false => exact (inside_doActionTrace hcore hexited).silent
  | true =>
      unfold doActionTrace
      dsimp only
      rw [hexited, if_pos rfl, List.append_nil]
      exact (inside_effects hacted).silent

theorem inside_reportsTrace (reports : ℕ) : Inside (reportsTrace reports) :=
  Inside.flatMap fun _ _ => inside_lockSection

/-! ## Runs -/

/-- What a step adds: its reads happen with the lock free, and it leaves the lock free
unless the process exits. -/
structure StepOutside (trace : DeviceTrace) (next : DevicePoint) : Prop where
  unlocked : ActsUnlocked trace
  closed : next ≠ .stopped → Outside trace

theorem StepOutside.of_outside {trace : DeviceTrace} {next : DevicePoint}
    (htrace : Outside trace) : StepOutside trace next :=
  ⟨htrace.unlocked, fun _ => htrace⟩

theorem stepOutside_pollTrace (env : DeviceEnv) (device : Device) (next : DevicePoint) :
    StepOutside (pollTrace env device) next := by
  refine .of_outside ?_
  unfold pollTrace
  split
  · split
    · exact outside_updateCiTrace _ true 0
    · exact .nil
  · exact .nil

/-- One step. -/
theorem threadTrace_outside (reports : ℕ) {env : DeviceEnv} {device : Device}
    (hcore : Unpolled device.core) :
    StepOutside (threadTrace reports env device) (threadStep env device).point := by
  rcases device with ⟨core, driver, point⟩
  cases point with
  | openUps eventTime =>
      refine .of_outside ?_
      change Outside (openUpsTrace env _)
      unfold openUpsTrace
      split
      · exact (outside_readCalls 0 _).append (outside_readStaticTrace 3 _)
      · exact .nil
  | firstFill => exact .of_outside (outside_readVolatileTrace env.time)
  | fillUps => exact .of_outside (outside_readVolatileTrace env.time)
  | loopTop =>
      have hwaited : Unpolled (core.mapUps setWaitTime) := hcore.mapUps rfl
      unfold threadTrace threadStep
      dsimp only
      split
      · exact .of_outside .nil
      · refine ⟨.of_actions_eq_nil (actions_doActionTrace hwaited), fun hnext => ?_⟩
        refine (inside_doActionTrace hwaited ?_).outside
        exact Bool.eq_false_iff.mpr fun hexited => hnext (if_pos hexited)
  | secondAction =>
      unfold threadTrace threadStep
      dsimp only
      split
      · rw [List.append_nil]
        exact ⟨.of_actions_eq_nil (actions_doActionTrace hcore), fun hnext => absurd rfl hnext⟩
      · rename_i hexited
        have hinside := inside_doActionTrace hcore (Bool.eq_false_iff.mpr hexited)
        exact .of_outside (hinside.append (inside_reportsTrace reports)).outside
  | checkState exittime =>
      unfold threadTrace
      dsimp only
      split
      · exact .of_outside .nil
      · exact stepOutside_pollTrace env _ _
  | stopped => exact .of_outside .nil

namespace LockedRun

theorem unpolled (run : LockedRun) (n : ℕ) : Unpolled (run.device n).core := by
  induction n with
  | zero =>
      refine ⟨fun hdumb => ?_, List.not_mem_nil⟩
      have hmode : run.config.modeType = .dumbUps := hdumb
      rw [run.modbus] at hmode
      cases hmode
  | succ n ih =>
      have hcleared : Unpolled (run.device n).clearLog.core := ⟨ih.mode, List.not_mem_nil⟩
      exact unpolled_threadStep hcleared

/-- Before every step of a thread that has not stopped the lock is free, and all reads
have found it free. -/
theorem trace_outside (run : LockedRun) (n : ℕ) :
    StepOutside (run.trace n) (run.device n).point := by
  induction n with
  | zero => exact .of_outside .nil
  | succ n ih =>
      have hcleared : Unpolled (run.device n).clearLog.core :=
        ⟨(run.unpolled n).mode, List.not_mem_nil⟩
      have hstep := @threadTrace_outside (run.reports n) (run.env n) _ hcleared
      by_cases hstopped : (run.device n).point = .stopped
      · have hnone : threadTrace (run.reports n) (run.env n) (run.device n).clearLog = [] := by
          unfold threadTrace
          rw [show (run.device n).clearLog.point = .stopped from hstopped]
        have hstays : (run.device (n + 1)).point = .stopped := by
          change (threadStep (run.env n) (run.device n).clearLog).point = .stopped
          unfold threadStep
          rw [show (run.device n).clearLog.point = .stopped from hstopped]
          exact hstopped
        unfold trace
        rw [hnone, List.append_nil]
        exact ⟨ih.unlocked, fun hnext => absurd hstays hnext⟩
      · have hbefore := ih.closed hstopped
        refine ⟨hbefore.actsUnlocked_append hstep.unlocked, fun hnext => ?_⟩
        exact hbefore.append (hstep.closed hnext)

/-- In every run, whatever the UPS answers, the lock is free at every call of
{lit}`ReadRegister`. -/
theorem reads_unlocked (run : LockedRun) (n : ℕ) : ActsUnlocked (run.trace n) :=
  (run.trace_outside n).unlocked

/-! ## Examples of runs -/

/-- A UPS on mains that goes on battery during step 5, with answers to all reads. -/
def outage : LockedRun where
  config := { defaultConfig 0 with modeType := .modbusUps }
  modbus := modeType_modbusDefault
  env := fun n =>
    { port := fun _ addr nregs =>
        some (registerBytes (fun reg => if reg = 1 then (if n < 5 then 2 else 4) else 0)
          addr nregs)
      opens := true
      time := n
      tod := 0
      shutdownRequested := false
      hostname := []
      pass := { PassEnv.quiet with now := n } }
  killOnPowerfail := false
  terminateOnPowerfail := false
  reports := fun _ => 1

/-- The poll of step 5 reads the status, and the pass of step 6 checks for a self test:
its lock is taken twenty more times, and nothing is read. -/
example :
    threadTrace 1 (outage.env 5) (outage.device 5).clearLog = .act 0 :: lockSection ∧
      threadTrace 1 (outage.env 6) (outage.device 6).clearLog =
        .acquire :: ((List.replicate 20 lockSection).flatten ++ [.release]) := by
  decide +kernel

end LockedRun

end Apcupsd
