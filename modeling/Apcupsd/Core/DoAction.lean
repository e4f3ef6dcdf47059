import Apcupsd.Core.Events

/-!
# One pass of the core

{lit}`get_state` and {lit}`do_action` from {lit}`src/action.c`, one definition for
each block of the C function: the first-call initialisation, the replace-battery
reminder, the remote shutdown return, the battery edges, the state selection,
one block for each state, and the tail that remembers the status.

Main results:

- Definition {lit}`getState`: the state as a function of the record.
- Definition {lit}`doAction`: one pass, from the clock reading to the remembered
  status.
-/

namespace Apcupsd

open Apcupsd.Core

/-- The states that the UPS can be in. -/
inductive AState where
  | stPowerFailure | stSelfTest | stOnBattery | stMainsBack | stOnMains
  | stCalibration
deriving DecidableEq, Repr

/-- {lit}`get_state`. -/
def getState (ups : UpsInfo) : AState :=
  if ups.isOnbatt then
    if ups.isCalibration then .stCalibration
    else if ups.chgOnbatt then .stPowerFailure
    else if ups.selfTest ≠ 0 then .stSelfTest
    else .stOnBattery
  else
    if ups.chgOnbatt then .stMainsBack else .stOnMains

/-- {lit}`testresult_to_string`. -/
def testresultToString : SelfTestResult → String
  | .testNa => "Not supported"
  | .testNone => "No test results available"
  | .testFailed => "Test failed"
  | .testWarning => "Warning"
  | .testInprogress => "In progress"
  | .testPassed => "Battery OK"
  | .testFailcap => "Test failed -- insufficient battery capacity"
  | .testFailload => "Test failed -- battery overloaded"
  | .testUnknown => "Unknown"

/-! ## Before the state is chosen -/

/-- The first call sets the timers and makes every flag but
{lit}`battpresent` look newly raised. -/
def firstCall (env : PassEnv) (core : Core) : Core :=
  if core.first then
    { core with
      first := false
      ups := { core.ups with
        lastTimeNologon := env.now
        lastTimeAnnoy := env.now
        lastTimeOnLine := env.now
        prevStatus := upsBattpresent } }
  else core

/-- Complain about a battery to be replaced every nine hours, at most five times
before the flag is cleared. -/
def replaceBattery (env : PassEnv) (core : Core) : Core :=
  if core.ups.isReplacebatt then
    if env.now - core.ups.startTime < 60 * 10 ∨ core.ups.changeBattCounter > 5 then
      core.mapUps fun ups => { ups.clearReplacebatt with changeBattCounter := 0 }
    else if env.now - core.ups.lastTimeChangeme > 60 * 60 * 9 then
      (generateEvent env core .cmdChangeme).mapUps fun ups =>
        { ups with
          lastTimeChangeme := env.now
          changeBattCounter := ups.changeBattCounter + 1 }
    else core
  else core

/-- {lit}`ups->PrevStatus = ups->Status`. -/
def rememberStatus (core : Core) : Core :=
  core.mapUps fun ups => { ups with prevStatus := ups.status }

/-- Remote is shutting down, so must we: the early return of the pass. -/
def remoteShutdown (env : PassEnv) (core : Core) : Core :=
  let announced :=
    if core.ups.chgShutRemote then generateEvent env core .cmdRemotedown else core
  announced.andThen rememberStatus

/-- Generate an event if the battery is disconnected or reattached. -/
def batteryAttach (env : PassEnv) (core : Core) : Core :=
  if core.ups.chgBattpresent then
    if core.ups.isBattpresent then generateEvent env core .cmdBattattach
    else generateEvent env core .cmdBattdetach
  else core

/-- Start the low-battery timer when the flag went high. -/
def batteryLowTimer (env : PassEnv) (core : Core) : Core :=
  if core.ups.chgBattlow && core.ups.isBattlow then
    core.mapUps fun ups => { ups with startShutLbatt := env.now }
  else core

/-! ## One block for each state -/

/-- If power is good, update the timers. -/
def doOnMains (env : PassEnv) (core : Core) : Core :=
  core.mapUps fun ups =>
    { ups with
      lastTimeNologon := env.now
      lastTimeAnnoy := env.now
      lastTimeOnLine := env.now }.clearFastpoll

/-- The first indication of a power problem. -/
def doPowerFailure (env : PassEnv) (core : Core) : Core :=
  let checked := deviceEntryPoint env (core.mapUps UpsInfo.setFastpoll) .checkSelftest
  let announced :=
    if checked.ups.selfTest ≠ 0 then generateEvent env checked .cmdStartselftest
    else generateEvent env checked .cmdPowerout
  let stamped := announced.mapUps fun ups =>
    { ups with
      lastTimeNologon := env.now
      lastTimeAnnoy := env.now
      lastTimeOnLine := env.now
      lastOnbattTime := env.now
      numXfers := ups.numXfers + 1 }
  deviceEntryPoint env stamped .dtrEnable

/-- The second test has verified that the power is failing. -/
def announceOnBattery (env : PassEnv) (core : Core) : Core :=
  (generateEvent env (core.mapUps UpsInfo.setOnbattMsg) .cmdOnbattery).mapUps fun ups =>
    { ups with
      lastTimeNologon := env.now
      lastTimeAnnoy := env.now
      lastTimeOnLine := env.now }

/-- Shutdown requested but still running. -/
def shutdownRunning (env : PassEnv) (core : Core) : Core :=
  if core.ups.killdelay ≠ 0 ∧ env.now - core.ups.shutDown ≥ core.ups.killdelay then
    let hibernated := if core.ups.isSlave then core else initiateHibernate env core
    hibernated.andThen fun core =>
      core.mapUps fun ups => { ups with shutDown := env.now }.setShutdown
  else core

/-- {lit}`ups->UPS_Cap[CI_BATTLEV] && ups->BattChg <= ups->percent`. -/
def UpsInfo.loadLimitReached (ups : UpsInfo) : Bool :=
  ups.upsCap .battlev && ups.battChg.leInt ups.percent

/-- {lit}`ups->UPS_Cap[CI_RUNTIM] && ups->TimeLeft <= ups->runtime`. -/
def UpsInfo.runtimeLimitReached (ups : UpsInfo) : Bool :=
  ups.upsCap .runtim && ups.timeLeft.leInt ups.runtime

/-- Start or cancel the load-limit timer. -/
def loadLimitTimer (env : PassEnv) (ups : UpsInfo) : UpsInfo :=
  if ups.loadLimitReached then
    if ups.isShutLoad then ups
    else { ups.setShutLoad with startShutLoad := env.now }
  else ups.clearShutLoad

/-- Start or cancel the runtime-limit timer. -/
def runtimeLimitTimer (env : PassEnv) (ups : UpsInfo) : UpsInfo :=
  if ups.runtimeLimitReached then
    if ups.isShutLtime then ups
    else { ups.setShutLtime with startShutLtime := env.now }
  else ups.clearShutLtime

/-- Announce the logoff, with initial delay. -/
def annoyUsers (env : PassEnv) (core : Core) : Core :=
  if env.now - core.ups.lastTimeOnLine > core.ups.annoydelay ∧
      env.now - core.ups.lastTimeAnnoy > core.ups.annoy ∧ core.ups.nologinFile then
    let asked :=
      if core.requestedLogoff then executeCommand env core .cmdAnnoyme
      else generateEvent env core .cmdAnnoyme
    { asked.mapUps (fun ups => { ups with lastTimeAnnoy := env.annoyTime }) with
      requestedLogoff := true }
  else core

/-- {lit}`i >= d` for an int and a double. -/
def geDouble (i : Int) (d : CDouble) : Bool :=
  d.leInt i

/-- Delay the ban on logins. -/
def delayNologon (env : PassEnv) (core : Core) : Core :=
  if core.ups.nologinFile then core
  else
    match core.ups.nologinType with
    | .never => core
    | .timeout =>
        if env.now - core.ups.lastTimeNologon > core.ups.nologinTime then
          prohibitLogins core
        else core
    | .percent =>
        if core.ups.upsCap .battlev && geDouble core.ups.nologinTime core.ups.battChg then
          prohibitLogins core
        else core
    | .minutes =>
        if core.ups.upsCap .runtim && geDouble core.ups.nologinTime core.ups.timeLeft then
          prohibitLogins core
        else core
    | .always | .noLogon => prohibitLogins core

/-- The battery is low but the UPS claims to be on line: the battery has failed. -/
def emergency (env : PassEnv) (core : Core) : Core :=
  if core.ups.isBattlow && core.ups.isOnline then
    generateEvent env (core.mapUps UpsInfo.setShutEmerg) .cmdEmergency
  else core

/-- Check for expired shutdown timers and act on them. -/
def expiredTimers (env : PassEnv) (core : Core) : Core :=
  if core.ups.isBattlow ∧ env.now - core.ups.startShutLbatt ≥ 5 then
    generateEvent env core .cmdFailing
  else if core.ups.isShutLoad ∧ env.now - core.ups.startShutLoad ≥ 5 then
    generateEvent env core .cmdLoadlimit
  else if core.ups.isShutLtime ∧ env.now - core.ups.startShutLtime ≥ 5 then
    generateEvent env core .cmdRunlimit
  else
    ((emergency env core).andThen (annoyUsers env)).andThen (delayNologon env)

/-- The part of {lit}`st_OnBattery` that evaluates the battery conditions. -/
def evaluateBattery (env : PassEnv) (core : Core) : Core :=
  if core.ups.maxtime > 0 ∧ env.now - core.ups.lastTimeOnLine > core.ups.maxtime then
    generateEvent env (core.mapUps UpsInfo.setShutBtime) .cmdTimeout
  else
    expiredTimers env
      (core.mapUps fun ups => runtimeLimitTimer env (loadLimitTimer env ups))

/-- The test of the announcement: not announced yet, and the delay is over. -/
def announceDue (env : PassEnv) (ups : UpsInfo) : Bool :=
  !ups.isOnbattMsg && decide (env.announceTime - ups.lastTimeOnLine ≥ ups.onbattdelay)

def doOnBattery (env : PassEnv) (core : Core) : Core :=
  if announceDue env core.ups then announceOnBattery env core
  else if core.ups.isShutdown then shutdownRunning env core
  else evaluateBattery env core

/-- The self test may still run: at most 40 seconds, and only while the battery
is not low. -/
def selfTestRunning (env : PassEnv) (ups : UpsInfo) : Bool :=
  decide (env.now - ups.selfTest < 40) && !ups.isBattlow

/-- {lit}`st_SelfTest`: a cancelled self test falls through to
{lit}`st_OnBattery`. -/
def doSelfTest (env : PassEnv) (core : Core) : Core :=
  if selfTestRunning env core.ups then core
  else doOnBattery env (core.mapUps fun ups => { ups with selfTest := 0 })

/-- End of a self test: remember it and report its result. -/
def endSelfTest (env : PassEnv) (core : Core) : Core :=
  let stored := core.mapUps fun ups =>
    { ups with lastSelfTest := ups.selfTest, selfTest := 0 }
  let asked := deviceEntryPoint env stored .getSelftestMsg
  let reported := logEvent asked .logAlert
    ("UPS Self Test completed: " ++ testresultToString asked.ups.testresult)
  executeCommand env reported .cmdEndselftest

/-- Account for the completed time on battery.  Sometimes only the first power
problem trips, and then the start of the outage is taken to be its end. -/
def closeOutage (env : PassEnv) (ups : UpsInfo) : UpsInfo :=
  let onbattTime := if ups.lastOnbattTime ≤ 0 then env.now else ups.lastOnbattTime
  { ups with
    lastOffbattTime := env.now
    lastOnbattTime := onbattTime
    cumTimeOnBatt := ups.cumTimeOnBatt + (env.now - onbattTime) }

/-- The power is back after a power failure or a self test. -/
def doMainsBack (env : PassEnv) (core : Core) : Core :=
  let withdrawn :=
    if core.ups.isOnbattMsg then
      generateEvent env (core.mapUps UpsInfo.clearOnbattMsg) .cmdOffbattery
    else core
  let ended :=
    if withdrawn.ups.selfTest ≠ 0 then endSelfTest env withdrawn
    else generateEvent env withdrawn .cmdMainsback
  let allowed :=
    if ended.ups.nologinFile then logEvent ended .logAlert "Allowing logins" else ended
  let opened :=
    { (logonfail allowed true).mapUps (fun ups => { ups with nologinFile := false }) with
      requestedLogoff := false }
  (deviceEntryPoint env opened .dtrStDisable).mapUps (closeOutage env)

/-! ## The pass -/

def doState (env : PassEnv) (state : AState) (core : Core) : Core :=
  match state with
  | .stOnMains => doOnMains env core
  | .stPowerFailure => doPowerFailure env core
  | .stSelfTest => doSelfTest env core
  | .stOnBattery => doOnBattery env core
  | .stMainsBack => doMainsBack env core
  | .stCalibration => core

/-- The non-blocking wait on children. -/
def reapChildren (env : PassEnv) (core : Core) : Core :=
  if core.ups.numExecedChildren > 0 then
    core.mapUps fun ups =>
      { ups with numExecedChildren := ups.numExecedChildren - env.reaped }
  else core

/-- The statements of a pass before the test for a remote shutdown. -/
def passHead (env : PassEnv) (core : Core) : Core :=
  replaceBattery env (firstCall env core)

/-- The battery edges of a pass that is not a remote shutdown. -/
def batteryEdges (env : PassEnv) (core : Core) : Core :=
  batteryLowTimer env (batteryAttach env core)

/-- {lit}`do_action`: one call with the clock and the driver of {lit}`env`. -/
def doAction (env : PassEnv) (core : Core) : Core :=
  let head := passHead env core
  if head.ups.isShutRemote then remoteShutdown env head
  else
    let ready := batteryEdges env head
    (doState env (getState ready.ups) ready).andThen fun done =>
      rememberStatus (reapChildren env done)

end Apcupsd
