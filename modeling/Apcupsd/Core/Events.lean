import Apcupsd.Core.UpsInfo

/-!
# Events and the shutdown action

The event half of {lit}`src/action.c`: the command and message tables,
{lit}`generate_event`, and {lit}`do_shutdown` with everything it calls
({lit}`initiate_hibernate` from {lit}`src/device.c` included).  Every call that
leaves the process is recorded, in order, in the log of the pass.

Main results:

- Definition {lit}`generateEvent`: one event, with the shutdown action that the six
  shutdown causes bring with them.
- Definition {lit}`doShutdown`: the shutdown action, once per process.
-/

namespace Apcupsd

/-! ## Tables -/

/-- The commands understood by the apccontrol script. -/
inductive Command where
  | cmdPowerout | cmdOnbattery | cmdFailing | cmdTimeout | cmdLoadlimit
  | cmdRunlimit | cmdDoshutdown | cmdMainsback | cmdAnnoyme | cmdEmergency
  | cmdChangeme | cmdRemotedown | cmdCommfailure | cmdCommok | cmdStartselftest
  | cmdEndselftest | cmdOffbattery | cmdBattdetach | cmdBattattach
deriving DecidableEq, Repr

/-- The syslog levels the core uses. -/
inductive LogLevel where
  | logAlert | logCrit | logErr | logWarning | logNotice
deriving DecidableEq, Repr

/-- The {lit}`event_msg` table. -/
def eventMsg : Command → LogLevel × String
  | .cmdPowerout => (.logCrit, "Power failure.")
  | .cmdOnbattery => (.logCrit, "Running on UPS batteries.")
  | .cmdFailing => (.logAlert, "Battery power exhausted.")
  | .cmdTimeout => (.logAlert, "Reached run time limit on batteries.")
  | .cmdLoadlimit => (.logAlert, "Battery charge below low limit.")
  | .cmdRunlimit =>
      (.logAlert, "Reached remaining time percentage limit on batteries.")
  | .cmdDoshutdown => (.logAlert, "Initiating system shutdown!")
  | .cmdMainsback => (.logAlert, "Power is back. UPS running on mains.")
  | .cmdAnnoyme => (.logAlert, "Users requested to logoff.")
  | .cmdEmergency => (.logAlert, "Battery failure. Emergency.")
  | .cmdChangeme => (.logCrit, "UPS battery must be replaced.")
  | .cmdRemotedown => (.logCrit, "Remote shutdown requested.")
  | .cmdCommfailure => (.logWarning, "Communications with UPS lost.")
  | .cmdCommok => (.logWarning, "Communications with UPS restored.")
  | .cmdStartselftest => (.logWarning, "UPS Self Test switch to battery.")
  | .cmdEndselftest => (.logWarning, "UPS Self Test completed.")
  | .cmdOffbattery => (.logCrit, "Mains returned. No longer on UPS batteries.")
  | .cmdBattdetach => (.logCrit, "Battery disconnected.")
  | .cmdBattattach => (.logCrit, "Battery reattached.")

/-- The {lit}`device_entry_point` commands that the core issues. -/
inductive DeviceCmd where
  | dtrEnable | dtrStDisable | getSelftestMsg | checkSelftest
deriving DecidableEq, Repr

/-! ## Effects and the state of the core -/

/-- What a pass does outside the record, in order.  A logged message keeps the
conversions of its format that depend on the host (paths, error numbers). -/
inductive Effect where
  | logEvent (level : LogLevel) (msg : String)
  | executeCommand (cmd : Command)
  | entryPoint (cmd : DeviceCmd)
  | deleteLockfile
  | makePwrfailFile
  | logonfail (ok : Bool)
  | readVolatileData
  | killPower
  | driverWrite (status : StatusWord)
  | clearFiles
  | sendsigTerminate
  | errorAbort
deriving DecidableEq, Repr

/-- The record together with the statics of {lit}`action.c`, the two
command-line options it reads, and the log of the pass.  {lit}`exited` holds
once the process has left the pass through {lit}`exit`. -/
structure Core where
  ups : UpsInfo
  requestedLogoff : Bool
  first : Bool
  killOnPowerfail : Bool
  terminateOnPowerfail : Bool
  exited : Bool
  log : List Effect

/-- What the surroundings decide during one call of {lit}`do_action`: the clock
readings, in the order in which they can be taken, what the driver writes to the
record in each driver call, and the outcome of the system calls. -/
structure PassEnv where
  now : Int
  announceTime : Int
  shutdownTime : Int
  annoyTime : Int
  checkSelftest : List DriverUpdate
  dtrEnable : List DriverUpdate
  getSelftestMsg : List DriverUpdate
  dtrStDisable : List DriverUpdate
  readVolatileData : List DriverUpdate
  killPower : List DriverUpdate
  pwrfailMissing : Bool
  forkFails : Command → Bool
  reapedAtOnce : Command → ℕ
  reaped : Int

namespace Core

/-- Append one effect to the log. -/
def emit (core : Core) (effect : Effect) : Core :=
  { core with log := core.log ++ [effect] }

/-- Run the next statement unless the process has exited. -/
def andThen (core : Core) (next : Core → Core) : Core :=
  if core.exited then core else next core

/-- Change the record only. -/
def mapUps (core : Core) (change : UpsInfo → UpsInfo) : Core :=
  { core with ups := change core.ups }

/-- A driver call inside the pass: each update is atomic, and the status word it
leaves is recorded. -/
def driverCall (core : Core) (updates : List DriverUpdate) : Core :=
  updates.foldl
    (fun core update =>
      { core with
        ups := update.apply core.ups
        log := core.log ++ [.driverWrite (update.apply core.ups).status] })
    core

/-- The commands that the log shows as executed. -/
def executed (core : Core) (cmd : Command) : Prop :=
  Effect.executeCommand cmd ∈ core.log

instance (core : Core) (cmd : Command) : Decidable (core.executed cmd) :=
  inferInstanceAs (Decidable (_ ∈ core.log))

end Core

open Apcupsd.Core

/-! ## Calls out of the core -/

def logEvent (core : Core) (level : LogLevel) (msg : String) : Core :=
  core.emit (.logEvent level msg)

/-- {lit}`execute_command`: the table entries are passed by value, so the pid that
would suppress a second run of the same script is never recorded.  The child is counted, and
children that have ended are waited for, no more than are counted. -/
def executeCommand (env : PassEnv) (core : Core) (cmd : Command) : Core :=
  let called := core.emit (.executeCommand cmd)
  if env.forkFails cmd then
    logEvent called .logWarning "execute: cannot fork(). ERR=%s"
  else
    called.mapUps fun ups =>
      let started := if ups.numExecedChildren < 0 then 1 else ups.numExecedChildren + 1
      { ups with numExecedChildren := max 0 (started - env.reapedAtOnce cmd) }

/-- {lit}`device_entry_point`: the driver may update the record in the middle of
the pass. -/
def deviceEntryPoint (env : PassEnv) (core : Core) (cmd : DeviceCmd) : Core :=
  let updates := match cmd with
    | .checkSelftest => env.checkSelftest
    | .dtrEnable => env.dtrEnable
    | .getSelftestMsg => env.getSelftestMsg
    | .dtrStDisable => env.dtrStDisable
  (core.emit (.entryPoint cmd)).driverCall updates

/-- The poll of a dumb UPS at the start of {lit}`initiate_hibernate`. -/
def pollDumbUps (env : PassEnv) (core : Core) : Core :=
  if core.ups.modeType = .dumbUps then
    (((core.emit .readVolatileData).emit .readVolatileData).emit
      .readVolatileData).driverCall env.readVolatileData
  else core

/-- {lit}`initiate_hibernate`. -/
def initiateHibernate (env : PassEnv) (core : Core) : Core :=
  let polled := pollDumbUps env core
  if (env.pwrfailMissing && decide (polled.ups.modeType ≠ .dumbUps)) ||
      (env.pwrfailMissing && polled.ups.isOnbatt &&
        decide (polled.ups.modeType = .dumbUps)) then
    let complained := logEvent polled .logWarning
      "Cannot find %s file.\n Killpower requested in non-power fail condition or bug.\n Killpower request ignored at %s:%d\n"
    { complained.emit .errorAbort with exited := true }
  else
    let waited :=
      if polled.ups.upsclassType = .sharemaster then
        logEvent polled .logWarning "Waiting 30 seconds for slave(s) to shutdown."
      else polled
    let attempted := logEvent waited .logWarning "Attempting to kill the UPS power!"
    if attempted.ups.upsclassType = .shareslave then
      logEvent
        (logEvent
          (logEvent attempted .logWarning "Waiting For ShareUPS Master to shutdown")
          .logWarning "Failed to have power killed by Master!")
        .logWarning "Perform CPU-reset or power-off"
    else
      (attempted.emit .killPower).driverCall env.killPower

/-! ## Shutdown -/

/-- {lit}`powerfail`; {lit}`sendsig_terminate` signals the process and exits. -/
def powerfail (core : Core) (ok : Nat) : Core :=
  let cleared := if ok = 2 then core.emit .clearFiles else core
  if (ok = 2 ∧ cleared.terminateOnPowerfail) ∨ ok = 3 then
    { cleared.emit .sendsigTerminate with exited := true }
  else cleared

/-- {lit}`logonfail`: with {lit}`ok` false the nologin file is made, else removed. -/
def logonfail (core : Core) (ok : Bool) : Core :=
  core.emit (.logonfail ok)

def prohibitLogins (core : Core) : Core :=
  if core.ups.nologinFile then core
  else
    logEvent ((logonfail core false).mapUps fun ups => { ups with nologinFile := true })
      .logAlert "User logins prohibited"

/-- The part of {lit}`do_shutdown` before the shutdown script: once per process. -/
def prepareShutdown (env : PassEnv) (core : Core) : Core :=
  let marked := core.mapUps fun ups =>
    { ups with shutDown := env.shutdownTime }.setShutdown
  let unlocked := (marked.emit .deleteLockfile).mapUps UpsInfo.setFastpoll
  let prohibited := prohibitLogins (unlocked.emit .makePwrfailFile)
  if !prohibited.ups.isSlave && prohibited.killOnPowerfail then
    initiateHibernate env prohibited
  else prohibited

def doShutdown (env : PassEnv) (core : Core) (cmdtype : Command) : Core :=
  if core.ups.isShutdown then core
  else
    (prepareShutdown env core).andThen fun prepared =>
      powerfail (executeCommand env prepared cmdtype)
        (if cmdtype = .cmdRemotedown then 3 else 2)

/-- The six events that {lit}`generate_event` answers with a shutdown. -/
def Command.isShutdownCause : Command → Bool
  | .cmdFailing | .cmdTimeout | .cmdRunlimit | .cmdLoadlimit | .cmdEmergency
  | .cmdRemotedown => true
  | _ => false

def generateEvent (env : PassEnv) (core : Core) (event : Command) : Core :=
  let announced := executeCommand env
    (logEvent core (eventMsg event).1 (eventMsg event).2) event
  if event.isShutdownCause then
    doShutdown env
      (logEvent announced (eventMsg .cmdDoshutdown).1 (eventMsg .cmdDoshutdown).2)
      .cmdDoshutdown
  else announced

end Apcupsd
