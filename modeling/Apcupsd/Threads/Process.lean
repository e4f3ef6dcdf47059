import Mathlib.Data.Nat.Notation
import Apcupsd.Foundations.Execution

/-!
# The threads of the daemon

The main thread runs {lit}`main` and {lit}`do_device`; the signal thread started by
{lit}`init_signals` waits for one termination signal and runs
{lit}`apcupsd_terminate`.  They share the two flags {lit}`shutdown_requested` and
{lit}`device_thread_stopped` and the driver.

A state of the process holds the program point of both threads.  A call into the
driver is an interval: it is entered by one step and left by a later one, so that
the other thread may move in between.  How often {lit}`do_action` calls the driver,
when a call returns and when it aborts is left to the labels of the run.  The
status server calls neither the driver nor the teardown and is left out.
-/

namespace Apcupsd

/-! ## Program points -/

/-- The two threads that can reach the teardown of the process. -/
inductive ThreadId where
  | main
  | signal
  deriving DecidableEq, Repr

/-- The routines of the driver that the core calls. -/
inductive DriverCall where
  | open
  | setup
  | getCapabilities
  | readStaticData
  | readVolatileData
  | entryPoint
  | checkState
  | killPower
  | shutdown
  deriving DecidableEq, Repr

/-- What the command line asks for in place of the daemon: {lit}`hibernate_ups` or
{lit}`shutdown_ups`. -/
inductive OneShot where
  | hibernate
  | shutdown
  deriving DecidableEq, Repr

/-- The statements that {lit}`apcupsd_terminate` and {lit}`apcupsd_error_cleanup`
share.  {lit}`closing` is inside the driver's {lit}`Close`. -/
inductive TeardownPoint where
  | closeDevice
  | closing
  | destroyUps
  | exit
  deriving DecidableEq, Repr

/-- The statements of {lit}`apcupsd_terminate`.  {lit}`expired` remembers whether the
bounded wait ended without the device thread having stopped. -/
inductive TerminatePoint where
  | request
  | test (waited : ℕ)
  | sleep (waited : ℕ)
  | teardown (expired : Bool) (point : TeardownPoint)
  deriving DecidableEq, Repr

/-- The statements of {lit}`main`, {lit}`open_ups` and {lit}`do_device`. -/
inductive MainPoint where
  -- main
  | configure
  | attachDriver
  | initSignals
  | createFiles
  -- setup_device, initiate_hibernate and initiate_shutdown of the one-shot run
  | setupOpen
  | setupSetup
  | setupCapabilities
  | setupFailed
  | hibernatePoll (killcount : ℕ)
  | hibernate
  | shutdown
  -- open_ups
  | openUps
  | retrySleep
  | openSetup
  | openCapabilities
  | prepDevice
  -- do_device
  | firstFill
  | clearStopped
  | checkRequested
  | setStopped
  | doAction (second : Bool)
  | fillUps
  | doReports
  | checkState
  | returned
  deriving DecidableEq, Repr

/-- Where the main thread stands: at a statement, inside a driver call made by a
statement, in one of the two teardown routines, or inside {lit}`exit`. -/
inductive MainPc where
  | running (point : MainPoint)
  | inCall (point : MainPoint) (call : DriverCall)
  | terminate (point : TerminatePoint)
  | cleanup (point : TeardownPoint)
  | exiting
  deriving DecidableEq, Repr

/-- Where the signal thread stands. -/
inductive SignalPc where
  | notStarted
  | sigwait
  | terminate (point : TerminatePoint)
  deriving DecidableEq, Repr

/-- How the next statement of the main thread comes out. -/
inductive Outcome where
  /-- The statement is executed and control goes on. -/
  | next
  /-- The statement calls the driver. -/
  | call (call : DriverCall)
  /-- The driver call returns. -/
  | return (ok : Bool)
  /-- {lit}`Error_abort`. -/
  | abort
  /-- {lit}`exit`, directly or at the end of {lit}`sendsig_terminate`. -/
  | exit
  deriving DecidableEq, Repr

/-- A move: {lit}`sigwait` returns with a termination signal, or one of the threads
executes its next statement. -/
inductive Label where
  | sigterm
  | main (outcome : Outcome)
  | signal
  deriving DecidableEq, Repr

/-! ## The state of the process -/

/-- The state shared by the threads and their program points.  {lit}`closes` and
{lit}`destroys` record which thread executed {lit}`device_close` and
{lit}`destroy_ups`, latest first. -/
structure Process where
  oneShot : Option OneShot
  dumb : Bool
  driver : Bool
  shutdownRequested : Bool
  deviceThreadStopped : Bool
  main : MainPc
  signal : SignalPc
  closes : List ThreadId
  destroys : List ThreadId
  exited : Bool
  deriving DecidableEq, Repr

/-- The process once {lit}`core_ups` is set, with the initial values of the flags. -/
def Process.start (oneShot : Option OneShot) (dumb : Bool) : Process where
  oneShot := oneShot
  dumb := dumb
  driver := false
  shutdownRequested := false
  deviceThreadStopped := true
  main := .running .configure
  signal := .notStarted
  closes := []
  destroys := []
  exited := false

/-! ## Teardown -/

/-- {lit}`SHUTDOWN_WAIT_MS`. -/
def shutdownWaitMs : ℕ := 30000

/-- {lit}`SHUTDOWN_POLL_MS`. -/
def shutdownPollMs : ℕ := 100

/-- The statements from {lit}`if (ups->driver) device_close(ups)` to the exit of the
process. -/
def teardownStep (self : ThreadId) (p : Process) : TeardownPoint → Process × TeardownPoint
  | .closeDevice =>
      if p.driver then ({ p with closes := self :: p.closes }, .closing)
      else (p, .destroyUps)
  | .closing => (p, .destroyUps)
  | .destroyUps => ({ p with destroys := self :: p.destroys }, .exit)
  | .exit => ({ p with exited := true }, .exit)

/-- {lit}`apcupsd_terminate`, one statement at a time. -/
def apcupsdTerminate (self : ThreadId) (p : Process) : TerminatePoint → Process × TerminatePoint
  | .request => ({ p with shutdownRequested := true }, .test 0)
  | .test waited =>
      if !p.deviceThreadStopped && waited < shutdownWaitMs then (p, .sleep waited)
      else (p, .teardown (!p.deviceThreadStopped) .closeDevice)
  | .sleep waited => (p, .test (waited + shutdownPollMs))
  | .teardown expired point =>
      let result := teardownStep self p point
      (result.1, .teardown expired result.2)

/-! ## The main thread -/

/-- The driver calls a statement makes. -/
def MainPoint.calls : MainPoint → DriverCall → Bool
  | .setupOpen, .open | .openUps, .open => true
  | .setupSetup, .setup | .openSetup, .setup => true
  | .setupCapabilities, .getCapabilities | .openCapabilities, .getCapabilities => true
  | .prepDevice, .readStaticData => true
  | .hibernatePoll _, .readVolatileData => true
  | .firstFill, .readVolatileData | .fillUps, .readVolatileData => true
  | .hibernate, .killPower => true
  | .shutdown, .shutdown => true
  -- entry_point, and initiate_hibernate with its polls
  | .doAction _, .entryPoint | .doAction _, .readVolatileData | .doAction _, .killPower => true
  | .checkState, .checkState => true
  | _, _ => false

/-- The statements that can end in {lit}`Error_abort` without calling the driver. -/
def MainPoint.aborts : MainPoint → Bool
  | .configure | .attachDriver | .createFiles | .setupFailed | .hibernate | .doAction _ => true
  | _ => false

/-- The statements that can call {lit}`exit`: option parsing, and the
{lit}`sendsig_terminate` of {lit}`powerfail`. -/
def MainPoint.exits : MainPoint → Bool
  | .configure | .doAction _ => true
  | _ => false

/-- The statement of the one-shot run after {lit}`setup_device`. -/
def Process.afterSetupDevice (p : Process) : MainPoint :=
  match p.oneShot with
  | some .hibernate => if p.dumb then .hibernatePoll 0 else .hibernate
  | _ => .shutdown

/-- Where the main thread goes on after a driver call. -/
def Process.afterCall (p : Process) (ok : Bool) : MainPoint → MainPoint
  | .setupOpen => if ok then .setupSetup else .setupFailed
  | .setupSetup => if ok then .setupCapabilities else .setupFailed
  | .setupCapabilities => if ok then p.afterSetupDevice else .setupFailed
  | .hibernatePoll killcount => if killcount + 1 < 3 then .hibernatePoll (killcount + 1) else .hibernate
  | .hibernate => .returned
  | .shutdown => .returned
  | .openUps => if ok then .openSetup else .retrySleep
  | .openSetup => .openCapabilities
  | .openCapabilities => .prepDevice
  | .prepDevice => .firstFill
  | .firstFill => .clearStopped
  | .fillUps => .doAction true
  | .checkState => .checkRequested
  | point => point

/-- The statements that do not call the driver. -/
def Process.mainNext (p : Process) : MainPoint → Option Process
  | .configure => some { p with main := .running .attachDriver }
  | .attachDriver => some { p with driver := true, main := .running .initSignals }
  | .initSignals => some { p with signal := .sigwait, main := .running .createFiles }
  | .createFiles =>
      some { p with main := .running (if p.oneShot.isSome then .setupOpen else .openUps) }
  -- a share slave leaves initiate_hibernate without killing the power
  | .hibernate => some { p with main := .running .returned }
  | .retrySleep => some { p with main := .running .openUps }
  | .clearStopped =>
      some { p with deviceThreadStopped := false, main := .running .checkRequested }
  | .checkRequested =>
      some { p with main := .running (if p.shutdownRequested then .setStopped else .doAction false) }
  | .setStopped => some { p with deviceThreadStopped := true, main := .running .returned }
  | .doAction second =>
      some { p with main := .running (if second then .doReports else .fillUps) }
  | .doReports => some { p with main := .running .checkState }
  | .returned => some { p with main := .terminate .request }
  | _ => none

/-- One step of the main thread. -/
def Process.mainStep (p : Process) (outcome : Outcome) : Option Process :=
  match p.main, outcome with
  | .running point, .next => p.mainNext point
  | .running point, .call call =>
      if point.calls call then some { p with main := .inCall point call } else none
  | .running point, .abort =>
      if point.aborts then some { p with main := .cleanup .closeDevice } else none
  | .running point, .exit =>
      if point.exits then some { p with main := .exiting } else none
  | .inCall point _, .return ok => some { p with main := .running (p.afterCall ok point) }
  | .inCall _ _, .abort => some { p with main := .cleanup .closeDevice }
  | .terminate point, .next =>
      let result := apcupsdTerminate .main p point
      some { result.1 with main := .terminate result.2 }
  | .cleanup point, .next =>
      let result := teardownStep .main p point
      some { result.1 with main := .cleanup result.2 }
  | .exiting, .next => some { p with exited := true }
  | _, _ => none

/-! ## The process -/

/-- One step of the process. -/
def Process.step (p : Process) (label : Label) : Option Process :=
  if p.exited then none
  else
    match label with
    | .main outcome => p.mainStep outcome
    | .sigterm =>
        if p.signal = .sigwait then some { p with signal := .terminate .request } else none
    | .signal =>
        match p.signal with
        | .terminate point =>
            let result := apcupsdTerminate .signal p point
            some { result.1 with signal := .terminate result.2 }
        | _ => none

end Apcupsd
