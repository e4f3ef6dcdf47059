import Mathlib.Order.Monotone.Basic
import Apcupsd.Core.PassSteps
import Apcupsd.Foundations.HeldSince

/-!
# Runs of the core

The device loop as the core sees it: between two passes the driver updates the
record in any way its frame allows, then {lit}`do_action` runs once.  A run
starts with the record that {lit}`new_ups` and {lit}`init_ups_struct` leave and
lasts until a pass leaves the process.

Main results:

- Definition {lit}`CoreRun`: a run with a monotone clock.
- Theorem {lit}`CoreRun.after_frame`: the timers and flags after a pass of a run.
- Theorem {lit}`CoreRun.executes_iff`: the timed commands of a pass of a run.
- Theorem {lit}`CoreRun.prevStatus_eq`: between two passes the remembered status is
  the status that the earlier pass ended with.
-/

namespace Apcupsd

open BitFlags Apcupsd.Core

/-! ## The device loop -/

/-- One iteration of the loop: what the driver does to the record, then one pass. -/
structure Pass where
  updates : List DriverUpdate
  env : PassEnv

/-- The state of the core when the pass begins. -/
def readUps (pass : Pass) (core : Core) : Core :=
  { core with ups := applyUpdates pass.updates core.ups, log := [] }

/-- One iteration; a process that has exited does nothing more. -/
def doPass (pass : Pass) (core : Core) : Core :=
  if core.exited then { core with log := [] } else doAction pass.env (readUps pass core)

/-- {lit}`TIMER_FAST`. -/
def timerFast : Int := 1

/-- {lit}`device_wait_time`. -/
def deviceWaitTime (ups : UpsInfo) : Int :=
  let polled :=
    if ups.isFastpoll || !ups.isBattpresent then timerFast
    else if ups.isCommlost then timerFast * 5
    else ups.polltime
  let logged := if ups.datatime ≠ 0 ∧ ups.datatime < polled then ups.datatime else polled
  let reported := if ups.stattime ≠ 0 ∧ ups.stattime < logged then ups.stattime else logged
  if reported < timerFast then timerFast else reported

/-- The core fields of a record that {lit}`memset` has cleared. -/
def CoreFields.zero : CoreFields where
  prevStatus := 0
  shutDown := 0
  lastSelfTest := 0
  lastOnbattTime := 0
  lastOffbattTime := 0
  lastTimeOnLine := 0
  lastTimeAnnoy := 0
  lastTimeNologon := 0
  lastTimeChangeme := 0
  startShutLtime := 0
  startShutLoad := 0
  startShutLbatt := 0
  numXfers := 0
  cumTimeOnBatt := 0
  changeBattCounter := 0
  nologinFile := false

/-- The driver fields as {lit}`new_ups` and {lit}`init_ups_struct` leave them. -/
def DriverFields.zero : DriverFields where
  numExecedChildren := 0
  waitTime := 0
  upsCap := fun _ => false
  selfTest := 0
  pollTime := 0
  lastxfer := .xferNa
  testresult := .testNa
  battChg := .finite 0
  timeLeft := .finite 0
  upsLoad := .finite 0
  loadApparent := .finite 0
  lineFreq := .finite 0
  lineVoltage := .finite 0
  outputVoltage := .finite 0
  outputCurrent := .finite 0
  upsTemp := .finite 0
  battVoltage := .finite 0
  nomOutputVoltage := -1
  nomPower := 0
  nomApparentPower := 0
  dwake := -1
  dshutd := -1
  birth := []
  serial := []
  battdat := []
  firmrev := []
  upsname := []
  upsmodel := []

/-- The settings of {lit}`init_ups_struct`, for a daemon started at
{lit}`startTime`. -/
def defaultConfig (startTime : Int) : UpsConfig where
  nologinType := .always
  modeType := .noUps
  upsclassType := .noClass
  annoy := 5 * 60
  maxtime := 0
  annoydelay := 60
  onbattdelay := 6
  killdelay := 0
  nologinTime := 0
  stattime := 0
  datatime := 0
  polltime := 60
  percent := 10
  runtime := 5
  startTime := startTime

/-- {lit}`new_ups` followed by {lit}`init_ups_struct` and the configuration. -/
def newUps (config : UpsConfig) : UpsInfo where
  toUpsConfig := config
  toCoreFields := CoreFields.zero
  toDriverFields := DriverFields.zero
  status := upsPlugged ||| upsBattpresent

/-- The core before its first pass, whatever the driver's set-up has done to the
new record. -/
structure Core.Initial (core : Core) : Prop where
  first : core.first = true
  exited : core.exited = false
  fields : core.ups.toCoreFields = CoreFields.zero
  bits : core.ups.status &&& coreBits = 0

/-- The statics of {lit}`action.c` and a new record. -/
def Core.start (config : UpsConfig) : Core where
  ups := newUps config
  requestedLogoff := false
  first := true
  killOnPowerfail := false
  terminateOnPowerfail := false
  exited := false
  log := []

theorem Core.start_initial (config : UpsConfig) : Core.Initial (Core.start config) :=
  ⟨rfl, rfl, rfl, by change (upsPlugged ||| upsBattpresent) &&& coreBits = 0; decide⟩

/-- The state after the first {lit}`n` iterations. -/
def coreAt (start : Core) (pass : ℕ → Pass) : ℕ → Core
  | 0 => start
  | n + 1 => doPass (pass n) (coreAt start pass n)

/-- Surroundings in which the driver stays quiet and every system call succeeds. -/
def PassEnv.quiet : PassEnv where
  now := 0
  announceTime := 0
  shutdownTime := 0
  annoyTime := 0
  checkSelftest := []
  dtrEnable := []
  getSelftestMsg := []
  dtrStDisable := []
  readVolatileData := []
  killPower := []
  pwrfailMissing := false
  forkFails := fun _ => false
  reapedAtOnce := fun _ => 0
  reaped := 0

/-- A run of the loop: {lit}`core n` is the state before iteration {lit}`n`.  The
clock is monotone, also across the later readings inside a pass. -/
structure CoreRun where
  pass : ℕ → Pass
  core : ℕ → Core
  initial : Core.Initial (core 0)
  step : ∀ n, core (n + 1) = doPass (pass n) (core n)
  positive : 0 < (pass 0).env.now
  announceTime_ge : ∀ n, (pass n).env.now ≤ (pass n).env.announceTime
  announceTime_le : ∀ n, (pass n).env.announceTime ≤ (pass (n + 1)).env.now

namespace CoreRun

/-- The run of a sequence of passes whose clock is monotone. -/
def ofPasses (start : Core) (initial : Core.Initial start) (pass : ℕ → Pass)
    (positive : 0 < (pass 0).env.now)
    (announced : ∀ n, (pass n).env.now ≤ (pass n).env.announceTime ∧
      (pass n).env.announceTime ≤ (pass (n + 1)).env.now) : CoreRun where
  pass := pass
  core := coreAt start pass
  initial := initial
  step := fun _ => rfl
  positive := positive
  announceTime_ge := fun n => (announced n).1
  announceTime_le := fun n => (announced n).2

/-- The run of a daemon that makes one pass each second from time 100 on. -/
def everySecond (config : UpsConfig) (pass : ℕ → Pass) : CoreRun :=
  ofPasses (Core.start config) (Core.start_initial config)
    (fun n => { pass n with
      env := { (pass n).env with
        now := 100 + n
        announceTime := 100 + n
        shutdownTime := 100 + n
        annoyTime := 100 + n } })
    (by simp) (fun n => ⟨le_refl _, by simp⟩)

/-- The run in which the driver polls once before each pass, with one set of
measurements throughout. -/
def polled (config : UpsConfig) (fields : DriverFields → DriverFields)
    (word : ℕ → StatusWord) : CoreRun :=
  everySecond config fun n =>
    { updates := [DriverUpdate.poll (upsPlugged ||| upsBattpresent ||| word n) fields]
      env := PassEnv.quiet }

variable (run : CoreRun)

/-- The clock of pass {lit}`n`. -/
def clock (n : ℕ) : Int := (run.pass n).env.now

/-- The process runs pass {lit}`n`. -/
def runs (n : ℕ) : Prop := (run.core n).exited = false

/-- The state that pass {lit}`n` finds. -/
def seen (n : ℕ) : Core := readUps (run.pass n) (run.core n)

/-- The record at the state switch of pass {lit}`n`. -/
def head (n : ℕ) : UpsInfo := (passHead (run.pass n).env (run.seen n)).ups

/-- The branch that pass {lit}`n` takes. -/
def branch (n : ℕ) : PassBranch := passBranch (run.pass n).env (run.head n)

/-- The update that the branch of pass {lit}`n` makes. -/
def updated (n : ℕ) : UpsInfo := branchUpdate (run.pass n).env (run.branch n) (run.head n)

/-- The command is executed in pass {lit}`n`. -/
def executes (n : ℕ) (cmd : Command) : Prop := (run.core (n + 1)).executed cmd

/-- Pass {lit}`n` sees the UPS on battery and not calibrating. -/
def onBattery (n : ℕ) : Prop :=
  (run.seen n).ups.isOnbatt = true ∧ (run.seen n).ups.isCalibration = false

/-- Pass {lit}`n` compares charge and runtime with their limits. -/
def evaluates (n : ℕ) : Prop := run.runs n ∧ run.branch n = .evaluate

/-- A polled run is on battery where the driver says so. -/
theorem polled_onBattery (config : UpsConfig) (fields : DriverFields → DriverFields)
    {word : ℕ → StatusWord} {n : ℕ}
    (honbatt : testMask (upsPlugged ||| upsBattpresent ||| word n) upsOnbatt = true)
    (hcalibration :
      testMask (upsPlugged ||| upsBattpresent ||| word n) upsCalibration = false) :
    (polled config fields word).onBattery n :=
  ⟨(DriverUpdate.poll_test (by decide) _ fields _).trans honbatt,
    (DriverUpdate.poll_test (by decide) _ fields _).trans hcalibration⟩

instance (n : ℕ) : Decidable (run.runs n) :=
  inferInstanceAs (Decidable (_ = _))

instance (n : ℕ) (cmd : Command) : Decidable (run.executes n cmd) :=
  inferInstanceAs (Decidable (Core.executed _ _))

instance (n : ℕ) : Decidable (run.onBattery n) :=
  inferInstanceAs (Decidable (_ ∧ _))

instance (n : ℕ) : Decidable (run.evaluates n) :=
  inferInstanceAs (Decidable (_ ∧ _))

theorem clock_mono {m n : ℕ} (h : m ≤ n) : run.clock m ≤ run.clock n :=
  monotone_nat_of_le_succ (fun n => (run.announceTime_ge n).trans (run.announceTime_le n)) h

/-! ## One step of a run -/

theorem core_succ {n : ℕ} (hruns : run.runs n) :
    run.core (n + 1) = doAction (run.pass n).env (run.seen n) := by
  rw [run.step n, doPass, if_neg (Bool.eq_false_iff.mp hruns), seen]

/-- A process that has exited stays so. -/
theorem runs_of_runs_succ {n : ℕ} (hruns : run.runs (n + 1)) : run.runs n := by
  by_contra hexited
  have hcore : (run.core n).exited = true := Bool.eq_true_of_not_eq_false hexited
  have hnext : (run.core (n + 1)).exited = true := by
    rw [run.step n, doPass, if_pos hcore]
    exact hcore
  exact Bool.false_ne_true (hruns.symm.trans hnext)

theorem runs_of_le {m n : ℕ} (hruns : run.runs n) (hmn : m ≤ n) : run.runs m := by
  induction n, hmn using Nat.le_induction with
  | base => exact hruns
  | succ n hmn ih => exact ih (run.runs_of_runs_succ hruns)

/-- After the first pass the first-call statements are done. -/
theorem seen_first {n : ℕ} (hruns : run.runs n) : (run.seen (n + 1)).first = false := by
  change (run.core (n + 1)).first = false
  rw [run.core_succ hruns]
  exact doAction_first _ _

theorem seen_frame (n : ℕ) : DriverFrame (run.core n).ups (run.seen n).ups :=
  applyUpdates_frame _ _

theorem head_timer (n : ℕ) :
    TimerFrame (firstCall (run.pass n).env (run.seen n)).ups (run.head n) :=
  (passHead_frames _ _).1

theorem head_read (n : ℕ) :
    ReadFrame (firstCall (run.pass n).env (run.seen n)).ups (run.head n) :=
  (passHead_frames _ _).2

/-- The timers and flags after a pass of the run. -/
theorem after_frame {n : ℕ} (hruns : run.runs n) :
    TimerFrame (run.updated n) (run.core (n + 1)).ups := by
  rw [run.core_succ hruns]
  exact doAction_frame _ _

/-- Between two passes the remembered status is the one the earlier pass ended
with. -/
theorem prevStatus_eq {n : ℕ} (hruns : run.runs (n + 1)) :
    (run.seen (n + 1)).ups.prevStatus = (run.core (n + 1)).ups.status := by
  have hkept : (run.seen (n + 1)).ups.prevStatus = (run.core (n + 1)).ups.prevStatus :=
    congrArg CoreFields.prevStatus (run.seen_frame (n + 1)).core
  have hcore := run.core_succ (run.runs_of_runs_succ hruns)
  rw [hkept]
  rw [runs, hcore] at hruns
  rw [hcore]
  exact doAction_prevStatus hruns

/-- The timed commands of a pass of the run. -/
theorem executes_iff {n : ℕ} {cmd : Command} (hcmd : cmd.isTimed = true) :
    run.executes n cmd ↔ run.runs n ∧
      branchCommand (run.pass n).env (run.branch n) (run.updated n) = some cmd := by
  unfold executes
  by_cases hruns : run.runs n
  · rw [run.core_succ hruns, executed_doAction _ _ (Command.isDecided_of_isTimed hcmd)]
    simp [seen, readUps, executed, hruns, branch, updated, head]
  · have hcore : (run.core n).exited = true := Bool.eq_true_of_not_eq_false hruns
    rw [run.step n, doPass, if_pos hcore]
    simp [executed, hruns]

/-- A driver call inside pass {lit}`n` leaves this status word. -/
def writes (n : ℕ) (status : StatusWord) : Prop :=
  Effect.driverWrite status ∈ (run.core (n + 1)).log

/-- The bits that only drivers write end a pass as the driver calls inside it left
them. -/
theorem test_succ {n : ℕ} (hruns : run.runs n) (mask : StatusWord)
    (hmask : mask &&& ~~~ownBits = mask) :
    (run.core (n + 1)).ups.test mask =
      replay mask ((run.seen n).ups.test mask) (run.core (n + 1)).log := by
  rw [run.core_succ hruns]
  exact doAction_replay _ rfl hmask

/-- A run whose passes make no driver call has no driver write inside a pass. -/
theorem not_writes_of_quiet {n : ℕ}
    (hquiet : ∀ updates ∈ (run.pass n).env.driverCalls, updates = [])
    (status : StatusWord) : ¬ run.writes n status := by
  unfold writes
  by_cases hruns : run.runs n
  · rw [run.core_succ hruns]
    refine (doAction_steps _ _).not_driverWrite hquiet ?_
    unfold firstCall
    split <;> exact List.not_mem_nil
  · rw [run.step n, doPass, if_pos (Bool.eq_true_of_not_eq_false hruns)]
    exact List.not_mem_nil

/-- A bit of the core is clear before the first pass. -/
theorem test_zero {mask : StatusWord} (hmask : mask &&& coreBits = mask)
    (hbit : testMask 0 mask = false) : (run.core 0).ups.test mask = false :=
  (testMask_eq_of_and_eq hmask (run.initial.bits.trans (BitVec.zero_and).symm)).trans hbit

/-! ## The record at the state switch -/

/-- A bit that no reminder writes is seen by the state switch as the driver left
it. -/
theorem head_test {mask : StatusWord} (hmask : mask &&& ~~~upsReplacebatt = mask)
    (n : ℕ) : (run.head n).test mask = (run.seen n).ups.test mask := by
  refine ((run.head_read n).test_eq hmask).trans ?_
  unfold firstCall
  split <;> rfl

/-- A bit of the core reaches the state switch as the previous pass left it. -/
theorem head_test_core {mask : StatusWord} (hmask : mask &&& ~~~upsReplacebatt = mask)
    (hcore : mask &&& coreBits = mask) (n : ℕ) :
    (run.head n).test mask = (run.core n).ups.test mask :=
  (run.head_test hmask n).trans ((run.seen_frame n).test_eq hcore)

/-- The limits are compared with the charge and runtime that the driver reported. -/
theorem head_driver (n : ℕ) :
    (run.head n).toDriverFields =
      { (run.seen n).ups.toDriverFields with
        numExecedChildren := (run.head n).numExecedChildren } := by
  have hfirst : (firstCall (run.pass n).env (run.seen n)).ups.toDriverFields =
      (run.seen n).ups.toDriverFields := by
    unfold firstCall
    split <;> rfl
  rw [← hfirst]
  exact (run.head_read n).driver

theorem head_config (n : ℕ) : (run.head n).toUpsConfig = (run.seen n).ups.toUpsConfig := by
  refine (run.head_timer n).config.trans ?_
  unfold firstCall
  split <;> rfl

/-- The core fields reach the state switch as the previous pass left them, but for
those that the first-call statements and the reminders write. -/
theorem head_core (n : ℕ) :
    (run.head n).toCoreFields =
      { (run.core n).ups.toCoreFields with
        prevStatus := (run.head n).prevStatus
        shutDown := (run.head n).shutDown
        lastSelfTest := (run.head n).lastSelfTest
        lastTimeOnLine := (run.head n).lastTimeOnLine
        lastTimeAnnoy := (run.head n).lastTimeAnnoy
        lastTimeNologon := (run.head n).lastTimeNologon
        lastTimeChangeme := (run.head n).lastTimeChangeme
        changeBattCounter := (run.head n).changeBattCounter
        nologinFile := (run.head n).nologinFile } := by
  have hfirst : (firstCall (run.pass n).env (run.seen n)).ups.toCoreFields =
      { (run.seen n).ups.toCoreFields with
        prevStatus := (firstCall (run.pass n).env (run.seen n)).ups.prevStatus
        lastTimeNologon := (firstCall (run.pass n).env (run.seen n)).ups.lastTimeNologon
        lastTimeAnnoy := (firstCall (run.pass n).env (run.seen n)).ups.lastTimeAnnoy
        lastTimeOnLine := (firstCall (run.pass n).env (run.seen n)).ups.lastTimeOnLine } := by
    unfold firstCall
    split <;> rfl
  rw [(run.head_timer n).lastTimeOnLine, (run.head_timer n).lastTimeNologon]
  refine (run.head_timer n).core.trans ?_
  rw [hfirst, (run.seen_frame n).core]

/-- The first pass remembers that the battery is present and nothing else. -/
theorem head_prevStatus_zero : (run.head 0).prevStatus = upsBattpresent := by
  refine (run.head_read 0).prev.trans ?_
  have hfirst : (run.seen 0).first = true := run.initial.first
  unfold firstCall
  rw [if_pos hfirst]

/-- From the second pass on the state switch works on the timers that the driver
left. -/
theorem head_timer_succ {n : ℕ} (hruns : run.runs n) :
    TimerFrame (run.seen (n + 1)).ups (run.head (n + 1)) := by
  have htimer := run.head_timer (n + 1)
  rw [firstCall_of_not_first (run.seen_first hruns)] at htimer
  exact htimer

theorem head_prevStatus {n : ℕ} (hruns : run.runs (n + 1)) :
    (run.head (n + 1)).prevStatus = (run.core (n + 1)).ups.status := by
  have hread := (run.head_read (n + 1)).prev
  rw [firstCall_of_not_first (run.seen_first (run.runs_of_runs_succ hruns))] at hread
  exact hread.trans (run.prevStatus_eq hruns)

/-! ## The shutdown flag -/

theorem head_isShutdown (n : ℕ) :
    (run.head n).isShutdown = (run.core n).ups.isShutdown :=
  run.head_test_core (by decide) (by decide) n

theorem seen_isShutdown (n : ℕ) :
    (run.seen n).ups.isShutdown = (run.core n).ups.isShutdown :=
  (run.seen_frame n).isShutdown

/-- A shutdown is never withdrawn. -/
theorem isShutdown_succ {n : ℕ} (hruns : run.runs n)
    (hshutdown : (run.core n).ups.isShutdown = true) :
    (run.core (n + 1)).ups.isShutdown = true := by
  rw [run.core_succ hruns]
  exact doAction_keeps_isShutdown _ _ ((run.head_isShutdown n).trans hshutdown)

/-- A shutdown command of a pass leaves the shutdown under way. -/
theorem isShutdown_of_command {n : ℕ} {cmd : Command} (hruns : run.runs n)
    (hcause : cmd.isShutdownCause = true)
    (hcommand : branchCommand (run.pass n).env (run.branch n) (run.updated n) = some cmd) :
    (run.core (n + 1)).ups.isShutdown = true := by
  rw [run.core_succ hruns]
  exact doAction_isShutdown _ _ hcause hcommand

/-! ## The state of a pass -/

/-- A pass in one of the branches on battery sees the UPS on battery. -/
theorem onBattery_of_branch {n : ℕ} (hbranch : (run.branch n).onBattery = true) :
    run.onBattery n := by
  have honbatt : (run.head n).isOnbatt = (run.seen n).ups.isOnbatt :=
    run.head_test (by decide) n
  have hcalibration : (run.head n).isCalibration = (run.seen n).ups.isCalibration :=
    run.head_test (by decide) n
  have hhead := PassBranch.onBattery_passBranch hbranch
  rw [honbatt, hcalibration] at hhead
  exact hhead

end CoreRun

end Apcupsd
