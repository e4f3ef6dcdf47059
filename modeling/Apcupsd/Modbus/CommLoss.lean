import Apcupsd.Core.CommEvents
import Apcupsd.Foundations.Debounce
import Apcupsd.Modbus.DeviceLoop

/-!
# The loss of the connection to a MODBUS UPS

When {lit}`check_state` declares the connection lost and restored, in a run of the device
thread from the moment at which {lit}`open_ups` has opened the device.

Main results:

- Theorem {lit}`deviceStep_comm`: what one step of the thread does to the flag, to the count
  of failures and to the events.
- Theorem {lit}`DeviceRun.commLoss_debounced`: the loss is announced at the third failure
  with no success in between, and its end at the first success after it.
-/

namespace Apcupsd

open BitFlags Apcupsd.Core ModbusUpsDriver

/-! ## Passes -/

/-- A pass announces nothing about the connection. -/
theorem commEvents_doAction (env : PassEnv) {core : Core} (hlog : core.log = []) :
    commEvents (doAction env core) = [] := by
  have hnone : ∀ cmd, cmd = .cmdCommfailure ∨ cmd = .cmdCommok →
      Effect.executeCommand cmd ∉ (doAction env core).log := by
    intro cmd hcomm hmem
    have hbefore := (executed_doAction_comm env core hcomm).mp hmem
    unfold executed at hbefore
    rw [hlog] at hbefore
    cases hbefore
  unfold commEvents
  rw [List.filterMap_eq_nil_iff]
  intro effect hmem
  cases effect with
  | executeCommand cmd =>
      cases cmd with
      | cmdCommfailure => exact absurd hmem (hnone _ (.inl rfl))
      | cmdCommok => exact absurd hmem (hnone _ (.inr rfl))
      | _ => rfl
  | _ => rfl

/-! ## The flag -/

/-- No item writes the flag of a lost connection. -/
theorem applyCi_commlost (ci : Ci) (value : CiValue) (ups : UpsInfo) :
    (applyCi ci value ups).isCommlost = ups.isCommlost := by
  have hmask : upsCommlost &&& ~~~ciBits ci = upsCommlost := by
    cases ci <;> decide
  exact applyCi_test hmask value ups

theorem update_commlost {items : List (Ci × CiValue)} {stamps : List DriverUpdate}
    (hstamps : Stamps stamps) {update : DriverUpdate}
    (hmem : update ∈ storeItems items ++ stamps) (ups : UpsInfo) :
    (update.apply ups).isCommlost = ups.isCommlost := by
  rcases mem_storeItems hmem with ⟨ci, value, -, rfl⟩ | hstamp
  · exact applyCi_commlost ci value ups
  · unfold UpsInfo.isCommlost UpsInfo.test
    rw [(hstamps update hstamp ups).1]

theorem applyUpdates_commlost {items : List (Ci × CiValue)} {stamps : List DriverUpdate}
    (hstamps : Stamps stamps) (ups : UpsInfo) :
    (applyUpdates (storeItems items ++ stamps) ups).isCommlost = ups.isCommlost :=
  applyUpdates_invariant (P := fun after => after.isCommlost = ups.isCommlost)
    (fun _ hmem before hbefore => (update_commlost hstamps hmem before).trans hbefore) rfl

theorem generateEvent_commlost (env : PassEnv) (core : Core) {event : Command}
    (hcause : event.isShutdownCause = false) :
    (generateEvent env core event).ups.isCommlost = core.ups.isCommlost := by
  unfold UpsInfo.isCommlost UpsInfo.test
  rw [(generateEvent_keeps env core hcause).1]

/-- A check for a self test stores items and a stamp. -/
theorem entryPoint_updates (port : RegisterPort) (time : Int) (driver : ModbusUpsDriver)
    (cap : Ci → Bool) (cmd : DeviceCmd) :
    ∃ items stamps, Stamps stamps ∧
      entryPoint port time driver cap cmd = storeItems items ++ stamps := by
  have hnothing : ∃ items stamps, Stamps stamps ∧
      ([] : List DriverUpdate) = storeItems items ++ stamps :=
    ⟨[], [], by simp [Stamps], rfl⟩
  cases cmd with
  | checkSelftest =>
      unfold entryPoint
      dsimp only
      split
      · exact ⟨_, _, stamps_selfTest time _, rfl⟩
      · exact hnothing
  | _ => exact hnothing

theorem takeAction_commlost (env : DeviceEnv) (device : Device) :
    (takeAction env device).ups.isCommlost = device.core.ups.isCommlost := by
  let passEnv := env.passEnv device.driver device.core.ups.upsCap
  refine (doAction_steps passEnv device.core).invariant
    (P := fun ups => ups.isCommlost = device.core.ups.isCommlost) ?_ ?_ ?_
  · exact fun change hchange ups hups =>
      (testMask_eq_of_and_eq (by decide) (hchange ups).1).trans hups
  · intro updates hupdates update hmem ups hups
    rcases mem_driverCalls hupdates with rfl | rfl
    · rcases entryPoint_updates env.port env.time device.driver device.core.ups.upsCap
        .checkSelftest with ⟨items, stamps, hstamps, hcheck⟩
      rw [hcheck] at hmem
      exact (update_commlost hstamps hmem ups).trans hups
    · cases hmem
  · unfold UpsInfo.isCommlost UpsInfo.test
    rw [(firstCall_status passEnv device.core).1]

theorem fillUps_comm (env : DeviceEnv) (device : Device) :
    (fillUps env device).core.ups.isCommlost = device.core.ups.isCommlost ∧
      (fillUps env device).driver.statusFailCount = device.driver.statusFailCount ∧
      commEvents (fillUps env device).core = commEvents device.core := by
  have hlogged : ∀ reopened : Bool, ∃ logged : Core, logged =
      (if reopened then logEvent device.core .logWarning
        "MODBUS: measurement data stale for over %d seconds -- reopening device to force resync"
      else device.core) ∧ logged.ups = device.core.ups ∧
        commEvents logged = commEvents device.core := by
    intro reopened
    cases reopened with
    | true => exact ⟨_, rfl, rfl, commEvents_logEvent device.core _ _⟩
    | false => exact ⟨_, rfl, rfl, rfl⟩
  have hupdates : ∃ items stamps, Stamps stamps ∧
      (readVolatileData env.port env.time device.driver device.core.ups.upsCap).2.1 =
        storeItems items ++ stamps := by
    unfold readVolatileData
    exact ⟨_, _, stamps_pollTime env.time _, rfl⟩
  have hcount : (readVolatileData env.port env.time device.driver
      device.core.ups.upsCap).1.statusFailCount = device.driver.statusFailCount := by
    unfold readVolatileData
    dsimp only
    split <;> rfl
  unfold fillUps
  generalize readVolatileData env.port env.time device.driver device.core.ups.upsCap = polled
    at hupdates hcount ⊢
  rcases polled with ⟨driver, updates, reopened⟩
  rcases hupdates with ⟨items, stamps, hstamps, rfl⟩
  rcases hlogged reopened with ⟨logged, hif, hups, hevents⟩
  dsimp only at hcount ⊢
  rw [← hif]
  refine ⟨?_, hcount, hevents⟩
  rw [mapUps_ups, applyUpdates_commlost hstamps, hups]

/-! ## Steps -/

/-- The outcome of the poll that a step makes, if it makes one: a poll fails also if the port
cannot be reopened. -/
def pollOutcome (env : DeviceEnv) (device : Device) : Option Bool :=
  match device.point with
  | .checkState exittime =>
      if env.shutdownRequested ∨ exittime ≤ env.tod then none
      else some (pollStatus env device).isSome
  | _ => none

/-- What a step does to the flag, to the count of failures and to the events. -/
def CommStep (before after : Device) : Option Bool → Prop
  | none =>
      after.core.ups.isCommlost = before.core.ups.isCommlost ∧
        after.driver.statusFailCount = before.driver.statusFailCount ∧
        commEvents after.core = []
  | some true =>
      after.core.ups.isCommlost = false ∧ after.driver.statusFailCount = 0 ∧
        commEvents after.core = if before.core.ups.isCommlost then [.closes ()] else []
  | some false =>
      if before.core.ups.isCommlost then
        after.core.ups.isCommlost = true ∧
          after.driver.statusFailCount = before.driver.statusFailCount ∧
          commEvents after.core = []
      else
        after.core.ups.isCommlost = decide (3 ≤ before.driver.statusFailCount + 1) ∧
          after.driver.statusFailCount = before.driver.statusFailCount + 1 ∧
          commEvents after.core =
            if 3 ≤ before.driver.statusFailCount + 1 then [.opens ()] else []

/-- A poll that fails. -/
theorem pollFailed_comm (env : DeviceEnv) {device : Device} (hlog : device.core.log = []) :
    CommStep device (pollFailed env device) (some false) := by
  have hempty := commEvents_of_log hlog
  unfold CommStep pollFailed
  dsimp only
  split_ifs with hlost hlogs hthird
  · exact ⟨hlost, rfl, (commEvents_logEvent device.core _ _).trans hempty⟩
  · exact ⟨hlost, rfl, hempty⟩
  · refine ⟨?_, rfl, ?_⟩
    · rw [generateEvent_commlost _ _ rfl, decide_eq_true hthird]
      exact UpsInfo.test_set_self device.core.ups upsCommlost
    · rw [commEvents_generateEvent _ _ rfl, commEvents_mapUps, hempty]
      rfl
  · refine ⟨?_, rfl, hempty⟩
    rw [decide_eq_false hthird]
    exact Bool.eq_false_iff.mpr hlost

/-- A poll: the flag is cleared where it succeeds. -/
theorem checkStateRound_comm (env : DeviceEnv) {device : Device} (hlog : device.core.log = []) :
    CommStep device (checkStateRound env device) (some (pollStatus env device).isSome) := by
  have hempty := commEvents_of_log hlog
  unfold checkStateRound
  cases hpolled : pollStatus env device with
  | none => exact pollFailed_comm env hlog
  | some item =>
      rcases item with ⟨ci, value⟩
      have hkept : (applyCi ci value device.core.ups).isCommlost = device.core.ups.isCommlost :=
        applyCi_commlost ci value device.core.ups
      have hcleared : (device.core.mapUps (applyCi ci value)).ups.clearCommlost.isCommlost = false :=
        UpsInfo.test_clear_self (by decide) _
      unfold CommStep
      dsimp only [Option.isSome_some]
      rw [mapUps_ups, hkept]
      split_ifs with hlost
      · refine ⟨?_, rfl, ?_⟩
        · rw [generateEvent_commlost _ _ rfl]
          exact hcleared
        · rw [commEvents_generateEvent _ _ rfl]
          simp [hempty, commBoundary]
      · exact ⟨hkept.trans (Bool.eq_false_iff.mpr hlost), rfl, hempty⟩

theorem pollFailed_point (env : DeviceEnv) (device : Device) :
    (pollFailed env device).point = device.point := by
  unfold pollFailed
  dsimp only
  split_ifs <;> rfl

/-- A round leaves {lit}`check_state` or stays in it. -/
theorem checkStateRound_point (env : DeviceEnv) (device : Device) :
    (checkStateRound env device).point = .loopTop ∨
      (checkStateRound env device).point = device.point := by
  unfold checkStateRound
  split
  · exact ite_eq_or_eq _ _ _
  · exact .inr (pollFailed_point env device)

/-- The points that come before the loop. -/
def beforeLoop : DevicePoint → Bool
  | .openUps _ => true
  | .firstFill => true
  | _ => false

/-- One step of the thread, once the device is open. -/
theorem deviceStep_comm (env : DeviceEnv) {device : Device}
    (hopened : ∀ eventTime, device.point ≠ .openUps eventTime) :
    CommStep device (deviceStep env device) (pollOutcome env device) ∧
      beforeLoop (deviceStep env device).point = false := by
  rcases device with ⟨core, driver, point⟩
  let cleared : Core := { core with log := [] }
  cases point with
  | openUps eventTime => exact absurd rfl (hopened eventTime)
  | firstFill => exact ⟨fillUps_comm env ⟨cleared, driver, .firstFill⟩, rfl⟩
  | loopTop =>
      have hlost := takeAction_commlost env ⟨cleared.mapUps setWaitTime, driver, .loopTop⟩
      unfold deviceStep threadStep
      dsimp only
      split_ifs
      · exact ⟨⟨rfl, rfl, rfl⟩, rfl⟩
      · exact ⟨⟨hlost, rfl, commEvents_doAction _ rfl⟩, rfl⟩
      · exact ⟨⟨hlost, rfl, commEvents_doAction _ rfl⟩, rfl⟩
  | fillUps => exact ⟨fillUps_comm env ⟨cleared, driver, .fillUps⟩, rfl⟩
  | secondAction =>
      have hlost := takeAction_commlost env ⟨cleared, driver, .secondAction⟩
      unfold deviceStep threadStep
      dsimp only
      split_ifs
      · exact ⟨⟨hlost, rfl, commEvents_doAction _ rfl⟩, rfl⟩
      · exact ⟨⟨hlost, rfl, commEvents_doAction _ rfl⟩, rfl⟩
  | checkState exittime =>
      have hround : CommStep ⟨cleared, driver, .checkState exittime⟩ _ _ :=
        checkStateRound_comm env rfl
      unfold deviceStep threadStep pollOutcome
      dsimp only
      split_ifs
      · exact ⟨⟨rfl, rfl, rfl⟩, rfl⟩
      · refine ⟨hround, ?_⟩
        rcases checkStateRound_point env ⟨cleared, driver, .checkState exittime⟩ with hleft | hstays
        · rw [hleft]
          rfl
        · rw [hstays]
          rfl
  | stopped => exact ⟨⟨rfl, rfl, rfl⟩, rfl⟩

/-! ## Runs -/

/-- Fetches and probes leave the count of failures alone. -/
theorem fetchMeasurementBlocks_statusFailCount (port : RegisterPort) (driver : ModbusUpsDriver)
    (call : ℕ) :
    (fetchMeasurementBlocks port driver call).1.statusFailCount = driver.statusFailCount :=
  rfl

theorem probe_statusFailCount (port : RegisterPort) (info : CiInfo) (attempts : ℕ)
    (driver : ModbusUpsDriver) (call : ℕ) :
    (probe port info attempts driver call).2.1.statusFailCount = driver.statusFailCount := by
  induction attempts generalizing driver call with
  | zero => rfl
  | succ attempts ih =>
      unfold probe
      split
      · rfl
      · exact (ih _ _).trans (fetchMeasurementBlocks_statusFailCount port driver _)

theorem probeAll_statusFailCount (port : RegisterPort) (table : List CiInfo) (cap : Ci → Bool)
    (driver : ModbusUpsDriver) (call : ℕ) :
    (probeAll port table cap driver call).2.1.statusFailCount = driver.statusFailCount := by
  induction table generalizing cap driver call with
  | nil => rfl
  | cons info table ih =>
      exact (ih _ _ _).trans (probe_statusFailCount port info 3 driver call)

theorem getCapabilities_statusFailCount (port : RegisterPort) (driver : ModbusUpsDriver)
    (cap : Ci → Bool) (call : ℕ) :
    (getCapabilities port driver cap call).2.1.statusFailCount = driver.statusFailCount :=
  (probeAll_statusFailCount port ciTable cap _ _).trans
    (fetchMeasurementBlocks_statusFailCount port driver call)

theorem openUps_statusFailCount (env : DeviceEnv) (eventTime : Int) (device : Device) :
    (openUps env eventTime device).driver.statusFailCount = device.driver.statusFailCount := by
  unfold openUps
  by_cases hopens : env.opens = true
  · rw [if_pos hopens]
    dsimp only
    generalize (if device.core.ups.isCommlost then _ else device.core) = restored
    exact getCapabilities_statusFailCount env.port device.driver restored.ups.upsCap 0
  · rw [if_neg hopens]
    dsimp only
    split_ifs <;> rfl

/-- Preparing the device and its static data leave the flag alone. -/
theorem prepared_commlost (hostname : List Char) (items : List (Ci × CiValue)) (ups : UpsInfo) :
    (prepDevice hostname (applyUpdates (storeItems items) ups)).isCommlost = ups.isCommlost := by
  have hnone := @applyUpdates_commlost items [] (by simp [Stamps]) ups
  rw [List.append_nil] at hnone
  exact hnone

/-- The flag is clear when the device has been opened. -/
theorem openUps_commlost (env : DeviceEnv) (eventTime : Int) (device : Device)
    (hopened : (openUps env eventTime device).point = .firstFill) :
    (openUps env eventTime device).core.ups.isCommlost = false := by
  have hrestored := restored_commlost env.pass eventTime device.core
  unfold openUps at hopened ⊢
  by_cases hopens : env.opens = true
  · rw [if_pos hopens]
    dsimp only at hrestored ⊢
    generalize (if device.core.ups.isCommlost then _ else device.core) = restored at hrestored ⊢
    generalize getCapabilities env.port device.driver restored.ups.upsCap 0 = probed
    rcases probed with ⟨cap, driver, call⟩
    exact (prepared_commlost env.hostname _ _).trans hrestored
  · rw [if_neg hopens] at hopened
    dsimp only at hopened
    split_ifs at hopened

namespace DeviceRun

variable (run : DeviceRun)

/-- What comes before the loop comes after an attempt to open the device. -/
theorem point_opening {n : ℕ} (hbefore : beforeLoop (run.device (n + 1)).point = true) :
    ∃ eventTime, (run.device n).point = .openUps eventTime ∧
      run.device (n + 1) = openUps (run.env n) eventTime
        { run.device n with core := { (run.device n).core with log := [] } } := by
  by_cases hopening : ∃ eventTime, (run.device n).point = .openUps eventTime
  · rcases hopening with ⟨eventTime, hpoint⟩
    refine ⟨eventTime, hpoint, ?_⟩
    change deviceStep (run.env n) (run.device n) = _
    unfold deviceStep threadStep
    simp only [hpoint]
  · have hloop := (deviceStep_comm (run.env n) fun eventTime hpoint =>
      hopening ⟨eventTime, hpoint⟩).2
    exact absurd (hloop.symm.trans hbefore) Bool.false_ne_true

/-- Before the loop no failure is counted. -/
theorem statusFailCount_beforeLoop {n : ℕ} (hbefore : beforeLoop (run.device n).point = true) :
    (run.device n).driver.statusFailCount = 0 := by
  induction n with
  | zero => rfl
  | succ n ih =>
      rcases run.point_opening hbefore with ⟨eventTime, hpoint, hstep⟩
      rw [hstep, openUps_statusFailCount]
      apply ih
      rw [hpoint]
      rfl

/-- The flag is clear when {lit}`open_ups` has opened the device. -/
theorem commlost_opened {start : ℕ} (hopened : (run.device start).point = .firstFill) :
    (run.device start).core.ups.isCommlost = false := by
  cases start with
  | zero => cases hopened
  | succ n =>
      have hbefore : beforeLoop (run.device (n + 1)).point = true := by
        rw [hopened]
        rfl
      rcases run.point_opening hbefore with ⟨eventTime, -, hstep⟩
      rw [hstep] at hopened ⊢
      exact openUps_commlost _ _ _ hopened

/-- The outcomes of the polls from a step on. -/
def polls (start n : ℕ) : Option Bool :=
  pollOutcome (run.env (start + n)) (run.device (start + n))

/-- The flag and the count of failures, against the polls since the device was opened. -/
structure Debounced (start n : ℕ) : Prop where
  opened : ∀ eventTime, (run.device (start + n)).point ≠ .openUps eventTime
  lost : (run.device (start + n)).core.ups.isCommlost =
    decide (3 ≤ failuresSince (run.polls start) n)
  count : (run.device (start + n)).driver.statusFailCount =
    min 3 (failuresSince (run.polls start) n)

/-- One step keeps them in agreement, and announces what is due. -/
theorem Debounced.step {start n : ℕ} (hdebounced : run.Debounced start n) :
    run.Debounced start (n + 1) ∧
      commEvents (run.device (start + n + 1)).core = announcement 3 (run.polls start) n := by
  rcases deviceStep_comm (run.env (start + n)) hdebounced.opened with ⟨hstep, hloop⟩
  change CommStep _ (run.device (start + n + 1)) (run.polls start n) at hstep
  have hopened : ∀ eventTime, (run.device (start + n + 1)).point ≠ .openUps eventTime := by
    intro eventTime hpoint
    change beforeLoop (run.device (start + n + 1)).point = false at hloop
    rw [hpoint] at hloop
    cases hloop
  have hlost := hdebounced.lost
  have hcount := hdebounced.count
  suffices hnext : (run.device (start + n + 1)).core.ups.isCommlost =
        decide (3 ≤ failuresSince (run.polls start) (n + 1)) ∧
      (run.device (start + n + 1)).driver.statusFailCount =
        min 3 (failuresSince (run.polls start) (n + 1)) ∧
      commEvents (run.device (start + n + 1)).core = announcement 3 (run.polls start) n from
    ⟨⟨hopened, hnext.1, hnext.2.1⟩, hnext.2.2⟩
  rw [failuresSince_succ]
  unfold announcement
  generalize failuresSince (run.polls start) n = failures at hlost hcount ⊢
  cases houtcome : run.polls start n with
  | none =>
      rw [houtcome] at hstep
      rcases hstep with ⟨hflag, hsame, hnone⟩
      exact ⟨hflag.trans hlost, hsame.trans hcount, hnone⟩
  | some ok =>
      rw [houtcome] at hstep
      cases ok with
      | true =>
          rcases hstep with ⟨hflag, hzero, hevents⟩
          refine ⟨hflag, hzero, ?_⟩
          rw [hevents, hlost]
          simp
      | false =>
          unfold CommStep at hstep
          dsimp only at hstep ⊢
          rw [hlost, hcount] at hstep
          by_cases hthree : 3 ≤ failures
          · have hstill : 3 ≤ failures + 1 := by omega
            have hlong : failures + 1 ≠ 3 := by omega
            rw [if_pos (decide_eq_true hthree)] at hstep
            rcases hstep with ⟨hflag, hsame, hnone⟩
            refine ⟨?_, ?_, ?_⟩
            · rw [hflag, decide_eq_true hstill]
            · rw [hsame, min_eq_left hthree, min_eq_left hstill]
            · rw [hnone, if_neg hlong]
          · have hmin : min 3 failures = failures := by omega
            rw [if_neg (by simpa using hthree), hmin] at hstep
            rcases hstep with ⟨hflag, hmore, hevents⟩
            refine ⟨hflag, ?_, ?_⟩
            · rw [hmore]
              exact (min_eq_right (show failures + 1 ≤ 3 by omega)).symm
            · rw [hevents]
              exact if_congr (by omega) rfl rfl

/-- They agree in every step after {lit}`open_ups` has opened the device. -/
theorem debounced_of_opened {start : ℕ} (hopened : (run.device start).point = .firstFill)
    (n : ℕ) : run.Debounced start n := by
  induction n with
  | zero =>
      have hbefore : beforeLoop (run.device start).point = true := by
        rw [hopened]
        rfl
      refine ⟨fun eventTime hpoint => ?_, run.commlost_opened hopened,
        run.statusFailCount_beforeLoop hbefore⟩
      rw [Nat.add_zero, hopened] at hpoint
      cases hpoint
  | succ n ih => exact ih.step.1

/-- From the moment at which {lit}`open_ups` has opened the device, the connection counts as
lost from the third failure with no success in between up to the next success, and both
moments, and no others, are announced. -/
theorem commLoss_debounced {start : ℕ} (hopened : (run.device start).point = .firstFill)
    (n : ℕ) :
    (run.device (start + n)).core.ups.isCommlost =
        decide (3 ≤ failuresSince (run.polls start) n) ∧
      commEvents (run.device (start + n + 1)).core = announcement 3 (run.polls start) n ∧
      Paired ((List.range n).flatMap fun i => commEvents (run.device (start + i + 1)).core) := by
  have hdebounced := run.debounced_of_opened hopened
  refine ⟨(hdebounced n).lost, (hdebounced n).step.2, ?_⟩
  have hevents : (fun i => commEvents (run.device (start + i + 1)).core) =
      announcement 3 (run.polls start) :=
    funext fun i => (hdebounced i).step.2
  rw [hevents]
  exact announcements_paired (by decide) n

/-! ## Examples of runs -/

/-- A run in which the port answers at the steps given; every round of {lit}`check_state`
lasts long. -/
def ofAnswers (answers : ℕ → Bool) : DeviceRun where
  config := { defaultConfig 0 with modeType := .modbusUps }
  modbus := modeType_modbusDefault
  env := fun n =>
    { port := fun _ addr nregs =>
        if answers n then some (registerBytes (fun _ => 0) addr nregs) else none
      opens := true
      time := n
      tod := 0
      shutdownRequested := false
      hostname := []
      pass := { PassEnv.quiet with now := n } }

/-- The UPS falls silent for four polls: the loss is announced at the third. -/
theorem commLoss_debounced_silence :
    ((ofAnswers fun n => decide (n < 5 ∨ 9 ≤ n)).device 1).point = .firstFill ∧
      commEvents ((ofAnswers fun n => decide (n < 5 ∨ 9 ≤ n)).device 8).core = [.opens ()] ∧
      commEvents ((ofAnswers fun n => decide (n < 5 ∨ 9 ≤ n)).device 10).core =
        [.closes ()] ∧
      Paired ((List.range 9).flatMap fun i =>
        commEvents ((ofAnswers fun n => decide (n < 5 ∨ 9 ≤ n)).device (1 + i + 1)).core) := by
  have hopened : ((ofAnswers fun n => decide (n < 5 ∨ 9 ≤ n)).device 1).point = .firstFill := by
    decide +kernel
  exact ⟨hopened, by decide +kernel, by decide +kernel, (commLoss_debounced _ hopened 9).2.2⟩

end DeviceRun

end Apcupsd
