import Apcupsd.Foundations.CachedPoll
import Apcupsd.Modbus.DeviceLoop

/-!
# One outage, one power failure

The device thread with the MODBUS driver polls through a cache: {lit}`fillUPS` fetches
the status register into the cache, {lit}`check_state` polls it past the cache, and the
check for a self test in {lit}`st_PowerFailure` decodes the cache once more.

Main results:

- Theorem {lit}`deviceStep_view`: the thread is an instance of polling through a cache.
- Theorem {lit}`one_event_iff`: an outage is one power failure if and only if its first
  status reading is the block fetch of {lit}`fillUPS`.
-/

namespace Apcupsd

open BitFlags Apcupsd.Core ModbusUpsDriver

/-! ## The thread as a polling program -/

/-- The thread as the polling program sees it: nothing is known during set-up, and a
thread that has stopped remembers its flag. -/
def Device.view (device : Device) : CachedPoll.State (Bool × Bool) :=
  let flags := device.core.ups.lineFlags
  let cached := device.driver.cachedFlags
  let copy := testMask device.core.remembered upsOnbatt
  match device.point with
  | .openUps _ | .firstFill => ⟨.setup, (false, false), (false, false), false⟩
  | .loopTop => ⟨.roundStart, flags, cached, copy⟩
  | .fillUps => ⟨.fetching, flags, cached, copy⟩
  | .secondAction => ⟨.fetched, flags, cached, copy⟩
  | .checkState _ => ⟨.polling, flags, cached, copy⟩
  | .stopped => ⟨.stopped, flags, cached, flags.2⟩

/-- What a step of the thread does: it reads the status register, makes a pass, or
neither. -/
def deviceMove (env : DeviceEnv) (image : ℕ → Registers) (device : Device) :
    CachedPoll.Move (Bool × Bool) :=
  match device.point with
  | .firstFill | .fillUps => .read (registerFlags (image 2))
  | .loopTop => if env.shutdownRequested then .idle else .pass
  | .secondAction => .pass
  | .checkState exittime =>
      if env.shutdownRequested ∨ exittime ≤ env.tod then .idle
      else .read (registerFlags (image 0))
  | .openUps _ | .stopped => .idle

/-- The step makes a pass that takes {lit}`st_PowerFailure`. -/
def powerFailureStep (env : DeviceEnv) (device : Device) : Bool :=
  match device.point with
  | .loopTop =>
      !env.shutdownRequested &&
        failing env { device with core := device.core.mapUps setWaitTime }
  | .secondAction => failing env device
  | _ => false

/-- A pass takes {lit}`st_PowerFailure` on a rising edge of {lit}`onbatt`. -/
theorem failing_eq (env : DeviceEnv) {device : Device} (hready : Ready device) :
    failing env device =
      (device.core.ups.isOnbatt && !testMask device.core.remembered upsOnbatt) := by
  unfold failing
  rw [takesPowerFailure_eq, hready.calm.remote, hready.calm.calibration]
  simp

/-- What a pass from one point of the loop to another does to the view. -/
theorem takeAction_view (env : DeviceEnv) {device : Device} (hready : Ready device)
    (before after : CachedPoll.Point) :
    let view : CachedPoll.State (Bool × Bool) :=
      ⟨before, device.core.ups.lineFlags, device.driver.cachedFlags,
        testMask device.core.remembered upsOnbatt⟩
    failing env device = CachedPoll.rising Prod.snd view ∧
      (⟨after, (takeAction env device).ups.lineFlags, device.driver.cachedFlags,
        (takeAction env device).ups.lineFlags.2⟩ : CachedPoll.State (Bool × Bool)) =
        { CachedPoll.answer Prod.snd view with point := after } := by
  dsimp only
  have hrising : failing env device = CachedPoll.rising Prod.snd
      ⟨before, device.core.ups.lineFlags, device.driver.cachedFlags,
        testMask device.core.remembered upsOnbatt⟩ :=
    failing_eq env hready
  refine ⟨hrising, ?_⟩
  unfold CachedPoll.answer
  rw [← hrising, (takeAction_lineFlags hready).1]

/-- After a pass that stays in the process the status is remembered. -/
theorem takeAction_remembered {env : DeviceEnv} {device : Device}
    (hexited : (takeAction env device).exited = false) :
    testMask (takeAction env device).remembered upsOnbatt =
      (takeAction env device).ups.lineFlags.2 := by
  have hprev : (takeAction env device).ups.prevStatus = (takeAction env device).ups.status :=
    doAction_prevStatus hexited
  unfold Core.remembered
  rw [show (takeAction env device).first = false from doAction_first _ _,
    if_neg Bool.false_ne_true, hprev]
  rfl

/-- What a step does to the view, and what its pass takes. -/
def Simulates (env : DeviceEnv) (image : ℕ → Registers) (device : Device) : Prop :=
  CachedPoll.Step Prod.snd device.view (deviceMove env image device)
      (threadStep env device).view ∧
    powerFailureStep env device =
      ((deviceMove env image device).isPass && CachedPoll.rising Prod.snd device.view)

section Points

variable {env : DeviceEnv} {image : ℕ → Registers} (hanswered : env.Answered image)
  {core : Core} {driver : ModbusUpsDriver}

include hanswered

theorem openUps_simulates {eventTime : Int} (hfresh : Fresh core) :
    Simulates env image ⟨core, driver, .openUps eventTime⟩ := by
  have hview : (openUps env eventTime ⟨core, driver, .openUps eventTime⟩).view =
      ⟨.setup, (false, false), (false, false), false⟩ := by
    unfold Device.view
    cases hopens : env.opens with
    | true => rw [(openUps_of_opens hanswered hopens eventTime hfresh).1]
    | false =>
        have hlater := @openUps_of_not_opens env hopens eventTime
          ⟨core, driver, .openUps eventTime⟩ hfresh
        rcases hlater.1 with ⟨since, hnext⟩
        rw [hnext]
  refine ⟨?_, rfl⟩
  change CachedPoll.Step _ _ _ (openUps env eventTime _).view
  rw [hview]
  exact .wait rfl

theorem firstFill_simulates (hready : Ready ⟨core, driver, .firstFill⟩)
    (hfirst : core.first = true) : Simulates env image ⟨core, driver, .firstFill⟩ := by
  rcases fillUps_of_ready hanswered hready with ⟨_, hflags, hcached⟩
  rcases fillUps_keeps env ⟨core, driver, .firstFill⟩ with ⟨_, hkept, _⟩
  have hview : ({ fillUps env ⟨core, driver, .firstFill⟩ with point := .loopTop } : Device).view =
      ⟨.roundStart, registerFlags (image 2), registerFlags (image 2), false⟩ := by
    unfold Device.view Core.remembered
    dsimp only
    rw [hflags, hcached, hkept, hfirst, if_pos rfl]
    exact congrArg _ (by decide)
  refine ⟨?_, rfl⟩
  change CachedPoll.Step _ _ _ (Device.view { fillUps env _ with point := .loopTop })
  rw [hview]
  exact .begin rfl _

theorem fillUps_simulates (hready : Ready ⟨core, driver, .fillUps⟩) :
    Simulates env image ⟨core, driver, .fillUps⟩ := by
  rcases fillUps_of_ready hanswered hready with ⟨_, hflags, hcached⟩
  rcases fillUps_keeps env ⟨core, driver, .fillUps⟩ with ⟨hfields, hkept, _⟩
  have hview : ({ fillUps env ⟨core, driver, .fillUps⟩ with point := .secondAction } :
      Device).view = ⟨.fetched, registerFlags (image 2), registerFlags (image 2),
        testMask core.remembered upsOnbatt⟩ := by
    unfold Device.view Core.remembered
    dsimp only
    rw [hflags, hcached, hkept, congrArg CoreFields.prevStatus hfields]
  refine ⟨?_, rfl⟩
  change CachedPoll.Step _ _ _ (Device.view { fillUps env _ with point := .secondAction })
  rw [hview]
  exact .fetch rfl _

theorem checkState_simulates {exittime : ℕ} (hready : Ready ⟨core, driver, .checkState exittime⟩) :
    Simulates env image ⟨core, driver, .checkState exittime⟩ := by
  let device : Device := ⟨core, driver, .checkState exittime⟩
  by_cases hover : env.shutdownRequested = true ∨ exittime ≤ env.tod
  · have hmove : deviceMove env image device = .idle := if_pos hover
    have hnext : threadStep env device = { device with point := .loopTop } := if_pos hover
    unfold Simulates
    rw [hmove, hnext]
    exact ⟨.expire rfl, rfl⟩
  · have hmove : deviceMove env image device = .read (registerFlags (image 0)) := if_neg hover
    have hnext : threadStep env device = checkStateRound env device := if_neg hover
    rcases checkStateRound_of_ready hanswered hready with
      ⟨polled, hround, _, hflags, hprev, _, hfirst, _, hcached, hpoint⟩
    have hcopy : testMask polled.core.remembered upsOnbatt =
        testMask core.remembered upsOnbatt := by
      unfold Core.remembered
      rw [hprev, hfirst]
    unfold Simulates
    rw [hmove, hnext, hround]
    refine ⟨?_, rfl⟩
    by_cases hsame : registerFlags (image 0) = core.ups.lineFlags
    · rw [if_neg (not_not_intro hsame)] at hpoint
      have hview : polled.view = device.view := by
        unfold Device.view
        rw [hpoint]
        dsimp only
        rw [hflags, hcached, hcopy, hsame]
      rw [hview, hsame]
      exact .same rfl
    · rw [if_pos hsame] at hpoint
      have hview : polled.view =
          { device.view with point := .roundStart, value := registerFlags (image 0) } := by
        unfold Device.view
        rw [hpoint]
        dsimp only
        rw [hflags, hcached, hcopy]
      rw [hview]
      exact .change rfl hsame

end Points

section Passes

variable {env : DeviceEnv} (image : ℕ → Registers) {core : Core} {driver : ModbusUpsDriver}

theorem secondAction_simulates (hready : Ready ⟨core, driver, .secondAction⟩) :
    Simulates env image ⟨core, driver, .secondAction⟩ := by
  let device : Device := ⟨core, driver, .secondAction⟩
  rcases takeAction_view env hready .fetched .polling with ⟨hrising, hpolling⟩
  rcases takeAction_view env hready .fetched .stopped with ⟨_, hstopped⟩
  refine ⟨?_, hrising⟩
  change CachedPoll.Step _ _ .pass (threadStep env device).view
  cases hexited : (takeAction env device).exited with
  | true =>
      have hview : (threadStep env device).view =
          { CachedPoll.answer Prod.snd device.view with point := .stopped } := by
        have hnext : threadStep env device =
            { device with core := takeAction env device, point := .stopped } := if_pos hexited
        rw [hnext]
        exact hstopped
      rw [hview]
      exact .exit (.inr rfl)
  | false =>
      have hview : (threadStep env device).view =
          { CachedPoll.answer Prod.snd device.view with point := .polling } := by
        have hnext : threadStep env device =
            { device with
              core := (takeAction env device).mapUps setWaitTime
              point := .checkState (env.tod +
                ((takeAction env device).mapUps setWaitTime).ups.waitTime.toNat * 1000000) } :=
          if_neg (Bool.eq_false_iff.mp hexited)
        rw [hnext]
        refine Eq.trans ?_ hpolling
        rw [← takeAction_remembered hexited]
        rfl
      rw [hview]
      exact .second rfl

theorem loopTop_simulates (hready : Ready ⟨core, driver, .loopTop⟩) :
    Simulates env image ⟨core, driver, .loopTop⟩ := by
  let device : Device := ⟨core, driver, .loopTop⟩
  let waited : Device := ⟨core.mapUps setWaitTime, driver, .loopTop⟩
  cases hrequested : env.shutdownRequested with
  | true =>
      have hmove : deviceMove env image device = .idle := if_pos hrequested
      have hnext : threadStep env device = { device with point := .stopped } := if_pos hrequested
      have hpower : powerFailureStep env device = false := by
        unfold powerFailureStep
        dsimp only [device]
        rw [hrequested]
        rfl
      unfold Simulates
      rw [hmove, hnext, hpower]
      exact ⟨.stop rfl, rfl⟩
  | false =>
      have hmove : deviceMove env image device = .pass :=
        if_neg (Bool.eq_false_iff.mp hrequested)
      have hnext : threadStep env device = ⟨takeAction env waited, driver,
          if (takeAction env waited).exited then .stopped else .fillUps⟩ :=
        if_neg (Bool.eq_false_iff.mp hrequested)
      have hwaiting : Ready waited := Ready.setWaitTime hready
      rcases takeAction_view env hwaiting .roundStart .fetching with ⟨hrising, hfetching⟩
      rcases takeAction_view env hwaiting .roundStart .stopped with ⟨_, hstopped⟩
      have hpower : powerFailureStep env device = failing env waited := by
        unfold powerFailureStep
        dsimp only [device]
        rw [hrequested]
        rfl
      unfold Simulates
      rw [hmove, hnext, hpower]
      refine ⟨?_, hrising⟩
      cases hexited : (takeAction env waited).exited with
      | true =>
          have hview : Device.view ⟨takeAction env waited, driver, .stopped⟩ =
              { CachedPoll.answer Prod.snd device.view with point := .stopped } :=
            hstopped
          rw [if_pos rfl, hview]
          exact .exit (.inl rfl)
      | false =>
          have hview : Device.view ⟨takeAction env waited, driver, .fillUps⟩ =
              { CachedPoll.answer Prod.snd device.view with point := .fetching } := by
            refine Eq.trans ?_ hfetching
            rw [← takeAction_remembered hexited]
            rfl
          rw [if_neg Bool.false_ne_true, hview]
          exact .first rfl

end Passes

/-- The device as a step finds it: with an empty log. -/
def Device.cleared (device : Device) : Device :=
  { device with core := { device.core with log := [] } }

/-- A step of the thread is a step of the polling program. -/
theorem deviceStep_view {env : DeviceEnv} {image : ℕ → Registers}
    (hanswered : env.Answered image) {device : Device} (hinv : DeviceInv device) :
    CachedPoll.Step Prod.snd device.view (deviceMove env image device)
        (deviceStep env device).view ∧
      powerFailureStep env device.cleared =
        ((deviceMove env image device).isPass && CachedPoll.rising Prod.snd device.view) := by
  rcases device with ⟨core, driver, point⟩
  have hcleared := hinv.clearLog
  cases point with
  | openUps _ => exact (openUps_simulates hanswered hcleared :)
  | firstFill => exact firstFill_simulates hanswered hcleared.1 hcleared.2
  | loopTop => exact loopTop_simulates image hcleared
  | fillUps => exact fillUps_simulates hanswered hcleared
  | secondAction => exact secondAction_simulates image hcleared
  | checkState _ => exact checkState_simulates hanswered hcleared
  | stopped => exact ⟨.rest rfl, rfl⟩

/-! ## What a step counts -/

theorem outageEvents_of_log {core : Core} (hlog : core.log = []) : outageEvents core = 0 := by
  unfold outageEvents
  rw [hlog]
  rfl

/-- After set-up each {lit}`st_PowerFailure` pass counts one transfer and generates one
of the two events, and no other step does. -/
theorem deviceStep_counts {env : DeviceEnv} {image : ℕ → Registers}
    (hanswered : env.Answered image) {device : Device} (hinv : DeviceInv device)
    (hsetup : device.view.point ≠ .setup) :
    (deviceStep env device).core.ups.numXfers =
        device.core.ups.numXfers + ((powerFailureStep env device.cleared).toNat : Int) ∧
      outageEvents (deviceStep env device).core =
        (powerFailureStep env device.cleared).toNat := by
  rcases device with ⟨core, driver, point⟩
  let cleared : Core := { core with log := [] }
  have hnone : outageEvents cleared = 0 := outageEvents_of_log rfl
  have hinv := hinv.clearLog
  have hstill : ∀ after : Core, after.ups.numXfers = core.ups.numXfers →
      outageEvents after = outageEvents cleared →
      after.ups.numXfers = core.ups.numXfers + ((false.toNat : ℕ) : Int) ∧
        outageEvents after = false.toNat :=
    fun after hxfers hevents => ⟨hxfers.trans (Int.add_zero _).symm, hevents.trans hnone⟩
  cases point with
  | openUps _ => exact absurd rfl hsetup
  | firstFill => exact absurd rfl hsetup
  | loopTop =>
      unfold deviceStep threadStep powerFailureStep Device.cleared
      dsimp only
      cases hrequested : env.shutdownRequested with
      | true => exact hstill cleared rfl rfl
      | false =>
          exact ⟨doAction_numXfers _ (cleared.mapUps setWaitTime), outageEvents_doAction _ rfl⟩
  | fillUps =>
      rcases fillUps_keeps env ⟨cleared, driver, .fillUps⟩ with ⟨hfields, _, hevents⟩
      exact hstill _ (congrArg CoreFields.numXfers hfields) hevents
  | secondAction =>
      have hcounts : (takeAction env ⟨cleared, driver, .secondAction⟩).ups.numXfers =
            core.ups.numXfers +
              ((failing env ⟨cleared, driver, .secondAction⟩).toNat : Int) ∧
          outageEvents (takeAction env ⟨cleared, driver, .secondAction⟩) =
            (failing env ⟨cleared, driver, .secondAction⟩).toNat :=
        ⟨doAction_numXfers _ cleared, outageEvents_doAction _ rfl⟩
      unfold deviceStep threadStep
      dsimp only
      split
      · exact hcounts
      · exact hcounts
  | checkState exittime =>
      unfold deviceStep threadStep
      dsimp only
      split
      · exact hstill cleared rfl rfl
      · rcases checkStateRound_of_ready hanswered hinv with
          ⟨polled, hround, _, _, _, hxfers, _, hlog, _⟩
        rw [hround]
        exact hstill polled.core hxfers ((outageEvents_of_log hlog).trans hnone.symm)
  | stopped => exact hstill cleared rfl rfl

/-! ## Runs -/

namespace DeviceRun

variable (run : DeviceRun) (image : ℕ → ℕ → Registers)

/-- The line flags that step {lit}`n` reads from the UPS. -/
def reading (n : ℕ) : Option (Bool × Bool) :=
  (deviceMove (run.env n) (image n) (run.device n)).reading

/-- Step {lit}`n` calls {lit}`do_action`. -/
def passes (n : ℕ) : Prop :=
  deviceMove (run.env n) (image n) (run.device n) = .pass

/-- Step {lit}`n` makes a pass that takes {lit}`st_PowerFailure`. -/
def powerFailure (n : ℕ) : Bool :=
  powerFailureStep (run.env n) (run.device n).cleared

/-- The polling program that the thread runs. -/
def poll {run : DeviceRun} {image : ℕ → ℕ → Registers} (hanswered : run.Answered image) :
    CachedPoll.Run (Bool × Bool) Prod.snd where
  state := fun n => (run.device n).view
  move := fun n => deviceMove (run.env n) (image n) (run.device n)
  step := fun n => (deviceStep_view (hanswered n) (inv hanswered n)).1
  start := ⟨by simp [device, Device.start, Device.view],
    by simp [device, Device.start, Device.view]⟩

/-- The flags of a UPS on mains and of a UPS on battery. -/
def mains : Bool × Bool := (true, false)

def battery : Bool × Bool := (false, true)

/-- An outage: the status was read as mains at step {lit}`last`, it is read as battery
from step {lit}`first` on, over several passes, and as mains at step {lit}`back`. -/
structure Outage (last first back : ℕ) : Prop where
  last_lt : last < first
  first_lt : first < back
  before : run.reading image last = some mains
  silent : ∀ n, last < n → n < first → run.reading image n = none
  fails : run.reading image first = some battery
  lasts : ∀ n, first ≤ n → n < back →
    ∀ flags, run.reading image n = some flags → flags = battery
  several : ∃ i j, first < i ∧ i < j ∧ j < back ∧ run.passes image i ∧ run.passes image j
  returns : run.reading image back = some mains

/-- The outage is one power failure: one pass takes {lit}`st_PowerFailure`, one transfer
is counted, one of the two events is generated, and no pass takes back the line flags
that were read. -/
structure OneEvent (first back : ℕ) : Prop where
  once : ∑ n ∈ Finset.Ico first back, (run.powerFailure n).toNat = 1
  transfers : (run.device back).core.ups.numXfers = (run.device first).core.ups.numXfers + 1
  events : ∑ n ∈ Finset.Ico first back, outageEvents (run.device (n + 1)).core = 1
  kept : ∀ n, first ≤ n → n < back → run.passes image n →
    (run.device (n + 1)).core.ups.lineFlags = (run.device n).core.ups.lineFlags

variable {run image} {last first back : ℕ}

theorem Outage.stretch (houtage : Outage run image last first back)
    (hanswered : run.Answered image) :
    (poll hanswered).Stretch last first back where
  last_lt := houtage.last_lt
  first_lt := houtage.first_lt
  down := ⟨mains, houtage.before, rfl⟩
  silent := houtage.silent
  rises := ⟨battery, houtage.fails, rfl⟩
  stays := fun n hfirst hback value hvalue => by
    rw [houtage.lasts n hfirst hback value hvalue]
    rfl
  passes := houtage.several
  ends := fun hnone => Option.some_ne_none mains (houtage.returns.symm.trans hnone)

/-- A pass that takes {lit}`st_PowerFailure` is an answer of the polling program. -/
theorem powerFailure_eq (hanswered : run.Answered image) (n : ℕ) :
    run.powerFailure n = (poll hanswered).answers n :=
  (deviceStep_view (hanswered n) (inv hanswered n)).2

theorem view_value {device : Device} (hsetup : device.view.point ≠ .setup) :
    device.view.value = device.core.ups.lineFlags := by
  rcases device with ⟨core, driver, point⟩
  cases point with
  | openUps _ => exact absurd rfl hsetup
  | firstFill => exact absurd rfl hsetup
  | _ => rfl

theorem point_of_view {device : Device} (hpoint : device.view.point = .fetching) :
    device.point = .fillUps := by
  rcases device with ⟨core, driver, point⟩
  cases point <;> first | rfl | cases hpoint

/-- The transfers and the events of a stretch of the run after set-up. -/
theorem counts (hanswered : run.Answered image) (hle : first ≤ back)
    (hsetup : ∀ n, first ≤ n → (run.device n).view.point ≠ .setup) :
    (run.device back).core.ups.numXfers = (run.device first).core.ups.numXfers +
        ((∑ n ∈ Finset.Ico first back, (run.powerFailure n).toNat : ℕ) : Int) ∧
      ∑ n ∈ Finset.Ico first back, outageEvents (run.device (n + 1)).core =
        ∑ n ∈ Finset.Ico first back, (run.powerFailure n).toNat := by
  have hstep : ∀ n, first ≤ n →
      (run.device (n + 1)).core.ups.numXfers =
          (run.device n).core.ups.numXfers + ((run.powerFailure n).toNat : Int) ∧
        outageEvents (run.device (n + 1)).core = (run.powerFailure n).toNat :=
    fun n hn => deviceStep_counts (hanswered n) (inv hanswered n) (hsetup n hn)
  constructor
  · induction back, hle using Nat.le_induction with
    | base => simp
    | succ back hle ih =>
        rw [(hstep back hle).1, ih, Finset.sum_Ico_succ_top hle]
        push_cast
        omega
  · exact Finset.sum_congr rfl fun n hn => (hstep n (Finset.mem_Ico.mp hn).1).2

/-- In every run of the thread in which every read succeeds and the UPS does not
calibrate, an outage is one power failure if and only if its first status reading is the
block fetch of {lit}`fillUPS`, and not a poll of {lit}`check_state`. -/
theorem one_event_iff (hanswered : run.Answered image)
    (houtage : Outage run image last first back) :
    OneEvent run image first back ↔ (run.device first).point = .fillUps := by
  have hstretch := houtage.stretch hanswered
  have hsetup : ∀ n, first ≤ n → (run.device n).view.point ≠ .setup :=
    fun n hn => hstretch.not_setup hn
  have hcounts := counts hanswered houtage.first_lt.le hsetup
  have hsum : ∑ n ∈ Finset.Ico first back, (run.powerFailure n).toNat =
      (poll hanswered).answerCount first back :=
    Finset.sum_congr rfl fun n _ => congrArg Bool.toNat (powerFailure_eq hanswered n)
  rw [hsum] at hcounts
  constructor
  · intro hone
    rcases hstretch.point_first with hfetching | hpolling
    · exact point_of_view hfetching
    · have htwice := CachedPoll.Run.answers_of_polled hstretch hpolling
      rw [← hsum, hone.once] at htwice
      cases htwice
  · intro hpoint
    have hfetching : (run.device first).view.point = .fetching := by
      unfold Device.view
      rw [hpoint]
    rcases CachedPoll.Run.answers_of_fetched hstretch hfetching with ⟨hcount, hkept⟩
    rw [hcount] at hcounts
    refine ⟨hsum.trans hcount, hcounts.1, hcounts.2, ?_⟩
    intro n hfirst hback hpass
    rw [← view_value (hsetup n hfirst), ← view_value (hsetup (n + 1) (Nat.le_succ_of_le hfirst))]
    cases hanswers : (poll hanswered).answers n with
    | true => exact hkept n hfirst hback hanswers
    | false =>
        have hmove : (poll hanswered).move n = .pass := hpass
        exact CachedPoll.Run.value_of_not_answers hmove hanswers

/-! ## Examples of runs -/

/-- Registers of a UPS that only reports its line flags. -/
def lineRegisters (onbatt : Bool) : Registers := fun addr =>
  if addr = 1 then (if onbatt then 4 else 2) else 0

/-- A run that never fails to read, on battery at the steps given. -/
def ofLine (onbatt : ℕ → Bool) (tod : ℕ → ℕ) : DeviceRun where
  config := { defaultConfig 0 with modeType := .modbusUps }
  modbus := rfl
  env := fun n =>
    { port := fun _ addr nregs => some (registerBytes (lineRegisters (onbatt n)) addr nregs)
      opens := true
      time := n
      tod := tod n
      shutdownRequested := false
      hostname := []
      pass := { PassEnv.quiet with now := n } }

def lineImage (onbatt : ℕ → Bool) : ℕ → ℕ → Registers :=
  fun n _ => lineRegisters (onbatt n)

theorem ofLine_answered (onbatt : ℕ → Bool) (tod : ℕ → ℕ) :
    (ofLine onbatt tod).Answered (lineImage onbatt) := by
  have hcalm : ∀ onbatt, calibrating (decode regCalibrationStatus
      (registerBytes (lineRegisters onbatt) regCalibrationStatus.addr
        regCalibrationStatus.nregs)) = false := by
    decide +kernel
  exact fun n => ⟨fun _ _ _ => rfl, fun _ => hcalm (onbatt n)⟩

/-- The UPS is on battery from step {lit}`first` to step {lit}`back`. -/
def between (first back n : ℕ) : Bool :=
  decide (first ≤ n ∧ n < back)

/-- The rounds are over at once, and the fetch of step 3 finds the UPS on battery. -/
theorem one_event_of_fetch :
    OneEvent (ofLine (between 3 7) fun n => n * 1000000000) (lineImage (between 3 7)) 3 7 := by
  have hsilent : ∀ n < 3, 1 < n →
      (ofLine (between 3 7) fun n => n * 1000000000).reading (lineImage (between 3 7)) n =
        none := by
    decide +kernel
  have hlasts : ∀ n < 7, 3 ≤ n →
      ((ofLine (between 3 7) fun n => n * 1000000000).reading (lineImage (between 3 7)) n).all
        (· == battery) = true := by
    decide +kernel
  refine (@one_event_iff _ _ 1 3 7 (ofLine_answered _ _) ?_).mpr (by decide +kernel)
  exact
    { last_lt := by decide
      first_lt := by decide
      before := by decide +kernel
      silent := fun n hlow hhigh => hsilent n hhigh hlow
      fails := by decide +kernel
      lasts := fun n hlow hhigh flags hflags => by
        have hall := hlasts n hhigh hlow
        rw [hflags] at hall
        exact beq_iff_eq.mp hall
      several := ⟨4, 6, by decide, by decide, by decide, rfl, rfl⟩
      returns := by decide +kernel }

/-- The rounds do not end by themselves, and the poll of step 5 finds the UPS on battery:
the pass that follows takes the UPS back to mains, and the next pass fails again. -/
theorem two_events_of_poll :
    ¬ ∀ (run : DeviceRun) (image : ℕ → ℕ → Registers) (last first back : ℕ),
      run.Answered image → Outage run image last first back → OneEvent run image first back := by
  have hsilent : ∀ n < 5, 3 < n →
      (ofLine (between 5 10) fun _ => 0).reading (lineImage (between 5 10)) n = none := by
    decide +kernel
  have hlasts : ∀ n < 10, 5 ≤ n →
      ((ofLine (between 5 10) fun _ => 0).reading (lineImage (between 5 10)) n).all
        (· == battery) = true := by
    decide +kernel
  intro hclaim
  have hone := hclaim _ _ 3 5 10 (ofLine_answered (between 5 10) fun _ => 0)
    { last_lt := by decide
      first_lt := by decide
      before := by decide +kernel
      silent := fun n hlow hhigh => hsilent n hhigh hlow
      fails := by decide +kernel
      lasts := fun n hlow hhigh flags hflags => by
        have hall := hlasts n hhigh hlow
        rw [hflags] at hall
        exact beq_iff_eq.mp hall
      several := ⟨6, 8, by decide, by decide, by decide, rfl, rfl⟩
      returns := by decide +kernel }
  have htwo : ((ofLine (between 5 10) fun _ => 0).device 10).core.ups.numXfers = 2 ∧
      ((ofLine (between 5 10) fun _ => 0).device 5).core.ups.numXfers = 0 := by
    decide +kernel
  have hxfers := hone.transfers
  rw [htwo.1, htwo.2] at hxfers
  cases hxfers

end DeviceRun

end Apcupsd
