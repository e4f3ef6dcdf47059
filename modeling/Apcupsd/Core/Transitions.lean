import Apcupsd.Core.CoreRun
import Apcupsd.Foundations.EdgeDetector

/-!
# Transitions to battery

{lit}`get_state` finds a transition by comparing the status with the copy that the
previous pass made at its end, while drivers write the status between passes and
from the driver calls inside them.

Main results:

- Theorems {lit}`CoreRun.branch_powerFailure_iff` and {lit}`CoreRun.branch_mainsBack_iff`:
  the two transitions of a pass.
- Theorem {lit}`CoreRun.timeline_spec`: a run is an edge detector.
- Theorem {lit}`CoreRun.powerFailure_once_iff`: a transition to battery is answered by
  exactly one {lit}`st_PowerFailure` pass when and only when it happened outside a
  pass, with the flag clear at the end of the last pass.
-/

namespace Apcupsd

open BitFlags Apcupsd.Core

/-! ## The transitions of one pass -/

theorem getState_powerFailure_iff (ups : UpsInfo) :
    getState ups = .stPowerFailure ↔
      ups.isOnbatt = true ∧ ups.isCalibration = false ∧
        testMask ups.prevStatus upsOnbatt = false := by
  unfold getState
  rw [UpsInfo.chgOnbatt_eq]
  cases ups.isOnbatt with
  | false =>
      rw [if_neg Bool.false_ne_true]
      split_ifs <;> simp
  | true =>
      cases ups.isCalibration with
      | true => simp
      | false =>
          cases testMask ups.prevStatus upsOnbatt with
          | false => simp
          | true => split_ifs <;> simp_all

theorem getState_mainsBack_iff (ups : UpsInfo) :
    getState ups = .stMainsBack ↔
      ups.isOnbatt = false ∧ testMask ups.prevStatus upsOnbatt = true := by
  unfold getState
  rw [UpsInfo.chgOnbatt_eq]
  cases ups.isOnbatt with
  | true =>
      rw [if_pos rfl]
      split_ifs <;> simp
  | false =>
      cases testMask ups.prevStatus upsOnbatt with
      | false => simp
      | true => simp

/-- The two transitions are the arms of their states. -/
theorem stateBranch_transition (env : PassEnv) (ups : UpsInfo) :
    (stateBranch env ups = .powerFailure ↔ getState ups = .stPowerFailure) ∧
      (stateBranch env ups = .mainsBack ↔ getState ups = .stMainsBack) := by
  have hbattery : batteryBranch env ups ≠ .powerFailure ∧
      batteryBranch env ups ≠ .mainsBack := by
    unfold batteryBranch
    split_ifs <;> decide
  unfold stateBranch
  cases getState ups with
  | stSelfTest =>
      dsimp only
      split
      · simp
      · simp [hbattery]
  | stOnBattery => simp [hbattery]
  | _ => simp

theorem passBranch_powerFailure_iff (env : PassEnv) (ups : UpsInfo) :
    passBranch env ups = .powerFailure ↔
      ups.isShutRemote = false ∧ ups.isOnbatt = true ∧ ups.isCalibration = false ∧
        testMask ups.prevStatus upsOnbatt = false := by
  unfold passBranch
  split
  · simp_all
  · rw [(stateBranch_transition env ups).1, getState_powerFailure_iff]
    simp_all

theorem passBranch_mainsBack_iff (env : PassEnv) (ups : UpsInfo) :
    passBranch env ups = .mainsBack ↔
      ups.isShutRemote = false ∧ ups.isOnbatt = false ∧
        testMask ups.prevStatus upsOnbatt = true := by
  unfold passBranch
  split
  · simp_all
  · rw [(stateBranch_transition env ups).2, getState_mainsBack_iff]
    simp_all

/-- A pass that takes {lit}`st_PowerFailure` finds that state after the battery edges. -/
theorem getState_of_powerFailure {env : PassEnv} {head : Core}
    (hbranch : passBranch env head.ups = .powerFailure) :
    getState (batteryEdges env head).ups = .stPowerFailure := by
  have hremote := ((passBranch_powerFailure_iff _ _).mp hbranch).1
  rw [← (stateBranch_transition env _).1, (batteryEdges_update env _).1, ← hbranch]
  exact (if_neg (Bool.eq_false_iff.mp hremote)).symm

theorem switchState_of_powerFailure {env : PassEnv} {head : Core}
    (hbranch : passBranch env head.ups = .powerFailure) :
    switchState env head = doPowerFailure env (batteryEdges env head) := by
  unfold switchState
  rw [getState_of_powerFailure hbranch]
  rfl

/-! ## The status words that drivers write -/

/-- The status words that a sequence of driver updates leaves, one for each. -/
def updateStatuses : List DriverUpdate → UpsInfo → List StatusWord
  | [], _ => []
  | update :: updates, ups =>
      (update.apply ups).status :: updateStatuses updates (update.apply ups)

/-- The status words of the driver writes in a log. -/
def driverStatuses (log : List Effect) : List StatusWord :=
  log.filterMap fun effect =>
    match effect with
    | .driverWrite status => some status
    | _ => none

theorem applyUpdates_test (updates : List DriverUpdate) (ups : UpsInfo) (mask : StatusWord) :
    (applyUpdates updates ups).test mask =
      ((updateStatuses updates ups).map (testMask · mask)).getLastD (ups.test mask) := by
  induction updates generalizing ups with
  | nil => rfl
  | cons update updates ih =>
      refine (ih (update.apply ups)).trans ?_
      change _ = List.getLastD (testMask (update.apply ups).status mask :: _) _
      rw [List.getLastD_cons]
      rfl

theorem replay_eq_getLastD (mask : StatusWord) (start : Bool) (log : List Effect) :
    replay mask start log = ((driverStatuses log).map (testMask · mask)).getLastD start := by
  induction log generalizing start with
  | nil => rfl
  | cons effect log ih =>
      cases effect with
      | driverWrite status =>
          refine (ih (testMask status mask)).trans ?_
          change _ = List.getLastD (testMask status mask :: _) _
          rw [List.getLastD_cons]
          rfl
      | _ => exact ih start

namespace CoreRun

variable (run : CoreRun)

/-- Pass {lit}`n` compares the status with one in which {lit}`onbatt` is set. -/
def onbattRemembered (n : ℕ) : Bool :=
  testMask (run.head n).prevStatus upsOnbatt

/-- Pass {lit}`n` sees {lit}`onbatt` set. -/
def onbatt (n : ℕ) : Bool := (run.seen n).ups.isOnbatt

/-- Pass {lit}`n` sees no calibration and no remote shutdown. -/
def calm (n : ℕ) : Prop :=
  (run.seen n).ups.isCalibration = false ∧ (run.seen n).ups.isShutRemote = false

theorem branch_powerFailure_iff (n : ℕ) :
    run.branch n = .powerFailure ↔
      run.calm n ∧ run.onbatt n = true ∧ run.onbattRemembered n = false := by
  have honbatt : (run.head n).isOnbatt = run.onbatt n := run.head_test (by decide) n
  have hcalibration : (run.head n).isCalibration = (run.seen n).ups.isCalibration :=
    run.head_test (by decide) n
  have hremote : (run.head n).isShutRemote = (run.seen n).ups.isShutRemote :=
    run.head_test (by decide) n
  refine (passBranch_powerFailure_iff _ _).trans ?_
  rw [honbatt, hcalibration, hremote]
  unfold calm onbattRemembered
  tauto

theorem branch_mainsBack_iff (n : ℕ) :
    run.branch n = .mainsBack ↔
      (run.seen n).ups.isShutRemote = false ∧ run.onbatt n = false ∧
        run.onbattRemembered n = true := by
  have honbatt : (run.head n).isOnbatt = run.onbatt n := run.head_test (by decide) n
  have hremote : (run.head n).isShutRemote = (run.seen n).ups.isShutRemote :=
    run.head_test (by decide) n
  refine (passBranch_mainsBack_iff _ _).trans ?_
  rw [honbatt, hremote]
  rfl

theorem onbattRemembered_zero : run.onbattRemembered 0 = false := by
  unfold onbattRemembered
  rw [run.head_prevStatus_zero]
  decide

theorem onbattRemembered_succ {n : ℕ} (hruns : run.runs (n + 1)) :
    run.onbattRemembered (n + 1) = (run.core (n + 1)).ups.isOnbatt := by
  unfold onbattRemembered
  rw [run.head_prevStatus hruns]
  rfl

/-! ## The timeline of the flag -/

/-- The status words that the driver writes between pass {lit}`n` and the pass before
it, in order. -/
def writesBefore (n : ℕ) : List StatusWord :=
  updateStatuses (run.pass n).updates (run.core n).ups

/-- The status words that the driver writes inside pass {lit}`n`, in order. -/
def writesInside (n : ℕ) : List StatusWord :=
  driverStatuses (run.core (n + 1)).log

/-- What pass {lit}`n` adds to the timeline of {lit}`onbatt`: the writes before it, its
state selection, the writes inside it and, unless it leaves the process, the copy
of the status at its end. -/
def ticks (n : ℕ) : List (Tick ℕ) :=
  if run.runs n then
    (run.writesBefore n).map (fun status => .write (testMask status upsOnbatt)) ++
      (.select n ::
        (run.writesInside n).map (fun status => .write (testMask status upsOnbatt)) ++
        if run.runs (n + 1) then [.finish] else [])
  else []

/-- The timeline of {lit}`onbatt` up to the end of pass {lit}`n - 1`. -/
def timeline : ℕ → List (Tick ℕ)
  | 0 => []
  | n + 1 => timeline n ++ run.ticks n

/-- The flag before the first pass, with nothing remembered. -/
def detectorStart : Detector where
  bit := (run.core 0).ups.isOnbatt
  copy := false
  inside := false

/-- A pass without calibration and remote shutdown takes {lit}`st_PowerFailure`
exactly when the detector fires. -/
def choosesByEdge (n : ℕ) (detector : Detector) : Prop :=
  run.calm n → decide (run.branch n = .powerFailure) = detector.fires

/-- The detector when pass {lit}`n` begins. -/
def detectorAt (n : ℕ) : Detector where
  bit := (run.core n).ups.isOnbatt
  copy := run.onbattRemembered n
  inside := false

theorem ticks_of_runs {n : ℕ} (hruns : run.runs n) :
    run.ticks n =
      ((run.writesBefore n).map (testMask · upsOnbatt)).map .write ++
        (.select n ::
          ((run.writesInside n).map (testMask · upsOnbatt)).map .write ++
          if run.runs (n + 1) then [.finish] else []) := by
  unfold ticks
  rw [if_pos hruns, List.map_map, List.map_map]
  rfl

theorem after_writesBefore (n : ℕ) :
    (run.detectorAt n).after
        (((run.writesBefore n).map (testMask · upsOnbatt)).map (Tick.write : Bool → Tick ℕ)) =
      { run.detectorAt n with bit := run.onbatt n } := by
  rw [Detector.after_writes]
  have hlast := applyUpdates_test (run.pass n).updates (run.core n).ups upsOnbatt
  unfold onbatt writesBefore
  rw [show (run.seen n).ups.isOnbatt = _ from hlast]
  rfl

theorem choosesByEdge_select (n : ℕ) :
    run.choosesByEdge n { run.detectorAt n with bit := run.onbatt n } := by
  intro hcalm
  unfold Detector.fires
  change _ = (run.onbatt n && !run.onbattRemembered n)
  rw [Bool.eq_iff_iff, decide_eq_true_iff, run.branch_powerFailure_iff n]
  simp [hcalm]

/-- One pass moves the detector as its ticks do. -/
theorem detectorAt_step {n : ℕ} (hruns : run.runs n) :
    (run.detectorAt n).Alternates (run.ticks n) ∧
      (run.detectorAt n).Follows run.choosesByEdge (run.ticks n) ∧
      (run.runs (n + 1) → (run.detectorAt n).after (run.ticks n) = run.detectorAt (n + 1)) := by
  rw [run.ticks_of_runs hruns]
  let selected : Detector := { run.detectorAt n with bit := run.onbatt n, inside := true }
  have hinside : selected.after
      (((run.writesInside n).map (testMask · upsOnbatt)).map (Tick.write : Bool → Tick ℕ)) =
      { selected with bit := (run.core (n + 1)).ups.isOnbatt } := by
    rw [Detector.after_writes]
    have hreplay := run.test_succ hruns upsOnbatt (by decide)
    rw [replay_eq_getLastD] at hreplay
    rw [show (run.core (n + 1)).ups.isOnbatt = _ from hreplay]
    rfl
  have hbefore := run.after_writesBefore n
  refine ⟨?_, ?_, ?_⟩
  · refine (Detector.alternates_append _ _ _).mpr ⟨Detector.alternates_writes _ _, ?_⟩
    rw [hbefore]
    refine ⟨rfl, ?_⟩
    change selected.Alternates _
    refine (Detector.alternates_append _ _ _).mpr ⟨Detector.alternates_writes _ _, ?_⟩
    rw [hinside]
    split
    · exact ⟨rfl, trivial⟩
    · trivial
  · refine (Detector.follows_append _ _ _).mpr ⟨Detector.follows_writes _ _, ?_⟩
    rw [hbefore]
    refine ⟨run.choosesByEdge_select n, ?_⟩
    change selected.Follows _ _
    refine (Detector.follows_append _ _ _).mpr ⟨Detector.follows_writes _ _, ?_⟩
    split
    · trivial
    · trivial
  · intro hnext
    rw [if_pos hnext, Detector.after_append, hbefore]
    change selected.after (_ ++ [Tick.finish]) = _
    rw [Detector.after_append, hinside]
    unfold detectorAt
    rw [run.onbattRemembered_succ hnext]
    rfl

/-- A run is an edge detector: its passes alternate, each chooses by the edge, and
the detector follows the flag and the remembered status. -/
theorem timeline_spec (n : ℕ) :
    run.detectorStart.Alternates (run.timeline n) ∧
      run.detectorStart.Follows run.choosesByEdge (run.timeline n) ∧
      (run.runs n → run.detectorStart.after (run.timeline n) = run.detectorAt n) := by
  induction n with
  | zero =>
      refine ⟨trivial, trivial, fun _ => ?_⟩
      unfold detectorAt
      rw [run.onbattRemembered_zero]
      rfl
  | succ n ih =>
      rcases ih with ⟨halternates, hfollows, hafter⟩
      change _ ∧ _ ∧ (_ → run.detectorStart.after (run.timeline n ++ run.ticks n) = _)
      by_cases hruns : run.runs n
      · have hstep := run.detectorAt_step hruns
        rw [← hafter hruns] at hstep
        exact ⟨(Detector.alternates_append _ _ _).mpr ⟨halternates, hstep.1⟩,
          (Detector.follows_append _ _ _).mpr ⟨hfollows, hstep.2.1⟩,
          fun hnext => (Detector.after_append _ _ _).trans (hstep.2.2 hnext)⟩
      · have hnothing : run.ticks n = [] := if_neg hruns
        change run.detectorStart.Alternates (run.timeline n ++ run.ticks n) ∧
          run.detectorStart.Follows _ (run.timeline n ++ run.ticks n) ∧ _
        rw [hnothing, List.append_nil]
        exact ⟨halternates, hfollows, fun hnext =>
          absurd (run.runs_of_runs_succ hnext) hruns⟩

/-! ## Transitions to battery -/

/-- The number of {lit}`st_PowerFailure` passes that select within the ticks. -/
def powerFailures (ticks : List (Tick ℕ)) : ℕ :=
  ((Detector.selects ticks).filter fun n => run.branch n = .powerFailure).length

/-- A stretch of the timeline in which {lit}`onbatt` rises and stays set: the ticks
before the rise, and those after it up to some point before the next fall. -/
structure BatteryStretch (before during : List (Tick ℕ)) : Prop where
  timeline : ∃ n rest, run.timeline n = before ++ .write true :: (during ++ rest)
  rises : (run.detectorStart.after before).bit = false
  stays : Tick.write false ∉ during
  calm : ∀ n ∈ Detector.selects during, run.calm n
  wholePass : Detector.WholePass during

/-- The flag rises outside a pass, and it was clear at the end of the last pass. -/
def RisesOutside (before : List (Tick ℕ)) : Prop :=
  (run.detectorStart.after before).inside = false ∧
    (run.detectorStart.after before).copy = false

/-- A transition to battery that some whole pass sees is answered by exactly one
{lit}`st_PowerFailure` pass when and only when it happens outside a pass, with the
flag clear at the end of the last pass. -/
theorem powerFailure_once_iff {before during : List (Tick ℕ)}
    (hstretch : run.BatteryStretch before during) :
    run.powerFailures during = 1 ↔ run.RisesOutside before := by
  rcases hstretch.timeline with ⟨n, rest, htimeline⟩
  rcases run.timeline_spec n with ⟨halternates, hfollows, _⟩
  rw [htimeline] at halternates hfollows
  let risen : Detector := { run.detectorStart.after before with bit := true }
  have halternates' : risen.Alternates during :=
    ((Detector.alternates_append _ _ _).mp
      ((Detector.alternates_append _ _ _).mp halternates).2).1
  have hfollows' : risen.Follows run.choosesByEdge during :=
    ((Detector.follows_append _ _ _).mp ((Detector.follows_append _ _ _).mp hfollows).2).1
  have hchosen := hfollows'.mono
    (fun pass hmem _ hchooses => hchooses (hstretch.calm pass hmem))
  have hcount : run.powerFailures during = (risen.fired during).length := by
    rw [← Detector.filter_selects hchosen]
    rfl
  rw [hcount, Detector.fired_length rfl hstretch.stays halternates']
  have hselects := Detector.selects_ne_nil_of_wholePass hstretch.wholePass
  unfold RisesOutside
  change (if (run.detectorStart.after before).inside = false ∧
    (run.detectorStart.after before).copy = false ∧ _ then 1 else 0) = 1 ↔ _
  split_ifs with hcase
  · simp [hcase.1, hcase.2.1]
  · simp only [false_iff]
    exact fun houtside => hcase ⟨houtside.1, houtside.2, hselects⟩

/-! ## Examples of runs -/

/-- On battery from pass 1 on. -/
def oneTransition : CoreRun :=
  polled (defaultConfig 100) id fun
    | 0 => upsOnline
    | _ + 1 => upsOnbatt

/-- A self test at pass 1 is over at pass 2; while the driver fetches its result the
power fails, and it stays off. -/
def failureAfterSelfTest : CoreRun :=
  everySecond (defaultConfig 100) fun n =>
    { updates := [DriverUpdate.poll (upsPlugged ||| upsBattpresent |||
        if n = 0 ∨ n = 2 then upsOnline else upsOnbatt) id]
      env := { PassEnv.quiet with
        checkSelftest := [DriverUpdate.poll (upsPlugged ||| upsBattpresent ||| upsOnbatt)
          fun fields => { fields with selfTest := 101 }]
        getSelftestMsg := [DriverUpdate.poll (upsPlugged ||| upsBattpresent ||| upsOnbatt)
          id] } }

/-- The theorem at work: a power failure between two passes. -/
theorem powerFailure_once_oneTransition :
    oneTransition.powerFailures [.select 1, .finish] = 1 := by
  have hstretch : oneTransition.BatteryStretch [.write false, .select 0, .finish]
      [.select 1, .finish] := by
    refine ⟨⟨2, [], by decide +kernel⟩, by decide +kernel, by decide, ?_, ?_⟩
    · intro n hn
      obtain rfl : n = 1 := List.mem_singleton.mp hn
      exact ⟨by decide +kernel, by decide +kernel⟩
    · exact ⟨[], 1, [.finish], rfl, List.mem_singleton_self _⟩
  exact (powerFailure_once_iff oneTransition hstretch).mpr (by unfold RisesOutside; decide +kernel)

/-- A power failure while the driver fetches the result of a self test is absorbed by
the copy at the end of that pass: no pass answers it. -/
theorem powerFailure_lost_failureAfterSelfTest :
    failureAfterSelfTest.BatteryStretch
        [.write false, .select 0, .finish, .write true, .select 1, .write true, .finish,
          .write false, .select 2]
        [.finish, .write true, .select 3, .finish] ∧
      failureAfterSelfTest.powerFailures [.finish, .write true, .select 3, .finish] = 0 := by
  refine ⟨⟨⟨4, [], by decide +kernel⟩, by decide +kernel, by decide, ?_, ?_⟩,
    by decide +kernel⟩
  · intro n hn
    obtain rfl : n = 3 := List.mem_singleton.mp hn
    exact ⟨by decide +kernel, by decide +kernel⟩
  · exact ⟨[.finish, .write true], 3, [.finish], rfl, List.mem_singleton_self _⟩

end CoreRun

end Apcupsd
