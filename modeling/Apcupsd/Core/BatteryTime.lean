import Apcupsd.Core.Transitions
import Apcupsd.Foundations.Periods

/-!
# The cumulative time on battery

{lit}`cum_time_on_batt` grows in {lit}`st_MainsBack` by the time since
{lit}`last_onbatt_time`, which {lit}`st_PowerFailure` records.

Main results:

- Theorem {lit}`CoreRun.lastOnbattTime_of_period`: at the end of a recorded period
  the stored start is its start.
- Theorem {lit}`CoreRun.batteryTime_exact`: in a run whose completed periods on
  battery are recorded, the cumulative time is the total of the completed periods.
- Theorem {lit}`CoreRun.periodsRecorded_of_calm`: without calibrations, remote
  shutdowns and driver calls that change {lit}`onbatt`, all periods are recorded.
-/

namespace Apcupsd

open BitFlags Apcupsd.Core

/-! ## The account in one pass -/

theorem branchUpdate_account (env : PassEnv) {branch : PassBranch}
    (hbranch : branch ≠ .mainsBack) (ups : UpsInfo) :
    (branchUpdate env branch ups).cumTimeOnBatt = ups.cumTimeOnBatt ∧
      (branchUpdate env branch ups).lastOnbattTime =
        if branch = .powerFailure then env.now else ups.lastOnbattTime := by
  have hstamp : (stampBattlow env ups).cumTimeOnBatt = ups.cumTimeOnBatt ∧
      (stampBattlow env ups).lastOnbattTime = ups.lastOnbattTime := by
    unfold stampBattlow
    split <;> exact ⟨rfl, rfl⟩
  cases branch with
  | mainsBack => exact absurd rfl hbranch
  | remote => exact ⟨rfl, rfl⟩
  | powerFailure => exact ⟨hstamp.1, rfl⟩
  | evaluate =>
      rw [if_neg (by decide), ← hstamp.1, ← hstamp.2]
      change (runtimeLimitTimer env (loadLimitTimer env (stampBattlow env ups))).cumTimeOnBatt
          = _ ∧
        (runtimeLimitTimer env (loadLimitTimer env (stampBattlow env ups))).lastOnbattTime = _
      unfold runtimeLimitTimer loadLimitTimer
      split_ifs <;> exact ⟨rfl, rfl⟩
  | _ => exact hstamp

/-- The return of mains adds the time since the stored start. -/
theorem branchUpdate_mainsBack_account (env : PassEnv) {ups : UpsInfo}
    (hstart : 0 < ups.lastOnbattTime) :
    (branchUpdate env .mainsBack ups).cumTimeOnBatt =
      ups.cumTimeOnBatt + (env.now - ups.lastOnbattTime) := by
  have hstamp : (stampBattlow env ups).cumTimeOnBatt = ups.cumTimeOnBatt ∧
      (stampBattlow env ups).lastOnbattTime = ups.lastOnbattTime := by
    unfold stampBattlow
    split <;> exact ⟨rfl, rfl⟩
  change (stampBattlow env ups).cumTimeOnBatt +
    (env.now - if (stampBattlow env ups).lastOnbattTime ≤ 0 then env.now
      else (stampBattlow env ups).lastOnbattTime) = _
  rw [hstamp.1, hstamp.2, if_neg (not_le.mpr hstart)]

/-! ## The account of a run -/

namespace CoreRun

variable (run : CoreRun)

/-- Every completed period on battery begins with the only {lit}`st_PowerFailure` pass
in it and is ended by a {lit}`st_MainsBack` pass, and {lit}`st_MainsBack` occurs nowhere
else. -/
def PeriodsRecorded : Prop :=
  ∀ n, run.runs n →
    (run.branch n = .mainsBack → ∃ i, Period run.onbatt i n) ∧
      ∀ i, Period run.onbatt i n →
        run.branch n = .mainsBack ∧ run.branch i = .powerFailure ∧
          ∀ j, i < j → j < n → run.branch j ≠ .powerFailure

/-- After pass {lit}`n` the cumulative time on battery is the total duration of the
periods completed so far, and at most the time since the first pass. -/
def BatteryTimeExact (n : ℕ) : Prop :=
  (run.core (n + 1)).ups.cumTimeOnBatt = periodTotal run.clock run.onbatt (n + 1) ∧
    (run.core (n + 1)).ups.cumTimeOnBatt ≤ run.clock n - run.clock 0

variable {run}

theorem head_account (n : ℕ) :
    (run.head n).cumTimeOnBatt = (run.core n).ups.cumTimeOnBatt ∧
      (run.head n).lastOnbattTime = (run.core n).ups.lastOnbattTime :=
  ⟨(congrArg CoreFields.cumTimeOnBatt (run.head_core n) :),
    (congrArg CoreFields.lastOnbattTime (run.head_core n) :)⟩

theorem branch_ne_mainsBack {n : ℕ} (hon : run.onbatt n = true) :
    run.branch n ≠ .mainsBack := by
  intro hbranch
  have hoff := ((run.branch_mainsBack_iff n).mp hbranch).2.1
  rw [hon] at hoff
  cases hoff

/-- At the end of a recorded period the stored start is its start. -/
theorem lastOnbattTime_of_period (hrecorded : run.PeriodsRecorded) {i n : ℕ}
    (hperiod : Period run.onbatt i n) (hruns : run.runs n) :
    (run.core n).ups.lastOnbattTime = run.clock i := by
  rcases (hrecorded n hruns).2 i hperiod with ⟨_, hbegin, hinside⟩
  have hstored : ∀ m, i + 1 ≤ m → m ≤ n →
      (run.core m).ups.lastOnbattTime = run.clock i := by
    intro m him
    induction m, him using Nat.le_induction with
    | base =>
        intro hin
        have hruns' : run.runs i := run.runs_of_le hruns (by omega)
        have hne : run.branch i ≠ .mainsBack := by rw [hbegin]; decide
        rw [(run.after_frame hruns').lastOnbattTime]
        exact (branchUpdate_account _ hne _).2.trans (if_pos hbegin)
    | succ m him ih =>
        intro hmn
        have hruns' : run.runs m := run.runs_of_le hruns (by omega)
        have hne : run.branch m ≠ .mainsBack :=
          branch_ne_mainsBack (hperiod.2.2.1 m (by omega) (by omega))
        rw [(run.after_frame hruns').lastOnbattTime]
        refine (branchUpdate_account _ hne _).2.trans ?_
        rw [if_neg (hinside m (by omega) (by omega)), (head_account m).2]
        exact ih (by omega)
  exact hstored n hperiod.1 le_rfl

/-- The account of one pass: it grows by the period that the pass completes. -/
theorem batteryTime_step (hrecorded : run.PeriodsRecorded) {n : ℕ} (hruns : run.runs n)
    (hexact : (run.core n).ups.cumTimeOnBatt = periodTotal run.clock run.onbatt n) :
    (run.core (n + 1)).ups.cumTimeOnBatt = periodTotal run.clock run.onbatt (n + 1) := by
  rw [(run.after_frame hruns).cumTimeOnBatt]
  unfold updated
  by_cases hback : run.branch n = .mainsBack
  · rcases (hrecorded n hruns).1 hback with ⟨i, hperiod⟩
    have hstart : (run.head n).lastOnbattTime = run.clock i :=
      (head_account n).2.trans (lastOnbattTime_of_period hrecorded hperiod hruns)
    have hpositive : 0 < run.clock i := run.positive.trans_le (run.clock_mono (Nat.zero_le i))
    rw [periodTotal_succ_of_period hperiod, hback,
      branchUpdate_mainsBack_account _ (by rw [hstart]; exact hpositive),
      (head_account n).1, hexact, hstart]
    rfl
  · have hnone : ∀ i, ¬ Period run.onbatt i n := fun i hperiod =>
      hback ((hrecorded n hruns).2 i hperiod).1
    rw [periodTotal_succ_of_none hnone, (branchUpdate_account _ hback _).1,
      (head_account n).1, hexact]

theorem cumTimeOnBatt_eq (hrecorded : run.PeriodsRecorded) (n : ℕ) :
    run.runs n → (run.core n).ups.cumTimeOnBatt = periodTotal run.clock run.onbatt n := by
  induction n with
  | zero =>
      intro _
      exact (congrArg CoreFields.cumTimeOnBatt run.initial.fields :)
  | succ n ih =>
      intro hruns
      have hbefore : run.runs n := run.runs_of_runs_succ hruns
      exact batteryTime_step hrecorded hbefore (ih hbefore)

/-- The cumulative time on battery is exact, in a run whose completed periods on
battery are recorded. -/
theorem batteryTime_exact (hrecorded : run.PeriodsRecorded) :
    ∀ n, run.runs n → run.branch n = .mainsBack → run.BatteryTimeExact n := by
  intro n hruns _
  have hexact := batteryTime_step hrecorded hruns (cumTimeOnBatt_eq hrecorded n hruns)
  refine ⟨hexact, ?_⟩
  rw [hexact]
  exact periodTotal_succ_le_elapsed (fun _ _ => run.clock_mono) n

/-- Without calibrations, remote shutdowns and driver calls that change
{lit}`onbatt`, all periods are recorded. -/
theorem periodsRecorded_of_calm (hcalm : ∀ n, run.runs n → run.calm n)
    (hkept : ∀ n status, run.writes n status →
      testMask status upsOnbatt = run.onbatt n) : run.PeriodsRecorded := by
  have hremembered : ∀ n, run.runs (n + 1) → run.onbattRemembered (n + 1) = run.onbatt n := by
    intro n hruns
    rw [run.onbattRemembered_succ hruns]
    exact (run.test_succ (run.runs_of_runs_succ hruns) upsOnbatt (by decide)).trans
      (replay_of_forall fun status hmem => hkept n status hmem)
  intro n hruns
  refine ⟨?_, ?_⟩
  · intro hback
    rcases (run.branch_mainsBack_iff n).mp hback with ⟨_, hoff, hwas⟩
    rcases n with _ | n
    · rw [run.onbattRemembered_zero] at hwas
      cases hwas
    · rw [hremembered n hruns] at hwas
      exact exists_period hwas hoff
  · rintro i ⟨hin, hbegin, hall, hoff⟩
    refine ⟨?_, ?_, ?_⟩
    · obtain ⟨m, rfl⟩ : ∃ m, n = m + 1 := ⟨n - 1, by omega⟩
      refine (run.branch_mainsBack_iff _).mpr ⟨(hcalm _ hruns).2, hoff, ?_⟩
      rw [hremembered m hruns]
      exact hall m (by omega) (Nat.lt_succ_self m)
    · have hruns' : run.runs i := run.runs_of_le hruns hin.le
      refine (run.branch_powerFailure_iff i).mpr
        ⟨hcalm i hruns', hall i le_rfl hin, ?_⟩
      rcases hbegin with rfl | hbefore
      · exact run.onbattRemembered_zero
      · rcases i with _ | i
        · exact run.onbattRemembered_zero
        · rw [hremembered i hruns']
          exact hbefore
    · intro j hij hjn hfailure
      obtain ⟨m, rfl⟩ : ∃ m, j = m + 1 := ⟨j - 1, by omega⟩
      have hruns' : run.runs (m + 1) := run.runs_of_le hruns hjn.le
      have hclear := ((run.branch_powerFailure_iff _).mp hfailure).2.2
      rw [hremembered m hruns', hall m (by omega) (by omega)] at hclear
      cases hclear

/-! ## Examples of runs -/

/-- One outage, at passes 1 and 2. -/
def briefOutage : CoreRun :=
  polled (defaultConfig 100) id fun n => if n = 1 ∨ n = 2 then upsOnbatt else upsOnline

/-- The same outage, and a calibration at pass 4. -/
def calibrationAfterOutage : CoreRun :=
  polled (defaultConfig 100) id fun n =>
    if n = 1 ∨ n = 2 then upsOnbatt
    else if n = 4 then upsOnbatt ||| upsCalibration
    else upsOnline

/-- The theorem at work: the time of one outage. -/
theorem batteryTime_exact_briefOutage : briefOutage.BatteryTimeExact 3 := by
  have hcalm : ∀ n, briefOutage.runs n → briefOutage.calm n := by
    intro n _
    by_cases hn : n = 1 ∨ n = 2
    · rcases hn with rfl | rfl <;> exact ⟨by decide +kernel, by decide +kernel⟩
    · have hword : ∀ mask : StatusWord, coreBits &&& mask = 0 →
          (briefOutage.seen n).ups.test mask =
            testMask (upsPlugged ||| upsBattpresent ||| upsOnline) mask := by
        intro mask hmask
        refine (DriverUpdate.poll_test hmask _ id _).trans ?_
        dsimp only
        rw [if_neg hn]
      exact ⟨hword upsCalibration (by decide), hword upsShutRemote (by decide)⟩
  have hkept : ∀ n status, briefOutage.writes n status →
      testMask status upsOnbatt = briefOutage.onbatt n := by
    intro n status hwrites
    refine absurd hwrites (briefOutage.not_writes_of_quiet ?_ status)
    intro updates hmem
    simpa [briefOutage, polled, everySecond, ofPasses, PassEnv.driverCalls, PassEnv.quiet]
      using hmem
  exact batteryTime_exact (periodsRecorded_of_calm hcalm hkept) 3 (by decide +kernel)
    (by decide +kernel)

/-- The return of mains after the calibration adds the time since the earlier outage
began: six seconds, of five that have elapsed and three on battery. -/
theorem batteryTime_not_exact_calibrationAfterOutage :
    calibrationAfterOutage.runs 5 ∧ calibrationAfterOutage.branch 5 = .mainsBack ∧
      ¬ calibrationAfterOutage.BatteryTimeExact 5 := by
  refine ⟨by decide +kernel, by decide +kernel, ?_⟩
  rintro ⟨_, hbound⟩
  have hsix : (calibrationAfterOutage.core 6).ups.cumTimeOnBatt = 6 := by decide +kernel
  have helapsed : calibrationAfterOutage.clock 5 - calibrationAfterOutage.clock 0 = 5 := by
    decide +kernel
  rw [hsix, helapsed] at hbound
  exact absurd hbound (by decide)

end CoreRun

end Apcupsd
