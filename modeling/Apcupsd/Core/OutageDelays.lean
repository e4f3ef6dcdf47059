import Mathlib.Algebra.Order.Group.Int
import Apcupsd.Core.CoreRun

/-!
# The delays of an outage

{lit}`onbattdelay` and {lit}`maxtime` are both measured from
{lit}`last_time_on_line`, which is refreshed on mains, at a power failure and by the
announcement.

Main results:

- Theorem {lit}`CoreRun.onLine_step`: the step of the timestamp inside an outage.
- Theorem {lit}`CoreRun.delays_confirmed`: in a run whose outages begin with a power
  failure, both delays are measured within the current outage.
-/

namespace Apcupsd

open BitFlags Apcupsd.Core

/-! ## The timestamp in one pass -/

/-- The branches that refresh {lit}`last_time_on_line`. -/
def PassBranch.refreshes : PassBranch → Bool
  | .onMains | .powerFailure | .announce => true
  | _ => false

theorem branchUpdate_lastTimeOnLine (env : PassEnv) (branch : PassBranch) (ups : UpsInfo) :
    (branchUpdate env branch ups).lastTimeOnLine =
      if branch.refreshes then env.now else ups.lastTimeOnLine := by
  have hstamp : (stampBattlow env ups).lastTimeOnLine = ups.lastTimeOnLine := by
    unfold stampBattlow
    split <;> rfl
  cases branch with
  | remote => rfl
  | onMains => rfl
  | powerFailure => rfl
  | announce => rfl
  | evaluate =>
      refine Eq.trans ?_ hstamp
      change (runtimeLimitTimer env (loadLimitTimer env (stampBattlow env ups))).lastTimeOnLine
        = _
      unfold runtimeLimitTimer loadLimitTimer
      split_ifs <;> rfl
  | _ => exact hstamp

/-- What a pass in each of the two branches has tested. -/
theorem delay_of_passBranch {env : PassEnv} {ups : UpsInfo} :
    (passBranch env ups = .announce →
        ups.onbattdelay ≤ env.announceTime - ups.lastTimeOnLine) ∧
      (passBranch env ups = .timeout → ups.maxtime < env.now - ups.lastTimeOnLine) := by
  refine ⟨fun hbranch => ?_, fun hbranch => ?_⟩
  · have hbattery := batteryBranch_of_passBranch (by rw [hbranch]; rfl)
    have hannounce := batteryBranch_tests.1 (hbattery.trans hbranch)
    unfold announceDue at hannounce
    simp_all
  · have hbattery := batteryBranch_of_passBranch (by rw [hbranch]; rfl)
    have htimeout := (batteryBranch_tests.2.2.1 (hbattery.trans hbranch)).2
    unfold timeoutDue at htimeout
    simp_all

/-- A pass that remembers the battery as off and sees the UPS on battery does not
take an arm of {lit}`st_OnBattery`. -/
theorem refreshes_of_chgOnbatt {env : PassEnv} {ups : UpsInfo}
    (hchange : ups.chgOnbatt = true) (hbattery : (passBranch env ups).onBattery = true) :
    passBranch env ups = .powerFailure := by
  rcases PassBranch.onBattery_passBranch hbattery with ⟨honbatt, hcalibration⟩
  have hstate : getState ups = .stPowerFailure := by
    simp [getState, honbatt, hcalibration, hchange]
  unfold passBranch at hbattery ⊢
  split_ifs at hbattery ⊢ with hremote
  · cases hbattery
  · unfold stateBranch
    rw [hstate]

/-! ## The timestamp in a run -/

namespace CoreRun

variable (run : CoreRun)

/-- {lit}`CMDONBATTERY` of pass {lit}`n` is confirmed: the UPS has been on battery, not
calibrating, at every pass since one at least {lit}`onbattdelay` ago. -/
def OnbatteryConfirmed (n : ℕ) : Prop :=
  ∃ i, i ≤ n ∧
    run.clock i ≤ (run.pass n).env.announceTime - (run.seen n).ups.onbattdelay ∧
    ∀ j, i ≤ j → j ≤ n → run.onBattery j

/-- {lit}`CMDTIMEOUT` of pass {lit}`n` is confirmed: the UPS has been on battery, not
calibrating, at every pass since one more than {lit}`maxtime` ago. -/
def TimeoutConfirmed (n : ℕ) : Prop :=
  ∃ i, i ≤ n ∧ run.clock i < run.clock n - (run.seen n).ups.maxtime ∧
    ∀ j, i ≤ j → j ≤ n → run.onBattery j

/-- Every stretch of passes on battery that begins after the first pass begins with
{lit}`st_PowerFailure`. -/
def OutagesBegin : Prop :=
  ∀ n, run.runs (n + 1) → run.onBattery (n + 1) → ¬ run.onBattery n →
    run.branch (n + 1) = .powerFailure

/-- Pass {lit}`n` continues an outage. -/
def continuesOutage (n : ℕ) : Prop :=
  n ≠ 0 ∧ run.runs n ∧ run.onBattery n ∧ run.branch n ≠ .powerFailure

variable {run}

/-- The first pass takes no arm of {lit}`st_OnBattery`. -/
theorem branch_zero (hbattery : (run.branch 0).onBattery = true) :
    run.branch 0 = .powerFailure := by
  refine refreshes_of_chgOnbatt ?_ hbattery
  rw [UpsInfo.chgOnbatt_eq, run.head_prevStatus_zero,
    (PassBranch.onBattery_passBranch hbattery).1]
  decide

theorem head_lastTimeOnLine_zero : (run.head 0).lastTimeOnLine = run.clock 0 := by
  rw [(run.head_timer 0).lastTimeOnLine]
  have hfirst : (run.seen 0).first = true := run.initial.first
  unfold firstCall
  rw [if_pos hfirst]
  rfl

theorem head_lastTimeOnLine_succ {n : ℕ} (hruns : run.runs n) :
    (run.head (n + 1)).lastTimeOnLine =
      if (run.branch n).refreshes then run.clock n else (run.head n).lastTimeOnLine := by
  have hseen : (run.seen (n + 1)).ups.lastTimeOnLine = (run.core (n + 1)).ups.lastTimeOnLine :=
    (congrArg CoreFields.lastTimeOnLine (run.seen_frame (n + 1)).core :)
  rw [(run.head_timer_succ hruns).lastTimeOnLine, hseen,
    (run.after_frame hruns).lastTimeOnLine]
  exact branchUpdate_lastTimeOnLine _ _ _

/-- Inside an outage the timestamp is the time of an earlier pass of the same
outage. -/
theorem onLine_step (hbegin : run.OutagesBegin) (n : ℕ)
    (hcontinues : run.continuesOutage (n + 1)) :
    run.onBattery n ∧
      (True ∧ (run.head (n + 1)).lastTimeOnLine = run.clock n ∨
        run.continuesOutage n ∧
          (run.head (n + 1)).lastTimeOnLine = (run.head n).lastTimeOnLine) := by
  rcases hcontinues with ⟨_, hruns, honbattery, hbranch⟩
  have hbefore : run.runs n := run.runs_of_runs_succ hruns
  have hearlier : run.onBattery n := by
    by_contra hoff
    exact hbranch (hbegin n hruns honbattery hoff)
  refine ⟨hearlier, ?_⟩
  rw [head_lastTimeOnLine_succ hbefore]
  split_ifs with hrefresh
  · exact Or.inl ⟨trivial, rfl⟩
  · rcases n with _ | n
    · exact Or.inl ⟨trivial, head_lastTimeOnLine_zero⟩
    · refine Or.inr ⟨⟨Nat.succ_ne_zero n, hbefore, hearlier, ?_⟩, rfl⟩
      intro hfailure
      rw [hfailure] at hrefresh
      exact hrefresh rfl

/-- A pass in an arm of {lit}`st_OnBattery` has a timestamp of its own outage. -/
theorem onLine_held (hbegin : run.OutagesBegin) {n : ℕ} (hruns : run.runs n)
    (hbattery : (run.branch n).onBattery = true) (hfailure : run.branch n ≠ .powerFailure) :
    HeldSince run.clock (fun _ => True) run.onBattery n (run.head n).lastTimeOnLine := by
  refine heldSince_of_steps run.clock (fun _ => True) run.onBattery run.continuesOutage
    (fun n => (run.head n).lastTimeOnLine) (fun hzero => hzero.1 rfl)
    (onLine_step hbegin) n ⟨?_, hruns, run.onBattery_of_branch hbattery, hfailure⟩
  rintro rfl
  exact hfailure (branch_zero hbattery)

theorem onBattery_upto {i n : ℕ} (hall : ∀ j, i ≤ j → j < n → run.onBattery j)
    (hnow : run.onBattery n) : ∀ j, i ≤ j → j ≤ n → run.onBattery j := by
  intro j hij hjn
  rcases hjn.lt_or_eq with hlt | rfl
  · exact hall j hij hlt
  · exact hnow

theorem branchCommand_delay {env : PassEnv} {branch : PassBranch} {updated : UpsInfo} :
    (branchCommand env branch updated = some .cmdOnbattery → branch = .announce) ∧
      (branchCommand env branch updated = some .cmdTimeout → branch = .timeout) := by
  cases branch with
  | evaluate =>
      change (expiredCommand env updated = _ → _) ∧ (expiredCommand env updated = _ → _)
      unfold expiredCommand
      split_ifs <;> simp
  | _ => simp [branchCommand]

theorem onbatteryConfirmed (hbegin : run.OutagesBegin) {n : ℕ}
    (hcommand : run.executes n .cmdOnbattery) : run.OnbatteryConfirmed n := by
  rcases (run.executes_iff rfl).mp hcommand with ⟨hruns, hbranch⟩
  have hannounce : run.branch n = .announce := branchCommand_delay.1 hbranch
  have hbattery : (run.branch n).onBattery = true := by rw [hannounce]; rfl
  have hheld := onLine_held hbegin hruns hbattery (by rw [hannounce]; decide)
  have hdelay := delay_of_passBranch.1 hannounce
  rw [run.head_config n] at hdelay
  rcases hheld.elapsed hdelay with ⟨i, hin, hclock, -, hall⟩
  exact ⟨i, hin.le, hclock, onBattery_upto hall (run.onBattery_of_branch hbattery)⟩

theorem timeoutConfirmed (hbegin : run.OutagesBegin) {n : ℕ}
    (hcommand : run.executes n .cmdTimeout) : run.TimeoutConfirmed n := by
  rcases (run.executes_iff rfl).mp hcommand with ⟨hruns, hbranch⟩
  have htimeout : run.branch n = .timeout := branchCommand_delay.2 hbranch
  have hbattery : (run.branch n).onBattery = true := by rw [htimeout]; rfl
  rcases onLine_held hbegin hruns hbattery (by rw [htimeout]; decide) with
    ⟨i, hin, hclock, -, hall⟩
  have hdelay := delay_of_passBranch.2 htimeout
  rw [run.head_config n, ← hclock] at hdelay
  have hnow : run.clock n = (run.pass n).env.now := rfl
  exact ⟨i, hin.le, by omega, onBattery_upto hall (run.onBattery_of_branch hbattery)⟩

/-- Both delays are measured within the current outage, in a run whose outages
begin with a power failure. -/
theorem delays_confirmed (hbegin : run.OutagesBegin) :
    (∀ n, run.executes n .cmdOnbattery → run.OnbatteryConfirmed n) ∧
      ∀ n, run.executes n .cmdTimeout → run.TimeoutConfirmed n :=
  ⟨fun _ => onbatteryConfirmed hbegin, fun _ => timeoutConfirmed hbegin⟩

/-! ## Examples of runs -/

/-- On battery from pass 1 on, with a time limit of five seconds. -/
def shortLimit : CoreRun :=
  polled { defaultConfig 100 with maxtime := 5 } id fun
    | 0 => upsOnline
    | _ + 1 => upsOnbatt

/-- A calibration from pass 1 to pass 8 that ends on battery. -/
def afterCalibration : CoreRun :=
  polled (defaultConfig 100) id fun n =>
    if n = 0 then upsOnline
    else if n ≤ 8 then upsOnbatt ||| upsCalibration
    else upsOnbatt

/-- The theorem at work: the announcement and the time limit of one outage. -/
theorem delays_confirmed_shortLimit :
    shortLimit.OnbatteryConfirmed 7 ∧ shortLimit.TimeoutConfirmed 13 := by
  have hbegin : shortLimit.OutagesBegin := by
    intro n _ _ hoff
    rcases n with _ | n
    · decide +kernel
    · have hword : testMask (upsPlugged ||| upsBattpresent ||| upsOnbatt) upsOnbatt = true ∧
          testMask (upsPlugged ||| upsBattpresent ||| upsOnbatt) upsCalibration = false := by
        decide
      exact absurd (polled_onBattery _ _ hword.1 hword.2) hoff
  have hconfirmed := delays_confirmed hbegin
  exact ⟨hconfirmed.1 7 (by decide +kernel), hconfirmed.2 13 (by decide +kernel)⟩

/-- The timestamp of the mains before a calibration counts the calibration as time
on battery: the first pass after it announces the outage. -/
theorem delays_not_confirmed_afterCalibration :
    afterCalibration.executes 9 .cmdOnbattery ∧ ¬ afterCalibration.OnbatteryConfirmed 9 := by
  refine ⟨by decide +kernel, ?_⟩
  rintro ⟨i, _, hclock, hall⟩
  have hearly : i ≤ 8 := by
    change (100 + i : Int) ≤ 100 + (9 : ℕ) - 6 at hclock
    omega
  have hcalibrating : ¬ afterCalibration.onBattery 8 := by decide +kernel
  exact hcalibrating (hall 8 hearly (by omega))

end CoreRun

end Apcupsd
