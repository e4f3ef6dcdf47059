import Mathlib.Algebra.Order.Group.Int
import Mathlib.Tactic.IntervalCases
import Apcupsd.Core.CoreRun

/-!
# The low-battery timer

The timestamp {lit}`start_shut_lbatt` is taken where {lit}`do_action` compares the
{lit}`battlow` flag with the remembered status, before the state switch, and it is
used in {lit}`st_OnBattery`.

Main results:

- Theorem {lit}`CoreRun.lowBattery_step`: the step of a remembered low battery.
- Theorem {lit}`CoreRun.lowBattery_timely`: in a run whose driver calls inside a pass
  leave {lit}`battlow` as the pass found it, a low battery is neither ignored nor
  believed too early.
-/

namespace Apcupsd

open BitFlags Apcupsd.Core

/-! ## The timestamp in one pass -/

theorem stateUpdate_startShutLbatt (env : PassEnv) (branch : PassBranch) (ups : UpsInfo) :
    (stateUpdate env branch ups).startShutLbatt = ups.startShutLbatt := by
  cases branch with
  | evaluate =>
      unfold stateUpdate runtimeLimitTimer loadLimitTimer
      dsimp only
      split_ifs <;> rfl
  | _ => rfl

theorem stateUpdate_isBattlow (env : PassEnv) (branch : PassBranch) (ups : UpsInfo) :
    (stateUpdate env branch ups).isBattlow = ups.isBattlow := by
  cases branch with
  | announce => exact UpsInfo.test_set_of_disjoint (by decide) ups
  | mainsBack => exact UpsInfo.test_clear_of_disjoint (by decide) ups
  | evaluate =>
      have hload : (loadLimitTimer env ups).isBattlow = ups.isBattlow := by
        unfold loadLimitTimer
        split_ifs
        · rfl
        · exact UpsInfo.test_set_of_disjoint (by decide) ups
        · exact UpsInfo.test_clear_of_disjoint (by decide) ups
      refine Eq.trans ?_ hload
      change (runtimeLimitTimer env (loadLimitTimer env ups)).isBattlow = _
      generalize loadLimitTimer env ups = timed
      unfold runtimeLimitTimer
      split_ifs
      · rfl
      · exact UpsInfo.test_set_of_disjoint (by decide) timed
      · exact UpsInfo.test_clear_of_disjoint (by decide) timed
  | _ => rfl

/-- Outside a remote shutdown a pass stamps a battery that has just become low. -/
theorem branchUpdate_startShutLbatt (env : PassEnv) {branch : PassBranch}
    (hbranch : branch ≠ .remote) (ups : UpsInfo) :
    (branchUpdate env branch ups).startShutLbatt =
      if ups.chgBattlow && ups.isBattlow then env.now else ups.startShutLbatt := by
  have hstamp : (stampBattlow env ups).startShutLbatt =
      if ups.chgBattlow && ups.isBattlow then env.now else ups.startShutLbatt := by
    unfold stampBattlow
    split <;> rfl
  rw [← hstamp]
  cases branch with
  | remote => exact absurd rfl hbranch
  | _ => exact stateUpdate_startShutLbatt env _ _

theorem branchUpdate_isBattlow (env : PassEnv) (branch : PassBranch) (ups : UpsInfo) :
    (branchUpdate env branch ups).isBattlow = ups.isBattlow := by
  have hstamp : (stampBattlow env ups).isBattlow = ups.isBattlow := by
    unfold stampBattlow
    split <;> rfl
  cases branch with
  | remote => rfl
  | _ => exact (stateUpdate_isBattlow env _ _).trans hstamp

/-- The battery conditions are evaluated only while no shutdown is under way. -/
theorem isShutdown_of_passBranch {env : PassEnv} {ups : UpsInfo} :
    (passBranch env ups = .evaluate → ups.isShutdown = false) ∧
      (passBranch env ups = .shutdownRunning → ups.isShutdown = true) := by
  have hbattery : (batteryBranch env ups = .evaluate → ups.isShutdown = false) ∧
      (batteryBranch env ups = .shutdownRunning → ups.isShutdown = true) := by
    unfold batteryBranch
    split_ifs <;> simp_all
  unfold passBranch
  split
  · simp
  · unfold stateBranch
    cases getState ups with
    | stSelfTest =>
        dsimp only
        split
        · simp
        · exact hbattery
    | stOnBattery => exact hbattery
    | _ => simp

/-- {lit}`CMDFAILING` is the work of an evaluation with a low battery whose timestamp
is five seconds old. -/
theorem branchCommand_failing {env : PassEnv} {branch : PassBranch} {updated : UpsInfo} :
    branchCommand env branch updated = some .cmdFailing ↔
      branch = .evaluate ∧ updated.isBattlow = true ∧
        5 ≤ env.now - updated.startShutLbatt := by
  cases branch with
  | evaluate =>
      change expiredCommand env updated = some .cmdFailing ↔ _
      unfold expiredCommand
      split_ifs with hlow hload hltime
      · simp [hlow.1, hlow.2]
      · simpa using fun hbattlow helapsed => hlow ⟨hbattlow, helapsed⟩
      · simpa using fun hbattlow helapsed => hlow ⟨hbattlow, helapsed⟩
      · simpa using fun hbattlow helapsed => hlow ⟨hbattlow, helapsed⟩
  | announce => simp [branchCommand]
  | timeout => simp [branchCommand]
  | _ => simp [branchCommand]

/-! ## The timestamp in a run -/

namespace CoreRun

variable (run : CoreRun)

/-- Pass {lit}`n` sees the battery low. -/
def battlow (n : ℕ) : Prop := (run.seen n).ups.isBattlow = true

/-- Pass {lit}`n` compares the status with one in which the battery is low. -/
def battlowRemembered (n : ℕ) : Prop :=
  testMask (run.head n).prevStatus upsBattlow = true

/-- Pass {lit}`n` sees the UPS on battery with a low battery, and every pass of the
last five seconds has seen the battery low. -/
def BattlowConfirmed (n : ℕ) : Prop :=
  run.onBattery n ∧
    ∃ i, i ≤ n ∧ run.clock i ≤ run.clock n - 5 ∧ ∀ j, i ≤ j → j ≤ n → run.battlow j

/-- Every pass from {lit}`i` to {lit}`n` sees the UPS on battery, not calibrating,
with a low battery. -/
def BattlowStretch (i n : ℕ) : Prop :=
  i ≤ n ∧ ∀ j, i ≤ j → j ≤ n → run.onBattery j ∧ run.battlow j

/-- Pass {lit}`n` evaluates the battery conditions of {lit}`st_OnBattery`: it gets past
the announcement. -/
def evaluatesBattery (n : ℕ) : Prop :=
  run.runs n ∧ (run.branch n = .shutdownRunning ∨ run.branch n = .timeout ∨
    run.branch n = .evaluate)

/-- Pass {lit}`n` starts the shutdown, unless it has been started before, and the
shutdown is under way when the pass ends. -/
def StartsShutdown (n : ℕ) : Prop :=
  ((run.seen n).ups.isShutdown = true ∨ run.executes n .cmdFailing ∨
      run.executes n .cmdTimeout) ∧
    (run.core (n + 1)).ups.isShutdown = true

/-- The driver calls inside a pass leave {lit}`battlow` as the pass found it and do
not raise {lit}`shut_remote`. -/
def BattlowKept : Prop :=
  ∀ n status, run.writes n status →
    testMask status upsBattlow = (run.seen n).ups.isBattlow ∧
      (testMask status upsShutRemote = true → (run.seen n).ups.isShutRemote = true)

variable {run}

theorem isBattlow_succ (hkept : run.BattlowKept) {n : ℕ} (hruns : run.runs n) :
    (run.core (n + 1)).ups.isBattlow = (run.seen n).ups.isBattlow :=
  (run.test_succ hruns upsBattlow (by decide)).trans
    (replay_of_forall fun status hmem => (hkept n status hmem).1)

theorem isShutRemote_of_succ (hkept : run.BattlowKept) {n : ℕ} (hruns : run.runs n)
    (hremote : (run.core (n + 1)).ups.isShutRemote = true) :
    (run.seen n).ups.isShutRemote = true := by
  have hreplay := (run.test_succ hruns upsShutRemote (by decide)).symm.trans hremote
  rcases exists_of_replay hreplay with hseen | ⟨status, hmem, htest⟩
  · exact hseen
  · exact (hkept n status hmem).2 htest

theorem head_isBattlow (n : ℕ) : (run.head n).isBattlow = (run.seen n).ups.isBattlow :=
  run.head_test (by decide) n

theorem not_battlowRemembered_zero : ¬ run.battlowRemembered 0 := by
  unfold battlowRemembered
  rw [run.head_prevStatus_zero]
  decide

/-- A low battery is remembered exactly when the previous pass saw it. -/
theorem battlowRemembered_succ (hkept : run.BattlowKept) {n : ℕ} (hruns : run.runs (n + 1)) :
    run.battlowRemembered (n + 1) ↔ run.battlow n := by
  unfold battlowRemembered battlow
  rw [run.head_prevStatus hruns]
  exact iff_of_eq (congrArg (· = true) (isBattlow_succ hkept (run.runs_of_runs_succ hruns)))

/-- The pass stamps a low battery that is not remembered. -/
theorem head_chgBattlow {n : ℕ} (hlow : run.battlow n) :
    ((run.head n).chgBattlow && (run.head n).isBattlow) = true ↔
      ¬ run.battlowRemembered n := by
  rw [UpsInfo.chgBattlow_eq, head_isBattlow, show (run.seen n).ups.isBattlow = true from hlow]
  unfold battlowRemembered
  simp

/-- A pass that finds a remote shutdown pending ends with the shutdown under way,
if a request that is remembered has started it. -/
theorem isShutdown_of_remote {n : ℕ} (hruns : run.runs n)
    (hremembered : testMask (run.head n).prevStatus upsShutRemote = true →
      (run.core n).ups.isShutdown = true)
    (hremote : (run.head n).isShutRemote = true) :
    (run.core (n + 1)).ups.isShutdown = true := by
  by_cases hedge : (run.head n).chgShutRemote = true
  · rw [run.core_succ hruns]
    exact doAction_isShutdown_of_remote _ _ hremote hedge
  · -- the request is no news, so an earlier pass has acted on it
    rw [UpsInfo.chgShutRemote_eq, hremote] at hedge
    have hprev : testMask (run.head n).prevStatus upsShutRemote = true := by
      simpa using hedge
    exact run.isShutdown_succ hruns (hremembered hprev)

/-- A remote shutdown that is remembered has started the shutdown. -/
theorem isShutdown_of_remembered (hkept : run.BattlowKept) (n : ℕ) :
    run.runs n → testMask (run.head n).prevStatus upsShutRemote = true →
      (run.core n).ups.isShutdown = true := by
  induction n with
  | zero =>
      intro _ hremembered
      rw [run.head_prevStatus_zero] at hremembered
      exact absurd hremembered (by decide)
  | succ n ih =>
      intro hruns hremembered
      have hbefore : run.runs n := run.runs_of_runs_succ hruns
      rw [run.head_prevStatus hruns] at hremembered
      have hseen : (run.seen n).ups.isShutRemote = true :=
        isShutRemote_of_succ hkept hbefore hremembered
      exact isShutdown_of_remote hbefore (ih hbefore)
        ((run.head_test (by decide) n).trans hseen)

/-- While no shutdown is under way no pass is cut short by a remote shutdown. -/
theorem branch_ne_remote (hkept : run.BattlowKept) {n : ℕ} (hruns : run.runs n)
    (hshutdown : (run.core (n + 1)).ups.isShutdown = false) : run.branch n ≠ .remote := by
  intro hbranch
  have hhead : (run.head n).isShutRemote = true := by
    by_contra hclear
    have hstate : run.branch n = stateBranch (run.pass n).env (run.head n) := if_neg hclear
    exact stateBranch_ne_remote _ _ (hstate.symm.trans hbranch)
  have hstarted := isShutdown_of_remote hruns (isShutdown_of_remembered hkept n hruns) hhead
  rw [hstarted] at hshutdown
  cases hshutdown

/-- The timer of a remembered low battery runs, and no shutdown is under way. -/
def battlowArmed (run : CoreRun) (n : ℕ) : Prop :=
  run.runs n ∧ run.battlowRemembered n ∧ (run.core n).ups.isShutdown = false

/-- A pass does not stamp a low battery that is remembered. -/
theorem updated_startShutLbatt_of_remembered {n : ℕ} (hlow : run.battlow n)
    (hremembered : run.battlowRemembered n) :
    (run.updated n).startShutLbatt = (run.core n).ups.startShutLbatt := by
  have hhead : (run.head n).startShutLbatt = (run.core n).ups.startShutLbatt :=
    (congrArg CoreFields.startShutLbatt (run.head_core n) :)
  unfold updated
  by_cases hbranch : run.branch n = .remote
  · rw [hbranch]
    exact hhead
  · rw [branchUpdate_startShutLbatt _ hbranch,
      if_neg (fun hchg => (head_chgBattlow hlow).mp hchg hremembered)]
    exact hhead

/-- A pass that is not cut short stamps a low battery that is not remembered. -/
theorem updated_startShutLbatt_of_new {n : ℕ} (hbranch : run.branch n ≠ .remote)
    (hlow : run.battlow n) (hnew : ¬ run.battlowRemembered n) :
    (run.updated n).startShutLbatt = run.clock n :=
  (branchUpdate_startShutLbatt _ hbranch _).trans (if_pos ((head_chgBattlow hlow).mpr hnew))

theorem updated_startShutLbatt_le {n : ℕ}
    (hbefore : (run.core n).ups.startShutLbatt ≤ run.clock n) :
    (run.updated n).startShutLbatt ≤ run.clock n := by
  have hhead : (run.head n).startShutLbatt = (run.core n).ups.startShutLbatt :=
    (congrArg CoreFields.startShutLbatt (run.head_core n) :)
  rw [← hhead] at hbefore
  unfold updated
  by_cases hbranch : run.branch n = .remote
  · rw [hbranch]
    exact hbefore
  · rw [branchUpdate_startShutLbatt _ hbranch]
    split
    · exact le_refl (run.clock n)
    · exact hbefore

/-- A pass that leaves a low battery remembered has seen it, and either stamps it or
finds it remembered and stamped. -/
theorem lowBattery_step (hkept : run.BattlowKept) (n : ℕ)
    (harmed : run.battlowArmed (n + 1)) :
    run.battlow n ∧
      (True ∧ (run.core (n + 1)).ups.startShutLbatt = run.clock n ∨
        run.battlowArmed n ∧
          (run.core (n + 1)).ups.startShutLbatt = (run.core n).ups.startShutLbatt) := by
  rcases harmed with ⟨hruns, hremembered, hshutdown⟩
  have hbefore : run.runs n := run.runs_of_runs_succ hruns
  have hlow : run.battlow n := (battlowRemembered_succ hkept hruns).mp hremembered
  have hearlier : (run.core n).ups.isShutdown = false := by
    by_contra hstarted
    rw [run.isShutdown_succ hbefore (Bool.eq_true_of_not_eq_false hstarted)] at hshutdown
    cases hshutdown
  have hbranch : run.branch n ≠ .remote := branch_ne_remote hkept hbefore hshutdown
  refine ⟨hlow, ?_⟩
  rw [(run.after_frame hbefore).startShutLbatt]
  by_cases hwas : run.battlowRemembered n
  · exact Or.inr ⟨⟨hbefore, hwas, hearlier⟩,
      updated_startShutLbatt_of_remembered hlow hwas⟩
  · exact Or.inl ⟨trivial, updated_startShutLbatt_of_new hbranch hlow hwas⟩

/-- {lit}`CMDFAILING` is confirmed. -/
theorem battlowConfirmed_of_failing (hkept : run.BattlowKept) {n : ℕ}
    (hcommand : run.executes n .cmdFailing) : run.BattlowConfirmed n := by
  rcases (run.executes_iff rfl).mp hcommand with ⟨hruns, hbranch⟩
  rcases branchCommand_failing.mp hbranch with ⟨hevaluate, hlow, helapsed⟩
  have hnow : run.battlow n := by
    unfold updated at hlow
    rw [branchUpdate_isBattlow, head_isBattlow] at hlow
    exact hlow
  have hne : run.branch n ≠ .remote := by rw [hevaluate]; decide
  have hremembered : run.battlowRemembered n := by
    by_contra hwas
    rw [updated_startShutLbatt_of_new hne hnow hwas, clock, sub_self] at helapsed
    exact absurd helapsed (by decide)
  have hshutdown : (run.core n).ups.isShutdown = false := by
    rw [← run.head_isShutdown n]
    exact isShutdown_of_passBranch.1 hevaluate
  rw [updated_startShutLbatt_of_remembered hnow hremembered] at helapsed
  have hheld := heldSince_of_steps run.clock (fun _ => True) run.battlow run.battlowArmed
    (fun n => (run.core n).ups.startShutLbatt)
    (fun harmed => not_battlowRemembered_zero harmed.2.1) (lowBattery_step hkept) n
    ⟨hruns, hremembered, hshutdown⟩
  rcases hheld.elapsed helapsed with ⟨i, hin, hclock, -, hall⟩
  refine ⟨run.onBattery_of_branch (by rw [hevaluate]; rfl), i, hin.le, hclock, ?_⟩
  intro j hij hjn
  rcases hjn.lt_or_eq with hlt | rfl
  · exact hall j hij hlt
  · exact hnow

/-- The timestamp is never ahead of the clock. -/
theorem startShutLbatt_le_clock (n : ℕ) :
    run.runs n → (run.core n).ups.startShutLbatt ≤ run.clock n := by
  induction n with
  | zero =>
      intro _
      have hzero : (run.core 0).ups.startShutLbatt = 0 :=
        (congrArg CoreFields.startShutLbatt run.initial.fields :)
      rw [hzero]
      exact run.positive.le
  | succ n ih =>
      intro hruns
      have hbefore : run.runs n := run.runs_of_runs_succ hruns
      refine le_trans ?_ (run.clock_mono (Nat.le_succ n))
      rw [(run.after_frame hbefore).startShutLbatt]
      exact updated_startShutLbatt_le (ih hbefore)

/-- From the first pass of a stretch on battery with a low battery, the timestamp
stays at or before that pass. -/
theorem startShutLbatt_le_of_stretch (hkept : run.BattlowKept) {i n : ℕ}
    (hstretch : run.BattlowStretch i n) (hruns : run.runs n) :
    (run.updated n).startShutLbatt ≤ run.clock i := by
  rcases hstretch with ⟨hin, hall⟩
  induction n, hin using Nat.le_induction with
  | base => exact updated_startShutLbatt_le (startShutLbatt_le_clock i hruns)
  | succ n hin ih =>
      have hbefore : run.runs n := run.runs_of_runs_succ hruns
      have hprevious := ih hbefore fun j hij hjn => hall j hij (Nat.le_succ_of_le hjn)
      have hremembered : run.battlowRemembered (n + 1) :=
        (battlowRemembered_succ hkept hruns).mpr (hall n hin (Nat.le_succ n)).2
      have hlow : run.battlow (n + 1) := (hall (n + 1) (Nat.le_succ_of_le hin) le_rfl).2
      rw [updated_startShutLbatt_of_remembered hlow hremembered,
        (run.after_frame hbefore).startShutLbatt]
      exact hprevious

/-- A battery that stays low for five seconds starts the shutdown. -/
theorem startsShutdown_of_stretch (hkept : run.BattlowKept) {i n : ℕ}
    (hstretch : run.BattlowStretch i n) (helapsed : run.clock i + 5 ≤ run.clock n)
    (hevaluates : run.evaluatesBattery n) : run.StartsShutdown n := by
  rcases hevaluates with ⟨hruns, hrunning | htimeout | hevaluate⟩
  · have hshutdown : (run.core n).ups.isShutdown = true := by
      rw [← run.head_isShutdown n]
      exact isShutdown_of_passBranch.2 hrunning
    exact ⟨Or.inl ((run.seen_isShutdown n).trans hshutdown),
      run.isShutdown_succ hruns hshutdown⟩
  · have hcommand : branchCommand (run.pass n).env (run.branch n) (run.updated n) =
        some .cmdTimeout := by
      rw [htimeout]
      rfl
    exact ⟨Or.inr (Or.inr ((run.executes_iff rfl).mpr ⟨hruns, hcommand⟩)),
      run.isShutdown_of_command hruns rfl hcommand⟩
  · have hcommand : branchCommand (run.pass n).env (run.branch n) (run.updated n) =
        some .cmdFailing := by
      refine branchCommand_failing.mpr ⟨hevaluate, ?_, ?_⟩
      · unfold updated
        rw [branchUpdate_isBattlow, head_isBattlow]
        exact (hstretch.2 n hstretch.1 le_rfl).2
      · have hstamp := startShutLbatt_le_of_stretch hkept hstretch hruns
        have hnow : run.clock n = (run.pass n).env.now := rfl
        omega
    exact ⟨Or.inr (Or.inl ((run.executes_iff rfl).mpr ⟨hruns, hcommand⟩)),
      run.isShutdown_of_command hruns rfl hcommand⟩

/-- A low battery is neither believed too early nor ignored, in a run whose driver
calls inside a pass leave {lit}`battlow` as the pass found it. -/
theorem lowBattery_timely (hkept : run.BattlowKept) :
    (∀ n, run.executes n .cmdFailing → run.BattlowConfirmed n) ∧
      ∀ i n, run.BattlowStretch i n → run.clock i + 5 ≤ run.clock n →
        run.evaluatesBattery n → run.StartsShutdown n :=
  ⟨fun _ => battlowConfirmed_of_failing hkept,
    fun _ _ => startsShutdown_of_stretch hkept⟩

/-! ## Examples of runs -/

/-- On battery with a low battery from pass 1 on. -/
def longLow : CoreRun :=
  polled (defaultConfig 100) id fun
    | 0 => upsOnline
    | _ + 1 => upsOnbatt ||| upsBattlow

/-- On battery from pass 1 on; the battery becomes low while the driver answers
{lit}`DEVICE_CMD_CHECK_SELFTEST` in pass 1. -/
def lowInsidePass : CoreRun :=
  everySecond (defaultConfig 100) fun n =>
    { updates := [DriverUpdate.poll (upsPlugged ||| upsBattpresent |||
        if n = 0 then upsOnline else if n = 1 then upsOnbatt else upsOnbatt ||| upsBattlow) id]
      env := { PassEnv.quiet with
        checkSelftest := [DriverUpdate.poll
          (upsPlugged ||| upsBattpresent ||| upsOnbatt ||| upsBattlow) id] } }

/-- The theorem at work: five seconds of low battery in a run without driver calls
inside a pass. -/
theorem lowBattery_timely_longLow :
    longLow.BattlowConfirmed 6 ∧ longLow.StartsShutdown 6 := by
  have hkept : longLow.BattlowKept := by
    intro n status hwrites
    refine absurd hwrites (longLow.not_writes_of_quiet ?_ status)
    intro updates hmem
    simpa [longLow, polled, everySecond, ofPasses, PassEnv.driverCalls, PassEnv.quiet]
      using hmem
  have hstretch : longLow.BattlowStretch 1 6 := by
    refine ⟨by omega, ?_⟩
    intro j hj hj'
    unfold battlow
    interval_cases j <;> decide +kernel
  have hevaluates : longLow.evaluatesBattery 6 := by
    refine ⟨?_, Or.inr (Or.inr ?_)⟩ <;> decide +kernel
  have hcommand : longLow.executes 6 .cmdFailing := by decide +kernel
  have htimely := lowBattery_timely hkept
  exact ⟨htimely.1 6 hcommand, htimely.2 1 6 hstretch (by decide +kernel) hevaluates⟩

/-- A battery that becomes low inside a pass is never stamped, so that the next pass
shuts the machine down at once. -/
theorem lowBattery_not_timely_lowInsidePass :
    lowInsidePass.executes 2 .cmdFailing ∧ ¬ lowInsidePass.BattlowConfirmed 2 := by
  refine ⟨by decide +kernel, ?_⟩
  rintro ⟨_, i, _, hclock, _⟩
  change (100 + i : Int) ≤ 100 + (2 : ℕ) - 5 at hclock
  omega

end CoreRun

end Apcupsd
