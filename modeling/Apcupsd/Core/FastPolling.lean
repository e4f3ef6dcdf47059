import Apcupsd.Core.ShutdownAction

/-!
# Fast polling

{lit}`fastpoll` shortens the wait between two polls.  {lit}`st_PowerFailure` and the shutdown
raise it, {lit}`st_OnMains` drops it, and the network driver copies it from its master.

Main results:

- Theorem {lit}`deviceWaitTime_of_fastpoll`: with the flag the wait is the short one.
- Theorem {lit}`CoreRun.isFastpoll_iff`: the flag after a pass.
- Theorem {lit}`CoreRun.polling_fast_iff`: polling on battery is fast in the runs in which
  something has raised the flag since the last pass on mains.
- Theorem {lit}`CoreRun.polling_slow_calibrationEnds`: a calibration that ends on battery
  raises nothing.
-/

namespace Apcupsd

open BitFlags Apcupsd.Core

/-- With the flag the wait is the short one, whatever the other periods are. -/
theorem deviceWaitTime_of_fastpoll {ups : UpsInfo} (hfast : ups.isFastpoll = true) :
    deviceWaitTime ups = timerFast := by
  unfold deviceWaitTime timerFast
  rw [hfast, Bool.true_or, if_pos rfl]
  dsimp only
  split_ifs <;> omega

/-! ## The flag after a pass -/

/-- The update may raise the flag, but it honours {lit}`UPS_LOCAL_BITS` and never drops
it. -/
def DriverUpdate.KeepsFastpoll (update : DriverUpdate) : Prop :=
  ∀ ups, ups.isFastpoll = true → (update.apply ups).isFastpoll = true

/-- The update leaves the flag alone. -/
def DriverUpdate.LeavesFastpoll (update : DriverUpdate) : Prop :=
  ∀ ups, (update.apply ups).isFastpoll = ups.isFastpoll

theorem applyUpdates_isFastpoll {updates : List DriverUpdate}
    (hleaves : ∀ update ∈ updates, update.LeavesFastpoll) (ups : UpsInfo) :
    (applyUpdates updates ups).isFastpoll = ups.isFastpoll :=
  applyUpdates_invariant (P := fun after => after.isFastpoll = ups.isFastpoll)
    (fun update hmem before hbefore => (hleaves update hmem before).trans hbefore) rfl

/-- Outside the two arms that write the flag only {lit}`do_shutdown` raises it. -/
theorem OwnWrite.isFastpoll_eq {branch : PassBranch} {cancels : Bool}
    (hfailure : branch ≠ .powerFailure) (hmains : branch ≠ .onMains) {ups after : UpsInfo}
    (hwrite : OwnWrite branch cancels ups after) : after.isFastpoll = ups.isFastpoll := by
  cases hwrite with
  | raise hmask => exact UpsInfo.test_set_of_disjoint (and_eq_zero_of_inside (by decide) hmask) _
  | drop hmask => exact UpsInfo.test_clear_of_disjoint (and_eq_zero_of_inside (by decide) hmask) _
  | shutdown => exact UpsInfo.test_set_of_disjoint (by decide) _
  | fastpoll hguard => exact absurd hguard hfailure
  | slowpoll hguard => exact absurd hguard hmains
  | fields => rfl
  | selfTest => rfl

section Pass

variable {env : PassEnv} {core : Core}
  (hleaves : ∀ updates ∈ env.driverCalls, ∀ update ∈ updates, update.LeavesFastpoll)

include hleaves

/-- Outside the two arms that write the flag a pass raises it by a shutdown. -/
theorem doAction_isFastpoll_iff (hlog : core.log = [])
    (hfailure : passBranch env (passHead env core).ups ≠ .powerFailure)
    (hmains : passBranch env (passHead env core).ups ≠ .onMains) :
    (doAction env core).ups.isFastpoll = true ↔
      core.ups.isFastpoll = true ∨
        Effect.deleteLockfile ∈ (doAction env core).trace Effect.ofShutdown := by
  refine (doAction_writes env core).invariant (P := FlagFits upsFastpoll core.ups.isFastpoll)
    (fun hwrite => hwrite.flagFits (OwnWrite.isFastpoll_eq hfailure hmains) ?_ ?_)
    (flagFits_firstCall env upsFastpoll hlog)
  · exact fun updates hupdates ups =>
      applyUpdates_isFastpoll (hleaves updates (driverCalls_of_branchCalls hupdates)) ups
  · exact fun ups => UpsInfo.test_set_self ups.setShutdown upsFastpoll

/-- In the arm of {lit}`st_PowerFailure` no statement drops the flag. -/
theorem PassWrite.isFastpoll_of_powerFailure {cancels : Bool} {before after : Core}
    (hwrite : PassWrite env .powerFailure cancels before after)
    (hfast : before.ups.isFastpoll = true) : after.ups.isFastpoll = true := by
  have hprohibit : ∀ core : Core, (prohibitLogins core).ups.isFastpoll = core.ups.isFastpoll := by
    intro core
    unfold prohibitLogins
    split <;> rfl
  cases hwrite with
  | own hown =>
      cases hown with
      | raise hmask =>
          exact (UpsInfo.test_set_of_disjoint (and_eq_zero_of_inside (by decide) hmask) _).trans
            hfast
      | drop hmask =>
          exact (UpsInfo.test_clear_of_disjoint (and_eq_zero_of_inside (by decide) hmask) _).trans
            hfast
      | fastpoll => exact UpsInfo.test_set_self _ _
      | shutdown hguard => cases hguard
      | slowpoll hguard => cases hguard
      | fields => exact hfast
      | selfTest => exact hfast
  | unlock => exact UpsInfo.test_set_self _ _
  | prohibit => exact (hprohibit before).trans hfast
  | powerfail => exact (hprohibit _).trans hfast
  | driver hupdates =>
      rw [driverCall_ups, applyUpdates_isFastpoll
        (hleaves _ (driverCalls_of_branchCalls hupdates))]
      exact hfast
  | emit => exact hfast
  | exit => exact hfast
  | logoff => exact hfast

/-- A {lit}`st_PowerFailure` pass ends with the flag. -/
theorem doAction_isFastpoll_of_powerFailure
    (hbranch : passBranch env (passHead env core).ups = .powerFailure) :
    (doAction env core).ups.isFastpoll = true := by
  rcases getState_of_passBranch (.inr (.inl ⟨hbranch, rfl⟩)) with ⟨hremote, hstate⟩
  let ready := batteryEdges env (passHead env core)
  have hwrites : PassWrites env .powerFailure false (ready.mapUps UpsInfo.setFastpoll)
      (doPowerFailure env ready) :=
    doPowerFailure_writes_of_fastpoll rfl .refl
  have hfast : (doPowerFailure env ready).ups.isFastpoll = true := by
    refine hwrites.invariant (P := fun after => after.ups.isFastpoll = true)
      (fun hwrite hbefore => hwrite.isFastpoll_of_powerFailure hleaves hbefore) ?_
    exact UpsInfo.test_set_self ready.ups upsFastpoll
  rw [doAction_of_getState hremote hstate]
  refine andThen_rel (P := fun after => after.ups.isFastpoll = true) hfast ?_
  exact (congrArg (testMask · upsFastpoll) (passTail_ups env _).1).trans hfast

end Pass

/-- A pass on mains ends without the flag. -/
theorem doAction_isFastpoll_of_onMains {env : PassEnv} {core : Core}
    (hbranch : passBranch env (passHead env core).ups = .onMains) :
    (doAction env core).ups.isFastpoll = false := by
  rcases getState_of_passBranch (.inl ⟨hbranch, rfl⟩) with ⟨hremote, hstate⟩
  have hslow : (doOnMains env (batteryEdges env (passHead env core))).ups.isFastpoll = false :=
    UpsInfo.test_clear_self (by decide) _
  rw [doAction_of_getState hremote hstate]
  refine andThen_rel (P := fun after => after.ups.isFastpoll = false) hslow ?_
  exact (congrArg (testMask · upsFastpoll) (passTail_ups env _).1).trans hslow

namespace CoreRun

variable (run : CoreRun) {n : ℕ}

/-! ## Runs -/

/-- Drivers may raise the flag between two passes, and leave it alone otherwise. -/
structure LocalFastpoll : Prop where
  between : ∀ n, ∀ update ∈ (run.pass n).updates, update.KeepsFastpoll
  inside : ∀ n, ∀ updates ∈ (run.pass n).env.driverCalls,
    ∀ update ∈ updates, update.LeavesFastpoll

/-- The flag is newly raised when pass {lit}`n` begins, or the pass raises it: as the first
indication of a power problem, or because it begins the shutdown. -/
def Raises (n : ℕ) : Prop :=
  (run.seen n).ups.isFastpoll = true ∧ (n = 0 ∨ (run.core n).ups.isFastpoll = false) ∨
    run.branch n = .powerFailure ∨ run.shutsDown n

/-- Since the last pass on mains something has raised the flag. -/
def Alerted (n : ℕ) : Prop :=
  ∃ k ≤ n, run.Raises k ∧ ∀ j, k ≤ j → j ≤ n → run.branch j ≠ .onMains

/-- Pass {lit}`n` ends on battery, outside calibration and remote shutdown. -/
def EndsOnBattery (n : ℕ) : Prop :=
  (run.core (n + 1)).ups.isOnbatt = true ∧ (run.core (n + 1)).ups.isCalibration = false ∧
    (run.core (n + 1)).ups.isShutRemote = false

/-- After pass {lit}`n` polling is fast. -/
def PollsFast (n : ℕ) : Prop :=
  (run.core (n + 1)).ups.isFastpoll = true ∧
    deviceWaitTime (run.core (n + 1)).ups = timerFast

theorem pollsFast_iff : run.PollsFast n ↔ (run.core (n + 1)).ups.isFastpoll = true :=
  ⟨And.left, fun hfast => ⟨hfast, deviceWaitTime_of_fastpoll hfast⟩⟩

/-- The flag after one pass. -/
theorem isFastpoll_succ_iff (hlocal : run.LocalFastpoll) (hruns : run.runs n) :
    (run.core (n + 1)).ups.isFastpoll = true ↔
      run.branch n ≠ .onMains ∧
        ((run.seen n).ups.isFastpoll = true ∨ run.branch n = .powerFailure ∨
          run.shutsDown n) := by
  rw [run.core_succ hruns]
  by_cases hmains : run.branch n = .onMains
  · rw [doAction_isFastpoll_of_onMains hmains]
    simp [hmains]
  · by_cases hfailure : run.branch n = .powerFailure
    · rw [doAction_isFastpoll_of_powerFailure (hlocal.inside n) hfailure]
      simp [hfailure]
    · rw [doAction_isFastpoll_iff (hlocal.inside n) rfl hfailure hmains, run.trace_seen,
        run.deleteLockfile_iff hruns]
      simp [hmains, hfailure]

theorem alerted_zero_iff : run.Alerted 0 ↔ run.branch 0 ≠ .onMains ∧ run.Raises 0 := by
  constructor
  · rintro ⟨k, hk, hraises, hsince⟩
    obtain rfl := Nat.le_zero.mp hk
    exact ⟨hsince 0 (le_refl 0) (le_refl 0), hraises⟩
  · rintro ⟨hmains, hraises⟩
    refine ⟨0, le_refl 0, hraises, fun j _ hj => ?_⟩
    rw [Nat.le_zero.mp hj]
    exact hmains

theorem alerted_succ_iff :
    run.Alerted (n + 1) ↔
      run.branch (n + 1) ≠ .onMains ∧ (run.Raises (n + 1) ∨ run.Alerted n) := by
  constructor
  · rintro ⟨k, hk, hraises, hsince⟩
    refine ⟨hsince (n + 1) hk (le_refl _), ?_⟩
    rcases Nat.le_succ_iff.mp hk with hkn | rfl
    · exact Or.inr ⟨k, hkn, hraises, fun j hkj hjn => hsince j hkj (Nat.le_succ_of_le hjn)⟩
    · exact Or.inl hraises
  · rintro ⟨hmains, hraises | ⟨k, hk, hraises, hsince⟩⟩
    · refine ⟨n + 1, le_refl _, hraises, fun j hnj hjn => ?_⟩
      rw [le_antisymm hjn hnj]
      exact hmains
    · refine ⟨k, Nat.le_succ_of_le hk, hraises, fun j hkj hjn => ?_⟩
      rcases Nat.le_succ_iff.mp hjn with hjn | rfl
      · exact hsince j hkj hjn
      · exact hmains

/-- After a pass the flag is raised if something has raised it since the last pass on
mains. -/
theorem isFastpoll_iff (hlocal : run.LocalFastpoll) (hruns : run.runs n) :
    (run.core (n + 1)).ups.isFastpoll = true ↔ run.Alerted n := by
  induction n with
  | zero =>
      rw [run.isFastpoll_succ_iff hlocal hruns, run.alerted_zero_iff]
      simp [Raises]
  | succ n ih =>
      have hbefore := ih (run.runs_of_runs_succ hruns)
      have hkept : (run.core (n + 1)).ups.isFastpoll = true →
          (run.seen (n + 1)).ups.isFastpoll = true :=
        applyUpdates_invariant (P := fun ups => ups.isFastpoll = true) (hlocal.between (n + 1))
      rw [run.isFastpoll_succ_iff hlocal hruns, run.alerted_succ_iff, ← hbefore]
      unfold Raises
      cases hcore : (run.core (n + 1)).ups.isFastpoll with
      | true => simp [hkept hcore]
      | false => simp

/-- Polling on battery is fast throughout a run if and only if at the end of every pass on
battery something has raised the flag since the last pass on mains. -/
theorem polling_fast_iff (hlocal : run.LocalFastpoll) :
    (∀ n, run.runs n → run.EndsOnBattery n → run.PollsFast n) ↔
      ∀ n, run.runs n → run.EndsOnBattery n → run.Alerted n := by
  refine forall_congr' fun n => imp_congr_right fun hruns => imp_congr_right fun _ => ?_
  exact run.pollsFast_iff.trans (run.isFastpoll_iff hlocal hruns)

/-! ## Examples of runs -/

/-- A driver's bulk rewriting of the status: every bit outside {lit}`UPS_LOCAL_BITS`. -/
def refresh (word : StatusWord) : DriverUpdate where
  apply := fun ups =>
    { ups with status := (ups.status &&& upsLocalBits) ||| (word &&& ~~~upsLocalBits) }
  frame := fun ups => by
    have hkept := replace_and_kept ups.status word upsLocalBits
    have hinside : coreBits = upsLocalBits &&& coreBits := by decide
    refine ⟨rfl, rfl, ?_⟩
    rw [hinside, ← BitVec.and_assoc, hkept, BitVec.and_assoc]

theorem refresh_leavesFastpoll (word : StatusWord) : (refresh word).LeavesFastpoll :=
  fun ups => testMask_eq_of_and_eq (by decide) (replace_and_kept ups.status word upsLocalBits)

/-- A run whose driver honours {lit}`UPS_LOCAL_BITS`. -/
def refreshed (word : ℕ → StatusWord) : CoreRun :=
  everySecond (defaultConfig 100) fun n =>
    { updates := [refresh (upsBattpresent ||| word n)]
      env := PassEnv.quiet }

theorem refreshed_localFastpoll (word : ℕ → StatusWord) : (refreshed word).LocalFastpoll := by
  refine ⟨fun n update hupdate ups hfast => ?_, fun n updates hupdates update hupdate => ?_⟩
  · obtain rfl := List.mem_singleton.mp hupdate
    exact (refresh_leavesFastpoll _ ups).trans hfast
  · have hquiet : updates = [] := by
      simpa [refreshed, everySecond, ofPasses, PassEnv.quiet, PassEnv.driverCalls] using hupdates
    rw [hquiet] at hupdate
    cases hupdate

/-- A calibration from pass 1 to pass 8 that ends while the UPS is on battery. -/
def calibrationEnds : CoreRun :=
  refreshed fun n =>
    if n = 0 then upsOnline
    else if n ≤ 8 then upsOnbatt ||| upsCalibration
    else upsOnbatt

/-- After such a calibration the daemon still polls once a minute. -/
theorem polling_slow_calibrationEnds :
    calibrationEnds.runs 9 ∧ calibrationEnds.EndsOnBattery 9 ∧
      ¬ calibrationEnds.PollsFast 9 ∧ deviceWaitTime (calibrationEnds.core 10).ups = 60 := by
  unfold EndsOnBattery PollsFast
  decide +kernel

/-- The theorem at work: nothing has raised the flag in that run. -/
theorem polling_fast_iff_calibrationEnds :
    ¬ ∀ n, calibrationEnds.runs n → calibrationEnds.EndsOnBattery n →
      calibrationEnds.Alerted n := by
  intro halerted
  have hfast := (polling_fast_iff calibrationEnds (refreshed_localFastpoll _)).mpr halerted
  have hnine : calibrationEnds.runs 9 ∧ calibrationEnds.EndsOnBattery 9 ∧
      (calibrationEnds.core 10).ups.isFastpoll = false := by
    unfold EndsOnBattery
    decide +kernel
  exact Bool.false_ne_true (hnine.2.2.symm.trans (hfast 9 hnine.1 hnine.2.1).1)

end CoreRun

end Apcupsd
