import Apcupsd.Core.BatteryMessages
import Apcupsd.Core.Transitions

/-!
# The events of an outage in pairs

{lit}`CMDPOWEROUT` or {lit}`CMDSTARTSELFTEST` begins an outage, {lit}`CMDMAINSBACK` or
{lit}`CMDENDSELFTEST` ends it.  The begin is chosen when {lit}`onbatt` rises, the end when it
falls, each from the flags of its own pass; nothing records which event has begun the
outage.

Main results:

- Definition {lit}`CoreRun.Tidy`: the passes in which the two choices agree.
- Theorem {lit}`CoreRun.outageEvents_paired`: in a run of such passes every outage is ended
  once, by the event that fits its begin.
- Theorem {lit}`CoreRun.outageEvents_not_paired_calibrated`: a calibration is ended as an
  outage that never began.
-/

namespace Apcupsd

open BitFlags Apcupsd.Core

/-! ## The two kinds of outage -/

inductive OutageKind where
  | power | selfTest
deriving DecidableEq, Repr

/-- The four events as begins and ends. -/
def outageBoundary : Effect → Option (Boundary OutageKind)
  | .executeCommand .cmdPowerout => some (.opens .power)
  | .executeCommand .cmdMainsback => some (.closes .power)
  | .executeCommand .cmdStartselftest => some (.opens .selfTest)
  | .executeCommand .cmdEndselftest => some (.closes .selfTest)
  | _ => none

theorem outageBoundary_readsOutage : ReadsOutage outageBoundary := by
  intro effect hother
  cases effect with
  | executeCommand cmd =>
      cases cmd with
      | cmdPowerout | cmdMainsback | cmdStartselftest | cmdEndselftest => cases hother
      | _ => rfl
  | _ => rfl

/-- The kind that {lit}`ups->SelfTest` tells. -/
def UpsInfo.outageKind (ups : UpsInfo) : OutageKind :=
  if ups.selfTest ≠ 0 then .selfTest else .power

/-- The begin or the end of an outage that a branch generates. -/
def PassBranch.boundaries (env : PassEnv) (branch : PassBranch) (ups : UpsInfo) :
    List (Boundary OutageKind) :=
  match branch with
  | .powerFailure => [.opens (applyUpdates env.checkSelftest ups.setFastpoll).outageKind]
  | .mainsBack => [.closes ups.outageKind]
  | _ => []

theorem outageCommands_boundaries (env : PassEnv) (branch : PassBranch) (ups : UpsInfo) :
    ((outageCommands env branch ups).filterMap fun cmd => outageBoundary (.executeCommand cmd)) =
      branch.boundaries env ups := by
  cases branch with
  | powerFailure =>
      unfold outageCommands failureEvent PassBranch.boundaries UpsInfo.outageKind
      dsimp only
      split <;> rfl
  | mainsBack =>
      unfold outageCommands returnEvents PassBranch.boundaries UpsInfo.outageKind
      dsimp only
      split_ifs <;> rfl
  | _ => rfl

/-! ## Who begins and ends a self test -/

/-- The update neither begins nor ends a self test. -/
def DriverUpdate.KeepsSelfTest (update : DriverUpdate) : Prop :=
  ∀ ups, (update.apply ups).outageKind = ups.outageKind

theorem applyUpdates_outageKind {updates : List DriverUpdate}
    (hkeeps : ∀ update ∈ updates, update.KeepsSelfTest) (ups : UpsInfo) :
    (applyUpdates updates ups).outageKind = ups.outageKind :=
  applyUpdates_invariant (P := fun after => after.outageKind = ups.outageKind)
    (fun update hmem before hbefore => (hkeeps update hmem before).trans hbefore) rfl

/-- The driver calls of an outage, but for the check for a self test. -/
def PassEnv.KeepsSelfTest (env : PassEnv) : Prop :=
  ∀ updates ∈ [env.dtrEnable, env.readVolatileData, env.killPower],
    ∀ update ∈ updates, update.KeepsSelfTest

/-- Outside the two transitions a pass that cancels no self test keeps the kind. -/
theorem PassWrite.outageKind_eq {env : PassEnv} {branch : PassBranch}
    (hfailure : branch ≠ .powerFailure) (hback : branch ≠ .mainsBack)
    (hkeeps : env.KeepsSelfTest) {before after : Core}
    (hwrite : PassWrite env branch false before after) :
    after.ups.outageKind = before.ups.outageKind := by
  have hprohibit : ∀ core : Core, (prohibitLogins core).ups.outageKind = core.ups.outageKind := by
    intro core
    unfold prohibitLogins
    split <;> rfl
  cases hwrite with
  | own hown =>
      cases hown with
      | selfTest hguard => exact absurd hguard (by simp [hback])
      | _ => rfl
  | unlock => rfl
  | prohibit => exact hprohibit before
  | powerfail => exact hprohibit _
  | driver hupdates =>
      rw [driverCall_ups]
      refine applyUpdates_outageKind (hkeeps _ ?_) before.ups
      have hcommon : env.branchCalls branch = [env.readVolatileData, env.killPower] := by
        cases branch <;> first | rfl | contradiction
      rw [hcommon] at hupdates
      exact List.mem_cons_of_mem _ hupdates
  | emit _ => rfl
  | exit => rfl
  | logoff => rfl

theorem doAction_outageKind {env : PassEnv} {core : Core}
    (hfailure : passBranch env (passHead env core).ups ≠ .powerFailure)
    (hback : passBranch env (passHead env core).ups ≠ .mainsBack)
    (hcancels : cancelsSelfTest env (passHead env core).ups = false)
    (hkeeps : env.KeepsSelfTest) :
    (doAction env core).ups.outageKind = core.ups.outageKind := by
  have hfirst : (firstCall env core).ups.outageKind = core.ups.outageKind := by
    unfold firstCall
    split <;> rfl
  have hwrites := doAction_writes env core
  rw [hcancels] at hwrites
  exact hwrites.invariant (P := fun after => after.ups.outageKind = core.ups.outageKind)
    (fun hwrite hbefore => (hwrite.outageKind_eq hfailure hback hkeeps).trans hbefore) hfirst

/-- {lit}`st_PowerFailure` cancels no self test. -/
theorem armCore_of_powerFailure {env : PassEnv} {head : Core}
    (hbranch : passBranch env head.ups = .powerFailure) :
    armCore env head = batteryEdges env head := by
  have hremote := ((passBranch_powerFailure_iff _ _).mp hbranch).1
  unfold armCore
  rw [if_neg (Bool.eq_false_iff.mp hremote)]
  refine cancelSelfTest_of_ne env _ ?_
  rw [getState_of_powerFailure hbranch]
  decide

theorem doPowerFailure_outageKind {env : PassEnv} (hkeeps : env.KeepsSelfTest) (core : Core) :
    (doPowerFailure env core).ups.outageKind =
      (applyUpdates env.checkSelftest core.ups.setFastpoll).outageKind := by
  rcases doPowerFailure_ups env core with ⟨children, hups⟩
  rw [hups, applyUpdates_outageKind (hkeeps _ List.mem_cons_self)]
  rfl

/-- A {lit}`st_PowerFailure` pass ends with the kind that its event has announced. -/
theorem doAction_outageKind_of_powerFailure {env : PassEnv} {core : Core}
    (hbranch : passBranch env (passHead env core).ups = .powerFailure)
    (hkeeps : env.KeepsSelfTest) :
    (doAction env core).ups.outageKind =
      (applyUpdates env.checkSelftest
        (armCore env (passHead env core)).ups.setFastpoll).outageKind := by
  have hremote := ((passBranch_powerFailure_iff _ _).mp hbranch).1
  rw [doAction_of_not_remote hremote, armCore_of_powerFailure hbranch,
    ← doPowerFailure_outageKind hkeeps, ← switchState_of_powerFailure hbranch]
  refine andThen_rel
    (P := fun after => after.ups.outageKind = (switchState env _).ups.outageKind) rfl ?_
  unfold reapChildren
  split <;> rfl

namespace CoreRun

variable (run : CoreRun) {n : ℕ}

/-! ## What is open -/

/-- Whether the last pass that chose a state has found {lit}`onbatt` set: a remote shutdown
chooses none. -/
def lastOnbatt : ℕ → Bool
  | 0 => false
  | n + 1 => if (run.seen n).ups.isShutRemote then lastOnbatt n else run.onbatt n

/-- The outage that is going on before pass {lit}`n`. -/
def openOutage (n : ℕ) : Option OutageKind :=
  if run.lastOnbatt n then some (run.core n).ups.outageKind else none

/-- Pass {lit}`n` is not affected by what the event of a begin forgets: no transition is
lost between two choices of a state, no battery time begins with a calibration, no self
test is cancelled, and a driver begins a self test only when it is asked to look for
one. -/
structure Tidy (n : ℕ) : Prop where
  edge : (run.seen n).ups.isShutRemote = false → run.onbattRemembered n = run.lastOnbatt n
  uncalibrated : (run.seen n).ups.isShutRemote = false → run.onbatt n = true →
    run.onbattRemembered n = false → (run.seen n).ups.isCalibration = false
  uncancelled : cancelsSelfTest (run.pass n).env (run.head n) = false
  between : run.lastOnbatt n = true → ∀ update ∈ (run.pass n).updates, update.KeepsSelfTest
  inside : (run.pass n).env.KeepsSelfTest

/-- The arm of a tidy pass finds the kind of outage that the pass before it has left. -/
theorem armed_outageKind (htidy : run.Tidy n) (hopen : run.lastOnbatt n = true) :
    (run.armed n).ups.outageKind = (run.core n).ups.outageKind := by
  have hseen : (run.seen n).ups.outageKind = (run.core n).ups.outageKind :=
    applyUpdates_outageKind (htidy.between hopen) _
  have harm := (run.armed_ups n).2
  rw [htidy.uncancelled, if_neg Bool.false_ne_true] at harm
  rw [← hseen]
  unfold UpsInfo.outageKind
  rw [harm]

/-- A pass outside the transitions leaves open what was open. -/
theorem openOutage_succ (htidy : run.Tidy n) (hruns : run.runs n)
    (hfailure : run.branch n ≠ .powerFailure) (hback : run.branch n ≠ .mainsBack)
    (hlast : run.lastOnbatt (n + 1) = run.lastOnbatt n) :
    run.openOutage (n + 1) = run.openOutage n := by
  unfold openOutage
  rw [hlast]
  cases hopen : run.lastOnbatt n with
  | false => rfl
  | true =>
      have hseen : (run.seen n).ups.outageKind = (run.core n).ups.outageKind :=
        applyUpdates_outageKind (htidy.between hopen) _
      rw [run.core_succ hruns,
        doAction_outageKind hfailure hback htidy.uncancelled htidy.inside, hseen]

/-- One tidy pass adds the event that fits what is open. -/
theorem outageEvents_step (htidy : run.Tidy n) (hruns : run.runs n)
    (hopen : LeavesOpen (run.picked outageBoundary n) (run.openOutage n)) :
    LeavesOpen (run.picked outageBoundary (n + 1)) (run.openOutage (n + 1)) := by
  rw [run.outagePicked_succ outageBoundary_readsOutage hruns, outageCommands_boundaries]
  have hstill : run.branch n ≠ .powerFailure → run.branch n ≠ .mainsBack →
      run.lastOnbatt (n + 1) = run.lastOnbatt n →
      LeavesOpen (run.picked outageBoundary n ++
        (run.branch n).boundaries (run.pass n).env (run.armed n).ups)
        (run.openOutage (n + 1)) := by
    intro hfailure hback hlast
    rw [run.openOutage_succ htidy hruns hfailure hback hlast]
    have hnothing : (run.branch n).boundaries (run.pass n).env (run.armed n).ups = [] := by
      cases hbranch : run.branch n with
      | powerFailure => exact absurd hbranch hfailure
      | mainsBack => exact absurd hbranch hback
      | _ => rfl
    rw [hnothing, List.append_nil]
    exact hopen
  cases hremote : (run.seen n).ups.isShutRemote with
  | true =>
      have hlast : run.lastOnbatt (n + 1) = run.lastOnbatt n := if_pos hremote
      refine hstill ?_ ?_ hlast
      · exact fun hbranch => Bool.noConfusion
          (hremote.symm.trans ((run.branch_powerFailure_iff n).mp hbranch).1.2)
      · exact fun hbranch => Bool.noConfusion
          (hremote.symm.trans ((run.branch_mainsBack_iff n).mp hbranch).1)
  | false =>
      have hlast : run.lastOnbatt (n + 1) = run.onbatt n :=
        if_neg (Bool.eq_false_iff.mp hremote)
      have hedge : run.onbattRemembered n = run.lastOnbatt n := htidy.edge hremote
      cases honbatt : run.onbatt n with
      | true =>
          cases hbefore : run.lastOnbatt n with
          | true =>
              refine hstill ?_ ?_ (by rw [hlast, honbatt, hbefore])
              · intro hbranch
                have hrise := ((run.branch_powerFailure_iff n).mp hbranch).2.2
                rw [hedge, hbefore] at hrise
                cases hrise
              · intro hbranch
                have hfall := ((run.branch_mainsBack_iff n).mp hbranch).2.1
                rw [honbatt] at hfall
                cases hfall
          | false =>
              have hclear := hedge.trans hbefore
              have hcalm : run.calm n := ⟨htidy.uncalibrated hremote honbatt hclear, hremote⟩
              have hbranch : run.branch n = .powerFailure :=
                (run.branch_powerFailure_iff n).mpr ⟨hcalm, honbatt, hclear⟩
              unfold openOutage at hopen ⊢
              rw [hbefore] at hopen
              rw [hlast, honbatt, if_pos rfl, hbranch, run.core_succ hruns,
                doAction_outageKind_of_powerFailure hbranch htidy.inside]
              exact hopen.opens
      | false =>
          cases hbefore : run.lastOnbatt n with
          | true =>
              have hbranch : run.branch n = .mainsBack :=
                (run.branch_mainsBack_iff n).mpr ⟨hremote, honbatt, hedge.trans hbefore⟩
              have hkind := run.armed_outageKind htidy hbefore
              unfold openOutage at hopen ⊢
              rw [hbefore, if_pos rfl, ← hkind] at hopen
              rw [hlast, honbatt, hbranch]
              exact hopen.closes
          | false =>
              refine hstill ?_ ?_ (by rw [hlast, honbatt, hbefore])
              · intro hbranch
                have hrise := ((run.branch_powerFailure_iff n).mp hbranch).2.1
                rw [honbatt] at hrise
                cases hrise
              · intro hbranch
                have hfall := ((run.branch_mainsBack_iff n).mp hbranch).2.2
                rw [hedge, hbefore] at hfall
                cases hfall

/-- In a run of tidy passes the events of an outage are paired. -/
theorem outageEvents_paired (htidy : ∀ m < n, run.runs m → run.Tidy m) :
    Paired (run.picked outageBoundary n) := by
  have hopen : ∃ current, LeavesOpen (run.picked outageBoundary n) current ∧
      (run.runs n → current = run.openOutage n) := by
    induction n with
    | zero => exact ⟨none, LeavesOpen.nil, fun _ => rfl⟩
    | succ n ih =>
        rcases ih fun m hm => htidy m (Nat.lt_succ_of_lt hm) with ⟨current, hleaves, hcurrent⟩
        by_cases hruns : run.runs n
        · rw [hcurrent hruns] at hleaves
          exact ⟨_, run.outageEvents_step (htidy n (Nat.lt_succ_self n) hruns) hruns hleaves,
            fun _ => rfl⟩
        · rw [run.picked_succ_of_exited hruns]
          exact ⟨current, hleaves, fun hnext => absurd (run.runs_of_runs_succ hnext) hruns⟩
  rcases hopen with ⟨current, hleaves, _⟩
  exact hleaves.paired

/-! ## Examples of runs -/

/-- An outage at pass 1, mains at pass 4, a self test at pass 6, mains from pass 8 on. -/
def outageAndSelfTest : CoreRun :=
  everySecond (defaultConfig 100) fun n =>
    { updates := [DriverUpdate.poll (upsPlugged ||| upsBattpresent |||
        if n ∈ [1, 2, 3, 6, 7] then upsOnbatt else upsOnline) id]
      env := { PassEnv.quiet with
        checkSelftest :=
          if n = 6 then [DriverUpdate.poll (upsPlugged ||| upsBattpresent ||| upsOnbatt)
            fun fields => { fields with selfTest := 106 }]
          else [] } }

/-- On mains at pass 0, calibrating at passes 1 and 2, on mains again from pass 3 on. -/
def calibrated : CoreRun :=
  polled (defaultConfig 100) id fun n =>
    if n = 1 ∨ n = 2 then upsOnbatt ||| upsCalibration else upsOnline

/-- A poll that leaves the driver's fields alone begins no self test. -/
theorem keepsSelfTest_poll (word : StatusWord) : (DriverUpdate.poll word id).KeepsSelfTest :=
  fun _ => rfl

theorem tidy_outageAndSelfTest : ∀ m < 10, outageAndSelfTest.Tidy m := by
  have hdecided : ∀ m < 10,
      ((outageAndSelfTest.seen m).ups.isShutRemote = false →
        outageAndSelfTest.onbattRemembered m = outageAndSelfTest.lastOnbatt m) ∧
      (outageAndSelfTest.seen m).ups.isCalibration = false ∧
      cancelsSelfTest (outageAndSelfTest.pass m).env (outageAndSelfTest.head m) = false := by
    decide +kernel
  intro m hm
  rcases hdecided m hm with ⟨hedge, hcalibration, hcancels⟩
  refine ⟨hedge, fun _ _ _ => hcalibration, hcancels, fun _ update hupdate => ?_, ?_⟩
  · rw [List.mem_singleton.mp hupdate]
    exact keepsSelfTest_poll _
  · intro updates hupdates update hupdate
    have hquiet : updates = [] := by
      simpa [outageAndSelfTest, everySecond, ofPasses, PassEnv.quiet] using hupdates
    rw [hquiet] at hupdate
    cases hupdate

/-- The theorem at work: an outage and a self test. -/
theorem outageEvents_paired_outageAndSelfTest :
    outageAndSelfTest.picked outageBoundary 10 =
        [.opens .power, .closes .power, .opens .selfTest, .closes .selfTest] ∧
      Paired (outageAndSelfTest.picked outageBoundary 10) :=
  ⟨by decide +kernel,
    outageEvents_paired outageAndSelfTest fun m hm _ => tidy_outageAndSelfTest m hm⟩

/-- A calibration on mains is ended by {lit}`CMDMAINSBACK`: an outage that never began. -/
theorem outageEvents_not_paired_calibrated : ¬ Paired (calibrated.picked outageBoundary 4) := by
  intro hpaired
  have hfits := hpaired.finalOpen_isSome
  revert hfits
  decide +kernel

end CoreRun

end Apcupsd
