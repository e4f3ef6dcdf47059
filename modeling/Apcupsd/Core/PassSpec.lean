import Apcupsd.Core.PassFrame

/-!
# What a pass can do

The passes as the runs use them: the timers and flags each branch leaves, the
status that is remembered, and the announcement and shutdown commands each
branch executes.

Main results:

- Theorem {lit}`doAction_frame`: the timers and flags after a pass are those of the
  branch update.
- Theorem {lit}`doAction_prevStatus`: a pass that does not leave the process
  remembers the status it ends with.
- Theorem {lit}`executed_doAction`: the announcement and shutdown commands of a pass
  are decided by its branch.
- Theorem {lit}`doAction_isShutdown`: a shutdown command leaves the shutdown flag
  raised.
-/

namespace Apcupsd

open BitFlags Apcupsd.Core

/-! ## The record after a pass -/

theorem stateBranch_ne_remote (env : PassEnv) (ups : UpsInfo) :
    stateBranch env ups ≠ .remote := by
  have hbattery : batteryBranch env ups ≠ .remote := by
    unfold batteryBranch
    split_ifs <;> decide
  unfold stateBranch
  cases getState ups with
  | stSelfTest =>
      dsimp only
      split
      · decide
      · exact hbattery
  | stOnBattery => exact hbattery
  | _ => simp

/-- What the arms of {lit}`st_OnBattery` have tested. -/
theorem batteryBranch_tests {env : PassEnv} {ups : UpsInfo} :
    (batteryBranch env ups = .announce → announceDue env ups = true) ∧
      (batteryBranch env ups = .shutdownRunning → ups.isShutdown = true) ∧
      (batteryBranch env ups = .timeout → ups.isShutdown = false ∧ timeoutDue env ups = true) ∧
      (batteryBranch env ups = .evaluate → ups.isShutdown = false) := by
  unfold batteryBranch
  split_ifs <;> simp_all

/-- The arms of {lit}`st_OnBattery`. -/
def PassBranch.isBatteryArm : PassBranch → Bool
  | .announce | .shutdownRunning | .timeout | .evaluate => true
  | _ => false

theorem batteryBranch_of_passBranch {env : PassEnv} {ups : UpsInfo}
    (harm : (passBranch env ups).isBatteryArm = true) :
    batteryBranch env ups = passBranch env ups := by
  unfold passBranch at harm ⊢
  split at harm
  · cases harm
  · rename_i hremote
    rw [if_neg hremote]
    unfold stateBranch at harm ⊢
    cases hstate : getState ups with
    | stOnBattery => rfl
    | stSelfTest =>
        rw [hstate] at harm
        dsimp only at harm ⊢
        split at harm
        · cases harm
        · rename_i hrunning
          rw [if_neg hrunning]
    | _ =>
        rw [hstate] at harm
        cases harm

theorem branchUpdate_stateBranch (env : PassEnv) (ups other : UpsInfo) :
    branchUpdate env (stateBranch env ups) other =
      stateUpdate env (stateBranch env ups) (stampBattlow env other) := by
  have hne := stateBranch_ne_remote env ups
  cases hbranch : stateBranch env ups with
  | remote => exact absurd hbranch hne
  | _ => rfl

/-- The low-battery timer and the count of children do not decide the arm. -/
theorem stateBranch_stampBattlow (env : PassEnv) (children : Int) (ups : UpsInfo) :
    stateBranch env { stampBattlow env ups with numExecedChildren := children } =
      stateBranch env ups := by
  unfold stampBattlow
  split <;> rfl

theorem rememberStatus_frame (core : Core) :
    TimerFrame core.ups (rememberStatus core).ups :=
  ⟨rfl, rfl, rfl, id⟩

theorem reapChildren_frame (env : PassEnv) (core : Core) :
    TimerFrame core.ups (reapChildren env core).ups := by
  unfold reapChildren
  split
  · exact ⟨rfl, rfl, rfl, id⟩
  · exact TimerFrame.refl core.ups

/-- The statements from the battery edges to the end of the state switch. -/
def switchState (env : PassEnv) (head : Core) : Core :=
  doState env (getState (batteryEdges env head).ups) (batteryEdges env head)

theorem doAction_of_remote {env : PassEnv} {core : Core}
    (hremote : (passHead env core).ups.isShutRemote = true) :
    doAction env core = remoteShutdown env (passHead env core) :=
  if_pos hremote

theorem doAction_of_not_remote {env : PassEnv} {core : Core}
    (hremote : (passHead env core).ups.isShutRemote = false) :
    doAction env core = (switchState env (passHead env core)).andThen
      fun done => rememberStatus (reapChildren env done) :=
  if_neg (Bool.eq_false_iff.mp hremote)

/-- The battery edges hand the low-battery stamp to the state switch and decide
nothing else. -/
theorem batteryEdges_update (env : PassEnv) (head : Core) :
    stateBranch env (batteryEdges env head).ups = stateBranch env head.ups ∧
      ∃ selfTest children,
        stateUpdate env (stateBranch env head.ups) (batteryEdges env head).ups =
          (branchUpdate env (stateBranch env head.ups) head.ups).edit selfTest children := by
  rcases batteryEdges_ups env head with ⟨children, hready⟩
  have hedit : (batteryEdges env head).ups =
      (stampBattlow env head.ups).edit (stampBattlow env head.ups).selfTest children :=
    hready
  refine ⟨?_, (stampBattlow env head.ups).selfTest, children, ?_⟩
  · rw [hready]
    exact stateBranch_stampBattlow env children head.ups
  · rw [branchUpdate_stateBranch, hedit, stateUpdate_edit]

/-- Nor do they decide the state. -/
theorem getState_batteryEdges (env : PassEnv) (head : Core) :
    getState (batteryEdges env head).ups = getState head.ups := by
  rcases batteryEdges_ups env head with ⟨children, hups⟩
  rw [hups]
  unfold stampBattlow
  split <;> rfl

/-- The branches that are the arm of a single state. -/
theorem getState_of_passBranch {env : PassEnv} {ups : UpsInfo} {state : AState}
    (hbranch : passBranch env ups = .onMains ∧ state = .stOnMains ∨
      passBranch env ups = .powerFailure ∧ state = .stPowerFailure ∨
      passBranch env ups = .mainsBack ∧ state = .stMainsBack) :
    ups.isShutRemote = false ∧ getState ups = state := by
  have hbattery : batteryBranch env ups ≠ .onMains ∧ batteryBranch env ups ≠ .powerFailure ∧
      batteryBranch env ups ≠ .mainsBack := by
    unfold batteryBranch
    split_ifs <;> decide
  unfold passBranch at hbranch
  cases hremote : ups.isShutRemote with
  | true => simp [hremote] at hbranch
  | false =>
      rw [hremote, if_neg Bool.false_ne_true] at hbranch
      refine ⟨rfl, ?_⟩
      unfold stateBranch at hbranch
      cases hstate : getState ups with
      | stSelfTest =>
          rw [hstate] at hbranch
          dsimp only at hbranch
          split at hbranch <;> simp_all
      | stOnBattery => simp_all
      | _ =>
          rw [hstate] at hbranch
          rcases hbranch with ⟨h, rfl⟩ | ⟨h, rfl⟩ | ⟨h, rfl⟩ <;> first | rfl | cases h

/-- The last statements of a pass that is not a remote shutdown. -/
def passTail (env : PassEnv) (done : Core) : Core :=
  rememberStatus (reapChildren env done)

/-- They write the remembered status and the count of children. -/
theorem passTail_ups (env : PassEnv) (done : Core) :
    (passTail env done).ups.status = done.ups.status ∧
      (passTail env done).ups.selfTest = done.ups.selfTest := by
  unfold passTail reapChildren
  split <;> exact ⟨rfl, rfl⟩

/-- A pass in the arm of a single state. -/
theorem doAction_of_getState {env : PassEnv} {core : Core} {state : AState}
    (hremote : (passHead env core).ups.isShutRemote = false)
    (hstate : getState (passHead env core).ups = state) :
    doAction env core =
      (doState env state (batteryEdges env (passHead env core))).andThen (passTail env) := by
  rw [doAction_of_not_remote hremote]
  unfold switchState
  rw [getState_batteryEdges, hstate]
  rfl

theorem switchState_frame (env : PassEnv) (head : Core) :
    TimerFrame (branchUpdate env (stateBranch env head.ups) head.ups)
      (switchState env head).ups := by
  have hstate := doState_frame env (batteryEdges env head)
  rcases batteryEdges_update env head with ⟨hbranch, selfTest, children, hupdate⟩
  rw [hbranch, hupdate] at hstate
  exact (UpsInfo.edit_frame _ _ _).trans hstate

/-- The timers and flags after a pass are those of the branch update. -/
theorem doAction_frame (env : PassEnv) (core : Core) :
    TimerFrame
      (branchUpdate env (passBranch env (passHead env core).ups) (passHead env core).ups)
      (doAction env core).ups := by
  unfold passBranch
  cases hremote : (passHead env core).ups.isShutRemote with
  | true =>
      rw [if_pos rfl, doAction_of_remote hremote]
      unfold remoteShutdown
      have hannounced : TimerFrame (passHead env core).ups
          (if (passHead env core).ups.chgShutRemote then
            generateEvent env (passHead env core) .cmdRemotedown
          else passHead env core).ups := by
        split
        · exact generateEvent_frame env _ .cmdRemotedown
        · exact TimerFrame.refl _
      exact andThen_rel (P := fun after => TimerFrame (passHead env core).ups after.ups)
        hannounced (hannounced.trans (rememberStatus_frame _))
  | false =>
      rw [if_neg (by decide), doAction_of_not_remote hremote]
      have hswitch := switchState_frame env (passHead env core)
      refine andThen_rel
        (P := fun after => TimerFrame (branchUpdate env _ (passHead env core).ups) after.ups)
        hswitch ?_
      exact (hswitch.trans (reapChildren_frame env _)).trans (rememberStatus_frame _)

/-- A pass that does not leave the process remembers the status it ends with. -/
theorem doAction_prevStatus {env : PassEnv} {core : Core}
    (hexited : (doAction env core).exited = false) :
    (doAction env core).ups.prevStatus = (doAction env core).ups.status := by
  have hremember : ∀ (before : Core) (tail : Core → Core),
      (before.andThen fun core => rememberStatus (tail core)).exited = false →
      (before.andThen fun core => rememberStatus (tail core)).ups.prevStatus =
        (before.andThen fun core => rememberStatus (tail core)).ups.status := by
    intro before tail hrunning
    cases hbefore : before.exited with
    | true =>
        rw [andThen_of_exited hbefore, hbefore] at hrunning
        cases hrunning
    | false =>
        rw [andThen_of_not_exited hbefore]
        rfl
  cases hremote : (passHead env core).ups.isShutRemote with
  | true =>
      rw [doAction_of_remote hremote] at hexited ⊢
      exact hremember _ id hexited
  | false =>
      rw [doAction_of_not_remote hremote] at hexited ⊢
      exact hremember _ (reapChildren env) hexited

/-! ## The commands of a pass -/

/-- The commands that {lit}`branchCommand` decides: the timed ones, and the two of the
connection, which no pass executes. -/
def Command.isDecided : Command → Bool
  | .cmdCommfailure | .cmdCommok => true
  | cmd => cmd.isTimed

theorem Command.isDecided_of_isTimed {cmd : Command} (hcmd : cmd.isTimed = true) :
    cmd.isDecided = true := by
  cases cmd <;> first | rfl | exact hcmd

/-- An event that is not decided by the branch executes no command that is. -/
theorem executed_generateEvent_untimed (env : PassEnv) (core : Core)
    {event cmd : Command} (hevent : event.isDecided = false) (hcmd : cmd.isDecided = true) :
    (generateEvent env core event).executed cmd ↔ core.executed cmd := by
  have hne : event ≠ cmd := by
    rintro rfl
    rw [hevent] at hcmd
    cases hcmd
  have hscript : cmd ≠ .cmdDoshutdown := by
    rintro rfl
    cases hcmd
  rw [executed_generateEvent env core event hscript]
  simp [hne]

theorem executed_generateEvent_timed (env : PassEnv) (core : Core) (event : Command)
    {cmd : Command} (hcmd : cmd.isDecided = true) :
    (generateEvent env core event).executed cmd ↔ core.executed cmd ∨ event = cmd := by
  have hscript : cmd ≠ .cmdDoshutdown := by
    rintro rfl
    cases hcmd
  exact executed_generateEvent env core event hscript

section Timed

variable (env : PassEnv) (core : Core) {cmd : Command} (hcmd : cmd.isDecided = true)

include hcmd

omit hcmd in
theorem executed_firstCall : (firstCall env core).executed cmd ↔ core.executed cmd := by
  unfold firstCall
  split <;> rfl

theorem executed_replaceBattery :
    (replaceBattery env core).executed cmd ↔ core.executed cmd := by
  unfold replaceBattery
  split_ifs
  · rfl
  · rw [executed_mapUps]
    exact executed_generateEvent_untimed env core rfl hcmd
  · rfl
  · rfl

theorem executed_passHead : (passHead env core).executed cmd ↔ core.executed cmd :=
  (executed_replaceBattery env (firstCall env core) hcmd).trans
    (executed_firstCall env core)

theorem executed_batteryEdges :
    (batteryEdges env core).executed cmd ↔ core.executed cmd := by
  have hattach : (batteryAttach env core).executed cmd ↔ core.executed cmd := by
    unfold batteryAttach
    split_ifs
    · exact executed_generateEvent_untimed env core rfl hcmd
    · exact executed_generateEvent_untimed env core rfl hcmd
    · rfl
  refine Iff.trans ?_ hattach
  unfold batteryEdges batteryLowTimer
  split <;> rfl

theorem executed_remoteShutdown :
    (remoteShutdown env core).executed cmd ↔ core.executed cmd := by
  unfold remoteShutdown
  have hannounced : (if core.ups.chgShutRemote then generateEvent env core .cmdRemotedown
      else core).executed cmd ↔ core.executed cmd := by
    split
    · exact executed_generateEvent_untimed env core rfl hcmd
    · rfl
  exact andThen_rel (P := fun after => after.executed cmd ↔ core.executed cmd)
    hannounced hannounced

theorem executed_doPowerFailure :
    (doPowerFailure env core).executed cmd ↔ core.executed cmd := by
  unfold doPowerFailure
  simp only [executed_deviceEntryPoint, executed_mapUps]
  split
  · rw [executed_generateEvent_untimed env _ rfl hcmd]
    simp
  · rw [executed_generateEvent_untimed env _ rfl hcmd]
    simp

theorem executed_announceOnBattery :
    (announceOnBattery env core).executed cmd ↔
      core.executed cmd ∨ Command.cmdOnbattery = cmd := by
  unfold announceOnBattery
  rw [executed_mapUps, executed_generateEvent_timed env _ _ hcmd, executed_mapUps]

omit hcmd in
theorem executed_shutdownRunning :
    (shutdownRunning env core).executed cmd ↔ core.executed cmd := by
  unfold shutdownRunning
  split
  · dsimp only
    refine andThen_rel (P := fun after => after.executed cmd ↔ core.executed cmd) ?_ ?_
    · split <;> simp
    · rw [executed_mapUps]
      split <;> simp
  · rfl

theorem executed_emergency : (emergency env core).executed cmd ↔ core.executed cmd := by
  unfold emergency
  split
  · rw [executed_generateEvent_untimed env _ rfl hcmd, executed_mapUps]
  · rfl

theorem executed_annoyUsers : (annoyUsers env core).executed cmd ↔ core.executed cmd := by
  have hannoy : Command.cmdAnnoyme ≠ cmd := by
    rintro rfl
    cases hcmd
  unfold annoyUsers
  split_ifs
  · refine (executed_executeCommand env core .cmdAnnoyme cmd).trans ?_
    simp [hannoy]
  · exact executed_generateEvent_untimed env core rfl hcmd
  · rfl

omit hcmd in
theorem executed_delayNologon :
    (delayNologon env core).executed cmd ↔ core.executed cmd := by
  have hprohibit := executed_prohibitLogins core cmd
  unfold delayNologon
  split
  · rfl
  · split
    · rfl
    · split
      · exact hprohibit
      · rfl
    · split
      · exact hprohibit
      · rfl
    · split
      · exact hprohibit
      · rfl
    · exact hprohibit
    · exact hprohibit

theorem executed_expiredTimers :
    (expiredTimers env core).executed cmd ↔
      core.executed cmd ∨ expiredCommand env core.ups = some cmd := by
  unfold expiredTimers expiredCommand
  split_ifs
  · rw [executed_generateEvent_timed env core _ hcmd, Option.some_inj]
  · rw [executed_generateEvent_timed env core _ hcmd, Option.some_inj]
  · rw [executed_generateEvent_timed env core _ hcmd, Option.some_inj]
  · have hemergency := executed_emergency env core hcmd
    have hannoyed : ((emergency env core).andThen (annoyUsers env)).executed cmd ↔
        core.executed cmd :=
      andThen_rel (P := fun after => after.executed cmd ↔ core.executed cmd) hemergency
        ((executed_annoyUsers env _ hcmd).trans hemergency)
    refine (andThen_rel (P := fun after => after.executed cmd ↔ core.executed cmd)
      hannoyed ((executed_delayNologon env _).trans hannoyed)).trans ?_
    simp

/-- An evaluation acts on an expired timer or on none. -/
theorem executed_doOnBattery :
    (doOnBattery env core).executed cmd ↔
      core.executed cmd ∨
        branchCommand env (batteryBranch env core.ups)
          (stateUpdate env (batteryBranch env core.ups) core.ups) = some cmd := by
  unfold doOnBattery batteryBranch
  split_ifs with hannounce hshutdown htimeout
  · rw [executed_announceOnBattery env core hcmd]
    exact or_congr_right Option.some_inj.symm
  · rw [executed_shutdownRunning env core]
    simp [branchCommand]
  · unfold evaluateBattery
    rw [if_pos (of_decide_eq_true htimeout),
      executed_generateEvent_timed env _ _ hcmd, executed_mapUps]
    exact or_congr_right Option.some_inj.symm
  · unfold evaluateBattery
    rw [if_neg (of_decide_eq_false (Bool.eq_false_iff.mpr htimeout)),
      executed_expiredTimers env _ hcmd, executed_mapUps]
    rfl

omit hcmd in
/-- The self test that is cancelled does not decide which timer has expired. -/
theorem branchCommand_edit (branch : PassBranch) (selfTest : Int) (children : Int)
    (updated : UpsInfo) :
    branchCommand env branch (updated.edit selfTest children) =
      branchCommand env branch updated :=
  rfl

theorem executed_doSelfTest :
    (doSelfTest env core).executed cmd ↔
      core.executed cmd ∨
        let branch :=
          if selfTestRunning env core.ups then .selfTest else batteryBranch env core.ups
        branchCommand env branch (stateUpdate env branch core.ups) = some cmd := by
  unfold doSelfTest
  split
  · simp [branchCommand]
  · dsimp only
    refine (executed_doOnBattery env
      (core.mapUps (UpsInfo.edit 0 core.ups.numExecedChildren)) hcmd).trans ?_
    rw [executed_mapUps, mapUps_ups, stateUpdate_edit, branchCommand_edit]
    rfl

theorem executed_endSelfTest : (endSelfTest env core).executed cmd ↔ core.executed cmd := by
  have hend : Command.cmdEndselftest ≠ cmd := by
    rintro rfl
    cases hcmd
  unfold endSelfTest
  simp [hend]

theorem executed_doMainsBack : (doMainsBack env core).executed cmd ↔ core.executed cmd := by
  have hwithdrawn : (if core.ups.isOnbattMsg then
      generateEvent env (core.mapUps UpsInfo.clearOnbattMsg) .cmdOffbattery
    else core).executed cmd ↔ core.executed cmd := by
    split
    · rw [executed_generateEvent_untimed env _ rfl hcmd, executed_mapUps]
    · rfl
  refine Iff.trans ?_ hwithdrawn
  unfold doMainsBack
  generalize (if core.ups.isOnbattMsg then _ else core) = withdrawn
  have hended : (if withdrawn.ups.selfTest ≠ 0 then endSelfTest env withdrawn
      else generateEvent env withdrawn .cmdMainsback).executed cmd ↔
        withdrawn.executed cmd := by
    split
    · exact executed_endSelfTest env withdrawn hcmd
    · exact executed_generateEvent_untimed env withdrawn rfl hcmd
  refine Iff.trans ?_ hended
  dsimp only
  generalize (if withdrawn.ups.selfTest ≠ 0 then _ else _) = ended
  rw [executed_mapUps, executed_deviceEntryPoint]
  change (logonfail (if ended.ups.nologinFile then _ else ended) true).executed cmd ↔ _
  rw [executed_logonfail]
  split <;> simp

/-- The state switch executes the command of its arm. -/
theorem executed_doState :
    (doState env (getState core.ups) core).executed cmd ↔
      core.executed cmd ∨
        branchCommand env (stateBranch env core.ups)
          (stateUpdate env (stateBranch env core.ups) core.ups) = some cmd := by
  unfold stateBranch
  cases getState core.ups with
  | stOnMains => simp [doState, doOnMains, branchCommand]
  | stPowerFailure => simpa [doState, branchCommand] using
      executed_doPowerFailure env core hcmd
  | stSelfTest => exact executed_doSelfTest env core hcmd
  | stOnBattery => exact executed_doOnBattery env core hcmd
  | stMainsBack => simpa [doState, branchCommand] using executed_doMainsBack env core hcmd
  | stCalibration => simp [doState, branchCommand]

theorem executed_switchState :
    (switchState env core).executed cmd ↔
      core.executed cmd ∨
        branchCommand env (stateBranch env core.ups)
          (branchUpdate env (stateBranch env core.ups) core.ups) = some cmd := by
  rcases batteryEdges_update env core with ⟨hbranch, selfTest, children, hupdate⟩
  refine (executed_doState env (batteryEdges env core) hcmd).trans ?_
  rw [executed_batteryEdges env core hcmd, hbranch, hupdate, branchCommand_edit]

/-- The commands of a pass that its branch decides. -/
theorem executed_doAction :
    (doAction env core).executed cmd ↔
      core.executed cmd ∨
        branchCommand env (passBranch env (passHead env core).ups)
          (branchUpdate env (passBranch env (passHead env core).ups)
            (passHead env core).ups) = some cmd := by
  rw [← executed_passHead env core hcmd]
  unfold passBranch
  cases hremote : (passHead env core).ups.isShutRemote with
  | true =>
      rw [doAction_of_remote hremote, executed_remoteShutdown env _ hcmd]
      simp [branchCommand]
  | false =>
      rw [doAction_of_not_remote hremote, if_neg (by decide),
        ← executed_switchState env _ hcmd]
      have htail : ∀ done : Core, (rememberStatus (reapChildren env done)).executed cmd ↔
          done.executed cmd := by
        intro done
        unfold reapChildren
        split <;> rfl
      exact andThen_rel
        (P := fun after => after.executed cmd ↔ (switchState env _).executed cmd)
        Iff.rfl (htail _)

end Timed

/-- No pass announces that the connection is lost or restored. -/
theorem executed_doAction_comm (env : PassEnv) (core : Core) {cmd : Command}
    (hcomm : cmd = .cmdCommfailure ∨ cmd = .cmdCommok) :
    (doAction env core).executed cmd ↔ core.executed cmd := by
  have hdecided : cmd.isDecided = true := by
    rcases hcomm with rfl | rfl <;> rfl
  have hother : ∀ branch updated, branchCommand env branch updated ≠ some cmd := by
    intro branch updated hcommand
    have htimed : cmd.isTimed = true := isTimed_of_branchCommand hcommand
    rcases hcomm with rfl | rfl <;> cases htimed
  rw [executed_doAction env core hdecided, or_iff_left (hother _ _)]

/-! ## The flags that the arms write -/

/-- The limit timers write their own two flags. -/
theorem limitTimers_test {mask : StatusWord} (hmask : (upsShutLoad ||| upsShutLtime) &&& mask = 0)
    (env : PassEnv) (ups : UpsInfo) :
    (runtimeLimitTimer env (loadLimitTimer env ups)).test mask = ups.test mask := by
  have hmasks : upsShutLoad &&& mask = 0 ∧ upsShutLtime &&& mask = 0 := by
    rw [BitVec.and_comm] at hmask
    refine ⟨?_, ?_⟩
    · rw [BitVec.and_comm]
      exact and_eq_zero_of_inside (by decide) hmask
    · rw [BitVec.and_comm]
      exact and_eq_zero_of_inside (by decide) hmask
  have hload : (loadLimitTimer env ups).test mask = ups.test mask := by
    unfold loadLimitTimer
    split_ifs
    · rfl
    · exact UpsInfo.test_set_of_disjoint hmasks.1 ups
    · exact UpsInfo.test_clear_of_disjoint hmasks.1 ups
  rw [← hload]
  unfold runtimeLimitTimer
  split_ifs
  · rfl
  · exact UpsInfo.test_set_of_disjoint hmasks.2 _
  · exact UpsInfo.test_clear_of_disjoint hmasks.2 _

/-- The arms write three flags: that of the announcement and those of the limit timers. -/
theorem stateUpdate_test {mask : StatusWord}
    (hmask : (upsOnbattMsg ||| upsShutLoad ||| upsShutLtime) &&& mask = 0) (env : PassEnv)
    (branch : PassBranch) (ups : UpsInfo) :
    (stateUpdate env branch ups).test mask = ups.test mask := by
  have hmasks : upsOnbattMsg &&& mask = 0 ∧ (upsShutLoad ||| upsShutLtime) &&& mask = 0 := by
    rw [BitVec.and_comm] at hmask
    refine ⟨?_, ?_⟩
    · rw [BitVec.and_comm]
      exact and_eq_zero_of_inside (by decide) hmask
    · rw [BitVec.and_comm]
      exact and_eq_zero_of_inside (by decide) hmask
  cases branch with
  | announce => exact UpsInfo.test_set_of_disjoint hmasks.1 ups
  | evaluate => exact limitTimers_test hmasks.2 env ups
  | mainsBack => exact UpsInfo.test_clear_of_disjoint hmasks.1 ups
  | _ => rfl

/-- The flag of the announcement after a branch. -/
def PassBranch.announces (branch : PassBranch) (announced : Bool) : Bool :=
  match branch with
  | .announce => true
  | .mainsBack => false
  | _ => announced

theorem branchUpdate_isOnbattMsg (env : PassEnv) (branch : PassBranch) (ups : UpsInfo) :
    (branchUpdate env branch ups).isOnbattMsg = branch.announces ups.isOnbattMsg := by
  have hstamp : (stampBattlow env ups).isOnbattMsg = ups.isOnbattMsg := by
    unfold stampBattlow
    split <;> rfl
  rw [← hstamp]
  cases branch with
  | remote => exact hstamp.symm
  | announce => exact UpsInfo.test_set_self _ _
  | mainsBack => exact UpsInfo.test_clear_self (by decide) _
  | evaluate => exact limitTimers_test (by decide) env _
  | _ => rfl

/-! ## The shutdown flag -/

/-- A shutdown that is under way when a pass begins is under way when it ends. -/
theorem doAction_keeps_isShutdown (env : PassEnv) (core : Core)
    (hshutdown : (passHead env core).ups.isShutdown = true) :
    (doAction env core).ups.isShutdown = true := by
  refine (doAction_frame env core).shutdown ?_
  have hstamp : ∀ ups : UpsInfo, (stampBattlow env ups).isShutdown = ups.isShutdown := by
    intro ups
    unfold stampBattlow
    split <;> rfl
  generalize passBranch env (passHead env core).ups = branch
  cases branch with
  | remote => exact hshutdown
  | _ => exact (stateUpdate_test (by decide) env _ _).trans ((hstamp _).trans hshutdown)

theorem doOnBattery_isShutdown (env : PassEnv) (core : Core) {cmd : Command}
    (hcause : cmd.isShutdownCause = true)
    (hcommand : branchCommand env (batteryBranch env core.ups)
      (stateUpdate env (batteryBranch env core.ups) core.ups) = some cmd) :
    (doOnBattery env core).ups.isShutdown = true := by
  unfold batteryBranch at hcommand
  unfold doOnBattery
  split_ifs at hcommand ⊢ with hannounce hshutdown htimeout
  · obtain rfl : Command.cmdOnbattery = cmd := Option.some_inj.mp hcommand
    cases hcause
  · cases hcommand
  · unfold evaluateBattery
    rw [if_pos (of_decide_eq_true htimeout)]
    exact generateEvent_isShutdown env _ rfl
  · unfold evaluateBattery
    rw [if_neg (of_decide_eq_false (Bool.eq_false_iff.mpr htimeout))]
    change expiredCommand env
      (core.mapUps (stateUpdate env .evaluate)).ups = some cmd at hcommand
    change (expiredTimers env (core.mapUps (stateUpdate env .evaluate))).ups.isShutdown = true
    generalize core.mapUps (stateUpdate env .evaluate) = timed at hcommand ⊢
    unfold expiredCommand at hcommand
    unfold expiredTimers
    split_ifs at hcommand ⊢
    · exact generateEvent_isShutdown env timed rfl
    · exact generateEvent_isShutdown env timed rfl
    · exact generateEvent_isShutdown env timed rfl

theorem doState_isShutdown (env : PassEnv) (core : Core) {cmd : Command}
    (hcause : cmd.isShutdownCause = true)
    (hcommand : branchCommand env (stateBranch env core.ups)
      (stateUpdate env (stateBranch env core.ups) core.ups) = some cmd) :
    (doState env (getState core.ups) core).ups.isShutdown = true := by
  unfold stateBranch at hcommand
  cases hstate : getState core.ups with
  | stOnBattery =>
      rw [hstate] at hcommand
      exact doOnBattery_isShutdown env core hcause hcommand
  | stSelfTest =>
      rw [hstate] at hcommand
      dsimp only at hcommand
      unfold doState doSelfTest
      dsimp only
      split_ifs at hcommand ⊢
      · cases hcommand
      · let cancelled := core.mapUps (UpsInfo.edit 0 core.ups.numExecedChildren)
        have hcancelled : branchCommand env (batteryBranch env cancelled.ups)
            (stateUpdate env (batteryBranch env cancelled.ups) cancelled.ups) = some cmd := by
          unfold cancelled
          rw [mapUps_ups, stateUpdate_edit, branchCommand_edit]
          exact hcommand
        exact doOnBattery_isShutdown env cancelled hcause hcancelled
  | _ =>
      rw [hstate] at hcommand
      cases hcommand

/-- A shutdown command leaves the shutdown flag raised. -/
theorem doAction_isShutdown (env : PassEnv) (core : Core) {cmd : Command}
    (hcause : cmd.isShutdownCause = true)
    (hcommand : branchCommand env (passBranch env (passHead env core).ups)
      (branchUpdate env (passBranch env (passHead env core).ups)
        (passHead env core).ups) = some cmd) :
    (doAction env core).ups.isShutdown = true := by
  unfold passBranch at hcommand
  cases hremote : (passHead env core).ups.isShutRemote with
  | true =>
      rw [hremote] at hcommand
      cases hcommand
  | false =>
      rw [hremote, if_neg (by decide)] at hcommand
      rw [doAction_of_not_remote hremote]
      rcases batteryEdges_update env (passHead env core) with
        ⟨hbranch, selfTest, children, hupdate⟩
      have hswitch : (switchState env (passHead env core)).ups.isShutdown = true := by
        refine doState_isShutdown env _ hcause ?_
        rw [hbranch, hupdate, branchCommand_edit]
        exact hcommand
      refine andThen_rel (P := fun after => after.ups.isShutdown = true) hswitch ?_
      exact (rememberStatus_frame _).shutdown ((reapChildren_frame env _).shutdown hswitch)

/-- A remote shutdown request that was not pending before raises the shutdown
flag. -/
theorem doAction_isShutdown_of_remote (env : PassEnv) (core : Core)
    (hremote : (passHead env core).ups.isShutRemote = true)
    (hedge : (passHead env core).ups.chgShutRemote = true) :
    (doAction env core).ups.isShutdown = true := by
  rw [doAction_of_remote hremote]
  unfold remoteShutdown
  rw [if_pos hedge]
  have hannounced : (generateEvent env (passHead env core) .cmdRemotedown).ups.isShutdown =
      true := generateEvent_isShutdown env _ rfl
  exact andThen_rel (P := fun after => after.ups.isShutdown = true) hannounced hannounced

end Apcupsd
