import Apcupsd.Core.DoAction
import Apcupsd.Core.EventSpec

/-!
# What a pass writes

A pass of {lit}`do_action` read from outside: the branch it takes is a function of
the record at its start, and the record it leaves differs from that branch's own
update only in what events and drivers may write.

Main results:

- Definitions {lit}`passBranch` and {lit}`branchUpdate`: the branch of a pass and its
  own update of the timers.
- Theorem {lit}`passHead_frames`: the reminders at the head of a pass.
- Theorem {lit}`doState_frame`: the timers and flags after the state switch are those
  of the arm's own update.
-/

namespace Apcupsd

open BitFlags Apcupsd.Core

/-! ## Branches -/

/-- The branch that a pass takes: the early return, or the arm of the state switch
with the arm of {lit}`st_OnBattery` spelled out.  {lit}`evaluate` is the arm that
compares charge and runtime with their limits. -/
inductive PassBranch where
  | remote | onMains | powerFailure | selfTest | announce | shutdownRunning
  | timeout | evaluate | mainsBack | calibration
deriving DecidableEq, Repr

/-- The test of {lit}`TIMEOUT`. -/
def timeoutDue (env : PassEnv) (ups : UpsInfo) : Bool :=
  decide (ups.maxtime > 0 ∧ env.now - ups.lastTimeOnLine > ups.maxtime)

/-- The arm that {lit}`st_OnBattery` takes. -/
def batteryBranch (env : PassEnv) (ups : UpsInfo) : PassBranch :=
  if announceDue env ups then .announce
  else if ups.isShutdown then .shutdownRunning
  else if timeoutDue env ups then .timeout
  else .evaluate

/-- The arm that the state switch takes. -/
def stateBranch (env : PassEnv) (ups : UpsInfo) : PassBranch :=
  match getState ups with
  | .stOnMains => .onMains
  | .stPowerFailure => .powerFailure
  | .stSelfTest => if selfTestRunning env ups then .selfTest else batteryBranch env ups
  | .stOnBattery => batteryBranch env ups
  | .stMainsBack => .mainsBack
  | .stCalibration => .calibration

/-- The branch of a pass over the record that {lit}`passHead` leaves. -/
def passBranch (env : PassEnv) (ups : UpsInfo) : PassBranch :=
  if ups.isShutRemote then .remote else stateBranch env ups

/-- The branches that the state switch takes on battery and outside a
calibration. -/
def PassBranch.onBattery : PassBranch → Bool
  | .powerFailure | .selfTest | .announce | .shutdownRunning | .timeout | .evaluate => true
  | .remote | .onMains | .mainsBack | .calibration => false

/-- {lit}`last_time_nologon = last_time_annoy = last_time_on_line = now`. -/
def restamp (now : Int) (ups : UpsInfo) : UpsInfo :=
  { ups with lastTimeNologon := now, lastTimeAnnoy := now, lastTimeOnLine := now }

/-- The low-battery timer as a change of the record. -/
def stampBattlow (env : PassEnv) (ups : UpsInfo) : UpsInfo :=
  if ups.chgBattlow && ups.isBattlow then { ups with startShutLbatt := env.now }
  else ups

/-- The change that an arm of the state switch itself makes to the timers and
their flags. -/
def stateUpdate (env : PassEnv) (branch : PassBranch) (ups : UpsInfo) : UpsInfo :=
  match branch with
  | .onMains => restamp env.now ups
  | .powerFailure =>
      { restamp env.now ups with
        lastOnbattTime := env.now
        numXfers := ups.numXfers + 1 }
  | .announce => restamp env.now ups.setOnbattMsg
  | .evaluate => runtimeLimitTimer env (loadLimitTimer env ups)
  | .mainsBack => closeOutage env ups.clearOnbattMsg
  | .remote | .selfTest | .shutdownRunning | .timeout | .calibration => ups

/-- The change that a pass itself makes to the timers and their flags. -/
def branchUpdate (env : PassEnv) (branch : PassBranch) (ups : UpsInfo) : UpsInfo :=
  match branch with
  | .remote => ups
  | branch => stateUpdate env branch (stampBattlow env ups)

/-- Which expired timer an evaluation acts on. -/
def expiredCommand (env : PassEnv) (ups : UpsInfo) : Option Command :=
  if ups.isBattlow ∧ env.now - ups.startShutLbatt ≥ 5 then some .cmdFailing
  else if ups.isShutLoad ∧ env.now - ups.startShutLoad ≥ 5 then some .cmdLoadlimit
  else if ups.isShutLtime ∧ env.now - ups.startShutLtime ≥ 5 then some .cmdRunlimit
  else none

/-- The announcement or shutdown command that a branch executes, given the
record with the updates of the branch. -/
def branchCommand (env : PassEnv) (branch : PassBranch) (updated : UpsInfo) :
    Option Command :=
  match branch with
  | .announce => some .cmdOnbattery
  | .timeout => some .cmdTimeout
  | .evaluate => expiredCommand env updated
  | _ => none

/-- The commands that {lit}`branchCommand` accounts for. -/
def Command.isTimed : Command → Bool
  | .cmdOnbattery | .cmdTimeout | .cmdFailing | .cmdLoadlimit | .cmdRunlimit => true
  | _ => false

theorem isTimed_of_branchCommand {env : PassEnv} {branch : PassBranch} {updated : UpsInfo}
    {cmd : Command} (hcommand : branchCommand env branch updated = some cmd) :
    cmd.isTimed = true := by
  unfold branchCommand expiredCommand at hcommand
  cases branch with
  | announce | timeout => exact Option.some.inj hcommand ▸ rfl
  | evaluate =>
      dsimp only at hcommand
      split_ifs at hcommand <;> exact Option.some.inj hcommand ▸ rfl
  | _ => cases hcommand

/-- A pass in one of the branches on battery has {lit}`onbatt` set and
{lit}`calibration` clear. -/
theorem PassBranch.onBattery_passBranch {env : PassEnv} {ups : UpsInfo}
    (hbranch : (passBranch env ups).onBattery = true) :
    ups.isOnbatt = true ∧ ups.isCalibration = false := by
  unfold passBranch stateBranch getState at hbranch
  cases honbatt : ups.isOnbatt with
  | true =>
      cases hcalibration : ups.isCalibration with
      | true => split_ifs at hbranch <;> simp_all [PassBranch.onBattery]
      | false => exact ⟨rfl, rfl⟩
  | false => split_ifs at hbranch <;> simp_all [PassBranch.onBattery]

/-! ## The head of a pass -/

/-- What the reminders at the head of a pass leave of the record that the driver
filled in. -/
structure ReadFrame (before after : UpsInfo) : Prop where
  prev : after.prevStatus = before.prevStatus
  driver : after.toDriverFields =
    { before.toDriverFields with numExecedChildren := after.numExecedChildren }
  bits : after.status &&& ~~~upsReplacebatt = before.status &&& ~~~upsReplacebatt

namespace ReadFrame

theorem refl (ups : UpsInfo) : ReadFrame ups ups :=
  ⟨rfl, rfl, rfl⟩

theorem test_eq {before after : UpsInfo} (hframe : ReadFrame before after)
    {mask : StatusWord} (hmask : mask &&& ~~~upsReplacebatt = mask) :
    after.test mask = before.test mask :=
  testMask_eq_of_and_eq hmask hframe.bits

end ReadFrame

theorem replaceBattery_frames (env : PassEnv) (core : Core) :
    TimerFrame core.ups (replaceBattery env core).ups ∧
      ReadFrame core.ups (replaceBattery env core).ups := by
  unfold replaceBattery
  split_ifs
  · refine ⟨⟨rfl, rfl, ?_, ?_⟩, rfl, rfl, ?_⟩
    · exact dropMask_and_of_disjoint (by decide) core.ups.status
    · intro hbefore
      exact (UpsInfo.test_clear_of_disjoint (by decide) core.ups).trans hbefore
    · change (core.ups.status &&& ~~~upsReplacebatt) &&& ~~~upsReplacebatt = _
      rw [BitVec.and_assoc, BitVec.and_self]
  · have hevent : Command.isShutdownCause .cmdChangeme = false := rfl
    rcases generateEvent_ups env core hevent with ⟨children, hups⟩
    rw [mapUps_ups, hups]
    exact ⟨⟨rfl, rfl, rfl, id⟩, rfl, rfl, rfl⟩
  · exact ⟨TimerFrame.refl core.ups, ReadFrame.refl core.ups⟩
  · exact ⟨TimerFrame.refl core.ups, ReadFrame.refl core.ups⟩

/-- Between the first-call statements and the state switch the record changes only
in what the reminders write. -/
theorem passHead_frames (env : PassEnv) (core : Core) :
    TimerFrame (firstCall env core).ups (passHead env core).ups ∧
      ReadFrame (firstCall env core).ups (passHead env core).ups :=
  replaceBattery_frames env (firstCall env core)

/-- Only the first call of the process changes the record before the reminders. -/
theorem firstCall_of_not_first {core : Core} (hfirst : core.first = false)
    (env : PassEnv) : firstCall env core = core := by
  simp [firstCall, hfirst]

@[simp]
theorem firstCall_exited (env : PassEnv) (core : Core) :
    (firstCall env core).exited = core.exited := by
  unfold firstCall
  split <;> rfl

@[simp]
theorem passHead_exited (env : PassEnv) (core : Core) :
    (passHead env core).exited = core.exited := by
  unfold passHead replaceBattery
  split_ifs
  · exact firstCall_exited env core
  · exact (generateEvent_exited env (firstCall env core) rfl).trans
      (firstCall_exited env core)
  · exact firstCall_exited env core
  · exact firstCall_exited env core

theorem batteryEdges_exited (env : PassEnv) (core : Core) :
    (batteryEdges env core).exited = core.exited := by
  have hattach : (batteryAttach env core).exited = core.exited := by
    unfold batteryAttach
    split_ifs
    · exact generateEvent_exited env core rfl
    · exact generateEvent_exited env core rfl
    · rfl
  unfold batteryEdges batteryLowTimer
  split
  · exact hattach
  · exact hattach

/-- The battery edges change the low-battery timer and the count of children. -/
theorem batteryEdges_ups (env : PassEnv) (core : Core) :
    ∃ children, (batteryEdges env core).ups =
      { stampBattlow env core.ups with numExecedChildren := children } := by
  have hattach : ∃ children, (batteryAttach env core).ups =
      { core.ups with numExecedChildren := children } := by
    unfold batteryAttach
    split_ifs
    · exact generateEvent_ups env core rfl
    · exact generateEvent_ups env core rfl
    · exact ⟨core.ups.numExecedChildren, rfl⟩
  rcases hattach with ⟨children, hups⟩
  refine ⟨children, ?_⟩
  have htimer : (batteryEdges env core).ups =
      stampBattlow env (batteryAttach env core).ups := by
    unfold batteryEdges batteryLowTimer stampBattlow
    split <;> rfl
  rw [htimer, hups]
  exact (apply_ite (fun ups : UpsInfo => { ups with numExecedChildren := children })
    ((core.ups.chgBattlow && core.ups.isBattlow) = true)
    { core.ups with startShutLbatt := env.now } core.ups).symm

/-! ## The record after each state -/

namespace TimerFrame

/-- Dropping a flag outside the timer bits respects the frame. -/
theorem ofClear {mask : StatusWord} (hmask : mask &&& timerBits = 0)
    (hshutdown : mask &&& upsShutdown = 0) (ups : UpsInfo) :
    TimerFrame ups (ups.clear mask) where
  config := rfl
  core := rfl
  bits := dropMask_and_of_disjoint hmask ups.status
  shutdown := fun hbefore =>
    (UpsInfo.test_clear_of_disjoint hshutdown ups).trans hbefore

/-- Restamping both records keeps the frame. -/
theorem restamp {before after : UpsInfo} (hframe : TimerFrame before after)
    (now : Int) : TimerFrame (restamp now before) (restamp now after) where
  config := hframe.config
  core := congrArg
    (fun core : CoreFields =>
      { core with lastTimeNologon := now, lastTimeAnnoy := now, lastTimeOnLine := now })
    hframe.core
  bits := hframe.bits
  shutdown := hframe.shutdown

end TimerFrame

theorem deviceEntryPoint_frame (env : PassEnv) (core : Core) (cmd : DeviceCmd) :
    TimerFrame core.ups (deviceEntryPoint env core cmd).ups := by
  unfold deviceEntryPoint
  exact TimerFrame.ofDriver (driverCall_frame (core.emit (.entryPoint cmd)) _)

theorem doOnMains_frame (env : PassEnv) (core : Core) :
    TimerFrame (restamp env.now core.ups) (doOnMains env core).ups :=
  TimerFrame.ofClear (by decide) (by decide) (restamp env.now core.ups)

/-- The record that the arm of {lit}`st_PowerFailure` leaves: the driver has checked for a
self test before the arm writes, and enables DTR after it. -/
theorem doPowerFailure_ups (env : PassEnv) (core : Core) :
    ∃ children, (doPowerFailure env core).ups =
      applyUpdates env.dtrEnable (stateUpdate env .powerFailure
        { applyUpdates env.checkSelftest core.ups.setFastpoll with
          numExecedChildren := children }) := by
  let checked := deviceEntryPoint env (core.mapUps UpsInfo.setFastpoll) .checkSelftest
  let announced :=
    if checked.ups.selfTest ≠ 0 then generateEvent env checked .cmdStartselftest
    else generateEvent env checked .cmdPowerout
  have hchecked : checked.ups = applyUpdates env.checkSelftest core.ups.setFastpoll :=
    driverCall_ups _ _
  have hannounced : ∃ children,
      announced.ups = { checked.ups with numExecedChildren := children } := by
    unfold announced
    split
    · exact generateEvent_ups env checked rfl
    · exact generateEvent_ups env checked rfl
  rcases hannounced with ⟨children, hups⟩
  have hlast : (doPowerFailure env core).ups =
      applyUpdates env.dtrEnable (stateUpdate env .powerFailure announced.ups) :=
    driverCall_ups _ _
  exact ⟨children, by rw [hlast, hups, hchecked]⟩

theorem doPowerFailure_exited (env : PassEnv) (core : Core) :
    (doPowerFailure env core).exited = core.exited := by
  have hcalled : ∀ (core : Core) (cmd : DeviceCmd),
      (deviceEntryPoint env core cmd).exited = core.exited :=
    fun core cmd => driverCall_exited (core.emit (.entryPoint cmd)) _
  have hchecked := hcalled (core.mapUps UpsInfo.setFastpoll) .checkSelftest
  unfold doPowerFailure
  dsimp only
  refine (hcalled _ _).trans ?_
  split
  · exact (generateEvent_exited env _ rfl).trans hchecked
  · exact (generateEvent_exited env _ rfl).trans hchecked

theorem doPowerFailure_frame (env : PassEnv) (core : Core) :
    TimerFrame (stateUpdate env .powerFailure core.ups) (doPowerFailure env core).ups := by
  rcases doPowerFailure_ups env core with ⟨children, hups⟩
  have hdriver : ∀ (updates : List DriverUpdate) (ups : UpsInfo),
      TimerFrame ups (applyUpdates updates ups) :=
    fun updates ups => TimerFrame.ofDriver (applyUpdates_frame updates ups)
  have hfastpoll : TimerFrame core.ups core.ups.setFastpoll :=
    TimerFrame.ofSet (by decide) core.ups
  have hannounced : TimerFrame core.ups
      { applyUpdates env.checkSelftest core.ups.setFastpoll with
        numExecedChildren := children } :=
    (hfastpoll.trans (hdriver _ _)).trans ⟨rfl, rfl, rfl, id⟩
  have hstamped : TimerFrame (stateUpdate env .powerFailure core.ups)
      (stateUpdate env .powerFailure
        { applyUpdates env.checkSelftest core.ups.setFastpoll with
          numExecedChildren := children }) :=
    { hannounced.restamp env.now with
      core := congrArg
        (fun fields : CoreFields =>
          { fields with lastOnbattTime := env.now, numXfers := fields.numXfers + 1 })
        (hannounced.restamp env.now).core }
  rw [hups]
  exact hstamped.trans (hdriver _ _)

theorem announceOnBattery_frame (env : PassEnv) (core : Core) :
    TimerFrame (restamp env.now core.ups.setOnbattMsg) (announceOnBattery env core).ups :=
  (generateEvent_frame env (core.mapUps UpsInfo.setOnbattMsg) .cmdOnbattery).restamp
    env.now

theorem shutdownRunning_frame (env : PassEnv) (core : Core) :
    TimerFrame core.ups (shutdownRunning env core).ups := by
  unfold shutdownRunning
  split
  · dsimp only
    have hhibernated : TimerFrame core.ups
        (if core.ups.isSlave then core else initiateHibernate env core).ups := by
      split
      · exact TimerFrame.refl core.ups
      · exact TimerFrame.ofDriver (initiateHibernate_frame env core)
    refine andThen_rel (P := fun after => TimerFrame core.ups after.ups) hhibernated ?_
    have hstamped : TimerFrame core.ups
        { (if core.ups.isSlave then core else initiateHibernate env core).ups with
          shutDown := env.now } :=
      hhibernated.trans ⟨rfl, rfl, rfl, id⟩
    exact hstamped.trans (TimerFrame.ofSet (by decide) _)
  · exact TimerFrame.refl core.ups

theorem emergency_frame (env : PassEnv) (core : Core) :
    TimerFrame core.ups (emergency env core).ups := by
  unfold emergency
  split
  · exact (TimerFrame.ofSet (by decide) core.ups).trans
      (generateEvent_frame env (core.mapUps UpsInfo.setShutEmerg) _)
  · exact TimerFrame.refl core.ups

theorem annoyUsers_frame (env : PassEnv) (core : Core) :
    TimerFrame core.ups (annoyUsers env core).ups := by
  have hstamp : ∀ ups : UpsInfo, TimerFrame ups { ups with lastTimeAnnoy := env.annoyTime } :=
    fun ups => ⟨rfl, rfl, rfl, id⟩
  unfold annoyUsers
  split_ifs
  · exact (executeCommand_frame env core .cmdAnnoyme).trans (hstamp _)
  · exact (generateEvent_frame env core .cmdAnnoyme).trans (hstamp _)
  · exact TimerFrame.refl core.ups

theorem delayNologon_frame (env : PassEnv) (core : Core) :
    TimerFrame core.ups (delayNologon env core).ups := by
  have hstay := TimerFrame.refl core.ups
  have hprohibit := prohibitLogins_frame core
  unfold delayNologon
  split
  · exact hstay
  · split
    · exact hstay
    · split
      · exact hprohibit
      · exact hstay
    · split
      · exact hprohibit
      · exact hstay
    · split
      · exact hprohibit
      · exact hstay
    · exact hprohibit
    · exact hprohibit

theorem expiredTimers_frame (env : PassEnv) (core : Core) :
    TimerFrame core.ups (expiredTimers env core).ups := by
  unfold expiredTimers
  split_ifs
  · exact generateEvent_frame env core .cmdFailing
  · exact generateEvent_frame env core .cmdLoadlimit
  · exact generateEvent_frame env core .cmdRunlimit
  · have hemergency := emergency_frame env core
    have hannoyed : TimerFrame core.ups
        ((emergency env core).andThen (annoyUsers env)).ups :=
      andThen_rel (P := fun after => TimerFrame core.ups after.ups) hemergency
        (hemergency.trans (annoyUsers_frame env _))
    exact andThen_rel (P := fun after => TimerFrame core.ups after.ups) hannoyed
      (hannoyed.trans (delayNologon_frame env _))

/-- The arm of {lit}`st_OnBattery` that {lit}`batteryBranch` names. -/
theorem doOnBattery_frame (env : PassEnv) (core : Core) :
    TimerFrame (stateUpdate env (batteryBranch env core.ups) core.ups)
      (doOnBattery env core).ups := by
  unfold doOnBattery batteryBranch
  split_ifs with hannounce hshutdown htimeout
  · exact announceOnBattery_frame env core
  · exact shutdownRunning_frame env core
  · unfold evaluateBattery
    rw [if_pos (of_decide_eq_true htimeout)]
    exact (TimerFrame.ofSet (by decide) core.ups).trans
      (generateEvent_frame env (core.mapUps UpsInfo.setShutBtime) .cmdTimeout)
  · unfold evaluateBattery
    rw [if_neg (of_decide_eq_false (Bool.eq_false_iff.mpr htimeout))]
    exact expiredTimers_frame env (core.mapUps (stateUpdate env .evaluate))

/-- The driver fields that neither the timers nor the limits read. -/
def UpsInfo.edit (selfTest : Int) (children : Int) (ups : UpsInfo) : UpsInfo :=
  { ups with selfTest := selfTest, numExecedChildren := children }

theorem UpsInfo.edit_frame (selfTest : Int) (children : Int) (ups : UpsInfo) :
    TimerFrame ups (ups.edit selfTest children) :=
  ⟨rfl, rfl, rfl, id⟩

theorem loadLimitTimer_edit (env : PassEnv) (selfTest : Int) (children : Int)
    (ups : UpsInfo) :
    loadLimitTimer env (ups.edit selfTest children) =
      (loadLimitTimer env ups).edit selfTest children := by
  unfold loadLimitTimer
  rw [apply_ite (UpsInfo.edit selfTest children), apply_ite (UpsInfo.edit selfTest children)]
  rfl

theorem runtimeLimitTimer_edit (env : PassEnv) (selfTest : Int) (children : Int)
    (ups : UpsInfo) :
    runtimeLimitTimer env (ups.edit selfTest children) =
      (runtimeLimitTimer env ups).edit selfTest children := by
  unfold runtimeLimitTimer
  rw [apply_ite (UpsInfo.edit selfTest children), apply_ite (UpsInfo.edit selfTest children)]
  rfl

theorem stateUpdate_edit (env : PassEnv) (branch : PassBranch) (selfTest : Int)
    (children : Int) (ups : UpsInfo) :
    stateUpdate env branch (ups.edit selfTest children) =
      (stateUpdate env branch ups).edit selfTest children := by
  cases branch with
  | evaluate =>
      unfold stateUpdate
      dsimp only
      rw [loadLimitTimer_edit, runtimeLimitTimer_edit]
  | _ => rfl

theorem doSelfTest_frame (env : PassEnv) (core : Core) :
    TimerFrame
      (stateUpdate env
        (if selfTestRunning env core.ups then .selfTest else batteryBranch env core.ups)
        core.ups)
      (doSelfTest env core).ups := by
  unfold doSelfTest
  split
  · exact TimerFrame.refl core.ups
  · have hcancelled := doOnBattery_frame env
      (core.mapUps (UpsInfo.edit 0 core.ups.numExecedChildren))
    have hedit : TimerFrame (stateUpdate env (batteryBranch env core.ups) core.ups)
        (stateUpdate env (batteryBranch env core.ups)
          (core.ups.edit 0 core.ups.numExecedChildren)) := by
      rw [stateUpdate_edit]
      exact UpsInfo.edit_frame _ _ _
    exact hedit.trans hcancelled

theorem clearOnbattMsg_of_clear {ups : UpsInfo} (hmsg : ups.isOnbattMsg = false) :
    ups.clearOnbattMsg = ups := by
  have hdrop : dropMask ups.status upsOnbattMsg = ups.status :=
    dropMask_twoPow_of_clear (show 17 < 32 by decide) hmsg
  unfold UpsInfo.clearOnbattMsg UpsInfo.clear
  rw [hdrop]

/-- Closing both records keeps the frame. -/
theorem TimerFrame.closeOutage {before after : UpsInfo} (hframe : TimerFrame before after)
    (env : PassEnv) : TimerFrame (closeOutage env before) (closeOutage env after) where
  config := hframe.config
  core := congrArg
    (fun fields : CoreFields =>
      let onbattTime := if fields.lastOnbattTime ≤ 0 then env.now else fields.lastOnbattTime
      { fields with
        lastOffbattTime := env.now
        lastOnbattTime := onbattTime
        cumTimeOnBatt := fields.cumTimeOnBatt + (env.now - onbattTime) })
    hframe.core
  bits := hframe.bits
  shutdown := hframe.shutdown

theorem endSelfTest_frame (env : PassEnv) (core : Core) :
    TimerFrame core.ups (endSelfTest env core).ups := by
  let stored := core.mapUps fun ups =>
    { ups with lastSelfTest := ups.selfTest, selfTest := 0 }
  have hstored : TimerFrame core.ups stored.ups := ⟨rfl, rfl, rfl, id⟩
  have hasked := hstored.trans (deviceEntryPoint_frame env stored .getSelftestMsg)
  exact hasked.trans (executeCommand_frame env (logEvent _ _ _) .cmdEndselftest)

theorem doMainsBack_frame (env : PassEnv) (core : Core) :
    TimerFrame (stateUpdate env .mainsBack core.ups) (doMainsBack env core).ups := by
  let withdrawn :=
    if core.ups.isOnbattMsg then
      generateEvent env (core.mapUps UpsInfo.clearOnbattMsg) .cmdOffbattery
    else core
  let ended :=
    if withdrawn.ups.selfTest ≠ 0 then endSelfTest env withdrawn
    else generateEvent env withdrawn .cmdMainsback
  let allowed :=
    if ended.ups.nologinFile then logEvent ended .logAlert "Allowing logins" else ended
  let opened :=
    { (logonfail allowed true).mapUps (fun ups => { ups with nologinFile := false }) with
      requestedLogoff := false }
  have hwithdrawn : TimerFrame core.ups.clearOnbattMsg withdrawn.ups := by
    unfold withdrawn
    split
    · exact generateEvent_frame env (core.mapUps UpsInfo.clearOnbattMsg) .cmdOffbattery
    · rename_i hmsg
      rw [clearOnbattMsg_of_clear (Bool.eq_false_iff.mpr hmsg)]
      exact TimerFrame.refl core.ups
  have hended : TimerFrame withdrawn.ups ended.ups := by
    unfold ended
    split
    · exact endSelfTest_frame env withdrawn
    · exact generateEvent_frame env withdrawn .cmdMainsback
  have hallowed : allowed.ups = ended.ups := by
    unfold allowed
    split <;> rfl
  have hopened : TimerFrame allowed.ups opened.ups := ⟨rfl, rfl, rfl, id⟩
  rw [hallowed] at hopened
  have hdisabled := deviceEntryPoint_frame env opened .dtrStDisable
  exact (((hwithdrawn.trans hended).trans hopened).trans hdisabled).closeOutage env

/-- The state switch: the timers and their flags after it are those of the arm's
own update. -/
theorem doState_frame (env : PassEnv) (core : Core) :
    TimerFrame (stateUpdate env (stateBranch env core.ups) core.ups)
      (doState env (getState core.ups) core).ups := by
  unfold stateBranch
  cases getState core.ups with
  | stOnMains => exact doOnMains_frame env core
  | stPowerFailure => exact doPowerFailure_frame env core
  | stSelfTest => exact doSelfTest_frame env core
  | stOnBattery => exact doOnBattery_frame env core
  | stMainsBack => exact doMainsBack_frame env core
  | stCalibration => exact TimerFrame.refl core.ups

end Apcupsd
