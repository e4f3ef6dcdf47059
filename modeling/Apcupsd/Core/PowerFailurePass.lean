import Apcupsd.Core.RunHistory
import Apcupsd.Core.Transitions

/-!
# The answer to a power failure

What a {lit}`st_PowerFailure` pass does that no other pass does: it counts a transfer,
generates one of the two events of an outage, and asks the driver to check for a
self test.

Main results:

- Theorem {lit}`outageEvents_doAction`: a pass generates {lit}`CMDPOWEROUT` or
  {lit}`CMDSTARTSELFTEST` once if it takes {lit}`st_PowerFailure`, and never otherwise.
- Theorem {lit}`doAction_numXfers`: the same passes count a transfer.
- Theorem {lit}`doAction_of_not_powerFailure`: other passes do not check for a self test.
- Theorem {lit}`doAction_of_powerFailure`: the bits of the driver after the pass are
  those that the check for a self test leaves.
-/

namespace Apcupsd

open BitFlags Apcupsd.Core

/-! ## The events of an outage -/

/-- The two events that announce an outage. -/
def Command.isOutageEvent : Command → Bool
  | .cmdPowerout | .cmdStartselftest => true
  | _ => false

def Effect.isOutageEvent : Effect → Bool
  | .executeCommand cmd => cmd.isOutageEvent
  | _ => false

/-- How often the log shows one of the two events. -/
def outageEvents (core : Core) : ℕ :=
  core.log.countP Effect.isOutageEvent

theorem outageEvents_logEvent (core : Core) (level : LogLevel) (msg : String) :
    outageEvents (logEvent core level msg) = outageEvents core := by
  unfold outageEvents logEvent emit
  rw [List.countP_append]
  rfl

/-- The reading of the log that keeps the two events. -/
def outageEvent : Effect → Option Effect :=
  Option.guard Effect.isOutageEvent

theorem outageEvent_readsOutage : ReadsOutage outageEvent := by
  intro effect hother
  have hnone : effect.isOutageEvent = false := by
    cases effect with
    | executeCommand cmd =>
        cases cmd with
        | cmdPowerout | cmdStartselftest => cases hother
        | _ => rfl
    | _ => rfl
  unfold outageEvent Option.guard
  rw [hnone]
  rfl

/-- Of the arms only that of {lit}`st_PowerFailure` generates one of the two. -/
theorem outageCommands_isOutageEvent (env : PassEnv) (branch : PassBranch) (ups : UpsInfo) :
    (outageCommands env branch ups).countP Command.isOutageEvent =
      (decide (branch = .powerFailure)).toNat := by
  cases branch with
  | powerFailure =>
      unfold outageCommands failureEvent
      dsimp only
      split <;> rfl
  | mainsBack =>
      unfold outageCommands returnEvents
      split_ifs <;> rfl
  | _ => rfl

/-! ## The branch of a pass -/

/-- The status that the pass compares with: on the first call only
{lit}`battpresent` is remembered. -/
def Core.remembered (core : Core) : StatusWord :=
  if core.first then upsBattpresent else core.ups.prevStatus

/-- The pass takes {lit}`st_PowerFailure`. -/
def takesPowerFailure (env : PassEnv) (core : Core) : Bool :=
  decide (passBranch env (passHead env core).ups = .powerFailure)

theorem takesPowerFailure_eq (env : PassEnv) (core : Core) :
    takesPowerFailure env core =
      (!core.ups.isShutRemote && (core.ups.isOnbatt && !core.ups.isCalibration &&
        !testMask core.remembered upsOnbatt)) := by
  rcases passHead_frames env core with ⟨_, hread⟩
  have htest : ∀ mask : StatusWord, mask &&& ~~~upsReplacebatt = mask →
      (passHead env core).ups.test mask = core.ups.test mask := by
    intro mask hmask
    refine (hread.test_eq hmask).trans ?_
    unfold firstCall
    split <;> rfl
  have honbatt : (passHead env core).ups.isOnbatt = core.ups.isOnbatt := htest _ (by decide)
  have hcalibration : (passHead env core).ups.isCalibration = core.ups.isCalibration :=
    htest _ (by decide)
  have hremote : (passHead env core).ups.isShutRemote = core.ups.isShutRemote :=
    htest _ (by decide)
  have hprev : (passHead env core).ups.prevStatus = core.remembered := by
    refine hread.prev.trans ?_
    unfold firstCall Core.remembered
    split <;> rfl
  unfold takesPowerFailure
  rw [Bool.eq_iff_iff, decide_eq_true_iff, passBranch_powerFailure_iff, honbatt, hcalibration,
    hremote, hprev]
  simp [and_assoc]

/-- Outside a remote shutdown the branch is the state of the switch. -/
theorem takesPowerFailure_of_not_remote {env : PassEnv} {core : Core}
    (hremote : (passHead env core).ups.isShutRemote = false) :
    takesPowerFailure env core =
      decide (getState (batteryEdges env (passHead env core)).ups = .stPowerFailure) := by
  have hbranch : passBranch env (passHead env core).ups =
      stateBranch env (batteryEdges env (passHead env core)).ups := by
    rw [(batteryEdges_update env _).1, passBranch, hremote, if_neg Bool.false_ne_true]
  unfold takesPowerFailure
  rw [Bool.eq_iff_iff, decide_eq_true_iff, decide_eq_true_iff, hbranch]
  exact (stateBranch_transition env _).1

/-- A pass generates one of the two events if it takes {lit}`st_PowerFailure`, and
never otherwise. -/
theorem outageEvents_doAction (env : PassEnv) {core : Core} (hlog : core.log = []) :
    outageEvents (doAction env core) = (takesPowerFailure env core).toNat := by
  have hevents : (doAction env core).log.filterMap outageEvent = _ :=
    doAction_events outageEvent_readsOutage.arms env hlog
  unfold passTrace at hevents
  rw [outageEvent_readsOutage.armTrace] at hevents
  have hcount := congrArg List.length hevents
  simp only [List.length_filterMap_eq_countP, outageEvent, Option.isSome_guard] at hcount
  exact hcount.trans (outageCommands_isOutageEvent env _ _)

theorem branchUpdate_numXfers (env : PassEnv) (branch : PassBranch) (ups : UpsInfo) :
    (branchUpdate env branch ups).numXfers =
      ups.numXfers + ((decide (branch = .powerFailure)).toNat : Int) := by
  have hstamp : (stampBattlow env ups).numXfers = ups.numXfers := by
    unfold stampBattlow
    split <;> rfl
  rw [← hstamp]
  cases branch with
  | powerFailure => rfl
  | remote => exact hstamp.symm.trans (Int.add_zero _).symm
  | evaluate =>
      change (runtimeLimitTimer env (loadLimitTimer env (stampBattlow env ups))).numXfers =
        (stampBattlow env ups).numXfers + 0
      rw [Int.add_zero]
      unfold runtimeLimitTimer loadLimitTimer
      split_ifs <;> rfl
  | _ => exact (Int.add_zero _).symm

/-- The passes that take {lit}`st_PowerFailure` count a transfer. -/
theorem doAction_numXfers (env : PassEnv) (core : Core) :
    (doAction env core).ups.numXfers =
      core.ups.numXfers + ((takesPowerFailure env core).toNat : Int) := by
  have hhead : (passHead env core).ups.numXfers = core.ups.numXfers := by
    refine (passHead_frames env core).1.numXfers.trans ?_
    unfold firstCall
    split <;> rfl
  rw [(doAction_frame env core).numXfers, branchUpdate_numXfers, hhead]
  rfl

/-! ## The driver's part of a pass -/

/-- A pass that does not take {lit}`st_PowerFailure` does not check for a self test. -/
theorem doAction_of_not_powerFailure {env : PassEnv} {core : Core}
    (hbranch : takesPowerFailure env core = false) :
    doAction env core = doAction { env with checkSelftest := [] } core := by
  cases hremote : (passHead env core).ups.isShutRemote with
  | true =>
      have hquiet : doAction { env with checkSelftest := [] } core = _ :=
        doAction_of_remote hremote
      rw [hquiet]
      exact doAction_of_remote hremote
  | false =>
      rw [takesPowerFailure_of_not_remote hremote, decide_eq_false_iff_not] at hbranch
      have hstate : switchState env (passHead env core) =
          switchState { env with checkSelftest := [] } (passHead env core) := by
        change doState env (getState (batteryEdges env (passHead env core)).ups) _ =
          doState { env with checkSelftest := [] }
            (getState (batteryEdges env (passHead env core)).ups) _
        cases hcase : getState (batteryEdges env (passHead env core)).ups with
        | stPowerFailure => exact absurd hcase hbranch
        | _ => rfl
      have hquiet : doAction { env with checkSelftest := [] } core = _ :=
        doAction_of_not_remote hremote
      rw [hquiet, doAction_of_not_remote hremote, hstate]
      rfl

/-- A {lit}`st_PowerFailure` pass does not leave the process, and it ends with the
status that the check for a self test leaves; the check finds the bits that are not
the core's as the pass found them. -/
theorem doAction_of_powerFailure {env : PassEnv} {core : Core} (hdtr : env.dtrEnable = [])
    (hexited : core.exited = false) (hbranch : takesPowerFailure env core = true) :
    (doAction env core).exited = false ∧
      ∃ called : UpsInfo,
        called.status &&& ~~~ownBits = core.ups.status &&& ~~~ownBits ∧
        (doAction env core).ups.status = (applyUpdates env.checkSelftest called).status := by
  have hbranch : passBranch env (passHead env core).ups = .powerFailure :=
    of_decide_eq_true hbranch
  have hremote := ((passBranch_powerFailure_iff _ _).mp hbranch).1
  rcases doPowerFailure_ups env (batteryEdges env (passHead env core)) with ⟨children, hups⟩
  have hrunning : (doPowerFailure env (batteryEdges env (passHead env core))).exited = false := by
    rw [doPowerFailure_exited, batteryEdges_exited, passHead_exited, hexited]
  have htail : ∀ done : Core,
      (rememberStatus (reapChildren env done)).exited = done.exited ∧
        (rememberStatus (reapChildren env done)).ups.status = done.ups.status := by
    intro done
    unfold reapChildren
    split <;> exact ⟨rfl, rfl⟩
  rw [doAction_of_not_remote hremote, switchState_of_powerFailure hbranch,
    andThen_of_not_exited hrunning]
  refine ⟨(htail _).1.trans hrunning, _, ?_, (htail _).2.trans (by rw [hups, hdtr]; rfl)⟩
  have hfirst : (firstCall env core).ups.status = core.ups.status := by
    unfold firstCall
    split <;> rfl
  have hhead := (passHead_frames env core).2.bits
  have hinside : ~~~ownBits = ~~~upsReplacebatt &&& ~~~ownBits := by decide
  refine (raiseMask_and_of_disjoint (by decide) _).trans ?_
  rw [batteryEdges_status, hinside, ← BitVec.and_assoc, hhead, hfirst, BitVec.and_assoc]

end Apcupsd
