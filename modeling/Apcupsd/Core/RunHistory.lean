import Apcupsd.Core.CoreRun
import Apcupsd.Core.PassTrace
import Apcupsd.Core.PassWrites

/-!
# The history of a run

What the passes of a run have logged so far, and the events of an outage in it: each
pass adds those that its branch generates.

Main results:

- Theorem {lit}`CoreRun.picked_succ`: a pass adds the effects of its branch to a reading of
  the history.
- Theorem {lit}`CoreRun.outagePicked_succ`: for the events of an outage these are
  {lit}`outageCommands`.
-/

namespace Apcupsd

open BitFlags Apcupsd.Core

/-! ## The events of an outage -/

/-- The events that report the begin and the end of an outage or a self test, to the
scripts and to the users. -/
def Command.reportsOutage : Command → Bool
  | .cmdPowerout | .cmdStartselftest | .cmdOnbattery | .cmdOffbattery | .cmdMainsback
  | .cmdEndselftest => true
  | _ => false

def Effect.reportsOutage : Effect → Bool
  | .executeCommand cmd => cmd.reportsOutage
  | _ => false

/-- The events of an outage that an arm generates. -/
def outageCommands (env : PassEnv) (branch : PassBranch) (ups : UpsInfo) : List Command :=
  match branch with
  | .powerFailure => [failureEvent env ups]
  | .announce => [.cmdOnbattery]
  | .mainsBack => returnEvents ups
  | _ => []

/-- The shutdown cause that an arm announces, with the core at that point. -/
def armCause (env : PassEnv) (branch : PassBranch) (core : Core) : Option (Core × Command) :=
  match branch with
  | .remote => if core.ups.chgShutRemote then some (core, .cmdRemotedown) else none
  | .timeout => some (core.mapUps UpsInfo.setShutBtime, .cmdTimeout)
  | .evaluate =>
      let timed := core.mapUps (stateUpdate env .evaluate)
      match expiredCommand env timed.ups with
      | some cmd => some (timed, cmd)
      | none =>
          if timed.ups.isBattlow && timed.ups.isOnline then
            some (timed.mapUps UpsInfo.setShutEmerg, .cmdEmergency)
          else none
  | _ => none

/-- The effects of announcing a shutdown cause, if there is one. -/
def causeTrace (env : PassEnv) (cause : Option (Core × Command)) : List Effect :=
  cause.elim [] fun announced => eventTrace env announced.1 announced.2

theorem expiredCommand_cases {env : PassEnv} {ups : UpsInfo} {cmd : Command}
    (hexpired : expiredCommand env ups = some cmd) :
    cmd = .cmdFailing ∨ cmd = .cmdLoadlimit ∨ cmd = .cmdRunlimit := by
  unfold expiredCommand at hexpired
  split_ifs at hexpired
  · exact Or.inl (Option.some_inj.mp hexpired).symm
  · exact Or.inr (Or.inl (Option.some_inj.mp hexpired).symm)
  · exact Or.inr (Or.inr (Option.some_inj.mp hexpired).symm)

/-- The effects of an arm are its events of an outage and those of its shutdown cause. -/
theorem armTrace_eq (env : PassEnv) (branch : PassBranch) (core : Core) :
    armTrace env branch core = (outageCommands env branch core.ups).map .executeCommand ++
      causeTrace env (armCause env branch core) := by
  cases branch with
  | remote =>
      unfold armTrace armCause
      dsimp only
      split <;> rfl
  | evaluate =>
      unfold armTrace evaluateTrace armCause
      dsimp only
      cases hexpired : expiredCommand env (core.mapUps (stateUpdate env .evaluate)).ups with
      | some cmd => rfl
      | none =>
          dsimp only
          unfold emergencyTrace
          split <;> rfl
  | mainsBack => exact (List.append_nil _).symm
  | _ => rfl

/-- A reading of the log that sees only the events of an outage. -/
def ReadsOutage {α : Type*} (pick : Effect → Option α) : Prop :=
  ∀ effect, effect.reportsOutage = false → pick effect = none

namespace ReadsOutage

variable {α : Type*} {pick : Effect → Option α} (hpick : ReadsOutage pick)

include hpick

theorem arms : Arms fun effect => (pick effect).isSome := by
  intro effect hbackground
  have hnone : pick effect = none := by
    refine hpick effect ?_
    cases effect with
    | executeCommand cmd =>
        cases cmd with
        | cmdPowerout | cmdStartselftest | cmdOnbattery | cmdOffbattery | cmdMainsback
        | cmdEndselftest => cases hbackground
        | _ => rfl
    | _ => rfl
  dsimp only
  rw [hnone]
  rfl

/-- It sees nothing of a shutdown. -/
theorem eventTrace (env : PassEnv) (core : Core) {event : Command}
    (hevent : event.reportsOutage = false) :
    (eventTrace env core event).filterMap pick = [] := by
  refine List.filterMap_eq_nil_iff.mpr fun effect heffect => hpick effect ?_
  unfold Apcupsd.eventTrace shutdownTrace at heffect
  split_ifs at heffect <;> simp at heffect
  all_goals rcases heffect with rfl | rfl | rfl | rfl
  all_goals first | rfl | exact hevent

theorem causeTrace (env : PassEnv) (branch : PassBranch) (core : Core) :
    (causeTrace env (armCause env branch core)).filterMap pick = [] := by
  unfold armCause
  cases branch with
  | remote =>
      dsimp only
      split
      · exact eventTrace hpick env _ rfl
      · rfl
  | timeout => exact eventTrace hpick env _ rfl
  | evaluate =>
      dsimp only
      split
      · rename_i cmd hexpired
        refine eventTrace hpick env _ ?_
        rcases expiredCommand_cases hexpired with rfl | rfl | rfl <;> rfl
      · split
        · exact eventTrace hpick env _ rfl
        · rfl
  | _ => rfl

/-- Of the effects of an arm it sees the events of an outage. -/
theorem armTrace (env : PassEnv) (branch : PassBranch) (core : Core) :
    (armTrace env branch core).filterMap pick =
      (outageCommands env branch core.ups).filterMap fun cmd => pick (.executeCommand cmd) := by
  rw [armTrace_eq, List.filterMap_append, causeTrace hpick env branch core, List.append_nil,
    List.filterMap_map]
  rfl

end ReadsOutage

/-- The arm finds the status of the head of the pass, and the time of its self test unless
the pass cancels it. -/
theorem armCore_ups (env : PassEnv) (head : Core) :
    (armCore env head).ups.status = head.ups.status ∧
      (armCore env head).ups.selfTest =
        if cancelsSelfTest env head.ups then 0 else head.ups.selfTest := by
  have hstatus := batteryEdges_status env head
  have hselfTest : (batteryEdges env head).ups.selfTest = head.ups.selfTest := by
    rcases batteryEdges_ups env head with ⟨children, hups⟩
    rw [hups]
    unfold stampBattlow
    split <;> rfl
  have hedges : (batteryEdges env head).ups.isShutRemote = head.ups.isShutRemote :=
    congrArg (testMask · upsShutRemote) hstatus
  unfold armCore
  rw [← cancelsSelfTest_batteryEdges]
  unfold cancelSelfTest cancelsSelfTest
  cases hremote : head.ups.isShutRemote with
  | true => simp [hedges, hremote]
  | false =>
      rw [if_neg Bool.false_ne_true, hedges, hremote]
      by_cases hcancel : getState (batteryEdges env head).ups = .stSelfTest ∧
          selfTestRunning env (batteryEdges env head).ups = false
      · rw [if_pos hcancel]
        simp [hcancel, hstatus]
      · rw [if_neg hcancel]
        simp_all

namespace CoreRun

variable (run : CoreRun)

/-- What the first {lit}`n` passes have logged. -/
def history : ℕ → List Effect
  | 0 => []
  | n + 1 => history n ++ (run.core (n + 1)).log

/-- What a reading sees in the first {lit}`n` passes. -/
def picked {α : Type*} (pick : Effect → Option α) (n : ℕ) : List α :=
  (run.history n).filterMap pick

/-- The core when the arm of pass {lit}`n` begins. -/
def armed (n : ℕ) : Core :=
  armCore (run.pass n).env (passHead (run.pass n).env (run.seen n))

/-- The arm of a pass finds the record of the state switch. -/
theorem armed_ups (n : ℕ) :
    (run.armed n).ups.status = (run.head n).status ∧
      (run.armed n).ups.selfTest =
        if cancelsSelfTest (run.pass n).env (run.head n) then 0 else (run.seen n).ups.selfTest := by
  have hhead : (run.head n).selfTest = (run.seen n).ups.selfTest := by
    have hdriver := run.head_driver n
    generalize run.head n = head at hdriver
    exact (congrArg DriverFields.selfTest hdriver).trans rfl
  rw [← hhead]
  exact armCore_ups _ _

variable {α : Type*} {pick : Effect → Option α} {n : ℕ}

@[simp]
theorem history_succ (n : ℕ) : run.history (n + 1) = run.history n ++ (run.core (n + 1)).log :=
  rfl

/-- A pass adds the effects of its branch. -/
theorem picked_succ (hpick : Arms fun effect => (pick effect).isSome) (hruns : run.runs n) :
    run.picked pick (n + 1) = run.picked pick n ++
      (armTrace (run.pass n).env (run.branch n) (run.armed n)).filterMap pick := by
  have hlog : (doAction (run.pass n).env (run.seen n)).log.filterMap pick = _ :=
    doAction_events hpick (run.pass n).env rfl
  rw [← run.core_succ hruns] at hlog
  unfold picked
  rw [history_succ, List.filterMap_append, hlog]
  rfl

/-- A process that has exited adds nothing. -/
theorem picked_succ_of_exited (hexited : ¬ run.runs n) :
    run.picked pick (n + 1) = run.picked pick n := by
  unfold picked
  rw [history_succ, run.step n, doPass, if_pos (Bool.eq_true_of_not_eq_false hexited),
    List.append_nil]

/-- A pass adds the events of its outage. -/
theorem outagePicked_succ (hpick : ReadsOutage pick) (hruns : run.runs n) :
    run.picked pick (n + 1) = run.picked pick n ++
      (outageCommands (run.pass n).env (run.branch n) (run.armed n).ups).filterMap
        fun cmd => pick (.executeCommand cmd) := by
  rw [run.picked_succ hpick.arms hruns, hpick.armTrace]

end CoreRun

end Apcupsd
