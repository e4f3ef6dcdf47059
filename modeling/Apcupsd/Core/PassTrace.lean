import Apcupsd.Core.PassSpec

/-!
# What a pass does outside the record

The log of a pass, as far as its effects belong to the arm it takes: the events of the
state switch with the shutdown action they bring, but not the reminders, the battery
edges, the messages and the driver calls.

Main results:

- Definition {lit}`passTrace`: the effects of a pass as a function of its branch.
- Theorem {lit}`doAction_trace`: a pass does what {lit}`passTrace` says, in that order.
- Theorem {lit}`doAction_events`: the same for a reading of the log.
-/

namespace Apcupsd

open BitFlags Apcupsd.Core

/-! ## Effects that belong to no arm -/

/-- The effects that every arm may have. -/
def Effect.isBackground : Effect → Bool
  | .executeCommand cmd =>
      match cmd with
      | .cmdChangeme | .cmdBattdetach | .cmdBattattach | .cmdAnnoyme | .cmdCommfailure
      | .cmdCommok => true
      | _ => false
  | .deleteLockfile | .makePwrfailFile => false
  | _ => true

/-- A choice of effects among those that belong to an arm. -/
def Arms (kind : Effect → Bool) : Prop :=
  ∀ effect, effect.isBackground = true → kind effect = false

/-- The chosen effects in the log, in order. -/
def Core.trace (kind : Effect → Bool) (core : Core) : List Effect :=
  core.log.filter kind

/-! ## The trace of the shutdown action -/

/-- The effects of {lit}`do_shutdown`: none if it has run before, and no script if the
process has left {lit}`initiate_hibernate` through its abort. -/
def shutdownTrace (env : PassEnv) (core : Core) : List Effect :=
  if core.ups.isShutdown then []
  else
    [.deleteLockfile, .makePwrfailFile] ++
      (if (prepareShutdown env core).exited then [] else [.executeCommand .cmdDoshutdown])

/-- The core when {lit}`generate_event` calls {lit}`do_shutdown`. -/
def announceEvent (env : PassEnv) (core : Core) (event : Command) : Core :=
  logEvent
    (executeCommand env (logEvent core (eventMsg event).1 (eventMsg event).2) event)
    (eventMsg .cmdDoshutdown).1 (eventMsg .cmdDoshutdown).2

/-- The effects of {lit}`generate_event`. -/
def eventTrace (env : PassEnv) (core : Core) (event : Command) : List Effect :=
  .executeCommand event ::
    (if event.isShutdownCause then shutdownTrace env (announceEvent env core event) else [])

/-! ## The trace of an arm -/

/-- {lit}`st_SelfTest` cancels the test before it falls through. -/
def cancelSelfTest (env : PassEnv) (core : Core) : Core :=
  if getState core.ups = .stSelfTest ∧ selfTestRunning env core.ups = false then
    core.mapUps fun ups => { ups with selfTest := 0 }
  else core

/-- The event of {lit}`st_PowerFailure`: the driver has checked for a self test. -/
def failureEvent (env : PassEnv) (ups : UpsInfo) : Command :=
  if (applyUpdates env.checkSelftest ups.setFastpoll).selfTest ≠ 0 then .cmdStartselftest
  else .cmdPowerout

/-- The events of {lit}`st_MainsBack`. -/
def returnEvents (ups : UpsInfo) : List Command :=
  (if ups.isOnbattMsg then [.cmdOffbattery] else []) ++
    [if ups.selfTest ≠ 0 then .cmdEndselftest else .cmdMainsback]

def emergencyTrace (env : PassEnv) (core : Core) : List Effect :=
  if core.ups.isBattlow && core.ups.isOnline then
    eventTrace env (core.mapUps UpsInfo.setShutEmerg) .cmdEmergency
  else []

/-- The effects of the arm that evaluates the battery conditions. -/
def evaluateTrace (env : PassEnv) (timed : Core) : List Effect :=
  match expiredCommand env timed.ups with
  | some cmd => eventTrace env timed cmd
  | none => emergencyTrace env timed

/-- The effects of an arm. -/
def armTrace (env : PassEnv) (branch : PassBranch) (core : Core) : List Effect :=
  match branch with
  | .remote => if core.ups.chgShutRemote then eventTrace env core .cmdRemotedown else []
  | .powerFailure => [.executeCommand (failureEvent env core.ups)]
  | .announce => [.executeCommand .cmdOnbattery]
  | .timeout => eventTrace env (core.mapUps UpsInfo.setShutBtime) .cmdTimeout
  | .evaluate => evaluateTrace env (core.mapUps (stateUpdate env .evaluate))
  | .mainsBack => (returnEvents core.ups).map .executeCommand
  | .onMains | .selfTest | .shutdownRunning | .calibration => []

/-- The core when the arm of a pass begins. -/
def armCore (env : PassEnv) (head : Core) : Core :=
  if head.ups.isShutRemote then head else cancelSelfTest env (batteryEdges env head)

/-- The effects of a pass. -/
def passTrace (env : PassEnv) (core : Core) : List Effect :=
  armTrace env (passBranch env (passHead env core).ups) (armCore env (passHead env core))

/-! ## Traces of the calls -/

section Calls

variable {kind : Effect → Bool}

@[simp]
theorem trace_emit (core : Core) (effect : Effect) :
    (core.emit effect).trace kind = core.trace kind ++ [effect].filter kind :=
  List.filter_append _ _

@[simp]
theorem trace_mapUps (core : Core) (change : UpsInfo → UpsInfo) :
    (core.mapUps change).trace kind = core.trace kind :=
  rfl

theorem trace_andThen {core : Core} {next : Core → Core}
    (hnext : (next core).trace kind = core.trace kind) :
    (core.andThen next).trace kind = core.trace kind :=
  andThen_rel (P := fun after => after.trace kind = core.trace kind) rfl hnext

variable (hkind : Arms kind)

include hkind

theorem trace_emit_background (core : Core) {effect : Effect}
    (heffect : effect.isBackground = true) :
    (core.emit effect).trace kind = core.trace kind := by
  rw [trace_emit, List.filter_cons_of_neg (by simp [hkind effect heffect])]
  simp

theorem trace_driverCall (core : Core) (updates : List DriverUpdate) :
    (core.driverCall updates).trace kind = core.trace kind := by
  induction updates generalizing core with
  | nil => rfl
  | cons update updates ih =>
      refine (ih _).trans ?_
      exact trace_emit_background hkind (core.mapUps update.apply) rfl

theorem trace_logEvent (core : Core) (level : LogLevel) (msg : String) :
    (logEvent core level msg).trace kind = core.trace kind :=
  trace_emit_background hkind core rfl

theorem trace_executeCommand (env : PassEnv) (core : Core) (cmd : Command) :
    (executeCommand env core cmd).trace kind =
      core.trace kind ++ [Effect.executeCommand cmd].filter kind := by
  unfold executeCommand
  dsimp only
  split
  · rw [trace_logEvent hkind, trace_emit]
  · rw [trace_mapUps, trace_emit]

theorem trace_deviceEntryPoint (env : PassEnv) (core : Core) (cmd : DeviceCmd) :
    (deviceEntryPoint env core cmd).trace kind = core.trace kind := by
  unfold deviceEntryPoint
  rw [trace_driverCall hkind, trace_emit_background hkind core rfl]

theorem trace_logonfail (core : Core) (ok : Bool) :
    (logonfail core ok).trace kind = core.trace kind :=
  trace_emit_background hkind core rfl

theorem trace_prohibitLogins (core : Core) :
    (prohibitLogins core).trace kind = core.trace kind := by
  unfold prohibitLogins
  split
  · rfl
  · rw [trace_logEvent hkind, trace_mapUps, trace_logonfail hkind]

theorem trace_pollDumbUps (env : PassEnv) (core : Core) :
    (pollDumbUps env core).trace kind = core.trace kind := by
  have hread : ∀ core : Core, (core.emit .readVolatileData).trace kind = core.trace kind :=
    fun core => trace_emit_background hkind core rfl
  unfold pollDumbUps
  split
  · rw [trace_driverCall hkind, hread, hread, hread]
  · rfl

theorem trace_initiateHibernate (env : PassEnv) (core : Core) :
    (initiateHibernate env core).trace kind = core.trace kind := by
  rw [← trace_pollDumbUps hkind env core]
  unfold initiateHibernate
  generalize pollDumbUps env core = polled
  have hlog := trace_logEvent hkind
  have hwaited : (if polled.ups.upsclassType = .sharemaster then
      logEvent polled .logWarning "Waiting 30 seconds for slave(s) to shutdown."
    else polled).trace kind = polled.trace kind := by
    split
    · exact hlog _ _ _
    · rfl
  dsimp only
  generalize (if polled.ups.upsclassType = .sharemaster then _ else polled) = waited
    at hwaited ⊢
  split
  · exact (trace_emit_background hkind _ rfl).trans (hlog _ _ _)
  · split
    · rw [hlog, hlog, hlog, hlog, hwaited]
    · rw [trace_driverCall hkind, trace_emit_background hkind _ rfl, hlog, hwaited]

theorem trace_powerfail (core : Core) (ok : Nat) :
    (powerfail core ok).trace kind = core.trace kind := by
  have hcleared : (if ok = 2 then core.emit .clearFiles else core).trace kind =
      core.trace kind := by
    split
    · exact trace_emit_background hkind core rfl
    · rfl
  unfold powerfail
  dsimp only
  generalize (if ok = 2 then _ else core) = cleared at hcleared ⊢
  split
  · exact (trace_emit_background hkind cleared rfl).trans hcleared
  · exact hcleared

theorem trace_prepareShutdown (env : PassEnv) (core : Core) :
    (prepareShutdown env core).trace kind =
      core.trace kind ++ [Effect.deleteLockfile, .makePwrfailFile].filter kind := by
  let marked := core.mapUps fun ups =>
    { ups with shutDown := env.shutdownTime }.setShutdown
  let unlocked := (marked.emit .deleteLockfile).mapUps UpsInfo.setFastpoll
  have hprohibited : (prohibitLogins (unlocked.emit .makePwrfailFile)).trace kind =
      core.trace kind ++ [Effect.deleteLockfile, .makePwrfailFile].filter kind := by
    rw [trace_prohibitLogins hkind, trace_emit, trace_mapUps, trace_emit, List.append_assoc,
      ← List.filter_append]
    rfl
  unfold prepareShutdown
  dsimp only
  split
  · rw [trace_initiateHibernate hkind]
    exact hprohibited
  · exact hprohibited

theorem trace_doShutdown (env : PassEnv) (core : Core) :
    (doShutdown env core .cmdDoshutdown).trace kind =
      core.trace kind ++ (shutdownTrace env core).filter kind := by
  unfold doShutdown shutdownTrace
  cases core.ups.isShutdown with
  | true => simp
  | false =>
      rw [if_neg Bool.false_ne_true, if_neg Bool.false_ne_true, List.filter_append,
        ← List.append_assoc, ← trace_prepareShutdown hkind env core]
      cases hexited : (prepareShutdown env core).exited with
      | true =>
          rw [andThen_of_exited hexited]
          simp
      | false =>
          rw [andThen_of_not_exited hexited, trace_powerfail hkind, trace_executeCommand hkind]
          rfl

theorem trace_generateEvent (env : PassEnv) (core : Core) (event : Command) :
    (generateEvent env core event).trace kind =
      core.trace kind ++ (eventTrace env core event).filter kind := by
  have hannounced : (executeCommand env
      (logEvent core (eventMsg event).1 (eventMsg event).2) event).trace kind =
        core.trace kind ++ [Effect.executeCommand event].filter kind := by
    rw [trace_executeCommand hkind, trace_logEvent hkind]
  unfold generateEvent eventTrace
  dsimp only
  cases event.isShutdownCause with
  | true =>
      rw [if_pos rfl, if_pos rfl, trace_doShutdown hkind, trace_logEvent hkind, hannounced,
        List.append_assoc, ← List.filter_append]
      rfl
  | false =>
      rw [if_neg Bool.false_ne_true, if_neg Bool.false_ne_true]
      exact hannounced

/-- An event that is no shutdown cause has its own effect only. -/
theorem trace_generateEvent_of_not_cause (env : PassEnv) (core : Core) {event : Command}
    (hcause : event.isShutdownCause = false) :
    (generateEvent env core event).trace kind =
      core.trace kind ++ [Effect.executeCommand event].filter kind := by
  rw [trace_generateEvent hkind]
  unfold eventTrace
  rw [hcause]
  rfl

theorem trace_generateEvent_background (env : PassEnv) (core : Core) {event : Command}
    (hcause : event.isShutdownCause = false)
    (hevent : (Effect.executeCommand event).isBackground = true) :
    (generateEvent env core event).trace kind = core.trace kind := by
  rw [trace_generateEvent_of_not_cause hkind env core hcause,
    List.filter_cons_of_neg (by simp [hkind _ hevent])]
  simp

end Calls

/-! ## Traces of the arms -/

section Arms

variable {kind : Effect → Bool} (hkind : Arms kind) (env : PassEnv) (core : Core)

include hkind

theorem trace_passHead (hlog : core.log = []) : (passHead env core).trace kind = [] := by
  have hfirst : (firstCall env core).trace kind = [] := by
    unfold firstCall Core.trace
    split <;> simp [hlog]
  unfold passHead replaceBattery
  split_ifs
  · exact hfirst
  · rw [trace_mapUps, trace_generateEvent_background hkind _ _ rfl rfl]
    exact hfirst
  · exact hfirst
  · exact hfirst

theorem trace_batteryEdges : (batteryEdges env core).trace kind = core.trace kind := by
  have hattach : (batteryAttach env core).trace kind = core.trace kind := by
    unfold batteryAttach
    split_ifs
    · exact trace_generateEvent_background hkind env core rfl rfl
    · exact trace_generateEvent_background hkind env core rfl rfl
    · rfl
  unfold batteryEdges batteryLowTimer
  split
  · exact hattach
  · exact hattach

theorem trace_remoteShutdown :
    (remoteShutdown env core).trace kind =
      core.trace kind ++ (armTrace env .remote core).filter kind := by
  unfold remoteShutdown armTrace
  dsimp only
  refine (trace_andThen rfl).trans ?_
  split
  · exact trace_generateEvent hkind env core .cmdRemotedown
  · simp

theorem trace_doPowerFailure :
    (doPowerFailure env core).trace kind =
      core.trace kind ++ (armTrace env .powerFailure core).filter kind := by
  have hchecked : (deviceEntryPoint env (core.mapUps UpsInfo.setFastpoll)
      .checkSelftest).trace kind = core.trace kind := by
    rw [trace_deviceEntryPoint hkind, trace_mapUps]
  have hups : (deviceEntryPoint env (core.mapUps UpsInfo.setFastpoll) .checkSelftest).ups =
      applyUpdates env.checkSelftest core.ups.setFastpoll :=
    driverCall_ups _ _
  unfold doPowerFailure armTrace failureEvent
  dsimp only
  rw [trace_deviceEntryPoint hkind, trace_mapUps, hups]
  split
  · rw [trace_generateEvent_of_not_cause hkind _ _ rfl, hchecked]
  · rw [trace_generateEvent_of_not_cause hkind _ _ rfl, hchecked]

theorem trace_announceOnBattery :
    (announceOnBattery env core).trace kind =
      core.trace kind ++ (armTrace env .announce core).filter kind := by
  unfold announceOnBattery
  rw [trace_mapUps, trace_generateEvent_of_not_cause hkind _ _ rfl, trace_mapUps]
  rfl

theorem trace_shutdownRunning : (shutdownRunning env core).trace kind = core.trace kind := by
  unfold shutdownRunning
  split
  · dsimp only
    refine (trace_andThen rfl).trans ?_
    split
    · rfl
    · exact trace_initiateHibernate hkind env core
  · rfl

theorem trace_annoyUsers : (annoyUsers env core).trace kind = core.trace kind := by
  have hasked : (executeCommand env core .cmdAnnoyme).trace kind = core.trace kind := by
    have hannoy : kind (.executeCommand .cmdAnnoyme) = false := hkind _ rfl
    rw [trace_executeCommand hkind, List.filter_cons_of_neg (by simp [hannoy])]
    simp
  unfold annoyUsers
  split_ifs
  · exact hasked
  · exact trace_generateEvent_background hkind env core rfl rfl
  · rfl

theorem trace_delayNologon : (delayNologon env core).trace kind = core.trace kind := by
  have hprohibit := trace_prohibitLogins hkind core
  unfold delayNologon
  split
  · rfl
  · split
    · rfl
    · split
      · exact hprohibit
      · rfl
    · split
      · exact hprohibit
      · rfl
    · split
      · exact hprohibit
      · rfl
    · exact hprohibit
    · exact hprohibit

theorem trace_emergency :
    (emergency env core).trace kind =
      core.trace kind ++ (emergencyTrace env core).filter kind := by
  unfold emergency emergencyTrace
  split
  · rw [trace_generateEvent hkind, trace_mapUps]
  · simp

theorem trace_expiredTimers :
    (expiredTimers env core).trace kind =
      core.trace kind ++ (evaluateTrace env core).filter kind := by
  unfold expiredTimers evaluateTrace expiredCommand
  split_ifs
  · exact trace_generateEvent hkind env core _
  · exact trace_generateEvent hkind env core _
  · exact trace_generateEvent hkind env core _
  · rw [trace_andThen (trace_delayNologon hkind env _),
      trace_andThen (trace_annoyUsers hkind env _)]
    exact trace_emergency hkind env core

theorem trace_doOnBattery :
    (doOnBattery env core).trace kind =
      core.trace kind ++ (armTrace env (batteryBranch env core.ups) core).filter kind := by
  unfold doOnBattery batteryBranch
  split_ifs with hannounce hshutdown htimeout
  · exact trace_announceOnBattery hkind env core
  · rw [trace_shutdownRunning hkind]
    simp [armTrace]
  · unfold evaluateBattery
    rw [if_pos (of_decide_eq_true htimeout), trace_generateEvent hkind]
    rfl
  · unfold evaluateBattery
    rw [if_neg (of_decide_eq_false (Bool.eq_false_iff.mpr htimeout)), trace_expiredTimers hkind]
    rfl

/-- The arm of {lit}`st_SelfTest`: it falls through unless the test may still run. -/
theorem trace_doSelfTest (hstate : getState core.ups = .stSelfTest) :
    (doSelfTest env core).trace kind = core.trace kind ++
      (armTrace env (stateBranch env core.ups) (cancelSelfTest env core)).filter kind := by
  unfold doSelfTest stateBranch cancelSelfTest
  rw [hstate]
  dsimp only
  cases hrunning : selfTestRunning env core.ups with
  | true => simp [armTrace]
  | false =>
      rw [if_neg Bool.false_ne_true, if_neg Bool.false_ne_true, if_pos ⟨rfl, rfl⟩,
        trace_doOnBattery hkind]
      rfl

theorem trace_doMainsBack :
    (doMainsBack env core).trace kind =
      core.trace kind ++ (armTrace env .mainsBack core).filter kind := by
  have hwithdrawn : (if core.ups.isOnbattMsg then
      generateEvent env (core.mapUps UpsInfo.clearOnbattMsg) .cmdOffbattery
    else core).trace kind = core.trace kind ++
        ((if core.ups.isOnbattMsg then [Command.cmdOffbattery] else []).map
          .executeCommand).filter kind ∧
      (if core.ups.isOnbattMsg then
        generateEvent env (core.mapUps UpsInfo.clearOnbattMsg) .cmdOffbattery
      else core).ups.selfTest = core.ups.selfTest := by
    split
    · refine ⟨trace_generateEvent_of_not_cause hkind _ _ rfl, ?_⟩
      rcases @generateEvent_ups env (core.mapUps UpsInfo.clearOnbattMsg) .cmdOffbattery rfl
        with ⟨children, hups⟩
      rw [hups]
      rfl
    · simp
  unfold doMainsBack armTrace returnEvents
  rw [List.map_append, List.filter_append, ← List.append_assoc, ← hwithdrawn.1,
    ← hwithdrawn.2]
  generalize (if core.ups.isOnbattMsg then _ else core) = withdrawn
  have hended : (if withdrawn.ups.selfTest ≠ 0 then endSelfTest env withdrawn
      else generateEvent env withdrawn .cmdMainsback).trace kind =
        withdrawn.trace kind ++
          [Effect.executeCommand (if withdrawn.ups.selfTest ≠ 0 then .cmdEndselftest
            else .cmdMainsback)].filter kind := by
    split
    · unfold endSelfTest
      rw [trace_executeCommand hkind, trace_logEvent hkind, trace_deviceEntryPoint hkind,
        trace_mapUps]
    · exact trace_generateEvent_of_not_cause hkind _ _ rfl
  refine Eq.trans ?_ hended
  dsimp only
  generalize (if withdrawn.ups.selfTest ≠ 0 then _ else _) = ended
  rw [trace_mapUps, trace_deviceEntryPoint hkind]
  change (logonfail (if ended.ups.nologinFile then _ else ended) true).trace kind = _
  rw [trace_logonfail hkind]
  split
  · exact trace_logEvent hkind _ _ _
  · rfl

omit hkind in
theorem cancelSelfTest_of_ne (hstate : getState core.ups ≠ .stSelfTest) :
    cancelSelfTest env core = core :=
  if_neg fun hcancel => hstate hcancel.1

/-- The state switch has the effects of its arm. -/
theorem trace_doState :
    (doState env (getState core.ups) core).trace kind = core.trace kind ++
      (armTrace env (stateBranch env core.ups) (cancelSelfTest env core)).filter kind := by
  cases hstate : getState core.ups with
  | stSelfTest => exact trace_doSelfTest hkind env core hstate
  | stOnMains | stCalibration =>
      rw [cancelSelfTest_of_ne env core (by simp [hstate])]
      unfold stateBranch
      rw [hstate]
      exact (List.append_nil _).symm
  | stPowerFailure =>
      rw [cancelSelfTest_of_ne env core (by simp [hstate])]
      unfold stateBranch
      rw [hstate]
      exact trace_doPowerFailure hkind env core
  | stOnBattery =>
      rw [cancelSelfTest_of_ne env core (by simp [hstate])]
      unfold stateBranch
      rw [hstate]
      exact trace_doOnBattery hkind env core
  | stMainsBack =>
      rw [cancelSelfTest_of_ne env core (by simp [hstate])]
      unfold stateBranch
      rw [hstate]
      exact trace_doMainsBack hkind env core

/-- A pass has the effects of its branch, in order. -/
theorem doAction_trace (hlog : core.log = []) :
    (doAction env core).trace kind = (passTrace env core).filter kind := by
  have hhead := trace_passHead hkind env core hlog
  unfold passTrace armCore passBranch
  cases hremote : (passHead env core).ups.isShutRemote with
  | true =>
      rw [doAction_of_remote hremote, trace_remoteShutdown hkind, hhead, if_pos rfl, if_pos rfl]
      rfl
  | false =>
      have htail : ∀ done : Core, (rememberStatus (reapChildren env done)).trace kind =
          done.trace kind := by
        intro done
        unfold reapChildren
        split <;> rfl
      rw [doAction_of_not_remote hremote, trace_andThen (htail _), if_neg Bool.false_ne_true,
        if_neg Bool.false_ne_true, ← (batteryEdges_update env (passHead env core)).1]
      unfold switchState
      rw [trace_doState hkind, trace_batteryEdges hkind, hhead]
      rfl

end Arms

/-- A reading of the log that sees only effects of the arms sees those of the branch. -/
theorem doAction_events {α : Type*} {pick : Effect → Option α}
    (hpick : Arms fun effect => (pick effect).isSome) (env : PassEnv) {core : Core}
    (hlog : core.log = []) :
    (doAction env core).log.filterMap pick = (passTrace env core).filterMap pick := by
  have hseen : ∀ log : List Effect,
      (log.filter fun effect => (pick effect).isSome).filterMap pick = log.filterMap pick := by
    intro log
    rw [List.filterMap_filter]
    congr 1
    funext effect
    cases pick effect <;> rfl
  rw [← hseen (doAction env core).log, ← hseen (passTrace env core)]
  exact congrArg (List.filterMap pick) (doAction_trace hpick env core hlog)

end Apcupsd
