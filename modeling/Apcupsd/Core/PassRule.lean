import Apcupsd.Core.EventSpec
import Apcupsd.Core.DoAction

/-!
# A rule for the tail of a pass

Past the replace-battery reminder no statement of a pass complains about the battery, and
none writes the fields that ration the complaints.  A fact that survives all other effects
and writes survives the rest of the pass.

Main results:

- Definition {lit}`PassRule`: what such a fact has to survive.
- Theorem {lit}`PassRule.doAction`: it holds at the end of the pass.
-/

namespace Apcupsd

open Apcupsd.Core

/-- The effects that the statements past the reminder have under conditions only. -/
def Effect.isReserved : Effect → Bool
  | .readVolatileData | .executeCommand .cmdChangeme => true
  | _ => false

/-- The fields that the statements past the reminder leave alone. -/
def UpsInfo.reserved (ups : UpsInfo) : UpsConfig × Int × Int :=
  (ups.toUpsConfig, ups.lastTimeChangeme, ups.changeBattCounter)

/-- A fact that the statements past the reminder keep. -/
structure PassRule (env : PassEnv) (P : Core → Prop) : Prop where
  emit : ∀ {core : Core} {effect : Effect}, P core → effect.isReserved = false →
    P (core.emit effect)
  mapUps : ∀ {core : Core} {change : UpsInfo → UpsInfo}, P core →
    (change core.ups).reserved = core.ups.reserved → P (core.mapUps change)
  poll : ∀ {core : Core}, P core → P (pollDumbUps env core)
  exit : ∀ {core : Core}, P core → P { core with exited := true }
  logoff : ∀ {core : Core} {requested : Bool}, P core →
    P { core with requestedLogoff := requested }

/-- What a driver updates is not reserved. -/
theorem DriverFrame.reserved {before after : UpsInfo} (hframe : DriverFrame before after) :
    after.reserved = before.reserved := by
  unfold UpsInfo.reserved
  rw [hframe.config, hframe.core]

/-- The limit timers write nothing that is reserved. -/
theorem reserved_limitTimers (env : PassEnv) (ups : UpsInfo) :
    (runtimeLimitTimer env (loadLimitTimer env ups)).reserved = ups.reserved := by
  unfold runtimeLimitTimer loadLimitTimer
  split_ifs <;> rfl

namespace PassRule

variable {env : PassEnv} {P : Core → Prop} (rule : PassRule env P) {core : Core}
  (hcore : P core)

include rule hcore

/-! ## Calls -/

theorem logEvent {level : LogLevel} {msg : String} : P (logEvent core level msg) :=
  rule.emit hcore rfl

theorem driverCall (updates : List DriverUpdate) : P (core.driverCall updates) := by
  induction updates generalizing core with
  | nil => exact hcore
  | cons update updates ih =>
      have hupdated : P (core.mapUps update.apply) :=
        rule.mapUps hcore (update.frame core.ups).reserved
      exact ih (rule.emit hupdated rfl)

theorem executeCommand {cmd : Command} (hcmd : cmd ≠ .cmdChangeme) :
    P (executeCommand env core cmd) := by
  have hcalled : P (core.emit (.executeCommand cmd)) := by
    refine rule.emit hcore ?_
    cases cmd with
    | cmdChangeme => exact absurd rfl hcmd
    | _ => rfl
  unfold Apcupsd.executeCommand
  split
  · exact rule.logEvent hcalled
  · exact rule.mapUps hcalled rfl

theorem deviceEntryPoint {cmd : DeviceCmd} : P (deviceEntryPoint env core cmd) := by
  have hcalled : P (core.emit (.entryPoint cmd)) := rule.emit hcore rfl
  exact rule.driverCall hcalled _

theorem initiateHibernate : P (initiateHibernate env core) := by
  have hpolled : P (pollDumbUps env core) := rule.poll hcore
  unfold Apcupsd.initiateHibernate
  generalize pollDumbUps env core = polled at hpolled
  have hwaited : P
      (if polled.ups.upsclassType = .sharemaster then
        Apcupsd.logEvent polled .logWarning "Waiting 30 seconds for slave(s) to shutdown."
      else polled) := by
    split
    · exact rule.logEvent hpolled
    · exact hpolled
  dsimp only
  generalize (if polled.ups.upsclassType = .sharemaster then _ else polled) = waited
    at hwaited ⊢
  split
  · exact rule.exit (rule.emit (rule.logEvent hpolled) rfl)
  · split
    · exact rule.logEvent (rule.logEvent (rule.logEvent (rule.logEvent hwaited)))
    · exact rule.driverCall (rule.emit (rule.logEvent hwaited) rfl) _

theorem powerfail {ok : ℕ} : P (powerfail core ok) := by
  have hcleared : P (if ok = 2 then core.emit .clearFiles else core) := by
    split
    · exact rule.emit hcore rfl
    · exact hcore
  unfold Apcupsd.powerfail
  dsimp only
  generalize (if ok = 2 then _ else core) = cleared at hcleared ⊢
  split
  · exact rule.exit (rule.emit hcleared rfl)
  · exact hcleared

theorem prohibitLogins : P (prohibitLogins core) := by
  unfold Apcupsd.prohibitLogins
  split
  · exact hcore
  · have hforbidden : P (logonfail core false) := rule.emit hcore rfl
    exact rule.logEvent (rule.mapUps hforbidden rfl)

theorem doShutdown {cmdtype : Command} (hcmd : cmdtype ≠ .cmdChangeme) :
    P (doShutdown env core cmdtype) := by
  have hmarked : P (core.mapUps fun ups =>
      { ups with shutDown := env.shutdownTime }.setShutdown) := rule.mapUps hcore rfl
  have hunlocked : P (Core.mapUps (Core.emit _ .deleteLockfile) UpsInfo.setFastpoll) :=
    rule.mapUps (rule.emit hmarked rfl) rfl
  have hprohibited := rule.prohibitLogins
    (rule.emit hunlocked (show Effect.makePwrfailFile.isReserved = false from rfl))
  have hprepared : P (prepareShutdown env core) := by
    unfold prepareShutdown
    dsimp only
    split
    · exact rule.initiateHibernate hprohibited
    · exact hprohibited
  unfold Apcupsd.doShutdown
  split
  · exact hcore
  · exact andThen_rel hprepared (rule.powerfail (rule.executeCommand hprepared hcmd))

theorem generateEvent {event : Command} (hevent : event ≠ .cmdChangeme) :
    P (generateEvent env core event) := by
  have hannounced : P (Apcupsd.executeCommand env
      (Apcupsd.logEvent core (eventMsg event).1 (eventMsg event).2) event) :=
    rule.executeCommand (rule.logEvent hcore) hevent
  unfold Apcupsd.generateEvent
  dsimp only
  split
  · exact rule.doShutdown (rule.logEvent hannounced) (by simp)
  · exact hannounced

/-! ## Parts of a pass -/

theorem remoteShutdown : P (remoteShutdown env core) := by
  have hannounced : P
      (if core.ups.chgShutRemote then Apcupsd.generateEvent env core .cmdRemotedown
      else core) := by
    split
    · exact rule.generateEvent hcore (by simp)
    · exact hcore
  exact andThen_rel hannounced (rule.mapUps hannounced rfl)

theorem batteryEdges : P (batteryEdges env core) := by
  have hattach : P (batteryAttach env core) := by
    unfold batteryAttach
    split_ifs
    · exact rule.generateEvent hcore (by simp)
    · exact rule.generateEvent hcore (by simp)
    · exact hcore
  unfold Apcupsd.batteryEdges batteryLowTimer
  split
  · exact rule.mapUps hattach rfl
  · exact hattach

theorem doPowerFailure : P (doPowerFailure env core) := by
  have hfast : P (core.mapUps UpsInfo.setFastpoll) := rule.mapUps hcore rfl
  have hchecked : P
      (Apcupsd.deviceEntryPoint env (core.mapUps UpsInfo.setFastpoll) .checkSelftest) :=
    rule.deviceEntryPoint hfast
  unfold Apcupsd.doPowerFailure
  dsimp only
  split
  · have hannounced := rule.generateEvent hchecked
      (show Command.cmdStartselftest ≠ .cmdChangeme by simp)
    exact rule.deviceEntryPoint (rule.mapUps hannounced rfl)
  · have hannounced := rule.generateEvent hchecked
      (show Command.cmdPowerout ≠ .cmdChangeme by simp)
    exact rule.deviceEntryPoint (rule.mapUps hannounced rfl)

theorem shutdownRunning : P (shutdownRunning env core) := by
  have hhibernated := rule.initiateHibernate hcore
  unfold Apcupsd.shutdownRunning
  dsimp only
  split_ifs
  · exact andThen_rel hcore (rule.mapUps hcore rfl)
  · exact andThen_rel hhibernated (rule.mapUps hhibernated rfl)
  · exact hcore

theorem annoyUsers : P (annoyUsers env core) := by
  unfold Apcupsd.annoyUsers
  dsimp only
  split_ifs
  · exact rule.logoff (rule.mapUps (rule.executeCommand hcore (by simp)) rfl)
  · exact rule.logoff (rule.mapUps (rule.generateEvent hcore (by simp)) rfl)
  · exact hcore

theorem delayNologon : P (delayNologon env core) := by
  have hprohibited := rule.prohibitLogins hcore
  unfold Apcupsd.delayNologon
  split
  · exact hcore
  · split
    · exact hcore
    · split
      · exact hprohibited
      · exact hcore
    · split
      · exact hprohibited
      · exact hcore
    · split
      · exact hprohibited
      · exact hcore
    · exact hprohibited
    · exact hprohibited

theorem evaluateBattery : P (evaluateBattery env core) := by
  have htimed : P (core.mapUps fun ups => runtimeLimitTimer env (loadLimitTimer env ups)) :=
    rule.mapUps hcore (reserved_limitTimers env core.ups)
  unfold Apcupsd.evaluateBattery expiredTimers
  split_ifs
  · exact rule.generateEvent (rule.mapUps hcore rfl) (by simp)
  · exact rule.generateEvent htimed (by simp)
  · exact rule.generateEvent htimed (by simp)
  · exact rule.generateEvent htimed (by simp)
  · have hemergency : P (emergency env (core.mapUps fun ups =>
        runtimeLimitTimer env (loadLimitTimer env ups))) := by
      unfold emergency
      split
      · exact rule.generateEvent (rule.mapUps htimed rfl) (by simp)
      · exact htimed
    have hannoyed : P (Core.andThen _ (Apcupsd.annoyUsers env)) :=
      andThen_rel hemergency (rule.annoyUsers hemergency)
    exact andThen_rel hannoyed (rule.delayNologon hannoyed)

theorem doOnBattery : P (doOnBattery env core) := by
  unfold Apcupsd.doOnBattery
  split_ifs
  · have hmarked : P (core.mapUps UpsInfo.setOnbattMsg) := rule.mapUps hcore rfl
    have hannounced := rule.generateEvent hmarked
      (show Command.cmdOnbattery ≠ .cmdChangeme by simp)
    exact rule.mapUps hannounced rfl
  · exact rule.shutdownRunning hcore
  · exact rule.evaluateBattery hcore

theorem doMainsBack : P (doMainsBack env core) := by
  have hwithdrawn : P
      (if core.ups.isOnbattMsg then
        Apcupsd.generateEvent env (core.mapUps UpsInfo.clearOnbattMsg) .cmdOffbattery
      else core) := by
    split
    · exact rule.generateEvent (rule.mapUps hcore rfl) (by simp)
    · exact hcore
  unfold Apcupsd.doMainsBack
  generalize (if core.ups.isOnbattMsg then _ else core) = withdrawn at hwithdrawn
  have hended : P
      (if withdrawn.ups.selfTest ≠ 0 then endSelfTest env withdrawn
      else Apcupsd.generateEvent env withdrawn .cmdMainsback) := by
    split
    · have hstored : P (withdrawn.mapUps fun ups =>
          { ups with lastSelfTest := ups.selfTest, selfTest := 0 }) :=
        rule.mapUps hwithdrawn rfl
      exact rule.executeCommand (rule.logEvent (rule.deviceEntryPoint hstored)) (by simp)
    · exact rule.generateEvent hwithdrawn (by simp)
  dsimp only
  generalize (if withdrawn.ups.selfTest ≠ 0 then _ else _) = ended at hended
  have hallowed : P
      (if ended.ups.nologinFile then Apcupsd.logEvent ended .logAlert "Allowing logins"
      else ended) := by
    split
    · exact rule.logEvent hended
    · exact hended
  have hopened : P (logonfail _ true) := rule.emit hallowed rfl
  have hforgotten : P (Core.mapUps (logonfail _ true) fun ups =>
      { ups with nologinFile := false }) := rule.mapUps hopened rfl
  exact rule.mapUps (rule.deviceEntryPoint (rule.logoff hforgotten)) rfl

theorem doState {state : AState} : P (doState env state core) := by
  cases state with
  | stOnMains =>
      unfold Apcupsd.doState doOnMains
      exact rule.mapUps hcore rfl
  | stPowerFailure => exact rule.doPowerFailure hcore
  | stSelfTest =>
      have hcancelled : P (core.mapUps fun ups => { ups with selfTest := 0 }) :=
        rule.mapUps hcore rfl
      unfold Apcupsd.doState doSelfTest
      dsimp only
      split
      · exact hcore
      · exact rule.doOnBattery hcancelled
  | stOnBattery => exact rule.doOnBattery hcore
  | stMainsBack => exact rule.doMainsBack hcore
  | stCalibration => exact hcore

omit hcore in
/-- What holds past the reminder holds at the end of the pass. -/
theorem doAction (hhead : P (passHead env core)) : P (doAction env core) := by
  have hready : P (Apcupsd.batteryEdges env (passHead env core)) := rule.batteryEdges hhead
  have hdone : P (Apcupsd.doState env _ (Apcupsd.batteryEdges env _)) :=
    @doState env P rule _ hready
      (getState (Apcupsd.batteryEdges env (passHead env core)).ups)
  unfold Apcupsd.doAction
  dsimp only
  split
  · exact rule.remoteShutdown hhead
  · refine andThen_rel hdone (rule.mapUps ?_ rfl)
    unfold reapChildren
    split
    · exact rule.mapUps hdone rfl
    · exact hdone

end PassRule

end Apcupsd
