import Mathlib.Logic.Relation
import Apcupsd.Core.PassSpec

/-!
# The writes of a pass

Every statement of a pass logs an effect, writes the core's own part of the record,
calls the driver or leaves the process.  The writes that only some arms make carry the
arm as a guard, so a fact about the record follows from what each write does to it.

Main results:

- Definition {lit}`OwnWrite`: what the statements of a pass write, and in which arm.
- Theorem {lit}`doAction_writes`: a pass is a sequence of such writes.
- Theorem {lit}`PassWrites.invariant`: the invariant rule of the writes.
-/

namespace Apcupsd

open BitFlags Apcupsd.Core

/-! ## Writes -/

/-- The driver calls that a pass of a branch can make; a hibernation may be part of any. -/
def PassEnv.branchCalls (env : PassEnv) (branch : PassBranch) : List (List DriverUpdate) :=
  (match branch with
    | .powerFailure => [env.checkSelftest, env.dtrEnable]
    | .mainsBack => [env.getSelftestMsg, env.dtrStDisable]
    | _ => []) ++ [env.readVolatileData, env.killPower]

/-- The branch in which a pass makes the call. -/
def DeviceCmd.branch : DeviceCmd → PassBranch
  | .checkSelftest | .dtrEnable => .powerFailure
  | .getSelftestMsg | .dtrStDisable => .mainsBack

/-- {lit}`ups->SelfTest = 0`. -/
def UpsInfo.dropSelfTest (ups : UpsInfo) : UpsInfo :=
  { ups with selfTest := 0 }

/-- What the statements of a pass write to the record: the core's own fields and the
count of children, the bits that only the core writes, and four things that belong to
single arms.  {lit}`cancels` says whether the pass cancels a self test. -/
inductive OwnWrite (branch : PassBranch) (cancels : Bool) : UpsInfo → UpsInfo → Prop where
  | fields (ups : UpsInfo) (fields : CoreFields) (children : Int)
      (hlogins : fields.nologinFile = true → ups.nologinFile = true) :
      OwnWrite branch cancels ups
        { ups with toCoreFields := fields, numExecedChildren := children }
  | raise (ups : UpsInfo) {mask : StatusWord}
      (hmask : mask &&& ~~~(coreBits &&& ~~~upsShutdown) = 0) :
      OwnWrite branch cancels ups (ups.set mask)
  | drop (ups : UpsInfo) {mask : StatusWord}
      (hmask : mask &&& ~~~(upsOnbattMsg ||| upsShutLoad ||| upsShutLtime ||| upsReplacebatt) = 0) :
      OwnWrite branch cancels ups (ups.clear mask)
  | shutdown (ups : UpsInfo) (hguard : branch = .shutdownRunning) :
      OwnWrite branch cancels ups ups.setShutdown
  | fastpoll (ups : UpsInfo) (hguard : branch = .powerFailure) :
      OwnWrite branch cancels ups ups.setFastpoll
  | slowpoll (ups : UpsInfo) (hguard : branch = .onMains) :
      OwnWrite branch cancels ups ups.clearFastpoll
  | selfTest (ups : UpsInfo) (hguard : branch = .mainsBack ∨ cancels = true) :
      OwnWrite branch cancels ups ups.dropSelfTest

/-- The effects that a statement has by itself: deleting the lock file comes with the flags
of the shutdown, and making the powerfail file with the ban on logins. -/
def Effect.isSingle : Effect → Bool
  | .driverWrite _ | .deleteLockfile | .makePwrfailFile => false
  | _ => true

/-- One statement of a pass. -/
inductive PassWrite (env : PassEnv) (branch : PassBranch) (cancels : Bool) :
    Core → Core → Prop where
  | emit (core : Core) {effect : Effect} (heffect : effect.isSingle = true) :
      PassWrite env branch cancels core (core.emit effect)
  | own (core : Core) {ups : UpsInfo} (hwrite : OwnWrite branch cancels core.ups ups) :
      PassWrite env branch cancels core { core with ups := ups }
  | unlock (core : Core) (time : Int) :
      PassWrite env branch cancels core
        (((core.mapUps fun ups => { ups with shutDown := time }.setShutdown).emit
          .deleteLockfile).mapUps UpsInfo.setFastpoll)
  | prohibit (core : Core) : PassWrite env branch cancels core (prohibitLogins core)
  | powerfail (core : Core) :
      PassWrite env branch cancels core (prohibitLogins (core.emit .makePwrfailFile))
  | driver (core : Core) {updates : List DriverUpdate}
      (hupdates : updates ∈ env.branchCalls branch) :
      PassWrite env branch cancels core (core.driverCall updates)
  | exit (core : Core) : PassWrite env branch cancels core { core with exited := true }
  | logoff (core : Core) (requested : Bool) :
      PassWrite env branch cancels core { core with requestedLogoff := requested }

/-- A sequence of statements. -/
abbrev PassWrites (env : PassEnv) (branch : PassBranch) (cancels : Bool) : Core → Core → Prop :=
  Relation.ReflTransGen (PassWrite env branch cancels)

namespace PassWrites

variable {env : PassEnv} {branch : PassBranch} {cancels : Bool} {before core : Core}

theorem emit (hwrites : PassWrites env branch cancels before core) {effect : Effect}
    (heffect : effect.isSingle = true) :
    PassWrites env branch cancels before (core.emit effect) :=
  hwrites.tail (.emit core heffect)

theorem own (hwrites : PassWrites env branch cancels before core)
    {change : UpsInfo → UpsInfo} (hwrite : OwnWrite branch cancels core.ups (change core.ups)) :
    PassWrites env branch cancels before (core.mapUps change) :=
  hwrites.tail (.own core hwrite)

theorem driver (hwrites : PassWrites env branch cancels before core)
    {updates : List DriverUpdate} (hupdates : updates ∈ env.branchCalls branch) :
    PassWrites env branch cancels before (core.driverCall updates) :=
  hwrites.tail (.driver core hupdates)

theorem andThen {next : Core → Core} (hwrites : PassWrites env branch cancels before core)
    (hnext : PassWrites env branch cancels before (next core)) :
    PassWrites env branch cancels before (core.andThen next) :=
  andThen_rel (P := fun after => PassWrites env branch cancels before after) hwrites hnext

theorem logEvent (hwrites : PassWrites env branch cancels before core) {level : LogLevel}
    {msg : String} : PassWrites env branch cancels before (logEvent core level msg) :=
  hwrites.emit rfl

theorem logoff (hwrites : PassWrites env branch cancels before core) {requested : Bool} :
    PassWrites env branch cancels before { core with requestedLogoff := requested } :=
  hwrites.tail (.logoff core requested)

theorem exit (hwrites : PassWrites env branch cancels before core) :
    PassWrites env branch cancels before { core with exited := true } :=
  hwrites.tail (.exit core)

/-- The invariant rule: what every statement preserves holds at the end. -/
theorem invariant {P : Core → Prop}
    (hwrite : ∀ {s t}, PassWrite env branch cancels s t → P s → P t)
    (hwrites : PassWrites env branch cancels before core) (hbefore : P before) : P core := by
  induction hwrites with
  | refl => exact hbefore
  | tail _ hlast ih => exact hwrite hlast ih

end PassWrites

/-! ## The calls -/

section Calls

variable {env : PassEnv} {branch : PassBranch} {cancels : Bool} {before core : Core}
  (hwrites : PassWrites env branch cancels before core)

include hwrites

theorem executeCommand_writes {cmd : Command} :
    PassWrites env branch cancels before (executeCommand env core cmd) := by
  unfold executeCommand
  split
  · exact (hwrites.emit rfl).logEvent
  · exact (hwrites.emit rfl).own (.fields core.ups core.ups.toCoreFields _ id)

theorem deviceEntryPoint_writes {cmd : DeviceCmd} (hbranch : branch = cmd.branch) :
    PassWrites env branch cancels before (deviceEntryPoint env core cmd) := by
  refine PassWrites.driver (PassWrites.emit hwrites rfl) ?_
  rw [hbranch]
  cases cmd <;> simp [DeviceCmd.branch, PassEnv.branchCalls]

theorem pollDumbUps_writes : PassWrites env branch cancels before (pollDumbUps env core) := by
  unfold pollDumbUps
  split
  · refine PassWrites.driver (((hwrites.emit rfl).emit rfl).emit rfl) ?_
    simp [PassEnv.branchCalls]
  · exact hwrites

theorem initiateHibernate_writes :
    PassWrites env branch cancels before (initiateHibernate env core) := by
  have hpolled := pollDumbUps_writes hwrites
  unfold initiateHibernate
  generalize pollDumbUps env core = polled at hpolled
  have hwaited : PassWrites env branch cancels before
      (if polled.ups.upsclassType = .sharemaster then
        logEvent polled .logWarning "Waiting 30 seconds for slave(s) to shutdown."
      else polled) := by
    split
    · exact hpolled.logEvent
    · exact hpolled
  dsimp only
  generalize (if polled.ups.upsclassType = .sharemaster then _ else polled) = waited
    at hwaited ⊢
  split
  · exact PassWrites.exit (PassWrites.emit hpolled.logEvent rfl)
  · split
    · exact hwaited.logEvent.logEvent.logEvent.logEvent
    · refine PassWrites.driver (PassWrites.emit hwaited.logEvent rfl) ?_
      simp [PassEnv.branchCalls]

theorem powerfail_writes {ok : Nat} :
    PassWrites env branch cancels before (powerfail core ok) := by
  have hcleared : PassWrites env branch cancels before
      (if ok = 2 then core.emit .clearFiles else core) := by
    split
    · exact hwrites.emit rfl
    · exact hwrites
  unfold powerfail
  dsimp only
  generalize (if ok = 2 then _ else core) = cleared at hcleared ⊢
  split
  · exact PassWrites.exit (PassWrites.emit hcleared rfl)
  · exact hcleared

theorem prepareShutdown_writes :
    PassWrites env branch cancels before (prepareShutdown env core) := by
  let marked := core.mapUps fun ups =>
    { ups with shutDown := env.shutdownTime }.setShutdown
  let unlocked := (marked.emit .deleteLockfile).mapUps UpsInfo.setFastpoll
  have hunlocked : PassWrites env branch cancels before unlocked :=
    hwrites.tail (.unlock core env.shutdownTime)
  have hprohibited : PassWrites env branch cancels before
      (prohibitLogins (unlocked.emit .makePwrfailFile)) :=
    hunlocked.tail (.powerfail unlocked)
  unfold prepareShutdown
  dsimp only
  split
  · exact initiateHibernate_writes hprohibited
  · exact hprohibited

theorem doShutdown_writes {cmdtype : Command} :
    PassWrites env branch cancels before (doShutdown env core cmdtype) := by
  have hprepared := prepareShutdown_writes hwrites
  unfold doShutdown
  split
  · exact hwrites
  · exact hprepared.andThen (powerfail_writes (executeCommand_writes hprepared))

theorem generateEvent_writes {event : Command} :
    PassWrites env branch cancels before (generateEvent env core event) := by
  unfold generateEvent
  dsimp only
  split
  · exact doShutdown_writes (executeCommand_writes hwrites.logEvent).logEvent
  · exact executeCommand_writes hwrites.logEvent

end Calls

/-! ## The arms -/

section Arms

variable {env : PassEnv} {branch : PassBranch} {cancels : Bool} {before core : Core}
  (hwrites : PassWrites env branch cancels before core)

include hwrites

/-- A change of the core's own fields that does not ban logins. -/
theorem PassWrites.fields (change : UpsInfo → CoreFields)
    (hlogins : (change core.ups).nologinFile = true → core.ups.nologinFile = true) :
    PassWrites env branch cancels before
      (core.mapUps fun ups => { ups with toCoreFields := change ups }) :=
  hwrites.own (.fields core.ups (change core.ups) core.ups.numExecedChildren hlogins)

theorem replaceBattery_writes :
    PassWrites env branch cancels before (replaceBattery env core) := by
  unfold replaceBattery
  split_ifs
  · have hcleared : PassWrites env branch cancels before
        (core.mapUps UpsInfo.clearReplacebatt) :=
      hwrites.own (.drop core.ups (by decide))
    exact hcleared.fields (fun ups => { ups.toCoreFields with changeBattCounter := 0 }) id
  · exact (generateEvent_writes hwrites).fields (fun ups =>
      { ups.toCoreFields with
        lastTimeChangeme := env.now
        changeBattCounter := ups.changeBattCounter + 1 }) id
  · exact hwrites
  · exact hwrites

theorem rememberStatus_writes : PassWrites env branch cancels before (rememberStatus core) :=
  hwrites.fields (fun ups => { ups.toCoreFields with prevStatus := ups.status }) id

theorem remoteShutdown_writes :
    PassWrites env branch cancels before (remoteShutdown env core) := by
  have hannounced : PassWrites env branch cancels before
      (if core.ups.chgShutRemote then generateEvent env core .cmdRemotedown else core) := by
    split
    · exact generateEvent_writes hwrites
    · exact hwrites
  exact hannounced.andThen (rememberStatus_writes hannounced)

theorem batteryEdges_writes :
    PassWrites env branch cancels before (batteryEdges env core) := by
  have hattach : PassWrites env branch cancels before (batteryAttach env core) := by
    unfold batteryAttach
    split_ifs
    · exact generateEvent_writes hwrites
    · exact generateEvent_writes hwrites
    · exact hwrites
  unfold batteryEdges batteryLowTimer
  split
  · exact hattach.fields (fun ups => { ups.toCoreFields with startShutLbatt := env.now }) id
  · exact hattach

theorem PassWrites.restamp (now : Int) :
    PassWrites env branch cancels before (core.mapUps (Apcupsd.restamp now)) :=
  hwrites.fields (fun ups =>
    { ups.toCoreFields with
      lastTimeNologon := now
      lastTimeAnnoy := now
      lastTimeOnLine := now }) id

theorem doOnMains_writes (hbranch : branch = .onMains) :
    PassWrites env branch cancels before (doOnMains env core) :=
  (hwrites.restamp env.now).own (.slowpoll _ hbranch)

omit hwrites in
/-- The arm of {lit}`st_PowerFailure` after it has raised {lit}`fastpoll`. -/
theorem doPowerFailure_writes_of_fastpoll (hbranch : branch = .powerFailure)
    (hfast : PassWrites env branch cancels before (core.mapUps UpsInfo.setFastpoll)) :
    PassWrites env branch cancels before (doPowerFailure env core) := by
  have hchecked : PassWrites env branch cancels before
      (deviceEntryPoint env (core.mapUps UpsInfo.setFastpoll) .checkSelftest) :=
    deviceEntryPoint_writes hfast hbranch
  unfold doPowerFailure
  generalize deviceEntryPoint env (core.mapUps UpsInfo.setFastpoll) .checkSelftest = checked
    at hchecked
  have hannounced : PassWrites env branch cancels before
      (if checked.ups.selfTest ≠ 0 then generateEvent env checked .cmdStartselftest
      else generateEvent env checked .cmdPowerout) := by
    split
    · exact generateEvent_writes hchecked
    · exact generateEvent_writes hchecked
  exact deviceEntryPoint_writes (hannounced.fields (fun ups =>
    { ups.toCoreFields with
      lastTimeNologon := env.now
      lastTimeAnnoy := env.now
      lastTimeOnLine := env.now
      lastOnbattTime := env.now
      numXfers := ups.numXfers + 1 }) id) hbranch

theorem announceOnBattery_writes :
    PassWrites env branch cancels before (announceOnBattery env core) :=
  (generateEvent_writes (hwrites.own (.raise core.ups (by decide)))).restamp env.now

theorem shutdownRunning_writes (hbranch : branch = .shutdownRunning) :
    PassWrites env branch cancels before (shutdownRunning env core) := by
  unfold shutdownRunning
  split
  · have hhibernated : PassWrites env branch cancels before
        (if core.ups.isSlave then core else initiateHibernate env core) := by
      split
      · exact hwrites
      · exact initiateHibernate_writes hwrites
    have hstamped := hhibernated.fields
      (fun ups => { ups.toCoreFields with shutDown := env.now }) id
    exact hhibernated.andThen (hstamped.own (.shutdown _ hbranch))
  · exact hwrites

theorem annoyUsers_writes : PassWrites env branch cancels before (annoyUsers env core) := by
  have hstamp : ∀ asked, PassWrites env branch cancels before asked →
      PassWrites env branch cancels before
        (asked.mapUps fun ups => { ups with lastTimeAnnoy := env.annoyTime }) :=
    fun asked hasked => hasked.fields
      (fun ups => { ups.toCoreFields with lastTimeAnnoy := env.annoyTime }) id
  unfold annoyUsers
  split_ifs
  · exact (hstamp _ (executeCommand_writes hwrites)).logoff
  · exact (hstamp _ (generateEvent_writes hwrites)).logoff
  · exact hwrites

theorem delayNologon_writes : PassWrites env branch cancels before (delayNologon env core) := by
  have hprohibit : PassWrites env branch cancels before (prohibitLogins core) :=
    hwrites.tail (.prohibit core)
  unfold delayNologon
  split
  · exact hwrites
  · split
    · exact hwrites
    · split
      · exact hprohibit
      · exact hwrites
    · split
      · exact hprohibit
      · exact hwrites
    · split
      · exact hprohibit
      · exact hwrites
    · exact hprohibit
    · exact hprohibit

theorem limitTimers_writes :
    PassWrites env branch cancels before (core.mapUps (stateUpdate env .evaluate)) := by
  have hload : PassWrites env branch cancels before (core.mapUps (loadLimitTimer env)) := by
    unfold loadLimitTimer Core.mapUps
    dsimp only
    split_ifs
    · exact hwrites
    · exact (hwrites.own (.raise core.ups (by decide))).fields
        (fun ups => { ups.toCoreFields with startShutLoad := env.now }) id
    · exact hwrites.own (.drop core.ups (by decide))
  have hruntime : ∀ loaded, PassWrites env branch cancels before loaded →
      PassWrites env branch cancels before (loaded.mapUps (runtimeLimitTimer env)) := by
    intro loaded hloaded
    unfold runtimeLimitTimer Core.mapUps
    dsimp only
    split_ifs
    · exact hloaded
    · exact (hloaded.own (.raise loaded.ups (by decide))).fields
        (fun ups => { ups.toCoreFields with startShutLtime := env.now }) id
    · exact hloaded.own (.drop loaded.ups (by decide))
  exact hruntime _ hload

theorem evaluateBattery_writes :
    PassWrites env branch cancels before (evaluateBattery env core) := by
  have htimed := limitTimers_writes hwrites
  unfold evaluateBattery expiredTimers
  split_ifs
  · exact generateEvent_writes (hwrites.own (.raise core.ups (by decide)))
  · exact generateEvent_writes htimed
  · exact generateEvent_writes htimed
  · exact generateEvent_writes htimed
  · have hemergency : PassWrites env branch cancels before
        (emergency env (core.mapUps (stateUpdate env .evaluate))) := by
      unfold emergency
      split
      · exact generateEvent_writes (htimed.own (.raise _ (by decide)))
      · exact htimed
    have hannoyed := hemergency.andThen (annoyUsers_writes hemergency)
    exact hannoyed.andThen (delayNologon_writes hannoyed)

theorem doOnBattery_writes
    (hbranch : batteryBranch env core.ups = .shutdownRunning → branch = .shutdownRunning) :
    PassWrites env branch cancels before (doOnBattery env core) := by
  unfold batteryBranch at hbranch
  unfold doOnBattery
  split_ifs at hbranch ⊢
  · exact announceOnBattery_writes hwrites
  · exact shutdownRunning_writes hwrites (hbranch rfl)
  · exact evaluateBattery_writes hwrites
  · exact evaluateBattery_writes hwrites

theorem doSelfTest_writes
    (hbranch : selfTestRunning env core.ups = false →
      batteryBranch env core.ups = .shutdownRunning → branch = .shutdownRunning)
    (hcancels : selfTestRunning env core.ups = false → cancels = true) :
    PassWrites env branch cancels before (doSelfTest env core) := by
  unfold doSelfTest
  cases hrunning : selfTestRunning env core.ups with
  | true => exact hwrites
  | false =>
      have hcancelled : PassWrites env branch cancels before
          (core.mapUps UpsInfo.dropSelfTest) :=
        hwrites.own (.selfTest core.ups (.inr (hcancels hrunning)))
      exact doOnBattery_writes hcancelled (hbranch hrunning)

theorem doMainsBack_writes (hbranch : branch = .mainsBack) :
    PassWrites env branch cancels before (doMainsBack env core) := by
  have hwithdrawn : PassWrites env branch cancels before
      (if core.ups.isOnbattMsg then
        generateEvent env (core.mapUps UpsInfo.clearOnbattMsg) .cmdOffbattery
      else core) := by
    split
    · exact generateEvent_writes (hwrites.own (.drop core.ups (by decide)))
    · exact hwrites
  unfold doMainsBack
  generalize (if core.ups.isOnbattMsg then _ else core) = withdrawn at hwithdrawn
  have hended : PassWrites env branch cancels before
      (if withdrawn.ups.selfTest ≠ 0 then endSelfTest env withdrawn
      else generateEvent env withdrawn .cmdMainsback) := by
    split
    · have hstored := hwithdrawn.fields
        (fun ups => { ups.toCoreFields with lastSelfTest := ups.selfTest }) id
      have hreset := hstored.own (.selfTest _ (.inl hbranch))
      have hasked : PassWrites env branch cancels before
          (deviceEntryPoint env _ .getSelftestMsg) := deviceEntryPoint_writes hreset hbranch
      exact executeCommand_writes hasked.logEvent
    · exact generateEvent_writes hwithdrawn
  dsimp only
  generalize (if withdrawn.ups.selfTest ≠ 0 then _ else _) = ended at hended
  have hallowed : PassWrites env branch cancels before
      (if ended.ups.nologinFile then logEvent ended .logAlert "Allowing logins" else ended) := by
    split
    · exact hended.logEvent
    · exact hended
  have hopened : PassWrites env branch cancels before (logonfail _ true) := hallowed.emit rfl
  have hreopened := (hopened.fields
    (fun ups => { ups.toCoreFields with nologinFile := false }) nofun).tail (.logoff _ false)
  have hdisabled : PassWrites env branch cancels before (deviceEntryPoint env _ .dtrStDisable) :=
    deviceEntryPoint_writes hreopened hbranch
  exact hdisabled.fields (fun ups => (closeOutage env ups).toCoreFields) id

/-- The arm that a branch names. -/
theorem doState_writes (hbranch : branch = stateBranch env core.ups)
    (hcancels : getState core.ups = .stSelfTest → selfTestRunning env core.ups = false →
      cancels = true) :
    PassWrites env branch cancels before (doState env (getState core.ups) core) := by
  unfold stateBranch at hbranch
  cases hstate : getState core.ups with
  | stOnMains =>
      rw [hstate] at hbranch
      exact doOnMains_writes hwrites hbranch
  | stPowerFailure =>
      rw [hstate] at hbranch
      exact doPowerFailure_writes_of_fastpoll hbranch (hwrites.own (.fastpoll core.ups hbranch))
  | stSelfTest =>
      rw [hstate] at hbranch
      refine doSelfTest_writes hwrites (fun hrunning harm => ?_) (hcancels hstate)
      rw [hbranch, hrunning]
      exact harm
  | stOnBattery =>
      rw [hstate] at hbranch
      exact doOnBattery_writes hwrites hbranch.trans
  | stMainsBack =>
      rw [hstate] at hbranch
      exact doMainsBack_writes hwrites hbranch
  | stCalibration => exact hwrites

end Arms

/-- The pass cancels a self test. -/
def cancelsSelfTest (env : PassEnv) (ups : UpsInfo) : Bool :=
  !ups.isShutRemote && decide (getState ups = .stSelfTest) && !selfTestRunning env ups

theorem batteryEdges_status (env : PassEnv) (head : Core) :
    (batteryEdges env head).ups.status = head.ups.status := by
  rcases batteryEdges_ups env head with ⟨children, hups⟩
  rw [hups]
  unfold stampBattlow
  split <;> rfl

/-- The battery edges do not decide whether a self test is cancelled. -/
theorem cancelsSelfTest_batteryEdges (env : PassEnv) (head : Core) :
    cancelsSelfTest env (batteryEdges env head).ups = cancelsSelfTest env head.ups := by
  rcases batteryEdges_ups env head with ⟨children, hups⟩
  rw [hups]
  unfold stampBattlow
  split <;> rfl

/-- After the first-call statements a pass is a sequence of statements of its branch. -/
theorem doAction_writes (env : PassEnv) (core : Core) :
    PassWrites env (passBranch env (passHead env core).ups)
      (cancelsSelfTest env (passHead env core).ups) (firstCall env core) (doAction env core) := by
  let head := passHead env core
  have hhead : PassWrites env (passBranch env head.ups) (cancelsSelfTest env head.ups)
      (firstCall env core) head :=
    replaceBattery_writes .refl
  cases hremote : head.ups.isShutRemote with
  | true =>
      rw [doAction_of_remote hremote]
      exact remoteShutdown_writes hhead
  | false =>
      rw [doAction_of_not_remote hremote]
      have hswitch : PassWrites env (passBranch env head.ups) (cancelsSelfTest env head.ups)
          (firstCall env core) (switchState env head) := by
        refine doState_writes (batteryEdges_writes hhead) ?_ ?_
        · rw [(batteryEdges_update env head).1]
          exact if_neg (Bool.eq_false_iff.mp hremote)
        · intro hstate hrunning
          have hready : (batteryEdges env head).ups.isShutRemote = false :=
            (congrArg (testMask · upsShutRemote) (batteryEdges_status env head)).trans hremote
          rw [← cancelsSelfTest_batteryEdges]
          unfold cancelsSelfTest
          rw [hready, hstate, hrunning]
          rfl
      refine hswitch.andThen (rememberStatus_writes ?_)
      unfold reapChildren
      split
      · exact hswitch.own (.fields _ _ _ id)
      · exact hswitch

end Apcupsd
