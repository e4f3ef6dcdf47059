import Apcupsd.Core.Events

/-!
# What an event can do

Specifications of {lit}`generate_event` and of every call it makes, in the form
the passes use: which fields of the record an event may write, and which
commands its log shows.

Main results:

- Theorem {lit}`generateEvent_frame`: an event leaves the configuration, the
  timers and the timer flags alone, and never withdraws a shutdown.
- Theorem {lit}`executed_generateEvent`: apart from the shutdown script, an event
  executes its own command and nothing else.
- Theorem {lit}`generateEvent_isShutdown`: a shutdown cause leaves the shutdown
  flag raised.
-/

namespace Apcupsd

open BitFlags Apcupsd.Core

/-! ## The frame of an event -/

/-- The core bits that later passes read and no event writes. -/
def timerBits : StatusWord :=
  upsOnbattMsg ||| upsShutLoad ||| upsShutLtime

/-- What no event changes and no reminder: the configuration, every field that a
debounce timer or a delay is measured from, the counters of outages, and the
bits that go with them.  The shutdown flag is never withdrawn. -/
structure TimerFrame (before after : UpsInfo) : Prop where
  config : after.toUpsConfig = before.toUpsConfig
  core : after.toCoreFields =
    { before.toCoreFields with
      prevStatus := after.prevStatus
      shutDown := after.shutDown
      lastSelfTest := after.lastSelfTest
      lastTimeAnnoy := after.lastTimeAnnoy
      lastTimeChangeme := after.lastTimeChangeme
      changeBattCounter := after.changeBattCounter
      nologinFile := after.nologinFile }
  bits : after.status &&& timerBits = before.status &&& timerBits
  shutdown : before.isShutdown = true → after.isShutdown = true

namespace TimerFrame

theorem refl (ups : UpsInfo) : TimerFrame ups ups :=
  ⟨rfl, rfl, rfl, id⟩

theorem trans {first second third : UpsInfo} (hleft : TimerFrame first second)
    (hright : TimerFrame second third) : TimerFrame first third where
  config := hright.config.trans hleft.config
  core := by rw [hright.core, hleft.core]
  bits := hright.bits.trans hleft.bits
  shutdown := fun hfirst => hright.shutdown (hleft.shutdown hfirst)

theorem ofDriver {before after : UpsInfo} (hframe : DriverFrame before after) :
    TimerFrame before after where
  config := hframe.config
  core := by rw [hframe.core]
  bits := by
    have hinside : timerBits &&& coreBits = timerBits := by decide
    rw [← hinside, BitVec.and_comm timerBits, ← BitVec.and_assoc, hframe.bits,
      BitVec.and_assoc]
  shutdown := fun hbefore => hframe.isShutdown.trans hbefore

theorem test_eq {before after : UpsInfo} (hframe : TimerFrame before after)
    {mask : StatusWord} (hmask : mask &&& timerBits = mask) :
    after.test mask = before.test mask :=
  testMask_eq_of_and_eq hmask hframe.bits

/-- Raising a flag outside the timer bits respects the frame. -/
theorem ofSet {mask : StatusWord} (hmask : mask &&& timerBits = 0)
    (ups : UpsInfo) : TimerFrame ups (ups.set mask) where
  config := rfl
  core := rfl
  bits := raiseMask_and_of_disjoint hmask ups.status
  shutdown := by
    intro hbefore
    have hand : upsShutdown &&& ups.status = upsShutdown := by
      rw [BitVec.and_comm]
      exact beq_iff_eq.mp hbefore
    refine beq_iff_eq.mpr ?_
    change (ups.status ||| mask) &&& upsShutdown = upsShutdown
    rw [BitVec.and_comm]
    ext i hi
    have hbit : (upsShutdown &&& ups.status)[i] = upsShutdown[i] := by rw [hand]
    simp only [BitVec.getElem_and] at hbit
    simp only [BitVec.getElem_and, BitVec.getElem_or]
    cases hs : upsShutdown[i] <;> simp_all

section Fields

variable {before after : UpsInfo} (hframe : TimerFrame before after)

include hframe

theorem lastOnbattTime : after.lastOnbattTime = before.lastOnbattTime :=
  (congrArg CoreFields.lastOnbattTime hframe.core :)

theorem lastTimeOnLine : after.lastTimeOnLine = before.lastTimeOnLine :=
  (congrArg CoreFields.lastTimeOnLine hframe.core :)

theorem lastTimeNologon : after.lastTimeNologon = before.lastTimeNologon :=
  (congrArg CoreFields.lastTimeNologon hframe.core :)

theorem startShutLtime : after.startShutLtime = before.startShutLtime :=
  (congrArg CoreFields.startShutLtime hframe.core :)

theorem startShutLoad : after.startShutLoad = before.startShutLoad :=
  (congrArg CoreFields.startShutLoad hframe.core :)

theorem startShutLbatt : after.startShutLbatt = before.startShutLbatt :=
  (congrArg CoreFields.startShutLbatt hframe.core :)

theorem numXfers : after.numXfers = before.numXfers :=
  (congrArg CoreFields.numXfers hframe.core :)

theorem cumTimeOnBatt : after.cumTimeOnBatt = before.cumTimeOnBatt :=
  (congrArg CoreFields.cumTimeOnBatt hframe.core :)

end Fields

end TimerFrame

/-! ## Logs -/

@[simp]
theorem executed_emit (core : Core) (effect : Effect) (cmd : Command) :
    (core.emit effect).executed cmd ↔
      core.executed cmd ∨ effect = .executeCommand cmd := by
  simp [emit, executed, eq_comm]

@[simp]
theorem executed_mapUps (core : Core) (change : UpsInfo → UpsInfo) (cmd : Command) :
    (core.mapUps change).executed cmd ↔ core.executed cmd :=
  Iff.rfl

@[simp]
theorem executed_exit (core : Core) (exited : Bool) (cmd : Command) :
    ({ core with exited := exited } : Core).executed cmd ↔ core.executed cmd :=
  Iff.rfl

@[simp]
theorem executed_driverCall (core : Core) (updates : List DriverUpdate)
    (cmd : Command) :
    (core.driverCall updates).executed cmd ↔ core.executed cmd := by
  induction updates generalizing core with
  | nil => rfl
  | cons update updates ih =>
      refine (ih _).trans ?_
      simp [executed]

theorem driverCall_ups (core : Core) (updates : List DriverUpdate) :
    (core.driverCall updates).ups = applyUpdates updates core.ups := by
  induction updates generalizing core with
  | nil => rfl
  | cons update updates ih => exact ih _

theorem driverCall_frame (core : Core) (updates : List DriverUpdate) :
    DriverFrame core.ups (core.driverCall updates).ups := by
  rw [driverCall_ups]
  exact applyUpdates_frame updates core.ups

theorem andThen_of_exited {core : Core} (hexited : core.exited = true)
    (next : Core → Core) : core.andThen next = core := by
  simp [andThen, hexited]

theorem andThen_of_not_exited {core : Core} (hexited : core.exited = false)
    (next : Core → Core) : core.andThen next = next core := by
  simp [andThen, hexited]

/-- A relation that holds of every state and of one more statement holds of the
guarded statement. -/
theorem andThen_rel {P : Core → Prop} {core : Core} {next : Core → Core}
    (hcore : P core) (hnext : P (next core)) : P (core.andThen next) := by
  unfold andThen
  split
  · exact hcore
  · exact hnext

@[simp]
theorem executed_logEvent (core : Core) (level : LogLevel) (msg : String)
    (cmd : Command) :
    (logEvent core level msg).executed cmd ↔ core.executed cmd := by
  simp [logEvent]

@[simp]
theorem executed_executeCommand (env : PassEnv) (core : Core) (cmd other : Command) :
    (executeCommand env core cmd).executed other ↔
      core.executed other ∨ cmd = other := by
  unfold executeCommand
  split <;> simp

@[simp]
theorem executed_deviceEntryPoint (env : PassEnv) (core : Core) (device : DeviceCmd)
    (cmd : Command) :
    (deviceEntryPoint env core device).executed cmd ↔ core.executed cmd := by
  simp [deviceEntryPoint]

@[simp]
theorem executed_logonfail (core : Core) (ok : Bool) (cmd : Command) :
    (logonfail core ok).executed cmd ↔ core.executed cmd := by
  simp [logonfail]

@[simp]
theorem executed_prohibitLogins (core : Core) (cmd : Command) :
    (prohibitLogins core).executed cmd ↔ core.executed cmd := by
  unfold prohibitLogins
  split <;> simp

@[simp]
theorem executed_pollDumbUps (env : PassEnv) (core : Core) (cmd : Command) :
    (pollDumbUps env core).executed cmd ↔ core.executed cmd := by
  unfold pollDumbUps
  split <;> simp

@[simp]
theorem executed_initiateHibernate (env : PassEnv) (core : Core) (cmd : Command) :
    (initiateHibernate env core).executed cmd ↔ core.executed cmd := by
  unfold initiateHibernate
  dsimp only
  split_ifs <;> simp

@[simp]
theorem executed_powerfail (core : Core) (ok : Nat) (cmd : Command) :
    (powerfail core ok).executed cmd ↔ core.executed cmd := by
  unfold powerfail
  dsimp only
  split_ifs <;> simp

@[simp]
theorem executed_prepareShutdown (env : PassEnv) (core : Core) (cmd : Command) :
    (prepareShutdown env core).executed cmd ↔ core.executed cmd := by
  unfold prepareShutdown
  dsimp only
  split_ifs <;> simp

/-- The shutdown action executes no command but its own. -/
theorem executed_doShutdown (env : PassEnv) (core : Core) {cmdtype cmd : Command}
    (hcmd : cmdtype ≠ cmd) :
    (doShutdown env core cmdtype).executed cmd ↔ core.executed cmd := by
  unfold doShutdown
  split
  · rfl
  · refine andThen_rel (P := fun after => after.executed cmd ↔ core.executed cmd) ?_ ?_
    · simp
    · simp [hcmd]

/-- Apart from the shutdown script, an event executes exactly its own command. -/
theorem executed_generateEvent (env : PassEnv) (core : Core) (event : Command)
    {cmd : Command} (hcmd : cmd ≠ .cmdDoshutdown) :
    (generateEvent env core event).executed cmd ↔
      core.executed cmd ∨ event = cmd := by
  unfold generateEvent
  dsimp only
  split
  · rw [executed_doShutdown env _ hcmd.symm]
    simp
  · simp

/-! ## Records -/

@[simp]
theorem emit_ups (core : Core) (effect : Effect) : (core.emit effect).ups = core.ups :=
  rfl

@[simp]
theorem mapUps_ups (core : Core) (change : UpsInfo → UpsInfo) :
    (core.mapUps change).ups = change core.ups :=
  rfl

@[simp]
theorem logEvent_ups (core : Core) (level : LogLevel) (msg : String) :
    (logEvent core level msg).ups = core.ups :=
  rfl

/-- Executing a command writes the number of the children only. -/
theorem executeCommand_ups (env : PassEnv) (core : Core) (cmd : Command) :
    ∃ children, (executeCommand env core cmd).ups =
      { core.ups with numExecedChildren := children } := by
  unfold executeCommand
  split
  · exact ⟨core.ups.numExecedChildren, rfl⟩
  · exact ⟨_, rfl⟩

theorem executeCommand_frame (env : PassEnv) (core : Core) (cmd : Command) :
    TimerFrame core.ups (executeCommand env core cmd).ups := by
  rcases executeCommand_ups env core cmd with ⟨children, hups⟩
  rw [hups]
  exact ⟨rfl, rfl, rfl, id⟩

theorem pollDumbUps_frame (env : PassEnv) (core : Core) :
    DriverFrame core.ups (pollDumbUps env core).ups := by
  unfold pollDumbUps
  split
  · exact driverCall_frame (((core.emit _).emit _).emit _) env.readVolatileData
  · exact DriverFrame.refl core.ups

theorem initiateHibernate_frame (env : PassEnv) (core : Core) :
    DriverFrame core.ups (initiateHibernate env core).ups := by
  refine (pollDumbUps_frame env core).trans ?_
  unfold initiateHibernate
  generalize pollDumbUps env core = polled
  dsimp only
  -- only the last branch calls the driver; the others log
  split_ifs
  all_goals first
    | exact DriverFrame.refl polled.ups
    | exact driverCall_frame ((logEvent (logEvent polled _ _) _ _).emit _) _
    | exact driverCall_frame ((logEvent polled _ _).emit _) _

@[simp]
theorem powerfail_ups (core : Core) (ok : Nat) : (powerfail core ok).ups = core.ups := by
  unfold powerfail
  dsimp only
  split_ifs <;> rfl

theorem prohibitLogins_frame (core : Core) :
    TimerFrame core.ups (prohibitLogins core).ups := by
  unfold prohibitLogins
  split
  · exact TimerFrame.refl core.ups
  · exact ⟨rfl, rfl, rfl, id⟩

theorem prepareShutdown_frame (env : PassEnv) (core : Core) :
    TimerFrame core.ups (prepareShutdown env core).ups ∧
      (prepareShutdown env core).ups.isShutdown = true := by
  let marked := core.mapUps fun ups =>
    { ups with shutDown := env.shutdownTime }.setShutdown
  let unlocked := (marked.emit .deleteLockfile).mapUps UpsInfo.setFastpoll
  let prohibited := prohibitLogins (unlocked.emit .makePwrfailFile)
  have hstamped : TimerFrame core.ups { core.ups with shutDown := env.shutdownTime } :=
    ⟨rfl, rfl, rfl, id⟩
  have hmarked : TimerFrame core.ups marked.ups :=
    hstamped.trans (TimerFrame.ofSet (by decide) _)
  have hunlocked : TimerFrame marked.ups unlocked.ups :=
    TimerFrame.ofSet (by decide) marked.ups
  have hprohibited : TimerFrame unlocked.ups prohibited.ups :=
    prohibitLogins_frame (unlocked.emit .makePwrfailFile)
  have hset : marked.ups.isShutdown = true :=
    UpsInfo.test_set_self { core.ups with shutDown := env.shutdownTime } upsShutdown
  have hrest : TimerFrame marked.ups (prepareShutdown env core).ups := by
    unfold prepareShutdown
    dsimp only
    split
    · exact (hunlocked.trans hprohibited).trans
        (TimerFrame.ofDriver (initiateHibernate_frame env prohibited))
    · exact hunlocked.trans hprohibited
  exact ⟨hmarked.trans hrest, hrest.shutdown hset⟩

theorem doShutdown_frame (env : PassEnv) (core : Core) (cmdtype : Command) :
    TimerFrame core.ups (doShutdown env core cmdtype).ups ∧
      (doShutdown env core cmdtype).ups.isShutdown = true := by
  unfold doShutdown
  split
  · rename_i hshutdown
    exact ⟨TimerFrame.refl core.ups, hshutdown⟩
  · have hprepared := prepareShutdown_frame env core
    refine andThen_rel
      (P := fun after => TimerFrame core.ups after.ups ∧ after.ups.isShutdown = true)
      hprepared ?_
    rw [powerfail_ups]
    have hexecuted := executeCommand_frame env (prepareShutdown env core) cmdtype
    exact ⟨hprepared.1.trans hexecuted, hexecuted.shutdown hprepared.2⟩

theorem generateEvent_frame (env : PassEnv) (core : Core) (event : Command) :
    TimerFrame core.ups (generateEvent env core event).ups := by
  refine (executeCommand_frame env
    (logEvent core (eventMsg event).1 (eventMsg event).2) event).trans ?_
  unfold generateEvent
  generalize executeCommand env _ event = announced
  dsimp only
  split
  · exact (doShutdown_frame env
      (logEvent announced (eventMsg .cmdDoshutdown).1 (eventMsg .cmdDoshutdown).2)
      .cmdDoshutdown).1
  · exact TimerFrame.refl announced.ups

/-- After a shutdown cause the shutdown flag is raised. -/
theorem generateEvent_isShutdown (env : PassEnv) (core : Core) {event : Command}
    (hcause : event.isShutdownCause = true) :
    (generateEvent env core event).ups.isShutdown = true := by
  unfold generateEvent
  simp only [hcause, if_true]
  exact (doShutdown_frame env _ _).2

/-- An event that is no shutdown cause changes the count of children only. -/
theorem generateEvent_ups (env : PassEnv) (core : Core) {event : Command}
    (hcause : event.isShutdownCause = false) :
    ∃ children, (generateEvent env core event).ups =
      { core.ups with numExecedChildren := children } := by
  unfold generateEvent
  simp only [hcause, Bool.false_eq_true, if_false]
  exact executeCommand_ups env _ event

theorem driverCall_exited (core : Core) (updates : List DriverUpdate) :
    (core.driverCall updates).exited = core.exited := by
  induction updates generalizing core with
  | nil => rfl
  | cons update updates ih => exact ih _

/-- An event that is no shutdown cause does not leave the process. -/
theorem generateEvent_exited (env : PassEnv) (core : Core) {event : Command}
    (hcause : event.isShutdownCause = false) :
    (generateEvent env core event).exited = core.exited := by
  unfold generateEvent executeCommand
  simp only [hcause, Bool.false_eq_true, if_false]
  split <;> rfl

end Apcupsd
