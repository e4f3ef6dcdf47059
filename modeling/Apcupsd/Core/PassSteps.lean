import Apcupsd.Core.PassWrites

/-!
# The steps of a pass

Everything a pass does after the first-call statements is a sequence of five
kinds of step: an effect, a change of the core's own part of the record, a driver
call, leaving the process, and a change of {lit}`requested_logoff`.  A fact that
each step preserves holds of the whole pass.

Main results:

- Theorem {lit}`doAction_steps`: a pass is a sequence of steps.
- Theorem {lit}`PassSteps.invariant`: the invariant rule of a pass.
- Theorem {lit}`doAction_first`: after a pass the first-call statements are done.
- Theorem {lit}`doAction_replay`: the bits that only drivers write end a pass as the
  last driver call inside it left them.
-/

namespace Apcupsd

open BitFlags Apcupsd.Core

/-! ## Steps -/

/-- The bits that the statements of the core write. -/
def ownBits : StatusWord :=
  coreBits ||| upsFastpoll ||| upsReplacebatt

/-- The driver calls that a pass can make. -/
def PassEnv.driverCalls (env : PassEnv) : List (List DriverUpdate) :=
  [env.checkSelftest, env.dtrEnable, env.getSelftestMsg, env.dtrStDisable,
    env.readVolatileData, env.killPower]

/-- A change of the record by a statement of the core. -/
def OwnChange (change : UpsInfo → UpsInfo) : Prop :=
  ∀ ups, (change ups).status &&& ~~~ownBits = ups.status &&& ~~~ownBits ∧
    (change ups).upsCap = ups.upsCap

/-- One step of a pass. -/
inductive PassStep (env : PassEnv) : Core → Core → Prop where
  | emit (core : Core) {effect : Effect} (heffect : ∀ status, effect ≠ .driverWrite status) :
      PassStep env core (core.emit effect)
  | change (core : Core) {change : UpsInfo → UpsInfo} (hchange : OwnChange change) :
      PassStep env core (core.mapUps change)
  | driver (core : Core) {updates : List DriverUpdate}
      (hupdates : updates ∈ env.driverCalls) :
      PassStep env core (core.driverCall updates)
  | exit (core : Core) : PassStep env core { core with exited := true }
  | logoff (core : Core) (requested : Bool) :
      PassStep env core { core with requestedLogoff := requested }

/-- A sequence of steps. -/
abbrev PassSteps (env : PassEnv) : Core → Core → Prop :=
  Relation.ReflTransGen (PassStep env)

namespace PassSteps

variable {env : PassEnv} {before core : Core}

theorem emit (hsteps : PassSteps env before core) {effect : Effect}
    (heffect : ∀ status, effect ≠ .driverWrite status) :
    PassSteps env before (core.emit effect) :=
  hsteps.tail (.emit core heffect)

theorem change (hsteps : PassSteps env before core) {change : UpsInfo → UpsInfo}
    (hchange : OwnChange change) : PassSteps env before (core.mapUps change) :=
  hsteps.tail (.change core hchange)

theorem driver (hsteps : PassSteps env before core) {updates : List DriverUpdate}
    (hupdates : updates ∈ env.driverCalls) :
    PassSteps env before (core.driverCall updates) :=
  hsteps.tail (.driver core hupdates)

theorem logEvent (hsteps : PassSteps env before core) {level : LogLevel} {msg : String} :
    PassSteps env before (logEvent core level msg) :=
  hsteps.emit (by simp)

theorem logoff (hsteps : PassSteps env before core) {requested : Bool} :
    PassSteps env before { core with requestedLogoff := requested } :=
  hsteps.tail (.logoff core requested)

theorem exit (hsteps : PassSteps env before core) :
    PassSteps env before { core with exited := true } :=
  hsteps.tail (.exit core)

end PassSteps

/-! ## Changes of the core's own part -/

namespace OwnChange

theorem ofStatus {change : UpsInfo → UpsInfo}
    (hstatus : ∀ ups, (change ups).status = ups.status ∧ (change ups).upsCap = ups.upsCap) :
    OwnChange change := by
  intro ups
  rw [(hstatus ups).1]
  exact ⟨rfl, (hstatus ups).2⟩

theorem set {mask : StatusWord} (hmask : mask &&& ~~~ownBits = 0) :
    OwnChange fun ups => ups.set mask :=
  fun ups => ⟨raiseMask_and_of_disjoint hmask ups.status, rfl⟩

theorem clear {mask : StatusWord} (hmask : mask &&& ~~~ownBits = 0) :
    OwnChange fun ups => ups.clear mask :=
  fun ups => ⟨dropMask_and_of_disjoint hmask ups.status, rfl⟩

end OwnChange

/-! ## Every write is a sequence of steps -/

section Writes

variable {env : PassEnv} {branch : PassBranch} {cancels : Bool} {before core : Core}

/-- The record after a write of the core is that of a change. -/
theorem OwnWrite.ownChange {ups after : UpsInfo} (hwrite : OwnWrite branch cancels ups after) :
    ∃ change, OwnChange change ∧ after = change ups := by
  cases hwrite with
  | fields fields children _ =>
      exact ⟨fun ups => { ups with toCoreFields := fields, numExecedChildren := children },
        .ofStatus fun _ => ⟨rfl, rfl⟩, rfl⟩
  | raise hmask => exact ⟨_, .set (and_eq_zero_of_inside (by decide) hmask), rfl⟩
  | drop hmask => exact ⟨_, .clear (and_eq_zero_of_inside (by decide) hmask), rfl⟩
  | shutdown _ => exact ⟨UpsInfo.setShutdown, .set (by decide), rfl⟩
  | fastpoll _ => exact ⟨UpsInfo.setFastpoll, .set (by decide), rfl⟩
  | slowpoll _ => exact ⟨UpsInfo.clearFastpoll, .clear (by decide), rfl⟩
  | selfTest _ => exact ⟨UpsInfo.dropSelfTest, .ofStatus fun _ => ⟨rfl, rfl⟩, rfl⟩

theorem prohibitLogins_steps (hsteps : PassSteps env before core) :
    PassSteps env before (prohibitLogins core) := by
  have hforbidden : PassSteps env before (logonfail core false) := hsteps.emit (by simp)
  unfold prohibitLogins
  split
  · exact hsteps
  · refine PassSteps.logEvent (PassSteps.change hforbidden ?_)
    exact .ofStatus fun _ => ⟨rfl, rfl⟩

theorem driverCalls_of_branchCalls {updates : List DriverUpdate}
    (hupdates : updates ∈ env.branchCalls branch) : updates ∈ env.driverCalls := by
  cases branch <;> simp [PassEnv.branchCalls, PassEnv.driverCalls] at hupdates ⊢ <;> tauto

theorem PassWrite.steps (hsteps : PassSteps env before core) {after : Core}
    (hwrite : PassWrite env branch cancels core after) : PassSteps env before after := by
  cases hwrite with
  | emit heffect =>
      refine hsteps.emit fun status hstatus => ?_
      rw [hstatus] at heffect
      exact Bool.false_ne_true heffect
  | own hwrite =>
      rcases hwrite.ownChange with ⟨change, hchange, rfl⟩
      exact hsteps.change hchange
  | unlock time =>
      have hstamped : PassSteps env before
          (core.mapUps fun ups => { ups with shutDown := time }) :=
        hsteps.change (.ofStatus fun _ => ⟨rfl, rfl⟩)
      have hmarked := PassSteps.change hstamped (OwnChange.set (show upsShutdown &&& ~~~ownBits = 0 by decide))
      exact (hmarked.emit (by simp)).change (.set (by decide))
  | prohibit => exact prohibitLogins_steps hsteps
  | powerfail => exact prohibitLogins_steps (hsteps.emit (by simp))
  | driver hupdates => exact hsteps.driver (driverCalls_of_branchCalls hupdates)
  | exit => exact hsteps.exit
  | logoff requested => exact hsteps.logoff

theorem PassWrites.steps (hwrites : PassWrites env branch cancels before core) :
    PassSteps env before core :=
  hwrites.invariant (P := PassSteps env before) (fun hwrite hsteps => hwrite.steps hsteps) .refl

end Writes

/-- After the first-call statements a pass is a sequence of steps. -/
theorem doAction_steps (env : PassEnv) (core : Core) :
    PassSteps env (firstCall env core) (doAction env core) :=
  (doAction_writes env core).steps

/-- The invariant rule of a pass: what the core's own changes and every driver update
preserve holds at the end of it. -/
theorem PassSteps.invariant {env : PassEnv} {P : UpsInfo → Prop}
    (hown : ∀ change, OwnChange change → ∀ ups, P ups → P (change ups))
    (hdriver : ∀ updates ∈ env.driverCalls, ∀ update ∈ updates, ∀ ups, P ups →
      P (update.apply ups))
    {before after : Core} (hsteps : PassSteps env before after) (hbefore : P before.ups) :
    P after.ups := by
  induction hsteps with
  | refl => exact hbefore
  | tail _ hstep ih =>
      cases hstep with
      | change hchange => exact hown _ hchange _ ih
      | driver hupdates =>
          rw [driverCall_ups]
          exact applyUpdates_invariant (hdriver _ hupdates) ih
      | emit _ => exact ih
      | exit => exact ih
      | logoff => exact ih

/-! ## The statics -/

theorem driverCall_first (core : Core) (updates : List DriverUpdate) :
    (core.driverCall updates).first = core.first := by
  induction updates generalizing core with
  | nil => rfl
  | cons update updates ih => exact ih _

theorem PassStep.first_eq {env : PassEnv} {before after : Core}
    (hstep : PassStep env before after) : after.first = before.first := by
  cases hstep with
  | driver _ => exact driverCall_first before _
  | _ => rfl

theorem PassSteps.first_eq {env : PassEnv} {before after : Core}
    (hsteps : PassSteps env before after) : after.first = before.first := by
  induction hsteps with
  | refl => rfl
  | tail _ hstep ih => exact hstep.first_eq.trans ih

/-- After a pass the first-call statements are done. -/
theorem doAction_first (env : PassEnv) (core : Core) :
    (doAction env core).first = false := by
  refine (doAction_steps env core).first_eq.trans ?_
  unfold firstCall
  split
  · rfl
  · rename_i hfirst
    exact Bool.eq_false_iff.mpr hfirst

/-! ## The bits that only drivers write -/

/-- A bit of the status word after the driver calls that a log records. -/
def replay (mask : StatusWord) (start : Bool) (log : List Effect) : Bool :=
  log.foldl
    (fun bit effect =>
      match effect with
      | .driverWrite status => testMask status mask
      | _ => bit)
    start

theorem replay_append (mask : StatusWord) (start : Bool) (left right : List Effect) :
    replay mask start (left ++ right) = replay mask (replay mask start left) right :=
  List.foldl_append

/-- The log of the second state extends that of the first, and records what
happened in between to every bit that the core does not write. -/
def Traced (before after : Core) : Prop :=
  ∃ log, after.log = before.log ++ log ∧
    ∀ mask : StatusWord, mask &&& ~~~ownBits = mask →
      after.ups.test mask = replay mask (before.ups.test mask) log

namespace Traced

theorem refl (core : Core) : Traced core core :=
  ⟨[], (List.append_nil _).symm, fun _ _ => rfl⟩

theorem trans {first second third : Core} (hleft : Traced first second)
    (hright : Traced second third) : Traced first third := by
  rcases hleft with ⟨left, hleftLog, hleftTest⟩
  rcases hright with ⟨right, hrightLog, hrightTest⟩
  refine ⟨left ++ right, ?_, ?_⟩
  · rw [hrightLog, hleftLog, List.append_assoc]
  · intro mask hmask
    rw [hrightTest mask hmask, hleftTest mask hmask, replay_append]

/-- A state with the same log whose status differs in the core's bits only. -/
theorem ofOwn {before after : Core} (hlog : after.log = before.log)
    (hstatus : after.ups.status &&& ~~~ownBits = before.ups.status &&& ~~~ownBits) :
    Traced before after := by
  refine ⟨[], by rw [hlog, List.append_nil], ?_⟩
  intro mask hmask
  exact testMask_eq_of_and_eq hmask hstatus

theorem driverCall (core : Core) (updates : List DriverUpdate) :
    Traced core (core.driverCall updates) := by
  induction updates generalizing core with
  | nil => exact refl core
  | cons update updates ih =>
      refine trans ⟨[.driverWrite (update.apply core.ups).status], rfl, ?_⟩ (ih _)
      exact fun _ _ => rfl

end Traced

theorem PassStep.traced {env : PassEnv} {before after : Core}
    (hstep : PassStep env before after) : Traced before after := by
  cases hstep with
  | emit heffect =>
      rename_i effect
      refine ⟨[effect], rfl, ?_⟩
      intro mask _
      cases effect with
      | driverWrite status => exact absurd rfl (heffect status)
      | _ => rfl
  | change hchange => exact Traced.ofOwn rfl (hchange before.ups).1
  | driver _ => exact Traced.driverCall before _
  | exit => exact Traced.ofOwn rfl rfl
  | logoff => exact Traced.ofOwn rfl rfl

theorem PassSteps.traced {env : PassEnv} {before after : Core}
    (hsteps : PassSteps env before after) : Traced before after := by
  induction hsteps with
  | refl => exact Traced.refl before
  | tail _ hstep ih => exact ih.trans hstep.traced

/-- The bits that only drivers write end a pass as the driver calls in its log left
them. -/
theorem doAction_replay (env : PassEnv) {core : Core} (hlog : core.log = [])
    {mask : StatusWord} (hmask : mask &&& ~~~ownBits = mask) :
    (doAction env core).ups.test mask =
      replay mask (core.ups.test mask) (doAction env core).log := by
  rcases (doAction_steps env core).traced with ⟨log, hafter, htest⟩
  have hfirst : (firstCall env core).log = [] ∧
      (firstCall env core).ups.test mask = core.ups.test mask := by
    unfold firstCall
    split
    · exact ⟨hlog, rfl⟩
    · exact ⟨hlog, rfl⟩
  rw [hfirst.1, List.nil_append] at hafter
  rw [hafter, htest mask hmask, hfirst.2]

/-- Without driver calls a pass records no driver write. -/
theorem PassSteps.not_driverWrite {env : PassEnv}
    (hquiet : ∀ updates ∈ env.driverCalls, updates = []) {before after : Core}
    (hsteps : PassSteps env before after) {status : StatusWord}
    (hbefore : Effect.driverWrite status ∉ before.log) :
    Effect.driverWrite status ∉ after.log := by
  induction hsteps with
  | refl => exact hbefore
  | tail _ hstep ih =>
      cases hstep with
      | emit heffect =>
          intro hmem
          rcases List.mem_append.mp hmem with hold | hnew
          · exact ih hold
          · exact heffect status (List.mem_singleton.mp hnew).symm
      | driver hupdates =>
          rw [hquiet _ hupdates]
          exact ih
      | change _ => exact ih
      | exit => exact ih
      | logoff => exact ih

theorem replay_of_forall {mask : StatusWord} {start : Bool} {log : List Effect}
    (hwrites : ∀ status, Effect.driverWrite status ∈ log → testMask status mask = start) :
    replay mask start log = start := by
  induction log with
  | nil => rfl
  | cons effect log ih =>
      have hrest := ih fun status hmem => hwrites status (List.mem_cons_of_mem _ hmem)
      cases effect with
      | driverWrite status =>
          change replay mask (testMask status mask) log = start
          rw [hwrites status List.mem_cons_self]
          exact hrest
      | _ => exact hrest

/-- A bit that is raised at the end was raised at the start or by a driver call. -/
theorem exists_of_replay {mask : StatusWord} {start : Bool} {log : List Effect}
    (hend : replay mask start log = true) :
    start = true ∨ ∃ status, Effect.driverWrite status ∈ log ∧ testMask status mask = true := by
  induction log generalizing start with
  | nil => exact Or.inl hend
  | cons effect log ih =>
      have hlift : (∃ status, Effect.driverWrite status ∈ log ∧ testMask status mask = true) →
          ∃ status, Effect.driverWrite status ∈ effect :: log ∧
            testMask status mask = true := by
        rintro ⟨status, hmem, htest⟩
        exact ⟨status, List.mem_cons_of_mem _ hmem, htest⟩
      cases effect with
      | driverWrite status =>
          rcases ih hend with hstatus | hlater
          · exact Or.inr ⟨status, List.mem_cons_self, hstatus⟩
          · exact Or.inr (hlift hlater)
      | _ =>
          rcases ih hend with hstart | hlater
          · exact Or.inl hstart
          · exact Or.inr (hlift hlater)

end Apcupsd
