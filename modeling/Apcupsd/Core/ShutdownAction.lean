import Apcupsd.Core.RunHistory

/-!
# The shutdown action

Six events bring a shutdown: five causes found on battery and the request of a remote.
{lit}`do_shutdown` raises a flag before it does anything else and does nothing once the flag
is raised, and the causes on battery are evaluated only while it is clear.

Main results:

- Theorem {lit}`CoreRun.shutdowns_spec`: the effects of a shutdown in the history of a run.
- Theorem {lit}`CoreRun.shutdown_once`: the action runs once, after the first of the six
  events, and after it none of the five causes is announced.
- Theorem {lit}`CoreRun.shutdown_without_script_abortedShutdown`: the abort of {lit}`initiate_hibernate` comes
  before the script.
-/

namespace Apcupsd

open BitFlags Apcupsd.Core

/-! ## The effects of a shutdown -/

/-- The causes that an outage brings. -/
def Command.isBatteryCause : Command → Bool
  | .cmdFailing | .cmdTimeout | .cmdLoadlimit | .cmdRunlimit | .cmdEmergency => true
  | _ => false

/-- The six events, and what {lit}`do_shutdown` does whenever it runs. -/
def Effect.ofShutdown : Effect → Bool
  | .executeCommand cmd => cmd.isShutdownCause || cmd == .cmdDoshutdown
  | .deleteLockfile | .makePwrfailFile => true
  | _ => false

theorem ofShutdown_arms : Arms Effect.ofShutdown := by
  intro effect hbackground
  cases effect with
  | executeCommand cmd => cases cmd <;> first | rfl | cases hbackground
  | deleteLockfile => cases hbackground
  | makePwrfailFile => cases hbackground
  | _ => rfl

/-- The flags that an arm writes before it announces a shutdown cause. -/
def causeBits : StatusWord :=
  upsShutLoad ||| upsShutLtime ||| upsShutBtime ||| upsShutEmerg

/-- The core differs from an earlier one in the record only, and there not in the bits that
are not {lit}`causeBits`. -/
structure CauseFrame (before after : Core) : Prop where
  kill : after.killOnPowerfail = before.killOnPowerfail
  exited : after.exited = before.exited
  bits : after.ups.status &&& ~~~causeBits = before.ups.status &&& ~~~causeBits

namespace CauseFrame

theorem refl (core : Core) : CauseFrame core core :=
  ⟨rfl, rfl, rfl⟩

theorem trans {first second third : Core} (hleft : CauseFrame first second)
    (hright : CauseFrame second third) : CauseFrame first third :=
  ⟨hright.kill.trans hleft.kill, hright.exited.trans hleft.exited,
    hright.bits.trans hleft.bits⟩

theorem test_eq {before after : Core} (hframe : CauseFrame before after) {mask : StatusWord}
    (hmask : mask &&& ~~~causeBits = mask) : after.ups.test mask = before.ups.test mask :=
  testMask_eq_of_and_eq hmask hframe.bits

theorem ofSet (core : Core) {mask : StatusWord} (hmask : mask &&& ~~~causeBits = 0) :
    CauseFrame core (core.mapUps fun ups => ups.set mask) :=
  ⟨rfl, rfl, raiseMask_and_of_disjoint hmask core.ups.status⟩

theorem limitTimers (env : PassEnv) (core : Core) :
    CauseFrame core (core.mapUps (stateUpdate env .evaluate)) := by
  have hload : ∀ ups : UpsInfo,
      (loadLimitTimer env ups).status &&& ~~~causeBits = ups.status &&& ~~~causeBits := by
    intro ups
    unfold loadLimitTimer
    split_ifs
    · rfl
    · exact raiseMask_and_of_disjoint (by decide) ups.status
    · exact dropMask_and_of_disjoint (by decide) ups.status
  have hruntime : ∀ ups : UpsInfo,
      (runtimeLimitTimer env ups).status &&& ~~~causeBits = ups.status &&& ~~~causeBits := by
    intro ups
    unfold runtimeLimitTimer
    split_ifs
    · rfl
    · exact raiseMask_and_of_disjoint (by decide) ups.status
    · exact dropMask_and_of_disjoint (by decide) ups.status
  exact ⟨rfl, rfl, (hruntime _).trans (hload _)⟩

/-- Announcing the event writes no flag. -/
theorem announceEvent (env : PassEnv) (core : Core) (event : Command) :
    CauseFrame core (announceEvent env core event) := by
  unfold Apcupsd.announceEvent executeCommand
  dsimp only
  split
  · exact ⟨rfl, rfl, rfl⟩
  · exact ⟨rfl, rfl, rfl⟩

end CauseFrame

/-- What an arm that announces a shutdown cause has found. -/
theorem armCause_spec {env : PassEnv} {branch : PassBranch} {core announced : Core}
    {cmd : Command} (hcause : armCause env branch core = some (announced, cmd)) :
    cmd.isShutdownCause = true ∧ CauseFrame core announced ∧
      (branch = .remote ∧ cmd = .cmdRemotedown ∨ branch = .timeout ∨ branch = .evaluate) := by
  unfold armCause at hcause
  cases branch with
  | remote =>
      dsimp only at hcause
      split at hcause
      · cases hcause
        exact ⟨rfl, .refl core, Or.inl ⟨rfl, rfl⟩⟩
      · cases hcause
  | timeout =>
      cases hcause
      exact ⟨rfl, .ofSet core (by decide), Or.inr (Or.inl rfl)⟩
  | evaluate =>
      have htimed := CauseFrame.limitTimers env core
      dsimp only at hcause
      split at hcause
      · rename_i expired hexpired
        cases hcause
        refine ⟨?_, htimed, Or.inr (Or.inr rfl)⟩
        rcases expiredCommand_cases hexpired with rfl | rfl | rfl <;> rfl
      · split at hcause
        · cases hcause
          exact ⟨rfl, htimed.trans (.ofSet _ (by decide)), Or.inr (Or.inr rfl)⟩
        · cases hcause
  | _ => cases hcause

/-- The effects of announcing a shutdown cause while no shutdown is under way. -/
theorem causeTrace_of_clear {env : PassEnv} {announced : Core} {cmd : Command}
    (hcause : cmd.isShutdownCause = true) (hclear : announced.ups.isShutdown = false) :
    causeTrace env (some (announced, cmd)) =
      [.executeCommand cmd, .deleteLockfile, .makePwrfailFile] ++
        (if (prepareShutdown env (announceEvent env announced cmd)).exited then []
        else [.executeCommand .cmdDoshutdown]) := by
  have hstill : (announceEvent env announced cmd).ups.isShutdown = false :=
    ((CauseFrame.announceEvent env announced cmd).test_eq (by decide)).trans hclear
  change eventTrace env announced cmd = _
  unfold eventTrace shutdownTrace
  rw [hcause, hstill]
  rfl

/-- While a shutdown is under way the event is all there is. -/
theorem causeTrace_of_shutdown {env : PassEnv} {announced : Core} {cmd : Command}
    (hshutdown : announced.ups.isShutdown = true) :
    causeTrace env (some (announced, cmd)) = [.executeCommand cmd] := by
  have hstill : (announceEvent env announced cmd).ups.isShutdown = true :=
    ((CauseFrame.announceEvent env announced cmd).test_eq (by decide)).trans hshutdown
  change eventTrace env announced cmd = _
  unfold eventTrace shutdownTrace
  rw [hstill]
  split <;> rfl

theorem initiateHibernate_exited {env : PassEnv} {core : Core}
    (hpresent : env.pwrfailMissing = false) :
    (initiateHibernate env core).exited = core.exited := by
  have hpolled : (pollDumbUps env core).exited = core.exited := by
    unfold pollDumbUps
    split
    · exact driverCall_exited _ _
    · rfl
  rw [← hpolled]
  unfold initiateHibernate
  generalize pollDumbUps env core = polled
  have hwaited : (if polled.ups.upsclassType = .sharemaster then
      logEvent polled .logWarning "Waiting 30 seconds for slave(s) to shutdown."
    else polled).exited = polled.exited := by
    split <;> rfl
  dsimp only
  generalize (if polled.ups.upsclassType = .sharemaster then _ else polled) = waited
    at hwaited ⊢
  rw [hpresent, if_neg (by simp)]
  split
  · exact hwaited
  · exact (driverCall_exited _ _).trans hwaited

/-- The shutdown leaves the process before its script if it is to hibernate the UPS and
does not find the powerfail file. -/
theorem prepareShutdown_exited {env : PassEnv} {core : Core} (hrunning : core.exited = false)
    (hexited : (prepareShutdown env core).exited = true) :
    core.killOnPowerfail = true ∧ core.ups.isSlave = false ∧ env.pwrfailMissing = true := by
  let marked := core.mapUps fun ups =>
    { ups with shutDown := env.shutdownTime }.setShutdown
  let unlocked := (marked.emit .deleteLockfile).mapUps UpsInfo.setFastpoll
  let prohibited := prohibitLogins (unlocked.emit .makePwrfailFile)
  have hslave : unlocked.ups.isSlave = core.ups.isSlave :=
    (UpsInfo.test_set_of_disjoint (by decide) _).trans (UpsInfo.test_set_of_disjoint (by decide) _)
  have hprohibited : prohibited.exited = core.exited ∧
      prohibited.killOnPowerfail = core.killOnPowerfail ∧
      prohibited.ups.isSlave = core.ups.isSlave := by
    unfold prohibited prohibitLogins
    split
    · exact ⟨rfl, rfl, hslave⟩
    · exact ⟨rfl, rfl, hslave⟩
  have hprepared : prepareShutdown env core =
      if !prohibited.ups.isSlave && prohibited.killOnPowerfail then
        initiateHibernate env prohibited
      else prohibited := rfl
  rw [hprepared] at hexited
  split at hexited
  · rename_i hkill
    rw [Bool.and_eq_true, Bool.not_eq_true', hprohibited.2.1, hprohibited.2.2] at hkill
    refine ⟨hkill.2, hkill.1, ?_⟩
    by_contra hpresent
    rw [initiateHibernate_exited (Bool.eq_false_iff.mpr hpresent), hprohibited.1,
      hrunning] at hexited
    cases hexited
  · rw [hprohibited.1, hrunning] at hexited
    cases hexited

/-- Of the effects of an arm those of a shutdown are those of its cause. -/
theorem armTrace_ofShutdown (env : PassEnv) (branch : PassBranch) (core : Core) :
    (armTrace env branch core).filter Effect.ofShutdown =
      causeTrace env (armCause env branch core) := by
  have houtage : ((outageCommands env branch core.ups).map Effect.executeCommand).filter
      Effect.ofShutdown = [] := by
    refine List.filter_eq_nil_iff.mpr fun effect heffect => ?_
    rcases List.mem_map.mp heffect with ⟨cmd, hcmd, rfl⟩
    cases branch with
    | powerFailure =>
        obtain rfl := List.mem_singleton.mp hcmd
        unfold failureEvent
        split <;> decide
    | announce =>
        obtain rfl := List.mem_singleton.mp hcmd
        decide
    | mainsBack =>
        unfold outageCommands returnEvents at hcmd
        split_ifs at hcmd <;> simp at hcmd
        all_goals rcases hcmd with rfl | rfl
        all_goals decide
    | _ => cases hcmd
  rw [armTrace_eq, List.filter_append, houtage, List.nil_append]
  refine List.filter_eq_self.mpr fun effect heffect => ?_
  cases hcause : armCause env branch core with
  | none =>
      rw [hcause] at heffect
      cases heffect
  | some found =>
      rcases found with ⟨announced, cmd⟩
      rw [hcause] at heffect
      have hspec := (armCause_spec hcause).1
      change effect ∈ eventTrace env announced cmd at heffect
      unfold eventTrace shutdownTrace at heffect
      rw [hspec] at heffect
      split_ifs at heffect <;> simp at heffect
      all_goals rcases heffect with rfl | rfl | rfl | rfl
      all_goals first | rfl | simp [Effect.ofShutdown, hspec]

/-! ## The flag of a shutdown -/

/-- The bits of {lit}`mask` are raised since the start or by a shutdown in the log. -/
def FlagFits (mask : StatusWord) (start : Bool) (core : Core) : Prop :=
  core.ups.test mask = true ↔
    start = true ∨ Effect.deleteLockfile ∈ core.trace Effect.ofShutdown

/-- A flag that the shutdown raises fits the log as long as no other statement and no driver
call of the branch writes it. -/
theorem PassWrite.flagFits {env : PassEnv} {branch : PassBranch} {cancels : Bool}
    {mask : StatusWord}
    (hown : ∀ {ups after}, OwnWrite branch cancels ups after → after.test mask = ups.test mask)
    (hcalls : ∀ updates ∈ env.branchCalls branch, ∀ ups,
      (applyUpdates updates ups).test mask = ups.test mask)
    (hraised : ∀ ups : UpsInfo, ups.setShutdown.setFastpoll.test mask = true)
    {start : Bool} {before after : Core} (hwrite : PassWrite env branch cancels before after)
    (hfits : FlagFits mask start before) : FlagFits mask start after := by
  have hprohibit : ∀ core : Core, (prohibitLogins core).ups.test mask = core.ups.test mask := by
    intro core
    unfold prohibitLogins
    split <;> rfl
  unfold FlagFits at hfits ⊢
  cases hwrite with
  | emit heffect =>
      rename_i effect
      have hne : Effect.deleteLockfile ∉ [effect].filter Effect.ofShutdown := by
        intro hmem
        rw [← List.mem_singleton.mp (List.mem_of_mem_filter hmem)] at heffect
        cases heffect
      rw [trace_emit, List.mem_append, or_iff_left hne]
      exact hfits
  | own hwritten => exact (Bool.eq_iff_iff.mp (hown hwritten)).trans hfits
  | unlock time =>
      rw [trace_mapUps, trace_emit]
      exact iff_of_true (hraised _) (Or.inr (List.mem_append_right _ List.mem_cons_self))
  | prohibit =>
      rw [trace_prohibitLogins ofShutdown_arms, hprohibit]
      exact hfits
  | powerfail =>
      rw [trace_prohibitLogins ofShutdown_arms, hprohibit, trace_emit]
      simpa [Effect.ofShutdown] using hfits
  | driver hupdates =>
      rw [trace_driverCall ofShutdown_arms, driverCall_ups, hcalls _ hupdates]
      exact hfits
  | exit => exact hfits
  | logoff => exact hfits

/-- Outside the arm of a running shutdown only {lit}`do_shutdown` raises the flag. -/
theorem OwnWrite.isShutdown_eq {branch : PassBranch} {cancels : Bool}
    (hbranch : branch ≠ .shutdownRunning) {ups after : UpsInfo}
    (hwrite : OwnWrite branch cancels ups after) : after.isShutdown = ups.isShutdown := by
  cases hwrite with
  | raise hmask => exact UpsInfo.test_set_of_disjoint (and_eq_zero_of_inside (by decide) hmask) _
  | drop hmask => exact UpsInfo.test_clear_of_disjoint (and_eq_zero_of_inside (by decide) hmask) _
  | shutdown hguard => exact absurd hguard hbranch
  | fastpoll => exact UpsInfo.test_set_of_disjoint (by decide) _
  | slowpoll => exact UpsInfo.test_clear_of_disjoint (by decide) _
  | fields => rfl
  | selfTest => rfl

theorem flagFits_firstCall (env : PassEnv) (mask : StatusWord) {core : Core}
    (hlog : core.log = []) : FlagFits mask (core.ups.test mask) (firstCall env core) := by
  unfold FlagFits Core.trace firstCall
  split <;> simp [hlog, UpsInfo.test]

/-- A pass raises the flag by a shutdown of its own, and never drops it. -/
theorem doAction_isShutdown_iff (env : PassEnv) {core : Core} (hlog : core.log = []) :
    (doAction env core).ups.isShutdown = true ↔
      core.ups.isShutdown = true ∨
        Effect.deleteLockfile ∈ (doAction env core).trace Effect.ofShutdown := by
  have hfirst := flagFits_firstCall env upsShutdown hlog
  by_cases hbranch : passBranch env (passHead env core).ups = .shutdownRunning
  · have harm : batteryBranch env (passHead env core).ups = .shutdownRunning :=
      (batteryBranch_of_passBranch (by rw [hbranch]; rfl)).trans hbranch
    have hhead := batteryBranch_tests.2.1 harm
    have hstart : (passHead env core).ups.isShutdown = core.ups.isShutdown := by
      refine ((passHead_frames env core).2.test_eq (by decide)).trans ?_
      unfold firstCall
      split <;> rfl
    exact iff_of_true (doAction_keeps_isShutdown env core hhead) (Or.inl (hstart.symm.trans hhead))
  · refine (doAction_writes env core).invariant (P := FlagFits upsShutdown core.ups.isShutdown)
      (fun hwrite => hwrite.flagFits (OwnWrite.isShutdown_eq hbranch) ?_ ?_) hfirst
    · exact fun updates _ ups => (applyUpdates_frame updates ups).isShutdown
    · exact fun ups =>
        (UpsInfo.test_set_of_disjoint (by decide) _).trans (UpsInfo.test_set_self ups upsShutdown)

/-- The command-line option is the same throughout a pass. -/
theorem PassWrite.killOnPowerfail_eq {env : PassEnv} {branch : PassBranch} {cancels : Bool}
    {before after : Core} (hwrite : PassWrite env branch cancels before after) :
    after.killOnPowerfail = before.killOnPowerfail := by
  have hprohibit : ∀ core : Core, (prohibitLogins core).killOnPowerfail = core.killOnPowerfail := by
    intro core
    unfold prohibitLogins
    split <;> rfl
  have hcall : ∀ (updates : List DriverUpdate) (core : Core),
      (core.driverCall updates).killOnPowerfail = core.killOnPowerfail := by
    intro updates
    induction updates with
    | nil => exact fun core => rfl
    | cons update updates ih => exact fun core => ih _
  cases hwrite with
  | prohibit => exact hprohibit before
  | powerfail => exact hprohibit _
  | driver => exact hcall _ before
  | _ => rfl

/-- The arm finds the option as the pass does, in a process that has not exited. -/
theorem armCore_frame (env : PassEnv) (core : Core) :
    (armCore env (passHead env core)).killOnPowerfail = core.killOnPowerfail ∧
      (armCore env (passHead env core)).exited = core.exited := by
  have hfirst : (firstCall env core).killOnPowerfail = core.killOnPowerfail := by
    unfold firstCall
    split <;> rfl
  have hhead : PassWrites env .onMains false (firstCall env core) (passHead env core) :=
    replaceBattery_writes .refl
  have hwritten : ∀ {after : Core}, PassWrites env .onMains false (firstCall env core) after →
      after.killOnPowerfail = core.killOnPowerfail := fun hwrites =>
    hwrites.invariant (P := fun after => after.killOnPowerfail = core.killOnPowerfail)
      (fun hwrite hbefore => hwrite.killOnPowerfail_eq.trans hbefore) hfirst
  have hexited := passHead_exited env core
  unfold armCore
  split
  · exact ⟨hwritten hhead, hexited⟩
  · have hready := hwritten (batteryEdges_writes hhead)
    rw [← batteryEdges_exited env (passHead env core)] at hexited
    unfold cancelSelfTest
    split
    · exact ⟨hready, hexited⟩
    · exact ⟨hready, hexited⟩

/-! ## The ban on logins -/

theorem driverCall_log (core : Core) (updates : List DriverUpdate) :
    ∃ statuses : List StatusWord,
      (core.driverCall updates).log = core.log ++ statuses.map .driverWrite := by
  induction updates generalizing core with
  | nil => exact ⟨[], (List.append_nil _).symm⟩
  | cons update updates ih =>
      rcases ih { core with
        ups := update.apply core.ups
        log := core.log ++ [.driverWrite (update.apply core.ups).status] } with ⟨statuses, hlog⟩
      refine ⟨(update.apply core.ups).status :: statuses, hlog.trans ?_⟩
      simp

/-- If the nologin file or the powerfail file has been made, logins have been prohibited at
some time. -/
def LoginsFit (earlier : List Effect) (core : Core) : Prop :=
  core.ups.nologinFile = true ∨ Effect.makePwrfailFile ∈ earlier ++ core.log →
    Effect.logonfail false ∈ earlier ++ core.log

theorem log_emit (core : Core) (effect : Effect) :
    (core.emit effect).log = core.log ++ [effect] :=
  rfl

theorem prohibitLogins_logonfail {earlier : List Effect} {core : Core}
    (hmade : core.ups.nologinFile = true → Effect.logonfail false ∈ earlier ++ core.log) :
    Effect.logonfail false ∈ earlier ++ (prohibitLogins core).log := by
  unfold prohibitLogins
  split
  · rename_i hfile
    exact hmade hfile
  · simp [logEvent, logonfail, emit, mapUps]

theorem PassWrite.loginsFit {env : PassEnv} {branch : PassBranch} {cancels : Bool}
    {earlier : List Effect} {before after : Core}
    (hwrite : PassWrite env branch cancels before after) (hfits : LoginsFit earlier before) :
    LoginsFit earlier after := by
  unfold LoginsFit at hfits ⊢
  cases hwrite with
  | emit heffect =>
      rename_i effect
      have hne : effect ≠ .makePwrfailFile := by
        rintro rfl
        cases heffect
      intro hmade
      rw [log_emit, ← List.append_assoc] at hmade ⊢
      have hold := hmade.imp_right fun hmem =>
        (List.mem_append.mp hmem).resolve_right (by simp [hne.symm])
      exact List.mem_append_left _ (hfits hold)
  | own hown =>
      cases hown with
      | fields fields children hlogins => exact fun hmade => hfits (hmade.imp_left hlogins)
      | _ => exact hfits
  | unlock time =>
      intro hmade
      have hlog : ((before.mapUps fun ups => { ups with shutDown := time }.setShutdown).emit
          .deleteLockfile).log = before.log ++ [.deleteLockfile] := rfl
      change _ ∨ Effect.makePwrfailFile ∈ earlier ++ (Core.emit _ _).log at hmade
      change _ ∈ earlier ++ (Core.emit _ _).log
      rw [hlog, ← List.append_assoc] at hmade ⊢
      have hold := hmade.imp_right fun hmem =>
        (List.mem_append.mp hmem).resolve_right (by simp)
      exact List.mem_append_left _ (hfits hold)
  | prohibit => exact fun _ => prohibitLogins_logonfail fun hfile => hfits (Or.inl hfile)
  | powerfail =>
      refine fun _ => prohibitLogins_logonfail fun hfile => ?_
      rw [log_emit, ← List.append_assoc]
      exact List.mem_append_left _ (hfits (Or.inl hfile))
  | driver _ =>
      rename_i updates _
      rcases driverCall_log before updates with ⟨statuses, hlog⟩
      have hcore : (before.driverCall updates).ups.nologinFile = before.ups.nologinFile := by
        rw [driverCall_ups]
        exact congrArg CoreFields.nologinFile (applyUpdates_frame updates before.ups).core
      intro hmade
      rw [hcore, hlog, ← List.append_assoc] at hmade
      have hold := hmade.imp_right fun hmem => (List.mem_append.mp hmem).resolve_right (by simp)
      rw [hlog, ← List.append_assoc]
      exact List.mem_append_left _ (hfits hold)
  | exit => exact hfits
  | logoff => exact hfits

/-! ## Runs -/

/-- The effects of one shutdown, and of the requests of a remote after it. -/
def OneShutdown (aborted : Prop) (effects : List Effect) : Prop :=
  ∃ cause script repeats,
    effects = [.executeCommand cause, .deleteLockfile, .makePwrfailFile] ++ script ++ repeats ∧
    cause.isShutdownCause = true ∧
    (script = [.executeCommand .cmdDoshutdown] ∨ script = [] ∧ aborted) ∧
    ∀ effect ∈ repeats, effect = .executeCommand .cmdRemotedown

namespace OneShutdown

variable {aborted : Prop} {effects : List Effect}

theorem count_le (hone : OneShutdown aborted effects) :
    effects.count .deleteLockfile ≤ 1 ∧ effects.count .makePwrfailFile ≤ 1 ∧
      effects.count (.executeCommand .cmdDoshutdown) ≤ 1 := by
  rcases hone with ⟨cause, script, repeats, rfl, hevent, hscript, hrepeats⟩
  have hnone : ∀ effect : Effect, effect ≠ .executeCommand .cmdRemotedown →
      repeats.count effect = 0 := by
    intro effect hne
    exact List.count_eq_zero.mpr fun hmem => hne (hrepeats effect hmem)
  have hcause : Effect.executeCommand cause ≠ .executeCommand .cmdDoshutdown := by
    rintro heq
    cases heq
    cases hevent
  rcases hscript with rfl | ⟨rfl, _⟩ <;> simp [hnone, hcause]

theorem answered (hone : OneShutdown aborted effects) :
    Effect.deleteLockfile ∈ effects ∧ Effect.makePwrfailFile ∈ effects ∧
      (Effect.executeCommand .cmdDoshutdown ∈ effects ∨ aborted) := by
  rcases hone with ⟨cause, script, repeats, rfl, -, hscript, -⟩
  rcases hscript with rfl | ⟨rfl, habort⟩
  · simp
  · simp [habort]

/-- After the lock file has been deleted there is the rest of the action, and there are the
requests of the remote. -/
theorem final (hone : OneShutdown aborted effects) {before after : List Effect}
    (hsplit : effects = before ++ .deleteLockfile :: after) {cmd : Command}
    (hcause : cmd.isBatteryCause = true) : Effect.executeCommand cmd ∉ after := by
  rcases hone with ⟨cause, script, repeats, heffects, hevent, hscript, hrepeats⟩
  let rest := .makePwrfailFile :: (script ++ repeats)
  have hrest : ∀ effect ∈ rest, effect = .makePwrfailFile ∨
      effect = .executeCommand .cmdDoshutdown ∨ effect = .executeCommand .cmdRemotedown := by
    intro effect heffect
    rcases List.mem_cons.mp heffect with hmade | hlater
    · exact Or.inl hmade
    · rcases List.mem_append.mp hlater with hfirst | hrepeat
      · rcases hscript with rfl | ⟨rfl, _⟩
        · exact Or.inr (Or.inl (List.mem_singleton.mp hfirst))
        · cases hfirst
      · exact Or.inr (Or.inr (hrepeats effect hrepeat))
  have hdelete : Effect.deleteLockfile ∉ rest := fun hmem => by
    rcases hrest _ hmem with heq | heq | heq <;> cases heq
  have hafter : after = rest := by
    have hwhole : before ++ .deleteLockfile :: after =
        .executeCommand cause :: .deleteLockfile :: rest := by
      rw [← hsplit, heffects]
      simp [rest]
    rcases before with _ | ⟨first, _ | ⟨second, before⟩⟩
    · cases List.head_eq_of_cons_eq hwhole
    · exact List.tail_eq_of_cons_eq (List.tail_eq_of_cons_eq hwhole)
    · have htail := List.tail_eq_of_cons_eq (List.tail_eq_of_cons_eq hwhole)
      exact absurd (htail ▸ List.mem_append_right before List.mem_cons_self) hdelete
  intro hmem
  rw [hafter] at hmem
  rcases hrest _ hmem with heq | heq | heq
  · cases heq
  · cases heq
    cases hcause
  · cases heq
    cases hcause

end OneShutdown

namespace CoreRun

variable (run : CoreRun) {n : ℕ}

/-- The shutdown cause that pass {lit}`n` announces, with the core at that point. -/
def cause (n : ℕ) : Option (Core × Command) :=
  armCause (run.pass n).env (run.branch n) (run.armed n)

/-- Pass {lit}`n` begins the shutdown. -/
def shutsDown (n : ℕ) : Prop :=
  (run.core n).ups.isShutdown = false ∧ (run.cause n).isSome = true

/-- Pass {lit}`n` begins the shutdown, is to hibernate the UPS as well, and does not find the
powerfail file: {lit}`initiate_hibernate` aborts the process. -/
structure Aborts (n : ℕ) : Prop where
  begins : run.shutsDown n
  kill : (run.core n).killOnPowerfail = true
  master : (run.seen n).ups.isSlave = false
  missing : (run.pass n).env.pwrfailMissing = true

/-- The effects of shutdowns in the first {lit}`n` passes. -/
def shutdowns (n : ℕ) : List Effect :=
  (run.history n).filter Effect.ofShutdown

theorem trace_seen (n : ℕ) :
    (doAction (run.pass n).env (run.seen n)).trace Effect.ofShutdown =
      causeTrace (run.pass n).env (run.cause n) :=
  (doAction_trace ofShutdown_arms (run.pass n).env (run.seen n) rfl).trans
    (armTrace_ofShutdown (run.pass n).env (run.branch n) (run.armed n))

theorem shutdowns_succ (hruns : run.runs n) :
    run.shutdowns (n + 1) =
      run.shutdowns n ++ causeTrace (run.pass n).env (run.cause n) := by
  rw [← run.trace_seen, ← run.core_succ hruns]
  unfold shutdowns
  rw [history_succ, List.filter_append]
  rfl

theorem shutdowns_succ_of_exited (hexited : ¬ run.runs n) :
    run.shutdowns (n + 1) = run.shutdowns n := by
  unfold shutdowns
  rw [history_succ, run.step n, doPass, if_pos (Bool.eq_true_of_not_eq_false hexited),
    List.append_nil]

theorem armed_isShutdown (n : ℕ) :
    (run.armed n).ups.isShutdown = (run.core n).ups.isShutdown :=
  (congrArg (testMask · upsShutdown) (run.armed_ups n).1).trans (run.head_isShutdown n)

/-- The cause of a pass finds the flag as the pass before left it. -/
theorem cause_spec {announced : Core} {cmd : Command}
    (hcause : run.cause n = some (announced, cmd)) :
    cmd.isShutdownCause = true ∧ CauseFrame (run.armed n) announced ∧
      announced.ups.isShutdown = (run.core n).ups.isShutdown ∧
      ((run.core n).ups.isShutdown = true → cmd = .cmdRemotedown) := by
  rcases armCause_spec hcause with ⟨hevent, hframe, hbranch⟩
  refine ⟨hevent, hframe, (hframe.test_eq (by decide)).trans (run.armed_isShutdown n), ?_⟩
  intro hshutdown
  have hhead : (run.head n).isShutdown = true := (run.head_isShutdown n).trans hshutdown
  have hclear : ∀ branch, run.branch n = branch → branch = .timeout ∨ branch = .evaluate →
      (run.head n).isShutdown = false := by
    intro branch hbranch harm
    have hbattery : batteryBranch (run.pass n).env (run.head n) = branch :=
      (batteryBranch_of_passBranch (by
        rw [show passBranch _ _ = branch from hbranch]
        rcases harm with rfl | rfl <;> rfl)).trans hbranch
    rcases harm with rfl | rfl
    · exact (batteryBranch_tests.2.2.1 hbattery).1
    · exact batteryBranch_tests.2.2.2 hbattery
  rcases hbranch with ⟨_, hremote⟩ | htimeout | hevaluate
  · exact hremote
  · rw [hclear _ htimeout (Or.inl rfl)] at hhead
    cases hhead
  · rw [hclear _ hevaluate (Or.inr rfl)] at hhead
    cases hhead

/-- A pass that begins the shutdown runs {lit}`do_shutdown` to its script, unless it
aborts. -/
theorem causeTrace_of_shutsDown (hruns : run.runs n) (hbegins : run.shutsDown n) :
    ∃ cmd script, cmd.isShutdownCause = true ∧
      causeTrace (run.pass n).env (run.cause n) =
        [.executeCommand cmd, .deleteLockfile, .makePwrfailFile] ++ script ∧
      (script = [.executeCommand .cmdDoshutdown] ∨ script = [] ∧ run.Aborts n) := by
  rcases Option.isSome_iff_exists.mp hbegins.2 with ⟨⟨announced, cmd⟩, hcause⟩
  rcases run.cause_spec hcause with ⟨hevent, hframe, hflag, _⟩
  rw [hcause]
  refine ⟨cmd, _, hevent, causeTrace_of_clear hevent (hflag.trans hbegins.1), ?_⟩
  cases hexited : (prepareShutdown (run.pass n).env
      (announceEvent (run.pass n).env announced cmd)).exited with
  | false => exact Or.inl rfl
  | true =>
      have hwhole := hframe.trans (CauseFrame.announceEvent (run.pass n).env announced cmd)
      rcases armCore_frame (run.pass n).env (run.seen n) with ⟨hkill, hrunning⟩
      rcases prepareShutdown_exited (hwhole.exited.trans (hrunning.trans hruns)) hexited with
        ⟨hoption, hmaster, hmissing⟩
      refine Or.inr ⟨rfl, hbegins, ?_, ?_, hmissing⟩
      · exact (hwhole.kill.trans hkill).symm.trans hoption
      · have hslave : (run.armed n).ups.isSlave = (run.seen n).ups.isSlave :=
          (congrArg (testMask · upsSlave) (run.armed_ups n).1).trans (run.head_test (by decide) n)
        exact ((hwhole.test_eq (by decide)).trans hslave).symm.trans hmaster

/-- A pass deletes the lock file if it begins the shutdown. -/
theorem deleteLockfile_iff (hruns : run.runs n) :
    Effect.deleteLockfile ∈ causeTrace (run.pass n).env (run.cause n) ↔ run.shutsDown n := by
  constructor
  · intro hdeleted
    cases hcause : run.cause n with
    | none =>
        rw [hcause] at hdeleted
        cases hdeleted
    | some found =>
        rcases found with ⟨announced, cmd⟩
        refine ⟨?_, by rw [hcause]; rfl⟩
        rcases run.cause_spec hcause with ⟨_, _, hflag, _⟩
        by_contra hraised
        have hshutdown := hflag.trans (Bool.eq_true_of_not_eq_false hraised)
        rw [hcause, causeTrace_of_shutdown hshutdown] at hdeleted
        cases List.mem_singleton.mp hdeleted
  · intro hbegins
    rcases run.causeTrace_of_shutsDown hruns hbegins with ⟨cmd, script, _, heffects, _⟩
    rw [heffects]
    simp

/-- The flag after a pass of the run. -/
theorem isShutdown_succ_iff (hruns : run.runs n) :
    (run.core (n + 1)).ups.isShutdown = true ↔
      (run.core n).ups.isShutdown = true ∨ run.shutsDown n := by
  rw [run.core_succ hruns, doAction_isShutdown_iff _ rfl, run.trace_seen,
    run.deleteLockfile_iff hruns, run.seen_isShutdown]

/-- One pass keeps the history within one shutdown. -/
theorem shutdowns_step (hruns : run.runs n)
    (hspec : if (run.core n).ups.isShutdown then
        OneShutdown (∃ m < n, run.Aborts m) (run.shutdowns n)
      else run.shutdowns n = []) :
    if (run.core (n + 1)).ups.isShutdown then
      OneShutdown (∃ m < n + 1, run.Aborts m) (run.shutdowns (n + 1))
    else run.shutdowns (n + 1) = [] := by
  have hlater : (∃ m < n, run.Aborts m) → ∃ m < n + 1, run.Aborts m :=
    fun ⟨m, hm, haborts⟩ => ⟨m, Nat.lt_succ_of_lt hm, haborts⟩
  rw [run.shutdowns_succ hruns]
  cases hflag : (run.core n).ups.isShutdown with
  | true =>
      rw [hflag, if_pos rfl] at hspec
      rw [if_pos ((run.isShutdown_succ_iff hruns).mpr (Or.inl hflag))]
      rcases hspec with ⟨cause, script, repeats, heffects, hevent, hscript, hrepeats⟩
      have hafter : ∀ effect ∈ causeTrace (run.pass n).env (run.cause n),
          effect = .executeCommand .cmdRemotedown := by
        intro effect heffect
        cases hcause : run.cause n with
        | none =>
            rw [hcause] at heffect
            cases heffect
        | some found =>
            rcases found with ⟨announced, cmd⟩
            rcases run.cause_spec hcause with ⟨_, _, hstill, hremote⟩
            rw [hcause, causeTrace_of_shutdown (hstill.trans hflag), hremote hflag] at heffect
            exact List.mem_singleton.mp heffect
      refine ⟨cause, script, repeats ++ causeTrace (run.pass n).env (run.cause n), ?_, hevent,
        hscript.imp_right fun habort => ⟨habort.1, hlater habort.2⟩, ?_⟩
      · rw [heffects, List.append_assoc]
      · intro effect heffect
        exact (List.mem_append.mp heffect).elim (hrepeats effect) (hafter effect)
  | false =>
      rw [hflag, if_neg Bool.false_ne_true] at hspec
      rw [hspec, List.nil_append]
      by_cases hbegins : run.shutsDown n
      · rw [if_pos ((run.isShutdown_succ_iff hruns).mpr (Or.inr hbegins))]
        rcases run.causeTrace_of_shutsDown hruns hbegins with
          ⟨cmd, script, hevent, heffects, hscript⟩
        refine ⟨cmd, script, [], by rw [heffects, List.append_nil], hevent, ?_, by simp⟩
        exact hscript.imp_right fun habort => ⟨habort.1, n, Nat.lt_succ_self n, habort.2⟩
      · have hstill : ¬ (run.core (n + 1)).ups.isShutdown = true := by
          rw [run.isShutdown_succ_iff hruns, hflag]
          simp [hbegins]
        rw [if_neg hstill]
        cases hcause : run.cause n with
        | none => rfl
        | some found => exact absurd ⟨hflag, by rw [hcause]; rfl⟩ hbegins

/-- The history has the effects of one shutdown if the flag is raised, and none of a
shutdown otherwise. -/
theorem shutdowns_spec (n : ℕ) :
    if (run.core n).ups.isShutdown then
      OneShutdown (∃ m < n, run.Aborts m) (run.shutdowns n)
    else run.shutdowns n = [] := by
  induction n with
  | zero =>
      have hclear : (run.core 0).ups.isShutdown = false := run.test_zero (by decide) (by decide)
      rw [if_neg (by simp [hclear])]
      rfl
  | succ n ih =>
      by_cases hruns : run.runs n
      · exact run.shutdowns_step hruns ih
      · have hcore : (run.core (n + 1)).ups = (run.core n).ups := by
          rw [run.step n, doPass, if_pos (Bool.eq_true_of_not_eq_false hruns)]
        rw [run.shutdowns_succ_of_exited hruns, hcore]
        split
        · rename_i hflag
          rw [hflag, if_pos rfl] at ih
          rcases ih with ⟨cause, script, repeats, heffects, hevent, hscript, hrepeats⟩
          refine ⟨cause, script, repeats, heffects, hevent, ?_, hrepeats⟩
          exact hscript.imp_right fun habort =>
            ⟨habort.1, habort.2.imp fun m haborts => ⟨Nat.lt_succ_of_lt haborts.1, haborts.2⟩⟩
        · rename_i hflag
          rw [if_neg hflag] at ih
          exact ih

/-- Whenever the powerfail file has been made, logins have been prohibited. -/
theorem loginsFit_history (n : ℕ) :
    ((run.core n).ups.nologinFile = true ∨ Effect.makePwrfailFile ∈ run.history n) →
      Effect.logonfail false ∈ run.history n := by
  induction n with
  | zero =>
      have hclear : (run.core 0).ups.nologinFile = false :=
        congrArg CoreFields.nologinFile run.initial.fields
      simp [hclear, history]
  | succ n ih =>
      by_cases hruns : run.runs n
      · have hseen : (run.seen n).ups.nologinFile = (run.core n).ups.nologinFile :=
          congrArg CoreFields.nologinFile (run.seen_frame n).core
        have hfirst : LoginsFit (run.history n) (firstCall (run.pass n).env (run.seen n)) := by
          have hstart : (firstCall (run.pass n).env (run.seen n)).ups.nologinFile =
                (run.seen n).ups.nologinFile ∧
              (firstCall (run.pass n).env (run.seen n)).log = [] := by
            unfold firstCall
            split <;> exact ⟨rfl, rfl⟩
          unfold LoginsFit
          rw [hstart.1, hstart.2, hseen, List.append_nil]
          exact ih
        rw [history_succ, run.core_succ hruns]
        exact (doAction_writes _ _).invariant (fun hwrite => hwrite.loginsFit) hfirst
      · rw [history_succ, run.step n, doPass, if_pos (Bool.eq_true_of_not_eq_false hruns),
          List.append_nil]
        exact ih

/-- What holds of the shutdowns in the first {lit}`n` passes: the action runs at most once,
it has run if one of the six events has been generated, up to its script unless it has
aborted, and none of the five causes of an outage is announced after it. -/
structure ShutdownOnce (n : ℕ) : Prop where
  once : (run.history n).count .deleteLockfile ≤ 1 ∧
    (run.history n).count .makePwrfailFile ≤ 1 ∧
    (run.history n).count (.executeCommand .cmdDoshutdown) ≤ 1
  answered : ∀ cmd : Command, cmd.isShutdownCause = true →
    Effect.executeCommand cmd ∈ run.history n →
    Effect.deleteLockfile ∈ run.history n ∧ Effect.makePwrfailFile ∈ run.history n ∧
      Effect.logonfail false ∈ run.history n ∧
      (Effect.executeCommand .cmdDoshutdown ∈ run.history n ∨ ∃ m < n, run.Aborts m)
  final : ∀ before after, run.history n = before ++ .deleteLockfile :: after →
    ∀ cmd : Command, cmd.isBatteryCause = true → Effect.executeCommand cmd ∉ after

/-- The shutdown action runs once. -/
theorem shutdown_once (n : ℕ) : run.ShutdownOnce n := by
  have hspec := run.shutdowns_spec n
  have hmem : ∀ effect : Effect, effect.ofShutdown = true →
      (effect ∈ run.history n ↔ effect ∈ run.shutdowns n) := by
    intro effect hkind
    unfold shutdowns
    rw [List.mem_filter, and_iff_left hkind]
  have hcount : ∀ effect : Effect, effect.ofShutdown = true →
      (run.history n).count effect = (run.shutdowns n).count effect :=
    fun effect hkind => (List.count_filter hkind).symm
  refine ⟨?_, ?_, ?_⟩
  · rw [hcount _ rfl, hcount _ rfl, hcount _ rfl]
    split at hspec
    · exact hspec.count_le
    · rw [hspec]
      simp
  · intro cmd hcause hevent
    have hkind : (Effect.executeCommand cmd).ofShutdown = true := by
      simp [Effect.ofShutdown, hcause]
    rw [hmem _ hkind] at hevent
    split at hspec
    · rcases hspec.answered with ⟨hdeleted, hmade, hscript⟩
      have hfile := (hmem _ rfl).mpr hmade
      exact ⟨(hmem _ rfl).mpr hdeleted, hfile, run.loginsFit_history n (Or.inr hfile),
        hscript.imp_left (hmem _ rfl).mpr⟩
    · rw [hspec] at hevent
      cases hevent
  · intro before after hsplit cmd hcause hevent
    have hkind : (Effect.executeCommand cmd).ofShutdown = true := by
      cases cmd <;> first | rfl | cases hcause
    have hshutdowns : run.shutdowns n = before.filter Effect.ofShutdown ++
        .deleteLockfile :: after.filter Effect.ofShutdown := by
      unfold shutdowns
      rw [hsplit, List.filter_append, List.filter_cons_of_pos rfl]
    have hafter := List.mem_filter.mpr ⟨hevent, hkind⟩
    split at hspec
    · exact hspec.final hshutdowns hcause hafter
    · rw [hspec] at hshutdowns
      simp at hshutdowns

/-! ## Examples of runs -/

/-- A daemon started with {lit}`--kill-on-powerfail`; the driver asks for a remote shutdown
before the first pass, and the powerfail file cannot be made. -/
def abortedShutdown : CoreRun :=
  ofPasses { Core.start (defaultConfig 100) with killOnPowerfail := true }
    ⟨rfl, rfl, rfl, (Core.start_initial (defaultConfig 100)).bits⟩
    (fun n =>
      { updates := [DriverUpdate.poll
          (upsPlugged ||| upsBattpresent ||| upsOnbatt ||| upsShutRemote) id]
        env := { PassEnv.quiet with
          now := 100 + n
          announceTime := 100 + n
          pwrfailMissing := true } })
    (by simp) (fun n => ⟨le_refl _, by simp⟩)

/-- The abort of {lit}`initiate_hibernate` comes before the script: the event has been
generated, the process has exited, and the script has not been executed. -/
theorem shutdown_without_script_abortedShutdown :
    Effect.executeCommand .cmdRemotedown ∈ abortedShutdown.history 1 ∧
      ¬ abortedShutdown.runs 1 ∧
      Effect.executeCommand .cmdDoshutdown ∉ abortedShutdown.history 1 := by
  decide +kernel

end CoreRun

end Apcupsd
