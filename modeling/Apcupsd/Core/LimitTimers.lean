import Mathlib.Algebra.Order.Group.Int
import Apcupsd.Core.CoreRun

/-!
# The limit timers

The two debounced limits of {lit}`st_OnBattery`: the battery charge against
{lit}`percent` and the time left against {lit}`runtime`.  Each has a flag in the
status word, a timestamp and a shutdown command.

Main results:

- Theorem {lit}`CoreRun.limit_step`: the step of an armed limit timer.
- Theorem {lit}`CoreRun.limit_confirmed`: in a run that never carries a raised limit
  flag out of an outage, a limit shutdown follows five confirmed seconds of the
  current outage.
-/

namespace Apcupsd

open BitFlags Apcupsd.Core

/-! ## The two limits -/

/-- The limits that {lit}`st_OnBattery` debounces. -/
inductive LimitKind where
  | load | ltime
deriving DecidableEq, Repr

namespace LimitKind

/-- The flag that remembers a running timer. -/
def mask : LimitKind → StatusWord
  | .load => upsShutLoad
  | .ltime => upsShutLtime

/-- The timestamp of a running timer. -/
def start : LimitKind → CoreFields → Int
  | .load => CoreFields.startShutLoad
  | .ltime => CoreFields.startShutLtime

/-- The shutdown command of an expired timer. -/
def command : LimitKind → Command
  | .load => .cmdLoadlimit
  | .ltime => .cmdRunlimit

/-- The condition that starts the timer. -/
def reached : LimitKind → UpsInfo → Bool
  | .load => UpsInfo.loadLimitReached
  | .ltime => UpsInfo.runtimeLimitReached

theorem mask_and_timerBits (limit : LimitKind) : limit.mask &&& timerBits = limit.mask := by
  cases limit <;> decide

theorem mask_and_coreBits (limit : LimitKind) : limit.mask &&& coreBits = limit.mask := by
  cases limit <;> decide

theorem mask_and_not_replacebatt (limit : LimitKind) :
    limit.mask &&& ~~~upsReplacebatt = limit.mask := by
  cases limit <;> decide

theorem start_frame (limit : LimitKind) {before after : UpsInfo}
    (hframe : TimerFrame before after) :
    limit.start after.toCoreFields = limit.start before.toCoreFields := by
  cases limit with
  | load => exact hframe.startShutLoad
  | ltime => exact hframe.startShutLtime

end LimitKind

/-! ## The limits in one pass -/

theorem stampBattlow_limit (env : PassEnv) (limit : LimitKind) (ups : UpsInfo) :
    (stampBattlow env ups).test limit.mask = ups.test limit.mask ∧
      limit.start (stampBattlow env ups).toCoreFields = limit.start ups.toCoreFields ∧
      limit.reached (stampBattlow env ups) = limit.reached ups := by
  unfold stampBattlow
  split
  · cases limit <;> exact ⟨rfl, rfl, rfl⟩
  · exact ⟨rfl, rfl, rfl⟩

/-- Outside an evaluation a pass leaves the limit timers alone. -/
theorem branchUpdate_limit (env : PassEnv) (limit : LimitKind) {branch : PassBranch}
    (hbranch : branch ≠ .evaluate) (ups : UpsInfo) :
    (branchUpdate env branch ups).test limit.mask = ups.test limit.mask ∧
      limit.start (branchUpdate env branch ups).toCoreFields =
        limit.start ups.toCoreFields := by
  rcases stampBattlow_limit env limit ups with ⟨hmask, hstart, _⟩
  cases branch with
  | evaluate => exact absurd rfl hbranch
  | remote => exact ⟨rfl, rfl⟩
  | announce =>
      refine ⟨Eq.trans ?_ hmask, Eq.trans ?_ hstart⟩
      · cases limit <;> exact UpsInfo.test_set_of_disjoint (by decide) _
      · cases limit <;> rfl
  | mainsBack =>
      refine ⟨Eq.trans ?_ hmask, Eq.trans ?_ hstart⟩
      · cases limit <;> exact UpsInfo.test_clear_of_disjoint (by decide) _
      · cases limit <;> rfl
  | _ =>
      refine ⟨hmask, Eq.trans ?_ hstart⟩
      cases limit <;> rfl

theorem loadLimitTimer_flag (env : PassEnv) (ups : UpsInfo) :
    (loadLimitTimer env ups).isShutLoad = ups.loadLimitReached ∧
      (ups.loadLimitReached = true → (loadLimitTimer env ups).startShutLoad =
        if ups.isShutLoad then ups.startShutLoad else env.now) := by
  unfold loadLimitTimer
  cases hreached : ups.loadLimitReached with
  | true =>
      rw [if_pos rfl]
      split_ifs with hflag
      · exact ⟨hflag, fun _ => rfl⟩
      · exact ⟨UpsInfo.test_set_self ups upsShutLoad, fun _ => rfl⟩
  | false =>
      rw [if_neg Bool.false_ne_true]
      exact ⟨UpsInfo.test_clear_self (by decide) ups, fun hreach => by cases hreach⟩

theorem runtimeLimitTimer_flag (env : PassEnv) (ups : UpsInfo) :
    (runtimeLimitTimer env ups).isShutLtime = ups.runtimeLimitReached ∧
      (ups.runtimeLimitReached = true → (runtimeLimitTimer env ups).startShutLtime =
        if ups.isShutLtime then ups.startShutLtime else env.now) := by
  unfold runtimeLimitTimer
  cases hreached : ups.runtimeLimitReached with
  | true =>
      rw [if_pos rfl]
      split_ifs with hflag
      · exact ⟨hflag, fun _ => rfl⟩
      · exact ⟨UpsInfo.test_set_self ups upsShutLtime, fun _ => rfl⟩
  | false =>
      rw [if_neg Bool.false_ne_true]
      exact ⟨UpsInfo.test_clear_self (by decide) ups, fun hreach => by cases hreach⟩

/-- The two timers do not touch each other. -/
theorem loadLimitTimer_runtime (env : PassEnv) (ups : UpsInfo) :
    (loadLimitTimer env ups).isShutLtime = ups.isShutLtime ∧
      (loadLimitTimer env ups).startShutLtime = ups.startShutLtime ∧
      (loadLimitTimer env ups).runtimeLimitReached = ups.runtimeLimitReached := by
  unfold loadLimitTimer
  split_ifs
  · exact ⟨rfl, rfl, rfl⟩
  · exact ⟨UpsInfo.test_set_of_disjoint (by decide) ups, rfl, rfl⟩
  · exact ⟨UpsInfo.test_clear_of_disjoint (by decide) ups, rfl, rfl⟩

theorem runtimeLimitTimer_load (env : PassEnv) (ups : UpsInfo) :
    (runtimeLimitTimer env ups).isShutLoad = ups.isShutLoad ∧
      (runtimeLimitTimer env ups).startShutLoad = ups.startShutLoad := by
  unfold runtimeLimitTimer
  split_ifs
  · exact ⟨rfl, rfl⟩
  · exact ⟨UpsInfo.test_set_of_disjoint (by decide) ups, rfl⟩
  · exact ⟨UpsInfo.test_clear_of_disjoint (by decide) ups, rfl⟩

/-- After an evaluation the flag says whether the limit is reached, and the
timestamp of a flag that was clear before is the time of the evaluation. -/
theorem evaluate_limit (env : PassEnv) (limit : LimitKind) (ups : UpsInfo) :
    (branchUpdate env .evaluate ups).test limit.mask = limit.reached ups ∧
      (limit.reached ups = true →
        limit.start (branchUpdate env .evaluate ups).toCoreFields =
          if ups.test limit.mask then limit.start ups.toCoreFields else env.now) := by
  rcases stampBattlow_limit env limit ups with ⟨hmask, hstart, hreached⟩
  rw [← hmask, ← hstart, ← hreached]
  change (runtimeLimitTimer env (loadLimitTimer env (stampBattlow env ups))).test _ = _ ∧
    (_ → limit.start (runtimeLimitTimer env (loadLimitTimer env
      (stampBattlow env ups))).toCoreFields = _)
  generalize stampBattlow env ups = stamped
  cases limit with
  | load =>
      rcases runtimeLimitTimer_load env (loadLimitTimer env stamped) with ⟨hflag, hkept⟩
      rcases loadLimitTimer_flag env stamped with ⟨hload, hstamp⟩
      exact ⟨hflag.trans hload, fun hreach => hkept.trans (hstamp hreach)⟩
  | ltime =>
      rcases loadLimitTimer_runtime env stamped with ⟨hflag, hkept, hsame⟩
      rcases runtimeLimitTimer_flag env (loadLimitTimer env stamped) with ⟨hltime, hstamp⟩
      rw [hflag, hkept, hsame] at hstamp
      exact ⟨hltime.trans hsame, hstamp⟩

/-- A limit command is the work of an evaluation whose flag is up and whose
timestamp is five seconds old. -/
theorem branchCommand_limit {env : PassEnv} {branch : PassBranch} {updated : UpsInfo}
    {limit : LimitKind} (hcommand : branchCommand env branch updated = some limit.command) :
    branch = .evaluate ∧ updated.test limit.mask = true ∧
      5 ≤ env.now - limit.start updated.toCoreFields := by
  cases branch with
  | evaluate =>
      refine ⟨rfl, ?_⟩
      change expiredCommand env updated = some limit.command at hcommand
      unfold expiredCommand at hcommand
      split_ifs at hcommand with hlow hload hltime
      · cases limit <;> cases hcommand
      · cases limit with
        | load => exact hload
        | ltime => cases hcommand
      · cases limit with
        | load => cases hcommand
        | ltime => exact hltime
  | announce => cases limit <;> cases hcommand
  | timeout => cases limit <;> cases hcommand
  | _ => cases hcommand

/-! ## The limits in a run -/

namespace CoreRun

variable (run : CoreRun) (limit : LimitKind)

/-- Pass {lit}`n` evaluates the limit and finds it reached. -/
def limitReached (n : ℕ) : Prop :=
  run.evaluates n ∧ limit.reached (run.seen n).ups = true

/-- Pass {lit}`n` sees the UPS on battery and, if it evaluates the limit, finds it
reached. -/
def limitStands (n : ℕ) : Prop :=
  run.onBattery n ∧ (run.evaluates n → limit.reached (run.seen n).ups = true)

/-- Five seconds before pass {lit}`n` some pass found the limit reached, and the
limit has stood at every pass since. -/
def LimitConfirmed (n : ℕ) : Prop :=
  ∃ i, i ≤ n ∧ run.clock i ≤ run.clock n - 5 ∧ run.limitReached limit i ∧
    ∀ j, i ≤ j → j ≤ n → run.limitStands limit j

/-- The flag of the limit is clear at every pass that sees the UPS off battery or in
a calibration. -/
def LimitClearOffBattery : Prop :=
  ∀ n, run.runs n → ¬ run.onBattery n → (run.seen n).ups.test limit.mask = false

/-- The timer of the limit runs when pass {lit}`n` begins. -/
def limitArmed (n : ℕ) : Prop :=
  run.runs n ∧ (run.core n).ups.test limit.mask = true

theorem head_limit (n : ℕ) :
    (run.head n).test limit.mask = (run.core n).ups.test limit.mask ∧
      limit.start (run.head n).toCoreFields = limit.start (run.core n).ups.toCoreFields ∧
      limit.reached (run.head n) = limit.reached (run.seen n).ups := by
  refine ⟨run.head_test_core limit.mask_and_not_replacebatt limit.mask_and_coreBits n, ?_, ?_⟩
  · rw [run.head_core n]
    cases limit <;> rfl
  · have hdriver := run.head_driver n
    have hcap : (run.head n).upsCap = (run.seen n).ups.upsCap :=
      (congrArg DriverFields.upsCap hdriver :)
    have hchg : (run.head n).battChg = (run.seen n).ups.battChg :=
      (congrArg DriverFields.battChg hdriver :)
    have hleft : (run.head n).timeLeft = (run.seen n).ups.timeLeft :=
      (congrArg DriverFields.timeLeft hdriver :)
    cases limit with
    | load =>
        change UpsInfo.loadLimitReached _ = UpsInfo.loadLimitReached _
        unfold UpsInfo.loadLimitReached
        rw [hcap, hchg, run.head_config n]
    | ltime =>
        change UpsInfo.runtimeLimitReached _ = UpsInfo.runtimeLimitReached _
        unfold UpsInfo.runtimeLimitReached
        rw [hcap, hleft, run.head_config n]

theorem seen_limit (n : ℕ) :
    (run.seen n).ups.test limit.mask = (run.core n).ups.test limit.mask :=
  (run.seen_frame n).test_eq limit.mask_and_coreBits

/-- A pass that leaves the timer running either starts it, at an evaluation that
finds the limit reached, or finds it running; and the limit stands. -/
theorem limit_step {run : CoreRun} {limit : LimitKind}
    (hclear : run.LimitClearOffBattery limit) (n : ℕ)
    (harmed : run.limitArmed limit (n + 1)) :
    run.limitStands limit n ∧
      (run.limitReached limit n ∧
          limit.start (run.core (n + 1)).ups.toCoreFields = run.clock n ∨
        run.limitArmed limit n ∧
          limit.start (run.core (n + 1)).ups.toCoreFields =
            limit.start (run.core n).ups.toCoreFields) := by
  rcases harmed with ⟨hrunning, hflag⟩
  have hruns : run.runs n := run.runs_of_runs_succ hrunning
  have hafter := run.after_frame hruns
  rw [hafter.test_eq limit.mask_and_timerBits] at hflag
  rw [limit.start_frame hafter]
  rcases run.head_limit limit n with ⟨hmask, hstart, hreached⟩
  by_cases hevaluate : run.branch n = .evaluate
  · have honbattery : run.onBattery n := run.onBattery_of_branch (by rw [hevaluate]; rfl)
    unfold updated at hflag ⊢
    rw [hevaluate] at hflag ⊢
    rcases evaluate_limit (run.pass n).env limit (run.head n) with ⟨hupdated, hstamp⟩
    rw [hupdated] at hflag
    have hseen : limit.reached (run.seen n).ups = true := hreached.symm.trans hflag
    refine ⟨⟨honbattery, fun _ => hseen⟩, ?_⟩
    rw [hstamp hflag, hmask, hstart]
    split_ifs with hwas
    · exact Or.inr ⟨⟨hruns, hwas⟩, rfl⟩
    · exact Or.inl ⟨⟨⟨hruns, hevaluate⟩, hseen⟩, rfl⟩
  · unfold updated at hflag ⊢
    rcases branchUpdate_limit (run.pass n).env limit hevaluate (run.head n) with
      ⟨hsame, hkept⟩
    rw [hsame, hmask] at hflag
    have honbattery : run.onBattery n := by
      by_contra hoff
      rw [← run.seen_limit limit n, hclear n hruns hoff] at hflag
      cases hflag
    refine ⟨⟨honbattery, fun hevaluates => absurd hevaluates.2 hevaluate⟩, ?_⟩
    exact Or.inr ⟨⟨hruns, hflag⟩, hkept.trans hstart⟩

/-- The flag of a limit is clear when the daemon starts. -/
theorem not_limitArmed_zero : ¬ run.limitArmed limit 0 := by
  rintro ⟨_, hflag⟩
  have hand : (run.core 0).ups.status &&& limit.mask = 0 := by
    rw [← limit.mask_and_coreBits, BitVec.and_comm limit.mask, ← BitVec.and_assoc,
      run.initial.bits]
    exact BitVec.zero_and
  have hmask : limit.mask = 0 := by
    rw [← hand]
    exact (beq_iff_eq.mp hflag).symm
  cases limit <;> exact absurd hmask (by decide)

/-- In a run that never carries a raised limit flag out of an outage, a limit
shutdown follows five confirmed seconds of the current outage. -/
theorem limit_confirmed {run : CoreRun} {limit : LimitKind}
    (hclear : run.LimitClearOffBattery limit) {n : ℕ}
    (hcommand : run.executes n limit.command) : run.LimitConfirmed limit n := by
  have htimed : limit.command.isTimed = true := by cases limit <;> rfl
  rcases (run.executes_iff htimed).mp hcommand with ⟨hruns, hbranch⟩
  rcases branchCommand_limit hbranch with ⟨hevaluate, hflag, helapsed⟩
  unfold updated at hflag helapsed
  rw [hevaluate] at hflag helapsed
  rcases evaluate_limit (run.pass n).env limit (run.head n) with ⟨hupdated, hstamp⟩
  rcases run.head_limit limit n with ⟨hmask, hstart, hreached⟩
  rw [hupdated] at hflag
  have hseen : limit.reached (run.seen n).ups = true := hreached.symm.trans hflag
  rw [hstamp hflag, hmask, hstart] at helapsed
  have hnow : run.limitStands limit n :=
    ⟨run.onBattery_of_branch (by rw [hevaluate]; rfl), fun _ => hseen⟩
  split_ifs at helapsed with hwas
  · have hheld := heldSince_of_steps run.clock (run.limitReached limit)
      (run.limitStands limit) (run.limitArmed limit)
      (fun n => limit.start (run.core n).ups.toCoreFields)
      (run.not_limitArmed_zero limit) (limit_step hclear) n ⟨hruns, hwas⟩
    rcases hheld.elapsed helapsed with ⟨i, hin, hclock, htaken, hall⟩
    refine ⟨i, hin.le, hclock, htaken, ?_⟩
    intro j hij hjn
    rcases hjn.lt_or_eq with hlt | rfl
    · exact hall j hij hlt
    · exact hnow
  · rw [sub_self] at helapsed
    exact absurd helapsed (by decide)

/-! ## Examples of runs -/

/-- A driver that reports the battery charge, which is at the limit. -/
def lowCharge (fields : DriverFields) : DriverFields :=
  { fields with upsCap := fun ci => ci == .battlev, battChg := .finite 10 }

/-- One outage from pass 1 on: the limit is reached at pass 2 and confirmed at
pass 8. -/
def oneOutage : CoreRun :=
  polled (defaultConfig 100) lowCharge fun
    | 0 => upsOnline
    | _ + 1 => upsOnbatt

/-- Two outages, at passes 1 and 2 and from pass 6 on. -/
def twoOutages : CoreRun :=
  polled (defaultConfig 100) lowCharge fun n =>
    if n = 1 ∨ n = 2 ∨ 6 ≤ n then upsOnbatt else upsOnline

/-- The theorem at work: a limit shutdown in the first outage of a run. -/
theorem limit_confirmed_oneOutage :
    oneOutage.executes 8 .cmdLoadlimit ∧ oneOutage.LimitConfirmed .load 8 := by
  have hclear : oneOutage.LimitClearOffBattery .load := by
    intro n _ hoff
    rcases n with _ | n
    · decide +kernel
    · have hword : testMask (upsPlugged ||| upsBattpresent ||| upsOnbatt) upsOnbatt = true ∧
          testMask (upsPlugged ||| upsBattpresent ||| upsOnbatt) upsCalibration = false := by
        decide
      exact absurd (polled_onBattery _ _ hword.1 hword.2) hoff
  have hcommand : oneOutage.executes 8 LimitKind.load.command := by decide +kernel
  exact ⟨hcommand, limit_confirmed hclear hcommand⟩

/-- The flag of the first outage survives the return of mains, so that the second
outage shuts the machine down in its second pass. -/
theorem limit_not_confirmed_twoOutages :
    twoOutages.executes 7 .cmdLoadlimit ∧ ¬ twoOutages.LimitConfirmed .load 7 := by
  refine ⟨by decide +kernel, ?_⟩
  rintro ⟨i, hi, hclock, _, hstands⟩
  have hmains : ¬ twoOutages.onBattery 5 := by decide +kernel
  have hearly : i ≤ 5 := by
    change (100 + i : Int) ≤ 100 + (7 : ℕ) - 5 at hclock
    omega
  exact hmains (hstands 5 hearly (by omega)).1

end CoreRun

end Apcupsd
