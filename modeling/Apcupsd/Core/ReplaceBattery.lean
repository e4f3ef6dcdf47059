import Mathlib.Algebra.BigOperators.Ring.Finset
import Mathlib.Algebra.Order.Group.Int
import Apcupsd.Core.CoreRun
import Apcupsd.Core.PassRule
import Apcupsd.Foundations.Rationing

/-!
# How often the battery is complained about

{lit}`do_action` complains about a battery to be replaced every nine hours, ignores the
indication for the first ten minutes, and clears the bit after a number of complaints.  The
driver sets and clears the bit between the passes as it likes.

Main results:

- Theorem {lit}`doAction_ration`: the reminder alone complains, and the rest of the pass
  leaves its stamp and its counter.
- Theorem {lit}`CoreRun.rationed_iff`: the complaints are nine hours apart and none comes
  too early; when there are at most five of them between two silences.
-/

namespace Apcupsd

open BitFlags Apcupsd.Core

/-! ## One pass -/

/-- The complaints in the log. -/
def Core.changemes (core : Core) : ℕ :=
  core.log.count (.executeCommand .cmdChangeme)

/-- {lit}`now - ups->start_time < 60 * 10 || ups->ChangeBattCounter > 5`. -/
def silenceDue (env : PassEnv) (ups : UpsInfo) : Prop :=
  env.now - ups.startTime < 60 * 10 ∨ ups.changeBattCounter > 5

/-- What rations the complaints, and how many there have been. -/
def Core.ration (core : Core) : (UpsConfig × Int × Int) × ℕ :=
  (core.ups.reserved, core.changemes)

theorem ration_emit {core : Core} {effect : Effect}
    (heffect : effect ≠ .executeCommand .cmdChangeme) :
    (core.emit effect).ration = core.ration := by
  have hcount : (core.emit effect).changemes = core.changemes := by
    unfold changemes emit
    rw [List.count_append, List.count_singleton]
    simp [heffect]
  exact congrArg (core.ups.reserved, ·) hcount

theorem ration_mapUps {core : Core} {change : UpsInfo → UpsInfo}
    (hreserved : (change core.ups).reserved = core.ups.reserved) :
    (core.mapUps change).ration = core.ration :=
  congrArg (·, core.changemes) hreserved

theorem ration_driverCall (core : Core) (updates : List DriverUpdate) :
    (core.driverCall updates).ration = core.ration := by
  induction updates generalizing core with
  | nil => rfl
  | cons update updates ih =>
      have hwritten : ((core.mapUps update.apply).emit
          (.driverWrite (update.apply core.ups).status)).ration =
            (core.mapUps update.apply).ration := ration_emit (by simp)
      exact (ih _).trans (hwritten.trans (ration_mapUps (update.frame core.ups).reserved))

/-- Past the reminder nothing is complained about. -/
theorem rationRule (env : PassEnv) (ration : (UpsConfig × Int × Int) × ℕ) :
    PassRule env fun core => core.ration = ration where
  emit := by
    intro core effect hcore heffect
    refine (ration_emit fun hchangeme => ?_).trans hcore
    rw [hchangeme] at heffect
    cases heffect
  mapUps := fun hcore hreserved => (ration_mapUps hreserved).trans hcore
  poll := by
    intro core hcore
    have hread : ∀ core : Core, (core.emit .readVolatileData).ration = core.ration :=
      fun core => ration_emit (by simp)
    unfold pollDumbUps
    split
    · rw [ration_driverCall, hread, hread, hread]
      exact hcore
    · exact hcore
  exit := fun hcore => hcore
  logoff := fun hcore => hcore

/-- The rest of a pass leaves the stamp and the counter as the reminder left them. -/
theorem doAction_ration (env : PassEnv) (core : Core) :
    (doAction env core).ration = (passHead env core).ration :=
  (rationRule env (passHead env core).ration).doAction rfl

/-- What the reminder does. -/
inductive Reminded (env : PassEnv) (before after : Core) : Prop where
  | silent (hkept : after.ups.isReplacebatt = before.ups.isReplacebatt)
      (hdue : before.ups.isReplacebatt = true → ¬ silenceDue env before.ups)
      (hration : after.ration = before.ration)
  | silences (hset : before.ups.isReplacebatt = true)
      (hcleared : after.ups.isReplacebatt = false) (hdue : silenceDue env before.ups)
      (hration : after.ration =
        ((before.ups.toUpsConfig, before.ups.lastTimeChangeme, 0), before.changemes))
  | complains (hkept : after.ups.isReplacebatt = before.ups.isReplacebatt)
      (hset : before.ups.isReplacebatt = true) (hdue : ¬ silenceDue env before.ups)
      (hlate : 60 * 60 * 9 < env.now - before.ups.lastTimeChangeme)
      (hration : after.ration =
        ((before.ups.toUpsConfig, env.now, before.ups.changeBattCounter + 1),
          before.changemes + 1))

/-- The event of the reminder executes its script once. -/
theorem generateEvent_changeme (env : PassEnv) (core : Core) :
    (generateEvent env core .cmdChangeme).ration = (core.ups.reserved, core.changemes + 1) ∧
      (generateEvent env core .cmdChangeme).ups.status = core.ups.status := by
  have hlogged : ∀ (core : Core) (level : LogLevel) (msg : String),
      (logEvent core level msg).ration = core.ration :=
    fun core level msg => ration_emit (by simp)
  have hcalled : ((logEvent core (eventMsg .cmdChangeme).1 (eventMsg .cmdChangeme).2).emit
      (.executeCommand .cmdChangeme)).ration = (core.ups.reserved, core.changemes + 1) := by
    have hcount := congrArg Prod.snd
      (hlogged core (eventMsg .cmdChangeme).1 (eventMsg .cmdChangeme).2)
    refine Prod.ext rfl ?_
    refine Eq.trans ?_ (congrArg (· + 1) hcount)
    change List.count _ (_ ++ [_]) = _
    rw [List.count_append, List.count_singleton_self]
    rfl
  unfold generateEvent executeCommand
  dsimp only
  rw [if_neg (by simp [Command.isShutdownCause])]
  split
  · exact ⟨(hlogged _ _ _).trans hcalled, rfl⟩
  · exact ⟨hcalled, rfl⟩

theorem replaceBattery_reminded (env : PassEnv) (core : Core) :
    Reminded env core (replaceBattery env core) := by
  unfold replaceBattery
  split_ifs with hset hdue hlate
  · exact .silences hset (testMask_dropMask_self (by decide) _) hdue rfl
  · have hevent := generateEvent_changeme env core
    have hbit : (generateEvent env core .cmdChangeme).ups.isReplacebatt =
        core.ups.isReplacebatt := congrArg (testMask · upsReplacebatt) hevent.2
    have hstamped : ∀ reserved : UpsConfig × Int × Int, ∀ count : ℕ,
        (generateEvent env core .cmdChangeme).ration = (reserved, count) →
          ((generateEvent env core .cmdChangeme).mapUps fun ups =>
            { ups with
              lastTimeChangeme := env.now
              changeBattCounter := ups.changeBattCounter + 1 }).ration =
            ((reserved.1, env.now, reserved.2.2 + 1), count) := by
      rintro reserved count hration
      cases hration
      rfl
    exact .complains hbit hset hdue hlate (hstamped _ _ hevent.1)
  · exact .silent rfl (fun _ => hdue) rfl
  · exact .silent rfl (fun hraised => absurd hraised hset) rfl

/-- The first-call statements leave the bit and the fields that the reminder reads. -/
theorem passHead_reminded (env : PassEnv) (core : Core) :
    Reminded env core (passHead env core) := by
  have hreminded := replaceBattery_reminded env (firstCall env core)
  unfold passHead
  generalize replaceBattery env (firstCall env core) = head at hreminded
  unfold firstCall at hreminded
  split at hreminded
  · cases hreminded with
    | silent hkept hdue hration => exact .silent hkept hdue hration
    | silences hset hcleared hdue hration => exact .silences hset hcleared hdue hration
    | complains hkept hset hdue hlate hration => exact .complains hkept hset hdue hlate hration
  · exact hreminded

/-! ## Runs -/

namespace CoreRun

variable (run : CoreRun)

/-- The complaints of pass {lit}`n`. -/
def changemes (n : ℕ) : ℕ := (run.core (n + 1)).changemes

/-- Pass {lit}`n` finds the bit set and clears it. -/
def silences (n : ℕ) : Prop :=
  run.runs n ∧ (run.seen n).ups.isReplacebatt = true ∧ (run.head n).isReplacebatt = false

/-- Pass {lit}`n` finds the bit set and more than five complaints counted. -/
def countedOut (n : ℕ) : Prop :=
  run.runs n ∧ (run.seen n).ups.isReplacebatt = true ∧ 5 < (run.seen n).ups.changeBattCounter

/-- The complaints about the battery are rationed. -/
structure Rationed : Prop where
  single : ∀ n, run.changemes n ≤ 1
  spaced : ∀ m n, m < n → 0 < run.changemes m → 0 < run.changemes n →
    60 * 60 * 9 < run.clock n - run.clock m
  settled : ∀ n, 0 < run.changemes n →
    60 * 10 ≤ run.clock n - (run.core 0).ups.startTime
  between : ∀ a b, a < b → run.silences a → run.silences b →
    (∀ k, a < k → k < b → ¬ run.silences k) →
      ∑ k ∈ Finset.Ico (a + 1) b, run.changemes k ≤ 5

/-- What pass {lit}`n` does with the complaints, their stamp and their counter. -/
inductive RationStep (n : ℕ) : Prop where
  | quiet (hquiet : ¬ run.silences n) (hdue : ¬ run.countedOut n)
      (hnone : run.changemes n = 0)
      (hkept : (run.core (n + 1)).ups.reserved = (run.core n).ups.reserved)
  | silenced (hsilences : run.silences n) (hnone : run.changemes n = 0)
      (hreset : (run.core (n + 1)).ups.reserved =
        ((run.core n).ups.toUpsConfig, (run.core n).ups.lastTimeChangeme, 0))
  | complained (hquiet : ¬ run.silences n) (hdue : ¬ run.countedOut n)
      (hsettled : 60 * 10 ≤ run.clock n - (run.core n).ups.startTime)
      (hlate : 60 * 60 * 9 < run.clock n - (run.core n).ups.lastTimeChangeme)
      (hone : run.changemes n = 1)
      (hstamped : (run.core (n + 1)).ups.reserved =
        ((run.core n).ups.toUpsConfig, run.clock n, (run.core n).ups.changeBattCounter + 1))

theorem rationStep (n : ℕ) : run.RationStep n := by
  by_cases hruns : run.runs n
  · have hseen : (run.seen n).ups.reserved = (run.core n).ups.reserved :=
      (run.seen_frame n).reserved
    have hrest : (run.core (n + 1)).ration =
        (passHead (run.pass n).env (run.seen n)).ration := by
      rw [run.core_succ hruns]
      exact doAction_ration _ _
    have hdue : run.countedOut n → silenceDue (run.pass n).env (run.seen n).ups :=
      fun hcounted => Or.inr hcounted.2.2
    unfold UpsInfo.reserved at hseen
    injection hseen with hconfig hfields
    injection hfields with hstamp hcounter
    cases passHead_reminded (run.pass n).env (run.seen n) with
    | silent hkept hnot hration =>
        have hafter := hrest.trans hration
        refine .quiet ?_ ?_ (congrArg Prod.snd hafter) ?_
        · rintro ⟨-, hset, hcleared⟩
          rw [head, hkept, hset] at hcleared
          cases hcleared
        · exact fun hcounted => hnot hcounted.2.1 (hdue hcounted)
        · exact (congrArg Prod.fst hafter).trans (run.seen_frame n).reserved
    | silences hset hcleared hnot hration =>
        have hafter := hrest.trans hration
        refine .silenced ⟨hruns, hset, hcleared⟩ (congrArg Prod.snd hafter) ?_
        rw [← hconfig, ← hstamp]
        exact congrArg Prod.fst hafter
    | complains hkept hset hnot hlate hration =>
        have hafter := hrest.trans hration
        refine .complained ?_ (fun hcounted => hnot (hdue hcounted)) ?_ ?_
          (congrArg Prod.snd hafter) ?_
        · rintro ⟨-, -, hcleared⟩
          rw [head, hkept, hset] at hcleared
          cases hcleared
        · rw [← hconfig]
          exact not_lt.mp fun hearly => hnot (Or.inl hearly)
        · rw [← hstamp]
          exact hlate
        · rw [← hconfig, ← hcounter]
          exact congrArg Prod.fst hafter
  · have hcore : run.core (n + 1) = { run.core n with log := [] } := by
      rw [run.step n, doPass, if_pos (Bool.eq_true_of_not_eq_false hruns)]
    refine .quiet (fun hsilences => hruns hsilences.1) (fun hcounted => hruns hcounted.1) ?_ ?_
    · unfold changemes
      rw [hcore]
      rfl
    · rw [hcore]

theorem startTime_eq (n : ℕ) : (run.core n).ups.startTime = (run.core 0).ups.startTime := by
  have hconfig : (run.core n).ups.toUpsConfig = (run.core 0).ups.toUpsConfig := by
    induction n with
    | zero => rfl
    | succ n ih =>
        rw [← ih]
        cases run.rationStep n with
        | quiet _ _ _ hkept => exact congrArg Prod.fst hkept
        | silenced _ _ hreset => exact congrArg Prod.fst hreset
        | complained _ _ _ _ _ hstamped => exact congrArg Prod.fst hstamped
  exact congrArg UpsConfig.startTime hconfig

/-- The stamp is the time of the last complaint. -/
theorem changemes_stamped :
    Stamped run.clock (fun n => (run.core n).ups.lastTimeChangeme)
      (fun n => 0 < run.changemes n) (60 * 60 * 9) where
  late := by
    intro n hchangeme
    cases run.rationStep n with
    | quiet _ _ hnone _ => omega
    | silenced _ hnone _ => omega
    | complained _ _ _ hlate _ _ => exact hlate
  taken := by
    intro n hchangeme
    cases run.rationStep n with
    | quiet _ _ hnone _ => omega
    | silenced _ hnone _ => omega
    | complained _ _ _ _ _ hstamped => exact congrArg (fun reserved => reserved.2.1) hstamped
  kept := by
    intro n hchangeme
    cases run.rationStep n with
    | quiet _ _ _ hkept => exact congrArg (fun reserved => reserved.2.1) hkept
    | silenced _ _ hreset => exact congrArg (fun reserved => reserved.2.1) hreset
    | complained _ _ _ _ hone _ => omega

/-- The counter counts the complaints since the last silence. -/
theorem changemes_counted :
    Counted (fun n => (run.core n).ups.changeBattCounter) (fun n => (run.changemes n : ℤ))
      run.silences where
  reset := by
    intro n hsilences
    cases run.rationStep n with
    | quiet hquiet _ _ _ => exact absurd hsilences hquiet
    | silenced _ _ hreset => exact congrArg (fun reserved => reserved.2.2) hreset
    | complained hquiet _ _ _ _ _ => exact absurd hsilences hquiet
  count := by
    intro n hquiet
    cases run.rationStep n with
    | quiet _ _ hnone hkept =>
        rw [hnone, Nat.cast_zero, add_zero]
        exact congrArg (fun reserved => reserved.2.2) hkept
    | silenced hsilences _ _ => exact absurd hsilences hquiet
    | complained _ _ _ _ hone hstamped =>
        rw [hone, Nat.cast_one]
        exact congrArg (fun reserved => reserved.2.2) hstamped

theorem seen_counter (n : ℕ) :
    (run.seen n).ups.changeBattCounter = (run.core n).ups.changeBattCounter :=
  congrArg CoreFields.changeBattCounter (run.seen_frame n).core

/-- A pass that has counted to the end silences the indication. -/
theorem silences_of_countedOut {n : ℕ} (hcounted : run.countedOut n) : run.silences n := by
  cases run.rationStep n with
  | quiet _ hdue _ _ => exact absurd hcounted hdue
  | silenced hsilences _ _ => exact hsilences
  | complained _ hdue _ _ _ _ => exact absurd hcounted hdue

/-- Between two silences there were as many complaints as the counter says. -/
theorem sum_changemes {a n : ℕ} (han : a < n) (hsilences : run.silences a)
    (hlast : ∀ k, a < k → k < n → ¬ run.silences k) :
    (run.seen n).ups.changeBattCounter =
      ((∑ k ∈ Finset.Ico (a + 1) n, run.changemes k : ℕ) : ℤ) := by
  rw [run.seen_counter, Nat.cast_sum]
  exact run.changemes_counted.eq_sum han hsilences hlast

theorem changemes_le_one (n : ℕ) : run.changemes n ≤ 1 := by
  cases run.rationStep n with
  | quiet _ _ hnone _ => omega
  | silenced _ hnone _ => omega
  | complained _ _ _ _ hone _ => exact hone.le

theorem changemes_settled {n : ℕ} (hchangeme : 0 < run.changemes n) :
    60 * 10 ≤ run.clock n - (run.core 0).ups.startTime := by
  rw [← run.startTime_eq n]
  cases run.rationStep n with
  | quiet _ _ hnone _ => omega
  | silenced _ hnone _ => omega
  | complained _ _ hsettled _ _ _ => exact hsettled

/-- Complaints are more than nine hours apart and never too early; there are at most five of
them between two silences exactly if after a first silence no pass that finds the bit set has
counted more than five. -/
theorem rationed_iff :
    (∀ n, run.changemes n ≤ 1) ∧
    (∀ m n, m < n → 0 < run.changemes m → 0 < run.changemes n →
      60 * 60 * 9 < run.clock n - run.clock m) ∧
    (∀ n, 0 < run.changemes n → 60 * 10 ≤ run.clock n - (run.core 0).ups.startTime) ∧
    (run.Rationed ↔ ∀ m n, m < n → run.silences m → ¬ run.countedOut n) := by
  have hspaced : ∀ m n, m < n → 0 < run.changemes m → 0 < run.changemes n →
      60 * 60 * 9 < run.clock n - run.clock m := fun m n hmn hfirst hsecond =>
    run.changemes_stamped.spaced (fun _ _ h => run.clock_mono h) hmn hfirst hsecond
  refine ⟨run.changemes_le_one, hspaced, fun n => run.changemes_settled, ?_, ?_⟩
  · intro hrationed m n hmn hsilences hcounted
    rcases exists_last hmn hsilences with ⟨a, han, hfirst, hlast⟩
    have hsum := run.sum_changemes han hfirst hlast
    have hfive := hrationed.between a n han hfirst (run.silences_of_countedOut hcounted) hlast
    have hcounter := hcounted.2.2
    omega
  · intro hcondition
    refine ⟨run.changemes_le_one, hspaced, fun n => run.changemes_settled, ?_⟩
    intro a b hab hfirst hsecond hlast
    have hsum := run.sum_changemes hab hfirst hlast
    have hcounter : ¬ 5 < (run.seen b).ups.changeBattCounter := fun hcounter =>
      hcondition a b hab hfirst ⟨hsecond.1, hsecond.2.1, hcounter⟩
    omega

/-- The clock of a daemon that makes a pass every eleven hours. -/
def seldom (n : ℕ) : Int := 100 + 60 * 60 * 11 * n

/-- The driver reports a battery to be replaced before every pass. -/
def wornOut : CoreRun :=
  ofPasses (Core.start (defaultConfig 0)) (Core.start_initial _)
    (fun n =>
      { updates := [DriverUpdate.poll
          (upsPlugged ||| upsBattpresent ||| upsOnline ||| upsReplacebatt) id]
        env := { PassEnv.quiet with now := seldom n, announceTime := seldom n } })
    (by simp [seldom]) (fun n => ⟨le_rfl, by simp [seldom]⟩)

/-- Passes 0 and 7 silence the indication, and each pass between them complains. -/
theorem not_rationed_wornOut : ¬ wornOut.Rationed := by
  intro hrationed
  have hraised : ∀ k < 7, 0 < k → (wornOut.head k).isReplacebatt = true := by decide +kernel
  have hfirst : wornOut.silences 0 :=
    ⟨by decide +kernel, by decide +kernel, by decide +kernel⟩
  have hsecond : wornOut.silences 7 :=
    ⟨by decide +kernel, by decide +kernel, by decide +kernel⟩
  have hfive := hrationed.between 0 7 (by omega) hfirst hsecond fun k hpos hlt hsilences =>
    Bool.false_ne_true (hsilences.2.2.symm.trans (hraised k hlt hpos))
  revert hfive
  decide +kernel

end CoreRun

end Apcupsd
