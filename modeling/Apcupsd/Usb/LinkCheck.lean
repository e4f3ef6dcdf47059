import Apcupsd.Core.CommEvents
import Apcupsd.Core.CoreRun
import Apcupsd.Foundations.Debounce

/-!
# Waiting for a lost USB link

{lit}`usb_link_check` of the USB drivers: the loop that closes and reopens the device until
the UPS answers again.  One step is one round of the loop, or what the driver does while the
link is up.

Main results:

- Theorem {lit}`linkStep_spec`: what a step announces, and what it leaves of the countdown.
- Theorem {lit}`LinkRun.announced_iff`: the announcements come in pairs exactly when two
  attempts fail in every loss.
-/

namespace Apcupsd

open Apcupsd.Core

/-! ## The driver -/

/-- Where the driver stands: {lit}`retrying` is the head of the loop, with its locals. -/
inductive LinkPoint where
  | up
  | retrying (tlog : Int) (once : Bool)
deriving DecidableEq, Repr

/-- The record and the core, {lit}`_linkcheck`, whether the device is open, and the thread. -/
structure UsbLink where
  core : Core
  linkcheck : Bool
  opened : Bool
  point : LinkPoint

/-- What the calls of one attempt to reopen the device return, and what they store:
{lit}`Open`, {lit}`get_capabilities` and {lit}`read_static_data`. -/
structure Reopening where
  opens : Bool
  capabilities : Bool
  upsCap : Ci → Bool
  readStatic : Bool
  updates : List DriverUpdate

/-- What the surroundings decide during one step: whether a transfer fails while the link is
up, what the driver stores if none does, and the outcome of an attempt. -/
structure LinkEnv where
  pass : PassEnv
  transferFails : Bool
  updates : List DriverUpdate
  reopening : Reopening

/-- {lit}`LINK_RETRY_INTERVAL`. -/
def linkRetryInterval : Int := 5

/-- {lit}`reinitialize_private_structure`. -/
def UsbLink.reinitializePrivateStructure (link : UsbLink) : UsbLink :=
  { link with core := link.core.mapUps fun ups => { ups with upsCap := fun _ => false } }

/-- The attempt succeeds if each of its calls does. -/
def Reopening.succeeds (reopening : Reopening) : Bool :=
  reopening.opens && reopening.capabilities && reopening.readStatic

/-- The calls of an attempt, each made only if those before it succeeded. -/
def UsbLink.reopen (link : UsbLink) (reopening : Reopening) : UsbLink :=
  let capable := link.core.mapUps fun ups => { ups with upsCap := reopening.upsCap }
  if !reopening.opens then { link with opened := false }
  else if !reopening.capabilities then { link with opened := true, core := capable }
  else { link with opened := true, core := capable.mapUps (applyUpdates reopening.updates) }

/-- {lit}`usb_link_check` up to its loop; it is left at once if it runs already. -/
def usbLinkCheck (link : UsbLink) : UsbLink :=
  if link.linkcheck then link
  else
    { link with
      core := link.core.mapUps UpsInfo.setCommlost
      linkcheck := true
      point := .retrying (linkRetryInterval * 2) true }

/-- The head of a round: the loss is logged every ten minutes, and the script is executed
once. -/
def warnCommlost (env : PassEnv) (tlog : Int) (once : Bool) (core : Core) : Int × Bool × Core :=
  if tlog ≤ 0 then
    let logged := logEvent core (eventMsg .cmdCommfailure).1 (eventMsg .cmdCommfailure).2
    if once then (10 * 60, false, executeCommand env logged .cmdCommfailure)
    else (10 * 60, false, logged)
  else (tlog, once, core)

/-- A round of the loop, and what follows the loop if it is the last. -/
def linkRound (closeDevice : UsbLink → UsbLink) (env : LinkEnv) (tlog : Int) (once : Bool)
    (link : UsbLink) : UsbLink :=
  let (tlog, once, warned) := warnCommlost env.pass tlog once link.core
  let tried := (closeDevice { link with core := warned }).reopen env.reopening
  if env.reopening.succeeds then
    { tried with
      core := (generateEvent env.pass tried.core .cmdCommok).mapUps UpsInfo.clearCommlost
      linkcheck := false
      point := .up }
  else { tried with point := .retrying (tlog - linkRetryInterval) once }

/-- One step of a driver, over a record whose log is empty. -/
def linkStep (closeDevice : UsbLink → UsbLink) (env : LinkEnv) (link : UsbLink) : UsbLink :=
  let fresh : UsbLink := { link with core := { link.core with log := [] } }
  match link.point with
  | .up =>
      if env.transferFails then usbLinkCheck fresh
      else { fresh with core := fresh.core.mapUps (applyUpdates env.updates) }
  | .retrying tlog once => linkRound closeDevice env tlog once fresh

/-! ## The drivers -/

/-- The generic driver closes the device in any case. -/
def GenericUsbUpsDriver.closeDevice (link : UsbLink) : UsbLink :=
  { link with opened := false }.reinitializePrivateStructure

/-- The driver for Linux closes the device if it is open. -/
def LinuxUsbUpsDriver.closeDevice (link : UsbLink) : UsbLink :=
  if link.opened then { link with opened := false }.reinitializePrivateStructure else link

/-- So does the driver for BSD. -/
def BsdUsbUpsDriver.closeDevice (link : UsbLink) : UsbLink :=
  if link.opened then { link with opened := false }.reinitializePrivateStructure else link

/-- The drivers that wait for their link. -/
inductive LinkDriver where
  | generic
  | linux
  | bsd
deriving DecidableEq, Repr

def LinkDriver.closeDevice : LinkDriver → UsbLink → UsbLink
  | .generic => GenericUsbUpsDriver.closeDevice
  | .linux => LinuxUsbUpsDriver.closeDevice
  | .bsd => BsdUsbUpsDriver.closeDevice

/-! ## Steps -/

/-- The outcome of the attempt that a step makes, if it makes one. -/
def attempted (env : LinkEnv) (link : UsbLink) : Option Bool :=
  match link.point with
  | .retrying _ _ => some env.reopening.succeeds
  | .up => none

/-- The countdown after so many attempts have failed. -/
def Countdown (link : UsbLink) (failures : ℕ) : Prop :=
  match link.point with
  | .up => link.linkcheck = false ∧ failures = 0
  | .retrying tlog true => link.linkcheck = true ∧ failures ≤ 2 ∧ tlog = 10 - 5 * failures
  | .retrying _ false => link.linkcheck = true ∧ 3 ≤ failures

/-- Closing the device touches neither the log nor the guard. -/
theorem closeDevice_keeps (driver : LinkDriver) (link : UsbLink) :
    (driver.closeDevice link).core.log = link.core.log ∧
      (driver.closeDevice link).linkcheck = link.linkcheck := by
  cases driver with
  | generic => exact ⟨rfl, rfl⟩
  | linux =>
      unfold LinkDriver.closeDevice LinuxUsbUpsDriver.closeDevice
      dsimp only
      split_ifs <;> exact ⟨rfl, rfl⟩
  | bsd =>
      unfold LinkDriver.closeDevice BsdUsbUpsDriver.closeDevice
      dsimp only
      split_ifs <;> exact ⟨rfl, rfl⟩

/-- Nor does an attempt to reopen it. -/
theorem reopen_keeps (link : UsbLink) (reopening : Reopening) :
    (link.reopen reopening).core.log = link.core.log ∧
      (link.reopen reopening).linkcheck = link.linkcheck := by
  unfold UsbLink.reopen
  dsimp only
  split_ifs <;> exact ⟨rfl, rfl⟩

/-- The head of a round announces a loss once the countdown has run out. -/
theorem warnCommlost_spec (env : PassEnv) {link : UsbLink} {failures : ℕ} {tlog : Int}
    {once : Bool} (hpoint : link.point = .retrying tlog once) (hcount : Countdown link failures)
    (core : Core) :
    let warned := warnCommlost env tlog once core
    Countdown { link with point := .retrying (warned.1 - linkRetryInterval) warned.2.1 }
        (failures + 1) ∧
      commEvents warned.2.2 = commEvents core ++ if failures = 2 then [.opens ()] else [] := by
  unfold Countdown at hcount
  rw [hpoint] at hcount
  cases once with
  | true =>
      rcases hcount with ⟨hguard, hfew, htlog⟩
      by_cases hdue : tlog ≤ 0
      · have htwo : failures = 2 := by omega
        simp only [warnCommlost, if_pos hdue, if_pos htwo, if_true]
        refine ⟨⟨hguard, by omega⟩, ?_⟩
        rw [commEvents_executeCommand, commEvents_logEvent]
        rfl
      · have hnot : failures ≠ 2 := by omega
        simp only [warnCommlost, if_neg hdue, if_neg hnot, List.append_nil]
        refine ⟨⟨hguard, by omega, ?_⟩, trivial⟩
        simp only [linkRetryInterval]
        omega
  | false =>
      rcases hcount with ⟨hguard, hmany⟩
      have hnot : failures ≠ 2 := by omega
      by_cases hdue : tlog ≤ 0
      · simp only [warnCommlost, if_pos hdue, if_neg hnot, Bool.false_eq_true, if_false,
          List.append_nil, commEvents_logEvent]
        exact ⟨⟨hguard, by omega⟩, trivial⟩
      · simp only [warnCommlost, if_neg hdue, if_neg hnot, List.append_nil]
        exact ⟨⟨hguard, by omega⟩, trivial⟩

/-- A round announces a loss if the countdown has run out, and its end if the attempt
succeeds; then the flag is clear. -/
theorem linkRound_spec (driver : LinkDriver) (env : LinkEnv) {link : UsbLink} {failures : ℕ}
    {tlog : Int} {once : Bool} (hpoint : link.point = .retrying tlog once)
    (hcount : Countdown link failures) (hlog : link.core.log = []) :
    let after := linkRound driver.closeDevice env tlog once link
    Countdown after (if env.reopening.succeeds then 0 else failures + 1) ∧
      commEvents after.core = ((if failures = 2 then [.opens ()] else []) ++
        if env.reopening.succeeds then [.closes ()] else []) ∧
      (env.reopening.succeeds = true → after.core.ups.isCommlost = false) := by
  have hwarned := warnCommlost_spec env.pass hpoint hcount link.core
  unfold linkRound
  generalize warnCommlost env.pass tlog once link.core = warned at hwarned ⊢
  rcases warned with ⟨tlog', once', warned⟩
  dsimp only at hwarned ⊢
  rcases hwarned with ⟨hnext, hevents⟩
  rw [commEvents_of_log hlog, List.nil_append] at hevents
  have hclosed := closeDevice_keeps driver { link with core := warned }
  have hreopened := reopen_keeps (driver.closeDevice { link with core := warned }) env.reopening
  generalize (driver.closeDevice { link with core := warned }).reopen env.reopening = tried
    at hreopened ⊢
  have htried : commEvents tried.core = if failures = 2 then [.opens ()] else [] := by
    rw [← hevents]
    exact congrArg (List.filterMap commBoundary) (hreopened.1.trans hclosed.1)
  have hguard : tried.linkcheck = link.linkcheck := hreopened.2.trans hclosed.2
  by_cases hsucceeds : env.reopening.succeeds = true
  · simp only [if_pos hsucceeds]
    refine ⟨⟨rfl, rfl⟩, ?_, fun _ => UpsInfo.test_clear_self (by decide) _⟩
    rw [commEvents_mapUps, commEvents_generateEvent _ _ rfl, htried]
    rfl
  · simp only [if_neg hsucceeds]
    refine ⟨?_, htried.trans (List.append_nil _).symm, fun hyes => absurd hyes hsucceeds⟩
    unfold Countdown at hnext ⊢
    dsimp only at hnext ⊢
    rw [hguard]
    exact hnext

/-- What one step announces, and what it leaves of the countdown. -/
theorem linkStep_spec (driver : LinkDriver) (env : LinkEnv) {link : UsbLink} {failures : ℕ}
    (hcount : Countdown link failures) :
    let after := linkStep driver.closeDevice env link
    Countdown after (match attempted env link with
        | some false => failures + 1
        | some true => 0
        | none => failures) ∧
      commEvents after.core = (match attempted env link with
        | some ok => (if failures = 2 then [.opens ()] else []) ++ if ok then [.closes ()] else []
        | none => []) ∧
      (attempted env link = some true → after.core.ups.isCommlost = false) := by
  rcases link with ⟨core, linkcheck, opened, point⟩
  cases point with
  | up =>
      rcases hcount with ⟨hguard, hzero⟩
      dsimp only at hguard
      unfold linkStep attempted usbLinkCheck
      by_cases hfails : env.transferFails = true
      · simp only [if_pos hfails, hguard, Bool.false_eq_true, if_false]
        refine ⟨⟨rfl, by omega, ?_⟩, rfl, nofun⟩
        rw [hzero]
        rfl
      · simp only [if_neg hfails]
        exact ⟨⟨hguard, hzero⟩, rfl, nofun⟩
  | retrying tlog once =>
      have hround := @linkRound_spec driver env
        ⟨{ core with log := [] }, linkcheck, opened, .retrying tlog once⟩ failures tlog once rfl
        hcount rfl
      unfold linkStep attempted
      dsimp only at hround ⊢
      rcases hround with ⟨hnext, hevents, hclear⟩
      cases hsucceeds : env.reopening.succeeds with
      | true =>
          rw [hsucceeds] at hnext hevents hclear
          exact ⟨hnext, hevents, fun _ => hclear rfl⟩
      | false =>
          rw [hsucceeds] at hnext hevents
          exact ⟨hnext, hevents, nofun⟩

/-! ## Runs -/

/-- A run of one of the drivers, from a link that is up. -/
structure LinkRun where
  driver : LinkDriver
  config : UpsConfig
  env : ℕ → LinkEnv

namespace LinkRun

/-- The driver before a step. -/
def link (run : LinkRun) : ℕ → UsbLink
  | 0 => { core := Core.start run.config, linkcheck := false, opened := true, point := .up }
  | n + 1 => linkStep run.driver.closeDevice (run.env n) (run.link n)

variable (run : LinkRun)

/-- The outcomes of the attempts. -/
def attempts (n : ℕ) : Option Bool :=
  attempted (run.env n) (run.link n)

/-- The countdown follows the attempts that have failed in the present loss. -/
theorem countdown (n : ℕ) : Countdown (run.link n) (failuresSince run.attempts n) := by
  induction n with
  | zero => exact ⟨rfl, rfl⟩
  | succ n ih =>
      rw [failuresSince_succ]
      exact (linkStep_spec run.driver (run.env n) ih).1

/-- What a step announces. -/
theorem commEvents_link (n : ℕ) :
    commEvents (run.link (n + 1)).core = hastyAnnouncement 2 run.attempts n :=
  (linkStep_spec run.driver (run.env n) (run.countdown n)).2.1

/-- In every moment of the run the announcements so far come in pairs, a loss first, and the
flag is clear whenever a link has come back. -/
def Announced : Prop :=
  (∀ n, Paired ((List.range n).flatMap fun i => commEvents (run.link (i + 1)).core)) ∧
    ∀ n, run.attempts n = some true → (run.link (n + 1)).core.ups.isCommlost = false

/-- They do exactly when at least two attempts fail in every loss that ends. -/
theorem announced_iff :
    run.Announced ↔
      ∀ n, run.attempts n = some true → 2 ≤ failuresSince run.attempts n := by
  have hevents : (fun i => commEvents (run.link (i + 1)).core) =
      hastyAnnouncement 2 run.attempts :=
    funext run.commEvents_link
  unfold Announced
  rw [hevents, ← hastyAnnouncements_paired_iff]
  exact and_iff_left fun n hsuccess =>
    (linkStep_spec run.driver (run.env n) (run.countdown n)).2.2 hsuccess

/-! ## Examples of runs -/

/-- A run in which the link is lost in the first step, and comes back with the attempt
given. -/
def comesBack (driver : LinkDriver) (step : ℕ) : LinkRun where
  driver := driver
  config := defaultConfig 0
  env := fun n =>
    { pass := { PassEnv.quiet with now := n }
      transferFails := decide (n = 0)
      updates := []
      reopening :=
        { opens := decide (n = step)
          capabilities := true
          upsCap := fun _ => true
          readStatic := true
          updates := [] } }

/-- The first attempt succeeds: the return of a link is announced that was never announced
to be lost. -/
theorem announced_firstAttempt :
    ¬ (comesBack .generic 1).Announced ∧ ¬ (comesBack .linux 1).Announced := by
  have hunpaired : ∀ driver, (List.range 2).flatMap
      (fun i => commEvents ((comesBack driver 1).link (i + 1)).core) = [.closes ()] →
        ¬ (comesBack driver 1).Announced := by
    intro driver hevents hannounced
    have hpaired := hannounced.1 2
    rw [hevents] at hpaired
    cases hpaired.finalOpen_isSome
  exact ⟨hunpaired .generic (by decide +kernel), hunpaired .linux (by decide +kernel)⟩

end LinkRun

end Apcupsd
