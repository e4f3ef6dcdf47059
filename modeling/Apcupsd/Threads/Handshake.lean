import Apcupsd.Threads.Process

/-!
# The stop handshake

{lit}`apcupsd_terminate` raises {lit}`shutdown_requested` and polls
{lit}`device_thread_stopped`; the device thread polls the first flag between its
cycles and raises the second one on its way out.

The second flag is initially set, for a process that never enters the loop, so a
test of it says something about the device thread only once
{lit}`do_device` has cleared it.

Main results:

- Theorems {lit}`Process.stopFlag_step` and {lit}`Process.left_step`: what one step
  keeps of the flag and of the way of the main thread through {lit}`do_device`.
- Theorem {lit}`Process.waitedOut_of_reaches`: in a run whose waits begin after
  start-up, a wait that did not expire has seen the main thread leave.
- Theorem {lit}`Process.close_after_deviceThread`: no driver call is in progress or
  started from the moment such a wait leads to {lit}`device_close`.
-/

namespace Apcupsd

/-! ## The way through do_device -/

/-- The main thread on its way through {lit}`do_device`. -/
inductive Phase where
  /-- Up to and including {lit}`device_thread_stopped = 0`; also the one-shot run. -/
  | startup
  /-- In the loop. -/
  | loop
  /-- On the way out of the process. -/
  | left
  deriving DecidableEq, Repr

def MainPoint.phase : MainPoint → Phase
  | .checkRequested | .setStopped | .doAction _ | .fillUps | .doReports | .checkState => .loop
  | .returned => .left
  | _ => .startup

def MainPc.phase : MainPc → Phase
  | .running point => point.phase
  | .inCall point _ => if point.phase = .startup then .startup else .loop
  | .terminate _ | .cleanup _ | .exiting => .left

/-- The driver call in progress. -/
def MainPc.driverCall : MainPc → Option DriverCall
  | .inCall _ call => some call
  | _ => none

theorem MainPc.driverCall_of_left {pc : MainPc} (hleft : pc.phase = .left) :
    pc.driverCall = none := by
  cases pc with
  | inCall point call =>
      simp only [MainPc.phase] at hleft
      split_ifs at hleft
  | _ => rfl

/-! ## Frames of the teardown routines -/

theorem teardownStep_frame (self : ThreadId) (p : Process) (point : TeardownPoint) :
    (teardownStep self p point).1.main = p.main ∧
      (teardownStep self p point).1.signal = p.signal ∧
      (teardownStep self p point).1.deviceThreadStopped = p.deviceThreadStopped := by
  cases point with
  | closeDevice =>
      simp only [teardownStep]
      split_ifs <;> exact ⟨rfl, rfl, rfl⟩
  | _ => exact ⟨rfl, rfl, rfl⟩

theorem apcupsdTerminate_frame (self : ThreadId) (p : Process) (point : TerminatePoint) :
    (apcupsdTerminate self p point).1.main = p.main ∧
      (apcupsdTerminate self p point).1.signal = p.signal ∧
      (apcupsdTerminate self p point).1.deviceThreadStopped = p.deviceThreadStopped := by
  cases point with
  | test waited =>
      simp only [apcupsdTerminate]
      split_ifs <;> exact ⟨rfl, rfl, rfl⟩
  | teardown expired point => exact teardownStep_frame self p point
  | _ => exact ⟨rfl, rfl, rfl⟩

/-! ## One step -/

namespace Process

variable {p q : Process} {label : Label}

/-- What one step of the main thread can be. -/
inductive MainMove (p q : Process) : Outcome → Prop where
  | next {point : MainPoint} (hmain : p.main = .running point)
      (hnext : p.mainNext point = some q) : MainMove p q .next
  | call {point : MainPoint} {call : DriverCall} (hmain : p.main = .running point)
      (hcalls : point.calls call = true) (hq : q = { p with main := .inCall point call }) :
      MainMove p q (.call call)
  | return {point : MainPoint} {call : DriverCall} {ok : Bool}
      (hmain : p.main = .inCall point call)
      (hq : q = { p with main := .running (p.afterCall ok point) }) : MainMove p q (.return ok)
  | abort (hphase : p.main.phase ≠ .left) (hq : q = { p with main := .cleanup .closeDevice }) :
      MainMove p q .abort
  | exit (hphase : p.main.phase ≠ .left) (hq : q = { p with main := .exiting }) :
      MainMove p q .exit
  | terminate {point : TerminatePoint} (hmain : p.main = .terminate point)
      (hq : q = { (apcupsdTerminate .main p point).1 with
        main := .terminate (apcupsdTerminate .main p point).2 }) : MainMove p q .next
  | cleanup {point : TeardownPoint} (hmain : p.main = .cleanup point)
      (hq : q = { (teardownStep .main p point).1 with
        main := .cleanup (teardownStep .main p point).2 }) : MainMove p q .next
  | gone (hmain : p.main = .exiting) (hq : q = { p with exited := true }) : MainMove p q .next

theorem mainMove_of_mainStep {outcome : Outcome} (hstep : p.mainStep outcome = some q) :
    MainMove p q outcome := by
  unfold mainStep at hstep
  split at hstep
  case h_1 point hmain => exact .next hmain hstep
  case h_2 point call hmain =>
      split_ifs at hstep with hcalls
      exact .call hmain hcalls (Option.some.inj hstep).symm
  case h_3 point hmain =>
      split_ifs at hstep with haborts
      refine .abort ?_ (Option.some.inj hstep).symm
      rw [hmain]
      cases point <;> simp_all [MainPoint.aborts, MainPc.phase, MainPoint.phase]
  case h_4 point hmain =>
      split_ifs at hstep with hexits
      refine .exit ?_ (Option.some.inj hstep).symm
      rw [hmain]
      cases point <;> simp_all [MainPoint.exits, MainPc.phase, MainPoint.phase]
  case h_5 point call ok hmain => exact .return hmain (Option.some.inj hstep).symm
  case h_6 point call hmain =>
      refine .abort ?_ (Option.some.inj hstep).symm
      rw [hmain]
      simp only [MainPc.phase]
      split_ifs <;> simp
  case h_7 point hmain => exact .terminate hmain (Option.some.inj hstep).symm
  case h_8 point hmain => exact .cleanup hmain (Option.some.inj hstep).symm
  case h_9 hmain => exact .gone hmain (Option.some.inj hstep).symm
  case h_10 => cases hstep

/-- What one step of the process can be. -/
inductive Move (p q : Process) : Label → Prop where
  | main {outcome : Outcome} (hmove : MainMove p q outcome) : Move p q (.main outcome)
  | sigterm (hwait : p.signal = .sigwait) (hq : q = { p with signal := .terminate .request }) :
      Move p q .sigterm
  | signal {point : TerminatePoint} (hsignal : p.signal = .terminate point)
      (hq : q = { (apcupsdTerminate .signal p point).1 with
        signal := .terminate (apcupsdTerminate .signal p point).2 }) : Move p q .signal

theorem move_of_step (hstep : p.step label = some q) : Move p q label := by
  unfold step at hstep
  split at hstep
  · cases hstep
  cases label with
  | main outcome => exact .main (mainMove_of_mainStep hstep)
  | sigterm =>
      dsimp only at hstep
      split_ifs at hstep with hwait
      exact .sigterm hwait (Option.some.inj hstep).symm
  | signal =>
      dsimp only at hstep
      split at hstep
      · rename_i point hsignal
        exact .signal hsignal (Option.some.inj hstep).symm
      · cases hstep

/-! ## The flag and the way of the main thread -/

/-- In the loop the flag is clear. -/
def StopFlag (p : Process) : Prop :=
  p.main.phase = .loop → p.deviceThreadStopped = false

theorem mainNext_left {point : MainPoint} (hnext : p.mainNext point = some q)
    (hleft : point.phase = .left) : q.main.phase = .left := by
  cases point <;> cases hnext <;> simp_all [MainPoint.phase, MainPc.phase]

theorem mainNext_stopFlag {point : MainPoint} (hnext : p.mainNext point = some q)
    (hmain : p.main = .running point) (hflag : p.StopFlag) : q.StopFlag := by
  unfold StopFlag at *
  rw [hmain] at hflag
  cases point with
  | createFiles =>
      cases hnext
      cases p.oneShot <;> simp [MainPoint.phase, MainPc.phase]
  | _ => cases hnext <;> simp_all [MainPoint.phase, MainPc.phase]

theorem afterSetupDevice_phase : p.afterSetupDevice.phase = .startup := by
  unfold afterSetupDevice
  split
  · split_ifs <;> rfl
  · rfl

/-- A driver call never takes the main thread from start-up into the loop. -/
theorem afterCall_phase {ok : Bool} {point : MainPoint}
    (hloop : (p.afterCall ok point).phase = .loop) : point.phase ≠ .startup := by
  cases point with
  | setupCapabilities =>
      cases ok with
      | false => cases hloop
      | true => exact absurd (afterSetupDevice_phase.symm.trans hloop) (by simp)
  | hibernatePoll killcount =>
      simp only [afterCall] at hloop
      split_ifs at hloop <;> cases hloop
  | setupOpen | setupSetup | openUps => cases ok <;> cases hloop
  | doAction | fillUps | checkState | checkRequested | setStopped | doReports | returned =>
      exact nofun
  | _ => cases hloop

/-- Once the main thread has left, it stays out. -/
theorem left_step (hstep : p.step label = some q) (hleft : p.main.phase = .left) :
    q.main.phase = .left := by
  cases move_of_step hstep with
  | sigterm hwait hq => subst hq; exact hleft
  | signal hsignal hq =>
      subst hq
      exact (congrArg MainPc.phase (apcupsdTerminate_frame _ _ _).1).trans hleft
  | main hmove =>
      cases hmove with
      | next hmain hnext => exact mainNext_left hnext (by rwa [hmain] at hleft)
      | @call point call hmain hcalls hq =>
          rw [hmain] at hleft
          cases point <;> simp_all [MainPoint.calls, MainPc.phase, MainPoint.phase]
      | «return» hmain hq =>
          simp only [hmain, MainPc.phase] at hleft
          split_ifs at hleft
      | abort hphase hq => exact absurd hleft hphase
      | exit hphase hq => exact absurd hleft hphase
      | terminate hmain hq => subst hq; rfl
      | cleanup hmain hq => subst hq; rfl
      | gone hmain hq => subst hq; exact hleft

/-- Every step keeps the meaning of the flag. -/
theorem stopFlag_step (hstep : p.step label = some q) (hflag : p.StopFlag) : q.StopFlag := by
  cases move_of_step hstep with
  | sigterm hwait hq => subst hq; exact hflag
  | signal hsignal hq =>
      subst hq
      rcases apcupsdTerminate_frame .signal p _ with ⟨hmain, _, hstopped⟩
      intro hloop
      exact hstopped.trans (hflag ((congrArg MainPc.phase hmain).symm.trans hloop))
  | main hmove =>
      cases hmove with
      | next hmain hnext => exact mainNext_stopFlag hnext hmain hflag
      | @call point call hmain hcalls hq =>
          subst hq
          intro hloop
          apply hflag
          rw [hmain]
          simp only [MainPc.phase] at hloop
          cases point <;> simp_all [MainPoint.calls, MainPc.phase, MainPoint.phase]
      | @«return» point call ok hmain hq =>
          subst hq
          intro hloop
          apply hflag
          simp only [hmain, MainPc.phase, if_neg (afterCall_phase hloop)]
      | abort hphase hq => subst hq; exact nofun
      | exit hphase hq => subst hq; exact nofun
      | terminate hmain hq => subst hq; exact nofun
      | cleanup hmain hq => subst hq; exact nofun
      | gone hmain hq => subst hq; exact hflag

/-- The main thread moves the signal thread only by starting it. -/
theorem mainMove_signal {outcome : Outcome} (hmove : p.MainMove q outcome) :
    q.signal = p.signal ∨ q.signal = .sigwait := by
  cases hmove with
  | @next point hmain hnext =>
      cases point with
      | initSignals => cases hnext; exact Or.inr rfl
      | _ => cases hnext <;> exact Or.inl rfl
  | terminate hmain hq =>
      subst hq
      exact Or.inl (apcupsdTerminate_frame _ _ _).2.1
  | cleanup hmain hq =>
      subst hq
      exact Or.inl (teardownStep_frame _ _ _).2.1
  | call _ _ hq | «return» _ hq | abort _ hq | exit _ hq | gone _ hq =>
      subst hq
      exact Or.inl rfl

/-! ## The wait -/

/-- The wait of {lit}`apcupsd_terminate` tests {lit}`device_thread_stopped` in this step,
after the given number of milliseconds. -/
def waitTest (p : Process) : Label → Option ℕ
  | .signal =>
      match p.signal with
      | .terminate (.test waited) => some waited
      | _ => none
  | .main .next =>
      match p.main with
      | .terminate (.test waited) => some waited
      | _ => none
  | _ => none

/-- The statement of {lit}`apcupsd_terminate` a thread stands at. -/
def terminating (p : Process) : ThreadId → Option TerminatePoint
  | .main =>
      match p.main with
      | .terminate point => some point
      | _ => none
  | .signal =>
      match p.signal with
      | .terminate point => some point
      | _ => none

/-- The wait tests the flag only once the main thread has passed start-up, whose last
statement is {lit}`device_thread_stopped = 0`. -/
def TestsAfterStartup (p : Process) (label : Label) : Prop :=
  (p.waitTest label).isSome → p.main.phase ≠ .startup

instance : Decidable (TestsAfterStartup p label) :=
  inferInstanceAs (Decidable (_ → _))

/-- A wait that did not expire has seen the main thread leave. -/
def WaitedOut (p : Process) : Prop :=
  ∀ point, p.signal = .terminate (.teardown false point) → p.main.phase = .left

theorem waitedOut_step (htests : p.TestsAfterStartup label) (hstep : p.step label = some q)
    (hflag : p.StopFlag) (hwaited : p.WaitedOut) : q.WaitedOut := by
  intro point hpoint
  cases move_of_step hstep with
  | sigterm hwait hq => subst hq; cases hpoint
  | main hmove =>
      rcases mainMove_signal hmove with hsame | hwait
      · exact left_step hstep (hwaited point (hsame.symm.trans hpoint))
      · exact absurd (hwait.symm.trans hpoint) (by simp)
  | @signal old hsignal hq =>
      have hmain : q.main = p.main := by
        rw [hq]
        exact (apcupsdTerminate_frame .signal p old).1
      have hresult : (apcupsdTerminate .signal p old).2 = .teardown false point := by
        subst hq
        exact SignalPc.terminate.inj hpoint
      rw [hmain]
      cases old with
      | request => cases hresult
      | sleep waited => cases hresult
      | teardown expired old =>
          obtain ⟨rfl, _⟩ := TerminatePoint.teardown.inj hresult
          exact hwaited old hsignal
      | test waited =>
          have hstopped : p.deviceThreadStopped = true := by
            simp only [apcupsdTerminate] at hresult
            split_ifs at hresult
            simpa using (TerminatePoint.teardown.inj hresult).1
          have hstarted : p.main.phase ≠ .startup := htests (by simp [waitTest, hsignal])
          cases hphase : p.main.phase with
          | left => rfl
          | startup => exact absurd hphase hstarted
          | loop => exact absurd (hflag hphase) (by simp [hstopped])
/-! ## Runs -/

theorem left_of_reaches {good : Process → Label → Prop} (hrun : Reaches step good p q)
    (hleft : p.main.phase = .left) : q.main.phase = .left :=
  hrun.invariant (P := fun s => s.main.phase = .left) (fun _ hstep => left_step hstep) hleft

/-- In a run whose waits begin after start-up, a wait that did not expire has seen the
main thread leave. -/
theorem waitedOut_of_reaches {oneShot : Option OneShot} {dumb : Bool}
    (hrun : Reaches step TestsAfterStartup (start oneShot dumb) p) : p.WaitedOut := by
  have hboth : p.StopFlag ∧ p.WaitedOut := by
    refine hrun.invariant (P := fun s => s.StopFlag ∧ s.WaitedOut) ?_ ⟨nofun, nofun⟩
    rintro p label q htests hstep ⟨hflag, hwaited⟩
    exact ⟨stopFlag_step hstep hflag, waitedOut_step htests hstep hflag hwaited⟩
  exact hboth.2

/-- Once {lit}`apcupsd_terminate` reaches {lit}`device_close` in either thread without
its wait having expired, no driver call is in progress and none follows. -/
theorem close_after_deviceThread {oneShot : Option OneShot} {dumb : Bool}
    {before after : Process} {self : ThreadId}
    (hrun : Reaches step TestsAfterStartup (start oneShot dumb) before)
    (hclose : before.terminating self = some (.teardown false .closeDevice))
    (hafter : Reaches step (fun _ _ => True) before after) :
    after.main.driverCall = none := by
  have hleft : before.main.phase = .left := by
    cases self with
    | main =>
        simp only [terminating] at hclose
        split at hclose
        · rename_i hmain
          rw [hmain]
          rfl
        · cases hclose
    | signal =>
        simp only [terminating] at hclose
        split at hclose
        · rename_i point hsignal
          rw [Option.some.inj hclose] at hsignal
          exact waitedOut_of_reaches hrun _ hsignal
        · cases hclose
  exact MainPc.driverCall_of_left (left_of_reaches hafter hleft)

/-! ## Examples of runs -/

/-- The main thread from the first statement up to the first driver call. -/
def startupLabels : List Label :=
  [.main .next, .main .next, .main .next, .main .next, .main (.call .open)]

/-- From inside {lit}`device_open` through the first cycle to the second test of
{lit}`shutdown_requested`. -/
def firstCycleLabels : List Label :=
  [.main (.return true), .main (.call .setup), .main (.return true),
    .main (.call .getCapabilities), .main (.return true), .main (.call .readStaticData),
    .main (.return true), .main (.call .readVolatileData), .main (.return true), .main .next,
    .main .next, .main .next, .main (.call .readVolatileData), .main (.return true),
    .main .next, .main .next, .main (.call .checkState)]

/-- A signal in the first {lit}`check_state`: the device thread finishes its cycle
and stops, and the signal thread goes on to close the driver. -/
def orderlyLabels : List Label :=
  startupLabels ++ firstCycleLabels ++
    [.sigterm, .signal, .signal, .signal, .main (.return false), .main .next, .main .next,
      .signal]

theorem close_after_deviceThread_orderly :
    ∃ before, execute step TestsAfterStartup (start none false) orderlyLabels = some before ∧
      before.terminating .signal = some (.teardown false .closeDevice) ∧
      before.main.driverCall = none := by
  obtain ⟨before, hexec, hclose⟩ :
      ∃ before, execute step TestsAfterStartup (start none false) orderlyLabels = some before ∧
        before.terminating .signal = some (.teardown false .closeDevice) := by
    refine ⟨_, rfl, ?_⟩
    decide +kernel
  exact ⟨before, hexec, hclose,
    close_after_deviceThread (reaches_of_execute hexec) hclose Reaches.refl⟩

/-- A signal during {lit}`device_open`: the flag still has its initial value, so the
signal thread closes the driver at once, under the call. -/
theorem closed_under_deviceThread :
    ¬ ∀ (oneShot : Option OneShot) (dumb : Bool) (before after : Process) (self : ThreadId),
      Reaches step (fun _ _ => True) (start oneShot dumb) before →
        before.terminating self = some (.teardown false .closeDevice) →
          Reaches step (fun _ _ => True) before after → after.main.driverCall = none := by
  intro hclaim
  obtain ⟨before, hexec, hclose, hcall⟩ :
      ∃ before, execute step (fun _ _ => True) (start none false)
          (startupLabels ++ [.sigterm, .signal, .signal]) = some before ∧
        before.terminating .signal = some (.teardown false .closeDevice) ∧
        before.main.driverCall = some .open := by
    refine ⟨_, rfl, ?_⟩
    decide +kernel
  have hnone := hclaim none false before before .signal (reaches_of_execute hexec) hclose
    Reaches.refl
  exact absurd (hcall.symm.trans hnone) (by simp)

end Process

end Apcupsd
