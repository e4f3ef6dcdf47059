import Mathlib.Data.List.Nodup
import Apcupsd.Threads.Handshake

/-!
# One teardown

Both threads can run the teardown of the process: the signal thread in
{lit}`apcupsd_terminate`, the main thread in the same routine after
{lit}`do_device` returns and in {lit}`apcupsd_error_cleanup`.  Nothing stops the second
one from entering while the first one is at work.

Main results:

- Theorem {lit}`Process.ledger_of_reaches`: in every run each thread closes the driver
  and destroys the structure at most once.
- Theorem {lit}`Process.teardown_once`: in a run in which a thread enters the teardown
  only while no thread is in it, both happen at most once, and, where the wait also
  ends by the device thread stopping, nobody calls into a driver that another thread
  has closed.
-/

namespace Apcupsd

/-! ## How far a thread has come -/

/-- How far a thread has come in the teardown: 1 before {lit}`device_close`, 2 from
there on, 3 after {lit}`destroy_ups`. -/
def TeardownPoint.progress : TeardownPoint → ℕ
  | .closeDevice => 1
  | .closing => 2
  | .destroyUps => 2
  | .exit => 3

def TerminatePoint.progress : TerminatePoint → ℕ
  | .teardown _ point => point.progress
  | _ => 1

/-- The statements up to {lit}`init_signals`. -/
def MainPoint.early : MainPoint → Bool
  | .configure | .attachDriver | .initSignals => true
  | _ => false

def MainPc.early : MainPc → Bool
  | .running point => point.early
  | .inCall point _ => point.early
  | _ => false

namespace Process

variable {p q : Process} {label : Label}

/-- The progress of a thread, 0 outside the teardown. -/
def progress (p : Process) : ThreadId → ℕ
  | .main =>
      match p.main with
      | .terminate point => point.progress
      | .cleanup point => point.progress
      | _ => 0
  | .signal =>
      match p.signal with
      | .terminate point => point.progress
      | _ => 0

/-- The record of the teardown: no thread occurs twice, and a recorded thread has
come past the recorded statement. -/
structure Ledger (p : Process) : Prop where
  closesNodup : p.closes.Nodup
  closed : ∀ t ∈ p.closes, 2 ≤ p.progress t
  destroysNodup : p.destroys.Nodup
  destroyed : ∀ t ∈ p.destroys, 3 ≤ p.progress t

/-- A step of one thread, as the record sees it. -/
structure Advance (mover : ThreadId) (p q : Process) : Prop where
  others : ∀ t, t ≠ mover → q.progress t = p.progress t
  forward : p.progress mover ≤ q.progress mover
  closes : q.closes = p.closes ∨
    (q.closes = mover :: p.closes ∧ p.progress mover < 2 ∧ 2 ≤ q.progress mover)
  destroys : q.destroys = p.destroys ∨
    (q.destroys = mover :: p.destroys ∧ p.progress mover < 3 ∧ 3 ≤ q.progress mover)

/-- The rule for one column of the record. -/
theorem nodup_of_advance {mover : ThreadId} {old new : List ThreadId} {level : ℕ}
    (hadvance : Advance mover p q)
    (hnew : new = old ∨
      (new = mover :: old ∧ p.progress mover < level ∧ level ≤ q.progress mover))
    (hnodup : old.Nodup) (hpast : ∀ t ∈ old, level ≤ p.progress t) :
    new.Nodup ∧ ∀ t ∈ new, level ≤ q.progress t := by
  have hkept : ∀ t ∈ old, level ≤ q.progress t := by
    intro t ht
    by_cases hmover : t = mover
    · subst hmover
      exact Nat.le_trans (hpast t ht) hadvance.forward
    · rw [hadvance.others t hmover]
      exact hpast t ht
  rcases hnew with rfl | ⟨rfl, hbefore, hafter⟩
  · exact ⟨hnodup, hkept⟩
  · have hfresh : mover ∉ old := fun hmem => absurd (hpast mover hmem) (by omega)
    refine ⟨List.nodup_cons.mpr ⟨hfresh, hnodup⟩, ?_⟩
    intro t ht
    rcases List.mem_cons.mp ht with rfl | hold
    · exact hafter
    · exact hkept t hold

theorem ledger_of_advance {mover : ThreadId} (hadvance : Advance mover p q)
    (hledger : p.Ledger) : q.Ledger := by
  have hcloses := nodup_of_advance hadvance hadvance.closes hledger.closesNodup hledger.closed
  have hdestroys :=
    nodup_of_advance hadvance hadvance.destroys hledger.destroysNodup hledger.destroyed
  exact ⟨hcloses.1, hcloses.2, hdestroys.1, hdestroys.2⟩

/-! ## One step -/

/-- What a statement of a teardown routine does to the record. -/
structure Recorded (mover : ThreadId) (p q : Process) (before after : ℕ) : Prop where
  entered : 0 < before
  forward : before ≤ after
  closes : q.closes = p.closes ∨ (q.closes = mover :: p.closes ∧ before < 2 ∧ 2 ≤ after)
  destroys : q.destroys = p.destroys ∨
    (q.destroys = mover :: p.destroys ∧ before < 3 ∧ 3 ≤ after)

end Process

open Process in
theorem teardownStep_recorded (self : ThreadId) (p : Process) (point : TeardownPoint) :
    Recorded self p (teardownStep self p point).1 point.progress
      (teardownStep self p point).2.progress := by
  cases point with
  | closeDevice =>
      by_cases hdriver : p.driver = true
      · refine ⟨?_, ?_, Or.inr ⟨?_, ?_, ?_⟩, Or.inl ?_⟩ <;>
          simp [teardownStep, hdriver, TeardownPoint.progress]
      · refine ⟨?_, ?_, Or.inl ?_, Or.inl ?_⟩ <;>
          simp [teardownStep, hdriver, TeardownPoint.progress]
  | destroyUps =>
      refine ⟨?_, ?_, Or.inl ?_, Or.inr ⟨?_, ?_, ?_⟩⟩ <;>
        simp [teardownStep, TeardownPoint.progress]
  | closing | exit =>
      refine ⟨?_, ?_, Or.inl ?_, Or.inl ?_⟩ <;> simp [teardownStep, TeardownPoint.progress]

open Process in
theorem apcupsdTerminate_recorded (self : ThreadId) (p : Process) (point : TerminatePoint) :
    Recorded self p (apcupsdTerminate self p point).1 point.progress
      (apcupsdTerminate self p point).2.progress := by
  cases point with
  | teardown expired point => exact teardownStep_recorded self p point
  | test waited =>
      simp only [apcupsdTerminate]
      split_ifs
      all_goals
        refine ⟨?_, ?_, Or.inl rfl, Or.inl rfl⟩ <;>
          simp [TerminatePoint.progress, TeardownPoint.progress]
  | request | sleep waited =>
      refine ⟨?_, ?_, Or.inl rfl, Or.inl rfl⟩ <;>
        simp [apcupsdTerminate, TerminatePoint.progress]

namespace Process

variable {p q : Process} {label : Label}

theorem Recorded.advance {mover : ThreadId} {before after : ℕ}
    (hrecorded : Recorded mover p q before after) (hbefore : p.progress mover = before)
    (hafter : q.progress mover = after)
    (hothers : ∀ t, t ≠ mover → q.progress t = p.progress t) : Advance mover p q := by
  subst hbefore hafter
  exact ⟨hothers, hrecorded.forward, hrecorded.closes, hrecorded.destroys⟩

theorem mainOnly_of_signal (hsignal : q.signal = p.signal) :
    ∀ t, t ≠ .main → q.progress t = p.progress t := by
  intro t ht
  cases t with
  | main => exact absurd rfl ht
  | signal => simp [progress, hsignal]

theorem progress_of_not_left (hphase : p.main.phase ≠ .left) : p.progress .main = 0 := by
  unfold progress
  cases hmain : p.main with
  | terminate point | cleanup point => exact absurd (by rw [hmain]; rfl) hphase
  | _ => rfl

/-- While the main thread is before {lit}`init_signals` there is no signal thread. -/
def Unstarted (p : Process) : Prop :=
  p.main.early = true → p.signal = .notStarted

/-- The statements of the main thread outside the teardown keep the record. -/
theorem mainNext_advance {point : MainPoint} (hmain : p.main = .running point)
    (hunstarted : p.Unstarted) (hnext : p.mainNext point = some q) : Advance .main p q := by
  have hbefore : p.progress .main = 0 := by simp [progress, hmain]
  have hrecord : q.closes = p.closes ∧ q.destroys = p.destroys ∧
      q.progress .signal = p.progress .signal := by
    cases point with
    | initSignals =>
        have hsignal : p.signal = .notStarted := hunstarted (by rw [hmain]; rfl)
        cases hnext
        refine ⟨rfl, rfl, ?_⟩
        simp [progress, hsignal]
    | _ => cases hnext <;> exact ⟨rfl, rfl, rfl⟩
  refine ⟨?_, ?_, Or.inl hrecord.1, Or.inl hrecord.2.1⟩
  · intro t ht
    cases t with
    | main => exact absurd rfl ht
    | signal => exact hrecord.2.2
  · rw [hbefore]
    exact Nat.zero_le _

/-- Steps that leave the record and the signal thread alone. -/
theorem advance_of_kept (hbefore : p.progress .main = 0) (hcloses : q.closes = p.closes)
    (hdestroys : q.destroys = p.destroys) (hsignal : q.signal = p.signal) :
    Advance .main p q := by
  refine ⟨mainOnly_of_signal hsignal, ?_, Or.inl hcloses, Or.inl hdestroys⟩
  rw [hbefore]
  exact Nat.zero_le _

theorem mainMove_advance {outcome : Outcome} (hunstarted : p.Unstarted)
    (hmove : p.MainMove q outcome) : Advance .main p q := by
  cases hmove with
  | next hmain hnext => exact mainNext_advance hmain hunstarted hnext
  | call hmain hcalls hq =>
      subst hq
      exact advance_of_kept (by simp [progress, hmain]) rfl rfl rfl
  | «return» hmain hq =>
      subst hq
      exact advance_of_kept (by simp [progress, hmain]) rfl rfl rfl
  | abort hphase hq =>
      subst hq
      exact advance_of_kept (progress_of_not_left hphase) rfl rfl rfl
  | exit hphase hq =>
      subst hq
      exact advance_of_kept (progress_of_not_left hphase) rfl rfl rfl
  | gone hmain hq =>
      subst hq
      exact advance_of_kept (by simp [progress, hmain]) rfl rfl rfl
  | @terminate point hmain hq =>
      subst hq
      have hrecorded := apcupsdTerminate_recorded .main p point
      refine Recorded.advance ⟨hrecorded.1, hrecorded.2, hrecorded.3, hrecorded.4⟩
        (by simp [progress, hmain]) rfl (mainOnly_of_signal ?_)
      exact (apcupsdTerminate_frame .main p point).2.1
  | @cleanup point hmain hq =>
      subst hq
      have hrecorded := teardownStep_recorded .main p point
      refine Recorded.advance ⟨hrecorded.1, hrecorded.2, hrecorded.3, hrecorded.4⟩
        (by simp [progress, hmain]) rfl (mainOnly_of_signal ?_)
      exact (teardownStep_frame .main p point).2.1

/-- Every step is an advance of one thread. -/
theorem advance_step (hunstarted : p.Unstarted) (hstep : p.step label = some q) :
    ∃ mover, Advance mover p q := by
  cases move_of_step hstep with
  | main hmove => exact ⟨.main, mainMove_advance hunstarted hmove⟩
  | sigterm hwait hq =>
      subst hq
      refine ⟨.signal, ?_, ?_, Or.inl rfl, Or.inl rfl⟩
      · intro t ht
        cases t with
        | main => rfl
        | signal => exact absurd rfl ht
      · simp [progress, hwait]
  | @signal point hsignal hq =>
      subst hq
      have hrecorded := apcupsdTerminate_recorded .signal p point
      refine ⟨.signal, Recorded.advance ⟨hrecorded.1, hrecorded.2, hrecorded.3, hrecorded.4⟩
        (by simp [progress, hsignal]) rfl ?_⟩
      intro t ht
      cases t with
      | main => simp [progress, (apcupsdTerminate_frame .signal p point).1]
      | signal => exact absurd rfl ht

theorem mainNext_early {point : MainPoint} (hnext : p.mainNext point = some q)
    (hearly : q.main.early = true) : point.early = true ∧ q.signal = p.signal := by
  cases point with
  | configure | attachDriver => cases hnext; exact ⟨rfl, rfl⟩
  | createFiles =>
      cases hnext
      cases hmode : p.oneShot <;> simp [hmode, MainPc.early, MainPoint.early] at hearly
  | checkRequested =>
      cases hnext
      cases hflag : p.shutdownRequested <;>
        simp [hflag, MainPc.early, MainPoint.early] at hearly
  | doAction second =>
      cases hnext
      cases second <;> cases hearly
  | _ => cases hnext <;> cases hearly

theorem afterSetupDevice_early : p.afterSetupDevice.early = false := by
  unfold afterSetupDevice
  split
  · split_ifs <;> rfl
  · rfl

theorem afterCall_early {ok : Bool} {point : MainPoint}
    (hearly : (p.afterCall ok point).early = true) : point.early = true := by
  cases point with
  | setupCapabilities =>
      cases ok with
      | false => cases hearly
      | true => exact absurd (afterSetupDevice_early.symm.trans hearly) (by simp)
  | hibernatePoll killcount =>
      simp only [afterCall] at hearly
      split_ifs at hearly <;> cases hearly
  | setupOpen | setupSetup | openUps => cases ok <;> cases hearly
  | _ => exact hearly

theorem unstarted_step (hunstarted : p.Unstarted) (hstep : p.step label = some q) :
    q.Unstarted := by
  intro hearly
  cases move_of_step hstep with
  | sigterm hwait hq =>
      subst hq
      exact absurd ((hunstarted hearly).symm.trans hwait) (by simp)
  | @signal point hsignal hq =>
      subst hq
      have hmain := (apcupsdTerminate_frame .signal p point).1
      have hbefore : p.main.early = true := (congrArg MainPc.early hmain).symm.trans hearly
      exact absurd ((hunstarted hbefore).symm.trans hsignal) (by simp)
  | main hmove =>
      cases hmove with
      | @next point hmain hnext =>
          rcases mainNext_early hnext hearly with ⟨hbefore, hsignal⟩
          exact hsignal.trans (hunstarted (by rw [hmain]; exact hbefore))
      | @call point call hmain hcalls hq =>
          subst hq
          exact hunstarted (by rw [hmain]; exact hearly)
      | @«return» point call ok hmain hq =>
          subst hq
          exact hunstarted (by rw [hmain]; exact afterCall_early hearly)
      | gone hmain hq =>
          subst hq
          exact hunstarted hearly
      | abort hphase hq | exit hphase hq | terminate hmain hq | cleanup hmain hq =>
          subst hq
          cases hearly

/-- In every run each thread closes the driver and destroys the structure at most
once. -/
theorem ledger_of_reaches {good : Process → Label → Prop} {oneShot : Option OneShot}
    {dumb : Bool} (hrun : Reaches step good (start oneShot dumb) p) : p.Ledger := by
  have hboth : p.Unstarted ∧ p.Ledger := by
    refine hrun.invariant (P := fun s => s.Unstarted ∧ s.Ledger) ?_ ?_
    · rintro p label q _ hstep ⟨hunstarted, hledger⟩
      obtain ⟨mover, hadvance⟩ := advance_step hunstarted hstep
      exact ⟨unstarted_step hunstarted hstep, ledger_of_advance hadvance hledger⟩
    · exact ⟨fun _ => rfl, List.nodup_nil, nofun, List.nodup_nil, nofun⟩
  exact hboth.2

/-! ## One thread at a time -/

/-- The step takes a thread into {lit}`apcupsd_terminate` or
{lit}`apcupsd_error_cleanup`. -/
def entersTeardown (p : Process) : Label → Bool
  | .sigterm => true
  | .main .abort => true
  | .main .next => p.main = .running .returned
  | _ => false

/-- A thread enters the teardown only while no thread is in it. -/
def SoleTeardown (p : Process) (label : Label) : Prop :=
  p.entersTeardown label = true → p.progress .main = 0 ∧ p.progress .signal = 0

instance : Decidable (SoleTeardown p label) :=
  inferInstanceAs (Decidable (_ → _))

/-- At most one thread is in the teardown. -/
def Exclusive (p : Process) : Prop :=
  p.progress .main = 0 ∨ p.progress .signal = 0

theorem mainNext_progress {point : MainPoint} (hnext : p.mainNext point = some q)
    (hpoint : point ≠ .returned) : q.progress .main = 0 := by
  cases point with
  | returned => exact absurd rfl hpoint
  | _ => cases hnext <;> rfl

theorem exclusive_step (hunstarted : p.Unstarted) (hsole : p.SoleTeardown label)
    (hstep : p.step label = some q) (hexclusive : p.Exclusive) : q.Exclusive := by
  cases move_of_step hstep with
  | sigterm hwait hq =>
      subst hq
      exact Or.inl (hsole rfl).1
  | @signal point hsignal hq =>
      have hentered := (apcupsdTerminate_recorded .signal p point).entered
      have hmain : p.progress .main = 0 := by
        rcases hexclusive with hmain | hzero
        · exact hmain
        · simp only [progress, hsignal] at hzero
          omega
      refine Or.inl (Eq.trans ?_ hmain)
      subst hq
      simp [progress, (apcupsdTerminate_frame .signal p point).1]
  | main hmove =>
      have hsignal : q.progress .signal = p.progress .signal :=
        (mainMove_advance hunstarted hmove).others .signal (by simp)
      cases hmove with
      | @next point hmain hnext =>
          by_cases hreturned : point = .returned
          · have hzero := hsole (by simp [entersTeardown, hmain, hreturned])
            exact Or.inr (hsignal.trans hzero.2)
          · exact Or.inl (mainNext_progress hnext hreturned)
      | call hmain hcalls hq =>
          subst hq
          exact Or.inl rfl
      | «return» hmain hq =>
          subst hq
          exact Or.inl rfl
      | exit hphase hq =>
          subst hq
          exact Or.inl rfl
      | abort hphase hq => exact Or.inr (hsignal.trans (hsole rfl).2)
      | gone hmain hq =>
          subst hq
          exact Or.inl (by simp [progress, hmain])
      | @terminate point hmain hq =>
          have hentered := (apcupsdTerminate_recorded .main p point).entered
          refine Or.inr (hsignal.trans (hexclusive.resolve_left ?_))
          simp only [progress, hmain]
          omega
      | @cleanup point hmain hq =>
          have hentered := (teardownStep_recorded .main p point).entered
          refine Or.inr (hsignal.trans (hexclusive.resolve_left ?_))
          simp only [progress, hmain]
          omega

/-- Threads that have all entered the teardown are one thread. -/
theorem length_le_one {threads : List ThreadId} (hexclusive : p.Exclusive)
    (hnodup : threads.Nodup) (hpast : ∀ t ∈ threads, 0 < p.progress t) :
    threads.length ≤ 1 := by
  match threads with
  | [] => simp
  | [_] => simp
  | a :: b :: rest =>
      have hne : a ≠ b := by
        intro hab
        simp [hab] at hnodup
      have ha := hpast a (by simp)
      have hb := hpast b (by simp)
      rcases hexclusive with hzero | hzero <;> cases a <;> cases b <;> simp_all

/-- The driver call a thread is in. -/
def driverCall (p : Process) : ThreadId → Option DriverCall
  | .main => p.main.driverCall
  | .signal => none

/-- The wait goes on, or ends because the device thread has stopped. -/
def WaitInTime (p : Process) (label : Label) : Prop :=
  ∀ waited ∈ p.waitTest label, p.deviceThreadStopped = true ∨ waited < shutdownWaitMs

instance : Decidable (WaitInTime p label) :=
  inferInstanceAs (Decidable (∀ waited ∈ p.waitTest label, _))

/-- The signal thread's wait has not expired. -/
def Unexpired (p : Process) : Prop :=
  ∀ expired point, p.signal = .terminate (.teardown expired point) → expired = false

theorem unexpired_step (hintime : p.WaitInTime label) (hstep : p.step label = some q)
    (hunexpired : p.Unexpired) : q.Unexpired := by
  intro expired point hpoint
  cases move_of_step hstep with
  | sigterm hwait hq => subst hq; cases hpoint
  | main hmove =>
      rcases mainMove_signal hmove with hsame | hwait
      · exact hunexpired expired point (hsame.symm.trans hpoint)
      · exact absurd (hwait.symm.trans hpoint) (by simp)
  | @signal old hsignal hq =>
      have hresult : (apcupsdTerminate .signal p old).2 = .teardown expired point := by
        subst hq
        exact SignalPc.terminate.inj hpoint
      cases old with
      | request => cases hresult
      | sleep waited => cases hresult
      | teardown old oldPoint =>
          obtain ⟨rfl, _⟩ := TerminatePoint.teardown.inj hresult
          exact hunexpired _ oldPoint hsignal
      | test waited =>
          have htest := hintime waited (by simp [waitTest, hsignal])
          simp only [apcupsdTerminate] at hresult
          split_ifs at hresult with hgoes
          obtain ⟨rfl, _⟩ := TerminatePoint.teardown.inj hresult
          rcases htest with hstopped | hlimit
          · simp [hstopped]
          · simpa [hlimit] using hgoes

/-- A signal thread past {lit}`device_close` has left its wait. -/
theorem left_of_closed (hwaited : p.WaitedOut) (hunexpired : p.Unexpired)
    (hclosed : 2 ≤ p.progress .signal) : p.main.phase = .left := by
  simp only [progress] at hclosed
  split at hclosed
  · rename_i point hsignal
    cases point with
    | teardown expired point =>
        obtain rfl := hunexpired expired point hsignal
        exact hwaited point hsignal
    | _ => simp [TerminatePoint.progress] at hclosed
  · simp at hclosed

/-- What a step must meet for the teardown to run once on a driver nobody uses. -/
structure OrderlyStep (p : Process) (label : Label) : Prop where
  sole : p.SoleTeardown label
  started : p.TestsAfterStartup label
  inTime : p.WaitInTime label

instance : Decidable (OrderlyStep p label) :=
  decidable_of_iff (p.SoleTeardown label ∧ p.TestsAfterStartup label ∧ p.WaitInTime label)
    ⟨fun h => ⟨h.1, h.2.1, h.2.2⟩, fun h => ⟨h.sole, h.started, h.inTime⟩⟩

/-- With one thread at a time in the teardown, {lit}`device_close` and
{lit}`destroy_ups` run at most once. -/
theorem atMostOnce_of_reaches {oneShot : Option OneShot} {dumb : Bool}
    (hrun : Reaches step SoleTeardown (start oneShot dumb) p) :
    p.closes.length ≤ 1 ∧ p.destroys.length ≤ 1 := by
  have hledger := ledger_of_reaches hrun
  have hboth : p.Unstarted ∧ p.Exclusive := by
    refine hrun.invariant (P := fun s => s.Unstarted ∧ s.Exclusive) ?_
      ⟨fun _ => rfl, Or.inl rfl⟩
    rintro p label q hsole hstep ⟨hunstarted, hexclusive⟩
    exact ⟨unstarted_step hunstarted hstep,
      exclusive_step hunstarted hsole hstep hexclusive⟩
  refine ⟨length_le_one hboth.2 hledger.closesNodup ?_,
    length_le_one hboth.2 hledger.destroysNodup ?_⟩
  · intro t ht
    have := hledger.closed t ht
    omega
  · intro t ht
    have := hledger.destroyed t ht
    omega

/-- In an orderly run the driver is closed and the structure destroyed at most once,
and no thread is in a driver call once another thread has closed the driver. -/
theorem teardown_once {oneShot : Option OneShot} {dumb : Bool}
    (hrun : Reaches step OrderlyStep (start oneShot dumb) p) :
    p.closes.length ≤ 1 ∧ p.destroys.length ≤ 1 ∧
      ∀ t ∈ p.closes, ∀ u, u ≠ t → p.driverCall u = none := by
  have honce := atMostOnce_of_reaches (hrun.weaken fun _ _ h => h.sole)
  refine ⟨honce.1, honce.2, ?_⟩
  intro t ht u hne
  cases u with
  | signal => rfl
  | main =>
      obtain rfl : t = .signal := by
        cases t with
        | main => exact absurd rfl hne
        | signal => rfl
      have hunexpired : p.Unexpired :=
        hrun.invariant (P := Unexpired) (fun h hstep => unexpired_step h.inTime hstep) nofun
      have hwaited := waitedOut_of_reaches (hrun.weaken fun _ _ h => h.started)
      have hclosed := (ledger_of_reaches hrun).closed .signal ht
      exact MainPc.driverCall_of_left (left_of_closed hwaited hunexpired hclosed)

/-! ## Examples of runs -/

/-- The orderly shutdown of {lit}`orderlyLabels` up to {lit}`_exit`, the main thread
not moving again after {lit}`do_device`. -/
theorem teardown_once_orderly :
    ∃ p, execute step OrderlyStep (start none false)
        (orderlyLabels ++ [.signal, .signal, .signal, .signal]) = some p ∧
      p.exited = true ∧ p.closes = [.signal] ∧ p.closes.length ≤ 1 := by
  obtain ⟨p, hexec, hexited, hcloses⟩ :
      ∃ p, execute step OrderlyStep (start none false)
          (orderlyLabels ++ [.signal, .signal, .signal, .signal]) = some p ∧
        p.exited = true ∧ p.closes = [.signal] := by
    refine ⟨_, rfl, ?_⟩
    decide +kernel
  exact ⟨p, hexec, hexited, hcloses, (teardown_once (reaches_of_execute hexec)).1⟩

/-- The same shutdown with the main thread moving on: back from {lit}`do_device` it
runs {lit}`apcupsd_terminate` as well, and both threads close the driver. -/
theorem teardown_twice :
    ¬ ∀ (oneShot : Option OneShot) (dumb : Bool) (p : Process),
      Reaches step (fun _ _ => True) (start oneShot dumb) p →
        p.closes.length ≤ 1 ∧ p.destroys.length ≤ 1 ∧
          ∀ t ∈ p.closes, ∀ u, u ≠ t → p.driverCall u = none := by
  intro hclaim
  obtain ⟨p, hexec, hcloses⟩ :
      ∃ p, execute step (fun _ _ => True) (start none false)
          (orderlyLabels ++
            [.main .next, .main .next, .main .next, .main .next, .signal]) = some p ∧
        p.closes = [.signal, .main] := by
    refine ⟨_, rfl, ?_⟩
    decide +kernel
  have honce := (hclaim none false p (reaches_of_execute hexec)).1
  simp [hcloses] at honce

end Process

end Apcupsd
