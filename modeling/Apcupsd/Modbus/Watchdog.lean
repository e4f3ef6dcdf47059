import Mathlib.Data.Nat.Notation
import Apcupsd.Foundations.Execution

/-!
# The watchdog of the USB transfers

{lit}`ModbusUsbComm` sets a deadline before every interrupt transfer and clears it
afterwards.  A second thread looks at the deadline every 100 ms and signals the first one
when it has passed.  The two threads share the deadline and nothing else, so what the
watchdog has found may be over when it acts.

Main results:

- Definition {lit}`WatchedPort.step`: one step of either thread, or of the clock.
- Theorem {lit}`WatchedPort.interruptions_overdue`: in every run, a signal follows a
  deadline that some transfer has set and that has passed.
- Theorem {lit}`WatchedPort.interruptions_justified`: it meets that transfer, if the
  transfer is running when it is found to be late and does not return before the signal.
-/

namespace Apcupsd

/-! ## The two threads -/

/-- {lit}`MS_TO_NS`. -/
def msToNs (ms : ℕ) : ℕ :=
  ms * 1000000

/-- {lit}`MODBUS_WATCHDOG_GRACE_MS`. -/
def modbusWatchdogGraceMs : ℕ := 500

/-- Where the thread is that talks to the UPS.  {lit}`working` is everything but a transfer
with the calls around it; {lit}`arming` has read the clock. -/
inductive IoPoint where
  | working
  | arming (deadline : ℕ)
  | armed (deadline : ℕ)
  | inside (deadline : ℕ)
  | returned (deadline : ℕ)
  | joining
deriving DecidableEq, Repr

/-- Where {lit}`WatchdogThreadMain` is: at the test of its loop, in {lit}`nanosleep`, at the
load of the deadline, at the comparison, or at {lit}`pthread_kill`. -/
inductive WatchdogPoint where
  | absent
  | testing
  | sleeping
  | loading
  | comparing (deadline : ℕ)
  | signalling (deadline : ℕ)
  | finished
deriving DecidableEq, Repr

/-- A call of {lit}`ArmWatchdogDeadline`, with the time at which it read the clock. -/
structure Arming where
  tod : ℕ
  timeoutMs : ℕ
deriving DecidableEq, Repr

/-- The timeout of the transfer and the grace margin. -/
def Arming.deadline (arming : Arming) : ℕ :=
  arming.tod + msToNs arming.timeoutMs + msToNs modbusWatchdogGraceMs

/-- A signal: the deadline that the watchdog had loaded, where it met the other thread, and
the time. -/
structure Interruption where
  deadline : ℕ
  point : IoPoint
  tod : ℕ
deriving DecidableEq, Repr

/-- The signal meets the transfer whose deadline has passed. -/
def Interruption.Justified (interruption : Interruption) : Prop :=
  interruption.point = .inside interruption.deadline ∧ interruption.deadline < interruption.tod

instance (interruption : Interruption) : Decidable interruption.Justified :=
  inferInstanceAs (Decidable (_ ∧ _))

/-- The shared variables, the clock, the two threads, and what they have done. -/
structure WatchedPort where
  tod : ℕ
  watchdogDeadlineNs : ℕ
  watchdogRunning : Bool
  io : IoPoint
  watchdog : WatchdogPoint
  armings : List Arming
  interruptions : List Interruption
deriving DecidableEq, Repr

/-- One step: a statement of the thread that talks to the UPS, one of the watchdog, or time
that passes. -/
inductive WatchLabel where
  | startWatchdog (created : Bool)
  | readTod (timeoutMs : ℕ)
  | storeDeadline
  | enter
  | leave
  | disarm
  | stopWatchdog
  | join
  | test
  | wake
  | load
  | compare
  | signal
  | tick (ns : ℕ)
deriving DecidableEq, Repr

namespace WatchedPort

/-- A port that is not open. -/
def start (tod : ℕ) : WatchedPort where
  tod := tod
  watchdogDeadlineNs := 0
  watchdogRunning := false
  io := .working
  watchdog := .absent
  armings := []
  interruptions := []

/-- {lit}`deadline != 0 && GetTod() > deadline`. -/
def overrun (port : WatchedPort) (deadline : ℕ) : Bool :=
  deadline != 0 && deadline < port.tod

/-- A step, if it is possible. -/
def step (port : WatchedPort) : WatchLabel → Option WatchedPort
  | .startWatchdog created =>
      if port.io = .working ∧ port.watchdog = .absent then
        some
          { port with
            watchdogDeadlineNs := 0
            watchdogRunning := created
            watchdog := if created then .testing else .absent }
      else none
  | .readTod timeoutMs =>
      if port.io = .working then
        let arming : Arming := { tod := port.tod, timeoutMs := timeoutMs }
        some
          { port with
            io := .arming arming.deadline
            armings := port.armings ++ [arming] }
      else none
  | .storeDeadline =>
      match port.io with
      | .arming deadline =>
          some { port with watchdogDeadlineNs := deadline, io := .armed deadline }
      | _ => none
  | .enter =>
      match port.io with
      | .armed deadline => some { port with io := .inside deadline }
      | _ => none
  | .leave =>
      match port.io with
      | .inside deadline => some { port with io := .returned deadline }
      | _ => none
  | .disarm =>
      match port.io with
      | .returned _ => some { port with watchdogDeadlineNs := 0, io := .working }
      | _ => none
  | .stopWatchdog =>
      if port.io = .working then
        some
          (if port.watchdogRunning then { port with watchdogRunning := false, io := .joining }
          else { port with watchdogDeadlineNs := 0 })
      else none
  | .join =>
      if port.io = .joining ∧ port.watchdog = .finished then
        some { port with watchdogDeadlineNs := 0, io := .working, watchdog := .absent }
      else none
  | .test =>
      if port.watchdog = .testing then
        some { port with watchdog := if port.watchdogRunning then .sleeping else .finished }
      else none
  | .wake =>
      if port.watchdog = .sleeping then some { port with watchdog := .loading } else none
  | .load =>
      if port.watchdog = .loading then
        some { port with watchdog := .comparing port.watchdogDeadlineNs }
      else none
  | .compare =>
      match port.watchdog with
      | .comparing deadline =>
          some
            { port with
              watchdog := if port.overrun deadline then .signalling deadline else .testing }
      | _ => none
  | .signal =>
      match port.watchdog with
      | .signalling deadline =>
          some
            { port with
              watchdog := .testing
              interruptions := port.interruptions ++
                [{ deadline := deadline, point := port.io, tod := port.tod }] }
      | _ => none
  | .tick ns => some { port with tod := port.tod + ns }

/-- Every signal so far has met the transfer whose deadline had passed. -/
def Justified (port : WatchedPort) : Prop :=
  ∀ interruption ∈ port.interruptions, interruption.Justified

instance (port : WatchedPort) : Decidable port.Justified :=
  inferInstanceAs (Decidable (∀ interruption ∈ port.interruptions, interruption.Justified))

/-- The condition on a step: a comparison that finds the deadline passed is made while the
transfer is running, and no transfer returns between such a comparison and the signal. -/
def careful (port : WatchedPort) : WatchLabel → Bool
  | .compare =>
      match port.watchdog with
      | .comparing deadline => !port.overrun deadline || port.io == .inside deadline
      | _ => true
  | .leave =>
      match port.watchdog with
      | .signalling _ => false
      | _ => true
  | _ => true

/-! ## What a step does -/

/-- The ways in which a step can go, with what each has found. -/
inductive Move (port : WatchedPort) : WatchLabel → WatchedPort → Prop where
  | created : Move port (.startWatchdog true)
      { port with watchdogDeadlineNs := 0, watchdogRunning := true, watchdog := .testing }
  | notCreated : Move port (.startWatchdog false)
      { port with watchdogDeadlineNs := 0, watchdogRunning := false, watchdog := .absent }
  | readTod (arming : Arming) (hio : port.io = .working) : Move port (.readTod arming.timeoutMs)
      { port with io := .arming arming.deadline, armings := port.armings ++ [arming] }
  | storeDeadline {deadline : ℕ} (hio : port.io = .arming deadline) : Move port .storeDeadline
      { port with watchdogDeadlineNs := deadline, io := .armed deadline }
  | enter {deadline : ℕ} (hio : port.io = .armed deadline) : Move port .enter
      { port with io := .inside deadline }
  | leave {deadline : ℕ} (hio : port.io = .inside deadline) : Move port .leave
      { port with io := .returned deadline }
  | disarm {deadline : ℕ} (hio : port.io = .returned deadline) : Move port .disarm
      { port with watchdogDeadlineNs := 0, io := .working }
  | stopRunning (hio : port.io = .working) : Move port .stopWatchdog
      { port with watchdogRunning := false, io := .joining }
  | stopAbsent (hio : port.io = .working) : Move port .stopWatchdog
      { port with watchdogDeadlineNs := 0 }
  | join : Move port .join
      { port with watchdogDeadlineNs := 0, io := .working, watchdog := .absent }
  | testRunning : Move port .test { port with watchdog := .sleeping }
  | testStopped : Move port .test { port with watchdog := .finished }
  | wake : Move port .wake { port with watchdog := .loading }
  | load : Move port .load { port with watchdog := .comparing port.watchdogDeadlineNs }
  | compareLate {deadline : ℕ} (hwatchdog : port.watchdog = .comparing deadline)
      (hoverrun : port.overrun deadline = true) : Move port .compare
      { port with watchdog := .signalling deadline }
  | compareEarly : Move port .compare { port with watchdog := .testing }
  | signal {deadline : ℕ} (hwatchdog : port.watchdog = .signalling deadline) :
      Move port .signal
      { port with
        watchdog := .testing
        interruptions := port.interruptions ++
          [{ deadline := deadline, point := port.io, tod := port.tod }] }
  | tick (ns : ℕ) : Move port (.tick ns) { port with tod := port.tod + ns }

theorem move_of_step {port next : WatchedPort} {label : WatchLabel}
    (hstep : port.step label = some next) : Move port label next := by
  unfold step at hstep
  cases label with
  | startWatchdog created =>
      dsimp only at hstep
      split at hstep
      · cases hstep
        cases created with
        | true => exact .created
        | false => exact .notCreated
      · cases hstep
  | readTod timeoutMs =>
      dsimp only at hstep
      split at hstep
      · cases hstep
        exact .readTod ⟨port.tod, timeoutMs⟩ ‹_›
      · cases hstep
  | storeDeadline =>
      dsimp only at hstep
      split at hstep
      · cases hstep
        exact .storeDeadline ‹_›
      · cases hstep
  | enter =>
      dsimp only at hstep
      split at hstep
      · cases hstep
        exact .enter ‹_›
      · cases hstep
  | leave =>
      dsimp only at hstep
      split at hstep
      · cases hstep
        exact .leave ‹_›
      · cases hstep
  | disarm =>
      dsimp only at hstep
      split at hstep
      · cases hstep
        exact .disarm ‹_›
      · cases hstep
  | stopWatchdog =>
      dsimp only at hstep
      split_ifs at hstep with hio hrunning
      · cases hstep
        exact .stopRunning hio
      · cases hstep
        exact .stopAbsent hio
  | join =>
      dsimp only at hstep
      split at hstep
      · cases hstep
        exact .join
      · cases hstep
  | test =>
      dsimp only at hstep
      split_ifs at hstep
      · cases hstep
        exact .testRunning
      · cases hstep
        exact .testStopped
  | wake =>
      dsimp only at hstep
      split at hstep
      · cases hstep
        exact .wake
      · cases hstep
  | load =>
      dsimp only at hstep
      split at hstep
      · cases hstep
        exact .load
      · cases hstep
  | compare =>
      dsimp only at hstep
      split at hstep
      · cases hstep
        split_ifs with hoverrun
        · exact .compareLate ‹_› hoverrun
        · exact .compareEarly
      · cases hstep
  | signal =>
      dsimp only at hstep
      split at hstep
      · cases hstep
        exact .signal ‹_›
      · cases hstep
  | tick ns =>
      cases hstep
      exact .tick ns

theorem overrun_iff {port : WatchedPort} {deadline : ℕ} :
    port.overrun deadline = true ↔ deadline ≠ 0 ∧ deadline < port.tod := by
  simp [overrun]

/-! ## What every run keeps -/

/-- The deadline of a transfer. -/
def Armed (port : WatchedPort) (deadline : ℕ) : Prop :=
  ∃ arming ∈ port.armings, arming.deadline = deadline

/-- The deadlines in sight are those of transfers, and a signal is due or has been sent
only after one of them. -/
structure Overdue (port : WatchedPort) : Prop where
  shared : port.watchdogDeadlineNs ≠ 0 → port.Armed port.watchdogDeadlineNs
  arming : ∀ deadline, port.io = .arming deadline → port.Armed deadline
  comparing : ∀ deadline, port.watchdog = .comparing deadline → deadline ≠ 0 →
    port.Armed deadline
  signalling : ∀ deadline, port.watchdog = .signalling deadline →
    port.Armed deadline ∧ deadline < port.tod
  sent : ∀ interruption ∈ port.interruptions,
    port.Armed interruption.deadline ∧ interruption.deadline < interruption.tod

theorem overdue_start (tod : ℕ) : Overdue (start tod) :=
  ⟨fun hne => absurd rfl hne, nofun, nofun, nofun, nofun⟩

theorem Overdue.step {port next : WatchedPort} {label : WatchLabel}
    (hstep : port.step label = some next) (hport : Overdue port) : Overdue next := by
  rcases hport with ⟨hshared, harming, hcomparing, hsignalling, hsent⟩
  cases move_of_step hstep with
  | created | notCreated => exact ⟨fun hne => absurd rfl hne, harming, nofun, nofun, hsent⟩
  | readTod arming hio =>
      have hmore : ∀ deadline, port.Armed deadline →
          ∃ earlier ∈ port.armings ++ [arming], earlier.deadline = deadline := by
        rintro deadline ⟨earlier, hmem, hdeadline⟩
        exact ⟨earlier, List.mem_append_left _ hmem, hdeadline⟩
      refine ⟨fun hne => hmore _ (hshared hne), ?_, ?_, ?_, ?_⟩
      · intro deadline hpoint
        cases hpoint
        exact ⟨arming, List.mem_append_right _ List.mem_cons_self, rfl⟩
      · exact fun deadline hpoint hne => hmore _ (hcomparing deadline hpoint hne)
      · exact fun deadline hpoint => (hsignalling deadline hpoint).imp_left (hmore _)
      · exact fun interruption hmem => (hsent interruption hmem).imp_left (hmore _)
  | storeDeadline hio =>
      exact ⟨fun _ => harming _ hio, nofun, hcomparing, hsignalling, hsent⟩
  | enter _ | leave _ | stopRunning _ =>
      exact ⟨hshared, nofun, hcomparing, hsignalling, hsent⟩
  | disarm _ => exact ⟨fun hne => absurd rfl hne, nofun, hcomparing, hsignalling, hsent⟩
  | stopAbsent _ => exact ⟨fun hne => absurd rfl hne, harming, hcomparing, hsignalling, hsent⟩
  | join => exact ⟨fun hne => absurd rfl hne, nofun, nofun, nofun, hsent⟩
  | testRunning | testStopped | wake | compareEarly =>
      exact ⟨hshared, harming, nofun, nofun, hsent⟩
  | load =>
      refine ⟨hshared, harming, ?_, nofun, hsent⟩
      rintro deadline ⟨⟩ hne
      exact hshared hne
  | compareLate hwatchdog hoverrun =>
      rcases overrun_iff.mp hoverrun with ⟨hne, hlate⟩
      refine ⟨hshared, harming, nofun, ?_, hsent⟩
      rintro deadline ⟨⟩
      exact ⟨hcomparing _ hwatchdog hne, hlate⟩
  | signal hwatchdog =>
      refine ⟨hshared, harming, nofun, nofun, ?_⟩
      intro interruption hmem
      rcases List.mem_append.mp hmem with hold | hnew
      · exact hsent interruption hold
      · rw [List.mem_singleton.mp hnew]
        exact hsignalling _ hwatchdog
  | tick ns =>
      refine ⟨hshared, harming, hcomparing, ?_, hsent⟩
      intro deadline hpoint
      exact (hsignalling deadline hpoint).imp_right (Nat.lt_add_right ns)

/-- In every run a signal follows a deadline that a transfer has set and that has passed. -/
theorem interruptions_overdue {tod : ℕ} {port : WatchedPort}
    (hrun : Reaches WatchedPort.step (fun _ _ => True) (start tod) port) :
    ∀ interruption ∈ port.interruptions,
      ∃ arming ∈ port.armings, interruption.deadline = arming.deadline ∧
        arming.deadline < interruption.tod := by
  have hoverdue : Overdue port :=
    hrun.invariant (fun _ hstep hport => hport.step hstep) (overdue_start tod)
  intro interruption hmem
  rcases hoverdue.sent interruption hmem with ⟨⟨arming, harming, hdeadline⟩, hlate⟩
  exact ⟨arming, harming, hdeadline.symm, hdeadline ▸ hlate⟩

/-! ## Careful runs -/

/-- A signal that is due will meet the transfer that is late. -/
structure Aimed (port : WatchedPort) : Prop where
  signalling : ∀ deadline, port.watchdog = .signalling deadline →
    port.io = .inside deadline ∧ deadline < port.tod
  justified : port.Justified

theorem aimed_start (tod : ℕ) : Aimed (start tod) :=
  ⟨nofun, nofun⟩

/-- While a signal is due, the other thread is inside its transfer and makes no step. -/
theorem Aimed.stays {port : WatchedPort} (hport : Aimed port)
    (hio : ∀ deadline, port.io ≠ .inside deadline) {deadline : ℕ} :
    port.watchdog ≠ .signalling deadline :=
  fun hdue => hio deadline (hport.signalling deadline hdue).1

/-- A step that sends no signal, and neither makes one due nor moves the other thread
away from it. -/
theorem Aimed.keep {port next : WatchedPort} (hport : Aimed port)
    (hsent : next.interruptions = port.interruptions)
    (hdue : ∀ deadline, next.watchdog ≠ .signalling deadline) : Aimed next := by
  refine ⟨fun deadline hpoint => absurd hpoint (hdue deadline), ?_⟩
  unfold Justified
  rw [hsent]
  exact hport.justified

theorem Aimed.step {port next : WatchedPort} {label : WatchLabel}
    (hcareful : port.careful label = true) (hstep : port.step label = some next)
    (hport : Aimed port) : Aimed next := by
  cases move_of_step hstep with
  | created | notCreated | join | testRunning | testStopped | wake | load | compareEarly =>
      exact hport.keep rfl nofun
  | readTod _ hio | storeDeadline hio | enter hio | disarm hio | stopRunning hio
  | stopAbsent hio =>
      exact hport.keep rfl fun _ => hport.stays fun _ => by simp [hio]
  | leave hio =>
      refine hport.keep rfl fun deadline hdue => ?_
      have hdue : port.watchdog = .signalling deadline := hdue
      rw [careful, hdue] at hcareful
      cases hcareful
  | compareLate hwatchdog hoverrun =>
      refine ⟨?_, hport.justified⟩
      rintro deadline ⟨⟩
      rw [careful, hwatchdog] at hcareful
      dsimp only at hcareful
      rw [hoverrun] at hcareful
      exact ⟨by simpa using hcareful, (overrun_iff.mp hoverrun).2⟩
  | signal hwatchdog =>
      refine ⟨nofun, fun interruption hmem => ?_⟩
      rcases List.mem_append.mp hmem with hold | hnew
      · exact hport.justified interruption hold
      · rw [List.mem_singleton.mp hnew]
        exact hport.signalling _ hwatchdog
  | tick ns =>
      refine ⟨fun deadline hpoint => ?_, hport.justified⟩
      exact (hport.signalling deadline hpoint).imp_right (Nat.lt_add_right ns)

/-- In a run whose steps are careful every signal meets the transfer whose deadline has
passed. -/
theorem interruptions_justified {tod : ℕ} {port : WatchedPort}
    (hrun : Reaches WatchedPort.step (fun port label => port.careful label = true) (start tod)
      port) : port.Justified := by
  have haimed : Aimed port :=
    hrun.invariant (fun hcareful hstep hport => hport.step hcareful hstep) (aimed_start tod)
  exact haimed.justified

/-! ## Examples of runs -/

/-- A transfer of one second is armed at time 0, and the watchdog finds it late after
1.6 seconds. -/
def foundLate : List WatchLabel :=
  [.startWatchdog true, .readTod 1000, .storeDeadline, .enter, .test, .tick 1600000000, .wake,
    .load, .compare]

/-- The transfer returns before the signal, and the next one is interrupted at its start. -/
theorem interruptions_justified_nextTransfer :
    ¬ ∀ port, Reaches WatchedPort.step (fun _ _ => True) (start 0) port → port.Justified := by
  intro hall
  have hfound : ((execute WatchedPort.step (fun _ _ => True) (start 0)
      (foundLate ++ [.leave, .disarm, .readTod 1000, .storeDeadline, .enter, .signal])).map
        fun port => decide port.Justified) = some false := by
    decide +kernel
  rcases Option.map_eq_some_iff.mp hfound with ⟨port, hexec, hjustified⟩
  exact of_decide_eq_false hjustified (hall port (reaches_of_execute hexec))

/-- The transfer hangs until the signal comes. -/
theorem interruptions_justified_hangs :
    ∃ port, Reaches WatchedPort.step (fun port label => port.careful label = true) (start 0)
        port ∧
      port.interruptions = [⟨1500000000, .inside 1500000000, 1600000000⟩] ∧
      port.Justified := by
  have hfound : ((execute WatchedPort.step (fun port label => port.careful label = true)
      (start 0) (foundLate ++ [.signal, .leave, .disarm])).map WatchedPort.interruptions) =
      some [⟨1500000000, .inside 1500000000, 1600000000⟩] := by
    decide +kernel
  rcases Option.map_eq_some_iff.mp hfound with ⟨port, hexec, hsent⟩
  have hrun := reaches_of_execute hexec
  exact ⟨port, hrun, hsent, interruptions_justified hrun⟩

end WatchedPort

end Apcupsd
