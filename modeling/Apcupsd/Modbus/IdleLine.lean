import Mathlib.Order.Monotone.Basic
import Apcupsd.Modbus.Usb

/-!
# Waiting for a quiet line

{lit}`ModbusUsbComm::WaitIdle` waits until the line to the UPS has been silent for
{lit}`MODBUS_INTERFRAME_TIMEOUT_MS`.  Its loop is bounded by the idle target, which only
MODBUS reports move, and not by the clock.

Main results:

- Theorem {lit}`waitIdle_silent`: when {lit}`WaitIdle` returns true, the line has been
  silent that long.
- Theorem {lit}`waitIdleLoop_late`: on a line that is never silent only a late MODBUS
  report ends the loop.
- Theorem {lit}`givesUpInTime_iff`: when {lit}`WaitIdle` gives up in time on such a line.
-/

namespace Apcupsd

/-! ## Recording the reads -/

section Recording

variable {W : Type}

/-- The same port, with a record of the reads and the times at which they returned, latest
first. -/
def HidPort.recorded (port : HidPort W) : HidPort (W × List (HidRead × ℕ)) where
  interruptRead ms r :=
    let result := port.interruptRead ms r.1
    (result.1, result.2, (result.1, port.gettimeofday result.2) :: r.2)
  interruptWrite rpt r :=
    let result := port.interruptWrite rpt r.1
    (result.1, result.2, r.2)
  gettimeofday r := port.gettimeofday r.1

/-- The clock never runs backwards, and a read that reports a timeout has lasted at least
the time asked for. -/
structure HidPort.Timed (port : HidPort W) : Prop where
  monotone : ∀ ms w, port.gettimeofday w ≤ port.gettimeofday (port.interruptRead ms w).2
  timedOut : ∀ ms w, (port.interruptRead ms w).1 = .timedOut →
    port.gettimeofday w + ms * 1000 ≤ port.gettimeofday (port.interruptRead ms w).2

end Recording

namespace ModbusUsbComm

section Silence

variable {W : Type} {usb : ModbusUsbComm} {port : HidPort W}

/-- The time that the next read is given. -/
def remainMs (target now : ℕ) : ℕ :=
  if now < target then (target - now + 999999) / 1000000 else 1

/-- The silence between two frames, in nanoseconds. -/
def silenceNs : ℕ := modbusInterframeTimeoutMs * 1000000

/-- The time is rounded up, so the target is passed when the read times out. -/
theorem le_add_remainMs (target now : ℕ) : target ≤ now + remainMs target now * 1000000 := by
  unfold remainMs
  split_ifs <;> omega

theorem waitIdleLoop_succ (exittime fuel target now : ℕ) (w : W) :
    waitIdleLoop usb port exittime (fuel + 1) target now w =
      if target ≤ exittime then
        match port.interruptRead (remainMs target now) w with
        | (.timedOut, w) => some (true, w)
        | (.failed, w) => some (false, w)
        | (.interrupted, w) => waitIdleLoop usb port exittime fuel target (getTod port w) w
        | (.report rpt, w) =>
            waitIdleLoop usb port exittime fuel
              (if rpt.getD 0 0 = usb.rxrpt then getTod port w + silenceNs else target)
              (getTod port w) w
      else some (false, w) := by
  rw [waitIdleLoop]
  rfl

theorem interruptRead_recorded (ms : ℕ) (r : W × List (HidRead × ℕ)) :
    port.recorded.interruptRead ms r =
      ((port.interruptRead ms r.1).1, (port.interruptRead ms r.1).2,
        ((port.interruptRead ms r.1).1, port.gettimeofday (port.interruptRead ms r.1).2) :: r.2) :=
  rfl

theorem waitIdleLoop_recorded (exittime fuel target now : ℕ) (r : W × List (HidRead × ℕ)) :
    (waitIdleLoop usb port.recorded exittime fuel target now r).map
        (fun result => (result.1, result.2.1)) =
      waitIdleLoop usb port exittime fuel target now r.1 := by
  induction fuel generalizing target now r with
  | zero => rfl
  | succ fuel ih =>
      rw [waitIdleLoop_succ, waitIdleLoop_succ, interruptRead_recorded]
      split_ifs with hidle
      · rcases port.interruptRead (remainMs target now) r.1 with ⟨rpt | - | - | -, w⟩
        · exact ih _ _ (w, _)
        · rfl
        · exact ih _ _ (w, _)
        · rfl
      · rfl

/-- A recorded {lit}`WaitIdle` is {lit}`WaitIdle`, with a record. -/
theorem waitIdle_recorded (fuel : ℕ) (r : W × List (HidRead × ℕ)) :
    (waitIdle usb port.recorded fuel r).map (fun result => (result.1, result.2.1)) =
      waitIdle usb port fuel r.1 :=
  waitIdleLoop_recorded _ _ _ _ r

/-- The reads of a {lit}`WaitIdle`, latest first. -/
def waitIdleReads (usb : ModbusUsbComm) (port : HidPort W) (fuel : ℕ) (w : W) :
    List (HidRead × ℕ) :=
  match waitIdle usb port.recorded fuel (w, []) with
  | some (_, r) => r.2
  | none => []

/-- The times that the silence has to follow: the start of the call, and the arrivals of
MODBUS reports. -/
def Sounds (usb : ModbusUsbComm) (start : ℕ) (reads : List (HidRead × ℕ)) (time : ℕ) : Prop :=
  time = start ∨ ∃ rpt, rpt.getD 0 0 = usb.rxrpt ∧ (.report rpt, time) ∈ reads

/-- All sounds are over, and the target is one inter-frame timeout behind the last of
them. -/
def Awaits (usb : ModbusUsbComm) (port : HidPort W) (start target : ℕ)
    (r : W × List (HidRead × ℕ)) : Prop :=
  ∀ time, Sounds usb start r.2 time →
    time ≤ port.gettimeofday r.1 ∧
      time * 1000 + silenceNs ≤ target

theorem sounds_cons {start time : ℕ} {reads : List (HidRead × ℕ)} {read : HidRead × ℕ}
    (hsounds : Sounds usb start (read :: reads) time) :
    Sounds usb start reads time ∨ ∃ rpt, rpt.getD 0 0 = usb.rxrpt ∧ (.report rpt, time) = read := by
  rcases hsounds with hstart | ⟨rpt, hid, hmem⟩
  · exact Or.inl (Or.inl hstart)
  · rcases List.mem_cons.mp hmem with hread | hmem
    · exact Or.inr ⟨rpt, hid, hread⟩
    · exact Or.inl (Or.inr ⟨rpt, hid, hmem⟩)

/-- A read that brings no MODBUS report leaves the target where it is. -/
theorem Awaits.pass {start target : ℕ} {w w' : W} {reads : List (HidRead × ℕ)} {read : HidRead}
    (hawaits : Awaits usb port start target (w, reads))
    (hclock : port.gettimeofday w ≤ port.gettimeofday w')
    (hread : ∀ rpt, rpt.getD 0 0 = usb.rxrpt → read ≠ .report rpt) :
    Awaits usb port start target (w', (read, port.gettimeofday w') :: reads) := by
  intro time hsounds
  rcases sounds_cons hsounds with hsounds | ⟨rpt, hid, hsame⟩
  · obtain ⟨htime, htarget⟩ := hawaits time hsounds
    exact ⟨htime.trans hclock, htarget⟩
  · exact absurd (Prod.mk.inj hsame).1.symm (hread rpt hid)

/-- A MODBUS report moves the target behind itself. -/
theorem Awaits.reset {start target : ℕ} {w w' : W} {reads : List (HidRead × ℕ)} {read : HidRead}
    (hawaits : Awaits usb port start target (w, reads))
    (hclock : port.gettimeofday w ≤ port.gettimeofday w') :
    Awaits usb port start (getTod port w' + silenceNs)
      (w', (read, port.gettimeofday w') :: reads) := by
  intro time hsounds
  have htime : time ≤ port.gettimeofday w' := by
    rcases sounds_cons hsounds with hsounds | ⟨rpt, -, hsame⟩
    · exact (hawaits time hsounds).1.trans hclock
    · exact (Prod.mk.inj hsame).2.le
  refine ⟨htime, ?_⟩
  unfold getTod
  omega

/-- The loop returns true only behind its target. -/
theorem waitIdleLoop_silent (hport : port.Timed) {start exittime fuel target now : ℕ}
    {r r' : W × List (HidRead × ℕ)} (hawaits : Awaits usb port start target r)
    (hnow : now ≤ getTod port r.1)
    (hrun : waitIdleLoop usb port.recorded exittime fuel target now r = some (true, r')) :
    ∃ target', Awaits usb port start target' r' ∧ target' ≤ getTod port r'.1 := by
  induction fuel generalizing target now r with
  | zero => cases hrun
  | succ fuel ih =>
      rw [waitIdleLoop_succ, interruptRead_recorded] at hrun
      by_cases hidle : target ≤ exittime
      · rw [if_pos hidle] at hrun
        have hclock := hport.monotone (remainMs target now) r.1
        have htimedOut := hport.timedOut (remainMs target now) r.1
        rcases hread : port.interruptRead (remainMs target now) r.1 with ⟨rpt | - | - | -, w⟩
        · rw [hread] at hclock
          simp only [hread] at hrun
          by_cases hid : rpt.getD 0 0 = usb.rxrpt
          · rw [if_pos hid] at hrun
            exact ih (hawaits.reset hclock) le_rfl hrun
          · rw [if_neg hid] at hrun
            refine ih (hawaits.pass hclock ?_) le_rfl hrun
            rintro rpt' hid' hsame
            cases hsame
            exact hid hid'
        · rw [hread] at hclock htimedOut
          simp only [hread, Option.some.injEq, Prod.mk.injEq, true_and] at hrun
          subst hrun
          refine ⟨target, hawaits.pass hclock (by simp), ?_⟩
          have hlasted := htimedOut rfl
          have hpassed := le_add_remainMs target now
          unfold getTod at hnow ⊢
          dsimp only at hlasted ⊢
          omega
        · rw [hread] at hclock
          simp only [hread] at hrun
          exact ih (hawaits.pass hclock (by simp)) le_rfl hrun
        · simp [hread] at hrun
      · simp [if_neg hidle] at hrun

/-- When {lit}`WaitIdle` returns true, no MODBUS report has arrived for
{lit}`MODBUS_INTERFRAME_TIMEOUT_MS`, and the call has lasted as long.  Other reports and
interrupted reads count for nothing. -/
theorem waitIdle_silent (hport : port.Timed) {fuel : ℕ} {w w' : W}
    (hrun : waitIdle usb port fuel w = some (true, w')) :
    port.gettimeofday w + modbusInterframeTimeoutMs * 1000 ≤ port.gettimeofday w' ∧
      ∀ rpt time, (.report rpt, time) ∈ usb.waitIdleReads port fuel w →
        rpt.getD 0 0 = usb.rxrpt →
          time + modbusInterframeTimeoutMs * 1000 ≤ port.gettimeofday w' := by
  have hrecorded := @waitIdle_recorded W usb port fuel (w, [])
  rw [hrun] at hrecorded
  obtain ⟨⟨result, r'⟩, hloop, hresult⟩ := Option.map_eq_some_iff.mp hrecorded
  obtain ⟨hresult, hw⟩ := Prod.mk.inj hresult
  dsimp only at hresult hw
  subst hresult hw
  have hstart : Awaits usb port (port.gettimeofday w)
      (getTod port w + silenceNs) (w, []) := by
    rintro time (rfl | ⟨rpt, -, hmem⟩)
    · exact ⟨le_rfl, le_rfl⟩
    · cases hmem
  obtain ⟨target, hawaits, htarget⟩ := waitIdleLoop_silent hport hstart le_rfl hloop
  have hreads : usb.waitIdleReads port fuel w = r'.2 := by
    rw [waitIdleReads, hloop]
  have hsilent : ∀ time, Sounds usb (port.gettimeofday w) r'.2 time →
      time + modbusInterframeTimeoutMs * 1000 ≤ port.gettimeofday r'.1 := by
    intro time hsounds
    have hbound := (hawaits time hsounds).2.trans htarget
    unfold getTod silenceNs at hbound
    simp only [modbusInterframeTimeoutMs] at hbound ⊢
    omega
  constructor
  · exact hsilent (port.gettimeofday w) (Or.inl rfl)
  · intro rpt time hmem hid
    rw [hreads] at hmem
    exact hsilent time (Or.inr ⟨rpt, hid, hmem⟩)

end Silence

/-- The clock of a line moves only forward, and a timeout is waited for. -/
theorem timed_of_readsLine {port : HidPort (Line (List UInt8))} (hport : UsbLine.ReadsLine port) :
    port.Timed := by
  refine ⟨fun ms line => ?_, fun ms line htimedOut => ?_⟩
  · rw [hport.interruptRead, hport.gettimeofday]
    unfold UsbLine.interruptRead
    split
    · exact Nat.le_add_right _ _
    · split_ifs
      · exact le_max_left _ _
      · exact Nat.le_add_right _ _
  · rw [hport.interruptRead] at htimedOut ⊢
    rw [hport.gettimeofday]
    unfold UsbLine.interruptRead at htimedOut ⊢
    split at htimedOut
    · exact le_rfl
    · split_ifs at htimedOut ⊢
      exact le_rfl

/-- A port on which reports arrive, whatever is written. -/
def listening : HidPort (Line (List UInt8)) where
  interruptRead := UsbLine.interruptRead
  interruptWrite rpt line := (rpt.length, line)
  gettimeofday := Line.clock

/-- A line on which a MODBUS report arrives after 100 ms and another report after 300 ms. -/
def twoReports : Line (List UInt8) where
  clock := 0
  arriving := [(100000, [0x89]), (300000, [0x07])]
  state := ⟨0, []⟩

/-- {lit}`WaitIdle` then returns after 600 ms. -/
theorem waitIdle_silent_twoReports : ∃ line : Line (List UInt8),
    waitIdle ⟨0x89, 0x90⟩ listening 3 twoReports = some (true, line) ∧ line.clock = 600000 ∧
      (HidRead.report [0x89], 100000) ∈ waitIdleReads ⟨0x89, 0x90⟩ listening 3 twoReports ∧
        100000 + modbusInterframeTimeoutMs * 1000 ≤ line.clock := by
  have hresult : (waitIdle ⟨0x89, 0x90⟩ listening 3 twoReports).map
      (fun result => (result.1, result.2.clock)) = some (true, 600000) := by decide +kernel
  obtain ⟨⟨result, line⟩, hrun, hout⟩ := Option.map_eq_some_iff.mp hresult
  obtain ⟨rfl, hclock⟩ := Prod.mk.inj hout
  have hmem : (HidRead.report [0x89], 100000) ∈
      waitIdleReads ⟨0x89, 0x90⟩ listening 3 twoReports := by decide +kernel
  have hsilent := waitIdle_silent (@timed_of_readsLine listening ⟨rfl, rfl⟩) hrun
  exact ⟨line, hrun, hclock, hmem, hsilent.2 [0x89] 100000 hmem (by decide)⟩

/-! ## A line that is never silent -/

/-- An endless stream of reports and interruptions; {lit}`clock i` is the time at which the
{lit}`i`-th read starts, and each read takes some time. -/
structure BusyLine where
  read : ℕ → HidRead
  clock : ℕ → ℕ
  busy : ∀ i, (∃ rpt, rpt ≠ [] ∧ read i = .report rpt) ∨ read i = .interrupted
  advances : StrictMono clock

namespace BusyLine

/-- The line as a port, whose world is the number of the next read. -/
def port (line : BusyLine) : HidPort ℕ where
  interruptRead _ i := (line.read i, i + 1)
  interruptWrite rpt i := (rpt.length, i)
  gettimeofday := line.clock

variable (line : BusyLine) (usb : ModbusUsbComm)

/-- {lit}`WaitIdle` returns, and no read is started after
{lit}`MODBUS_IDLE_WAIT_TIMEOUT_MS`. -/
def GivesUpInTime : Prop :=
  ∃ fuel result reads, usb.waitIdle line.port fuel 0 = some (result, reads) ∧
    ∀ i < reads, line.clock i ≤ line.clock 0 + modbusIdleWaitTimeoutMs * 1000

/-- The {lit}`i`-th read brings a MODBUS report after which no silence fits into the time
that is left. -/
def Late (i : ℕ) : Prop :=
  ∃ rpt, line.read i = .report rpt ∧ rpt.getD 0 0 = usb.rxrpt ∧
    line.clock 0 + modbusIdleWaitTimeoutMs * 1000 <
      line.clock (i + 1) + modbusInterframeTimeoutMs * 1000

variable {line : BusyLine} {usb : ModbusUsbComm}

/-- The time at which {lit}`WaitIdle` means to give up, in nanoseconds. -/
def exittime (line : BusyLine) : ℕ :=
  getTod line.port 0 + modbusIdleWaitTimeoutMs * 1000000

theorem late_iff {i : ℕ} : line.Late usb i ↔ ∃ rpt, line.read i = .report rpt ∧
    rpt.getD 0 0 = usb.rxrpt ∧ line.exittime < getTod line.port (i + 1) + silenceNs := by
  have htimes : line.clock 0 + modbusIdleWaitTimeoutMs * 1000 <
      line.clock (i + 1) + modbusInterframeTimeoutMs * 1000 ↔
        line.exittime < getTod line.port (i + 1) + silenceNs := by
    have hclock : line.port.gettimeofday = line.clock := rfl
    unfold exittime silenceNs getTod
    rw [hclock]
    generalize line.clock 0 = start
    generalize line.clock (i + 1) = arrived
    unfold modbusIdleWaitTimeoutMs modbusInterframeTimeoutMs
    omega
  unfold Late
  rw [htimes]

/-- A read that is not late leaves the target before the time of giving up. -/
theorem waitIdleLoop_pass {i target now : ℕ} (hlate : ¬ line.Late usb i)
    (htarget : target ≤ line.exittime) : ∃ target' now', target' ≤ line.exittime ∧
      ∀ fuel, waitIdleLoop usb line.port line.exittime (fuel + 1) target now i =
        waitIdleLoop usb line.port line.exittime fuel target' now' (i + 1) := by
  have hread : ∀ ms, line.port.interruptRead ms i = (line.read i, i + 1) := fun _ => rfl
  rcases line.busy i with ⟨rpt, -, hreport⟩ | hinterrupted
  · by_cases hid : rpt.getD 0 0 = usb.rxrpt
    · refine ⟨getTod line.port (i + 1) + silenceNs, getTod line.port (i + 1), ?_, ?_⟩
      · by_contra hover
        exact hlate (late_iff.mpr ⟨rpt, hreport, hid, not_le.mp hover⟩)
      · intro fuel
        rw [waitIdleLoop_succ, if_pos htarget, hread, hreport]
        simp only [if_pos hid]
    · refine ⟨target, getTod line.port (i + 1), htarget, fun fuel => ?_⟩
      rw [waitIdleLoop_succ, if_pos htarget, hread, hreport]
      simp only [if_neg hid]
  · refine ⟨target, getTod line.port (i + 1), htarget, fun fuel => ?_⟩
    rw [waitIdleLoop_succ, if_pos htarget, hread, hinterrupted]

/-- A late read ends the loop. -/
theorem waitIdleLoop_of_late {i target now : ℕ} (hlate : line.Late usb i)
    (htarget : target ≤ line.exittime) (fuel : ℕ) :
    waitIdleLoop usb line.port line.exittime (fuel + 2) target now i = some (false, i + 1) := by
  obtain ⟨rpt, hreport, hid, hover⟩ := late_iff.mp hlate
  have hread : ∀ ms, line.port.interruptRead ms i = (line.read i, i + 1) := fun _ => rfl
  rw [waitIdleLoop_succ, if_pos htarget, hread, hreport]
  simp only [if_pos hid]
  rw [waitIdleLoop_succ, if_neg (not_le.mpr hover)]

/-- Nothing else ends it. -/
theorem waitIdleLoop_late {fuel i target now reads : ℕ} {result : Bool}
    (htarget : target ≤ line.exittime)
    (hrun : waitIdleLoop usb line.port line.exittime fuel target now i = some (result, reads)) :
    ∃ j, line.Late usb j ∧ reads = j + 1 := by
  induction fuel generalizing i target now with
  | zero => cases hrun
  | succ fuel ih =>
      by_cases hlate : line.Late usb i
      · rcases fuel with - | fuel
        · obtain ⟨rpt, hreport, hid, -⟩ := late_iff.mp hlate
          have hread : ∀ ms, line.port.interruptRead ms i = (line.read i, i + 1) := fun _ => rfl
          rw [waitIdleLoop_succ, if_pos htarget, hread, hreport] at hrun
          cases hrun
        · rw [waitIdleLoop_of_late hlate htarget] at hrun
          cases hrun
          exact ⟨i, hlate, rfl⟩
      · obtain ⟨target', now', htarget', hstep⟩ := @waitIdleLoop_pass line usb _ _ now hlate htarget
        rw [hstep] at hrun
        exact ih htarget' hrun

/-- The loop runs up to the first late read. -/
theorem waitIdleLoop_first {j i target now : ℕ} (hlate : line.Late usb j)
    (hfirst : ∀ m < j, ¬ line.Late usb m) (hij : i ≤ j) (htarget : target ≤ line.exittime) :
    ∃ fuel, waitIdleLoop usb line.port line.exittime fuel target now i = some (false, j + 1) := by
  induction hdistance : j - i generalizing i target now with
  | zero =>
      obtain rfl : i = j := by omega
      exact ⟨2, waitIdleLoop_of_late hlate htarget 0⟩
  | succ distance ih =>
      obtain ⟨target', now', htarget', hstep⟩ :=
        @waitIdleLoop_pass line usb _ _ now (hfirst i (by omega)) htarget
      obtain ⟨fuel, hrun⟩ := @ih (i + 1) target' now' (by omega) htarget' (by omega)
      exact ⟨fuel + 1, (hstep fuel).trans hrun⟩

theorem target_le_exittime : getTod line.port 0 + silenceNs ≤ line.exittime := by
  unfold exittime silenceNs
  exact Nat.add_le_add_left (by decide) _

theorem waitIdle_eq (fuel : ℕ) : usb.waitIdle line.port fuel 0 =
    waitIdleLoop usb line.port line.exittime fuel (getTod line.port 0 + silenceNs)
      (getTod line.port 0) 0 := rfl

/-- A call that gives up in time has met a late MODBUS report in time. -/
theorem GivesUpInTime.exists_late (hgives : line.GivesUpInTime usb) :
    ∃ i, line.Late usb i ∧ line.clock i ≤ line.clock 0 + modbusIdleWaitTimeoutMs * 1000 := by
  obtain ⟨fuel, result, reads, hrun, htimes⟩ := hgives
  rw [waitIdle_eq] at hrun
  obtain ⟨i, hlate, rfl⟩ := waitIdleLoop_late target_le_exittime hrun
  exact ⟨i, hlate, htimes i (Nat.lt_succ_self i)⟩

open Classical in
/-- On a line that is never silent, {lit}`WaitIdle` gives up in time if and only if a read
that starts in time brings a MODBUS report after which no silence fits into the time that
is left. -/
theorem givesUpInTime_iff (line : BusyLine) (usb : ModbusUsbComm) :
    line.GivesUpInTime usb ↔ ∃ i, line.Late usb i ∧
      line.clock i ≤ line.clock 0 + modbusIdleWaitTimeoutMs * 1000 := by
  constructor
  · exact GivesUpInTime.exists_late
  · rintro ⟨i, hlate, htime⟩
    have hexists : ∃ j, line.Late usb j := ⟨i, hlate⟩
    obtain ⟨fuel, hrun⟩ := @waitIdleLoop_first line usb _ _ _ (getTod line.port 0)
      (Nat.find_spec hexists) (fun m hm => Nat.find_min hexists hm) (Nat.zero_le _)
      target_le_exittime
    refine ⟨fuel, false, Nat.find hexists + 1, hrun, fun m hm => ?_⟩
    have hfirst : Nat.find hexists ≤ i := Nat.find_min' hexists hlate
    exact (line.advances.monotone (by omega)).trans htime

/-- Reports that are not MODBUS arrive every 500 microseconds for ever. -/
def chatter : BusyLine where
  read _ := .report [0x07]
  clock i := i * 500
  busy _ := Or.inl ⟨[0x07], by simp, rfl⟩
  advances := fun i j hij => by dsimp only; omega

/-- Then {lit}`WaitIdle` never returns. -/
theorem chatter_not_givesUpInTime : ¬ chatter.GivesUpInTime ⟨0x89, 0x90⟩ := by
  intro hgives
  obtain ⟨i, ⟨rpt, hreport, hid, -⟩, -⟩ := hgives.exists_late
  cases hreport
  exact absurd hid (by decide)

end BusyLine

end ModbusUsbComm

end Apcupsd
