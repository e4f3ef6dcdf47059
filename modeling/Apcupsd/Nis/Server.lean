import Apcupsd.Eventfile.OutputEvents
import Apcupsd.Foundations.Execution
import Apcupsd.Nis.SelfConsistent

/-!
# The threads of the information server

Every connection has a thread of its own, which runs {lit}`handle_client_request` from
{lit}`apcnis.c`.  The threads share the buffer of {lit}`status_write`, under a mutex, and with
the device thread they share the record of the UPS, under its lock.  A thread moves by one
statement on what is shared, or by one call of {lit}`net_send`.

Main results:

- Definition {lit}`NisServer.step`: the moves of the threads.
- Theorem {lit}`NisServer.step_frame`: what a move leaves alone.
- Theorem {lit}`Locked.step`: who holds the mutex and who holds the lock.
-/

namespace Apcupsd

open Eventfile

/-! ## The requests -/

/-- A request, with what the calls find that are made for it: the time and the names, the events
file if it can be opened, and whether there is memory for its lines. -/
structure ServerCall where
  line : List Char
  host : Host
  eventsFile : Option (List Char)
  allocated : Bool

def ServerCall.isStatus (call : ServerCall) : Bool :=
  call.line = "status".toList

def ServerCall.isEvents (call : ServerCall) : Bool :=
  call.line = "events".toList

/-- {lit}`errmsg`, with its terminator. -/
def errmsg : List Char :=
  "Invalid command\n".toList ++ [CStrings.nul]

/-- {lit}`notavail`, with its terminator. -/
def notavail : List Char :=
  "Not available\n".toList ++ [CStrings.nul]

/-- The records that {lit}`output_events` sends if no call fails. -/
def eventRecords (file : List Char) : List (List Char) :=
  let collected := collectEvents file
  let sent := sendFrom collected.le (fun _ => 1) collected.count 0
    (Fin.ofNat nle collected.first)
  sent.1.filterMap fun message => match message with
    | .record text => some text
    | .eof => none

/-! ## The state -/

/-- The next statement of a thread. -/
inductive ServerPc where
  | receive
  | lockBuffer (host : Host)
  | clearBuffer (host : Host)
  | lockUps (host : Host)
  | stamp (host : Host)
  | write (host : Host) (row : ℕ)
  | writeEnd (host : Host)
  | sendHeader
  | sendRecord (n : ℕ)
  | sendEnd
  | unlockBuffer (good : Bool)
  | events (left : List (List Char))
  | eventsEnd (good : Bool)
  | answer (message : List Char) (closes : Bool)
  | answerEnd (closes : Bool)
  | closed

/-- A thread, with the requests that it has received and the messages that it has sent; the
empty message ends a reply. -/
structure ServerThread where
  pc : ServerPc
  received : List ServerCall
  sent : List (List Char)

/-- Who can hold the lock of the record. -/
inductive UpsHolder where
  | device
  | server (i : ℕ)
deriving DecidableEq, Repr

/-- The buffer of {lit}`status_write` with its mutex, the record with its lock, and the threads
by their connections. -/
structure NisServer where
  buffer : StatusServer
  mutex : Option ℕ
  ups : StatusUps
  upsLock : Option UpsHolder
  thread : ℕ → ServerThread

namespace NisServer

def start (ups : StatusUps) : NisServer where
  buffer := statusOpen
  mutex := none
  ups := ups
  upsLock := none
  thread := fun _ => { pc := .receive, received := [], sent := [] }

def setThread (s : NisServer) (i : ℕ) (thread : ServerThread) : NisServer :=
  { s with thread := Function.update s.thread i thread }

/-- The thread goes on to a statement. -/
def goOn (s : NisServer) (i : ℕ) (pc : ServerPc) : NisServer :=
  s.setThread i { s.thread i with pc := pc }

/-- A call of {lit}`net_send`. -/
def send (s : NisServer) (i : ℕ) (message : List Char) (ok : Bool) (pc : ServerPc) : NisServer :=
  s.setThread i
    { s.thread i with
      pc := pc
      sent := if ok then (s.thread i).sent ++ [message] else (s.thread i).sent }

end NisServer

/-! ## The moves -/

/-- {lit}`output_status`: the record gets a time if the driver has not given it one. -/
def StatusUps.stamped (ups : StatusUps) (host : Host) : StatusUps :=
  { ups with pollTime := if ups.pollTime = 0 then host.time else ups.pollTime }

/-- The rows that are written while the record is locked. -/
def lockedRows (host : Host) (ups : StatusUps) : List (String × Option (List Char)) :=
  (statusRows host ups).dropLast

/-- The row that is written after that. -/
def endRow (host : Host) : String × Option (List Char) :=
  ("END APC  : ", some (formatDate host host.time))

/-- {lit}`s_write` for a row, if it is written at all. -/
def writeRow (buffer : StatusServer) (row : String × Option (List Char)) : StatusServer :=
  match row.2 with
  | some value => statusWrite buffer (recordText row.1 value)
  | none => buffer

/-- What {lit}`handle_client_request` does with a request. -/
def ServerCall.handle (call : ServerCall) : ServerPc :=
  if call.isStatus then .lockBuffer call.host
  else if call.isEvents then
    match call.eventsFile with
    | none => .answer notavail false
    | some file => if call.allocated then .events (eventRecords file) else .eventsEnd false
  else .answer errmsg false

/-- A move: the device thread locks the record, writes to it and unlocks it; a server thread
receives a request, finds its connection closed, or goes on, with what {lit}`net_send` says if
it is called. -/
inductive ServerLabel where
  | deviceLock
  | deviceWrite (ups : StatusUps)
  | deviceUnlock
  | receive (i : ℕ) (call : ServerCall)
  | hangUp (i : ℕ)
  | next (i : ℕ) (ok : Bool)

namespace NisServer

/-- The next statement of thread {lit}`i`. -/
def advance (s : NisServer) (i : ℕ) (ok : Bool) : ServerPc → Option NisServer
  | .receive => none
  | .lockBuffer host =>
      if s.mutex = none then some ({ s with mutex := some i }.goOn i (.clearBuffer host)) else none
  | .clearBuffer host => some ({ s with buffer := statusOpen }.goOn i (.lockUps host))
  | .lockUps host =>
      if s.upsLock = none then
        some ({ s with upsLock := some (.server i) }.goOn i (.stamp host))
      else none
  | .stamp host => some ({ s with ups := s.ups.stamped host }.goOn i (.write host 0))
  | .write host n =>
      match (lockedRows host s.ups)[n]? with
      | some row => some ({ s with buffer := writeRow s.buffer row }.goOn i (.write host (n + 1)))
      | none => some ({ s with upsLock := none }.goOn i (.writeEnd host))
  | .writeEnd host =>
      some ({ s with buffer := writeRow s.buffer (endRow host) }.goOn i .sendHeader)
  | .sendHeader =>
      some (s.send i (headerRecord s.buffer) ok
        (if ok then .sendRecord 0 else .unlockBuffer false))
  | .sendRecord n =>
      match (sentRecords [] s.buffer.largebuf)[n]? with
      | some record => some (s.send i record ok (if ok then .sendRecord (n + 1) else .sendEnd))
      | none => some (s.goOn i .sendEnd)
  | .sendEnd => some (s.send i [] ok (.unlockBuffer ok))
  | .unlockBuffer good =>
      some ({ s with mutex := none }.goOn i (if good then .receive else .closed))
  | .events [] => some (s.goOn i (.eventsEnd true))
  | .events (record :: left) =>
      -- a record without characters ends the reply, and net_send returns zero
      some (s.send i record ok (if ok ∧ record ≠ [] then .events left else .eventsEnd false))
  | .eventsEnd good =>
      some (s.send i [] ok (if ok && good then .receive else .answer notavail true))
  | .answer message closes => some (s.send i message ok (.answerEnd closes))
  | .answerEnd closes => some (s.send i [] ok (if ok && !closes then .receive else .closed))
  | .closed => none

/-- The thread waits for a request. -/
def isReceiving (s : NisServer) (i : ℕ) : Bool :=
  match (s.thread i).pc with
  | .receive => true
  | _ => false

/-- A move, if it is possible. -/
def step (s : NisServer) : ServerLabel → Option NisServer
  | .deviceLock => if s.upsLock = none then some { s with upsLock := some .device } else none
  | .deviceWrite ups => if s.upsLock = some .device then some { s with ups := ups } else none
  | .deviceUnlock => if s.upsLock = some .device then some { s with upsLock := none } else none
  | .receive i call =>
      if s.isReceiving i then
        some (s.setThread i
          { s.thread i with pc := call.handle, received := (s.thread i).received ++ [call] })
      else none
  | .hangUp i => if s.isReceiving i then some (s.goOn i .closed) else none
  | .next i ok => s.advance i ok (s.thread i).pc

end NisServer

/-! ## What a move leaves alone -/

/-- The thread is between {lit}`status_open` and the end of {lit}`status_close`. -/
def ServerPc.holdsBuffer : ServerPc → Bool
  | .clearBuffer _ | .lockUps _ | .stamp _ | .write _ _ | .writeEnd _ | .sendHeader
  | .sendRecord _ | .sendEnd | .unlockBuffer _ => true
  | .receive | .lockBuffer _ | .events _ | .eventsEnd _ | .answer _ _ | .answerEnd _
  | .closed => false

/-- The thread is between {lit}`read_lock` and {lit}`read_unlock`. -/
def ServerPc.holdsUps : ServerPc → Bool
  | .stamp _ | .write _ _ => true
  | .receive | .lockBuffer _ | .clearBuffer _ | .lockUps _ | .writeEnd _ | .sendHeader
  | .sendRecord _ | .sendEnd | .unlockBuffer _ | .events _ | .eventsEnd _ | .answer _ _
  | .answerEnd _ | .closed => false

/-- Whose move it is. -/
def ServerLabel.actor : ServerLabel → UpsHolder
  | .deviceLock | .deviceWrite _ | .deviceUnlock => .device
  | .receive i _ | .hangUp i | .next i _ => .server i

namespace NisServer

variable {s t : NisServer} {i j : ℕ} {ok : Bool} {pc : ServerPc} {label : ServerLabel}

@[simp] theorem thread_setThread_self (s : NisServer) (i : ℕ) (thread : ServerThread) :
    (s.setThread i thread).thread i = thread := by
  simp [setThread]

@[simp] theorem thread_setThread_of_ne (s : NisServer) (thread : ServerThread) (hne : j ≠ i) :
    (s.setThread i thread).thread j = s.thread j := by
  simp [setThread, hne]

@[simp] theorem buffer_setThread (s : NisServer) (i : ℕ) (thread : ServerThread) :
    (s.setThread i thread).buffer = s.buffer :=
  rfl

@[simp] theorem mutex_setThread (s : NisServer) (i : ℕ) (thread : ServerThread) :
    (s.setThread i thread).mutex = s.mutex :=
  rfl

@[simp] theorem ups_setThread (s : NisServer) (i : ℕ) (thread : ServerThread) :
    (s.setThread i thread).ups = s.ups :=
  rfl

@[simp] theorem upsLock_setThread (s : NisServer) (i : ℕ) (thread : ServerThread) :
    (s.setThread i thread).upsLock = s.upsLock :=
  rfl

/-- What a move of thread {lit}`i` at a statement may change: its own part, and what it holds. -/
structure Frame (i : ℕ) (pc : ServerPc) (s t : NisServer) : Prop where
  others : ∀ j ≠ i, t.thread j = s.thread j
  buffer : pc.holdsBuffer = false → t.buffer = s.buffer
  ups : pc.holdsUps = false → t.ups = s.ups
  mutex : t.mutex = s.mutex ∧ (t.thread i).pc.holdsBuffer = pc.holdsBuffer ∨
    s.mutex = none ∧ t.mutex = some i ∧ (t.thread i).pc.holdsBuffer = true ∨
    pc.holdsBuffer = true ∧ t.mutex = none ∧ (t.thread i).pc.holdsBuffer = false
  upsLock : t.upsLock = s.upsLock ∧ (t.thread i).pc.holdsUps = pc.holdsUps ∨
    s.upsLock = none ∧ t.upsLock = some (.server i) ∧ (t.thread i).pc.holdsUps = true ∨
    pc.holdsUps = true ∧ t.upsLock = none ∧ (t.thread i).pc.holdsUps = false

theorem handle_holds (call : ServerCall) :
    call.handle.holdsBuffer = false ∧ call.handle.holdsUps = false := by
  unfold ServerCall.handle
  by_cases hstatus : call.isStatus
  · rw [if_pos hstatus]
    exact ⟨rfl, rfl⟩
  · rw [if_neg hstatus]
    by_cases hevents : call.isEvents
    · rw [if_pos hevents]
      cases call.eventsFile with
      | none => exact ⟨rfl, rfl⟩
      | some file => cases call.allocated <;> exact ⟨rfl, rfl⟩
    · rw [if_neg hevents]
      exact ⟨rfl, rfl⟩

/-- A move that changes what is shared, and then the thread. -/
theorem frame_setThread {r : NisServer} {thread : ServerThread} (hthread : r.thread = s.thread)
    (hbuffer : pc.holdsBuffer = false → r.buffer = s.buffer)
    (hups : pc.holdsUps = false → r.ups = s.ups)
    (hmutex : r.mutex = s.mutex ∧ thread.pc.holdsBuffer = pc.holdsBuffer ∨
      s.mutex = none ∧ r.mutex = some i ∧ thread.pc.holdsBuffer = true ∨
      pc.holdsBuffer = true ∧ r.mutex = none ∧ thread.pc.holdsBuffer = false)
    (hupsLock : r.upsLock = s.upsLock ∧ thread.pc.holdsUps = pc.holdsUps ∨
      s.upsLock = none ∧ r.upsLock = some (.server i) ∧ thread.pc.holdsUps = true ∨
      pc.holdsUps = true ∧ r.upsLock = none ∧ thread.pc.holdsUps = false) :
    Frame i pc s (r.setThread i thread) where
  others _ hne := (thread_setThread_of_ne r thread hne).trans (congrFun hthread _)
  buffer := hbuffer
  ups := hups
  mutex := by rwa [thread_setThread_self]
  upsLock := by rwa [thread_setThread_self]

/-- A move that neither takes nor releases anything, and changes no more than the thread. -/
theorem frame_own {thread : ServerThread} (hbuffer : thread.pc.holdsBuffer = pc.holdsBuffer)
    (hups : thread.pc.holdsUps = pc.holdsUps) : Frame i pc s (s.setThread i thread) :=
  frame_setThread rfl (fun _ => rfl) (fun _ => rfl) (.inl ⟨rfl, hbuffer⟩) (.inl ⟨rfl, hups⟩)

theorem advance_frame (hmove : s.advance i ok pc = some t) : Frame i pc s t := by
  cases pc with
  | receive => cases hmove
  | closed => cases hmove
  | lockBuffer host =>
      rw [advance] at hmove
      split at hmove
      · next hfree =>
        cases hmove
        refine frame_setThread rfl (fun _ => rfl) (fun _ => rfl) ?_ ?_
        · exact .inr (.inl ⟨hfree, rfl, rfl⟩)
        · exact .inl ⟨rfl, rfl⟩
      · cases hmove
  | clearBuffer host =>
      cases hmove
      refine frame_setThread rfl (fun hnot => by cases hnot) (fun _ => rfl) ?_ ?_
      · exact .inl ⟨rfl, rfl⟩
      · exact .inl ⟨rfl, rfl⟩
  | lockUps host =>
      rw [advance] at hmove
      split at hmove
      · next hfree =>
        cases hmove
        refine frame_setThread rfl (fun _ => rfl) (fun _ => rfl) ?_ ?_
        · exact .inl ⟨rfl, rfl⟩
        · exact .inr (.inl ⟨hfree, rfl, rfl⟩)
      · cases hmove
  | stamp host =>
      cases hmove
      refine frame_setThread rfl (fun _ => rfl) (fun hnot => by cases hnot) ?_ ?_
      · exact .inl ⟨rfl, rfl⟩
      · exact .inl ⟨rfl, rfl⟩
  | write host n =>
      rw [advance] at hmove
      split at hmove
      · cases hmove
        refine frame_setThread rfl (fun hnot => by cases hnot) (fun _ => rfl) ?_ ?_
        · exact .inl ⟨rfl, rfl⟩
        · exact .inl ⟨rfl, rfl⟩
      · cases hmove
        refine frame_setThread rfl (fun _ => rfl) (fun _ => rfl) ?_ ?_
        · exact .inl ⟨rfl, rfl⟩
        · exact .inr (.inr ⟨rfl, rfl, rfl⟩)
  | writeEnd host =>
      cases hmove
      refine frame_setThread rfl (fun hnot => by cases hnot) (fun _ => rfl) ?_ ?_
      · exact .inl ⟨rfl, rfl⟩
      · exact .inl ⟨rfl, rfl⟩
  | sendHeader =>
      cases hmove
      cases ok <;> exact frame_own rfl rfl
  | sendRecord n =>
      rw [advance] at hmove
      split at hmove
      · cases hmove
        cases ok <;> exact frame_own rfl rfl
      · cases hmove
        exact frame_own rfl rfl
  | sendEnd =>
      cases hmove
      exact frame_own rfl rfl
  | unlockBuffer good =>
      cases hmove
      refine frame_setThread rfl (fun _ => rfl) (fun _ => rfl) ?_ ?_
      · exact .inr (.inr ⟨rfl, rfl, by cases good <;> rfl⟩)
      · exact .inl ⟨rfl, by cases good <;> rfl⟩
  | events left =>
      cases left with
      | nil =>
          cases hmove
          exact frame_own rfl rfl
      | cons record left =>
          cases hmove
          by_cases hgoes : ok ∧ record ≠ []
          · simp only [if_pos hgoes]
            exact frame_own rfl rfl
          · simp only [if_neg hgoes]
            exact frame_own rfl rfl
  | eventsEnd good =>
      cases hmove
      cases ok <;> cases good <;> exact frame_own rfl rfl
  | answer message closes =>
      cases hmove
      exact frame_own rfl rfl
  | answerEnd closes =>
      cases hmove
      cases ok <;> cases closes <;> exact frame_own rfl rfl

end NisServer

/-! ## The two locks -/

/-- The mutex and the lock are held by the thread that stands where they are held. -/
structure Locked (s : NisServer) : Prop where
  mutex : ∀ i, (s.thread i).pc.holdsBuffer = true ↔ s.mutex = some i
  upsLock : ∀ i, (s.thread i).pc.holdsUps = true ↔ s.upsLock = some (.server i)

section

variable {s t : NisServer} {i : ℕ} {pc : ServerPc} {label : ServerLabel}

theorem locked_start (ups : StatusUps) : Locked (NisServer.start ups) where
  mutex _ := by simp [NisServer.start, ServerPc.holdsBuffer]
  upsLock _ := by simp [NisServer.start, ServerPc.holdsUps]

theorem Locked.frame (hlocked : Locked s) (hframe : s.Frame i (s.thread i).pc t) : Locked t where
  mutex j := by
    have hi := hlocked.mutex i
    have hj := hlocked.mutex j
    by_cases hne : j = i
    · subst hne
      rcases hframe.mutex with ⟨hmutex, hpc⟩ | ⟨-, hmutex, hpc⟩ | ⟨-, hmutex, hpc⟩
      · rw [hpc, hmutex, hi]
      · simp [hpc, hmutex]
      · simp [hpc, hmutex]
    · rw [hframe.others j hne, hj]
      rcases hframe.mutex with ⟨hmutex, -⟩ | ⟨hfree, hmutex, -⟩ | ⟨hholds, hmutex, -⟩
      · rw [hmutex]
      · simp [hfree, hmutex, Ne.symm hne]
      · simp [hi.mp hholds, hmutex, Ne.symm hne]
  upsLock j := by
    have hi := hlocked.upsLock i
    have hj := hlocked.upsLock j
    by_cases hne : j = i
    · subst hne
      rcases hframe.upsLock with ⟨hlock, hpc⟩ | ⟨-, hlock, hpc⟩ | ⟨-, hlock, hpc⟩
      · rw [hpc, hlock, hi]
      · simp [hpc, hlock]
      · simp [hpc, hlock]
    · rw [hframe.others j hne, hj]
      rcases hframe.upsLock with ⟨hlock, -⟩ | ⟨hfree, hlock, -⟩ | ⟨hholds, hlock, -⟩
      · rw [hlock]
      · simp [hfree, hlock, Ne.symm hne]
      · simp [hi.mp hholds, hlock, Ne.symm hne]

/-- What a move leaves to thread {lit}`i`: its own part, and what it holds. -/
structure Spares (s t : NisServer) (i : ℕ) : Prop where
  thread : t.thread i = s.thread i
  buffer : s.mutex = some i → t.buffer = s.buffer
  ups : s.upsLock = some (.server i) → t.ups = s.ups

/-- A thread keeps what it holds when another one moves. -/
theorem Locked.spares_frame {j : ℕ} (hlocked : Locked s)
    (hframe : s.Frame j (s.thread j).pc t) (hne : i ≠ j) : Spares s t i where
  thread := hframe.others i hne
  buffer hmutex := by
    apply hframe.buffer
    apply Bool.eq_false_of_not_eq_true
    intro hholds
    rw [(hlocked.mutex j).mp hholds, Option.some.injEq] at hmutex
    exact hne hmutex.symm
  ups hlock := by
    apply hframe.ups
    apply Bool.eq_false_of_not_eq_true
    intro hholds
    rw [(hlocked.upsLock j).mp hholds, Option.some.injEq, UpsHolder.server.injEq] at hlock
    exact hne hlock.symm

/-- Every move is one of the device thread, which respects the lock, or one of a thread. -/
theorem NisServer.step_frame (hstep : s.step label = some t) :
    (∃ i, label.actor = .server i ∧ s.Frame i (s.thread i).pc t) ∨
      label.actor = .device ∧ t.thread = s.thread ∧ t.mutex = s.mutex ∧ t.buffer = s.buffer ∧
        (∀ i, s.upsLock ≠ some (.server i) ∧ t.upsLock ≠ some (.server i)) := by
  cases label with
  | deviceLock =>
      rw [step] at hstep
      split at hstep
      · next hfree =>
        cases hstep
        exact Or.inr ⟨rfl, rfl, rfl, rfl, fun i => by simp [hfree]⟩
      · cases hstep
  | deviceWrite ups =>
      rw [step] at hstep
      split at hstep
      · next hdevice =>
        cases hstep
        exact Or.inr ⟨rfl, rfl, rfl, rfl, fun i => by simp [hdevice]⟩
      · cases hstep
  | deviceUnlock =>
      rw [step] at hstep
      split at hstep
      · next hdevice =>
        cases hstep
        exact Or.inr ⟨rfl, rfl, rfl, rfl, fun i => by simp [hdevice]⟩
      · cases hstep
  | receive i call =>
      rw [step] at hstep
      split at hstep
      · next hreceiving =>
        cases hstep
        have hholds := handle_holds call
        refine Or.inl ⟨i, rfl, ?_⟩
        rw [isReceiving] at hreceiving
        split at hreceiving
        · next hpc =>
          rw [hpc]
          exact frame_own hholds.1 hholds.2
        · cases hreceiving
      · cases hstep
  | hangUp i =>
      rw [step] at hstep
      split at hstep
      · next hreceiving =>
        cases hstep
        refine Or.inl ⟨i, rfl, ?_⟩
        rw [isReceiving] at hreceiving
        split at hreceiving
        · next hpc =>
          rw [hpc]
          exact frame_own rfl rfl
        · cases hreceiving
      · cases hstep
  | next i ok => exact Or.inl ⟨i, rfl, advance_frame hstep⟩

theorem Locked.step (hlocked : Locked s) (hstep : s.step label = some t) : Locked t := by
  rcases NisServer.step_frame hstep with ⟨i, -, hframe⟩ | ⟨-, hthread, hmutex, -, hdevice⟩
  · exact hlocked.frame hframe
  · constructor
    · intro i
      rw [hthread, hmutex]
      exact hlocked.mutex i
    · intro i
      have hclear := mt (hlocked.upsLock i).mp (hdevice i).1
      rw [hthread]
      exact ⟨fun hholds => absurd hholds hclear, fun hheld => absurd hheld (hdevice i).2⟩

/-- A move of another thread, or of the device thread, leaves a thread what it holds. -/
theorem Locked.spares (hlocked : Locked s) (hstep : s.step label = some t)
    (hactor : label.actor ≠ .server i) : Spares s t i := by
  rcases NisServer.step_frame hstep with ⟨j, hj, hframe⟩ | ⟨-, hthread, -, hbuffer, hdevice⟩
  · exact hlocked.spares_frame hframe fun hsame => hactor (hsame ▸ hj)
  · exact ⟨by rw [hthread], fun _ => hbuffer, fun hheld => absurd hheld (hdevice i).1⟩

end

end Apcupsd
