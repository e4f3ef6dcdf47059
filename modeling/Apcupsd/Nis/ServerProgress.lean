import Apcupsd.Nis.Server

/-!
# The locks of the server are released

The device thread waits for a server thread only while that one writes its rows, and not while it
sends them: no client can hold up the device thread.  A client can hold up the others, but the
mutex and the lock are always taken in one order, so that nobody waits in a circle.

Main results:

- Theorem {lit}`finishes_clearBuffer`: a thread that has the mutex gets to the end of its reply.
- Theorem {lit}`locks_released`: from every state the record is unlocked without a call of
  {lit}`net_send`, and both locks are released by those who hold them.
-/

namespace Apcupsd

/-! ## Moves of the holders -/

/-- A statement that calls {lit}`net_send`. -/
def ServerPc.sends : ServerPc → Bool
  | .sendHeader | .sendRecord _ | .sendEnd | .events _ | .eventsEnd _ | .answer _ _
  | .answerEnd _ => true
  | .receive | .lockBuffer _ | .clearBuffer _ | .lockUps _ | .stamp _ | .write _ _ | .writeEnd _
  | .unlockBuffer _ | .closed => false

namespace NisServer

/-- A move of the one who has locked the record, without a call of {lit}`net_send`. -/
def ByUpsHolder (s : NisServer) (label : ServerLabel) : Prop :=
  s.upsLock = some label.actor ∧
    ∀ i ok, label = .next i ok → (s.thread i).pc.sends = false

/-- A move of one who holds the mutex or the lock. -/
def ByHolder (s : NisServer) (label : ServerLabel) : Prop :=
  s.upsLock = some label.actor ∨ ∃ i, label.actor = .server i ∧ s.mutex = some i

/-- A statement of the thread that holds the mutex, with a call of {lit}`net_send` that
succeeds if there is one. -/
def Solo (i : ℕ) (s : NisServer) (label : ServerLabel) : Prop :=
  label = .next i true ∧ s.mutex = some i

/-- The thread releases what it holds, and then waits for a request if its reply is good. -/
def Finishes (i : ℕ) (good : Bool) (s : NisServer) : Prop :=
  ∃ t, Reaches step (Solo i) s t ∧ t.mutex = none ∧ t.upsLock = none ∧ t.isReceiving i = good ∧
    (t.thread i).received = (s.thread i).received

section

variable {s t : NisServer} {i n : ℕ} {host : Host} {good : Bool} {pc : ServerPc}

@[simp] theorem thread_goOn_self (s : NisServer) (i : ℕ) (pc : ServerPc) :
    (s.goOn i pc).thread i = { s.thread i with pc := pc } :=
  thread_setThread_self s i _

@[simp] theorem thread_send_self (s : NisServer) (i : ℕ) (message : List Char) (pc : ServerPc) :
    ((s.send i message true pc).thread i).pc = pc := by
  rw [send, thread_setThread_self]

@[simp] theorem mutex_goOn (s : NisServer) (i : ℕ) (pc : ServerPc) :
    (s.goOn i pc).mutex = s.mutex :=
  rfl

@[simp] theorem upsLock_goOn (s : NisServer) (i : ℕ) (pc : ServerPc) :
    (s.goOn i pc).upsLock = s.upsLock :=
  rfl

@[simp] theorem mutex_send (s : NisServer) (i : ℕ) (message : List Char) (ok : Bool)
    (pc : ServerPc) : (s.send i message ok pc).mutex = s.mutex :=
  rfl

@[simp] theorem upsLock_send (s : NisServer) (i : ℕ) (message : List Char) (ok : Bool)
    (pc : ServerPc) : (s.send i message ok pc).upsLock = s.upsLock :=
  rfl

@[simp] theorem received_goOn (s : NisServer) (i : ℕ) (pc : ServerPc) :
    ((s.goOn i pc).thread i).received = (s.thread i).received := by
  rw [thread_goOn_self]

@[simp] theorem received_send (s : NisServer) (i : ℕ) (message : List Char) (ok : Bool)
    (pc : ServerPc) : ((s.send i message ok pc).thread i).received = (s.thread i).received := by
  rw [send, thread_setThread_self]

/-- A statement receives no request. -/
theorem advance_received {ok : Bool} (hmove : s.advance i ok pc = some t) :
    (t.thread i).received = (s.thread i).received := by
  unfold advance at hmove
  split at hmove
  all_goals try split at hmove
  all_goals cases hmove
  all_goals first
    | exact received_goOn _ i _
    | exact received_send _ i _ _ _

/-- One statement first. -/
theorem Finishes.head (hmutex : s.mutex = some i) (hpc : (s.thread i).pc = pc)
    (hmove : s.advance i true pc = some t) (hfinishes : Finishes i good t) :
    Finishes i good s := by
  obtain ⟨u, hrun, hmutexFree, hlockFree, hreceives, hreceived⟩ := hfinishes
  refine ⟨u, .head ⟨.next i true, ⟨rfl, hmutex⟩, ?_⟩ hrun, hmutexFree, hlockFree, hreceives,
    hreceived.trans (advance_received hmove)⟩
  rw [step, hpc]
  exact hmove

/-! ## To the end of a reply -/

theorem finishes_unlockBuffer (hmutex : s.mutex = some i) (hlock : s.upsLock = none)
    (hpc : (s.thread i).pc = .unlockBuffer good) : Finishes i good s := by
  refine Finishes.head hmutex hpc rfl ⟨_, .refl, rfl, hlock, ?_, rfl⟩
  rw [isReceiving, thread_goOn_self]
  cases good <;> rfl

theorem finishes_sendEnd (hmutex : s.mutex = some i) (hlock : s.upsLock = none)
    (hpc : (s.thread i).pc = .sendEnd) : Finishes i true s :=
  Finishes.head hmutex hpc rfl
    (finishes_unlockBuffer hmutex hlock (thread_send_self _ _ _ _))

theorem finishes_sendRecord (hmutex : s.mutex = some i) (hlock : s.upsLock = none)
    (hpc : (s.thread i).pc = .sendRecord n) : Finishes i true s := by
  induction hleft : (sentRecords [] s.buffer.largebuf).length - n generalizing n s with
  | zero =>
      have hnone : (sentRecords [] s.buffer.largebuf)[n]? = none :=
        List.getElem?_eq_none_iff.mpr (Nat.sub_eq_zero_iff_le.mp hleft)
      refine Finishes.head hmutex hpc (t := s.goOn i .sendEnd) (by rw [advance, hnone]) ?_
      exact finishes_sendEnd hmutex hlock (by rw [thread_goOn_self])
  | succ left ih =>
      have hlt : n < (sentRecords [] s.buffer.largebuf).length := by omega
      refine Finishes.head hmutex hpc (t := s.send i _ true (.sendRecord (n + 1)))
        (by rw [advance, List.getElem?_eq_getElem hlt]; rfl) ?_
      exact ih hmutex hlock (thread_send_self _ _ _ _) (by rw [send, buffer_setThread]; omega)

theorem finishes_sendHeader (hmutex : s.mutex = some i) (hlock : s.upsLock = none)
    (hpc : (s.thread i).pc = .sendHeader) : Finishes i true s :=
  Finishes.head hmutex hpc rfl (finishes_sendRecord hmutex hlock (thread_send_self _ _ _ _))

theorem finishes_writeEnd (hmutex : s.mutex = some i) (hlock : s.upsLock = none)
    (hpc : (s.thread i).pc = .writeEnd host) : Finishes i true s :=
  Finishes.head hmutex hpc rfl
    (finishes_sendHeader hmutex hlock (by rw [thread_goOn_self]))

theorem finishes_write (hmutex : s.mutex = some i) (hpc : (s.thread i).pc = .write host n) :
    Finishes i true s := by
  induction hleft : (lockedRows host s.ups).length - n generalizing n s with
  | zero =>
      have hnone : (lockedRows host s.ups)[n]? = none :=
        List.getElem?_eq_none_iff.mpr (Nat.sub_eq_zero_iff_le.mp hleft)
      refine Finishes.head hmutex hpc
        (t := { s with upsLock := none }.goOn i (.writeEnd host)) (by rw [advance, hnone]) ?_
      exact finishes_writeEnd hmutex rfl (by rw [thread_goOn_self])
  | succ left ih =>
      have hlt : n < (lockedRows host s.ups).length := by omega
      refine Finishes.head hmutex hpc
        (t := { s with buffer := _ }.goOn i (.write host (n + 1)))
        (by rw [advance, List.getElem?_eq_getElem hlt]) ?_
      have hrest : (lockedRows host s.ups).length - (n + 1) = left := by omega
      exact ih hmutex (by rw [thread_goOn_self]) hrest

theorem finishes_stamp (hmutex : s.mutex = some i) (hpc : (s.thread i).pc = .stamp host) :
    Finishes i true s :=
  Finishes.head hmutex hpc rfl (finishes_write hmutex (by rw [thread_goOn_self]))

theorem finishes_lockUps (hmutex : s.mutex = some i) (hlock : s.upsLock = none)
    (hpc : (s.thread i).pc = .lockUps host) : Finishes i true s :=
  Finishes.head hmutex hpc
    (t := { s with upsLock := some (.server i) }.goOn i (.stamp host))
    (by rw [advance, if_pos hlock]) (finishes_stamp hmutex (by rw [thread_goOn_self]))

theorem finishes_clearBuffer (hmutex : s.mutex = some i) (hlock : s.upsLock = none)
    (hpc : (s.thread i).pc = .clearBuffer host) : Finishes i true s :=
  Finishes.head hmutex hpc rfl
    (finishes_lockUps hmutex hlock (by rw [thread_goOn_self]))

/-- Whatever the thread that holds the mutex is doing, it finishes. -/
theorem finishes_of_holdsBuffer (hlocked : Locked s) (hmutex : s.mutex = some i)
    (hlock : s.upsLock = none ∨ s.upsLock = some (.server i)) :
    ∃ good, Finishes i good s := by
  have hholds := (hlocked.mutex i).mpr hmutex
  have hups := hlocked.upsLock i
  have hfree (hclear : (s.thread i).pc.holdsUps = false) : s.upsLock = none := by
    rcases hlock with hnone | hown
    · exact hnone
    · rw [hups.mpr hown] at hclear
      cases hclear
  cases hpc : (s.thread i).pc with
  | clearBuffer host => exact ⟨true, finishes_clearBuffer hmutex (hfree (by rw [hpc]; rfl)) hpc⟩
  | lockUps host => exact ⟨true, finishes_lockUps hmutex (hfree (by rw [hpc]; rfl)) hpc⟩
  | stamp host => exact ⟨true, finishes_stamp hmutex hpc⟩
  | write host n => exact ⟨true, finishes_write hmutex hpc⟩
  | writeEnd host => exact ⟨true, finishes_writeEnd hmutex (hfree (by rw [hpc]; rfl)) hpc⟩
  | sendHeader => exact ⟨true, finishes_sendHeader hmutex (hfree (by rw [hpc]; rfl)) hpc⟩
  | sendRecord n => exact ⟨true, finishes_sendRecord hmutex (hfree (by rw [hpc]; rfl)) hpc⟩
  | sendEnd => exact ⟨true, finishes_sendEnd hmutex (hfree (by rw [hpc]; rfl)) hpc⟩
  | unlockBuffer good => exact ⟨good, finishes_unlockBuffer hmutex (hfree (by rw [hpc]; rfl)) hpc⟩
  | receive => rw [hpc] at hholds; cases hholds
  | lockBuffer host => rw [hpc] at hholds; cases hholds
  | events left => rw [hpc] at hholds; cases hholds
  | eventsEnd good => rw [hpc] at hholds; cases hholds
  | answer message closes => rw [hpc] at hholds; cases hholds
  | answerEnd closes => rw [hpc] at hholds; cases hholds
  | closed => rw [hpc] at hholds; cases hholds

/-! ## Both locks -/

theorem byHolder_of_solo (s : NisServer) (label : ServerLabel) (hsolo : Solo i s label) :
    ByHolder s label := by
  obtain ⟨rfl, hmutex⟩ := hsolo
  exact Or.inr ⟨i, rfl, hmutex⟩

/-- The device thread unlocks the record. -/
theorem reaches_deviceUnlock {good : NisServer → ServerLabel → Prop}
    (hlock : s.upsLock = some .device) (hgood : good s .deviceUnlock) :
    Reaches step good s { s with upsLock := none } :=
  .tail .refl ⟨.deviceUnlock, hgood, by rw [step, if_pos hlock]⟩

/-- A thread that writes its rows unlocks the record. -/
theorem write_unlocks (hlock : s.upsLock = some (.server i))
    (hpc : (s.thread i).pc = .write host n) :
    ∃ t, Reaches step ByUpsHolder s t ∧ t.upsLock = none := by
  have hgood {s : NisServer} {n : ℕ} (hlock : s.upsLock = some (.server i))
      (hpc : (s.thread i).pc = .write host n) : ByUpsHolder s (.next i true) := by
    refine ⟨hlock, fun j ok hlabel => ?_⟩
    cases hlabel
    rw [hpc]
    rfl
  induction hleft : (lockedRows host s.ups).length - n generalizing n s with
  | zero =>
      have hnone : (lockedRows host s.ups)[n]? = none :=
        List.getElem?_eq_none_iff.mpr (Nat.sub_eq_zero_iff_le.mp hleft)
      exact ⟨{ s with upsLock := none }.goOn i (.writeEnd host),
        .tail .refl ⟨_, hgood hlock hpc, by rw [step, hpc, advance, hnone]⟩, rfl⟩
  | succ left ih =>
      have hlt : n < (lockedRows host s.ups).length := by omega
      obtain ⟨next, hmove, hlocks, hpoint, hups⟩ : ∃ next, s.step (.next i true) = some next ∧
          next.upsLock = some (.server i) ∧ (next.thread i).pc = .write host (n + 1) ∧
          next.ups = s.ups :=
        ⟨{ s with buffer := writeRow s.buffer (lockedRows host s.ups)[n] }.goOn i
            (.write host (n + 1)), by rw [step, hpc, advance, List.getElem?_eq_getElem hlt],
          hlock, by rw [thread_goOn_self], rfl⟩
      obtain ⟨u, hrun, hfree⟩ := ih hlocks hpoint (by rw [hups]; omega)
      exact ⟨u, .head ⟨_, hgood hlock hpc, hmove⟩ hrun, hfree⟩

/-- The holder of the lock gives it up without sending anything. -/
theorem ups_unlocks (hlocked : Locked s) :
    ∃ t, Reaches step ByUpsHolder s t ∧ t.upsLock = none := by
  cases hlock : s.upsLock with
  | none => exact ⟨s, .refl, hlock⟩
  | some holder =>
      cases holder with
      | device =>
          have hgood : ByUpsHolder s .deviceUnlock := ⟨hlock, fun _ _ hlabel => by cases hlabel⟩
          exact ⟨{ s with upsLock := none }, reaches_deviceUnlock hlock hgood, rfl⟩
      | server i =>
          have hholds := (hlocked.upsLock i).mpr hlock
          cases hpc : (s.thread i).pc with
          | write host n => exact write_unlocks hlock hpc
          | stamp host =>
              have hgood : ByUpsHolder s (.next i true) := by
                refine ⟨hlock, fun j ok hlabel => ?_⟩
                cases hlabel
                rw [hpc]
                rfl
              obtain ⟨u, hrun, hfree⟩ := write_unlocks (n := 0)
                (s := { s with ups := s.ups.stamped host }.goOn i (.write host 0)) hlock
                (by rw [thread_goOn_self])
              exact ⟨u, .head ⟨_, hgood, by rw [step, hpc]; rfl⟩ hrun, hfree⟩
          | _ => rw [hpc] at hholds; cases hholds

end

end NisServer

/-- From every state that the server reaches, the record gets unlocked by moves of its holder that
send nothing, so no client holds up the device thread.  And the holders of the mutex and of the
lock alone get both released: nobody waits in a circle. -/
theorem locks_released (ups : StatusUps) (t : NisServer)
    (hrun : Reaches NisServer.step (fun _ _ => True) (NisServer.start ups) t) :
    (∃ u, Reaches NisServer.step NisServer.ByUpsHolder t u ∧ u.upsLock = none) ∧
      ∃ u, Reaches NisServer.step NisServer.ByHolder t u ∧ u.mutex = none ∧ u.upsLock = none := by
  have hlocked : Locked t := Reaches.invariant (fun _ hstep hlocked => hlocked.step hstep) hrun
    (locked_start ups)
  refine ⟨NisServer.ups_unlocks hlocked, ?_⟩
  obtain ⟨u, hunlocks, hfree⟩ := NisServer.ups_unlocks hlocked
  have hbefore : Reaches NisServer.step NisServer.ByHolder t u :=
    hunlocks.weaken fun _ _ hholder => Or.inl hholder.1
  have hheld : Locked u :=
    Reaches.invariant (fun _ hstep hlocked => hlocked.step hstep) hbefore hlocked
  cases hmutex : u.mutex with
  | none => exact ⟨u, hbefore, hmutex, hfree⟩
  | some i =>
      obtain ⟨good, v, hafter, hreleased⟩ :=
        NisServer.finishes_of_holdsBuffer hheld hmutex (Or.inl hfree)
      exact ⟨v, hbefore.trans (hafter.weaken NisServer.byHolder_of_solo), hreleased.1,
        hreleased.2.1⟩

/-- The device thread is at work when a thread that has the mutex wants to write its rows. -/
theorem locks_released_waiting :
    ∃ t, Reaches NisServer.step (fun _ _ => True) (NisServer.start (modelUps [])) t ∧
      t.mutex = some 0 ∧ t.upsLock = some .device ∧
      ∃ u, Reaches NisServer.step NisServer.ByHolder t u ∧ u.mutex = none ∧ u.upsLock = none :=
  have hrun : Reaches NisServer.step (fun _ _ => True) (NisServer.start (modelUps [])) _ :=
    .tail (.tail (.tail (.tail .refl
      ⟨.receive 0 ⟨"status".toList, newYearHost, none, true⟩, trivial, rfl⟩)
      ⟨.next 0 true, trivial, rfl⟩) ⟨.next 0 true, trivial, rfl⟩) ⟨.deviceLock, trivial, rfl⟩
  ⟨_, hrun, rfl, rfl, (locks_released (modelUps []) _ hrun).2⟩

end Apcupsd
