import Apcupsd.Modbus.Accepted

/-!
# Retransmissions

{lit}`SendAndWait` is run again with a log of what it does: its transmissions, the frames
that {lit}`ModbusRx` hands over and the times {lit}`ModbusRx` gives up, each in its order.
The log is there also for a call that does not return, up to where the fuel ends.

Main results:

- Theorem {lit}`sendAndWaitLogged_snd`: the log changes nothing.
- Theorem {lit}`transmits_transmitLogged`: the shape of a log, attempt by attempt.
- Theorem {lit}`sendAndWait_retransmits`: when a call transmits its request again, and
  what ends it.
-/

namespace Apcupsd

/-! ## The log of a call -/

/-- What {lit}`SendAndWait` does, with the clock afterwards. -/
inductive CallEvent where
  | transmitted (txfrm : List UInt8) (sent : Bool) (time : ℕ)
  /-- {lit}`ModbusRx` has failed. -/
  | failed
  | received (rxfrm : List UInt8) (time : ℕ)
  deriving DecidableEq, Repr

/-- A call of {lit}`ModbusTx`. -/
def CallEvent.isTransmission : CallEvent → Bool
  | .transmitted _ _ _ => true
  | .failed => false
  | .received _ _ => false

/-- A frame that arrives within {lit}`MODBUS_TOTAL_REQUEST_TIMEOUT_MS` after a
transmission, in the whole milliseconds of {lit}`TV_DIFF_MS`. -/
def CallEvent.InBudget (sentAt : ℕ) (event : CallEvent) : Prop :=
  ∃ rxfrm time, event = .received rxfrm time ∧
    tvDiffMs sentAt time ≤ modbusTotalRequestTimeoutMs

/-- {lit}`ModbusRx` has failed, or a frame has arrived after that time. -/
def CallEvent.GivesUp (sentAt : ℕ) (event : CallEvent) : Prop :=
  event = .failed ∨ ∃ rxfrm time, event = .received rxfrm time ∧
    tvDiffMs sentAt time > modbusTotalRequestTimeoutMs

theorem CallEvent.InBudget.not_isTransmission {sentAt : ℕ} {event : CallEvent}
    (hevent : event.InBudget sentAt) : event.isTransmission = false := by
  obtain ⟨rxfrm, time, rfl, -⟩ := hevent
  rfl

theorem CallEvent.GivesUp.not_isTransmission {sentAt : ℕ} {event : CallEvent}
    (hevent : event.GivesUp sentAt) : event.isTransmission = false := by
  obtain rfl | ⟨rxfrm, time, rfl, -⟩ := hevent <;> rfl

theorem CallEvent.InBudget.not_givesUp {sentAt : ℕ} {event : CallEvent}
    (hevent : event.InBudget sentAt) : ¬ event.GivesUp sentAt := by
  obtain ⟨rxfrm, time, rfl, hearly⟩ := hevent
  rintro (hfailed | ⟨rxfrm', time', hsame, hlate⟩)
  · cases hfailed
  · cases hsame
    exact absurd hearly (not_le.mpr hlate)

/-- The truncation of {lit}`TV_DIFF_MS` never makes a frame late. -/
theorem lt_of_tvDiffMs_gt {sentAt time : ℕ}
    (hlate : tvDiffMs sentAt time > modbusTotalRequestTimeoutMs) : sentAt + 3000000 < time := by
  unfold tvDiffMs modbusTotalRequestTimeoutMs at hlate
  rw [tdiv_thousand] at hlate
  split_ifs at hlate <;> omega

namespace ModbusComm

section Log

variable {W : Type}

/-- The inner loop of {lit}`SendAndWait` with its log. -/
def receiveLogged (t : Transport W) (comm : ModbusComm) (fc : UInt8) (rxsz attemptStart : ℕ) :
    ℕ → W → List CallEvent × Option (Reception × W)
  | 0, _ => ([], none)
  | fuel + 1, w =>
      match t.modbusRx w with
      | none => ([], none)
      | some (none, w) => ([.failed], some (.nothing, w))
      | some (some rxfrm, w) =>
          let elapsedMs := tvDiffMs attemptStart (t.gettimeofday w)
          let event := CallEvent.received rxfrm (t.gettimeofday w)
          if elapsedMs > modbusTotalRequestTimeoutMs then ([event], some (.nothing, w))
          else
            match comm.judge fc rxsz elapsedMs rxfrm with
            | .discard =>
                let rest := receiveLogged t comm fc rxsz attemptStart fuel w
                (event :: rest.1, rest.2)
            | .exception => ([event], some (.exception, w))
            | .accept rxpdu => ([event], some (.accepted rxpdu, w))

/-- The outer loop of {lit}`SendAndWait` with its log. -/
def transmitLogged (t : Transport W) (fuel : ℕ) (comm : ModbusComm) (fc : UInt8) (rxsz : ℕ)
    (txfrm : List UInt8) :
    ℕ → W → List CallEvent × Option (Option (List UInt8) × ModbusComm × W)
  | retries, w =>
      match t.modbusTx txfrm w with
      | none => ([], none)
      | some (false, w) => ([.transmitted txfrm false (t.gettimeofday w)], some (none, comm, w))
      | some (true, w) =>
          let event := CallEvent.transmitted txfrm true (t.gettimeofday w)
          let received := receiveLogged t comm fc rxsz (t.gettimeofday w) fuel w
          match received.2 with
          | none => (event :: received.1, none)
          | some (.accepted rxpdu, w) =>
              (event :: received.1,
                some (some rxpdu, { comm with lastRx := comm.lastRx.push ⟨fc, rxsz, rxpdu⟩ }, w))
          | some (.exception, w) => (event :: received.1, some (none, comm, w))
          | some (.nothing, w) =>
              match retries with
              | 0 => (event :: received.1, some (none, comm, w))
              | retries + 1 =>
                  let rest := transmitLogged t fuel comm fc rxsz txfrm retries w
                  (event :: (received.1 ++ rest.1), rest.2)

/-- {lit}`SendAndWait` with its log. -/
def sendAndWaitLogged (t : Transport W) (fuel : ℕ) (comm : ModbusComm) (call : SendCall)
    (w : W) : List CallEvent × Option (Option (List UInt8) × ModbusComm × W) :=
  if call.txpdu.length > modbusMaxPduSz || call.rxsz > modbusMaxPduSz then
    ([], some (none, comm, w))
  else
    transmitLogged t fuel comm call.fc call.rxsz
      (sealFrame (comm.slaveaddr :: call.fc :: call.txpdu)) 2 w

/-- What a call does, in its order. -/
def callEvents (t : Transport W) (fuel : ℕ) (comm : ModbusComm) (call : SendCall) (w : W) :
    List CallEvent :=
  (comm.sendAndWaitLogged t fuel call w).1

variable {t : Transport W} {comm : ModbusComm} {call : SendCall}

theorem receiveLogged_snd (fc : UInt8) (rxsz attemptStart fuel : ℕ) (w : W) :
    (receiveLogged t comm fc rxsz attemptStart fuel w).2 =
      receive t comm fc rxsz attemptStart fuel w := by
  induction fuel generalizing w with
  | zero => rfl
  | succ fuel ih =>
      rw [receiveLogged, receive]
      rcases t.modbusRx w with - | ⟨- | rxfrm, w⟩
      · rfl
      · rfl
      · simp only
        split_ifs
        · rfl
        · cases comm.judge fc rxsz (tvDiffMs attemptStart (t.gettimeofday w)) rxfrm with
          | discard => exact ih w
          | exception => rfl
          | accept rxpdu => rfl

theorem transmitLogged_snd (fuel : ℕ) (fc : UInt8) (rxsz : ℕ) (txfrm : List UInt8)
    (retries : ℕ) (w : W) :
    (transmitLogged t fuel comm fc rxsz txfrm retries w).2 =
      transmit t fuel comm fc rxsz txfrm retries w := by
  induction retries generalizing w with
  | zero =>
      rw [transmitLogged, transmit]
      rcases t.modbusTx txfrm w with - | ⟨- | -, w⟩
      · rfl
      · rfl
      · simp only [receiveLogged_snd]
        rcases receive t comm fc rxsz (t.gettimeofday w) fuel w with
          - | ⟨- | - | rxpdu, w'⟩ <;> rfl
  | succ retries ih =>
      rw [transmitLogged, transmit]
      rcases t.modbusTx txfrm w with - | ⟨- | -, w⟩
      · rfl
      · rfl
      · simp only [receiveLogged_snd]
        rcases receive t comm fc rxsz (t.gettimeofday w) fuel w with
          - | ⟨- | - | rxpdu, w'⟩
        · rfl
        · exact ih w'
        · rfl
        · rfl

/-- A call with its log is the call. -/
theorem sendAndWaitLogged_snd (fuel : ℕ) (w : W) :
    (comm.sendAndWaitLogged t fuel call w).2 = comm.serve t fuel call w := by
  unfold sendAndWaitLogged serve sendAndWait
  split_ifs
  · rfl
  · exact transmitLogged_snd fuel call.fc call.rxsz _ 2 w

/-! ## The shape of a log -/

/-- A frame that is received in time and discarded. -/
def Waits (comm : ModbusComm) (call : SendCall) (sentAt : ℕ) (event : CallEvent) : Prop :=
  ∃ rxfrm time, event = .received rxfrm time ∧
    tvDiffMs sentAt time ≤ modbusTotalRequestTimeoutMs ∧
      comm.judge call.fc call.rxsz (tvDiffMs sentAt time) rxfrm = .discard

theorem Waits.not_isTransmission {sentAt : ℕ} {event : CallEvent}
    (hevent : comm.Waits call sentAt event) : event.isTransmission = false := by
  obtain ⟨rxfrm, time, rfl, -⟩ := hevent
  rfl

/-- The log of the receiving half of an attempt: discarded frames, and the event that ends
it unless the log is cut off. -/
inductive Hears (comm : ModbusComm) (call : SendCall) (sentAt : ℕ) :
    List CallEvent → Option Reception → Prop
  | cut : Hears comm call sentAt [] none
  | gaveUp {event : CallEvent} (hevent : event.GivesUp sentAt) :
      Hears comm call sentAt [event] (some .nothing)
  | exception {rxfrm : List UInt8} {time : ℕ}
      (htime : tvDiffMs sentAt time ≤ modbusTotalRequestTimeoutMs)
      (hjudge : comm.judge call.fc call.rxsz (tvDiffMs sentAt time) rxfrm = .exception) :
      Hears comm call sentAt [.received rxfrm time] (some .exception)
  | accepted {rxfrm rxpdu : List UInt8} {time : ℕ}
      (htime : tvDiffMs sentAt time ≤ modbusTotalRequestTimeoutMs)
      (hjudge : comm.judge call.fc call.rxsz (tvDiffMs sentAt time) rxfrm = .accept rxpdu) :
      Hears comm call sentAt [.received rxfrm time] (some (.accepted rxpdu))
  | waits {event : CallEvent} {events : List CallEvent} {reception : Option Reception}
      (hevent : comm.Waits call sentAt event) (hrest : Hears comm call sentAt events reception) :
      Hears comm call sentAt (event :: events) reception

theorem hears_receiveLogged (sentAt fuel : ℕ) (w : W) :
    Hears comm call sentAt (receiveLogged t comm call.fc call.rxsz sentAt fuel w).1
      ((receiveLogged t comm call.fc call.rxsz sentAt fuel w).2.map Prod.fst) := by
  induction fuel generalizing w with
  | zero => exact Hears.cut
  | succ fuel ih =>
      rw [receiveLogged]
      rcases t.modbusRx w with - | ⟨- | rxfrm, w⟩
      · exact Hears.cut
      · exact Hears.gaveUp (Or.inl rfl)
      · simp only
        by_cases htime : tvDiffMs sentAt (t.gettimeofday w) > modbusTotalRequestTimeoutMs
        · rw [if_pos htime]
          exact Hears.gaveUp (Or.inr ⟨rxfrm, _, rfl, htime⟩)
        · rw [if_neg htime]
          cases hjudge : comm.judge call.fc call.rxsz (tvDiffMs sentAt (t.gettimeofday w))
              rxfrm with
          | discard => exact Hears.waits ⟨rxfrm, _, rfl, not_lt.mp htime, hjudge⟩ (ih w)
          | exception => exact Hears.exception (not_lt.mp htime) hjudge
          | accept rxpdu => exact Hears.accepted (not_lt.mp htime) hjudge

/-- The log of the outer loop with the retries that are left, and whether the call has
returned. -/
inductive Transmits (comm : ModbusComm) (call : SendCall) (txfrm : List UInt8) :
    ℕ → List CallEvent → Bool → Prop
  | cut {retries : ℕ} : Transmits comm call txfrm retries [] false
  | refused {retries time : ℕ} :
      Transmits comm call txfrm retries [.transmitted txfrm false time] true
  | last {retries sentAt : ℕ} {events : List CallEvent} {reception : Option Reception}
      (hears : Hears comm call sentAt events reception) :
      Transmits comm call txfrm retries (.transmitted txfrm true sentAt :: events)
        reception.isSome
  | again {retries sentAt : ℕ} {events rest : List CallEvent} {returned : Bool}
      (hears : Hears comm call sentAt events (some .nothing))
      (hrest : Transmits comm call txfrm retries rest returned) :
      Transmits comm call txfrm (retries + 1)
        (.transmitted txfrm true sentAt :: (events ++ rest)) returned

theorem transmits_transmitLogged (fuel : ℕ) (txfrm : List UInt8) (retries : ℕ) (w : W) :
    Transmits comm call txfrm retries
      (transmitLogged t fuel comm call.fc call.rxsz txfrm retries w).1
      (transmitLogged t fuel comm call.fc call.rxsz txfrm retries w).2.isSome := by
  induction retries generalizing w with
  | zero =>
      rw [transmitLogged]
      rcases t.modbusTx txfrm w with - | ⟨- | -, w⟩
      · exact Transmits.cut
      · exact Transmits.refused
      · have hears := @hears_receiveLogged W t comm call (t.gettimeofday w) fuel w
        simp only
        generalize receiveLogged t comm call.fc call.rxsz (t.gettimeofday w) fuel w =
          received at hears ⊢
        rcases received with ⟨events, - | ⟨- | - | rxpdu, w'⟩⟩ <;> exact Transmits.last hears
  | succ retries ih =>
      rw [transmitLogged]
      rcases t.modbusTx txfrm w with - | ⟨- | -, w⟩
      · exact Transmits.cut
      · exact Transmits.refused
      · have hears := @hears_receiveLogged W t comm call (t.gettimeofday w) fuel w
        simp only
        generalize receiveLogged t comm call.fc call.rxsz (t.gettimeofday w) fuel w =
          received at hears ⊢
        rcases received with ⟨events, - | ⟨- | - | rxpdu, w'⟩⟩
        · exact Transmits.last hears
        · exact Transmits.again hears (ih w')
        · exact Transmits.last hears
        · exact Transmits.last hears

theorem transmits_callEvents (fuel : ℕ) (w : W) :
    Transmits comm call (sealFrame (comm.slaveaddr :: call.fc :: call.txpdu)) 2
        (comm.callEvents t fuel call w) (comm.serve t fuel call w).isSome ∨
      comm.callEvents t fuel call w = [] := by
  rw [← sendAndWaitLogged_snd]
  unfold callEvents sendAndWaitLogged
  split_ifs
  · exact Or.inr rfl
  · exact Or.inl (transmits_transmitLogged fuel _ 2 w)

/-! ## Where an event stands in a log -/

theorem split_singleton {α : Type} {x y : α} {before after : List α}
    (hsplit : [x] = before ++ y :: after) : before = [] ∧ x = y ∧ after = [] := by
  rcases before with - | ⟨z, before⟩
  · obtain ⟨hxy, hafter⟩ := List.cons.inj hsplit
    exact ⟨rfl, hxy, hafter.symm⟩
  · simp at hsplit

theorem Hears.not_isTransmission {sentAt : ℕ} {events : List CallEvent}
    {reception : Option Reception} (hears : Hears comm call sentAt events reception) :
    ∀ event ∈ events, event.isTransmission = false := by
  induction hears with
  | cut => simp
  | gaveUp hevent => simpa using hevent.not_isTransmission
  | exception htime hjudge => simp [CallEvent.isTransmission]
  | accepted htime hjudge => simp [CallEvent.isTransmission]
  | waits hevent hrest ih => exact List.forall_mem_cons.mpr ⟨hevent.not_isTransmission, ih⟩

/-- A log that ends with nothing has given up at its last event. -/
theorem Hears.exists_givesUp {sentAt : ℕ} {events : List CallEvent}
    (hears : Hears comm call sentAt events (some .nothing)) :
    ∃ frames event, events = frames ++ [event] ∧
      (∀ frame ∈ frames, frame.isTransmission = false) ∧ event.GivesUp sentAt := by
  generalize hreception : some Reception.nothing = reception at hears
  induction hears with
  | cut => cases hreception
  | gaveUp hevent => exact ⟨[], _, rfl, by simp, hevent⟩
  | exception htime hjudge => cases hreception
  | accepted htime hjudge => cases hreception
  | waits hevent hrest ih =>
      obtain ⟨frames, event, rfl, hframes, hgives⟩ := ih hreception
      exact ⟨_ :: frames, event, rfl,
        List.forall_mem_cons.mpr ⟨hevent.not_isTransmission, hframes⟩, hgives⟩

/-- A transmission in a log stands behind all that was heard before it. -/
theorem Hears.exists_split {sentAt : ℕ} {events rest before after : List CallEvent}
    {event : CallEvent} {reception : Option Reception}
    (hears : Hears comm call sentAt events reception) (hevent : event.isTransmission = true)
    (hsplit : events ++ rest = before ++ event :: after) :
    ∃ middle, before = events ++ middle ∧ rest = middle ++ event :: after := by
  rcases List.append_eq_append_iff.mp hsplit with ⟨middle, rfl, hrest⟩ | ⟨middle, rfl, hrest⟩
  · exact ⟨middle, rfl, hrest⟩
  · rcases middle with - | ⟨first, middle⟩
    · exact ⟨[], by simp, by simpa using hrest.symm⟩
    · obtain ⟨rfl, -⟩ := List.cons.inj hrest
      have hno := hears.not_isTransmission event (by simp)
      rw [hevent] at hno
      cases hno

/-- A frame that ends the call: it is received in time and not discarded. -/
def Decisive (comm : ModbusComm) (call : SendCall) (sentAt : ℕ) (event : CallEvent) : Prop :=
  ∃ rxfrm time, event = .received rxfrm time ∧
    tvDiffMs sentAt time ≤ modbusTotalRequestTimeoutMs ∧
      comm.judge call.fc call.rxsz (tvDiffMs sentAt time) rxfrm ≠ .discard

theorem Decisive.not_isTransmission {sentAt : ℕ} {event : CallEvent}
    (hevent : comm.Decisive call sentAt event) : event.isTransmission = false := by
  obtain ⟨rxfrm, time, rfl, -⟩ := hevent
  rfl

theorem Decisive.inBudget {sentAt : ℕ} {event : CallEvent}
    (hevent : comm.Decisive call sentAt event) : event.InBudget sentAt := by
  obtain ⟨rxfrm, time, rfl, htime, -⟩ := hevent
  exact ⟨rxfrm, time, rfl, htime⟩

theorem Decisive.not_waits {sentAt : ℕ} {event : CallEvent}
    (hevent : comm.Decisive call sentAt event) : ¬ comm.Waits call sentAt event := by
  obtain ⟨rxfrm, time, rfl, -, hjudge⟩ := hevent
  rintro ⟨rxfrm', time', hsame, -, hdiscard⟩
  cases hsame
  exact hjudge hdiscard

theorem Hears.ends {sentAt : ℕ} {events frames after : List CallEvent} {event : CallEvent}
    {reception : Option Reception} (hears : Hears comm call sentAt events reception)
    (hsplit : events = frames ++ event :: after) (hevent : comm.Decisive call sentAt event) :
    after = [] ∧ reception.isSome = true ∧ reception ≠ some .nothing := by
  induction hears generalizing frames with
  | cut => simp at hsplit
  | gaveUp hgives =>
      obtain ⟨rfl, rfl, rfl⟩ := split_singleton hsplit
      exact absurd hgives hevent.inBudget.not_givesUp
  | exception htime hjudge =>
      obtain ⟨rfl, rfl, rfl⟩ := split_singleton hsplit
      simp
  | accepted htime hjudge =>
      obtain ⟨rfl, rfl, rfl⟩ := split_singleton hsplit
      simp
  | waits hwaits hrest ih =>
      rcases frames with - | ⟨frame, frames⟩
      · obtain ⟨rfl, -⟩ := List.cons.inj hsplit
        exact absurd hwaits hevent.not_waits
      · exact ih (List.cons.inj hsplit).2

/-! ## The discipline of a call -/

section Discipline

variable {txfrm : List UInt8} {retries : ℕ} {events before frames after : List CallEvent}
  {returned : Bool}

/-- Every transmission uses up one of the retries. -/
theorem Transmits.count_le (htransmits : Transmits comm call txfrm retries events returned) :
    events.countP CallEvent.isTransmission ≤ retries + 1 := by
  induction htransmits with
  | cut => simp
  | refused => simp [CallEvent.isTransmission]
  | last hears =>
      have hnone := List.countP_eq_zero.mpr fun event hevent =>
        Bool.eq_false_iff.mp (hears.not_isTransmission event hevent)
      rw [List.countP_cons_of_pos rfl, hnone]
      omega
  | again hears hrest ih =>
      have hnone := List.countP_eq_zero.mpr fun event hevent =>
        Bool.eq_false_iff.mp (hears.not_isTransmission event hevent)
      rw [List.countP_cons_of_pos rfl, List.countP_append, hnone]
      omega

theorem Transmits.txfrm_eq (htransmits : Transmits comm call txfrm retries events returned)
    {frm : List UInt8} {sent : Bool} {time : ℕ} (hmem : .transmitted frm sent time ∈ events) :
    frm = txfrm := by
  induction htransmits with
  | cut => simp at hmem
  | refused => simp_all
  | last hears =>
      rcases List.mem_cons.mp hmem with hsame | hmem
      · cases hsame
        rfl
      · cases hears.not_isTransmission _ hmem
  | again hears hrest ih =>
      rcases List.mem_cons.mp hmem with hsame | hmem
      · cases hsame
        rfl
      · rcases List.mem_append.mp hmem with hmem | hmem
        · cases hears.not_isTransmission _ hmem
        · exact ih hmem

/-- Before each transmission but the first the attempt has given up. -/
theorem Transmits.retransmits {event : CallEvent}
    (htransmits : Transmits comm call txfrm retries events returned)
    (hsplit : events = before ++ event :: after) (hevent : event.isTransmission = true) :
    before = [] ∨ ∃ earlier sentAt frames last,
      before = earlier ++ .transmitted txfrm true sentAt :: (frames ++ [last]) ∧
        (∀ frame ∈ frames, frame.isTransmission = false) ∧ last.GivesUp sentAt := by
  induction htransmits generalizing before with
  | cut => simp at hsplit
  | refused => exact Or.inl (split_singleton hsplit).1
  | last hears =>
      rcases before with - | ⟨first, before⟩
      · exact Or.inl rfl
      · have hmem := (List.cons.inj hsplit).2
        have hno := hears.not_isTransmission event (by simp [hmem])
        rw [hevent] at hno
        cases hno
  | @again retries sentAt heard rest returned hears hrest ih =>
      rcases before with - | ⟨first, before⟩
      · exact Or.inl rfl
      · obtain ⟨rfl, htail⟩ := List.cons.inj hsplit
        obtain ⟨middle, rfl, hmiddle⟩ := hears.exists_split hevent htail
        right
        rcases ih hmiddle with rfl | ⟨earlier, sentAt', frames, last, rfl, hframes, hgives⟩
        · obtain ⟨frames, last, rfl, hframes, hgives⟩ := hears.exists_givesUp
          exact ⟨[], sentAt, frames, last, by simp, hframes, hgives⟩
        · exact ⟨.transmitted txfrm true sentAt :: (heard ++ earlier), sentAt', frames, last,
            by simp, hframes, hgives⟩

/-- The last element with a property is found in one place. -/
theorem last_unique {α : Type} {p : α → Bool} {x y : α} {l l' r r' : List α}
    (hsame : l ++ x :: r = l' ++ y :: r') (hx : p x = true) (hy : p y = true)
    (hr : ∀ z ∈ r, p z = false) (hr' : ∀ z ∈ r', p z = false) : x = y ∧ r = r' := by
  rcases List.append_eq_append_iff.mp hsame with ⟨m, rfl, htail⟩ | ⟨m, rfl, htail⟩
  all_goals
    rcases m with - | ⟨z, m⟩
    · obtain ⟨hxy, hrr⟩ := List.cons.inj htail
      exact ⟨by simp [hxy], by simp [hrr]⟩
    · obtain ⟨rfl, rfl⟩ := List.cons.inj htail
      simp_all

/-- As long as frames arrive in time nothing is transmitted. -/
theorem Transmits.listens {frm : List UInt8} {sentAt : ℕ} {event : CallEvent}
    (htransmits : Transmits comm call txfrm retries events returned)
    (hsplit : events = before ++ .transmitted frm true sentAt :: (frames ++ event :: after))
    (hframes : ∀ frame ∈ frames, frame.InBudget sentAt) : event.isTransmission = false := by
  by_contra htransmission
  have hevent : event.isTransmission = true := by simpa using htransmission
  have hsplit' : events = (before ++ .transmitted frm true sentAt :: frames) ++ event :: after := by
    simp [hsplit]
  rcases htransmits.retransmits hsplit' hevent with
    hnil | ⟨earlier, sentAt', others, last, hbefore, hothers, hgives⟩
  · simp at hnil
  · obtain ⟨hsame, rfl⟩ := last_unique (p := CallEvent.isTransmission) hbefore rfl rfl
      (fun frame hframe => (hframes frame hframe).not_isTransmission) (by
        intro frame hframe
        rcases List.mem_append.mp hframe with hframe | hframe
        · exact hothers frame hframe
        · rw [List.mem_singleton.mp hframe]
          exact hgives.not_isTransmission)
    obtain ⟨-, -, rfl⟩ := CallEvent.transmitted.inj hsame
    exact (hframes last (by simp)).not_givesUp hgives

/-- Nothing follows a failed transmission. -/
theorem Transmits.ends_of_refused {frm : List UInt8} {time : ℕ}
    (htransmits : Transmits comm call txfrm retries events returned)
    (hsplit : events = before ++ .transmitted frm false time :: after) :
    after = [] ∧ returned = true := by
  induction htransmits generalizing before with
  | cut => simp at hsplit
  | refused => exact ⟨(split_singleton hsplit).2.2, rfl⟩
  | last hears =>
      rcases before with - | ⟨first, before⟩
      · cases (List.cons.inj hsplit).1
      · have hmem := (List.cons.inj hsplit).2
        cases hears.not_isTransmission (.transmitted frm false time) (by simp [hmem])
  | again hears hrest ih =>
      rcases before with - | ⟨first, before⟩
      · cases (List.cons.inj hsplit).1
      · obtain ⟨middle, -, hmiddle⟩ := hears.exists_split rfl (List.cons.inj hsplit).2
        exact ih hmiddle

/-- A log that is not empty starts with a transmission. -/
theorem Transmits.head {event : CallEvent}
    (htransmits : Transmits comm call txfrm retries (event :: after) returned) :
    event.isTransmission = true := by
  cases htransmits <;> rfl

/-- Nothing follows a frame that ends the call. -/
theorem Transmits.ends_of_decisive {frm : List UInt8} {sentAt : ℕ} {event : CallEvent}
    (htransmits : Transmits comm call txfrm retries events returned)
    (hsplit : events = before ++ .transmitted frm true sentAt :: (frames ++ event :: after))
    (hframes : ∀ frame ∈ frames, frame.isTransmission = false)
    (hevent : comm.Decisive call sentAt event) : after = [] ∧ returned = true := by
  induction htransmits generalizing before with
  | cut => simp at hsplit
  | refused => simp [List.singleton_eq_append_iff] at hsplit
  | last hears =>
      rcases before with - | ⟨first, before⟩
      · obtain ⟨hsame, hheard⟩ := List.cons.inj hsplit
        obtain ⟨-, -, rfl⟩ := CallEvent.transmitted.inj hsame
        obtain ⟨hafter, hreturned, -⟩ := hears.ends hheard hevent
        exact ⟨hafter, hreturned⟩
      · have hmem := (List.cons.inj hsplit).2
        cases hears.not_isTransmission (.transmitted frm true sentAt) (by simp [hmem])
  | again hears hrest ih =>
      rcases before with - | ⟨first, before⟩
      · obtain ⟨hsame, hheard⟩ := List.cons.inj hsplit
        obtain ⟨-, -, rfl⟩ := CallEvent.transmitted.inj hsame
        rcases List.append_eq_append_iff.mp hheard with
          ⟨middle, hmiddle, hrest'⟩ | ⟨middle, hmiddle, hrest'⟩
        · -- the rest of the log starts with a transmission
          rcases middle with - | ⟨first, middle⟩
          · rw [hrest', List.nil_append] at hrest
            have hhead := hrest.head
            rw [hevent.not_isTransmission] at hhead
            cases hhead
          · rw [hrest'] at hrest
            have hhead := hrest.head
            rw [hframes first (by simp [hmiddle])] at hhead
            cases hhead
        · rcases middle with - | ⟨first, middle⟩
          · rw [List.nil_append] at hrest'
            rw [← hrest'] at hrest
            have hhead := hrest.head
            rw [hevent.not_isTransmission] at hhead
            cases hhead
          · obtain ⟨rfl, -⟩ := List.cons.inj hrest'
            exact absurd rfl (hears.ends hmiddle hevent).2.2
      · obtain ⟨middle, -, hmiddle⟩ := hears.exists_split rfl (List.cons.inj hsplit).2
        exact ih hmiddle

end Discipline

/-- An exception response to a function, as {lit}`SendAndWait` recognises it. -/
def IsException (comm : ModbusComm) (fc : UInt8) (rxfrm : List UInt8) : Prop :=
  4 ≤ rxfrm.length ∧ crcOk rxfrm = true ∧ rxfrm.getD 0 0 = comm.slaveaddr ∧
    rxfrm.getD 1 0 = fc ||| modbusFcError

/-- An exception response or an accepted response that arrives in time ends the call. -/
theorem decisive_of_response {sentAt time : ℕ} {rxfrm : List UInt8}
    (htime : tvDiffMs sentAt time ≤ modbusTotalRequestTimeoutMs)
    (hresponse : comm.IsException call.fc rxfrm ∨ ∃ rxpdu,
      comm.judge call.fc call.rxsz (tvDiffMs sentAt time) rxfrm = .accept rxpdu) :
    comm.Decisive call sentAt (.received rxfrm time) := by
  refine ⟨rxfrm, time, rfl, htime, ?_⟩
  rcases hresponse with hexception | ⟨rxpdu, haccept⟩
  · rw [judge_eq_exception_iff.mpr hexception]
    simp
  · rw [haccept]
    simp

/-- Whatever arrives and whenever, a call transmits its request at most three times.  It
transmits again only after {lit}`ModbusRx` has failed or a frame has arrived more than
three seconds after the previous transmission, and nothing as long as frames arrive in
time.  An exception response that arrives in time, an accepted response or a failed
transmission ends the call. -/
theorem sendAndWait_retransmits (t : Transport W) (fuel : ℕ) (comm : ModbusComm)
    (call : SendCall) (w : W) :
    let events := comm.callEvents t fuel call w
    let request := sealFrame (comm.slaveaddr :: call.fc :: call.txpdu)
    events.countP CallEvent.isTransmission ≤ 3 ∧
      (∀ frm sent time, .transmitted frm sent time ∈ events → frm = request) ∧
      (∀ before frm sent time after,
        events = before ++ .transmitted frm sent time :: after →
          before = [] ∨ ∃ earlier sentAt frames last,
            before = earlier ++ .transmitted request true sentAt :: (frames ++ [last]) ∧
              (∀ frame ∈ frames, frame.isTransmission = false) ∧
                (last = .failed ∨ ∃ rxfrm arrived, last = .received rxfrm arrived ∧
                  sentAt + 3000000 < arrived)) ∧
      (∀ before frm sentAt frames event after,
        events = before ++ .transmitted frm true sentAt :: (frames ++ event :: after) →
          (∀ frame ∈ frames, frame.InBudget sentAt) → event.isTransmission = false) ∧
      (∀ before frm sentAt frames rxfrm time after,
        events = before ++ .transmitted frm true sentAt ::
            (frames ++ .received rxfrm time :: after) →
          (∀ frame ∈ frames, frame.isTransmission = false) →
            tvDiffMs sentAt time ≤ modbusTotalRequestTimeoutMs →
              (comm.IsException call.fc rxfrm ∨ ∃ rxpdu,
                comm.judge call.fc call.rxsz (tvDiffMs sentAt time) rxfrm = .accept rxpdu) →
                after = [] ∧ (comm.serve t fuel call w).isSome = true) ∧
      (∀ before frm time after,
        events = before ++ .transmitted frm false time :: after →
          after = [] ∧ (comm.serve t fuel call w).isSome = true) := by
  intro events request
  rcases @transmits_callEvents W t comm call fuel w with
    htransmits | hnil
  · refine ⟨htransmits.count_le, fun frm sent time hmem => htransmits.txfrm_eq hmem, ?_,
      fun before frm sentAt frames event after hsplit hframes =>
        htransmits.listens hsplit hframes, ?_,
      fun before frm time after hsplit => htransmits.ends_of_refused hsplit⟩
    · intro before frm sent time after hsplit
      rcases htransmits.retransmits hsplit rfl with
        hfirst | ⟨earlier, sentAt, frames, last, hbefore, hframes, hgives⟩
      · exact Or.inl hfirst
      · refine Or.inr ⟨earlier, sentAt, frames, last, hbefore, hframes, ?_⟩
        rcases hgives with hfailed | ⟨rxfrm, arrived, hlast, hlate⟩
        · exact Or.inl hfailed
        · exact Or.inr ⟨rxfrm, arrived, hlast, lt_of_tvDiffMs_gt hlate⟩
    · intro before frm sentAt frames rxfrm time after hsplit hframes htime hresponse
      exact htransmits.ends_of_decisive hsplit hframes (decisive_of_response htime hresponse)
  · have hevents : events = [] := hnil
    simp [hevents]

/-- An exception response that arrives later is not looked at: the request is transmitted
again. -/
theorem late_exception_retransmits :
    ¬ ∀ before frm sentAt frames rxfrm time after,
      (newOpened 1).callEvents scripted 3 readOne (0, [(3001000, sealFrame [1, 0x83, 2])]) =
          before ++ .transmitted frm true sentAt :: (frames ++ .received rxfrm time :: after) →
        (∀ frame ∈ frames, frame.isTransmission = false) →
          (newOpened 1).IsException readOne.fc rxfrm →
            ∀ event ∈ after, event.isTransmission = false := by
  intro hends
  have hevents : (newOpened 1).callEvents scripted 3 readOne
      (0, [(3001000, sealFrame [1, 0x83, 2])]) =
        [] ++ .transmitted (sealFrame [1, 3, 0, 0, 0, 1]) true 0 ::
          ([] ++ .received (sealFrame [1, 0x83, 2]) 3001000 ::
            [.transmitted (sealFrame [1, 3, 0, 0, 0, 1]) true 3001000, .failed,
              .transmitted (sealFrame [1, 3, 0, 0, 0, 1]) true 3001000, .failed]) := by
    decide +kernel
  have hexception : (newOpened 1).IsException readOne.fc (sealFrame [1, 0x83, 2]) := by
    unfold IsException
    decide +kernel
  have hquiet := hends _ _ _ _ _ _ _ hevents (by simp) hexception
    (.transmitted (sealFrame [1, 3, 0, 0, 0, 1]) true 3001000) (by simp)
  cases hquiet

end Log

end ModbusComm

end Apcupsd
