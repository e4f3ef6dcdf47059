import Mathlib.Data.Nat.Find
import Apcupsd.Modbus.Rs232

/-!
# Receiving a frame on a serial port

{lit}`ModbusRs232Comm::ModbusRx` reads until a pause follows the characters received, or
the frame buffer is full.  Its loop is bounded by the characters that arrive: an
interruption and a read of no characters leave it where it is.

Main results:

- Theorem {lit}`rxLoopLogged_inBuffer`: no read goes past the frame buffer.
- Theorem {lit}`rxLoopLogged_frame`: a received frame consists of the characters read.
- Theorem {lit}`returns_iff`: when {lit}`ModbusRx` returns.
- Theorem {lit}`receives_iff`: on which sequences of outcomes receiving always ends.
-/

namespace Apcupsd

namespace ModbusRs232Comm

/-! ## The reads of a call -/

/-- A {lit}`read` into the frame buffer: where it starts, how much it may write, and what
it has written. -/
structure FrameRead where
  offset : ℕ
  limit : ℕ
  characters : List UInt8
  deriving DecidableEq, Repr

section Log

variable {W : Type}

/-- The loop of {lit}`ModbusRx` with a log of its reads. -/
def rxLoopLogged (port : SerialPort W) :
    ℕ → ℕ → List UInt8 → W → List FrameRead × Option (Option (List UInt8) × W)
  | 0, _, _, _ => ([], none)
  | fuel + 1, timeout, frm, w =>
      match port.select timeout w with
      | (.interrupted, w) => rxLoopLogged port fuel timeout frm w
      | (.failed, w) => ([], some (none, w))
      | (.timeout, w) => ([], some (if frm = [] then none else some frm, w))
      | (.ready, w) =>
          let limit := modbusMaxFrameSz - frm.length
          match port.read limit w with
          | (none, w) => ([⟨frm.length, limit, []⟩], some (none, w))
          | (some characters, w) =>
              let read : FrameRead := ⟨frm.length, limit, characters⟩
              if (frm ++ characters).length = modbusMaxFrameSz then
                ([read], some (some (frm ++ characters), w))
              else
                let rest := rxLoopLogged port fuel modbusIntercharTimeoutMs (frm ++ characters) w
                (read :: rest.1, rest.2)

/-- The reads of a {lit}`ModbusRx`. -/
def rxReads (port : SerialPort W) (fuel : ℕ) (w : W) : List FrameRead :=
  (rxLoopLogged port fuel modbusResponseTimeoutMs [] w).1

variable {port : SerialPort W}

/-- The log changes nothing. -/
theorem rxLoopLogged_snd (fuel timeout : ℕ) (frm : List UInt8) (w : W) :
    (rxLoopLogged port fuel timeout frm w).2 = rxLoop port fuel timeout frm w := by
  induction fuel generalizing timeout frm w with
  | zero => rfl
  | succ fuel ih =>
      rw [rxLoopLogged, rxLoop]
      rcases port.select timeout w with ⟨- | - | - | -, w⟩
      · simp only
        rcases port.read (modbusMaxFrameSz - frm.length) w with ⟨- | characters, w⟩
        · rfl
        · simp only
          split_ifs
          · rfl
          · exact ih _ _ _
      · rfl
      · exact ih _ _ _
      · rfl

/-- A received frame consists of what was there and the characters read, in their order. -/
theorem rxLoopLogged_frame {fuel timeout : ℕ} {frm frm' : List UInt8} {w w' : W}
    (hrun : (rxLoopLogged port fuel timeout frm w).2 = some (some frm', w')) :
    frm' = frm ++ (rxLoopLogged port fuel timeout frm w).1.flatMap FrameRead.characters := by
  induction fuel generalizing timeout frm w with
  | zero => cases hrun
  | succ fuel ih =>
      rw [rxLoopLogged] at hrun ⊢
      rcases hselect : port.select timeout w with ⟨- | - | - | -, w⟩
      · simp only [hselect] at hrun ⊢
        rcases hread : port.read (modbusMaxFrameSz - frm.length) w with ⟨- | characters, w⟩
        · simp [hread] at hrun
        · simp only [hread] at hrun ⊢
          by_cases hfull : (frm ++ characters).length = modbusMaxFrameSz
          · rw [if_pos hfull] at hrun ⊢
            simp only [Option.some.injEq, Prod.mk.injEq] at hrun
            simp [hrun.1.symm]
          · rw [if_neg hfull] at hrun ⊢
            rw [ih hrun]
            simp
      · simp only [hselect, Option.some.injEq, Prod.mk.injEq] at hrun ⊢
        split_ifs at hrun with hempty
        · cases hrun.1
        · simpa using (Option.some.inj hrun.1).symm
      · simp only [hselect] at hrun ⊢
        exact ih hrun
      · simp [hselect] at hrun

/-- {lit}`read` writes no more than it may. -/
def RespectsLimit (port : SerialPort W) : Prop :=
  ∀ limit w characters w', port.read limit w = (some characters, w') →
    characters.length ≤ limit

/-- As long as the frame is not full, the reads stay inside the frame buffer. -/
theorem rxLoopLogged_inBuffer (hport : RespectsLimit port) {fuel timeout : ℕ}
    {frm : List UInt8} {w : W} (hfrm : frm.length < modbusMaxFrameSz) :
    ∀ read ∈ (rxLoopLogged port fuel timeout frm w).1,
      read.offset + read.limit ≤ modbusMaxFrameSz ∧ read.characters.length ≤ read.limit := by
  induction fuel generalizing timeout frm w with
  | zero => simp [rxLoopLogged]
  | succ fuel ih =>
      rw [rxLoopLogged]
      rcases port.select timeout w with ⟨- | - | - | -, w⟩
      · simp only
        rcases hread : port.read (modbusMaxFrameSz - frm.length) w with ⟨- | characters, w'⟩
        · simp only [List.mem_singleton]
          rintro read rfl
          exact ⟨by dsimp only; omega, Nat.zero_le _⟩
        · have hlimit := hport _ _ _ _ hread
          have hhere : frm.length + (modbusMaxFrameSz - frm.length) ≤ modbusMaxFrameSz := by
            omega
          simp only
          split_ifs with hfull
          · simp only [List.mem_singleton]
            rintro read rfl
            exact ⟨hhere, hlimit⟩
          · refine List.forall_mem_cons.mpr ⟨⟨hhere, hlimit⟩, ih ?_⟩
            rw [List.length_append] at hfull ⊢
            omega
      · simp
      · exact ih hfrm
      · simp

end Log

/-! ## Sequences of outcomes -/

/-- How a turn of the loop comes out: what {lit}`select` reports, and when the port is
readable, what {lit}`read` brings. -/
inductive RxOutcome where
  | interrupted
  | timeout
  | selectFailed
  | readFailed
  | characters (available : List UInt8)
  deriving DecidableEq, Repr

/-- The turn ends the loop, however many characters have been received. -/
def RxOutcome.Final (outcome : RxOutcome) : Prop :=
  outcome = .timeout ∨ outcome = .selectFailed ∨ outcome = .readFailed

/-- The characters that a turn brings. -/
def RxOutcome.available : RxOutcome → List UInt8
  | .characters available => available
  | .interrupted => []
  | .timeout => []
  | .selectFailed => []
  | .readFailed => []

/-- A sequence of outcomes as a port, whose world is the number of the turn.  A read brings
no more than it is asked for. -/
def rxPort (outcomes : ℕ → RxOutcome) : SerialPort ℕ where
  select _ i :=
    match outcomes i with
    | .interrupted => (.interrupted, i + 1)
    | .timeout => (.timeout, i + 1)
    | .selectFailed => (.failed, i + 1)
    | .readFailed => (.ready, i)
    | .characters _ => (.ready, i)
  read limit i :=
    match outcomes i with
    | .characters available => (some (available.take limit), i + 1)
    | _ => (none, i + 1)
  write frm i := (some frm.length, i)
  gettimeofday i := i

/-- {lit}`ModbusRx` returns. -/
def Returns (outcomes : ℕ → RxOutcome) : Prop :=
  ∃ fuel result, modbusRx (rxPort outcomes) fuel 0 = some result

/-- {lit}`ModbusRx` returns unless from some turn on {lit}`select` is interrupted every
time; it stays inside the frame buffer, and what it returns are the characters read. -/
structure Receives (outcomes : ℕ → RxOutcome) : Prop where
  ends : Returns outcomes ∨ ∃ n, ∀ i ≥ n, outcomes i = .interrupted
  inBuffer : ∀ fuel, ∀ read ∈ rxReads (rxPort outcomes) fuel 0,
    read.offset + read.limit ≤ modbusMaxFrameSz ∧ read.characters.length ≤ read.limit
  frame : ∀ fuel frm turns, modbusRx (rxPort outcomes) fuel 0 = some (some frm, turns) →
    frm = (rxReads (rxPort outcomes) fuel 0).flatMap FrameRead.characters

section Outcomes

variable {outcomes : ℕ → RxOutcome}

theorem respectsLimit_rxPort : RespectsLimit (rxPort outcomes) := by
  intro limit i characters i' hread
  unfold rxPort at hread
  dsimp only at hread
  split at hread
  · obtain ⟨hcharacters, -⟩ := Prod.mk.inj hread
    rw [← Option.some.inj hcharacters]
    exact List.length_take_le _ _
  · cases (Prod.mk.inj hread).1

/-- The characters that arrive before a turn. -/
def arrivedBefore (outcomes : ℕ → RxOutcome) (n : ℕ) : List UInt8 :=
  (List.range n).flatMap fun i => (outcomes i).available

theorem arrivedBefore_succ (n : ℕ) :
    arrivedBefore outcomes (n + 1) = arrivedBefore outcomes n ++ (outcomes n).available := by
  simp [arrivedBefore, List.range_succ]

theorem length_arrivedBefore_mono {m n : ℕ} (hmn : m ≤ n) :
    (arrivedBefore outcomes m).length ≤ (arrivedBefore outcomes n).length := by
  induction n, hmn using Nat.le_induction with
  | base => exact le_rfl
  | succ n _ ih =>
      rw [arrivedBefore_succ, List.length_append]
      omega

/-- The turn ends the loop: by its outcome, or with a full frame. -/
def Stops (outcomes : ℕ → RxOutcome) (i : ℕ) : Prop :=
  (outcomes i).Final ∨ modbusMaxFrameSz ≤ (arrivedBefore outcomes (i + 1)).length

/-- Before the loop has ended, the frame holds all that has arrived. -/
theorem length_arrivedBefore_lt {i : ℕ} (hbefore : ∀ j < i, ¬ Stops outcomes j) :
    (arrivedBefore outcomes i).length < modbusMaxFrameSz := by
  rcases i with - | i
  · simp [arrivedBefore, modbusMaxFrameSz]
  · by_contra hfull
    exact hbefore i (Nat.lt_succ_self i) (Or.inr (not_lt.mp hfull))

/-- A turn that does not end the loop. -/
theorem rxLoop_pass {i timeout : ℕ} (hbefore : ∀ j < i, ¬ Stops outcomes j)
    (hpass : ¬ Stops outcomes i) : ∃ timeout', ∀ fuel,
      rxLoop (rxPort outcomes) (fuel + 1) timeout (arrivedBefore outcomes i) i =
        rxLoop (rxPort outcomes) fuel timeout' (arrivedBefore outcomes (i + 1)) (i + 1) := by
  have hroom := length_arrivedBefore_lt hbefore
  obtain ⟨hfinal, hfull⟩ := not_or.mp hpass
  have hsucc := @arrivedBefore_succ outcomes i
  cases houtcome : outcomes i with
  | interrupted =>
      refine ⟨timeout, fun fuel => ?_⟩
      rw [houtcome, RxOutcome.available, List.append_nil] at hsucc
      rw [hsucc, rxLoop]
      simp [rxPort, houtcome]
  | timeout => exact absurd (Or.inl houtcome) hfinal
  | selectFailed => exact absurd (Or.inr (Or.inl houtcome)) hfinal
  | readFailed => exact absurd (Or.inr (Or.inr houtcome)) hfinal
  | characters available =>
      refine ⟨modbusIntercharTimeoutMs, fun fuel => ?_⟩
      rw [houtcome, RxOutcome.available] at hsucc
      rw [hsucc, List.length_append] at hfull
      have htake : available.take (modbusMaxFrameSz - (arrivedBefore outcomes i).length) =
          available := List.take_of_length_le (by omega)
      have hnotfull : (arrivedBefore outcomes i ++ available).length ≠ modbusMaxFrameSz := by
        rw [List.length_append]
        omega
      rw [rxLoop, hsucc]
      simp only [rxPort, houtcome, htake]
      rw [if_neg hnotfull]

/-- A turn that ends the loop. -/
theorem rxLoop_stop {i timeout : ℕ} (hbefore : ∀ j < i, ¬ Stops outcomes j)
    (hstop : Stops outcomes i) :
    ∃ result, rxLoop (rxPort outcomes) 1 timeout (arrivedBefore outcomes i) i = some result := by
  have hroom := length_arrivedBefore_lt hbefore
  rcases hstop with hfinal | hfull
  · rw [rxLoop]
    rcases hfinal with houtcome | houtcome | houtcome <;> simp [rxPort, houtcome]
  · rw [arrivedBefore_succ, List.length_append] at hfull
    cases houtcome : outcomes i with
    | characters available =>
        rw [houtcome, RxOutcome.available] at hfull
        have hexact : (arrivedBefore outcomes i ++
            available.take (modbusMaxFrameSz - (arrivedBefore outcomes i).length)).length =
              modbusMaxFrameSz := by
          rw [List.length_append, List.length_take]
          omega
        rw [rxLoop]
        simp only [rxPort, houtcome]
        rw [if_pos hexact]
        exact ⟨_, rfl⟩
    | _ =>
        rw [houtcome, RxOutcome.available, List.length_nil] at hfull
        omega

/-- Up to a turn that ends the loop, each turn goes on to the next. -/
theorem rxLoop_turns {i : ℕ} (hbefore : ∀ j < i, ¬ Stops outcomes j) :
    ∃ timeout, ∀ fuel, modbusRx (rxPort outcomes) (fuel + i) 0 =
      rxLoop (rxPort outcomes) fuel timeout (arrivedBefore outcomes i) i := by
  induction i with
  | zero => exact ⟨modbusResponseTimeoutMs, fun fuel => rfl⟩
  | succ i ih =>
      have hearlier : ∀ j < i, ¬ Stops outcomes j := fun j hj => hbefore j (by omega)
      obtain ⟨timeout, hturns⟩ := ih hearlier
      obtain ⟨timeout', hpass⟩ := @rxLoop_pass outcomes i timeout hearlier
        (hbefore i (Nat.lt_succ_self i))
      refine ⟨timeout', fun fuel => ?_⟩
      rw [← hpass, ← hturns, Nat.add_right_comm, Nat.add_assoc]

open Classical in
/-- {lit}`ModbusRx` returns exactly if one of the turns ends its loop. -/
theorem returns_iff : Returns outcomes ↔ ∃ i, Stops outcomes i := by
  constructor
  · rintro ⟨fuel, result, hrun⟩
    by_contra hnever
    obtain ⟨timeout, hturns⟩ := rxLoop_turns (i := fuel) fun j _ => not_exists.mp hnever j
    have hnone := hturns 0
    rw [Nat.zero_add, hrun] at hnone
    cases hnone
  · intro hexists
    obtain ⟨timeout, hturns⟩ := rxLoop_turns fun j hj => Nat.find_min hexists hj
    obtain ⟨result, hstop⟩ := @rxLoop_stop outcomes _ timeout
      (fun j hj => Nat.find_min hexists hj) (Nat.find_spec hexists)
    exact ⟨1 + Nat.find hexists, result, (hturns 1).trans hstop⟩

/-- If characters keep arriving, any number of them arrives. -/
theorem exists_le_length_arrivedBefore
    (hmore : ∀ n, ∃ i ≥ n, (outcomes i).available ≠ []) (count : ℕ) :
    ∃ n, count ≤ (arrivedBefore outcomes n).length := by
  induction count with
  | zero => exact ⟨0, Nat.zero_le _⟩
  | succ count ih =>
      obtain ⟨n, hn⟩ := ih
      obtain ⟨i, hi, havailable⟩ := hmore n
      have hpositive := List.length_pos_iff.mpr havailable
      have hmono := @length_arrivedBefore_mono outcomes _ _ hi
      refine ⟨i + 1, ?_⟩
      rw [arrivedBefore_succ, List.length_append]
      omega

/-- What makes receiving end: a final outcome, a full frame, or that only finitely many
reads bring no characters. -/
def Bounded (outcomes : ℕ → RxOutcome) : Prop :=
  (∃ i, (outcomes i).Final) ∨ (∃ n, modbusMaxFrameSz ≤ (arrivedBefore outcomes n).length) ∨
    ∃ n, ∀ i ≥ n, outcomes i ≠ .characters []

theorem ends_of_bounded (hbounded : Bounded outcomes) :
    Returns outcomes ∨ ∃ n, ∀ i ≥ n, outcomes i = .interrupted := by
  rw [returns_iff]
  rcases hbounded with ⟨i, hfinal⟩ | ⟨n, hfull⟩ | ⟨n, hnonempty⟩
  · exact Or.inl ⟨i, Or.inl hfinal⟩
  · exact Or.inl ⟨n, Or.inr (hfull.trans (length_arrivedBefore_mono (Nat.le_succ n)))⟩
  · by_contra hends
    obtain ⟨hnever, hinterrupted⟩ := not_or.mp hends
    push Not at hinterrupted
    -- the turns that are not interrupted bring characters
    have hmore : ∀ m, ∃ i ≥ m, (outcomes i).available ≠ [] := by
      intro m
      obtain ⟨i, hi, hne⟩ := hinterrupted (max m n)
      refine ⟨i, (le_max_left m n).trans hi, ?_⟩
      have hnotfinal : ¬ (outcomes i).Final := fun hfinal => hnever ⟨i, Or.inl hfinal⟩
      have hnotnil := hnonempty i ((le_max_right m n).trans hi)
      cases houtcome : outcomes i with
      | interrupted => exact absurd houtcome hne
      | timeout => exact absurd (Or.inl houtcome) hnotfinal
      | selectFailed => exact absurd (Or.inr (Or.inl houtcome)) hnotfinal
      | readFailed => exact absurd (Or.inr (Or.inr houtcome)) hnotfinal
      | characters available =>
          rintro rfl
          exact hnotnil houtcome
    obtain ⟨k, hk⟩ := exists_le_length_arrivedBefore hmore modbusMaxFrameSz
    exact hnever ⟨k, Or.inr (hk.trans (length_arrivedBefore_mono (Nat.le_succ k)))⟩

theorem bounded_of_ends (hends : Returns outcomes ∨ ∃ n, ∀ i ≥ n, outcomes i = .interrupted) :
    Bounded outcomes := by
  rcases hends with hreturns | ⟨n, hinterrupted⟩
  · obtain ⟨i, hfinal | hfull⟩ := returns_iff.mp hreturns
    · exact Or.inl ⟨i, hfinal⟩
    · exact Or.inr (Or.inl ⟨i + 1, hfull⟩)
  · refine Or.inr (Or.inr ⟨n, fun i hi => ?_⟩)
    rw [hinterrupted i hi]
    simp

end Outcomes

/-- Receiving a frame always ends, inside the frame buffer and with the characters read, if
and only if an outcome is final, 256 characters arrive, or only finitely many reads bring
no characters. -/
theorem receives_iff (outcomes : ℕ → RxOutcome) : Receives outcomes ↔ Bounded outcomes := by
  constructor
  · exact fun hreceives => bounded_of_ends hreceives.ends
  · intro hbounded
    refine ⟨ends_of_bounded hbounded, fun fuel => ?_, fun fuel frm turns hrun => ?_⟩
    · exact rxLoopLogged_inBuffer respectsLimit_rxPort (by decide)
    · unfold modbusRx at hrun
      rw [← rxLoopLogged_snd] at hrun
      exact (rxLoopLogged_frame hrun).trans (List.nil_append _)

/-- A port that has been hung up is readable for ever and brings nothing. -/
theorem hungUp_not_receives : ¬ Receives fun _ => .characters [] := by
  intro hreceives
  rcases bounded_of_ends hreceives.ends with ⟨i, hfinal⟩ | ⟨n, hfull⟩ | ⟨n, hnonempty⟩
  · rcases hfinal with houtcome | houtcome | houtcome <;> cases houtcome
  · have hnone : arrivedBefore (fun _ => .characters []) n = [] := by
      simp [arrivedBefore, RxOutcome.available]
    rw [hnone] at hfull
    exact absurd hfull (by decide)
  · exact hnonempty n le_rfl rfl

end ModbusRs232Comm

end Apcupsd
