import Apcupsd.Nis.Socket

/-!
# What a receiver makes of a stream

As long as no interruption gets in the way, the variables of {lit}`net_recv` and
{lit}`read_nbytes` are a function of the bytes that have been received, and not of the
pieces in which they came.

Main results:

- Definition {lit}`Follows`: the variables are those of the receiver of the format.
- Theorem {lit}`Follows.received`: they stay so when bytes arrive, however many.
- Theorem {lit}`Follows.recvInterrupted`: they stay so when the inner loop goes on.
-/

namespace Apcupsd

open LengthPrefix Deframer

/-- The result that {lit}`net_recv` gives a reason to halt. -/
def LengthPrefix.Halt.result : Halt → Int
  | .terminator => 0
  | .oversize => -einval

/-- The phase for a length that is known, or is not. -/
def phaseOf : Option ℕ → RecvPhase
  | none => .header
  | some len => .data len

/-- {lit}`read_nbytes` has counted the bytes that are pending, and has stored them. -/
structure Counts (read : ReadState) (d : Deframer) : Prop where
  nbytes : read.nbytes = d.goal
  nleft : read.nleft = d.goal - d.pending.length
  stored : bytesAt read.memory d.pending.length = d.pending
  open_ : d.pending.length < d.goal
  idle : d.pending = [] → read.nread = 0 ∨ read.nread = -1

/-- The variables of a receiver are those of the receiver of the format. -/
structure Follows (receiver : Receiver) (d : Deframer) : Prop where
  results : receiver.results = d.messages
  ended : receiver.ended = d.halt.map Halt.result
  phase : d.halt = none → receiver.phase = phaseOf d.expected
  counts : d.halt = none → Counts receiver.read d

theorem Counts.offset {read : ReadState} {d : Deframer} (hcounts : Counts read d) :
    read.offset = d.pending.length := by
  have hopen := hcounts.open_
  simp only [ReadState.offset, hcounts.nbytes, hcounts.nleft]
  omega

theorem counts_start (messages : List (List UInt8)) (memory : ℕ → UInt8) :
    Counts (ReadState.start 2 memory) (between messages) :=
  ⟨rfl, rfl, rfl, by simp [between, goal], fun _ => Or.inl rfl⟩

theorem counts_inside (messages : List (List UInt8)) {len : ℕ} (hpos : 0 < len)
    (memory : ℕ → UInt8) : Counts (ReadState.start len memory) (inside messages len []) :=
  ⟨rfl, by simp [ReadState.start, inside, goal], rfl, hpos, fun _ => Or.inl rfl⟩

theorem follows_start (pktsizMemory buff : ℕ → UInt8) :
    Follows (Receiver.start pktsizMemory buff) (between []) :=
  ⟨rfl, rfl, fun _ => rfl, fun _ => counts_start [] pktsizMemory⟩

/-! ## Bytes that arrive -/

/-- What {lit}`read_nbytes` makes of bytes that do not complete the read. -/
theorem Counts.received_some {read : ReadState} {d : Deframer} {bytes : List UInt8}
    (hcounts : Counts read d) (hne : bytes ≠ [])
    (hlen : d.pending.length + bytes.length < d.goal) :
    ∃ after, read.readTurn (.received bytes) = (after, none) ∧
      Counts after { d with pending := d.pending ++ bytes } := by
  have hpos : 0 < bytes.length := List.length_pos_iff.mpr hne
  have hstored := bytesAt_storeAt read.memory d.pending.length bytes
  rw [hcounts.stored] at hstored
  refine ⟨{ read with
    nread := bytes.length
    memory := storeAt read.memory read.offset bytes
    nleft := read.nleft - bytes.length }, ?_, hcounts.nbytes, ?_, ?_, ?_, fun hnil => ?_⟩
  · simp only [ReadState.readTurn, ReadState.leaveLoop]
    rw [if_neg (by omega), if_pos (by rw [hcounts.nleft]; omega)]
  · simp only [goal, List.length_append]
    rw [hcounts.nleft, goal]
    push_cast
    omega
  · simp only [List.length_append]
    rw [hcounts.offset, hstored]
  · simpa [goal] using hlen
  · exact absurd (List.append_eq_nil_iff.mp hnil).2 hne

/-- What {lit}`read_nbytes` makes of bytes that complete the read. -/
theorem Counts.received_all {read : ReadState} {d : Deframer} {bytes : List UInt8}
    (hcounts : Counts read d) (hne : bytes ≠ [])
    (hlen : d.pending.length + bytes.length = d.goal) :
    ∃ after, read.readTurn (.received bytes) = (after, some (d.goal : Int)) ∧
      bytesAt after.memory d.goal = d.pending ++ bytes := by
  have hpos : 0 < bytes.length := List.length_pos_iff.mpr hne
  have hstored := bytesAt_storeAt read.memory d.pending.length bytes
  rw [hcounts.stored, hlen] at hstored
  refine ⟨{ read with
    nread := bytes.length
    memory := storeAt read.memory read.offset bytes
    nleft := read.nleft - bytes.length }, ?_, ?_⟩
  · have hleft : read.nleft - bytes.length = 0 := by
      rw [hcounts.nleft]
      omega
    simp only [ReadState.readTurn, ReadState.leaveLoop]
    rw [if_neg (by omega), if_neg (by rw [hleft]; decide), hleft, hcounts.nbytes]
    simp
  · simpa only [hcounts.offset] using hstored

/-- A receiver goes on following the stream when bytes arrive, however many. -/
theorem Follows.received {maxlen : ℕ} {receiver : Receiver} {d : Deframer}
    {bytes : List UInt8} (hfollows : Follows receiver d) (hhalt : d.halt = none)
    (hne : bytes ≠ []) (hlen : (bytes.length : Int) ≤ receiver.read.nleft) :
    Follows (receiver.turn maxlen (.received bytes)) (feedAll maxlen d bytes) := by
  have hcounts := hfollows.counts hhalt
  have hphase := hfollows.phase hhalt
  have hended := hfollows.ended
  have hresults := hfollows.results
  have htotal : d.pending.length + bytes.length ≤ d.goal := by
    rw [hcounts.nleft] at hlen
    omega
  rcases d with ⟨messages, expected, pending, halt⟩
  dsimp only at hhalt hphase hresults hended htotal
  subst hhalt
  rcases Nat.lt_or_eq_of_le htotal with hlt | heq
  · -- the read goes on
    rcases hcounts.received_some hne hlt with ⟨after, hturn, hafter⟩
    have hfed : feedAll maxlen ⟨messages, expected, pending, none⟩ bytes =
        ⟨messages, expected, pending ++ bytes, none⟩ := by
      cases expected with
      | some len => exact feedAll_inside messages hlt
      | none =>
          have hpos : 0 < bytes.length := List.length_pos_iff.mpr hne
          have hpending : pending = [] := by
            refine List.length_eq_zero_iff.mp ?_
            simp only [goal, Option.getD_none] at hlt
            omega
          subst hpending
          have hone : bytes.length = 1 := by
            simp only [goal, Option.getD_none, List.length_nil] at hlt
            omega
          rcases List.length_eq_one_iff.mp hone with ⟨byte, rfl⟩
          simp [feed]
    rw [hfed]
    simp only [Receiver.turn, hturn]
    exact ⟨hresults, hended, fun _ => hphase, fun _ => hafter⟩
  · -- the read is complete
    rcases hcounts.received_all hne heq with ⟨after, hturn, hafter⟩
    cases expected with
    | some len =>
        have hopen := hcounts.open_
        simp only [goal, Option.getD_some] at hafter heq hopen hturn
        have hfed : feedAll maxlen ⟨messages, some len, pending, none⟩ bytes =
            between (messages ++ [pending ++ bytes]) := feedAll_completes messages hopen heq
        have hturned : receiver.turn maxlen (.received bytes) =
            { receiver with
              results := receiver.results ++ [pending ++ bytes]
              phase := .header
              read := ReadState.start 2 receiver.pktsizMemory
              buff := after.memory } := by
          simp only [Receiver.turn, hturn, Receiver.readReturned, hphase, phaseOf, hafter]
          rw [if_neg (by omega), if_neg (by simp)]
        rw [hfed, hturned]
        exact ⟨by rw [hresults]; rfl, hended, fun _ => rfl, fun _ => counts_start _ _⟩
    | none =>
        simp only [goal, Option.getD_none] at hafter heq hturn
        rcases List.length_eq_two.mp (show (pending ++ bytes).length = 2 by simpa using heq) with
          ⟨high, low, hpair⟩
        have hfront : feedAll maxlen (between messages) pending =
            ⟨messages, none, pending, none⟩ := by
          have hpos : 0 < bytes.length := List.length_pos_iff.mpr hne
          cases pending with
          | nil => rfl
          | cons first others =>
              have hothers : others = [] := by
                refine List.length_eq_zero_iff.mp ?_
                simp only [List.length_cons] at heq
                omega
              subst hothers
              simp [feed, between]
        have hfed : feedAll maxlen ⟨messages, none, pending, none⟩ bytes =
            (between messages).announce maxlen (lengthOf high low) := by
          rw [← hfront, ← feedAll_append, hpair, feedAll_length]
        have hmemory : after.memory 0 = high ∧ after.memory 1 = low := by
          rw [hpair] at hafter
          simpa [bytesAt, List.range_succ] using hafter
        rw [hfed]
        simp only [Receiver.turn, hturn, Receiver.readReturned, hphase, phaseOf, hmemory, announce]
        rw [if_neg (by decide), if_neg (by decide)]
        split_ifs with hover hzero
        · exact ⟨hresults, rfl, (by rintro ⟨⟩), (by rintro ⟨⟩)⟩
        · exact ⟨hresults, rfl, (by rintro ⟨⟩), (by rintro ⟨⟩)⟩
        · exact ⟨hresults, hended, fun _ => rfl,
            fun _ => counts_inside messages (Nat.pos_of_ne_zero hzero) receiver.buff⟩

/-- The bytes may be the first of those that are to be read. -/
theorem Follows.take {maxlen : ℕ} {receiver : Receiver} {received unread : List UInt8} {count : ℕ}
    (hfollows : Follows receiver (feedAll maxlen (between []) received))
    (hhalt : (feedAll maxlen (between []) received).halt = none) (hpos : 0 < count)
    (hnleft : (count : Int) ≤ receiver.read.nleft) (hlen : count ≤ unread.length) :
    Follows (receiver.turn maxlen (.received (unread.take count)))
      (feedAll maxlen (between []) (received ++ unread.take count)) := by
  have htaken : (unread.take count).length = count := by simp [hlen]
  rw [feedAll_append]
  refine hfollows.received hhalt ?_ (by rw [htaken]; exact hnleft)
  exact List.length_pos_iff.mp (by rw [htaken]; exact hpos)

/-! ## Interruptions -/

/-- An interrupted {lit}`recv` counts nothing. -/
theorem Follows.recvInterrupted {maxlen : ℕ} {receiver : Receiver} {d : Deframer}
    (hfollows : Follows receiver d) :
    Follows (receiver.turn maxlen .recvInterrupted) d :=
  ⟨hfollows.results, hfollows.ended, hfollows.phase, fun hhalt =>
    ⟨(hfollows.counts hhalt).nbytes, (hfollows.counts hhalt).nleft,
      (hfollows.counts hhalt).stored, (hfollows.counts hhalt).open_, fun _ => Or.inr rfl⟩⟩

/-- An interrupted {lit}`select` counts nothing if the last {lit}`recv` was interrupted. -/
theorem Receiver.turn_selectInterrupted {maxlen : ℕ} {receiver : Receiver}
    (hnread : receiver.read.nread = -1) :
    receiver.turn maxlen .selectInterrupted = receiver := by
  simp [turn, ReadState.readTurn, hnread]

end Apcupsd
