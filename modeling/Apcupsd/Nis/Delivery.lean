import Apcupsd.Foundations.Execution
import Apcupsd.Nis.Deframing

/-!
# Delivery of messages

A caller passes messages to {lit}`net_send` at one end of a connection, and a caller
collects the positive results of {lit}`net_recv` at the other end.  The socket layer cuts
the bytes as it likes, and any system call may be interrupted at any time.

Main results:

- Theorem {lit}`Sender.turn_rest`: the sender hands over the frames of its messages.
- Theorems {lit}`Delivering.send` and {lit}`Delivering.recv`: what a turn of either end
  preserves.
- Theorem {lit}`netRecv_faithful_iff`: the receiver accounts for every byte at every moment
  if and only if each interrupted {lit}`select` follows an interrupted {lit}`recv`.
-/

namespace Apcupsd

open LengthPrefix Deframer

/-! ## The two ends and the bytes between them -/

/-- The connection, with a record of the bytes that the receiver has taken from it. -/
structure Link where
  sender : Sender
  channel : List UInt8
  receiver : Receiver
  received : List UInt8

/-- One turn of either end. -/
inductive LinkLabel where
  | send (outcome : SendOutcome)
  | selectInterrupted
  | selectTimeout
  | selectError (errno : ℕ)
  | recvInterrupted
  | recvError (errno : ℕ)
  | recv (count : ℕ)
  | eof
deriving DecidableEq, Repr

namespace Link

def start (messages : List (List UInt8)) (pktsizMemory buff : ℕ → UInt8) : Link where
  sender := Sender.begin messages
  channel := []
  receiver := Receiver.start pktsizMemory buff
  received := []

/-- The sender has nothing more to send, and closes the connection. -/
def closed (link : Link) : Bool :=
  link.sender.queue.isEmpty || link.sender.stopped.isSome

def attempt (maxlen : ℕ) (link : Link) (outcome : Attempt) : Link :=
  { link with receiver := link.receiver.turn maxlen outcome }

/-- A turn, if it is possible. -/
def step (maxlen : ℕ) (link : Link) : LinkLabel → Option Link
  | .send outcome =>
      let possible : Bool :=
        match outcome with
        | .sent count => count ≤ link.sender.write.left.length
        | _ => true
      if link.closed || !possible then none
      else
        let (sender, bytes) := link.sender.turn outcome
        some { link with sender := sender, channel := link.channel ++ bytes }
  | label =>
      if link.receiver.ended.isSome then none
      else
        match label with
        | .recv count =>
            if 0 < count ∧ (count : Int) ≤ link.receiver.read.nleft ∧
                count ≤ link.channel.length then
              some { link.attempt maxlen (.received (link.channel.take count)) with
                channel := link.channel.drop count
                received := link.received ++ link.channel.take count }
            else none
        | .eof =>
            if link.closed && link.channel.isEmpty then some (link.attempt maxlen (.received []))
            else none
        | .selectInterrupted => some (link.attempt maxlen .selectInterrupted)
        | .selectTimeout => some (link.attempt maxlen .selectTimeout)
        | .selectError errno => some (link.attempt maxlen (.selectError errno))
        | .recvInterrupted => some (link.attempt maxlen .recvInterrupted)
        | .recvError errno => some (link.attempt maxlen (.recvError errno))
        | .send _ => none

end Link

namespace Link

variable {maxlen : ℕ} {link next : Link}

theorem step_send {outcome : SendOutcome}
    (hstep : link.step maxlen (.send outcome) = some next) :
    link.closed = false ∧ next = { link with
      sender := (link.sender.turn outcome).1
      channel := link.channel ++ (link.sender.turn outcome).2 } := by
  unfold step at hstep
  dsimp only at hstep
  split_ifs at hstep with himpossible
  rw [Bool.or_eq_true, not_or, Bool.not_eq_true] at himpossible
  exact ⟨himpossible.1, (Option.some.inj hstep).symm⟩

theorem step_selectInterrupted (hstep : link.step maxlen .selectInterrupted = some next) :
    link.receiver.ended = none ∧ next = link.attempt maxlen .selectInterrupted := by
  unfold step at hstep
  dsimp only at hstep
  split_ifs at hstep with hended
  exact ⟨Option.not_isSome_iff_eq_none.mp hended, (Option.some.inj hstep).symm⟩

theorem step_recvInterrupted (hstep : link.step maxlen .recvInterrupted = some next) :
    link.receiver.ended = none ∧ next = link.attempt maxlen .recvInterrupted := by
  unfold step at hstep
  dsimp only at hstep
  split_ifs at hstep with hended
  exact ⟨Option.not_isSome_iff_eq_none.mp hended, (Option.some.inj hstep).symm⟩

theorem step_recv {count : ℕ} (hstep : link.step maxlen (.recv count) = some next) :
    link.receiver.ended = none ∧
      (0 < count ∧ (count : Int) ≤ link.receiver.read.nleft ∧ count ≤ link.channel.length) ∧
      next = { link.attempt maxlen (.received (link.channel.take count)) with
        channel := link.channel.drop count
        received := link.received ++ link.channel.take count } := by
  unfold step at hstep
  dsimp only at hstep
  split_ifs at hstep with hended hcount
  exact ⟨Option.not_isSome_iff_eq_none.mp hended, hcount, (Option.some.inj hstep).symm⟩

theorem step_eof (hstep : link.step maxlen .eof = some next) :
    link.receiver.ended = none ∧ link.closed = true ∧ link.channel = [] ∧
      next = link.attempt maxlen (.received []) := by
  unfold step at hstep
  dsimp only at hstep
  split_ifs at hstep with hended hclosed
  rw [Bool.and_eq_true, List.isEmpty_iff] at hclosed
  exact ⟨Option.not_isSome_iff_eq_none.mp hended, hclosed.1, hclosed.2,
    (Option.some.inj hstep).symm⟩

end Link

/-- The socket layer does no more than cut the stream and interrupt calls. -/
def LinkLabel.splits : LinkLabel → Bool
  | .send .interrupted => true
  | .send (.sent count) => count != 0
  | .selectInterrupted | .recvInterrupted | .recv _ | .eof => true
  | .send (.error _) | .selectTimeout | .selectError _ | .recvError _ => false

/-! ## What is to hold -/

/-- The bytes that the receiver has counted: those of its results, of the length that it
has read, and of the read that is under way. -/
def Receiver.account (receiver : Receiver) : List UInt8 :=
  frames receiver.results ++
    (match receiver.phase with
    | .header => []
    | .data pktsiz => header pktsiz) ++
    bytesAt receiver.read.memory receiver.read.offset

/-- The results are the first messages, and all of them once every byte has been received;
the bytes that are counted are the bytes that were received; and nothing but the end of the
stream ends the sequence. -/
structure Faithful (messages : List (List UInt8)) (link : Link) : Prop where
  results : link.receiver.results <+: messages
  all : link.received = frames messages → link.receiver.results = messages
  account : link.receiver.ended = none → link.received = link.receiver.account
  ended : ∀ rc, link.receiver.ended = some rc → link.received = frames messages

/-- As long as {lit}`left` bytes are to be received, each interrupted {lit}`select` follows
an interrupted {lit}`recv`, or a {lit}`select` that does; {lit}`after` says whether the turn
before was such a one. -/
def interruptsAfterRecv (after : Bool) (left : ℕ) : List LinkLabel → Bool
  | [] => true
  | .selectInterrupted :: labels =>
      (after || left == 0) && interruptsAfterRecv after left labels
  | .recvInterrupted :: labels => interruptsAfterRecv true left labels
  | .recv count :: labels => interruptsAfterRecv false (left - count) labels
  | _ :: labels => interruptsAfterRecv after left labels

/-! ## The sender -/

/-- The sender is in the middle of a write that will succeed. -/
structure Sender.Ok (maxlen : ℕ) (sender : Sender) : Prop where
  stopped : sender.stopped = none
  fits : ∀ m ∈ sender.queue, Fits maxlen m
  left : sender.queue ≠ [] → sender.write.left ≠ []
  nbytes : ∀ m ∈ sender.queue.head?, sender.write.nbytes =
    match sender.phase with
    | .header => 2
    | .data => m.length

theorem Sender.ok_begin {maxlen : ℕ} {queue : List (List UInt8)}
    (hfits : ∀ m ∈ queue, Fits maxlen m) : (Sender.begin queue).Ok maxlen := by
  refine ⟨rfl, hfits, fun hqueue => ?_, fun m hm => ?_⟩
  · cases queue with
    | nil => exact absurd rfl hqueue
    | cons message queue => exact List.cons_ne_nil _ _
  · cases queue with
    | nil => cases hm
    | cons message queue => rfl

theorem Sender.rest_begin (queue : List (List UInt8)) :
    (Sender.begin queue).rest = frames queue := by
  cases queue with
  | nil => rfl
  | cons message queue => simp [begin, Sender.rest, frame]

theorem Sender.Ok.rest_ne_nil {maxlen : ℕ} {sender : Sender} (hok : sender.Ok maxlen)
    (hqueue : sender.queue ≠ []) : sender.rest ≠ [] := by
  have hleft := hok.left hqueue
  rcases sender with ⟨queue, phase, write, stopped⟩
  cases queue with
  | nil => exact absurd rfl hqueue
  | cons message queue =>
      have hne : write.left ≠ [] := hleft
      cases phase with
      | header => simp [Sender.rest, hne]
      | data => simp [Sender.rest, hne]

/-- The sender hands over the bytes that are still to be sent, in their order. -/
theorem Sender.turn_rest {maxlen : ℕ} {sender : Sender} (hok : sender.Ok maxlen)
    (hqueue : sender.queue ≠ []) {outcome : SendOutcome}
    (hsplits : (LinkLabel.send outcome).splits = true) :
    (sender.turn outcome).1.Ok maxlen ∧
      sender.rest = (sender.turn outcome).2 ++ (sender.turn outcome).1.rest := by
  rcases hok with ⟨hstopped, hfits, hleft, hnbytes⟩
  rcases sender with ⟨queue, phase, write, stopped⟩
  dsimp only at hstopped hfits hleft hnbytes hqueue
  subst hstopped
  cases outcome with
  | interrupted => exact ⟨⟨rfl, hfits, hleft, hnbytes⟩, rfl⟩
  | error errno => cases hsplits
  | sent count =>
      have hcount : count ≠ 0 := by simpa [LinkLabel.splits] using hsplits
      cases queue with
      | nil => exact absurd rfl hqueue
      | cons message queue =>
          have hmessage := hfits message List.mem_cons_self
          have hwrite := hnbytes message rfl
          have hbytes := List.take_append_drop count write.left
          by_cases hdone : write.left.drop count = []
          · rw [hdone, List.append_nil] at hbytes
            cases phase with
            | header =>
                have hne : message ≠ [] := List.length_pos_iff.mp hmessage.1
                have hturn : Sender.turn ⟨message :: queue, .header, write, none⟩ (.sent count) =
                    (⟨message :: queue, .data, ⟨message.length, message⟩, none⟩,
                      write.left.take count) := by
                  simp only at hwrite
                  simp [Sender.turn, WriteState.writeTurn, hcount, hdone, hwrite,
                    Sender.writeReturned, hne]
                rw [hturn]
                refine ⟨⟨rfl, hfits, fun _ => hne, ?_⟩, ?_⟩
                · rintro m ⟨⟩
                  rfl
                · simp [Sender.rest, hbytes]
            | data =>
                have hturn : Sender.turn ⟨message :: queue, .data, write, none⟩ (.sent count) =
                    (Sender.begin queue, write.left.take count) := by
                  have hpos := hmessage.1
                  simp only at hwrite
                  simp only [Sender.turn, WriteState.writeTurn, hdone, hwrite,
                    Sender.writeReturned, if_neg hcount, if_true]
                  rw [if_neg (by omega), if_neg (by simp)]
                rw [hturn]
                refine ⟨Sender.ok_begin fun m hm => hfits m (List.mem_cons_of_mem _ hm), ?_⟩
                rw [Sender.rest_begin, hbytes]
                rfl
          · have hturn : Sender.turn ⟨message :: queue, phase, write, none⟩ (.sent count) =
                (⟨message :: queue, phase, { write with left := write.left.drop count }, none⟩,
                  write.left.take count) := by
              simp [Sender.turn, WriteState.writeTurn, hcount, hdone]
            rw [hturn]
            refine ⟨⟨rfl, hfits, fun _ => hdone, hnbytes⟩, ?_⟩
            have hsplit : ∀ more, write.left ++ more =
                write.left.take count ++ (write.left.drop count ++ more) := by
              intro more
              rw [← List.append_assoc, hbytes]
            cases phase with
            | header => simpa [Sender.rest] using hsplit _
            | data => simpa [Sender.rest] using hsplit _

/-! ## The receiver -/

section Receiving

variable {maxlen : ℕ} {messages : List (List UInt8)} {link next : Link} {after : Bool}

/-- What a receiver counts is what it has received. -/
theorem Follows.account {receiver : Receiver} {d : Deframer} {bytes : List UInt8}
    (hfollows : Follows receiver d) (haccounts : Accounts maxlen d bytes)
    (hhalt : d.halt = none) : bytes = receiver.account := by
  have hcounts := hfollows.counts hhalt
  have hphase := hfollows.phase hhalt
  rw [Accounts, hhalt] at haccounts
  rw [haccounts.2, Receiver.account, hfollows.results, hphase, hcounts.offset, hcounts.stored]
  cases hexpected : d.expected with
  | none => simp [lead, phaseOf, hexpected]
  | some len => simp [lead, phaseOf, hexpected]

/-- A receiver that has received bytes remembers their number, and starts the next read
with none. -/
theorem Receiver.turn_received_nread (receiver : Receiver) (bytes : List UInt8) :
    0 ≤ (receiver.turn maxlen (.received bytes)).read.nread := by
  have hread : 0 ≤ (receiver.read.readTurn (.received bytes)).1.nread := by
    simp only [ReadState.readTurn, ReadState.leaveLoop]
    split_ifs <;> exact Int.natCast_nonneg _
  unfold Receiver.turn
  dsimp only
  split
  · exact hread
  · unfold Receiver.readReturned
    dsimp only
    split <;> split_ifs <;> first | exact hread | exact Int.le_refl 0

/-- A {lit}`select` that is interrupted at another time than after an interrupted
{lit}`recv` changes the number of bytes that are counted, if the receiver goes on. -/
theorem Receiver.account_selectInterrupted {receiver : Receiver} {d : Deframer}
    (hcounts : Counts receiver.read d) (hphase : receiver.phase = phaseOf d.expected)
    (hminus : receiver.read.nread ≠ -1) (hnonneg : -1 ≤ receiver.read.nread)
    (hgoes : (receiver.turn maxlen .selectInterrupted).ended = none) :
    receiver.account.length ≠ (receiver.turn maxlen .selectInterrupted).account.length := by
  have hopen := hcounts.open_
  have hoffset := hcounts.offset
  have hturn : receiver.read.readTurn .selectInterrupted = receiver.read.leaveLoop := if_neg hminus
  unfold Receiver.turn at hgoes ⊢
  rw [hturn] at hgoes ⊢
  unfold ReadState.leaveLoop at hgoes ⊢
  by_cases hzero : receiver.read.nread = 0
  · -- the read ends as if the connection had
    rw [if_pos hzero] at hgoes
    simp only [readReturned] at hgoes
    split at hgoes <;> cases hgoes
  · rw [if_neg hzero] at hgoes ⊢
    dsimp only at hgoes ⊢
    by_cases hmore : receiver.read.nleft - receiver.read.nread > 0
    · -- the bytes of the last turn are counted again
      rw [if_pos hmore]
      simp only [account, List.length_append, length_bytesAt, ReadState.offset]
      have hnbytes := hcounts.nbytes
      have hnleft := hcounts.nleft
      omega
    · -- the read ends with too few bytes
      simp only [if_neg hmore, readReturned] at hgoes ⊢
      cases hexpected : d.expected with
      | none =>
          simp only [hphase, hexpected, phaseOf] at hgoes ⊢
          simp only [goal, hexpected, Option.getD_none] at hopen
          split_ifs at hgoes ⊢
          simp only [account, hphase, hexpected, phaseOf, List.length_append, length_bytesAt,
            length_header, hoffset, List.length_nil]
          simp only [ReadState.offset, ReadState.start]
          omega
      | some len =>
          simp only [hphase, hexpected, phaseOf] at hgoes ⊢
          simp only [goal, hexpected, Option.getD_some] at hopen
          split_ifs at hgoes ⊢
          simp only [account, hphase, hexpected, phaseOf, List.length_append, length_bytesAt,
            length_header, hoffset, List.length_nil, frames_append, frames_cons, frames_nil,
            length_frame]
          simp only [ReadState.offset, ReadState.start]
          omega

/-- What the receiver is about to do, as long as {lit}`net_recv` goes on. -/
structure Receiving (maxlen : ℕ) (after : Bool) (link : Link) : Prop where
  follows : Follows link.receiver (feedAll maxlen (between []) link.received)
  interrupted : after = true ↔ link.receiver.read.nread = -1
  nonneg : -1 ≤ link.receiver.read.nread

theorem Receiving.nread_ne (hrunning : Receiving maxlen after link) (hafter : after = false) :
    link.receiver.read.nread ≠ -1 := by
  intro hminus
  have htrue := hrunning.interrupted.mpr hminus
  rw [hafter] at htrue
  cases htrue

/-- The invariant of the runs in which every interrupted {lit}`select` is harmless. -/
structure Delivering (maxlen : ℕ) (messages : List (List UInt8)) (after : Bool) (link : Link) :
    Prop where
  sender : link.sender.Ok maxlen
  stream : frames messages = link.received ++ (link.channel ++ link.sender.rest)
  running : link.receiver.ended = none → Receiving maxlen after link
  ended : ∀ rc, link.receiver.ended = some rc →
    link.received = frames messages ∧ link.receiver.results = messages

theorem delivering_start (hfits : ∀ m ∈ messages, Fits maxlen m)
    (pktsizMemory buff : ℕ → UInt8) :
    Delivering maxlen messages false (Link.start messages pktsizMemory buff) where
  sender := Sender.ok_begin hfits
  stream := (Sender.rest_begin messages).symm
  running := fun _ =>
    ⟨follows_start pktsizMemory buff, by simp [Link.start, Receiver.start, ReadState.start],
      by simp [Link.start, Receiver.start, ReadState.start]⟩
  ended := fun _ hended => by cases hended

theorem feedAll_of_all (hfits : ∀ m ∈ messages, Fits maxlen m) {received : List UInt8}
    (hall : received = frames messages) :
    feedAll maxlen (between []) received = between messages := by
  rw [hall, feedAll_frames hfits, List.nil_append]

namespace Delivering

variable (hfits : ∀ m ∈ messages, Fits maxlen m) (hinv : Delivering maxlen messages after link)
include hfits hinv

theorem halt_eq_none : (feedAll maxlen (between []) link.received).halt = none :=
  (feedAll_of_frames_eq hfits hinv.stream).2

/-- In such a run every byte is accounted for. -/
theorem faithful : Faithful messages link := by
  cases hended : link.receiver.ended with
  | some rc =>
      rcases hinv.ended rc hended with ⟨hall, hresults⟩
      exact ⟨hresults ▸ List.prefix_refl _, fun _ => hresults,
        fun hnone => absurd (hended.symm.trans hnone) (Option.some_ne_none rc), fun _ _ => hall⟩
  | none =>
      have hfollows := (hinv.running hended).follows
      refine ⟨?_, fun hall => ?_, fun _ => ?_, fun rc hrc => ?_⟩
      · rw [hfollows.results]
        exact (feedAll_of_frames_eq hfits hinv.stream).1
      · rw [hfollows.results, feedAll_of_all hfits hall]
        rfl
      · exact hfollows.account ((accounts_between maxlen []).feedAll link.received)
          (hinv.halt_eq_none hfits)
      · rw [hended] at hrc
        cases hrc

omit hfits in
theorem send {outcome : SendOutcome} (hsplits : (LinkLabel.send outcome).splits = true)
    (hstep : link.step maxlen (.send outcome) = some next) :
    Delivering maxlen messages after next ∧ next.received = link.received := by
  rcases Link.step_send hstep with ⟨hopen, rfl⟩
  have hqueue : link.sender.queue ≠ [] := by
    intro hqueue
    simp [Link.closed, hqueue] at hopen
  rcases Sender.turn_rest hinv.sender hqueue hsplits with ⟨hok, hrest⟩
  refine ⟨⟨hok, ?_, fun hended => ?_, hinv.ended⟩, rfl⟩
  · rw [hinv.stream, hrest]
    simp
  · rcases hinv.running hended with ⟨hfollows, hinterrupted, hnonneg⟩
    exact ⟨hfollows, hinterrupted, hnonneg⟩

omit hfits in
theorem recvInterrupted (hstep : link.step maxlen .recvInterrupted = some next) :
    Delivering maxlen messages true next ∧ next.received = link.received := by
  rcases Link.step_recvInterrupted hstep with ⟨hnone, rfl⟩
  have hrunning := hinv.running hnone
  refine ⟨⟨hinv.sender, hinv.stream, fun _ => ?_, fun rc hrc => ?_⟩, rfl⟩
  · exact ⟨@Follows.recvInterrupted maxlen _ _ hrunning.follows, ⟨fun _ => rfl, fun _ => rfl⟩,
      Int.le_refl (-1)⟩
  · exact absurd (hnone.symm.trans hrc) (Option.some_ne_none rc).symm

theorem recv {count : ℕ} (hstep : link.step maxlen (.recv count) = some next) :
    Delivering maxlen messages false next ∧
      next.received.length = link.received.length + count := by
  rcases Link.step_recv hstep with ⟨hnone, ⟨hpos, hleft, hlen⟩, rfl⟩
  have hrunning := hinv.running hnone
  have htaken : (link.channel.take count).length = count := by simp [hlen]
  have hfollows : Follows (link.receiver.turn maxlen (.received (link.channel.take count)))
      (feedAll maxlen (between []) (link.received ++ link.channel.take count)) :=
    hrunning.follows.take (hinv.halt_eq_none hfits) hpos hleft hlen
  have hstream : frames messages = (link.received ++ link.channel.take count) ++
      (link.channel.drop count ++ link.sender.rest) := by
    rw [hinv.stream]
    simp only [List.append_assoc]
    rw [← List.append_assoc (link.channel.take count), List.take_append_drop]
  have hhalt := (feedAll_of_frames_eq hfits hstream).2
  have hnread := @Receiver.turn_received_nread maxlen link.receiver (link.channel.take count)
  refine ⟨⟨hinv.sender, hstream, fun _ => ?_, fun rc hrc => ?_⟩, by simp [htaken]⟩
  · refine ⟨hfollows, ⟨(by rintro ⟨⟩), fun hminus => ?_⟩, Int.le_trans (by decide) hnread⟩
    have hturned : (link.receiver.turn maxlen
        (.received (link.channel.take count))).read.nread = -1 := hminus
    omega
  · have hended' := hfollows.ended
    rw [hhalt] at hended'
    exact absurd (hended'.symm.trans hrc) (Option.some_ne_none rc).symm

omit hfits in
/-- A turn that ends the sequence after the last byte keeps the results. -/
theorem attempt_of_all (hall : link.received = frames messages)
    (hresults : link.receiver.results = messages) {outcome : Attempt}
    (hturned : (link.receiver.turn maxlen outcome).ended = some 0 ∧
      (link.receiver.turn maxlen outcome).results = link.receiver.results) :
    Delivering maxlen messages false (link.attempt maxlen outcome) ∧
      (link.attempt maxlen outcome).receiver.ended.isSome := by
  refine ⟨⟨hinv.sender, hinv.stream, fun hrunning => ?_, fun rc _ => ⟨hall, ?_⟩⟩, ?_⟩
  · exact absurd (hturned.1.symm.trans hrunning) (Option.some_ne_none 0)
  · exact hturned.2.trans hresults
  · exact Option.isSome_iff_exists.mpr ⟨0, hturned.1⟩

theorem eof (hstep : link.step maxlen .eof = some next) :
    Delivering maxlen messages false next ∧ next.receiver.ended.isSome := by
  rcases Link.step_eof hstep with ⟨hnone, hclosed, hchannel, rfl⟩
  simp only [Link.closed, Bool.or_eq_true, List.isEmpty_iff, hinv.sender.stopped,
    Option.isSome_none, Bool.false_eq_true, or_false] at hclosed
  have hall : link.received = frames messages := by
    have hrest : link.sender.rest = [] := by simp [Sender.rest, hclosed]
    rw [hinv.stream, hchannel, hrest]
    simp
  have hfollows := (hinv.running hnone).follows
  rw [feedAll_of_all hfits hall] at hfollows
  refine hinv.attempt_of_all hall hfollows.results ?_
  simp [Receiver.turn, ReadState.readTurn, ReadState.leaveLoop, Receiver.readReturned,
    hfollows.phase rfl, between, phaseOf]

omit hfits in
/-- Nothing happens any more when the receiver has ended. -/
theorem labels_of_ended {labels : List LinkLabel} {last : Link}
    (hended : link.receiver.ended.isSome = true)
    (hrun : execute (Link.step maxlen) (fun _ _ => True) link labels = some last) :
    labels = [] := by
  rcases Option.isSome_iff_exists.mp hended with ⟨rc, hrc⟩
  have hqueue : link.sender.queue = [] := by
    by_contra hqueue
    have hrest := hinv.sender.rest_ne_nil hqueue
    have hstream := hinv.stream
    rw [(hinv.ended rc hrc).1] at hstream
    have hnone := List.append_cancel_left ((List.append_nil _).trans hstream)
    exact hrest (List.append_eq_nil_iff.mp hnone.symm).2
  have hclosed : link.closed = true := by simp [Link.closed, hqueue]
  cases labels with
  | nil => rfl
  | cons label labels =>
      simp only [execute, if_true] at hrun
      rcases Option.bind_eq_some_iff.mp hrun with ⟨next, hstep, -⟩
      cases label <;> simp [Link.step, hclosed, hended] at hstep

omit hfits in
/-- An interrupted {lit}`select` after an interrupted {lit}`recv` changes nothing. -/
theorem selectInterrupted_after (hafter : after = true)
    (hstep : link.step maxlen .selectInterrupted = some next) : next = link := by
  rcases Link.step_selectInterrupted hstep with ⟨hnone, rfl⟩
  rw [Link.attempt, Receiver.turn_selectInterrupted ((hinv.running hnone).interrupted.mp hafter)]

/-- An interrupted {lit}`select` after the last byte ends the sequence. -/
theorem selectInterrupted_all (hafter : after = false) (hall : link.received = frames messages)
    (hstep : link.step maxlen .selectInterrupted = some next) :
    Delivering maxlen messages false next ∧ next.receiver.ended.isSome := by
  rcases Link.step_selectInterrupted hstep with ⟨hnone, rfl⟩
  have hrunning := hinv.running hnone
  have hfollows := hrunning.follows
  rw [feedAll_of_all hfits hall] at hfollows
  have hnread : link.receiver.read.nread = 0 := by
    rcases (hfollows.counts rfl).idle rfl with hzero | hminus
    · exact hzero
    · exact absurd hminus (hrunning.nread_ne hafter)
  refine hinv.attempt_of_all hall hfollows.results ?_
  simp [Receiver.turn, ReadState.readTurn, ReadState.leaveLoop, Receiver.readReturned,
    hfollows.phase rfl, between, phaseOf, hnread]

/-- An interrupted {lit}`select` at another time ends the sequence too early, or counts
bytes that were not received. -/
theorem not_faithful_selectInterrupted (hafter : after = false)
    (hleft : link.received ≠ frames messages)
    (hstep : link.step maxlen .selectInterrupted = some next) : ¬ Faithful messages next := by
  intro hfaithful
  rcases Link.step_selectInterrupted hstep with ⟨hnone, rfl⟩
  have hrunning := hinv.running hnone
  have hcounts := hrunning.follows.counts (hinv.halt_eq_none hfits)
  have hminus := hrunning.nread_ne hafter
  have hnonneg := hrunning.nonneg
  -- the result of this turn is not that of the sequence
  have hgoes : (link.receiver.turn maxlen .selectInterrupted).ended = none := by
    cases hended' : (link.receiver.turn maxlen .selectInterrupted).ended with
    | none => rfl
    | some rc => exact absurd (hfaithful.ended rc hended') hleft
  have hsame : link.receiver.account.length =
      (link.receiver.turn maxlen .selectInterrupted).account.length := by
    rw [← (hinv.faithful hfits).account hnone]
    exact congrArg List.length (hfaithful.account hgoes)
  exact Receiver.account_selectInterrupted hcounts
    (hrunning.follows.phase (hinv.halt_eq_none hfits)) hminus hnonneg hgoes hsame

end Delivering

/-- The receiver goes on from a turn that splits the stream or interrupts a call as the
labels say. -/
theorem along_faithful_iff (hfits : ∀ m ∈ messages, Fits maxlen m) {labels : List LinkLabel}
    {last : Link} (hsplits : ∀ label ∈ labels, label.splits = true)
    (hinv : Delivering maxlen messages after link)
    (hrun : execute (Link.step maxlen) (fun _ _ => True) link labels = some last) :
    Along (Link.step maxlen) (Faithful messages) link labels ↔
      interruptsAfterRecv after ((frames messages).length - link.received.length) labels =
        true := by
  induction labels generalizing link after with
  | nil => exact ⟨fun _ => rfl, fun _ => hinv.faithful hfits⟩
  | cons label labels ih =>
      have hlabel := hsplits label List.mem_cons_self
      have hrest := fun l hl => hsplits l (List.mem_cons_of_mem _ hl)
      simp only [execute, if_true] at hrun
      rcases Option.bind_eq_some_iff.mp hrun with ⟨next, hstep, hnext⟩
      rw [along_cons_iff hstep]
      simp only [hinv.faithful hfits, true_and]
      cases label with
      | send outcome =>
          rcases hinv.send hlabel hstep with ⟨hnextInv, hreceived⟩
          rw [ih hrest hnextInv hnext, hreceived]
          rfl
      | recvInterrupted =>
          rcases hinv.recvInterrupted hstep with ⟨hnextInv, hreceived⟩
          rw [ih hrest hnextInv hnext, hreceived]
          rfl
      | recv count =>
          rcases hinv.recv hfits hstep with ⟨hnextInv, hreceived⟩
          rw [ih hrest hnextInv hnext, hreceived, Nat.sub_add_eq]
          rfl
      | eof =>
          rcases hinv.eof hfits hstep with ⟨hnextInv, hended⟩
          obtain rfl := hnextInv.labels_of_ended hended hnext
          exact ⟨fun _ => rfl, fun _ => hnextInv.faithful hfits⟩
      | selectInterrupted =>
          cases after with
          | true =>
              obtain rfl := hinv.selectInterrupted_after rfl hstep
              rw [ih hrest hinv hnext]
              simp [interruptsAfterRecv]
          | false =>
              by_cases hall : link.received = frames messages
              · rcases hinv.selectInterrupted_all hfits rfl hall hstep with ⟨hnextInv, hended⟩
                obtain rfl := hnextInv.labels_of_ended hended hnext
                simp [Along, interruptsAfterRecv, hnextInv.faithful hfits, hall]
              · have hleft : (frames messages).length - link.received.length ≠ 0 := by
                  intro hzero
                  have hlength := congrArg List.length hinv.stream
                  simp only [List.length_append] at hlength
                  have hnone : link.channel ++ link.sender.rest = [] := by
                    apply List.length_eq_zero_iff.mp
                    rw [List.length_append]
                    omega
                  exact hall (by rw [hinv.stream, hnone, List.append_nil])
                have hbroken := hinv.not_faithful_selectInterrupted hfits rfl hall hstep
                constructor
                · exact fun halong => absurd halong.head hbroken
                · intro hharmless
                  simp [interruptsAfterRecv, hleft] at hharmless
      | selectTimeout | selectError _ | recvError _ => cases hlabel

end Receiving

/-! ## Delivery -/

/-- The receiver accounts for every byte at every moment, and its positive results are the
messages, if and only if, as long as there are bytes to be received, each interrupted
{lit}`select` follows an interrupted {lit}`recv`. -/
theorem netRecv_faithful_iff {maxlen : ℕ} {messages : List (List UInt8)}
    (hfits : ∀ m ∈ messages, Fits maxlen m) (pktsizMemory buff : ℕ → UInt8)
    {labels : List LinkLabel} {last : Link}
    (hsplits : ∀ label ∈ labels, label.splits = true)
    (hrun : execute (Link.step maxlen) (fun _ _ => True)
      (Link.start messages pktsizMemory buff) labels = some last) :
    Along (Link.step maxlen) (Faithful messages) (Link.start messages pktsizMemory buff) labels ↔
      interruptsAfterRecv false (frames messages).length labels = true :=
  along_faithful_iff hfits hsplits (delivering_start hfits pktsizMemory buff) hrun

/-! ## Examples of runs -/

def fourBytes : List (List UInt8) := [[1, 2, 3, 4]]

/-- A connection whose memory is zero at the beginning. -/
def freshLink (messages : List (List UInt8)) : Link :=
  Link.start messages (fun _ => 0) (fun _ => 0)

/-- The {lit}`select` after the first half of a message is interrupted. -/
def countedTwice : List LinkLabel :=
  [.send (.sent 2), .send (.sent 4), .recv 2, .recv 2, .selectInterrupted]

/-- The two bytes that have arrived are counted twice, and a message is delivered that was
never sent. -/
theorem not_faithful_countedTwice :
    (∀ message ∈ fourBytes, Fits 100 message) ∧ (∀ label ∈ countedTwice, label.splits = true) ∧
      ∃ link, execute (Link.step 100) (fun _ _ => True) (freshLink fourBytes) countedTwice =
          some link ∧
        link.receiver.results = [[1, 2, 0, 0]] ∧ ¬ link.receiver.results <+: fourBytes := by
  have hexec : (execute (Link.step 100) (fun _ _ => True) (freshLink fourBytes)
      countedTwice).map (fun link => link.receiver.results) = some [[1, 2, 0, 0]] := by
    decide +kernel
  rcases Option.map_eq_some_iff.mp hexec with ⟨link, hlink, hresults⟩
  refine ⟨?_, by decide, link, hlink, hresults, ?_⟩
  · intro message hmessage
    rw [List.mem_singleton.mp hmessage]
    exact ⟨by decide, by decide, by decide⟩
  · rw [hresults]
    decide

/-- Interruptions that do no harm. -/
def interrupted : List LinkLabel :=
  [.recvInterrupted, .selectInterrupted, .send (.sent 1), .recv 1, .send .interrupted,
    .send (.sent 1), .recvInterrupted, .recv 1, .send (.sent 4), .recv 3, .recv 1,
    .selectInterrupted]

/-- The theorem at work: the message arrives, and every byte is accounted for. -/
theorem netRecv_faithful_interrupted :
    Along (Link.step 100) (Faithful fourBytes) (freshLink fourBytes) interrupted := by
  have hfits : ∀ message ∈ fourBytes, Fits 100 message := by
    intro message hmessage
    rw [List.mem_singleton.mp hmessage]
    exact ⟨by decide, by decide, by decide⟩
  have hexec : (execute (Link.step 100) (fun _ _ => True) (freshLink fourBytes)
      interrupted).map (fun link => link.receiver.results) = some fourBytes := by
    decide +kernel
  rcases Option.map_eq_some_iff.mp hexec with ⟨link, hlink, -⟩
  exact (netRecv_faithful_iff hfits (fun _ => 0) (fun _ => 0) (by decide) hlink).mpr (by decide)

end Apcupsd
