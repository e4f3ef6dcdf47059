import Apcupsd.Core.CoreRun
import Apcupsd.Foundations.CStrings
import Apcupsd.Foundations.Execution
import Apcupsd.Nis.Deframing

/-!
# The status reply

The two readers of a status reply: {lit}`NetUpsDriver::poll_ups` from
{lit}`drivers/net/net.c`, which fills the buffer of a slave, and {lit}`StatMgr::Update`
from {lit}`lib/statmgr.cpp`, which fills a table.  Both collect messages until
{lit}`net_recv` returns zero or less.

Main results:

- Theorem {lit}`Receives.outcome`: what a reader gets is a function of the bytes of the
  reply and of the way the connection ends, and not of the pieces in which they come.
- Theorem {lit}`pollUps_complete_iff`: a slave is right about a reply if and only if the
  reply is terminated, or its end is an error and the buffer does not change.
- Theorem {lit}`update_complete_iff`: the same for the table.
-/

namespace Apcupsd

open LengthPrefix Deframer CStrings

/-! ## Reading a reply -/

/-- What comes after the last byte of a reply: the connection is closed, it fails, or
nothing happens any more. -/
inductive Closing where
  | closed
  | fails (errno : ℕ)
  | silent
deriving DecidableEq, Repr

def Closing.attempt : Closing → Attempt
  | .closed => .received []
  | .fails errno => .recvError errno
  | .silent => .selectTimeout

def Closing.result : Closing → Int
  | .closed => 0
  | .fails errno => -errno
  | .silent => -etimedout

/-- A reader, and the bytes of the reply that it has not received. -/
structure Reply where
  left : List UInt8
  receiver : Receiver

/-- One turn of {lit}`read_nbytes`. -/
inductive ReplyLabel where
  | recv (count : ℕ)
  | finish
deriving DecidableEq, Repr

/-- There is room for one more message. -/
def under (limit : Option ℕ) (count : ℕ) : Bool :=
  match limit with
  | none => true
  | some limit => count < limit

namespace Reply

def start (bytes : List UInt8) (pktsizMemory buff : ℕ → UInt8) : Reply where
  left := bytes
  receiver := Receiver.start pktsizMemory buff

/-- The reader is in a call of {lit}`net_recv`. -/
def reading (limit : Option ℕ) (reply : Reply) : Bool :=
  reply.receiver.ended.isNone && under limit reply.receiver.results.length

/-- A turn, if the reader is reading. -/
def step (limit : Option ℕ) (maxlen : ℕ) (closing : Closing) (reply : Reply) :
    ReplyLabel → Option Reply
  | .recv count =>
      if reply.reading limit ∧ 0 < count ∧ (count : Int) ≤ reply.receiver.read.nleft ∧
          count ≤ reply.left.length then
        some
          { left := reply.left.drop count
            receiver := reply.receiver.turn maxlen (.received (reply.left.take count)) }
      else none
  | .finish =>
      if reply.reading limit ∧ reply.left = [] then
        some { reply with receiver := reply.receiver.turn maxlen closing.attempt }
      else none

end Reply

/-- The last result of {lit}`net_recv`. -/
def lastResult (receiver : Receiver) : Int :=
  match receiver.ended with
  | some rc => rc
  | none => ((receiver.results.getLast?).map fun message => (message.length : Int)).getD 0

/-- A reader that goes on has a record last, if it has any. -/
theorem lastResult_pos {receiver : Receiver} (hended : receiver.ended = none)
    (hne : receiver.results ≠ [])
    (hmessages : ∀ message ∈ receiver.results, 0 < message.length) :
    0 < lastResult receiver := by
  have hlast := hmessages _ (List.getLast_mem hne)
  simp only [lastResult, hended, List.getLast?_eq_some_getLast hne, Option.map_some,
    Option.getD_some]
  exact Int.natCast_pos.mpr hlast

/-- A reader of these bytes, that come in any pieces, gets these messages and this last
result. -/
def Receives (limit : Option ℕ) (maxlen : ℕ) (bytes : List UInt8) (closing : Closing)
    (messages : List (List UInt8)) (len : Int) : Prop :=
  ∃ pktsizMemory buff reply,
    Reaches (Reply.step limit maxlen closing) (fun _ _ => True)
      (Reply.start bytes pktsizMemory buff) reply ∧
    reply.reading limit = false ∧ messages = reply.receiver.results ∧
    len = lastResult reply.receiver

/-! ## The outcome -/

section Outcome

variable {limit : Option ℕ} {maxlen : ℕ} {bytes : List UInt8} {closing : Closing}

/-- A turn that makes {lit}`read_nbytes` fail, or find the end, ends the sequence. -/
theorem Receiver.turn_returns {receiver : Receiver} {attempt : Attempt} {read : ReadState}
    {rc : Int} (hread : receiver.read.readTurn attempt = (read, some rc)) (hrc : rc ≤ 0) :
    (receiver.turn maxlen attempt).ended = some rc ∧
      (receiver.turn maxlen attempt).results = receiver.results := by
  unfold Receiver.turn
  rw [hread]
  unfold Receiver.readReturned
  cases receiver.phase with
  | header => simp [hrc]
  | data pktsiz => simp [hrc]

/-- {lit}`recv` without bytes is the end of the connection. -/
theorem ReadState.readTurn_closed (read : ReadState) :
    ∃ after, read.readTurn (.received []) = (after, some 0) := by
  refine ⟨{ read with nread := 0, memory := storeAt read.memory read.offset [] }, ?_⟩
  simp [readTurn, leaveLoop]

/-- The end of the connection ends the sequence, with the result that stands for it. -/
theorem Receiver.turn_closing (receiver : Receiver) :
    (receiver.turn maxlen closing.attempt).ended = some closing.result ∧
      (receiver.turn maxlen closing.attempt).results = receiver.results := by
  cases closing with
  | closed =>
      rcases receiver.read.readTurn_closed with ⟨read, hread⟩
      exact turn_returns hread le_rfl
  | fails errno => exact turn_returns rfl (by simp [Closing.result])
  | silent => exact turn_returns rfl (by decide)

/-- Where a reader is in the stream: it goes on, or it has found a reason to halt, or the
connection has ended. -/
inductive ReadingState (limit : Option ℕ) (closing : Closing) (reply : Reply) (d : Deframer) :
    Prop where
  | goesOn (hended : reply.receiver.ended = none) (hhalt : d.halt = none)
      (hfollows : Follows reply.receiver d) (hroom : ∀ k ∈ limit, d.messages.length ≤ k)
  | halted {halt : Halt} (hhalt : d.halt = some halt)
      (hended : reply.receiver.ended = some halt.result)
      (hroom : under limit d.messages.length = true)
  | closed (hhalt : d.halt = none) (hleft : reply.left = [])
      (hended : reply.receiver.ended = some closing.result)
      (hroom : under limit d.messages.length = true)

/-- The invariant of a reader. -/
def Replying (limit : Option ℕ) (maxlen : ℕ) (bytes : List UInt8) (closing : Closing)
    (reply : Reply) : Prop :=
  ∃ received, bytes = received ++ reply.left ∧
    reply.receiver.results = (feedAll maxlen (between []) received).messages ∧
    ReadingState limit closing reply (feedAll maxlen (between []) received)

theorem replying_start (pktsizMemory buff : ℕ → UInt8) :
    Replying limit maxlen bytes closing (Reply.start bytes pktsizMemory buff) :=
  ⟨[], rfl, rfl, .goesOn rfl rfl (follows_start pktsizMemory buff) fun _ _ => Nat.zero_le _⟩

theorem length_le_of_under {count : ℕ} (hunder : under limit count = true) :
    ∀ k ∈ limit, count + 1 ≤ k := by
  rintro k hk
  rw [Option.mem_def] at hk
  subst hk
  exact Nat.succ_le_of_lt (by simpa [under] using hunder)

theorem Replying.step {reply next : Reply} {label : ReplyLabel}
    (hstep : reply.step limit maxlen closing label = some next)
    (hinv : Replying limit maxlen bytes closing reply) :
    Replying limit maxlen bytes closing next := by
  rcases hinv with ⟨received, hstream, hresults, hstate⟩
  have hgoesOn : reply.reading limit = true → reply.receiver.ended = none ∧
      under limit reply.receiver.results.length = true ∧
      (feedAll maxlen (between []) received).halt = none ∧
      Follows reply.receiver (feedAll maxlen (between []) received) := by
    intro hreading
    rcases Bool.and_eq_true_iff.mp hreading with ⟨hended, hunder⟩
    have hnone := Option.isNone_iff_eq_none.mp hended
    cases hstate with
    | goesOn _ hhalt hfollows _ => exact ⟨hnone, hunder, hhalt, hfollows⟩
    | halted _ hended' _ => exact absurd (hnone.symm.trans hended') (Option.some_ne_none _).symm
    | closed _ _ hended' _ => exact absurd (hnone.symm.trans hended') (Option.some_ne_none _).symm
  cases label with
  | recv count =>
      simp only [Reply.step] at hstep
      split_ifs at hstep with hcount
      obtain rfl := Option.some.inj hstep
      rcases hcount with ⟨hreading, hpos, hnleft, hlen⟩
      rcases hgoesOn hreading with ⟨hnone, hunder, hhalt, hfollows⟩
      have hnext : Follows (reply.receiver.turn maxlen (.received (reply.left.take count)))
          (feedAll maxlen (between []) (received ++ reply.left.take count)) :=
        hfollows.take hhalt hpos hnleft hlen
      refine ⟨received ++ reply.left.take count, ?_, hnext.results, ?_⟩
      · rw [hstream, List.append_assoc, List.take_append_drop]
      · have hended := hnext.ended
        have hroom := length_le_of_under hunder
        rcases @Receiver.turn_results maxlen reply.receiver
          (.received (reply.left.take count)) with hsame | ⟨hsame, message, hmore⟩
        · cases hhalt' : (feedAll maxlen (between []) (received ++ reply.left.take count)).halt with
          | none =>
              rw [hhalt'] at hended
              refine .goesOn hended hhalt' hnext fun k hk => ?_
              rw [← hnext.results, hsame]
              exact Nat.le_of_succ_le (hroom k hk)
          | some halt =>
              rw [hhalt'] at hended
              refine .halted hhalt' hended ?_
              rw [← hnext.results, hsame]
              exact hunder
        · have hnone' : (feedAll maxlen (between []) (received ++ reply.left.take count)).halt =
              none := by
            rw [hsame, hnone] at hended
            exact Option.map_eq_none_iff.mp hended.symm
          refine .goesOn (hsame.trans hnone) hnone' hnext fun k hk => ?_
          rw [← hnext.results, hmore, List.length_append]
          exact hroom k hk
  | finish =>
      simp only [Reply.step] at hstep
      split_ifs at hstep with hfinish
      obtain rfl := Option.some.inj hstep
      rcases hfinish with ⟨hreading, hleft⟩
      rcases hgoesOn hreading with ⟨-, hunder, hhalt, hfollows⟩
      rcases @Receiver.turn_closing maxlen closing reply.receiver with ⟨hended, hsame⟩
      refine ⟨received, hstream, hsame.trans hresults, .closed hhalt hleft hended ?_⟩
      rw [← hresults]
      exact hunder

/-- The receiver of the format after the whole reply. -/
def replyDeframer (maxlen : ℕ) (bytes : List UInt8) : Deframer :=
  feedAll maxlen (between []) bytes

/-- The result of {lit}`net_recv` that ends a reply. -/
def replyEnd (maxlen : ℕ) (bytes : List UInt8) (closing : Closing) : Int :=
  ((replyDeframer maxlen bytes).halt.map Halt.result).getD closing.result

/-- What a reader gets is a function of the bytes of the reply and of the way the
connection ends. -/
theorem Receives.outcome {messages : List (List UInt8)} {len : Int}
    (hreceives : Receives limit maxlen bytes closing messages len) :
    under limit (replyDeframer maxlen bytes).messages.length = true ∧
        messages = (replyDeframer maxlen bytes).messages ∧ len = replyEnd maxlen bytes closing ∨
      ∃ k ∈ limit, k ≤ (replyDeframer maxlen bytes).messages.length ∧
        messages = (replyDeframer maxlen bytes).messages.take k ∧ (0 < k → 0 < len) := by
  rcases hreceives with ⟨pktsizMemory, buff, reply, hrun, hover, rfl, rfl⟩
  have hinv : Replying limit maxlen bytes closing reply :=
    hrun.invariant (fun _ hstep hinv => hinv.step hstep) (replying_start pktsizMemory buff)
  rcases hinv with ⟨received, hstream, hresults, hstate⟩
  have hall : replyDeframer maxlen bytes =
      feedAll maxlen (feedAll maxlen (between []) received) reply.left := by
    rw [replyDeframer, hstream, feedAll_append]
  cases hstate with
  | halted hhalt hended hroom =>
      rw [feedAll_of_halt hhalt] at hall
      refine Or.inl ⟨hall ▸ hroom, hall ▸ hresults, ?_⟩
      simp [lastResult, hended, replyEnd, hall, hhalt]
  | closed hhalt hleft hended hroom =>
      rw [hleft, feedAll_nil] at hall
      refine Or.inl ⟨hall ▸ hroom, hall ▸ hresults, ?_⟩
      simp [lastResult, hended, replyEnd, hall, hhalt]
  | goesOn hended hhalt hfollows hroom =>
      rw [Reply.reading, hended, Option.isNone_none, Bool.true_and, hresults] at hover
      cases limit with
      | none => cases hover
      | some k =>
          have hlength : (feedAll maxlen (between []) received).messages.length = k := by
            have hle := hroom k rfl
            simp only [under, decide_eq_false_iff_not] at hover
            omega
          have hstarts := @messages_feedAll maxlen (feedAll maxlen (between []) received) reply.left
          rw [← hall] at hstarts
          refine Or.inr ⟨k, rfl, hlength ▸ hstarts.length_le, ?_, fun hpos => ?_⟩
          · rw [hresults, List.prefix_iff_eq_take.mp hstarts, hlength]
          · have hfits := @fits_feedAll maxlen (between []) (by simp [between])
              (by simp [between]) received
            rw [← hresults] at hlength hfits
            have hne : reply.receiver.results ≠ [] := by
              apply List.length_pos_iff.mp
              rw [hlength]
              exact hpos
            exact lastResult_pos hended hne fun m hm => (hfits m hm).1

end Outcome

/-! ## Complete replies -/

/-- The terminator of the reply comes before there is no more room. -/
def Terminated (limit : Option ℕ) (maxlen : ℕ) (bytes : List UInt8) : Prop :=
  ∃ messages rest, under limit messages.length = true ∧ (∀ m ∈ messages, Fits maxlen m) ∧
    bytes = frames messages ++ header 0 ++ rest

/-- The connection is closed before the terminator, and before there is no more room. -/
def ClosedEarly (limit : Option ℕ) (maxlen : ℕ) (bytes : List UInt8) (closing : Closing) :
    Prop :=
  (replyDeframer maxlen bytes).halt = none ∧ closing.result = 0 ∧
    under limit (replyDeframer maxlen bytes).messages.length = true

section Complete

variable {limit : Option ℕ} {maxlen : ℕ} {bytes : List UInt8} {closing : Closing}
  {messages : List (List UInt8)} {len : Int}

theorem terminated_iff :
    Terminated limit maxlen bytes ↔ (replyDeframer maxlen bytes).halt = some .terminator ∧
      under limit (replyDeframer maxlen bytes).messages.length = true := by
  constructor
  · rintro ⟨messages, rest, hroom, hfits, rfl⟩
    rw [replyDeframer, feedAll_terminated hfits]
    exact ⟨rfl, hroom⟩
  · rintro ⟨hhalt, hroom⟩
    rcases (terminator_iff bytes).mp hhalt with ⟨messages, rest, hfits, rfl⟩
    rw [replyDeframer, feedAll_terminated hfits] at hroom
    exact ⟨messages, rest, hroom, hfits, rfl⟩

/-- A reader finds the end of a reply at the terminator, and also where the connection is
closed. -/
theorem Receives.len_eq_zero_iff (hreceives : Receives limit maxlen bytes closing messages len)
    (hlimit : ∀ k ∈ limit, 0 < k) :
    len = 0 ↔ Terminated limit maxlen bytes ∨ ClosedEarly limit maxlen bytes closing := by
  rw [terminated_iff]
  unfold ClosedEarly
  rcases hreceives.outcome with ⟨hroom, -, rfl⟩ | ⟨k, hk, hfull, -, hlen⟩
  · rw [hroom, replyEnd]
    cases (replyDeframer maxlen bytes).halt with
    | none => simp
    | some halt => cases halt <;> simp [Halt.result, einval]
  · have hroom : under limit (replyDeframer maxlen bytes).messages.length = false := by
      rw [Option.mem_def] at hk
      subst hk
      simpa [under] using hfull
    rw [hroom]
    have hpos := hlen (hlimit k hk)
    simp only [Bool.false_eq_true, and_false, or_self, iff_false]
    omega

end Complete

/-! ## The buffer of a slave -/

/-- A buffer with a terminator as a string. -/
def textOf (bytes : List UInt8) : List Char :=
  (bytes.map fun byte => Char.ofNat byte.toNat).takeWhile (· ≠ nul)

/-- {lit}`strlcat` into an array of the given size. -/
def strlcat (front text : List Char) (size : ℕ) : List Char :=
  front ++ text.take (size - 1 - front.length)

/-- {lit}`sizeof(_statbuf)`. -/
def statbufSize : ℕ := 4096

/-- What {lit}`poll_ups` collects in the buffer. -/
def collectStatus (messages : List (List UInt8)) : List Char :=
  messages.foldl (fun statbuf message => strlcat statbuf (textOf message) statbufSize) []

/-- What {lit}`poll_ups` writes. -/
structure NetUps where
  ups : UpsInfo
  statbuf : List Char
  statlen : ℕ

/-- {lit}`poll_ups`, with the results of {lit}`net_open` and {lit}`net_send`, the messages,
and the last result of {lit}`net_recv`. -/
def pollUps (connected : Bool) (sent : Int) (messages : List (List UInt8)) (n : Int)
    (net : NetUps) : Bool × NetUps :=
  let emptied := { net with statbuf := [], statlen := 0 }
  if !connected then
    (false, if net.ups.isCommlost then emptied else { emptied with ups := net.ups.setCommlost })
  else if sent ≠ 6 then (false, { emptied with ups := net.ups.setCommlost })
  else
    let statbuf := collectStatus messages
    (decide (0 ≤ n),
      { ups := if n < 0 then net.ups.setCommlost else net.ups.clearCommlost
        statbuf := statbuf
        statlen := statbuf.length })

/-- {lit}`sizeof(buf) - 1`. -/
def pollMaxlen : ℕ := 999

/-- A slave takes a reply for good. -/
def TakesReply (net : NetUps) (after : Bool × NetUps) : Prop :=
  after.1 = true ∨ after.2.statbuf ≠ net.statbuf ∨
    (net.ups.isCommlost = true ∧ after.2.ups.isCommlost = false)

/-- A slave takes only terminated replies for good if and only if the reply is terminated, or
its end is an error and the text is the one that the buffer held. -/
theorem pollUps_complete_iff {bytes : List UInt8} {closing : Closing}
    {messages : List (List UInt8)} {n : Int}
    (hreceives : Receives none pollMaxlen bytes closing messages n) (net : NetUps) :
    (TakesReply net (pollUps true 6 messages n net) → Terminated none pollMaxlen bytes) ↔
      (Terminated none pollMaxlen bytes ∨ ¬ ClosedEarly none pollMaxlen bytes closing ∧
        collectStatus (replyDeframer pollMaxlen bytes).messages = net.statbuf) := by
  have hzero := hreceives.len_eq_zero_iff (by rintro k ⟨⟩)
  have hmessages : messages = (replyDeframer pollMaxlen bytes).messages ∧ n ≤ 0 := by
    rcases hreceives.outcome with ⟨-, hmessages, rfl⟩ | ⟨k, hk, -⟩
    · refine ⟨hmessages, ?_⟩
      rw [replyEnd]
      cases (replyDeframer pollMaxlen bytes).halt with
      | none => cases closing <;> simp [Closing.result, etimedout]
      | some halt => cases halt <;> simp [Halt.result, einval]
    · cases hk
  rcases hmessages with ⟨rfl, hn⟩
  by_cases hterminated : Terminated none pollMaxlen bytes
  · simp [hterminated]
  · simp only [hterminated, false_or, imp_false]
    rw [or_iff_right hterminated] at hzero
    by_cases hclosed : ClosedEarly none pollMaxlen bytes closing
    · simp [TakesReply, pollUps, hzero.mpr hclosed, hclosed]
    · have hneg : n < 0 := lt_of_le_of_ne hn fun heq => hclosed (hzero.mp heq)
      have hlost : net.ups.setCommlost.isCommlost = true := UpsInfo.test_set_self _ _
      simp [TakesReply, pollUps, hclosed, hneg, hlost]

/-! ## The table of a client -/

/-- {lit}`trim`. -/
def trim (text : List Char) : List Char :=
  ((text.dropWhile isspace).reverse.dropWhile isspace).reverse

/-- A line of the reply as {lit}`Update` stores it; a line without a colon has no value. -/
def statOf (message : List UInt8) : List Char × Option (List Char) :=
  let data := textOf message
  let value := (data.dropWhile (· ≠ ':')).drop 1
  (trim (data.takeWhile (· ≠ ':')), if ':' ∈ data then some (trim value) else none)

/-- {lit}`MAX_STATS`. -/
def maxStats : ℕ := 256

/-- {lit}`sizeof(m_stats[i].data) - 1`. -/
def statMaxlen : ℕ := 99

/-- {lit}`StatMgr`: whether the socket is valid, and the entries of the table. -/
structure StatMgr where
  connected : Bool
  stats : List (List Char × Option (List Char))
deriving DecidableEq

/-- One round of the loop of {lit}`Update`: whether {lit}`open` succeeds, the result of
{lit}`net_send`, and what {lit}`net_recv` makes of the bytes that the server sends. -/
structure Try where
  opens : Bool
  sent : Int
  bytes : List UInt8
  closing : Closing
  messages : List (List UInt8)
  len : Int

/-- The round gets a reply. -/
def Try.replies (round : Try) (connected : Bool) : Bool :=
  (connected || round.opens) && round.sent == 6

/-- Good update, bail now. -/
def Try.accepted (round : Try) : Bool :=
  round.messages != [] && round.len == 0

namespace StatMgr

/-- {lit}`Update`, with the rounds that are left. -/
def update : StatMgr → List Try → Bool × StatMgr
  | mgr, [] => (false, mgr)
  | mgr, round :: rounds =>
      if !mgr.connected && !round.opens then (false, mgr)
      else if round.sent ≠ 6 then update { mgr with connected := false } rounds
      else
        let stats := round.messages.map statOf
        if round.accepted then (true, { connected := true, stats := stats })
        else update { connected := false, stats := stats } rounds

/-- The last round of {lit}`Update` that gets a reply. -/
def lastReply : Bool → List Try → Option Try
  | _, [] => none
  | connected, round :: rounds =>
      if !connected && !round.opens then none
      else if round.sent ≠ 6 then lastReply false rounds
      else if round.accepted then some round
      else (lastReply false rounds).or (some round)

/-- The last reply decides the result and the table. -/
theorem update_eq (mgr : StatMgr) (rounds : List Try) :
    (mgr.update rounds).1 = ((lastReply mgr.connected rounds).map Try.accepted).getD false ∧
      (mgr.update rounds).2.stats =
        ((lastReply mgr.connected rounds).map fun round => round.messages.map statOf).getD
          mgr.stats := by
  induction rounds generalizing mgr with
  | nil => exact ⟨rfl, rfl⟩
  | cons round rounds ih =>
      unfold update lastReply
      split_ifs with hopens hsent haccepted
      · exact ⟨rfl, rfl⟩
      · exact ih _
      · simp [haccepted]
      · rcases ih ⟨false, round.messages.map statOf⟩ with ⟨hresult, hstats⟩
        rw [hresult, hstats]
        cases hlast : lastReply false rounds with
        | none => simp [Bool.eq_false_iff.mpr haccepted]
        | some last => simp

theorem lastReply_mem {connected : Bool} {rounds : List Try} {round : Try}
    (hlast : lastReply connected rounds = some round) : round ∈ rounds := by
  induction rounds generalizing connected with
  | nil => cases hlast
  | cons first rounds ih =>
      unfold lastReply at hlast
      split_ifs at hlast
      · exact List.mem_cons_of_mem _ (ih hlast)
      · exact Option.some.inj hlast ▸ List.mem_cons_self
      · cases hrest : lastReply false rounds with
        | none =>
            rw [hrest] at hlast
            exact Option.some.inj hlast ▸ List.mem_cons_self
        | some last =>
            rw [hrest] at hlast
            obtain rfl := Option.some.inj hlast
            exact List.mem_cons_of_mem _ (ih hrest)

end StatMgr

/-- What {lit}`net_recv` makes of the bytes of a round. -/
def Try.Received (round : Try) : Prop :=
  Receives (some maxStats) statMaxlen round.bytes round.closing round.messages round.len

/-- The messages that {lit}`Update` reads. -/
def statMessages (bytes : List UInt8) : List (List UInt8) :=
  (replyDeframer statMaxlen bytes).messages.take maxStats

theorem Try.Received.messages_eq {round : Try} (hreceived : round.Received) :
    round.messages = statMessages round.bytes := by
  rcases hreceived.outcome with ⟨hroom, hmessages, -⟩ | ⟨k, hk, -, hmessages, -⟩
  · have hlt : (replyDeframer statMaxlen round.bytes).messages.length < maxStats := by
      simpa [under] using hroom
    rw [hmessages, statMessages, List.take_of_length_le hlt.le]
  · obtain rfl := Option.some.inj hk
    exact hmessages

theorem Try.Received.accepted_iff {round : Try} (hreceived : round.Received) :
    round.accepted = true ↔ statMessages round.bytes ≠ [] ∧
      (Terminated (some maxStats) statMaxlen round.bytes ∨
        ClosedEarly (some maxStats) statMaxlen round.bytes round.closing) := by
  have hzero := hreceived.len_eq_zero_iff (by rintro k ⟨⟩; decide)
  rw [Try.accepted, Bool.and_eq_true, bne_iff_ne, beq_iff_eq, hzero, hreceived.messages_eq]

/-- A client takes only terminated replies for good if and only if the last reply is
terminated, or it is not one that is closed behind a message, and the table is as before. -/
theorem update_complete_iff {rounds : List Try} (hreceived : ∀ round ∈ rounds, round.Received)
    (mgr : StatMgr) :
    (((mgr.update rounds).1 = true ∨ (mgr.update rounds).2.stats ≠ mgr.stats) →
        ∃ round, StatMgr.lastReply mgr.connected rounds = some round ∧
          Terminated (some maxStats) statMaxlen round.bytes) ↔
      ∀ round, StatMgr.lastReply mgr.connected rounds = some round →
        Terminated (some maxStats) statMaxlen round.bytes ∨
          (¬ (statMessages round.bytes ≠ [] ∧
              ClosedEarly (some maxStats) statMaxlen round.bytes round.closing) ∧
            (statMessages round.bytes).map statOf = mgr.stats) := by
  rcases mgr.update_eq rounds with ⟨hresult, hstats⟩
  rw [hresult, hstats]
  cases hlast : StatMgr.lastReply mgr.connected rounds with
  | none => simp
  | some round =>
      have hround := hreceived round (StatMgr.lastReply_mem hlast)
      have haccepted := hround.accepted_iff
      simp only [Option.map_some, Option.getD_some, Option.some.injEq, exists_eq_left',
        forall_eq', haccepted, hround.messages_eq]
      by_cases hterminated : Terminated (some maxStats) statMaxlen round.bytes
      · simp [hterminated]
      · simp only [hterminated, false_or, imp_false]
        tauto

/-! ## Both readers -/

/-- The poll of a slave and the update of a client take only terminated replies for good if
and only if the reply is terminated, or it is not closed early and changes nothing. -/
theorem statusReply_complete_iff {bytes : List UInt8} {closing : Closing}
    {messages : List (List UInt8)} {n : Int}
    (hreceives : Receives none pollMaxlen bytes closing messages n) (net : NetUps)
    {first second : Try} (hfirst : first.Received) (hsecond : second.Received)
    (mgr : StatMgr) :
    ((TakesReply net (pollUps true 6 messages n net) → Terminated none pollMaxlen bytes) ↔
        (Terminated none pollMaxlen bytes ∨ ¬ ClosedEarly none pollMaxlen bytes closing ∧
          collectStatus (replyDeframer pollMaxlen bytes).messages = net.statbuf)) ∧
      ((((mgr.update [first, second]).1 = true ∨
            (mgr.update [first, second]).2.stats ≠ mgr.stats) →
          ∃ round, StatMgr.lastReply mgr.connected [first, second] = some round ∧
            Terminated (some maxStats) statMaxlen round.bytes) ↔
        ∀ round, StatMgr.lastReply mgr.connected [first, second] = some round →
          Terminated (some maxStats) statMaxlen round.bytes ∨
            (¬ (statMessages round.bytes ≠ [] ∧
                ClosedEarly (some maxStats) statMaxlen round.bytes round.closing) ∧
              (statMessages round.bytes).map statOf = mgr.stats)) := by
  refine ⟨pollUps_complete_iff hreceives net, update_complete_iff ?_ mgr⟩
  intro round hround
  rcases List.mem_cons.mp hround with rfl | hround
  · exact hfirst
  · exact List.mem_singleton.mp hround ▸ hsecond

/-! ## Examples of replies -/

/-- A reply of one line. -/
def oneLine : List UInt8 := frame [0x41, 0x3A, 0x42]

/-- A slave that has lost its master. -/
def lostMaster : NetUps where
  ups := (newUps (defaultConfig 0)).setCommlost
  statbuf := []
  statlen := 0

def freshMgr : StatMgr where
  connected := false
  stats := []

/-- The server closes the connection behind the line. -/
def cutTry : Try where
  opens := true
  sent := 6
  bytes := oneLine
  closing := .closed
  messages := [[0x41, 0x3A, 0x42]]
  len := 0

/-- A run of a reader to its end. -/
theorem receives_of_execute {limit : Option ℕ} {maxlen : ℕ} {bytes : List UInt8}
    {closing : Closing} {labels : List ReplyLabel} {messages : List (List UInt8)} {len : Int}
    (hexec : (execute (Reply.step limit maxlen closing) (fun _ _ => True)
      (Reply.start bytes (fun _ => 0) (fun _ => 0)) labels).map
        (fun reply => (reply.reading limit, reply.receiver.results, lastResult reply.receiver)) =
      some (false, messages, len)) : Receives limit maxlen bytes closing messages len := by
  rcases Option.map_eq_some_iff.mp hexec with ⟨reply, hreply, hvalues⟩
  rcases Prod.ext_iff.mp hvalues with ⟨hover, hrest⟩
  rcases Prod.ext_iff.mp hrest with ⟨hmessages, hlen⟩
  exact ⟨_, _, reply, reaches_of_execute hreply, hover, hmessages.symm, hlen.symm⟩

theorem receives_cut :
    Receives none pollMaxlen oneLine .closed [[0x41, 0x3A, 0x42]] 0 ∧ cutTry.Received := by
  have hpoll : (execute (Reply.step none pollMaxlen .closed) (fun _ _ => True)
      (Reply.start oneLine (fun _ => 0) (fun _ => 0)) [.recv 2, .recv 1, .recv 2, .finish]).map
        (fun reply => (reply.reading none, reply.receiver.results, lastResult reply.receiver)) =
      some (false, [[0x41, 0x3A, 0x42]], 0) := by
    decide +kernel
  have hround : (execute (Reply.step (some maxStats) statMaxlen .closed) (fun _ _ => True)
      (Reply.start oneLine (fun _ => 0) (fun _ => 0)) [.recv 1, .recv 1, .recv 3, .finish]).map
        (fun reply => (reply.reading (some maxStats), reply.receiver.results,
          lastResult reply.receiver)) = some (false, [[0x41, 0x3A, 0x42]], 0) := by
    decide +kernel
  exact ⟨receives_of_execute hpoll, receives_of_execute hround⟩

/-- Both readers take a reply that was cut for a complete one; the slave even announces that
its master is back. -/
theorem takes_cut_reply :
    Receives none pollMaxlen oneLine .closed [[0x41, 0x3A, 0x42]] 0 ∧ cutTry.Received ∧
      ¬ Terminated none pollMaxlen oneLine ∧
      (pollUps true 6 [[0x41, 0x3A, 0x42]] 0 lostMaster).1 = true ∧
      (pollUps true 6 [[0x41, 0x3A, 0x42]] 0 lostMaster).2.ups.isCommlost = false ∧
      ¬ Terminated (some maxStats) statMaxlen oneLine ∧
      (freshMgr.update [cutTry, cutTry]).1 = true := by
  refine ⟨receives_cut.1, receives_cut.2, ?_, by decide +kernel, by decide +kernel, ?_,
    by decide +kernel⟩
  · rw [terminated_iff]
    decide
  · rw [terminated_iff]
    decide

/-- The theorem at work: the cut reply is taken for good. -/
theorem statusReply_complete_cut :
    ¬ (TakesReply lostMaster (pollUps true 6 [[0x41, 0x3A, 0x42]] 0 lostMaster) →
      Terminated none pollMaxlen oneLine) := by
  intro hcomplete
  have hboth := statusReply_complete_iff receives_cut.1 lostMaster receives_cut.2 receives_cut.2
    freshMgr
  rcases hboth.1.mp hcomplete with hterminated | ⟨hclosed, -⟩
  · rw [terminated_iff] at hterminated
    revert hterminated
    decide
  · exact hclosed ⟨by decide, rfl, rfl⟩

end Apcupsd
