import Apcupsd.Foundations.LengthPrefix

/-!
# Messages over a socket

{lit}`read_nbytes`, {lit}`write_nbytes`, {lit}`net_recv` and {lit}`net_send` from
{lit}`lib/apclibnis.c`.  One step of the model is one turn of a loop: one {lit}`select`
with the {lit}`recv` that follows it, or one {lit}`send`.

The variable {lit}`nread` outlives a turn.  A {lit}`select` that is interrupted goes to
the condition of the inner loop with the {lit}`nread` of the turn before.

Main results:

- Definition {lit}`ReadState.readTurn`: one turn of {lit}`read_nbytes`.
- Definition {lit}`Receiver.turn`: one turn of a caller that collects messages.
- Definition {lit}`Sender.turn`: one turn of a caller that sends messages.
- Theorem {lit}`bytesAt_storeAt`: bytes that are stored behind others extend them.
-/

namespace Apcupsd

open LengthPrefix

/-! ## read_nbytes -/

def etimedout : Int := 110
def einval : Int := 22

/-- How {lit}`select` and {lit}`recv` come out; an interruption is {lit}`EINTR` or
{lit}`EAGAIN`, and no bytes are the end of the connection. -/
inductive Attempt where
  | selectInterrupted
  | selectTimeout
  | selectError (errno : ℕ)
  | recvInterrupted
  | recvError (errno : ℕ)
  | received (bytes : List UInt8)
deriving DecidableEq, Repr

/-- The variables of {lit}`read_nbytes`; {lit}`ptr` is as far into the memory as
{lit}`nleft` is from {lit}`nbytes`. -/
structure ReadState where
  nbytes : ℕ
  nleft : Int
  nread : Int
  memory : ℕ → UInt8

/-- The first bytes of the memory. -/
def bytesAt (memory : ℕ → UInt8) (count : ℕ) : List UInt8 :=
  (List.range count).map memory

/-- The memory after bytes have been stored. -/
def storeAt (memory : ℕ → UInt8) (offset : ℕ) (bytes : List UInt8) : ℕ → UInt8 :=
  fun i => if offset ≤ i then (bytes[i - offset]?).getD (memory i) else memory i

/-- Bytes that are stored behind others extend them. -/
theorem bytesAt_storeAt (memory : ℕ → UInt8) (offset : ℕ) (bytes : List UInt8) :
    bytesAt (storeAt memory offset bytes) (offset + bytes.length) =
      bytesAt memory offset ++ bytes := by
  apply List.ext_getElem
  · simp [bytesAt]
  · intro i hi _
    simp only [bytesAt, List.getElem_map, List.getElem_range, storeAt]
    by_cases hlt : i < offset
    · rw [if_neg (by omega), List.getElem_append_left (by simpa using hlt)]
      simp
    · simp only [bytesAt, List.length_map, List.length_range] at hi
      rw [if_pos (by omega), List.getElem_append_right (by simpa using Nat.le_of_not_lt hlt)]
      simp [List.getElem?_eq_getElem (show i - offset < bytes.length by omega)]

@[simp]
theorem length_bytesAt (memory : ℕ → UInt8) (count : ℕ) :
    (bytesAt memory count).length = count := by
  simp [bytesAt]

namespace ReadState

def start (nbytes : ℕ) (memory : ℕ → UInt8) : ReadState where
  nbytes := nbytes
  nleft := nbytes
  nread := 0
  memory := memory

/-- {lit}`ptr`, as an offset. -/
def offset (read : ReadState) : ℕ :=
  (read.nbytes - read.nleft).toNat

/-- What follows the inner loop; the second component is the result of
{lit}`read_nbytes`, if it returns. -/
def leaveLoop (read : ReadState) : ReadState × Option Int :=
  if read.nread = 0 then (read, some 0)
  else
    let counted := { read with nleft := read.nleft - read.nread }
    (counted, if counted.nleft > 0 then none else some (counted.nbytes - counted.nleft))

/-- One turn of {lit}`read_nbytes`. -/
def readTurn (read : ReadState) : Attempt → ReadState × Option Int
  | .selectInterrupted =>
      -- the inner loop goes on only if recv was interrupted before
      if read.nread = -1 then (read, none) else read.leaveLoop
  | .selectTimeout => (read, some (-etimedout))
  | .selectError errno => (read, some (-errno))
  | .recvInterrupted => ({ read with nread := -1 }, none)
  | .recvError errno => ({ read with nread := -1 }, some (-errno))
  | .received bytes =>
      { read with
        nread := bytes.length
        memory := storeAt read.memory read.offset bytes }.leaveLoop

end ReadState

/-! ## net_recv -/

/-- Which of its two reads {lit}`net_recv` is in. -/
inductive RecvPhase where
  | header
  | data (pktsiz : ℕ)
deriving DecidableEq, Repr

/-- A caller that collects the positive results of {lit}`net_recv`, until there is another
one.  The variable {lit}`pktsiz` and the buffer keep what earlier calls have left. -/
structure Receiver where
  results : List (List UInt8)
  phase : RecvPhase
  read : ReadState
  pktsizMemory : ℕ → UInt8
  buff : ℕ → UInt8
  ended : Option Int

namespace Receiver

def start (pktsizMemory buff : ℕ → UInt8) : Receiver where
  results := []
  phase := .header
  read := ReadState.start 2 pktsizMemory
  pktsizMemory := pktsizMemory
  buff := buff
  ended := none

/-- {lit}`net_recv` when {lit}`read_nbytes` has returned. -/
def readReturned (maxlen : ℕ) (receiver : Receiver) (rc : Int) : Receiver :=
  let memory := receiver.read.memory
  match receiver.phase with
  | .header =>
      let stored := { receiver with pktsizMemory := memory }
      if rc ≤ 0 then { stored with ended := some rc }
      else if rc ≠ 2 then { stored with ended := some (-einval) }
      else
        let pktsiz := lengthOf (memory 0) (memory 1)
        if maxlen < pktsiz then { stored with ended := some (-einval) }
        else if pktsiz = 0 then { stored with ended := some 0 }
        else { stored with phase := .data pktsiz, read := ReadState.start pktsiz receiver.buff }
  | .data pktsiz =>
      let stored := { receiver with buff := memory }
      if rc ≤ 0 then { stored with ended := some rc }
      else if rc ≠ pktsiz then { stored with ended := some (-einval) }
      else
        { stored with
          results := receiver.results ++ [bytesAt memory pktsiz]
          phase := .header
          read := ReadState.start 2 receiver.pktsizMemory }

/-- One turn of the receiver. -/
def turn (maxlen : ℕ) (receiver : Receiver) (attempt : Attempt) : Receiver :=
  let (read, rc) := receiver.read.readTurn attempt
  let moved := { receiver with read := read }
  match rc with
  | none => moved
  | some rc => moved.readReturned maxlen rc

/-- A turn completes at most one message, and none if it ends the sequence. -/
theorem turn_results {maxlen : ℕ} (receiver : Receiver) (attempt : Attempt) :
    (receiver.turn maxlen attempt).results = receiver.results ∨
      (receiver.turn maxlen attempt).ended = receiver.ended ∧
        ∃ message, (receiver.turn maxlen attempt).results = receiver.results ++ [message] := by
  unfold turn
  dsimp only
  split
  · exact Or.inl rfl
  · unfold readReturned
    dsimp only
    split
    · split_ifs <;> exact Or.inl rfl
    · split_ifs
      · exact Or.inl rfl
      · exact Or.inl rfl
      · exact Or.inr ⟨rfl, _, rfl⟩

end Receiver

/-! ## write_nbytes and net_send -/

/-- How {lit}`send` comes out. -/
inductive SendOutcome where
  | interrupted
  | error (errno : ℕ)
  | sent (count : ℕ)
deriving DecidableEq, Repr

/-- The variables of {lit}`write_nbytes`: the bytes at {lit}`ptr` are those that are
left. -/
structure WriteState where
  nbytes : ℕ
  left : List UInt8
deriving DecidableEq, Repr

/-- One turn of {lit}`write_nbytes`: what it hands to the socket, and its result. -/
def WriteState.writeTurn (write : WriteState) :
    SendOutcome → WriteState × List UInt8 × Option Int
  | .interrupted => (write, [], none)
  | .error errno => (write, [], some (-errno))
  | .sent count =>
      if count = 0 then (write, [], some (write.nbytes - write.left.length))
      else
        let left := write.left.drop count
        ({ write with left := left }, write.left.take count,
          if left = [] then some (write.nbytes : Int) else none)

/-- Which of its two writes {lit}`net_send` is in. -/
inductive SendPhase where
  | header | data
deriving DecidableEq, Repr

/-- A caller that passes messages to {lit}`net_send`, one after the other, as long as it
returns their lengths; the first of the queue is the one under way. -/
structure Sender where
  queue : List (List UInt8)
  phase : SendPhase
  write : WriteState
  stopped : Option Int
deriving DecidableEq, Repr

namespace Sender

/-- {lit}`net_send` of the first message: its length goes out as a {lit}`short`. -/
def begin (queue : List (List UInt8)) : Sender where
  queue := queue
  phase := .header
  write :=
    match queue with
    | [] => ⟨0, []⟩
    | message :: _ => ⟨2, header message.length⟩
  stopped := none

/-- {lit}`net_send` when {lit}`write_nbytes` has returned. -/
def writeReturned (sender : Sender) (rc : Int) : Sender :=
  match sender.queue, sender.phase with
  | [], _ => sender
  | message :: _, .header =>
      if rc ≤ 0 then { sender with stopped := some rc }
      else if rc ≠ 2 then { sender with stopped := some (-einval) }
      else if message = [] then { sender with stopped := some 0 }
      else { sender with phase := .data, write := ⟨message.length, message⟩ }
  | message :: rest, .data =>
      if rc ≤ 0 then { sender with stopped := some rc }
      else if rc ≠ message.length then { sender with stopped := some (-einval) }
      else begin rest

/-- One turn of the sender, with the bytes that it hands to the socket. -/
def turn (sender : Sender) (outcome : SendOutcome) : Sender × List UInt8 :=
  let (write, bytes, rc) := sender.write.writeTurn outcome
  let moved := { sender with write := write }
  match rc with
  | none => (moved, bytes)
  | some rc => (moved.writeReturned rc, bytes)

/-- The bytes that are still to be handed over. -/
def rest (sender : Sender) : List UInt8 :=
  match sender.queue, sender.phase with
  | [], _ => []
  | message :: queue, .header => sender.write.left ++ message ++ frames queue
  | _ :: queue, .data => sender.write.left ++ frames queue

end Sender

end Apcupsd
