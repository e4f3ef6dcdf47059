import Apcupsd.Nis.StatusReply

/-!
# Requests on a shared connection

{lit}`StatMgr` keeps one connection for all its calls of {lit}`Update` and
{lit}`GetEvents`.  The requests carry no number: what comes next on the connection is taken
for the answer.

Main results:

- Definition {lit}`StatSession.step`: one step of a client with its connection.
- Theorem {lit}`replyDeframer_answer`: a reader that takes part of an answer has its first
  records, and all of the answer if it finds a terminator.
- Theorem {lit}`StatSession.replies_matched`: as long as no interrupted {lit}`select` ends a
  read and no failure ends {lit}`GetEvents`, every call gets the first records of its own
  answer.
-/

namespace Apcupsd

open LengthPrefix Deframer

/-! ## Requests and answers -/

/-- What {lit}`StatMgr` asks a server for. -/
inductive NisRequest where
  | status | events
deriving DecidableEq, Repr

namespace NisRequest

/-- The room for one record; {lit}`temp` of {lit}`GetEvents` has 1024 bytes. -/
def maxlen : NisRequest → ℕ
  | .status => statMaxlen
  | .events => 1023

/-- The room for all records. -/
def limit : NisRequest → Option ℕ
  | .status => some maxStats
  | .events => none

/-- The rounds of a call: {lit}`Update` tries again after a soft failure. -/
def tries : NisRequest → ℕ
  | .status => 2
  | .events => 1

/-- One turn of {lit}`read_nbytes`; {lit}`Update` has zeroed the entry for the next
record. -/
def turn (request : NisRequest) (receiver : Receiver) (attempt : Attempt) : Receiver :=
  let turned := receiver.turn request.maxlen attempt
  match request with
  | .status => { turned with buff := fun _ => 0 }
  | .events => turned

/-- The first call of {lit}`net_recv`, over memory that holds anything. -/
def begin (request : NisRequest) (memory : ℕ → UInt8) : Receiver :=
  match request with
  | .status => Receiver.start memory fun _ => 0
  | .events => Receiver.start memory memory

end NisRequest

/-- What a server answers: records, each of a length that a message can have, and a
terminator.  The server may close the connection after so many bytes. -/
structure Answer where
  records : List (List UInt8)
  fits : ∀ record ∈ records, 0 < record.length ∧ record.length < 65536
  cut : Option ℕ

namespace Answer

def whole (answer : Answer) : List UInt8 :=
  frames answer.records ++ header 0

/-- The bytes that the server sends. -/
def bytes (answer : Answer) : List UInt8 :=
  match answer.cut with
  | none => answer.whole
  | some count => answer.whole.take count

end Answer

/-! ## The connection -/

/-- The bytes that the client has not received, whether they have arrived or not, and
whether nothing will follow them. -/
structure NisConnection where
  unread : List UInt8
  closed : Bool
deriving DecidableEq, Repr

/-- How a turn comes out.  A failure of {lit}`recv` may end the connection, and with it
all that was under way. -/
inductive NisArrival where
  | bytes (count : ℕ)
  | closed
  | selectInterrupted
  | selectTimeout
  | selectError (errno : ℕ)
  | recvInterrupted
  | recvError (errno : ℕ) (reset : Bool)
deriving DecidableEq, Repr

/-- The connection after a turn, and what {lit}`read_nbytes` sees of it. -/
def NisConnection.arrive (conn : NisConnection) (nleft : Int) :
    NisArrival → Option (NisConnection × Attempt)
  | .bytes count =>
      if 0 < count ∧ (count : Int) ≤ nleft ∧ count ≤ conn.unread.length then
        some ({ conn with unread := conn.unread.drop count },
          .received (conn.unread.take count))
      else none
  | .closed => if conn.unread = [] ∧ conn.closed then some (conn, .received []) else none
  | .selectInterrupted => some (conn, .selectInterrupted)
  | .selectTimeout => some (conn, .selectTimeout)
  | .selectError errno => if 0 < errno then some (conn, .selectError errno) else none
  | .recvInterrupted => some (conn, .recvInterrupted)
  | .recvError errno reset =>
      if 0 < errno then
        some (if reset then { unread := [], closed := true } else conn, .recvError errno)
      else none

/-! ## The client -/

/-- Where a call is: before {lit}`net_send`, or in the loop that reads the answer to its
request. -/
inductive CallPhase where
  | sending
  | receiving (answer : List (List UInt8)) (receiver : Receiver)

/-- A call under way, with the rounds that it has left. -/
structure StatCall where
  request : NisRequest
  tries : ℕ
  phase : CallPhase

/-- A call that has returned the records that it has read: a successful {lit}`Update`, or
{lit}`GetEvents`.  The answer is what the server has sent for the request of the call. -/
structure ReturnedCall where
  request : NisRequest
  records : List (List UInt8)
  answer : List (List UInt8)
deriving DecidableEq, Repr

/-- {lit}`StatMgr`: its socket, the call under way, what the server has answered so far,
and the calls that have returned records. -/
structure StatSession where
  socket : Option NisConnection
  call : Option StatCall
  replies : List (NisRequest × List (List UInt8))
  returned : List ReturnedCall

namespace StatSession

def start : StatSession where
  socket := none
  call := none
  replies := []
  returned := []

/-- {lit}`close()`, and the next round if there is one. -/
def retry (session : StatSession) (request : NisRequest) (tries : ℕ) : StatSession :=
  { session with
    socket := none
    call := if tries ≤ 1 then none else some ⟨request, tries - 1, .sending⟩ }

/-- {lit}`net_send` has succeeded.  A server that has closed the connection answers
nothing. -/
def ask (session : StatSession) (request : NisRequest) (tries : ℕ) (conn : NisConnection)
    (answer : Answer) (memory : ℕ → UInt8) : StatSession :=
  if conn.closed then
    { session with call := some ⟨request, tries, .receiving [] (request.begin memory)⟩ }
  else
    { session with
      socket := some
        { unread := conn.unread ++ answer.bytes
          closed := answer.cut.isSome }
      call := some ⟨request, tries, .receiving answer.records (request.begin memory)⟩
      replies := session.replies ++ [(request, answer.records)] }

/-- What follows the loop over {lit}`net_recv`. -/
def conclude (session : StatSession) (request : NisRequest) (tries : ℕ)
    (answer : List (List UInt8)) (conn : NisConnection) (receiver : Receiver) : StatSession :=
  let len := lastResult receiver
  let finished (socket : Option NisConnection) : StatSession :=
    { session with
      socket := socket
      call := none
      returned := session.returned ++ [⟨request, receiver.results, answer⟩] }
  match request with
  | .status =>
      if receiver.results ≠ [] ∧ len = 0 then finished (some conn)
      else session.retry .status tries
  | .events => finished (if len = -1 then none else some conn)

/-- A turn has been made: the loop goes on while there are records and room for them. -/
def received (session : StatSession) (request : NisRequest) (tries : ℕ)
    (answer : List (List UInt8)) (conn : NisConnection) (receiver : Receiver) : StatSession :=
  if receiver.ended.isNone && under request.limit receiver.results.length then
    { session with
      socket := some conn
      call := some ⟨request, tries, .receiving answer receiver⟩ }
  else session.conclude request tries answer conn receiver

end StatSession

/-- What happens next: a call begins, {lit}`open` or {lit}`net_send` comes out, a turn of
{lit}`read_nbytes` comes out, or the server closes the connection. -/
inductive SessionLabel where
  | call (request : NisRequest)
  | connect (ok : Bool)
  | send (ok : Bool) (answer : Answer) (memory : ℕ → UInt8)
  | turn (arrival : NisArrival)
  | hangUp

namespace StatSession

/-- One step, if it is possible. -/
def step (session : StatSession) : SessionLabel → Option StatSession
  | .call request =>
      match session.call with
      | none => some { session with call := some ⟨request, request.tries, .sending⟩ }
      | some _ => none
  | .connect ok =>
      match session.call, session.socket with
      | some ⟨_, _, .sending⟩, none =>
          some
            (if ok then { session with socket := some { unread := [], closed := false } }
            else { session with call := none })
      | _, _ => none
  | .send ok answer memory =>
      match session.call, session.socket with
      | some ⟨request, tries, .sending⟩, some conn =>
          some
            (if ok then session.ask request tries conn answer memory
            else session.retry request tries)
      | _, _ => none
  | .turn arrival =>
      match session.call, session.socket with
      | some ⟨request, tries, .receiving answer receiver⟩, some conn =>
          (conn.arrive receiver.read.nleft arrival).map fun (conn, attempt) =>
            session.received request tries answer conn (request.turn receiver attempt)
      | _, _ => none
  | .hangUp =>
      session.socket.map fun conn =>
        { session with socket := some { conn with closed := true } }

/-- Every record that a call has returned is one of a reply to a request of its kind. -/
def Matched (session : StatSession) : Prop :=
  ∀ call ∈ session.returned, ∀ record ∈ call.records,
    ∃ records, (call.request, records) ∈ session.replies ∧ record ∈ records

instance (session : StatSession) : Decidable session.Matched :=
  decidable_of_iff
    (∀ call ∈ session.returned, ∀ record ∈ call.records,
      ∃ reply ∈ session.replies, call.request = reply.1 ∧ record ∈ reply.2)
    (by
      unfold Matched
      refine forall₂_congr fun call _ => forall₂_congr fun record _ => ⟨?_, ?_⟩
      · rintro ⟨⟨request, records⟩, hreply, hrequest, hrecord⟩
        exact ⟨records, by rw [hrequest]; exact hreply, hrecord⟩
      · rintro ⟨records, hreply, hrecord⟩
        exact ⟨(call.request, records), hreply, rfl, hrecord⟩)

end StatSession

/-! ## Steps that keep the calls apart -/

/-- A turn of {lit}`read_nbytes` after which the caller knows where it is in the stream: an
interrupted {lit}`select` follows an interrupted {lit}`recv`, and {lit}`GetEvents` is not
left by a failure other than {lit}`-1` while bytes are to come. -/
def NisArrival.careful (request : NisRequest) (nread : Int) (unread : List UInt8) :
    NisArrival → Bool
  | .selectInterrupted => nread == -1
  | .selectTimeout => request == .status || unread == []
  | .selectError errno | .recvError errno false =>
      request == .status || unread == [] || errno == 1
  | .bytes _ | .closed | .recvInterrupted | .recvError _ true => true

/-- The condition on a step: a careful turn, and no event that is too long for
{lit}`GetEvents`. -/
def StatSession.careful (session : StatSession) : SessionLabel → Bool
  | .send true answer _ =>
      match session.call with
      | some ⟨.events, _, _⟩ =>
          (replyDeframer NisRequest.events.maxlen answer.bytes).halt != some .oversize
      | _ => true
  | .turn arrival =>
      match session.call, session.socket with
      | some ⟨request, _, .receiving _ receiver⟩, some conn =>
          arrival.careful request receiver.read.nread conn.unread
      | _, _ => true
  | .call _ | .connect _ | .send false _ _ | .hangUp => true

/-! ## Readers of an answer -/

theorem fits_replyDeframer {maxlen : ℕ} {received message : List UInt8}
    (hmessage : message ∈ (replyDeframer maxlen received).messages) : Fits maxlen message :=
  fits_feedAll (by simp [between]) (by simp [between]) received message hmessage

/-- What a part of an answer yields: its first records, and the terminator only if the part
is all of it. -/
theorem replyDeframer_answer {maxlen : ℕ} {answer : List (List UInt8)}
    {received rest : List UInt8}
    (hfits : ∀ record ∈ answer, 0 < record.length ∧ record.length < 65536)
    (hanswer : received ++ rest = frames answer ++ header 0) :
    (replyDeframer maxlen received).messages <+: answer ∧
      ((replyDeframer maxlen received).halt = some .terminator → rest = []) := by
  have haccounts := (accounts_between maxlen []).feedAll received
  rw [frames_nil, List.nil_append] at haccounts
  change Accounts maxlen (replyDeframer maxlen received) received at haccounts
  have hmessages : ∀ m ∈ (replyDeframer maxlen received).messages,
      0 < m.length ∧ m.length < 65536 :=
    fun m hm => ⟨(fits_replyDeframer hm).1, (fits_replyDeframer hm).2.1⟩
  unfold Accounts at haccounts
  cases hhalt : (replyDeframer maxlen received).halt with
  | none =>
      rw [hhalt] at haccounts
      rw [haccounts.2, List.append_assoc, List.append_assoc] at hanswer
      rcases frames_append_eq hmessages hfits hanswer with ⟨others, hothers, -⟩
      exact ⟨⟨others, hothers.symm⟩, nofun⟩
  | some halt =>
      rw [hhalt] at haccounts
      cases halt with
      | oversize =>
          rcases haccounts with ⟨len, behind, -, hbytes⟩
          rw [hbytes, List.append_assoc, List.append_assoc] at hanswer
          rcases frames_append_eq hmessages hfits hanswer with ⟨others, hothers, -⟩
          exact ⟨⟨others, hothers.symm⟩, nofun⟩
      | terminator =>
          rcases haccounts with ⟨behind, hbytes⟩
          rw [hbytes, List.append_assoc, List.append_assoc] at hanswer
          rcases frames_append_eq hmessages hfits hanswer with ⟨others, rfl, hothers⟩
          refine ⟨List.prefix_append _ _, fun _ => ?_⟩
          cases others with
          | nil =>
              have hnil := List.append_cancel_left (hothers.trans (List.append_nil _).symm)
              exact (List.append_eq_nil_iff.mp hnil).2
          | cons record others =>
              have hrecord := hfits record (by simp)
              rw [frames_cons, frame, List.append_assoc, List.append_assoc] at hothers
              have hlength := header_injective (by decide) hrecord.2
                (List.append_inj hothers rfl).1
              omega

namespace NisRequest

variable (request : NisRequest) (receiver : Receiver) (attempt : Attempt)

@[simp]
theorem turn_ended :
    (request.turn receiver attempt).ended = (receiver.turn request.maxlen attempt).ended := by
  cases request <;> rfl

@[simp]
theorem turn_results :
    (request.turn receiver attempt).results =
      (receiver.turn request.maxlen attempt).results := by
  cases request <;> rfl

end NisRequest

theorem follows_turn {request : NisRequest} {receiver : Receiver} {attempt : Attempt}
    {d : Deframer} (hfollows : Follows (receiver.turn request.maxlen attempt) d) :
    Follows (request.turn receiver attempt) d := by
  cases request with
  | status => exact ⟨hfollows.results, hfollows.ended, hfollows.phase, hfollows.counts⟩
  | events => exact hfollows

theorem follows_begin (request : NisRequest) (memory : ℕ → UInt8) :
    Follows (request.begin memory) (between []) := by
  cases request with
  | status => exact follows_start memory _
  | events => exact follows_start memory memory

/-! ## The invariant -/

/-- A reader that knows where it is: it has received a part of the answer, and what is
unread is all or a part of the rest. -/
def ReadsAnswer (request : NisRequest) (answer : List (List UInt8)) (conn : NisConnection)
    (receiver : Receiver) : Prop :=
  ∃ received, received ++ conn.unread <+: frames answer ++ header 0 ∧
    Follows receiver (replyDeframer request.maxlen received) ∧
    receiver.ended = none ∧
    under request.limit receiver.results.length = true ∧
    (request = .events →
      (replyDeframer request.maxlen (received ++ conn.unread)).halt ≠ some .oversize)

/-- The records of a call are the first of its answer, and the answer is a reply to a
request of its kind. -/
def ReturnedCall.Own (replies : List (NisRequest × List (List UInt8))) (call : ReturnedCall) :
    Prop :=
  call.records <+: call.answer ∧ ((call.request, call.answer) ∈ replies ∨ call.answer = [])

section Readers

variable {request : NisRequest} {answer : List (List UInt8)} {conn : NisConnection}
  {receiver : Receiver}

theorem ReadsAnswer.halt_eq_none {received : List UInt8} {maxlen : ℕ}
    (hfollows : Follows receiver (replyDeframer maxlen received))
    (hended : receiver.ended = none) : (replyDeframer maxlen received).halt = none :=
  Option.map_eq_none_iff.mp (hfollows.ended.symm.trans hended)

/-- What has been read so far belongs to the answer. -/
theorem ReadsAnswer.own {replies : List (NisRequest × List (List UInt8))}
    (hreads : ReadsAnswer request answer conn receiver)
    (hfits : ∀ record ∈ answer, 0 < record.length ∧ record.length < 65536)
    (hreply : (request, answer) ∈ replies ∨ answer = []) :
    ReturnedCall.Own replies ⟨request, receiver.results, answer⟩ := by
  rcases hreads with ⟨received, ⟨lost, hanswer⟩, hfollows, -⟩
  rw [List.append_assoc] at hanswer
  refine ⟨?_, hreply⟩
  rw [hfollows.results]
  exact (replyDeframer_answer hfits hanswer).1

/-- A loop that has no more room has read a record last. -/
theorem lastResult_of_full {received : List UInt8} {maxlen : ℕ}
    (hfollows : Follows receiver (replyDeframer maxlen received))
    (hended : receiver.ended = none)
    (hfull : under request.limit receiver.results.length = false) :
    request = .status ∧ lastResult receiver ≠ 0 := by
  cases request with
  | events => cases hfull
  | status =>
      have hne : receiver.results ≠ [] := by
        intro hnil
        rw [hnil] at hfull
        cases hfull
      have hpos := lastResult_pos hended hne fun message hmessage => by
        rw [hfollows.results] at hmessage
        exact (fits_replyDeframer hmessage).1
      exact ⟨rfl, hpos.ne'⟩

end Readers

namespace StatSession

/-- Between two requests nothing is unread. -/
def Synchronized (session : StatSession) : Prop :=
  match session.call with
  | some ⟨request, _, .receiving answer receiver⟩ =>
      (∀ record ∈ answer, 0 < record.length ∧ record.length < 65536) ∧
        ((request, answer) ∈ session.replies ∨ answer = []) ∧
        ∀ conn ∈ session.socket, ReadsAnswer request answer conn receiver
  | _ => ∀ conn ∈ session.socket, conn.unread = []

/-- The invariant of a session. -/
structure Sound (session : StatSession) : Prop where
  synchronized : session.Synchronized
  returned : ∀ call ∈ session.returned, call.Own session.replies

theorem sound_start : Sound start :=
  ⟨nofun, nofun⟩

variable {session : StatSession} {request : NisRequest} {tries : ℕ}
  {answer : List (List UInt8)} {conn : NisConnection} {receiver : Receiver}

theorem Sound.retry (hreturned : ∀ call ∈ session.returned, call.Own session.replies)
    (request : NisRequest) (tries : ℕ) : Sound (session.retry request tries) := by
  refine ⟨?_, hreturned⟩
  unfold StatSession.retry Synchronized
  dsimp only
  split
  · rename_i hcall
    split_ifs at hcall
    cases hcall
  · exact nofun

/-- A request leaves with nothing unread, and the answer is the next on the connection. -/
theorem Sound.ask (hreturned : ∀ call ∈ session.returned, call.Own session.replies)
    (hsocket : session.socket = some conn) (hunread : conn.unread = []) (request : NisRequest)
    (tries : ℕ) (answer : Answer) (memory : ℕ → UInt8)
    (hcareful : request = .events →
      (replyDeframer request.maxlen answer.bytes).halt ≠ some .oversize) :
    Sound (session.ask request tries conn answer memory) := by
  have hfollows := follows_begin request memory
  have hroom : under request.limit 0 = true := by
    cases request <;> rfl
  have hempty : (request.begin memory).results = [] ∧ (request.begin memory).ended = none := by
    cases request <;> exact ⟨rfl, rfl⟩
  unfold StatSession.ask
  split
  · refine ⟨⟨nofun, .inr rfl, ?_⟩, hreturned⟩
    intro other hother
    obtain rfl := Option.some.inj (hsocket.symm.trans hother)
    refine ⟨[], ?_, hfollows, hempty.2, ?_, fun _ => ?_⟩
    · rw [hunread]
      exact List.nil_prefix
    · rw [hempty.1]
      exact hroom
    · rw [hunread]
      simp [replyDeframer, between]
  · refine ⟨⟨answer.fits, .inl (by simp), ?_⟩, fun call hcall => ?_⟩
    · intro other hother
      obtain rfl := Option.some.inj hother
      refine ⟨[], ?_, hfollows, hempty.2, ?_, fun hevents => ?_⟩
      · rw [hunread]
        unfold Answer.bytes
        split
        · exact List.prefix_refl _
        · exact List.take_prefix _ _
      · rw [hempty.1]
        exact hroom
      · rw [hunread]
        exact hcareful hevents
    · refine ⟨(hreturned call hcall).1, (hreturned call hcall).2.imp_left fun hmem => ?_⟩
      exact List.mem_append_left _ hmem

/-- A call that keeps its connection has nothing unread. -/
theorem Sound.conclude (hreturned : ∀ call ∈ session.returned, call.Own session.replies)
    (hown : ReturnedCall.Own session.replies ⟨request, receiver.results, answer⟩)
    (tries : ℕ)
    (hkept : conn.unread = [] ∨ request = .status ∧ lastResult receiver ≠ 0 ∨
      request = .events ∧ lastResult receiver = -1) :
    Sound (session.conclude request tries answer conn receiver) := by
  have hmore : ∀ call ∈ session.returned ++ [⟨request, receiver.results, answer⟩],
      call.Own session.replies := by
    intro call hcall
    rcases List.mem_append.mp hcall with hold | hnew
    · exact hreturned call hold
    · rw [List.mem_singleton.mp hnew]
      exact hown
  cases request with
  | status =>
      unfold StatSession.conclude
      dsimp only
      split
      · rename_i hgood
        refine ⟨?_, hmore⟩
        intro other hother
        obtain rfl := Option.some.inj hother
        rcases hkept with hunread | ⟨-, hlen⟩ | ⟨hevents, -⟩
        · exact hunread
        · exact absurd hgood.2 hlen
        · cases hevents
      · exact .retry hreturned .status tries
  | events =>
      refine ⟨?_, hmore⟩
      intro other hother
      by_cases hlen : lastResult receiver = -1
      · simp [StatSession.conclude, hlen] at hother
      · rcases hkept with hunread | ⟨hstatus, -⟩ | ⟨-, hlost⟩
        · simp only [StatSession.conclude, if_neg hlen] at hother
          obtain rfl := Option.some.inj hother
          exact hunread
        · cases hstatus
        · exact absurd hlost hlen

/-- A turn that ends the loop with a result that is not positive. -/
theorem Sound.fails (hreturned : ∀ call ∈ session.returned, call.Own session.replies)
    (hown : ReturnedCall.Own session.replies ⟨request, receiver.results, answer⟩)
    {attempt : Attempt} {read : ReadState} {rc : Int}
    (hread : receiver.read.readTurn attempt = (read, some rc)) (hrc : rc ≤ 0)
    (hkept : conn.unread = [] ∨ request = .status ∧ rc ≠ 0 ∨ request = .events ∧ rc = -1) :
    Sound (session.received request tries answer conn (request.turn receiver attempt)) := by
  rcases @Receiver.turn_returns request.maxlen receiver attempt read rc hread hrc with
    ⟨hended, hresults⟩
  have hlen : lastResult (request.turn receiver attempt) = rc := by
    simp [lastResult, hended]
  unfold StatSession.received
  rw [NisRequest.turn_ended, hended, if_neg (by simp)]
  refine Sound.conclude hreturned ?_ tries ?_
  · rw [NisRequest.turn_results, hresults]
    exact hown
  · rw [hlen]
    exact hkept

/-- A turn that ends the loop with an error number. -/
theorem Sound.errs (hreturned : ∀ call ∈ session.returned, call.Own session.replies)
    (hown : ReturnedCall.Own session.replies ⟨request, receiver.results, answer⟩)
    {attempt : Attempt} {read : ReadState} {errno : ℕ} (herrno : 0 < errno)
    (hread : receiver.read.readTurn attempt = (read, some (-(errno : Int))))
    (hcareful : (request == .status || conn.unread == [] || errno == 1) = true) :
    Sound (session.received request tries answer conn (request.turn receiver attempt)) := by
  refine .fails hreturned hown hread (by omega) ?_
  cases request with
  | status => exact .inr (.inl ⟨rfl, by omega⟩)
  | events =>
      simp only [Bool.or_eq_true, beq_iff_eq] at hcareful
      rcases hcareful with (⟨⟨⟩⟩ | hunread) | hone
      · exact .inl hunread
      · exact .inr (.inr ⟨rfl, by omega⟩)

/-- A turn after which the loop goes on. -/
theorem Sound.goesOn (hreturned : ∀ call ∈ session.returned, call.Own session.replies)
    (hfits : ∀ record ∈ answer, 0 < record.length ∧ record.length < 65536)
    (hreply : (request, answer) ∈ session.replies ∨ answer = [])
    (hreads : ReadsAnswer request answer conn receiver) :
    Sound (session.received request tries answer conn receiver) := by
  have hgoesOn := hreads
  rcases hgoesOn with ⟨-, -, -, hended, hroom, -⟩
  unfold StatSession.received
  rw [if_pos (by simp [hended, hroom])]
  refine ⟨⟨hfits, hreply, ?_⟩, hreturned⟩
  intro other hother
  obtain rfl := Option.some.inj hother
  exact hreads

/-- A turn that receives bytes. -/
theorem Sound.bytes (hreturned : ∀ call ∈ session.returned, call.Own session.replies)
    (hfits : ∀ record ∈ answer, 0 < record.length ∧ record.length < 65536)
    (hreply : (request, answer) ∈ session.replies ∨ answer = [])
    (hreads : ReadsAnswer request answer conn receiver) {count : ℕ} (hpos : 0 < count)
    (hnleft : (count : Int) ≤ receiver.read.nleft) (hlength : count ≤ conn.unread.length) :
    Sound (session.received request tries answer
      { conn with unread := conn.unread.drop count }
      (request.turn receiver (.received (conn.unread.take count)))) := by
  rcases hreads with ⟨received, hpart, hfollows, hended, hroom, hshort⟩
  have hhalt := ReadsAnswer.halt_eq_none hfollows hended
  have hnext : Follows (request.turn receiver (.received (conn.unread.take count)))
      (replyDeframer request.maxlen (received ++ conn.unread.take count)) :=
    follows_turn (hfollows.take hhalt hpos hnleft hlength)
  have hsame : received ++ conn.unread.take count ++ conn.unread.drop count =
      received ++ conn.unread := by
    rw [List.append_assoc, List.take_append_drop]
  rw [← hsame] at hpart hshort
  generalize request.turn receiver (.received (conn.unread.take count)) = turned at hnext ⊢
  generalize received ++ conn.unread.take count = taken at hpart hshort hnext
  have hanswer := hpart
  rcases hanswer with ⟨lost, hanswer⟩
  rw [List.append_assoc] at hanswer
  have hbegins := @replyDeframer_answer request.maxlen _ _ _ hfits hanswer
  have hown : ReturnedCall.Own session.replies ⟨request, turned.results, answer⟩ := by
    refine ⟨?_, hreply⟩
    rw [hnext.results]
    exact hbegins.1
  cases hhalt' : (replyDeframer request.maxlen taken).halt with
  | none =>
      have hended' : turned.ended = none := by
        rw [hnext.ended, hhalt']
        rfl
      cases hroom' : under request.limit turned.results.length with
      | true =>
          exact .goesOn hreturned hfits hreply ⟨taken, hpart, hnext, hended', hroom', hshort⟩
      | false =>
          unfold StatSession.received
          rw [hended', hroom', if_neg (by decide)]
          exact .conclude hreturned hown tries (.inr (.inl (lastResult_of_full hnext hended' hroom')))
  | some halt =>
      have hended' : turned.ended = some halt.result := by
        rw [hnext.ended, hhalt']
        rfl
      have hlen : lastResult turned = halt.result := by
        simp [lastResult, hended']
      unfold StatSession.received
      rw [hended', if_neg (by simp)]
      refine .conclude hreturned hown tries ?_
      cases halt with
      | terminator => exact .inl (List.append_eq_nil_iff.mp (hbegins.2 hhalt')).1
      | oversize =>
          cases request with
          | status => exact .inr (.inl ⟨rfl, by rw [hlen]; decide⟩)
          | events =>
              refine absurd ?_ (hshort rfl)
              unfold replyDeframer at hhalt' ⊢
              rw [feedAll_append, feedAll_of_halt hhalt', hhalt']

/-- A careful turn. -/
theorem Sound.turn (hsound : Sound session) {arrival : NisArrival}
    (hcall : session.call = some ⟨request, tries, .receiving answer receiver⟩)
    (hsocket : session.socket = some conn)
    (hcareful : arrival.careful request receiver.read.nread conn.unread = true)
    {after : NisConnection} {attempt : Attempt}
    (harrive : conn.arrive receiver.read.nleft arrival = some (after, attempt)) :
    Sound (session.received request tries answer after (request.turn receiver attempt)) := by
  have hsynchronized := hsound.synchronized
  unfold Synchronized at hsynchronized
  rw [hcall] at hsynchronized
  rcases hsynchronized with ⟨hfits, hreply, hreads⟩
  have hreads := hreads conn hsocket
  have hreturned := hsound.returned
  have hown := hreads.own hfits hreply
  cases arrival with
  | bytes count =>
      simp only [NisConnection.arrive] at harrive
      split_ifs at harrive with hcount
      cases harrive
      exact .bytes hreturned hfits hreply hreads hcount.1 hcount.2.1 hcount.2.2
  | closed =>
      simp only [NisConnection.arrive] at harrive
      split_ifs at harrive with hclosed
      cases harrive
      rcases receiver.read.readTurn_closed with ⟨read, hread⟩
      exact .fails hreturned hown hread le_rfl (.inl hclosed.1)
  | selectInterrupted =>
      cases harrive
      rcases hreads with ⟨received, hpart, hfollows, hended, hroom, hshort⟩
      have hsame := @Receiver.turn_selectInterrupted request.maxlen receiver
        (by simpa [NisArrival.careful] using hcareful)
      refine .goesOn hreturned hfits hreply ⟨received, hpart, ?_, ?_, ?_, hshort⟩
      · exact follows_turn (by rw [hsame]; exact hfollows)
      · rw [NisRequest.turn_ended, hsame, hended]
      · rw [NisRequest.turn_results, hsame, hroom]
  | recvInterrupted =>
      cases harrive
      rcases hreads with ⟨received, hpart, hfollows, hended, hroom, hshort⟩
      have hnext := @Follows.recvInterrupted request.maxlen _ _ hfollows
      refine .goesOn hreturned hfits hreply
        ⟨received, hpart, follows_turn hnext, ?_, ?_, hshort⟩
      · rw [NisRequest.turn_ended, hnext.ended, ← hfollows.ended, hended]
      · rw [NisRequest.turn_results, hnext.results, ← hfollows.results, hroom]
  | selectTimeout =>
      cases harrive
      refine .fails hreturned hown rfl (by decide) ?_
      cases request with
      | status => exact .inr (.inl ⟨rfl, by decide⟩)
      | events => exact .inl (by simpa [NisArrival.careful] using hcareful)
  | selectError errno =>
      simp only [NisConnection.arrive] at harrive
      split_ifs at harrive with herrno
      cases harrive
      exact .errs hreturned hown herrno rfl hcareful
  | recvError errno reset =>
      simp only [NisConnection.arrive] at harrive
      split_ifs at harrive with herrno hreset
      · cases harrive
        exact .fails hreturned hown rfl (by omega) (.inl rfl)
      · cases harrive
        rw [Bool.eq_false_iff.mpr hreset] at hcareful
        exact .errs hreturned hown herrno rfl hcareful

/-- Every careful step keeps the invariant. -/
theorem Sound.step (hsound : Sound session) {label : SessionLabel} {next : StatSession}
    (hcareful : session.careful label = true) (hstep : session.step label = some next) :
    Sound next := by
  rcases session with ⟨socket, call, replies, returned⟩
  have hreturned := hsound.returned
  cases label with
  | call request =>
      cases call with
      | some _ => cases hstep
      | none =>
          cases hstep
          exact ⟨hsound.synchronized, hreturned⟩
  | connect ok =>
      rcases call with _ | ⟨request, tries, _ | ⟨answer, receiver⟩⟩
      · cases hstep
      · cases socket with
        | some _ => cases hstep
        | none =>
            cases hstep
            cases ok with
            | true =>
                refine ⟨?_, hreturned⟩
                intro conn hconn
                obtain rfl := Option.some.inj hconn
                rfl
            | false => exact ⟨nofun, hreturned⟩
      · cases hstep
  | send ok answer memory =>
      rcases call with _ | ⟨request, tries, _ | ⟨answer, receiver⟩⟩
      · cases hstep
      · cases socket with
        | none => cases hstep
        | some conn =>
            cases hstep
            cases ok with
            | false => exact .retry hreturned request tries
            | true =>
                refine .ask hreturned rfl (hsound.synchronized conn rfl) request tries answer
                  memory fun hevents => ?_
                subst hevents
                simpa [careful] using hcareful
      · cases hstep
  | turn arrival =>
      rcases call with _ | ⟨request, tries, _ | ⟨answer, receiver⟩⟩
      · cases hstep
      · cases hstep
      · cases socket with
        | none => cases hstep
        | some conn =>
            rcases Option.map_eq_some_iff.mp hstep with ⟨⟨after, attempt⟩, harrive, rfl⟩
            exact hsound.turn rfl rfl hcareful harrive
  | hangUp =>
      cases socket with
      | none => cases hstep
      | some conn =>
          cases hstep
          refine ⟨?_, hreturned⟩
          rcases call with _ | ⟨request, tries, _ | ⟨answer, receiver⟩⟩
          · intro other hother
            obtain rfl := Option.some.inj hother
            exact hsound.synchronized conn rfl
          · intro other hother
            obtain rfl := Option.some.inj hother
            exact hsound.synchronized conn rfl
          · rcases hsound.synchronized with ⟨hfits, hreply, hreads⟩
            refine ⟨hfits, hreply, ?_⟩
            intro other hother
            obtain rfl := Option.some.inj hother
            exact hreads conn rfl

theorem Sound.matched (hsound : Sound session) : session.Matched := by
  intro call hcall record hrecord
  rcases hsound.returned call hcall with ⟨hfirst, hreply | hnone⟩
  · exact ⟨call.answer, hreply, hfirst.subset hrecord⟩
  · rw [hnone] at hfirst
    rw [List.prefix_nil.mp hfirst] at hrecord
    cases hrecord

/-- As long as every step is careful, each call gets the first records of its own answer,
and so no record of a reply to another request. -/
theorem replies_matched {session : StatSession}
    (hrun : Reaches step (fun session label => session.careful label = true) start session) :
    session.Matched ∧ ∀ call ∈ session.returned, call.records <+: call.answer := by
  have hsound : Sound session :=
    hrun.invariant (fun hcareful hstep hsound => hsound.step hcareful hstep) sound_start
  exact ⟨hsound.matched, fun call hcall => (hsound.returned call hcall).1⟩

/-! ## Examples of runs -/

/-- An answer with the one record {lit}`S`. -/
def statusAnswer : Answer where
  records := [[83]]
  fits := by decide
  cut := none

/-- An answer with the records {lit}`E1` and {lit}`E2`. -/
def eventsAnswer (cut : Option ℕ) : Answer where
  records := [[69, 49], [69, 50]]
  fits := by decide
  cut := cut

/-- {lit}`GetEvents` reads one record in time and leaves the connection open; the rest of
the events comes before the answer to {lit}`Update`. -/
def lateEvents : List SessionLabel :=
  [.call .events, .connect true, .send true (eventsAnswer none) fun _ => 0,
    .turn (.bytes 2), .turn (.bytes 2), .turn .selectTimeout,
    .call .status, .send true statusAnswer fun _ => 0,
    .turn (.bytes 2), .turn (.bytes 2), .turn (.bytes 2)]

/-- {lit}`Update` stores an event. -/
theorem replies_matched_lateEvents :
    ¬ ∀ session, Reaches step (fun _ _ => True) start session → session.Matched := by
  intro hall
  have hfound : ((execute step (fun _ _ => True) start lateEvents).map fun session =>
      decide session.Matched) = some false := by
    decide +kernel
  rcases Option.map_eq_some_iff.mp hfound with ⟨session, hexec, hmatched⟩
  exact of_decide_eq_false hmatched (hall session (reaches_of_execute hexec))

/-- The server closes the connection behind the first event: {lit}`GetEvents` times out,
and {lit}`Update` finds the connection closed and opens another one. -/
def closedEvents : List SessionLabel :=
  [.call .events, .connect true, .send true (eventsAnswer (some 4)) fun _ => 0,
    .turn (.bytes 2), .turn (.bytes 2), .turn .selectTimeout,
    .call .status, .send true statusAnswer fun _ => 0, .turn .closed,
    .connect true, .send true statusAnswer fun _ => 0,
    .turn (.bytes 2), .turn (.bytes 1), .turn (.bytes 2)]

theorem replies_matched_closedEvents :
    ∃ session, Reaches step (fun session label => session.careful label = true) start session ∧
      session.returned.map (fun call => (call.request, call.records)) =
        [(.events, [[69, 49]]), (.status, [[83]])] ∧
      session.Matched := by
  have hfound : ((execute step (fun session label => session.careful label = true) start
      closedEvents).map fun session =>
        session.returned.map fun call => (call.request, call.records)) =
      some [(.events, [[69, 49]]), (.status, [[83]])] := by
    decide +kernel
  rcases Option.map_eq_some_iff.mp hfound with ⟨session, hexec, hreturned⟩
  have hrun := reaches_of_execute hexec
  exact ⟨session, hrun, hreturned, (replies_matched hrun).1⟩

end StatSession

end Apcupsd
