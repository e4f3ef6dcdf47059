import Mathlib.Data.List.Infix
import Mathlib.Data.Nat.Notation

/-!
# Messages with a length prefix

A stream carries messages, each behind its length in two bytes, the most significant
one first.  The receiver of such a stream is a function of the bytes that it has seen;
how the stream was cut into pieces on the way does not matter.

Main results:

- Theorem {lit}`feedAll_append`: bytes that arrive in pieces arrive as a whole.
- Theorem {lit}`feedAll_frames`: the frames of messages are taken for these messages.
- Theorem {lit}`feedAll_of_frames_eq`: a part of the frames yields a part of the messages.
- Theorem {lit}`Accounts.feedAll`: every byte that was received is in a complete message, in
  the length of the one that is under way, or among its bytes.
- Theorem {lit}`terminator_iff`: the receiver finds the zero length if and only if the bytes
  begin with frames and a zero length.
-/

namespace Apcupsd
namespace LengthPrefix

/-! ## The format -/

/-- A length in two bytes. -/
def header (len : ℕ) : List UInt8 :=
  [UInt8.ofNat (len / 256), UInt8.ofNat len]

/-- The length that two bytes stand for. -/
def lengthOf (high low : UInt8) : ℕ :=
  high.toNat * 256 + low.toNat

/-- A message behind its length. -/
def frame (message : List UInt8) : List UInt8 :=
  header message.length ++ message

def frames (messages : List (List UInt8)) : List UInt8 :=
  messages.flatMap frame

@[simp]
theorem length_header (len : ℕ) : (header len).length = 2 := rfl

@[simp]
theorem length_frame (message : List UInt8) : (frame message).length = 2 + message.length := by
  simp [frame]

@[simp]
theorem frames_nil : frames [] = [] := rfl

@[simp]
theorem frames_cons (message : List UInt8) (messages : List (List UInt8)) :
    frames (message :: messages) = frame message ++ frames messages := rfl

@[simp]
theorem frames_append (first second : List (List UInt8)) :
    frames (first ++ second) = frames first ++ frames second := by
  simp [frames]

theorem lengthOf_header {len : ℕ} (hlen : len < 65536) :
    lengthOf (UInt8.ofNat (len / 256)) (UInt8.ofNat len) = len := by
  simp only [lengthOf, UInt8.toNat_ofNat']
  omega

theorem header_lengthOf (high low : UInt8) : header (lengthOf high low) = [high, low] := by
  have hhigh := high.toNat_lt
  have hlow := low.toNat_lt
  have hquot : (high.toNat * 256 + low.toNat) / 256 = high.toNat := by omega
  have hlowNat : UInt8.ofNat (high.toNat * 256 + low.toNat) = low := by
    apply UInt8.toNat.inj
    rw [UInt8.toNat_ofNat']
    omega
  simp only [header, lengthOf, hquot, hlowNat, UInt8.ofNat_toNat]

theorem header_injective {left right : ℕ} (hleft : left < 65536) (hright : right < 65536)
    (heq : header left = header right) : left = right := by
  rcases List.cons.inj heq with ⟨hhigh, htail⟩
  rw [← lengthOf_header hleft, ← lengthOf_header hright, hhigh, (List.cons.inj htail).1]

/-- Messages whose frames begin a terminated sequence are the first of that sequence. -/
theorem frames_append_eq {messages all : List (List UInt8)} {rest : List UInt8}
    (hmessages : ∀ m ∈ messages, 0 < m.length ∧ m.length < 65536)
    (hall : ∀ m ∈ all, 0 < m.length ∧ m.length < 65536)
    (heq : frames messages ++ rest = frames all ++ header 0) :
    ∃ others, all = messages ++ others ∧ rest = frames others ++ header 0 := by
  induction messages generalizing all with
  | nil => exact ⟨all, rfl, heq⟩
  | cons message messages ih =>
      have hmessage := hmessages message List.mem_cons_self
      rw [frames_cons, frame, List.append_assoc, List.append_assoc] at heq
      cases all with
      | nil =>
          have hzero : header message.length ++ _ = header 0 ++ [] := heq
          have hlength := header_injective hmessage.2 (by decide) (List.append_inj hzero rfl).1
          omega
      | cons first all =>
          have hfirst := hall first List.mem_cons_self
          rw [frames_cons, frame, List.append_assoc, List.append_assoc] at heq
          rcases List.append_inj heq rfl with ⟨hheader, hbody⟩
          have hlength := header_injective hmessage.2 hfirst.2 hheader
          rcases List.append_inj hbody hlength with ⟨rfl, htail⟩
          rcases ih (fun m hm => hmessages m (List.mem_cons_of_mem _ hm))
            (fun m hm => hall m (List.mem_cons_of_mem _ hm)) htail with ⟨others, rfl, hrest⟩
          exact ⟨others, rfl, hrest⟩

/-! ## The receiver -/

/-- Why a receiver takes no more bytes. -/
inductive Halt where
  /-- A message of length zero. -/
  | terminator
  /-- A message that does not fit. -/
  | oversize
deriving DecidableEq, Repr

/-- What a receiver knows of the stream: the messages that are complete, the length of the
one that is under way, and the bytes that it has of its length or of its contents. -/
structure Deframer where
  messages : List (List UInt8)
  expected : Option ℕ
  pending : List UInt8
  halt : Option Halt
deriving DecidableEq, Repr

namespace Deframer

/-- Between two messages. -/
def between (messages : List (List UInt8)) : Deframer where
  messages := messages
  expected := none
  pending := []
  halt := none

/-- The length is known. -/
def announce (maxlen : ℕ) (d : Deframer) (len : ℕ) : Deframer :=
  if maxlen < len then { d with pending := [], halt := some .oversize }
  else if len = 0 then { d with pending := [], halt := some .terminator }
  else { d with pending := [], expected := some len }

/-- One more byte. -/
def feed (maxlen : ℕ) (d : Deframer) (byte : UInt8) : Deframer :=
  match d.halt, d.expected, d.pending with
  | some _, _, _ => d
  | none, none, [] => { d with pending := [byte] }
  | none, none, high :: _ => d.announce maxlen (lengthOf high byte)
  | none, some len, pending =>
      if pending.length + 1 < len then { d with pending := pending ++ [byte] }
      else between (d.messages ++ [pending ++ [byte]])

def feedAll (maxlen : ℕ) (d : Deframer) (bytes : List UInt8) : Deframer :=
  bytes.foldl (feed maxlen) d

variable {maxlen : ℕ}

@[simp]
theorem feedAll_nil (d : Deframer) : feedAll maxlen d [] = d := rfl

@[simp]
theorem feedAll_cons (d : Deframer) (byte : UInt8) (bytes : List UInt8) :
    feedAll maxlen d (byte :: bytes) = feedAll maxlen (feed maxlen d byte) bytes := rfl

/-- Bytes that arrive in pieces arrive as a whole. -/
theorem feedAll_append (d : Deframer) (first second : List UInt8) :
    feedAll maxlen d (first ++ second) = feedAll maxlen (feedAll maxlen d first) second :=
  List.foldl_append

/-- A receiver that has halted takes no more bytes. -/
theorem feedAll_of_halt {d : Deframer} {halt : Halt} (hhalt : d.halt = some halt)
    (bytes : List UInt8) : feedAll maxlen d bytes = d := by
  induction bytes with
  | nil => rfl
  | cons byte bytes ih =>
      have hfeed : feed maxlen d byte = d := by simp [feed, hhalt]
      rw [feedAll_cons, hfeed, ih]

/-- The two bytes of a length. -/
theorem feedAll_length (messages : List (List UInt8)) (high low : UInt8) :
    feedAll maxlen (between messages) [high, low] =
      (between messages).announce maxlen (lengthOf high low) := by
  simp [feed, between, announce]

/-- The receiver of a message that is under way. -/
def inside (messages : List (List UInt8)) (len : ℕ) (pending : List UInt8) : Deframer where
  messages := messages
  expected := some len
  pending := pending
  halt := none

/-- Bytes that do not complete the message. -/
theorem feedAll_inside {len : ℕ} {pending bytes : List UInt8} (messages : List (List UInt8))
    (hlen : pending.length + bytes.length < len) :
    feedAll maxlen (inside messages len pending) bytes =
      inside messages len (pending ++ bytes) := by
  induction bytes generalizing pending with
  | nil => simp
  | cons byte bytes ih =>
      rw [List.length_cons] at hlen
      have hfeed : feed maxlen (inside messages len pending) byte =
          inside messages len (pending ++ [byte]) := by
        simp only [feed, inside]
        rw [if_pos (by omega)]
      rw [feedAll_cons, hfeed, ih (by simp; omega)]
      simp

/-- Bytes that complete the message. -/
theorem feedAll_completes {len : ℕ} {pending bytes : List UInt8}
    (messages : List (List UInt8)) (hpending : pending.length < len)
    (hlen : pending.length + bytes.length = len) :
    feedAll maxlen (inside messages len pending) bytes =
      between (messages ++ [pending ++ bytes]) := by
  rcases List.eq_nil_or_concat bytes with rfl | ⟨front, last, rfl⟩
  · simp only [List.length_nil, Nat.add_zero] at hlen
    omega
  · rw [List.concat_eq_append, List.length_append, List.length_singleton] at hlen
    rw [List.concat_eq_append, feedAll_append, feedAll_inside messages (by omega)]
    simp only [feedAll_cons, feedAll_nil, feed, inside]
    rw [if_neg (by simp; omega)]
    simp

/-! ## Frames -/

/-- A message that can be sent and received. -/
def Fits (maxlen : ℕ) (message : List UInt8) : Prop :=
  0 < message.length ∧ message.length < 65536 ∧ message.length ≤ maxlen

theorem feedAll_frame {message : List UInt8} (hfits : Fits maxlen message)
    (messages : List (List UInt8)) :
    feedAll maxlen (between messages) (frame message) = between (messages ++ [message]) := by
  rcases hfits with ⟨hpos, hlen, hmax⟩
  have hannounce : feedAll maxlen (between messages) (header message.length) =
      inside messages message.length [] := by
    rw [header, feedAll_length, lengthOf_header hlen, announce, if_neg (by omega),
      if_neg (by omega)]
    rfl
  rw [frame, feedAll_append, hannounce, feedAll_completes messages hpos (by simp)]
  simp

/-- The frames of messages are taken for these messages. -/
theorem feedAll_frames {more : List (List UInt8)} (hfits : ∀ m ∈ more, Fits maxlen m)
    (messages : List (List UInt8)) :
    feedAll maxlen (between messages) (frames more) = between (messages ++ more) := by
  induction more generalizing messages with
  | nil => simp
  | cons message more ih =>
      rw [frames_cons, feedAll_append, feedAll_frame (hfits message List.mem_cons_self),
        ih fun m hm => hfits m (List.mem_cons_of_mem _ hm)]
      simp

/-- A byte never takes a complete message away. -/
theorem messages_feed (d : Deframer) (byte : UInt8) :
    d.messages <+: (feed maxlen d byte).messages := by
  unfold feed
  split
  · exact List.prefix_refl _
  · exact List.prefix_refl _
  · unfold announce
    split_ifs <;> exact List.prefix_refl _
  · split_ifs
    · exact List.prefix_refl _
    · exact List.prefix_append _ _

theorem messages_feedAll (d : Deframer) (bytes : List UInt8) :
    d.messages <+: (feedAll maxlen d bytes).messages := by
  induction bytes generalizing d with
  | nil => exact List.prefix_refl _
  | cons byte bytes ih => exact (messages_feed d byte).trans (ih _)

/-- A part of the frames yields a part of the messages, and no reason to halt. -/
theorem feedAll_of_frames_eq {messages : List (List UInt8)} {received rest : List UInt8}
    (hfits : ∀ m ∈ messages, Fits maxlen m) (hframes : frames messages = received ++ rest) :
    (feedAll maxlen (between []) received).messages <+: messages ∧
      (feedAll maxlen (between []) received).halt = none := by
  have hall : feedAll maxlen (feedAll maxlen (between []) received) rest = between messages := by
    rw [← feedAll_append, ← hframes, feedAll_frames hfits, List.nil_append]
  constructor
  · have hstarts := @messages_feedAll maxlen (feedAll maxlen (between []) received) rest
    rwa [hall] at hstarts
  · cases hhalt : (feedAll maxlen (between []) received).halt with
    | none => rfl
    | some halt =>
        rw [feedAll_of_halt hhalt] at hall
        rw [hall] at hhalt
        cases hhalt

/-! ## Accounting for the bytes -/

/-- The length that precedes the pending bytes. -/
def lead (d : Deframer) : List UInt8 :=
  match d.expected with
  | none => []
  | some len => header len

/-- How many bytes complete what is pending. -/
def goal (d : Deframer) : ℕ :=
  d.expected.getD 2

/-- Every byte of the stream has its place. -/
def Accounts (maxlen : ℕ) (d : Deframer) (bytes : List UInt8) : Prop :=
  match d.halt with
  | none => d.pending.length < d.goal ∧ bytes = frames d.messages ++ d.lead ++ d.pending
  | some .terminator => ∃ rest, bytes = frames d.messages ++ header 0 ++ rest
  | some .oversize => ∃ len rest, maxlen < len ∧ bytes = frames d.messages ++ header len ++ rest

theorem Accounts.feed {d : Deframer} {bytes : List UInt8} (haccounts : Accounts maxlen d bytes)
    (byte : UInt8) : Accounts maxlen (feed maxlen d byte) (bytes ++ [byte]) := by
  rcases d with ⟨messages, expected, pending, halt⟩
  cases halt with
  | some halt =>
      cases halt with
      | terminator =>
          rcases haccounts with ⟨rest, hbytes⟩
          exact ⟨rest ++ [byte], by rw [hbytes, List.append_assoc]; rfl⟩
      | oversize =>
          rcases haccounts with ⟨len, rest, hlen, hbytes⟩
          exact ⟨len, rest ++ [byte], hlen, by rw [hbytes, List.append_assoc]; rfl⟩
  | none =>
      rcases haccounts with ⟨hpending, hbytes⟩
      simp only [lead, goal] at hpending hbytes
      cases expected with
      | some len =>
          simp only [Option.getD_some] at hpending
          simp only [Deframer.feed]
          split_ifs with hmore
          · refine ⟨by simpa [goal] using hmore, ?_⟩
            simp [hbytes, lead]
          · have hlen : (pending ++ [byte]).length = len := by simp; omega
            refine ⟨by simp [between, goal], ?_⟩
            simp [hbytes, between, lead, frame, hlen]
      | none =>
          cases pending with
          | nil =>
              refine ⟨by simp [Deframer.feed, goal], ?_⟩
              simp [hbytes, Deframer.feed, lead]
          | cons high low =>
              have hlow : low = [] := by
                simp only [List.length_cons, Option.getD_none] at hpending
                exact List.length_eq_zero_iff.mp (by omega)
              subst hlow
              have hheader : bytes ++ [byte] = frames messages ++ header (lengthOf high byte) := by
                rw [hbytes, header_lengthOf]
                simp
              simp only [Deframer.feed, announce]
              split_ifs with hover hzero
              · exact ⟨_, [], hover, by rw [hheader]; simp⟩
              · exact ⟨[], by rw [hheader, hzero]; simp⟩
              · refine ⟨by simp only [goal, Option.getD_some, List.length_nil]; omega, ?_⟩
                rw [hheader]
                simp [lead]

/-- Every byte that was received is in a complete message, in the length of the one that is
under way, or among its bytes. -/
theorem Accounts.feedAll {d : Deframer} {seen : List UInt8} (haccounts : Accounts maxlen d seen)
    (bytes : List UInt8) : Accounts maxlen (feedAll maxlen d bytes) (seen ++ bytes) := by
  induction bytes generalizing d seen with
  | nil => simpa using haccounts
  | cons byte bytes ih =>
      have hrest := ih (haccounts.feed byte)
      rwa [List.append_assoc, List.singleton_append] at hrest

theorem accounts_between (maxlen : ℕ) (messages : List (List UInt8)) :
    Accounts maxlen (between messages) (frames messages) :=
  ⟨by simp [between, goal], by simp [between, lead]⟩

/-- The messages that were received are messages that fit. -/
theorem fits_feed {d : Deframer} (hfits : ∀ m ∈ d.messages, Fits maxlen m)
    (hexpected : ∀ len ∈ d.expected, 0 < len ∧ len < 65536 ∧ len ≤ maxlen ∧
      d.pending.length < len) (byte : UInt8) :
    (∀ m ∈ (feed maxlen d byte).messages, Fits maxlen m) ∧
      ∀ len ∈ (feed maxlen d byte).expected, 0 < len ∧ len < 65536 ∧ len ≤ maxlen ∧
        (feed maxlen d byte).pending.length < len := by
  rcases d with ⟨messages, expected, pending, halt⟩
  cases halt with
  | some halt => exact ⟨hfits, hexpected⟩
  | none =>
      cases expected with
      | none =>
          cases pending with
          | nil => exact ⟨hfits, fun _ hlen => by cases hlen⟩
          | cons high rest =>
              simp only [feed, announce]
              split_ifs with hover hzero
              · exact ⟨hfits, fun _ hlen => by cases hlen⟩
              · exact ⟨hfits, fun _ hlen => by cases hlen⟩
              · refine ⟨hfits, ?_⟩
                rintro len ⟨⟩
                have hhigh := high.toNat_lt
                have hbyte := byte.toNat_lt
                refine ⟨Nat.pos_of_ne_zero hzero, ?_, Nat.le_of_not_lt hover, ?_⟩
                · unfold lengthOf
                  omega
                · exact Nat.pos_of_ne_zero hzero
      | some len =>
          rcases hexpected len rfl with ⟨hpos, hlen, hmax, hpending⟩
          simp only [feed]
          split_ifs with hmore
          · refine ⟨hfits, ?_⟩
            rintro len ⟨⟩
            exact ⟨hpos, hlen, hmax, by simpa using hmore⟩
          · refine ⟨fun m hm => ?_, fun _ hlen => by cases hlen⟩
            rcases List.mem_append.mp hm with hold | hnew
            · exact hfits m hold
            · rw [List.mem_singleton.mp hnew]
              simp only [Fits, List.length_append, List.length_singleton]
              simp only at hpending
              omega

theorem fits_feedAll {d : Deframer} (hfits : ∀ m ∈ d.messages, Fits maxlen m)
    (hexpected : ∀ len ∈ d.expected, 0 < len ∧ len < 65536 ∧ len ≤ maxlen ∧
      d.pending.length < len) (bytes : List UInt8) :
    ∀ m ∈ (feedAll maxlen d bytes).messages, Fits maxlen m := by
  induction bytes generalizing d with
  | nil => exact hfits
  | cons byte bytes ih =>
      rcases fits_feed hfits hexpected byte with ⟨hfits', hexpected'⟩
      exact ih hfits' hexpected'

/-- Frames and a zero length. -/
theorem feedAll_terminated {messages : List (List UInt8)}
    (hfits : ∀ m ∈ messages, Fits maxlen m) (rest : List UInt8) :
    feedAll maxlen (between []) (frames messages ++ header 0 ++ rest) =
      { between messages with halt := some .terminator } := by
  have hzero : feedAll maxlen (between messages) (header 0) =
      { between messages with halt := some .terminator } := by
    rw [header, feedAll_length]
    simp [announce, lengthOf, between]
  rw [feedAll_append, feedAll_append, feedAll_frames hfits, List.nil_append, hzero,
    feedAll_of_halt rfl]

/-- The receiver finds the zero length if and only if the bytes begin with frames and a zero
length. -/
theorem terminator_iff (bytes : List UInt8) :
    (feedAll maxlen (between []) bytes).halt = some .terminator ↔
      ∃ messages rest, (∀ m ∈ messages, Fits maxlen m) ∧
        bytes = frames messages ++ header 0 ++ rest := by
  constructor
  · intro hhalt
    have haccounts := (accounts_between maxlen []).feedAll bytes
    rw [Accounts, hhalt] at haccounts
    rcases haccounts with ⟨rest, hbytes⟩
    rw [frames_nil, List.nil_append] at hbytes
    exact ⟨_, rest, fits_feedAll (by simp [between]) (by simp [between]) bytes, hbytes⟩
  · rintro ⟨messages, rest, hfits, rfl⟩
    rw [feedAll_terminated hfits]

end Deframer

end LengthPrefix
end Apcupsd
