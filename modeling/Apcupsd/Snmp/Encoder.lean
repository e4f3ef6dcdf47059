import Apcupsd.Snmp.Asn

/-!
# The encoder and its buffer

What {lit}`Marshal` does with a buffer of any length.  The encoding of a tree is stated apart
from the code, so that it can be compared with the bytes that are written.

Main results:

- Theorem {lit}`count_eq`: without a buffer, {lit}`Marshal` adds the length of the encoding.
- Theorem {lit}`marshal_eq`: with one, it is a run of writes, each after its own check.
- Theorem {lit}`runWrites_cases`: how far such a run comes.
- Theorem {lit}`marshal_respects_iff`: when the buffer is respected.
-/

namespace Apcupsd
namespace Asn

open Radix

/-! ## The encoding -/

/-- A type byte, the length of the contents, and the contents. -/
def frame (type : Identifier) (contents : List UInt8) : List UInt8 :=
  type :: (lengthBytes contents.length ++ contents)

mutual

/-- The encoding of a tree. -/
def encode : Obj → List UInt8
  | .integer type value signed => frame type (integerBytes value signed)
  | .octetString data => frame octetStringId data
  | .objectId value => frame objectIdId (objectIdBytes value)
  | .null => frame nullId []
  | .sequence type data => frame type (encodeAll data)

def encodeAll : List Obj → List UInt8
  | [] => []
  | obj :: data => encode obj ++ encodeAll data

end

mutual

/-- Every object identifier of a tree has the two arcs that are combined. -/
def encodable : Obj → Bool
  | .objectId value => 2 ≤ value.length
  | .sequence _ data => encodableAll data
  | _ => true

def encodableAll : List Obj → Bool
  | [] => true
  | obj :: data => encodable obj && encodableAll data

end

theorem lengthSize_pos (len : ℕ) : 0 < lengthSize len := by
  unfold lengthSize
  split_ifs <;> omega

@[simp]
theorem length_bigEndian (k n : ℕ) : (bigEndian k n).length = k := by
  simp [bigEndian]

@[simp]
theorem length_lengthBytes (len : ℕ) : (lengthBytes len).length = lengthSize len := by
  have hpos := lengthSize_pos len
  unfold lengthBytes
  by_cases hshort : lengthSize len = 1
  · simp [hshort]
  · rw [if_neg hshort, List.length_cons, length_bigEndian]
    omega

@[simp]
theorem length_integerBytes (value : BitVec 32) (signed : Bool) :
    (integerBytes value signed).length = integerSize value signed := by
  simp [integerBytes]

theorem length_arcBytes (val : ℕ) : (arcBytes val).length = (numbits val + 6) / 7 := by
  have hpos := numbits_pos val
  simp only [arcBytes, List.length_append, List.length_map, List.length_dropLast,
    List.length_drop, length_digits]
  omega

@[simp]
theorem length_objectIdBytes (value : List Arc) :
    (objectIdBytes value).length = objectIdSize value := by
  simp [objectIdBytes, objectIdSize, List.length_flatMap, length_arcBytes]

@[simp]
theorem length_frame (type : Identifier) (contents : List UInt8) :
    (frame type contents).length = framed contents.length := by
  simp [frame, framed]
  omega

/-! ## Counting -/

mutual

/-- Without a buffer, {lit}`Marshal` adds the length of the encoding. -/
theorem count_eq (obj : Obj) (buflen : ℕ) (hvalid : encodable obj)
    (hlen : buflen + (encode obj).length < 2 ^ 32) :
    count obj buflen = some (buflen + (encode obj).length) := by
  cases obj with
  | objectId value =>
      simp [encodable] at hvalid
      simp [encode] at hlen
      simp [count, encode, wrap, Nat.mod_eq_of_lt hlen, Nat.not_lt.mpr hvalid]
  | sequence type data =>
      simp [encode] at hlen
      simp only [encodable] at hvalid
      have hitems := countAll_eq data 0 hvalid (by unfold framed at hlen; omega)
      simp [count, hitems, encode, wrap, Nat.mod_eq_of_lt hlen]
  | _ =>
      simp [encode] at hlen
      simp [count, encode, wrap, Nat.mod_eq_of_lt hlen]

theorem countAll_eq (data : List Obj) (buflen : ℕ) (hvalid : encodableAll data)
    (hlen : buflen + (encodeAll data).length < 2 ^ 32) :
    countAll data buflen = some (buflen + (encodeAll data).length) := by
  cases data with
  | nil => simp [countAll, encodeAll]
  | cons obj data =>
      simp [encodableAll] at hvalid
      simp [encodeAll] at hlen
      have hhead := count_eq obj buflen hvalid.1 (by omega)
      simp only [countAll, hhead, Option.bind_some, encodeAll, List.length_append, ← Nat.add_assoc]
      exact countAll_eq data _ hvalid.2 (by omega)

end

mutual

/-- A tree that has no encoding is not counted. -/
theorem count_isSome (obj : Obj) (buflen : ℕ) : (count obj buflen).isSome = encodable obj := by
  cases obj with
  | objectId value =>
      by_cases hshort : value.length < 2 <;> simp [count, encodable, hshort]
      omega
  | sequence type data => simpa [count, encodable] using countAll_isSome data 0
  | _ => simp [count, encodable]

theorem countAll_isSome (data : List Obj) (buflen : ℕ) :
    (countAll data buflen).isSome = encodableAll data := by
  cases data with
  | nil => simp [countAll, encodableAll]
  | cons obj data =>
      have hhead := count_isSome obj buflen
      rw [countAll, encodableAll, ← hhead]
      cases count obj buflen with
      | none => simp
      | some datalen => simpa using countAll_isSome data datalen

end

/-! ## The writes -/

/-- What {lit}`Marshal` writes at once. -/
inductive Write where
  | typeByte (type : Identifier)
  | lengthField (len : ℕ)
  | contents (bytes : List UInt8)

/-- The bytes of a write. -/
def Write.bytes : Write → List UInt8
  | .typeByte type => [type]
  | .lengthField len => lengthBytes len
  | .contents bytes => bytes

/-- The bytes that are written without being taken off the space that is left. -/
def Write.untold : Write → ℕ
  | .lengthField len => lengthSize len
  | _ => 0

def Write.run : Write → Writer
  | .typeByte type => marshalType type
  | .lengthField len => marshalLength len
  | .contents bytes => marshalData bytes

mutual

/-- The writes of a tree, in order. -/
def writes : Obj → List Write
  | .integer type value signed =>
      [.typeByte type, .lengthField (integerSize value signed),
        .contents (integerBytes value signed)]
  | .octetString data => [.typeByte octetStringId, .lengthField data.length, .contents data]
  | .objectId value =>
      [.typeByte objectIdId, .lengthField (objectIdSize value),
        .contents (objectIdBytes value)]
  | .null => [.typeByte nullId, .lengthField 0]
  | .sequence type data =>
      .typeByte type :: .lengthField ((countAll data 0).getD 0) :: writesAll data

def writesAll : List Obj → List Write
  | [] => []
  | obj :: data => writes obj ++ writesAll data

end

def runWrites : List Write → Writer
  | [] => fun out => (true, out)
  | write :: rest => write.run.andThen (runWrites rest)

/-- All bytes of some writes. -/
def output (ws : List Write) : List UInt8 :=
  ws.flatMap Write.bytes

/-- How far the space that is left has been overestimated after some writes. -/
def untold (ws : List Write) : ℕ :=
  (ws.map Write.untold).sum

@[simp]
theorem output_nil : output [] = [] := rfl

@[simp]
theorem output_cons (write : Write) (ws : List Write) :
    output (write :: ws) = write.bytes ++ output ws := by
  simp [output]

@[simp]
theorem output_append (ws ws' : List Write) : output (ws ++ ws') = output ws ++ output ws' := by
  simp [output]

@[simp]
theorem untold_nil : untold [] = 0 := rfl

@[simp]
theorem untold_cons (write : Write) (ws : List Write) :
    untold (write :: ws) = write.untold + untold ws := by
  simp [untold]

theorem untold_le (write : Write) : write.untold ≤ write.bytes.length := by
  cases write <;> simp [Write.untold, Write.bytes]

/-- A write happens if it fits what is left by the encoder's own count. -/
theorem run_write (write : Write) (out : Out) :
    write.run out =
      if out.buflen < write.bytes.length then (false, out)
      else (true, ⟨out.written ++ write.bytes,
        out.buflen - (write.bytes.length - write.untold)⟩) := by
  cases write with
  | lengthField len => simp [Write.run, marshalLength, Write.bytes, Write.untold]
  | _ => simp [Write.run, marshalType, marshalData, Write.bytes, Write.untold]

theorem runWrites_cons (write : Write) (ws : List Write) :
    runWrites (write :: ws) = write.run.andThen (runWrites ws) := rfl

@[simp]
theorem andThen_done (writer : Writer) : writer.andThen (runWrites []) = writer := by
  funext out
  rcases hout : writer out with ⟨_ | _, after⟩ <;> simp [Writer.andThen, runWrites, hout]

theorem runWrites_append (ws ws' : List Write) :
    runWrites (ws ++ ws') = (runWrites ws).andThen (runWrites ws') := by
  induction ws with
  | nil => rfl
  | cons write ws ih =>
      funext out
      simp only [List.cons_append, runWrites, ih, Writer.andThen]
      rcases write.run out with ⟨_ | _, after⟩ <;> rfl

mutual

/-- With a buffer, {lit}`Marshal` is a run of writes, each after its own check. -/
theorem marshal_eq (obj : Obj) (hvalid : encodable obj) : marshal obj = runWrites (writes obj) := by
  cases obj with
  | objectId value =>
      simp [encodable] at hvalid
      simp [marshal, Nat.not_lt.mpr hvalid, writes, runWrites_cons, Write.run]
  | sequence type data =>
      have hcount : (countAll data 0).isSome := by rwa [countAll_isSome]
      rcases hdata : countAll data 0 with _ | datalen
      · simp [hdata] at hcount
      · simp [marshal, writes, runWrites_cons, hdata, marshalAll_eq data hvalid, Write.run]
  | _ => simp [marshal, writes, runWrites_cons, Write.run]

theorem marshalAll_eq (data : List Obj) (hvalid : encodableAll data) :
    marshalAll data = runWrites (writesAll data) := by
  cases data with
  | nil => rfl
  | cons obj data =>
      simp [encodableAll] at hvalid
      rw [marshalAll, writesAll, runWrites_append, marshal_eq obj hvalid.1,
        marshalAll_eq data hvalid.2]

end

/-! ## How far a run comes -/

/-- The check before a write fails, after some others. -/
def Refused (buflen : ℕ) (before : List Write) (write : Write) : Prop :=
  buflen + untold before < (output before).length + write.bytes.length

/-- A run of writes comes to its end, or to the first write that is refused. -/
theorem runWrites_cases (ws : List Write) (out : Out) :
    ((runWrites ws out).1 = true ∧
        (runWrites ws out).2.written = out.written ++ output ws ∧
        ∀ before write after, ws = before ++ write :: after →
          ¬ Refused out.buflen before write) ∨
      (runWrites ws out).1 = false ∧ ∃ before write after,
        ws = before ++ write :: after ∧ Refused out.buflen before write ∧
        (runWrites ws out).2.written = out.written ++ output before ∧
        ∀ before' write' after', ws = before' ++ write' :: after' →
          Refused out.buflen before' write' → (output before).length ≤ (output before').length := by
  induction ws generalizing out with
  | nil =>
      left
      simp [runWrites]
  | cons head ws ih =>
      by_cases hroom : out.buflen < head.bytes.length
      · right
        simp only [runWrites_cons, Writer.andThen, run_write, if_pos hroom]
        exact ⟨trivial, [], head, ws, rfl, by simpa [Refused] using hroom, by simp, by simp⟩
      · have huntold := untold_le head
        have hshift (before : List Write) (write : Write) :
            Refused out.buflen (head :: before) write ↔
              Refused (out.buflen - (head.bytes.length - head.untold)) before write := by
          simp only [Refused, output_cons, untold_cons, List.length_append]
          omega
        have hfirst : ¬ Refused out.buflen [] head := by simpa [Refused] using hroom
        simp only [runWrites_cons, Writer.andThen, run_write, if_neg hroom]
        rcases ih ⟨out.written ++ head.bytes,
          out.buflen - (head.bytes.length - head.untold)⟩ with
          ⟨hdone, hwritten, hall⟩ | ⟨hfail, before, write, after, rfl, hrefused, hwritten, hleast⟩
        · refine Or.inl ⟨hdone, by simp [hwritten], ?_⟩
          intro before write after hws
          cases before with
          | nil =>
              obtain ⟨rfl, rfl⟩ := List.cons.inj hws
              exact hfirst
          | cons head' before =>
              obtain ⟨rfl, rfl⟩ := List.cons.inj hws
              rw [hshift]
              exact hall before write after rfl
        · refine Or.inr ⟨hfail, head :: before, write, after, rfl, (hshift _ _).mpr hrefused,
            by simp [hwritten], ?_⟩
          intro before' write' after' hws hrefused'
          cases before' with
          | nil =>
              obtain ⟨rfl, -⟩ := List.cons.inj hws
              exact absurd hrefused' hfirst
          | cons head' before' =>
              obtain ⟨rfl, hrest⟩ := List.cons.inj hws
              have hle := hleast before' write' after' hrest ((hshift _ _).mp hrefused')
              simpa using hle

/-! ## What is written -/

mutual

/-- The writes of a tree make up its encoding, unless both are too large for any buffer. -/
theorem output_writes (obj : Obj) (hvalid : encodable obj) :
    output (writes obj) = encode obj ∨
      2 ^ 32 ≤ (encode obj).length ∧ 2 ^ 32 ≤ (output (writes obj)).length := by
  cases obj with
  | sequence type data =>
      by_cases hfits : (encodeAll data).length < 2 ^ 32
      · left
        have hcount := countAll_eq data 0 hvalid (by omega)
        rcases output_writesAll data hvalid with heq | ⟨hlarge, -⟩
        · simp [writes, hcount, heq, encode, frame, Write.bytes]
        · omega
      · right
        rcases output_writesAll data hvalid with heq | ⟨-, hlarge⟩
        · simp [writes, heq, encode, framed, Write.bytes]
          omega
        · simp [writes, encode, framed, Write.bytes]
          omega
  | _ => simp [writes, encode, frame, Write.bytes]

theorem output_writesAll (data : List Obj) (hvalid : encodableAll data) :
    output (writesAll data) = encodeAll data ∨
      2 ^ 32 ≤ (encodeAll data).length ∧ 2 ^ 32 ≤ (output (writesAll data)).length := by
  cases data with
  | nil => simp [writesAll, encodeAll]
  | cons obj data =>
      simp [encodableAll] at hvalid
      simp only [writesAll, encodeAll, output_append, List.length_append]
      rcases output_writes obj hvalid.1 with hhead | hhead
      · rcases output_writesAll data hvalid.2 with htail | htail
        · simp [hhead, htail]
        · omega
      · omega

end

/-- A tree without an encoding is refused before its contents are written. -/
theorem marshal_of_not_encodable {obj : Obj} (hvalid : ¬ encodable obj) (buflen : ℕ) :
    (marshal obj ⟨[], buflen⟩).1 = false ∧
      (marshal obj ⟨[], buflen⟩).2.written.length ≤ buflen := by
  cases obj with
  | objectId value =>
      simp [encodable] at hvalid
      simp [marshal, hvalid]
  | sequence type data =>
      have hcount : countAll data 0 = none := by
        have hnone : (countAll data 0).isSome = false := by
          simpa [countAll_isSome, encodable] using hvalid
        exact Option.not_isSome_iff_eq_none.mp (by simp [hnone])
      by_cases hroom : buflen < 1
      · simp [marshal, marshalType, Writer.andThen, hroom]
      · simp [marshal, marshalType, Writer.andThen, hroom, hcount]
        omega
  | _ => simp [encodable] at hvalid

/-! ## When the buffer is respected -/

/-- {lit}`Marshal` writes no more bytes than there are, and fails exactly if no encoding of the
tree fits. -/
def RespectsBuffer (obj : Obj) (buflen : UInt32) : Prop :=
  (marshal obj ⟨[], buflen.toNat⟩).2.written.length ≤ buflen.toNat ∧
    ((marshal obj ⟨[], buflen.toNat⟩).1 = false ↔
      ¬ (encodable obj ∧ (encode obj).length ≤ buflen.toNat))

/-- A write is refused while all that comes before it fits: it exceeds the space by more than
the length fields before it. -/
def StopsInTime (obj : Obj) (buflen : UInt32) : Prop :=
  ∃ before write after, writes obj = before ++ write :: after ∧
    (output before).length ≤ buflen.toNat ∧ Refused buflen.toNat before write

/-- A run to the end has written everything. -/
theorem written_of_marshal {obj : Obj} {buflen : ℕ} (hvalid : encodable obj)
    (hdone : (marshal obj ⟨[], buflen⟩).1 = true) :
    (marshal obj ⟨[], buflen⟩).2.written = output (writes obj) := by
  rw [marshal_eq obj hvalid] at hdone ⊢
  rcases runWrites_cases (writes obj) ⟨[], buflen⟩ with ⟨-, hwritten, -⟩ | ⟨hfail, -⟩
  · simpa using hwritten
  · simp [hdone] at hfail

/-- An encoding that fits is written. -/
theorem marshal_of_fits {obj : Obj} {buflen : UInt32} (hvalid : encodable obj)
    (hfits : (encode obj).length ≤ buflen.toNat) :
    (marshal obj ⟨[], buflen.toNat⟩).1 = true ∧
      (marshal obj ⟨[], buflen.toNat⟩).2.written = encode obj := by
  have hmax : buflen.toNat < 2 ^ 32 := buflen.toNat_lt
  have heq : output (writes obj) = encode obj := by
    rcases output_writes obj hvalid with heq | hlarge
    · exact heq
    · omega
  have hdone : (marshal obj ⟨[], buflen.toNat⟩).1 = true := by
    rw [marshal_eq obj hvalid]
    rcases runWrites_cases (writes obj) ⟨[], buflen.toNat⟩ with
      ⟨hdone, -⟩ | ⟨-, before, write, after, hws, hrefused, -⟩
    · exact hdone
    · rw [← heq, hws] at hfits
      simp [Refused] at hfits hrefused
      omega
  exact ⟨hdone, (written_of_marshal hvalid hdone).trans heq⟩

/-- The buffer is respected exactly if the tree has no encoding, or one that fits, or if a write
is refused in time. -/
theorem marshal_respects_iff (obj : Obj) (buflen : UInt32) :
    RespectsBuffer obj buflen ↔
      (encodable obj → (encode obj).length ≤ buflen.toNat ∨ StopsInTime obj buflen) := by
  unfold RespectsBuffer StopsInTime
  by_cases hvalid : encodable obj
  · by_cases hfits : (encode obj).length ≤ buflen.toNat
    · have hrun := marshal_of_fits hvalid hfits
      simp [hrun, hvalid, hfits]
    · have hmax : buflen.toNat < 2 ^ 32 := buflen.toNat_lt
      rw [marshal_eq obj hvalid]
      rcases runWrites_cases (writes obj) ⟨[], buflen.toNat⟩ with
        ⟨hdone, -, hall⟩ | ⟨hfail, before, write, after, hws, hrefused, hwritten, hleast⟩
      · constructor
        · rintro ⟨-, hiff⟩
          simp [hdone, hfits] at hiff
        · intro hstops
          rcases hstops hvalid with hfits' | ⟨before, write, after, hws, -, hrefused⟩
          · exact absurd hfits' hfits
          · exact absurd hrefused (hall before write after hws)
      · simp only [hfail, hwritten, hfits, List.nil_append]
        constructor
        · rintro ⟨hle, -⟩ -
          exact Or.inr ⟨before, write, after, hws, hle, hrefused⟩
        · intro hstops
          rcases hstops hvalid with hfits' | ⟨before', write', after', hws', hle, hrefused'⟩
          · exact hfits'.elim
          · have hbefore := hleast before' write' after' hws' hrefused'
            exact ⟨by omega, by simp⟩
  · have hrun := marshal_of_not_encodable hvalid buflen.toNat
    simp [hrun, hvalid]

/-! ## Examples of runs -/

/-- A buffer of two bytes: the length byte is not taken off, so a third one is written. -/
theorem marshal_overruns : ¬ RespectsBuffer (.octetString [0x61]) 2 := by
  intro hrespects
  have hle := hrespects.1
  revert hle
  decide +kernel

end Asn
end Apcupsd
