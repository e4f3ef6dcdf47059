import Apcupsd.Snmp.RoundTrip

/-!
# The size pass of the encoder

{lit}`Marshal` runs twice over the items of a sequence: without a buffer it counts the bytes,
with one it writes them.  The length field of a sequence is what the first run has counted.

Main results:

- Theorem {lit}`count_from`: the size pass adds the same number to every length.
- Theorem {lit}`framed_encode`: in an encoding every length field tells how many bytes follow.
- Theorem {lit}`sizePass_agrees`: the two passes agree on every tree.
-/

namespace Apcupsd
namespace Asn

open Radix

/-! ## Length fields and contents -/

/-- The type of an object. -/
def Obj.typeOf : Obj → Identifier
  | .integer type _ _ => type
  | .octetString _ => octetStringId
  | .objectId _ => objectIdId
  | .null => nullId
  | .sequence type _ => type

mutual

/-- Some bytes are a type, a length field, and as many bytes of contents; those of a sequence
are made up of its items, each in this form. -/
def Framed : Obj → List UInt8 → Prop
  | .sequence type data, bytes => ∃ lenBytes contents,
      bytes = type :: (lenBytes ++ contents) ∧ LengthField lenBytes contents.length ∧
        FramedAll data contents
  | obj, bytes => ∃ lenBytes contents,
      bytes = obj.typeOf :: (lenBytes ++ contents) ∧ LengthField lenBytes contents.length

def FramedAll : List Obj → List UInt8 → Prop
  | [], bytes => bytes = []
  | obj :: data, bytes => ∃ front back,
      bytes = front ++ back ∧ Framed obj front ∧ FramedAll data back

end

mutual

/-- In an encoding every length field tells how many bytes follow. -/
theorem framed_encode (obj : Obj) (hlen : (encode obj).length < 2 ^ 32) :
    Framed obj (encode obj) := by
  cases obj with
  | sequence type data =>
      simp only [encode, length_frame, framed] at hlen
      exact ⟨_, _, rfl, lengthField_lengthBytes (by omega),
        framedAll_encodeAll data (by omega)⟩
  | _ =>
      simp only [encode, length_frame, framed] at hlen
      exact ⟨_, _, rfl, lengthField_lengthBytes (by omega)⟩

theorem framedAll_encodeAll (data : List Obj) (hlen : (encodeAll data).length < 2 ^ 32) :
    FramedAll data (encodeAll data) := by
  cases data with
  | nil => rfl
  | cons obj data =>
      simp only [encodeAll, List.length_append] at hlen
      exact ⟨_, _, rfl, framed_encode obj (by omega), framedAll_encodeAll data (by omega)⟩

end

/-! ## The two passes -/

/-- The size pass adds the same number to every length, as the machine adds. -/
theorem count_from (obj : Obj) (buflen : ℕ) :
    count obj buflen = (count obj 0).map fun size => wrap (buflen + size) := by
  have hwrap (size : ℕ) : wrap (buflen + wrap (0 + size)) = wrap (buflen + size) := by
    rw [Nat.zero_add, wrap, wrap, Nat.add_mod_mod, wrap]
  cases obj with
  | objectId value =>
      by_cases hshort : value.length < 2
      · simp [count, hshort]
      · simp only [count, if_neg hshort, Option.map_some, hwrap]
  | sequence type data =>
      simp only [count, Option.map_map, Function.comp_def, hwrap]
  | _ => simp only [count, Option.map_some, hwrap]

/-- What has been written into a buffer that was large enough is the encoding. -/
theorem written_eq_encode {obj : Obj} {buflen : UInt32} {out : Out}
    (hrun : marshal obj ⟨[], buflen.toNat⟩ = (true, out))
    (hroom : out.written.length ≤ buflen.toNat) :
    encodable obj ∧ out.written = encode obj ∧ (encode obj).length < 2 ^ 32 := by
  have hmax : buflen.toNat < 2 ^ 32 := buflen.toNat_lt
  have hvalid : encodable obj := by
    by_contra hnot
    have hfail := (marshal_of_not_encodable hnot buflen.toNat).1
    rw [hrun] at hfail
    cases hfail
  have hwritten := written_of_marshal hvalid (congrArg Prod.fst hrun)
  rw [hrun] at hwritten
  dsimp only at hwritten
  rcases output_writes obj hvalid with heq | ⟨-, hlarge⟩
  · rw [heq] at hwritten
    exact ⟨hvalid, hwritten, by rw [← hwritten]; omega⟩
  · rw [← hwritten] at hlarge
    omega

/-- Nothing is refused for lack of room if there is room for every write. -/
theorem marshal_of_room {obj : Obj} (hvalid : encodable obj) {buflen : ℕ}
    (hroom : (output (writes obj)).length ≤ buflen) : (marshal obj ⟨[], buflen⟩).1 = true := by
  rw [marshal_eq obj hvalid]
  rcases runWrites_cases (writes obj) ⟨[], buflen⟩ with
    ⟨hdone, -⟩ | ⟨-, before, write, after, hws, hrefused, -⟩
  · exact hdone
  · rw [hws] at hroom
    simp [Refused] at hroom hrefused
    omega

/-- {lit}`Marshal` without a buffer and {lit}`Marshal` with one. -/
structure PassesAgree (obj : Obj) : Prop where
  /-- Where the size pass fails, so does the writing pass, in any buffer. -/
  fails : ∀ len : UInt32, count obj len.toNat = none →
    ∀ buflen, (marshal obj ⟨[], buflen⟩).1 = false
  /-- Where it succeeds, so does the writing pass in every buffer that is large enough. -/
  succeeds : ∀ len : UInt32, (count obj len.toNat).isSome →
    ∃ room, ∀ buflen, room ≤ buflen → (marshal obj ⟨[], buflen⟩).1 = true
  /-- It adds as many bytes as have been written. -/
  adds : ∀ (len buflen : UInt32) (out : Out), marshal obj ⟨[], buflen.toNat⟩ = (true, out) →
    out.written.length ≤ buflen.toNat →
      count obj len.toNat = some ((len.toNat + out.written.length) % 2 ^ 32)
  /-- At every depth a length field tells how many bytes of contents follow. -/
  framed : ∀ (buflen : UInt32) (out : Out), marshal obj ⟨[], buflen.toNat⟩ = (true, out) →
    out.written.length ≤ buflen.toNat → Framed obj out.written

/-- The two passes agree on every tree. -/
theorem sizePass_agrees (obj : Obj) : PassesAgree obj := by
  constructor
  · intro len hnone buflen
    refine (marshal_of_not_encodable ?_ buflen).1
    rw [← count_isSome obj len.toNat, hnone]
    exact Bool.false_ne_true
  · intro len hsome
    rw [count_isSome] at hsome
    exact ⟨_, fun buflen hroom => marshal_of_room hsome hroom⟩
  · intro len buflen out hrun hroom
    rcases written_eq_encode hrun hroom with ⟨hvalid, hwritten, hlen⟩
    rw [count_from, count_eq obj 0 hvalid (by omega), Nat.zero_add, ← hwritten]
    rfl
  · intro buflen out hrun hroom
    rcases written_eq_encode hrun hroom with ⟨-, hwritten, hlen⟩
    rw [hwritten]
    exact framed_encode obj hlen

end Asn
end Apcupsd
