import Apcupsd.Foundations.ByteCursor
import Apcupsd.Foundations.Radix

/-!
# ASN.1 objects

The type classes of {lit}`drivers/snmplite/asn.cpp`, with {lit}`Marshal` and
{lit}`Demarshal`.

Main results:

- Definitions {lit}`Asn.count` and {lit}`Asn.marshal`: {lit}`Marshal` without and with a
  buffer.
- Definition {lit}`Asn.demarshal`: {lit}`Object::Demarshal` over the memory.
-/

namespace Apcupsd
namespace Asn

open ByteCursor Radix

/-! ## Identifiers -/

abbrev Identifier := UInt8

def integerId : Identifier := 0x02
def octetStringId : Identifier := 0x04
def nullId : Identifier := 0x05
def objectIdId : Identifier := 0x06
def sequenceId : Identifier := 0x30
def ipAddressId : Identifier := 0x40
def counterId : Identifier := 0x41
def gaugeId : Identifier := 0x42
def timeTicksId : Identifier := 0x43
def getReqPdu : Identifier := 0xA0
def getNextReqPdu : Identifier := 0xA1
def getRspPdu : Identifier := 0xA2
def setReqPdu : Identifier := 0xA3
def trapPdu : Identifier := 0xA4

/-! ## Objects -/

/-- An {lit}`int`, as an arc of an object identifier. -/
abbrev Arc := BitVec 32

/-- {lit}`Object` with its subclasses; a string and an object identifier have a fixed type. -/
inductive Obj where
  | integer (type : Identifier) (value : BitVec 32) (signed : Bool)
  | octetString (data : List UInt8)
  | objectId (value : List Arc)
  | null
  | sequence (type : Identifier) (data : List Obj)

/-- {lit}`Integer(int value)`. -/
def Obj.ofInt (value : BitVec 32) : Obj :=
  .integer integerId value (value.slt 0)

/-! ## Writing -/

/-- A buffer that is being filled. -/
structure Out where
  written : List UInt8
  buflen : ℕ
deriving DecidableEq

abbrev Writer := Out → Bool × Out

/-- One writer after the other, unless the first has failed. -/
def Writer.andThen (first next : Writer) : Writer := fun out =>
  match first out with
  | (false, after) => (false, after)
  | (true, after) => next after

/-- The low byte of a number. -/
def byteOf (n : ℕ) : UInt8 := UInt8.ofNat n

/-- The bytes of a number, the most significant one first. -/
def bigEndian (k n : ℕ) : List UInt8 := (digits 256 k n).map byteOf

/-- The number of bytes that {lit}`marshalLength` needs. -/
def lengthSize (len : ℕ) : ℕ :=
  if numbits len ≤ 7 then 1 else (numbits len + 7) / 8 + 1

/-- The bytes that {lit}`marshalLength` writes. -/
def lengthBytes (len : ℕ) : List UInt8 :=
  if lengthSize len = 1 then [byteOf len]
  else byteOf ((lengthSize len - 1) ||| 0x80) :: bigEndian (lengthSize len - 1) len

/-- {lit}`Object::marshalType` with a buffer. -/
def marshalType (type : Identifier) : Writer := fun out =>
  if out.buflen < 1 then (false, out)
  else (true, { written := out.written ++ [type], buflen := out.buflen - 1 })

/-- {lit}`Object::marshalLength` with a buffer: the space that is left does not change. -/
def marshalLength (len : ℕ) : Writer := fun out =>
  if out.buflen < lengthSize len then (false, out)
  else (true, { out with written := out.written ++ lengthBytes len })

/-- The contents of an object, written at once. -/
def marshalData (bytes : List UInt8) : Writer := fun out =>
  if out.buflen < bytes.length then (false, out)
  else
    (true, { written := out.written ++ bytes, buflen := out.buflen - bytes.length })

/-- The loop that finds the size of an integer: leading bytes that only repeat the sign are
left out. -/
def integerLoop (signed : Bool) : ℕ → BitVec 32 → ℕ × BitVec 32
  | 0, tmp => (0, tmp)
  | 1, tmp => (1, tmp)
  | datalen + 2, tmp =>
      if signed ∧ tmp &&& 0xff800000 ≠ 0xff800000 ∨
          ¬ signed ∧ tmp &&& 0xff800000 ≠ 0 then (datalen + 2, tmp)
      else integerLoop signed (datalen + 1) (tmp <<< 8)

/-- The number of bytes of an integer. -/
def integerSize (value : BitVec 32) (signed : Bool) : ℕ :=
  let (datalen, tmp) := integerLoop signed 4 value
  if ¬ signed ∧ datalen = 4 ∧ tmp &&& 0x80000000 ≠ 0 then 5 else datalen

def integerBytes (value : BitVec 32) (signed : Bool) : List UInt8 :=
  bigEndian (integerSize value signed) value.toNat

/-- The numbers that stand for the arcs: the first two are combined. -/
def arcValues : List Arc → List ℕ
  | first :: second :: rest => (first * 40 + second).toNat :: rest.map BitVec.toNat
  | _ => []

/-- The octets of a number, with bit 7 set on all but the final one. -/
def arcBytes (val : ℕ) : List UInt8 :=
  let octets := digits 128 ((numbits val + 6) / 7) val
  octets.dropLast.map (fun octet => byteOf (octet ||| 0x80)) ++
    (octets.drop (octets.length - 1)).map byteOf

/-- The number of octets of an object identifier: each holds 7 bits. -/
def objectIdSize (value : List Arc) : ℕ :=
  ((arcValues value).map fun val => (numbits val + 6) / 7).sum

def objectIdBytes (value : List Arc) : List UInt8 :=
  (arcValues value).flatMap arcBytes

/-- A value of type {lit}`unsigned int`. -/
def wrap (n : ℕ) : ℕ := n % 2 ^ 32

/-- The bytes that an object takes with contents of the given size. -/
def framed (datalen : ℕ) : ℕ := 1 + lengthSize datalen + datalen

mutual

/-- {lit}`Marshal` without a buffer: the size is added to {lit}`buflen`. -/
def count : Obj → ℕ → Option ℕ
  | .integer _ value signed, buflen => some (wrap (buflen + framed (integerSize value signed)))
  | .octetString data, buflen => some (wrap (buflen + framed data.length))
  | .objectId value, buflen =>
      if value.length < 2 then none
      else some (wrap (buflen + framed (objectIdSize value)))
  | .null, buflen => some (wrap (buflen + framed 0))
  | .sequence _ data, buflen =>
      (countAll data 0).map fun datalen => wrap (buflen + framed datalen)

def countAll : List Obj → ℕ → Option ℕ
  | [], buflen => some buflen
  | obj :: data, buflen => (count obj buflen).bind (countAll data)

end

mutual

/-- {lit}`Marshal` with a buffer. -/
def marshal : Obj → Writer
  | .integer type value signed =>
      (marshalType type).andThen ((marshalLength (integerSize value signed)).andThen
        (marshalData (integerBytes value signed)))
  | .octetString data =>
      (marshalType octetStringId).andThen ((marshalLength data.length).andThen
        (marshalData data))
  | .objectId value =>
      if value.length < 2 then fun out => (false, out)
      else
        (marshalType objectIdId).andThen ((marshalLength (objectIdSize value)).andThen
          (marshalData (objectIdBytes value)))
  | .null => (marshalType nullId).andThen (marshalLength 0)
  | .sequence type data =>
      (marshalType type).andThen
        (match countAll data 0 with
        | none => fun out => (false, out)
        | some datalen => (marshalLength datalen).andThen (marshalAll data))

def marshalAll : List Obj → Writer
  | [] => fun out => (true, out)
  | obj :: data => (marshal obj).andThen (marshalAll data)

end

/-! ## Reading -/

section Reading

variable (mem : Memory)

/-- {lit}`Object::demarshalLength`. -/
def demarshalLength : Reader ℕ :=
  (readByte mem).bind fun first =>
    if first.toNat < 128 then Reader.pure first.toNat
    else (readBytes mem (first.toNat - 128)).bind fun bytes =>
      Reader.pure (shiftAll 8 (0#32) (bytes.map UInt8.toNat)).toNat

/-- The length of some contents and the contents themselves. -/
def demarshalData (least most : ℕ) : Reader (List UInt8) :=
  (demarshalLength mem).bind fun datalen =>
    if datalen < least ∨ most < datalen then Reader.fail else readBytes mem datalen

/-- The value of an integer, from its bytes. -/
def integerOf (type : Identifier) (bytes : List UInt8) : Obj :=
  if bytes.headD 0 &&& 0x80 ≠ 0 then
    .integer type (shiftAll 8 (BitVec.allOnes 32) (bytes.map UInt8.toNat)) true
  else .integer type (shiftAll 8 (0#32) (bytes.map UInt8.toNat)) false

/-- Accumulate the octets of one identifier. -/
def readArc : Arc → List UInt8 → Arc × List UInt8
  | arc, [] => (arc, [])
  | arc, octet :: rest =>
      let arc := shiftIn 7 arc (octet &&& 0x7f).toNat
      if rest ≠ [] ∧ octet &&& 0x80 ≠ 0 then readArc arc rest else (arc, rest)

/-- The loop over the identifiers. -/
def readArcs : ℕ → List UInt8 → List Arc
  | 0, _ => []
  | fuel + 1, bytes =>
      if bytes = [] then []
      else (readArc 0 bytes).1 :: readArcs fuel (readArc 0 bytes).2

/-- The identifiers of an object, from its bytes: the first one stands for two. -/
def objectIdOf (bytes : List UInt8) : List Arc :=
  match readArcs bytes.length bytes with
  | [] => []
  | first :: rest => first.sdiv 40 :: first.srem 40 :: rest

/-- The class of the object that {lit}`Demarshal` creates. -/
inductive ObjClass where
  | integer | octetString | objectId | null | sequence
deriving DecidableEq

def classOf (type : Identifier) : Option ObjClass :=
  if type ∈ [integerId, counterId, gaugeId, timeTicksId] then some .integer
  else if type ∈ [octetStringId, ipAddressId] then some .octetString
  else if type = objectIdId then some .objectId
  else if type = nullId then some .null
  else if type ∈ [sequenceId, getReqPdu, getNextReqPdu, getRspPdu, trapPdu] then some .sequence
  else none

/-- The largest value of an {lit}`unsigned int`. -/
def uintMax : ℕ := 2 ^ 32 - 1

mutual

/-- The number of objects of a tree. -/
def Obj.nodes : Obj → ℕ
  | .sequence _ data => 1 + nodesAll data
  | _ => 1

def nodesAll : List Obj → ℕ
  | [] => 0
  | obj :: data => obj.nodes + nodesAll data

end

/-- The items of a sequence that has failed are deleted with it. -/
def keepItem (obj : Obj) (items : Reader (List Obj)) : Reader (List Obj) := fun c =>
  match items c with
  | (.error stop, after) => (.error stop, { after with live := after.live - obj.nodes })
  | (.ok data, after) => (.ok (obj :: data), after)

/-- The object of a type demarshals itself; a sequence needs a reader for its items. -/
def demarshalAs (items : Reader (List Obj)) (type : Identifier) : Reader Obj :=
  match classOf type with
  | none => Reader.fail
  | some .integer =>
      Reader.construct ((demarshalData mem 1 4).bind fun bytes =>
        Reader.pure (integerOf type bytes))
  | some .octetString =>
      Reader.construct ((demarshalData mem 1 uintMax).bind fun bytes =>
        Reader.pure (.octetString bytes))
  | some .objectId =>
      Reader.construct ((demarshalData mem 1 uintMax).bind fun bytes =>
        Reader.pure (.objectId (objectIdOf bytes)))
  | some .null =>
      Reader.construct ((demarshalLength mem).bind fun datalen =>
        if datalen = 0 then Reader.pure .null else Reader.fail)
  | some .sequence =>
      Reader.construct ((demarshalLength mem).bind fun datalen c =>
        if datalen < 1 ∨ c.buflen < datalen then Reader.fail c
        else (items.inside datalen).bind (fun data => Reader.pure (.sequence type data)) c)

mutual

/-- {lit}`Object::Demarshal`. -/
def demarshal : ℕ → Reader Obj
  | 0 => fun c => (.error .outOfFuel, c)
  | fuel + 1 => (readByte mem).bind (demarshalAs mem (demarshalAll fuel))

/-- The loop of {lit}`Sequence::demarshal`. -/
def demarshalAll : ℕ → Reader (List Obj)
  | 0 => fun c => if c.buflen = 0 then (.ok [], c) else (.error .outOfFuel, c)
  | fuel + 1 => fun c =>
      if c.buflen = 0 then (.ok [], c)
      else (demarshal fuel).bind (fun obj => keepItem obj (demarshalAll fuel)) c

end

/-- As many turns as a buffer can need. -/
def enoughFuel (buflen : ℕ) : ℕ := 2 * buflen + 1

/-- {lit}`Object::Demarshal` on a buffer of the given length. -/
def demarshalObject : Reader Obj := fun c => demarshal mem (enoughFuel c.buflen) c

end Reading

end Asn
end Apcupsd
