import Apcupsd.Snmp.Encoder

/-!
# SNMP messages

The variable bindings and the messages of {lit}`drivers/snmplite/snmp.cpp`, from the bytes of a
datagram to the values that a query extracts.

Main results:

- Definition {lit}`Snmp.demarshalMessage`: {lit}`Message::Demarshal`.
- Definition {lit}`Snmp.VarBind.extract`: {lit}`VarBind::Extract`.
- Theorem {lit}`Snmp.isChildOf_iff`: a child has its parent as a proper prefix.
- Theorem {lit}`Snmp.demarshalMessage_eq_error_iff`: when decoding a datagram ends in
  a fault.
-/

namespace Apcupsd
namespace Snmp

open Asn ByteCursor

/-! ## Faults -/

/-- How the driver can fail instead of returning; running out of fuel models a loop that goes
on. -/
inductive Fault where
  | unsetSize | noBinding | badIndex | emptyList | overrun | outOfFuel
deriving DecidableEq

/-- A computation that has returned has passed through both of its parts. -/
theorem ok_of_bind {α β : Type} {first : Except Fault α} {next : α → Except Fault β} {b : β}
    (hb : (first >>= next) = .ok b) : ∃ a, first = .ok a ∧ next a = .ok b := by
  cases first with
  | error fault => cases hb
  | ok a => exact ⟨a, rfl, hb⟩

/-! ## Object identifiers -/

/-- {lit}`ObjectId::IsChildOf`, for a parent without its terminator. -/
def isChildOf : List Arc → List Arc → Bool
  | [], _ => false
  | _ :: _, [] => true
  | arc :: oid, arc' :: parent => arc = arc' && isChildOf oid parent

/-- A child has its parent as a proper prefix. -/
theorem isChildOf_iff {oid parent : List Arc} :
    isChildOf oid parent ↔ parent <+: oid ∧ parent ≠ oid := by
  induction oid generalizing parent with
  | nil => cases parent <;> simp [isChildOf]
  | cons arc oid ih =>
      cases parent with
      | nil => simp [isChildOf]
      | cons arc' parent =>
          simp only [isChildOf, Bool.and_eq_true, decide_eq_true_eq, ih, List.cons_prefix_cons,
            ne_eq, List.cons.injEq]
          tauto

/-! ## Values -/

/-- What a {lit}`Variable` holds apart from its list. -/
structure Value where
  valid : Bool
  type : Identifier
  i32 : BitVec 32
  u32 : BitVec 32
  str : List UInt8
deriving DecidableEq

/-- {lit}`Variable`; the elements of its list have no lists of their own. -/
structure Variable extends Value where
  seq : List Value
deriving DecidableEq

/-- {lit}`Variable()`; the numbers, which the constructor leaves unset, are zero here. -/
def Value.fresh : Value where
  valid := false
  type := 0
  i32 := 0
  u32 := 0
  str := []

/-- The text up to its terminator. -/
def text (data : List UInt8) : List UInt8 :=
  data.takeWhile (· ≠ 0)

/-- {lit}`Object::Type`. -/
def typeOf : Obj → Identifier
  | .integer type _ _ => type
  | .octetString _ => octetStringId
  | .objectId _ => objectIdId
  | .null => nullId
  | .sequence type _ => type

/-- {lit}`Object::copy`: the copy of a sequence clears itself before its size has been set. -/
def copy : Obj → Except Fault Obj
  | .sequence _ _ => .error .unsetSize
  | obj => .ok obj

/-! ## Bindings -/

/-- {lit}`VarBind`. -/
structure VarBind where
  oid : List Arc
  data : Obj

/-- {lit}`VarBind(const Asn::ObjectId &, NULL)`. -/
def VarBind.request (oid : List Arc) : VarBind := ⟨oid, .null⟩

/-- {lit}`VarBind(Asn::Sequence &)`. -/
def VarBind.ofSequence : List Obj → Except Fault VarBind
  | [.objectId oid, value] => (copy value).map fun data => ⟨oid, data⟩
  | _ => .ok ⟨[], .null⟩

/-- {lit}`VarBindList(Asn::Sequence &)`: items that are not sequences are skipped. -/
def varBindList : List Obj → Except Fault (List VarBind)
  | [] => .ok []
  | .sequence _ seq :: rest => do
      let head ← VarBind.ofSequence seq
      let tail ← varBindList rest
      return head :: tail
  | _ :: rest => varBindList rest

/-- {lit}`VarBind::Extract`, without its list. -/
def VarBind.extract (binding : VarBind) (out : Value) : Value :=
  match binding.data with
  | .integer type value _ => { out with type := type, i32 := value, u32 := value, valid := true }
  | .octetString data =>
      { out with type := octetStringId, str := text data, valid := true }
  | data => { out with type := typeOf data }

/-- Values of this kind can be extracted. -/
def VarBind.supported (binding : VarBind) : Bool :=
  match binding.data with
  | .integer _ _ _ => true
  | .octetString _ => true
  | _ => false

/-- {lit}`VarBind::GetAsn`. -/
def VarBind.asn (binding : VarBind) : Obj :=
  .sequence sequenceId [.objectId binding.oid, binding.data]

/-! ## Messages -/

/-- {lit}`VbListMessage`. -/
structure VbListMessage where
  type : Identifier
  community : List UInt8
  reqid : BitVec 32
  errstatus : BitVec 32
  errindex : BitVec 32
  vblist : List VarBind

/-- {lit}`TrapMessage`. -/
structure TrapMessage where
  type : Identifier
  community : List UInt8
  enterprise : List Arc
  generic : BitVec 32
  specific : BitVec 32
  timestamp : BitVec 32
  vblist : List VarBind

inductive Message where
  | vbList (msg : VbListMessage)
  | trap (msg : TrapMessage)

/-- {lit}`VbListMessage::CreateFromSequence`. -/
def VbListMessage.ofSequence (type : Identifier) (community : List UInt8) :
    List Obj → Except Fault (Option Message)
  | [.integer _ reqid _, .integer _ errstatus _, .integer _ errindex _, .sequence _ bindings] =>
      (varBindList bindings).map fun vblist =>
        some (.vbList ⟨type, community, reqid, errstatus, errindex, vblist⟩)
  | _ => .ok none

/-- {lit}`TrapMessage::CreateFromSequence`. -/
def TrapMessage.ofSequence (type : Identifier) (community : List UInt8) :
    List Obj → Except Fault (Option Message)
  | [.objectId enterprise, .octetString _, .integer _ generic _, .integer _ specific _,
      .integer _ timestamp _, .sequence _ bindings] =>
      (varBindList bindings).map fun vblist =>
        some (.trap ⟨type, community, enterprise, generic, specific, timestamp, vblist⟩)
  | _ => .ok none

/-- {lit}`SNMP_VERSION_1`. -/
def snmpVersion1 : BitVec 32 := 0

/-- The message of a tree. -/
def messageOf : Obj → Except Fault (Option Message)
  | .sequence _ [.integer _ version _, .octetString community, .sequence type seq] =>
      if version ≠ snmpVersion1 then .ok none
      else if type ∈ [getReqPdu, getNextReqPdu, getRspPdu] then
        VbListMessage.ofSequence type (text community) seq
      else if type = trapPdu then TrapMessage.ofSequence type (text community) seq
      else .ok none
  | _ => .ok none

/-- {lit}`Message::Demarshal`. -/
def demarshalMessage (data : List UInt8) : Except Fault (Option Message) :=
  match (demarshalObject (memoryOf data) ⟨0, data.length, [], 0⟩).1 with
  | .error _ => .ok none
  | .ok obj => messageOf obj

/-- {lit}`VbListMessage::GetAsn`. -/
def VbListMessage.asn (msg : VbListMessage) : Obj :=
  .sequence msg.type
    [.ofInt msg.reqid, .ofInt msg.errstatus, .ofInt msg.errindex,
      .sequence sequenceId (msg.vblist.map VarBind.asn)]

/-- {lit}`Message::Marshal`, for a message with bindings. -/
def VbListMessage.marshal (msg : VbListMessage) : Writer :=
  Asn.marshal (.sequence sequenceId [.ofInt snmpVersion1, .octetString msg.community, msg.asn])

/-! ## When a message is decoded -/

/-- An item that looks like a binding and whose value is a sequence, which gets copied. -/
def copiesSequence : Obj → Bool
  | .sequence _ [.objectId _, .sequence _ _] => true
  | _ => false

theorem ofSequence_eq_error_iff {type : Identifier} {seq : List Obj} {fault : Fault} :
    VarBind.ofSequence seq = .error fault ↔
      fault = .unsetSize ∧ copiesSequence (.sequence type seq) := by
  unfold VarBind.ofSequence
  split
  · rename_i oid value
    cases value with
    | sequence type' items =>
        simp [copy, Except.map, copiesSequence]
        exact eq_comm
    | _ => simp [copy, Except.map, copiesSequence]
  · rename_i hshape
    simp only [reduceCtorEq, false_iff, not_and]
    intro _
    unfold copiesSequence
    split
    · rename_i heq
      cases heq
      exact absurd rfl (hshape _ _)
    · simp

/-- A list of bindings can be built unless the value of one is a sequence. -/
theorem varBindList_eq_error_iff {items : List Obj} {fault : Fault} :
    varBindList items = .error fault ↔
      fault = .unsetSize ∧ ∃ item ∈ items, copiesSequence item := by
  induction items with
  | nil => simp [varBindList]
  | cons item items ih =>
      cases item with
      | sequence type seq =>
          have hhead := @ofSequence_eq_error_iff type seq
          rcases hseq : VarBind.ofSequence seq with fault' | binding
          · have hcopies := hhead.mp hseq
            simp [varBindList, hseq, bind, Except.bind, hcopies.1, hcopies.2]
            exact eq_comm
          · have hkeeps : ¬ copiesSequence (.sequence type seq) := by
              intro hcopies
              have herror := hhead.mpr ⟨rfl, hcopies⟩
              rw [hseq] at herror
              cases herror
            rcases htail : varBindList items with fault' | tail
            · rw [htail] at ih
              simp [varBindList, hseq, htail, bind, Except.bind, hkeeps, ← ih]
            · rw [htail] at ih
              simp [varBindList, hseq, htail, bind, Except.bind, pure, Except.pure, hkeeps, ← ih]
      | _ => simpa [varBindList, copiesSequence] using ih

/-- The items from which the bindings of a message are made. -/
def bindingItems : Obj → List Obj
  | .sequence _ [.integer _ version _, .octetString _, .sequence type seq] =>
      if version ≠ snmpVersion1 then []
      else if type ∈ [getReqPdu, getNextReqPdu, getRspPdu] then
        match seq with
        | [.integer _ _ _, .integer _ _ _, .integer _ _ _, .sequence _ items] => items
        | _ => []
      else if type = trapPdu then
        match seq with
        | [.objectId _, .octetString _, .integer _ _ _, .integer _ _ _, .integer _ _ _,
            .sequence _ items] => items
        | _ => []
      else []
  | _ => []

/-- A message can be made of a tree unless the value of one of its bindings is a sequence. -/
theorem messageOf_eq_error_iff {obj : Obj} {fault : Fault} :
    messageOf obj = .error fault ↔
      fault = .unsetSize ∧ ∃ item ∈ bindingItems obj, copiesSequence item := by
  unfold messageOf bindingItems
  split
  · rename_i version community type seq
    split_ifs
    · simp
    · unfold VbListMessage.ofSequence
      split
      · rename_i items
        rw [← varBindList_eq_error_iff]
        cases varBindList items <;> simp [Except.map]
      · simp
    · unfold TrapMessage.ofSequence
      split
      · rename_i items
        rw [← varBindList_eq_error_iff]
        cases varBindList items <;> simp [Except.map]
      · simp
    · simp
  · simp

/-- A datagram can be decoded unless it copies a sequence. -/
theorem demarshalMessage_eq_error_iff {data : List UInt8} {fault : Fault} :
    demarshalMessage data = .error fault ↔
      fault = .unsetSize ∧ ∃ obj,
        (demarshalObject (memoryOf data) ⟨0, data.length, [], 0⟩).1 = .ok obj ∧
          ∃ item ∈ bindingItems obj, copiesSequence item := by
  unfold demarshalMessage
  rcases (demarshalObject (memoryOf data) ⟨0, data.length, [], 0⟩).1 with stop | obj
  · simp
  · simp [messageOf_eq_error_iff]

end Snmp
end Apcupsd
