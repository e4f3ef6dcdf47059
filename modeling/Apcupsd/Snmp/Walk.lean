import Apcupsd.Foundations.PartialWalk
import Apcupsd.Snmp.Engine
import Apcupsd.Snmp.RoundTrip
import Mathlib.Data.FinEnum
import Mathlib.Data.Finite.Prod
import Mathlib.Data.List.Lex
import Mathlib.Data.List.TakeWhile
import Mathlib.Data.Set.Finite.List

/-!
# The end of a table walk

A walk asks for the OID that it was given last.  Here an agent is a function of the request, so
that its walk goes along a partial function from requests to requests.

Main results:

- Theorem {lit}`Snmp.walk_outOfFuel_iff`: a walk goes on as long as answers lead to requests.
- Theorem {lit}`Snmp.walk_table`: what a walk through a sorted table appends.
- Theorem {lit}`Snmp.tableAgent_wellBehaved`: an agent with such a table.
- Theorem {lit}`Snmp.walk_right_iff`: when a walk ends and returns what it should.
-/

namespace Apcupsd
namespace Snmp

open Asn ByteCursor PartialWalk Radix

/-! ## Agents -/

/-- What arrives for a request until the time is up. -/
abbrev Agent := VbListMessage → List Event

/-- A request to an agent. -/
def asking (agent : Agent) : Perform Unit := fun engine req _ =>
  (perform engine req ⟨[], agent req⟩).map fun after => (after.1, ())

/-- The request of a walk that follows from the answer to one; a request is known by the engine
that issues it and by its OID. -/
def nextRequest (agent : Agent) (root : List Arc) :
    Engine × List Arc → Option (Engine × List Arc)
  | (engine, oid) =>
      match asking agent engine.next (getNextRequest engine [oid]) () with
      | .error _ => none
      | .ok (none, _) => none
      | .ok (some rspmsg, _) =>
          match rspmsg.vblist with
          | [] => none
          | result :: _ =>
              if isChildOf result.oid root then some (engine.next, result.oid) else none

/-- Asking an agent takes no fuel. -/
theorem asking_ne_outOfFuel {agent : Agent} {engine : Engine} {req : VbListMessage} :
    asking agent engine req () ≠ .error .outOfFuel := by
  intro hasking
  rcases hperform : perform engine req ⟨[], agent req⟩ with fault | after
  · rw [asking, hperform] at hasking
    have hends : perform engine req ⟨[], agent req⟩ ≠ .error .outOfFuel := perform_ne_outOfFuel
    rw [hperform] at hends
    exact hends (by simpa [Except.map] using hasking)
  · simp [asking, hperform, Except.map] at hasking

/-- A walk goes on as long as answers lead to requests. -/
theorem walk_outOfFuel_iff {agent : Agent} {root : List Arc} {fuel : ℕ} {oid : List Arc}
    {engine : Engine} {data : Variable} :
    walk (asking agent) root fuel oid engine data () = .error .outOfFuel ↔
      follow (nextRequest agent root) fuel (engine, oid) ≠ none := by
  induction fuel generalizing oid engine data with
  | zero => simp [walk, follow]
  | succ fuel ih =>
      rw [walk, follow, nextRequest]
      rcases hasking : asking agent engine.next (getNextRequest engine [oid]) () with
        fault | ⟨_ | rspmsg, ⟨⟩⟩
      · have hfault : fault ≠ .outOfFuel := by
          rintro rfl
          exact asking_ne_outOfFuel hasking
        simp [hfault]
      · simp
      · rcases hbindings : rspmsg.vblist with _ | ⟨result, rest⟩
        · simp [hbindings]
        · by_cases hchild : isChildOf result.oid root
          · simp only [hbindings, if_pos hchild, Option.bind_some]
            exact ih
          · simp [hbindings, hchild]

/-! ## The requests that can be issued -/

/-- Writes that come to their end each fit the whole space. -/
theorem length_le_of_runWrites {ws : List Write} {buflen : ℕ}
    (hdone : (runWrites ws ⟨[], buflen⟩).1 = true) {write : Write} (hwrite : write ∈ ws) :
    write.bytes.length ≤ buflen := by
  rcases List.append_of_mem hwrite with ⟨before, after, hws⟩
  have huntold : untold before ≤ (output before).length := by
    clear hws
    induction before with
    | nil => simp
    | cons head before ih =>
        have hhead := untold_le head
        simp
        omega
  rcases runWrites_cases ws ⟨[], buflen⟩ with ⟨-, -, hall⟩ | ⟨hfail, -⟩
  · have hroom := hall before write after hws
    unfold Refused at hroom
    dsimp only at hroom
    omega
  · rw [hdone] at hfail
    cases hfail

/-- A request that can be marshalled has no longer strings than the buffer. -/
theorem length_le_of_marshals {engine : Engine} {oid : List Arc}
    (hmarshals : marshals (getNextRequest engine [oid])) :
    engine.community.length ≤ bufferSize ∧ oid.length ≤ bufferSize + 1 := by
  have hvalid : encodable (.sequence sequenceId [.ofInt snmpVersion1,
      .octetString engine.community, (getNextRequest engine [oid]).asn]) := by
    by_contra hnone
    have hfail := (marshal_of_not_encodable hnone bufferSize).1
    exact absurd (hmarshals.symm.trans hfail) (by simp)
  have hdone : (runWrites (writes (.sequence sequenceId [.ofInt snmpVersion1,
      .octetString engine.community, (getNextRequest engine [oid]).asn])) ⟨[], bufferSize⟩).1 =
        true := by
    rw [← marshal_eq _ hvalid]
    exact hmarshals
  have hcommunity := @length_le_of_runWrites _ _ hdone (.contents engine.community) (by
    simp [writes, writesAll])
  have hoid := @length_le_of_runWrites _ _ hdone (.contents (objectIdBytes oid)) (by
    simp [writes, writesAll, VbListMessage.asn, VarBind.asn, VarBind.request, getNextRequest])
  have hnumbers := length_flatMap_arcBytes (arcValues oid)
  have harcs : oid.length ≤ (arcValues oid).length + 1 := by
    rcases oid with _ | ⟨first, _ | ⟨second, rest⟩⟩ <;> simp [arcValues]
  simp only [Write.bytes, objectIdBytes] at hcommunity hoid
  omega

/-- Only finitely many requests lead to another one. -/
theorem finite_requests (agent : Agent) (root : List Arc) :
    {request | nextRequest agent root request ≠ none}.Finite := by
  have hbounded : (Set.univ ×ˢ {community : List UInt8 | community.length ≤ bufferSize} ×ˢ
      {oid : List Arc | oid.length ≤ bufferSize + 1}).Finite :=
    (@Set.finite_univ (BitVec 32) _).prod
      ((List.finite_length_le _ _).prod (List.finite_length_le _ _))
  let parts := fun request : Engine × List Arc =>
    (request.1.reqid, request.1.community, request.2)
  have hinjective : Function.Injective parts := by
    rintro ⟨⟨reqid, community⟩, oid⟩ ⟨⟨reqid', community'⟩, oid'⟩ heq
    simpa [parts, and_assoc] using heq
  refine (hbounded.preimage hinjective.injOn).subset ?_
  rintro ⟨engine, oid⟩ hnext
  by_cases hmarshals : marshals (getNextRequest engine [oid])
  · exact ⟨Set.mem_univ _, length_le_of_marshals hmarshals⟩
  · refine absurd ?_ hnext
    rcases perform_of_not_marshals (Bool.eq_false_iff.mpr hmarshals) engine.next
      ⟨[], agent (getNextRequest engine [oid])⟩ with hover | hnone
    · rw [nextRequest, asking, hover]
      rfl
    · rw [nextRequest, asking, hnone]
      rfl

/-! ## Messages that fit -/

/-- The device string, of which the community is a part, has so many bytes. -/
def maxString : ℕ := 256

/-- The names of variables have from 2 to 128 arcs. -/
def Askable (oid : List Arc) : Prop := 2 ≤ oid.length ∧ oid.length ≤ 128

/-- The tree of a message. -/
def VbListMessage.tree (msg : VbListMessage) : Obj :=
  .sequence sequenceId [.ofInt snmpVersion1, .octetString msg.community, msg.asn]

theorem framed_le {n : ℕ} (hn : n < 2 ^ 32) : framed n ≤ n + 6 := by
  have hbits := (numbits_le_iff (by decide)).mpr hn
  unfold framed lengthSize
  split_ifs <;> omega

theorem length_encode_ofInt (value : BitVec 32) : (encode (.ofInt value)).length ≤ 10 := by
  have hsize := integerSize_bounds value
  have hframed := @framed_le (integerSize value (value.slt 0)) (by omega)
  rw [Obj.ofInt, encode, length_frame, length_integerBytes]
  omega

theorem length_objectIdBytes_le (oid : List Arc) :
    (objectIdBytes oid).length ≤ 5 * oid.length := by
  have hvals (vals : List ℕ) (hvals : ∀ val ∈ vals, val < 2 ^ 32) :
      (vals.flatMap arcBytes).length ≤ 5 * vals.length := by
    induction vals with
    | nil => simp
    | cons val vals ih =>
        have hbits := (@numbits_le_iff val 32 (by decide)).mpr (hvals val List.mem_cons_self)
        have htail := ih fun v hv => hvals v (List.mem_cons_of_mem _ hv)
        rw [List.flatMap_cons, List.length_append, length_arcBytes, List.length_cons]
        omega
  have hle := hvals (arcValues oid) (arcValues_lt oid)
  have hlength : (arcValues oid).length ≤ oid.length := by
    rcases oid with _ | ⟨first, _ | ⟨second, rest⟩⟩ <;> simp [arcValues]
  unfold objectIdBytes
  omega

/-- A message with a short community and bindings that leave some space fits the buffer. -/
theorem length_tree_le {msg : VbListMessage} (hcommunity : msg.community.length < maxString)
    (hvblist : (encodeAll (msg.vblist.map VarBind.asn)).length ≤ 7000) :
    (encode msg.tree).length ≤ bufferSize := by
  have hversion := length_encode_ofInt snmpVersion1
  have hreqid := length_encode_ofInt msg.reqid
  have herrstatus := length_encode_ofInt msg.errstatus
  have herrindex := length_encode_ofInt msg.errindex
  have hmost : msg.community.length < 256 := hcommunity
  have hname := @framed_le msg.community.length (by omega)
  have hlist := @framed_le (encodeAll (msg.vblist.map VarBind.asn)).length (by omega)
  have hpdu : (encode msg.asn).length ≤
      (encodeAll (msg.vblist.map VarBind.asn)).length + 42 := by
    simp only [VbListMessage.asn, encode, encodeAll, length_frame, List.length_append,
      List.append_nil]
    refine (framed_le (by omega)).trans (by omega)
  simp only [VbListMessage.tree, encode, encodeAll, length_frame, List.length_append,
    List.append_nil, bufferSize]
  refine (framed_le (by omega)).trans (by omega)

/-- The size of a binding. -/
theorem length_binding_le {binding : VarBind}
    (hshort : 5 * binding.oid.length + (encode binding.data).length ≤ 7000) :
    (encode binding.asn).length ≤
      5 * binding.oid.length + (encode binding.data).length + 12 := by
  have hbytes := length_objectIdBytes_le binding.oid
  have hname := @framed_le (objectIdBytes binding.oid).length (by omega)
  simp only [VarBind.asn, encode, encodeAll, length_frame, List.length_append, List.append_nil]
  refine (framed_le (by omega)).trans (by omega)

theorem length_requests_le {oids : List (List Arc)}
    (hshort : (oids.map fun oid => 5 * oid.length + 14).sum ≤ 7000) :
    (encodeAll ((oids.map VarBind.request).map VarBind.asn)).length ≤
      (oids.map fun oid => 5 * oid.length + 14).sum := by
  induction oids with
  | nil => simp [encodeAll]
  | cons oid oids ih =>
      have hnull : (encode .null).length = 2 := by decide
      simp only [List.map_cons, List.sum_cons] at hshort
      have htail := ih (by omega)
      have hhead := @length_binding_le (.request oid) (by
        simp only [VarBind.request, hnull]
        omega)
      simp only [VarBind.request, hnull] at hhead
      simp only [List.map_cons, encodeAll, List.length_append, List.sum_cons, VarBind.request]
      omega

/-- The requests for a few names are marshalled within the buffer. -/
theorem issuable_getNextRequest {engine : Engine} {oids : List (List Arc)}
    (hcommunity : engine.community.length < maxString) (hoids : ∀ oid ∈ oids, 2 ≤ oid.length)
    (hshort : (oids.map fun oid => 5 * oid.length + 14).sum ≤ 7000) :
    Issuable (getNextRequest engine oids) := by
  have hlength := @length_tree_le (getNextRequest engine oids) hcommunity
    ((length_requests_le hshort).trans hshort)
  have hrequests : encodableAll ((oids.map VarBind.request).map VarBind.asn) := by
    clear hlength hshort
    induction oids with
    | nil => rfl
    | cons oid oids ih =>
        have htail := ih fun o ho => hoids o (List.mem_cons_of_mem _ ho)
        have hhead := hoids oid List.mem_cons_self
        simp only [List.map_cons, encodableAll, htail, Bool.and_true]
        simp [VarBind.asn, VarBind.request, encodable, encodableAll, hhead]
  have hvalid : encodable (getNextRequest engine oids).tree := by
    simp only [VbListMessage.tree, VbListMessage.asn, getNextRequest, encodable, encodableAll,
      Obj.ofInt, hrequests, Bool.and_true]
  rcases @marshal_of_fits _ 8192 hvalid hlength with ⟨hdone, hwritten⟩
  refine ⟨hdone, ?_⟩
  have hwithin : ((getNextRequest engine oids).marshal ⟨[], bufferSize⟩).2.written.length ≤
      bufferSize := (congrArg List.length hwritten).trans_le hlength
  simpa [overruns] using hwithin

theorem Askable.issuable {engine : Engine} {oid : List Arc} (hoid : Askable oid)
    (hcommunity : engine.community.length < maxString) :
    Issuable (getNextRequest engine [oid]) := by
  refine issuable_getNextRequest hcommunity (by simpa using hoid.1) ?_
  have hmost := hoid.2
  simp only [List.map_cons, List.map_nil, List.sum_cons, List.sum_nil]
  omega

/-! ## Agents with a table -/

/-- A single datagram arrives, with a response to the request. -/
def Responds (agent : Agent) (req rsp : VbListMessage) : Prop :=
  rsp.type = getRspPdu ∧ rsp.reqid = req.reqid ∧ ∃ data, agent req = [.datagram true data] ∧
    demarshalMessage (data.take bufferSize) = .ok (some (.vbList rsp))

/-- The arcs of an OID, by which variables are ordered. -/
def place (oid : List Arc) : List ℕ := oid.map BitVec.toNat

/-- A well-behaved agent has a sorted table of variables, and answers with the first one behind the
name in the request, or with an error behind the last one. -/
structure WellBehaved (agent : Agent) (community : List UInt8) (table : List VarBind) : Prop where
  sorted : table.Pairwise fun a b => place a.oid < place b.oid
  names : ∀ entry ∈ table, Askable entry.oid
  answers : ∀ reqid oid, Askable oid → ∃ rsp,
    Responds agent (getNextRequest ⟨reqid, community⟩ [oid]) rsp ∧
      match table.filter fun entry => place oid < place entry.oid with
      | [] => rsp.errstatus ≠ 0
      | entry :: _ => rsp.errstatus = 0 ∧ rsp.vblist = [entry]

/-- The variables of a table under a name. -/
def under (root : List Arc) (table : List VarBind) : List VarBind :=
  table.filter fun entry => isChildOf entry.oid root

/-- A request that is answered at once. -/
theorem perform_answered {engine : Engine} {req rsp : VbListMessage} {data : List UInt8}
    (hissuable : Issuable req)
    (hdecode : demarshalMessage (data.take bufferSize) = .ok (some (.vbList rsp)))
    (htype : rsp.type = getRspPdu) (hreqid : rsp.reqid = engine.reqid - 1) :
    perform engine req ⟨[], [.datagram true data]⟩ =
      .ok (if rsp.errstatus ≠ 0 then none else some rsp, ⟨[], []⟩) := by
  have hwanted : wanted false engine.reqid (.vbList rsp) := by
    simp [wanted, htype, hreqid]
  rw [perform_of_issuable hissuable engine _ rfl]
  simp [rspwait, hdecode, hwanted, accepted, Except.map]

theorem asking_of_responds {agent : Agent} {engine : Engine} {oid : List Arc} {rsp : VbListMessage}
    (hcommunity : engine.community.length < maxString) (hoid : Askable oid)
    (hresponds : Responds agent (getNextRequest engine [oid]) rsp) :
    asking agent engine.next (getNextRequest engine [oid]) () =
      .ok (if rsp.errstatus ≠ 0 then none else some rsp, ()) := by
  rcases hresponds with ⟨htype, hreqid, data, hagent, hdecode⟩
  have hown : rsp.reqid = engine.next.reqid - 1 :=
    hreqid.trans (BitVec.add_sub_cancel _ _).symm
  have hperform := perform_answered (hoid.issuable hcommunity) hdecode htype hown
  simp [asking, hagent, hperform, Except.map]

/-- A child lies behind its parent. -/
theorem place_lt_of_child {oid root : List Arc} (hchild : isChildOf oid root) :
    place root < place oid := by
  induction root generalizing oid with
  | nil =>
      rcases oid with _ | ⟨arc, oid⟩
      · cases hchild
      · exact List.nil_lt_cons _ _
  | cons arc' root ih =>
      rcases oid with _ | ⟨arc, oid⟩
      · cases hchild
      · simp [isChildOf] at hchild
        exact List.cons_lt_cons_iff.mpr (Or.inr ⟨by rw [hchild.1], ih hchild.2⟩)

/-- Whatever lies between a parent and a child is a child as well. -/
theorem child_between {root oid last : List Arc} (hbehind : place root < place oid)
    (hbefore : place oid < place last) (hchild : isChildOf last root) : isChildOf oid root := by
  induction root generalizing oid last with
  | nil =>
      rcases oid with _ | ⟨arc, oid⟩
      · exact absurd hbehind (List.lt_irrefl _)
      · rfl
  | cons arc' root ih =>
      rcases last with _ | ⟨arc'', last⟩
      · cases hchild
      · rcases oid with _ | ⟨arc, oid⟩
        · exact absurd hbehind (List.not_lt_nil _)
        · simp [isChildOf] at hchild
          rcases List.cons_lt_cons_iff.mp hbehind with hlt | ⟨heq, hbehind⟩
          · rcases List.cons_lt_cons_iff.mp hbefore with hlt' | ⟨heq', -⟩
            · rw [hchild.1] at hlt'
              omega
            · rw [hchild.1] at heq'
              omega
          · have hsame : arc = arc' := BitVec.eq_of_toNat_eq heq.symm
            rcases List.cons_lt_cons_iff.mp hbefore with hlt' | ⟨-, hbefore⟩
            · rw [hchild.1] at hlt'
              omega
            · simp [isChildOf, hsame, ih hbehind hbefore hchild.2]

/-- A walk through a sorted table appends what lies behind its name, up to the first variable that
is not under it. -/
theorem walk_table {agent : Agent} {table : List VarBind} {root oid : List Arc} {engine : Engine}
    {data : Variable} {rest : List VarBind} {fuel : ℕ}
    (hagent : WellBehaved agent engine.community table)
    (hcommunity : engine.community.length < maxString) (hoid : Askable oid)
    (hrest : (table.filter fun entry => place oid < place entry.oid) = rest)
    (hfuel : rest.length < fuel) :
    ∃ engine', walk (asking agent) root fuel oid engine data () =
      .ok (engine', data.pushAll (rest.takeWhile fun entry => isChildOf entry.oid root), ()) := by
  induction rest generalizing oid engine data fuel with
  | nil =>
      rcases fuel with _ | fuel
      · omega
      · rcases hagent.answers engine.reqid oid hoid with ⟨rsp, hresponds, hanswer⟩
        rw [hrest] at hanswer
        have hasking := asking_of_responds hcommunity hoid hresponds
        rw [if_pos hanswer] at hasking
        exact ⟨engine.next, by simp [walk, hasking, Variable.pushAll]⟩
  | cons entry rest ih =>
      rcases fuel with _ | fuel
      · omega
      · rcases hagent.answers engine.reqid oid hoid with ⟨rsp, hresponds, hanswer⟩
        rw [hrest] at hanswer
        have hasking := asking_of_responds hcommunity hoid hresponds
        rw [if_neg (not_not.mpr hanswer.1)] at hasking
        by_cases hchild : isChildOf entry.oid root
        · have hentry : entry ∈ table := by
            have hmem : entry ∈ table.filter fun entry => place oid < place entry.oid := by
              rw [hrest]
              exact List.mem_cons_self
            exact (List.mem_filter.mp hmem).1
          have hnext := filter_next hagent.sorted hrest
          rcases @ih entry.oid engine.next (data.push (entry.extract .fresh)) fuel hagent hcommunity
            (hagent.names entry hentry) hnext (by simpa using hfuel) with ⟨engine', hwalk⟩
          have hfront := @List.takeWhile_cons_of_pos _ (fun entry => isChildOf entry.oid root)
            entry rest hchild
          refine ⟨engine', ?_⟩
          rw [walk, hasking, hfront]
          simp only [hanswer.2, if_pos hchild, hwalk]
          rfl
        · refine ⟨engine.next, ?_⟩
          rw [walk, hasking]
          simp [hanswer.2, hchild, Variable.pushAll]

/-- What lies behind a name, up to the first variable that is not under it, is what lies under
it. -/
theorem takeWhile_child {table : List VarBind} {root : List Arc}
    (hsorted : table.Pairwise fun a b => place a.oid < place b.oid) :
    (table.filter fun entry => place root < place entry.oid).takeWhile
      (fun entry => isChildOf entry.oid root) = under root table := by
  rw [takeWhile_of_pairwise, List.filter_filter, under]
  · refine List.filter_congr fun entry _ => ?_
    by_cases hchild : isChildOf entry.oid root
    · simp [hchild, place_lt_of_child hchild]
    · simp [hchild]
  · refine List.Pairwise.imp_of_mem ?_ (hsorted.filter _)
    intro a b ha _ hlt hchild
    exact child_between (by simpa using (List.mem_filter.mp ha).2) hlt hchild

/-! ## Responses on the wire -/

/-- A response with one binding. -/
def response (req : VbListMessage) (errstatus : BitVec 32) (binding : VarBind) : VbListMessage :=
  { req with type := getRspPdu, errstatus := errstatus, vblist := [binding] }

/-- A binding that arrives as it was sent. -/
structure Sendable (binding : VarBind) : Prop where
  name : Askable binding.oid
  built : Built binding.asn
  filled : filled binding.asn
  copied : copy binding.data = .ok binding.data
  short : (encode binding.data).length ≤ 4096

/-- A community that arrives as it was sent. -/
structure CommunityString (community : List UInt8) : Prop where
  short : community.length < maxString
  nonempty : community ≠ []
  terminated : 0 ∉ community

/-- A response is decoded from its encoding. -/
theorem demarshalMessage_response {req : VbListMessage} {errstatus : BitVec 32} {binding : VarBind}
    (hcommunity : CommunityString req.community) (hbinding : Sendable binding) :
    demarshalMessage ((encode (response req errstatus binding).tree).take bufferSize) =
      .ok (some (.vbList (response req errstatus binding))) := by
  have hlength : (encode (response req errstatus binding).tree).length ≤ bufferSize := by
    have hmost := hbinding.name.2
    have hdata := hbinding.short
    have hasn := @length_binding_le binding (by omega)
    refine length_tree_le hcommunity.short ?_
    simp only [response, List.map_cons, List.map_nil, encodeAll, List.append_nil]
    omega
  have hbuilt : Built (response req errstatus binding).tree := by
    refine .sequence _ _ (by decide) (fun obj hobj => ?_)
    simp only [List.mem_cons, List.not_mem_nil, or_false] at hobj
    rcases hobj with rfl | rfl | rfl
    · exact .integer _
    · exact .octetString _
    · have hclass : classOf getRspPdu = some .sequence := by decide
      refine .sequence _ _ hclass (fun obj hobj => ?_)
      simp only [List.mem_cons, List.not_mem_nil, or_false] at hobj
      rcases hobj with rfl | rfl | rfl | rfl
      · exact .integer _
      · exact .integer _
      · exact .integer _
      · refine .sequence _ _ (by decide) (fun obj hobj => ?_)
        simp only [response, List.map_cons, List.map_nil, List.mem_singleton] at hobj
        exact hobj ▸ hbinding.built
  have hfilled : Asn.filled (response req errstatus binding).tree := by
    simp [VbListMessage.tree, VbListMessage.asn, response, Asn.filled, filledAll, Obj.ofInt,
      hcommunity.nonempty, hbinding.filled]
  have hholds := holds_memoryOf_append [] (encode (response req errstatus binding).tree) []
  rw [List.nil_append, List.append_nil] at hholds
  rcases parses_demarshal _ hbuilt hfilled (by unfold bufferSize at hlength; omega)
    (Asn.enoughFuel (encode (response req errstatus binding).tree).length) le_rfl
    ⟨0, (encode (response req errstatus binding).tree).length, [], 0⟩ hholds le_rfl with
    ⟨after, hdemarshal, -⟩
  have htext : text req.community = req.community := by
    refine List.takeWhile_eq_self_iff.mpr fun byte hbyte => ?_
    have hne : byte ≠ 0 := fun hzero => hcommunity.terminated (hzero ▸ hbyte)
    simpa using hne
  rw [List.take_of_length_le hlength, demarshalMessage, demarshalObject, hdemarshal]
  have hversion : snmpVersion1 = 0 := rfl
  have htype : getRspPdu ∈ [getReqPdu, getNextReqPdu, getRspPdu] := by decide
  simp [messageOf, VbListMessage.tree, VbListMessage.asn, response, Obj.ofInt,
    VbListMessage.ofSequence, varBindList, VarBind.asn, VarBind.ofSequence, hbinding.copied, htext,
    htype, Except.map, bind, Except.bind, pure, Except.pure]

theorem responds_response {agent : Agent} {req : VbListMessage} {errstatus : BitVec 32}
    {binding : VarBind} (hcommunity : CommunityString req.community) (hbinding : Sendable binding)
    (hagent : agent req = [.datagram true (encode (response req errstatus binding).tree)]) :
    Responds agent req (response req errstatus binding) :=
  ⟨rfl, rfl, _, hagent, demarshalMessage_response hcommunity hbinding⟩

/-- An agent that looks names up in a table. -/
def tableAgent (table : List VarBind) : Agent := fun req =>
  match req.vblist with
  | [asked] =>
      match table.filter fun entry => place asked.oid < place entry.oid with
      | [] => [.datagram true (encode (response req 2 (.request [1, 3])).tree)]
      | entry :: _ => [.datagram true (encode (response req 0 entry).tree)]
  | _ => []

theorem sendable_request {rest : List Arc} (hlength : rest.length ≤ 126) :
    Sendable (.request (1 :: 3 :: rest)) where
  name := ⟨by simp [VarBind.request], by simp [VarBind.request]; omega⟩
  built := by
    refine .sequence _ _ (by decide) (fun obj hobj => ?_)
    simp only [VarBind.request, List.mem_cons, List.not_mem_nil, or_false] at hobj
    rcases hobj with rfl | rfl
    · exact .objectId 1 3 rest (by decide) (by decide)
    · exact .null
  filled := rfl
  copied := rfl
  short := by
    have hnull : (encode .null).length ≤ 4096 := by decide
    exact hnull

/-- An agent with a sorted table of variables that can be sent is well-behaved. -/
theorem tableAgent_wellBehaved {community : List UInt8} {table : List VarBind}
    (hcommunity : CommunityString community)
    (hsorted : table.Pairwise fun a b => place a.oid < place b.oid)
    (htable : ∀ entry ∈ table, Sendable entry) :
    WellBehaved (tableAgent table) community table where
  sorted := hsorted
  names := fun entry hentry => (htable entry hentry).name
  answers := by
    intro reqid oid _
    rcases hnext : table.filter fun entry => place oid < place entry.oid with _ | ⟨entry, rest⟩
    · refine ⟨response _ 2 (.request [1, 3]),
        responds_response hcommunity (@sendable_request [] (by simp)) ?_, ?_⟩
      · simp [tableAgent, getNextRequest, VarBind.request, hnext]
      · rw [hnext]
        simp [response]
    · have hentry : entry ∈ table := by
        have hmem : entry ∈ table.filter fun entry => place oid < place entry.oid := by
          rw [hnext]
          exact List.mem_cons_self
        exact (List.mem_filter.mp hmem).1
      refine ⟨response _ 0 entry, responds_response hcommunity (htable entry hentry) ?_, ?_⟩
      · simp [tableAgent, getNextRequest, VarBind.request, hnext]
      · rw [hnext]
        simp [response]

/-! ## When a walk is right -/

/-- The walk under a name ends, and through the table of a well-behaved agent it returns exactly the
variables under that name, in order. -/
def WalksRight (agent : Agent) (root : List Arc) (engine : Engine) (data : Variable) : Prop :=
  (∃ fuel, walk (asking agent) root fuel root engine data () ≠ .error .outOfFuel) ∧
    ∀ table, WellBehaved agent engine.community table → ∃ fuel engine',
      walk (asking agent) root fuel root engine data () =
        .ok (engine', data.pushAll (under root table), ())

/-- A walk is right exactly if the answers never lead back to a request. -/
theorem walk_right_iff (agent : Agent) (root : List Arc) (engine : Engine) (data : Variable)
    (hcommunity : engine.community.length < maxString) (hroot : Askable root) :
    WalksRight agent root engine data ↔ ¬ Returns (nextRequest agent root) (engine, root) := by
  rw [← follow_ends_iff (finite_requests agent root)]
  simp only [WalksRight, ne_eq, walk_outOfFuel_iff, not_not, and_iff_left_iff_imp]
  intro _ table hagent
  rcases @walk_table agent table root root engine data _ _ hagent hcommunity hroot rfl
    (Nat.lt_succ_self _) with ⟨engine', hwalk⟩
  exact ⟨_, engine', hwalk.trans (by rw [takeWhile_child hagent.sorted])⟩

/-! ## Examples of runs -/

/-- An agent that always answers with the same variable under 1.3.6. -/
def stuckAgent : Agent := fun req =>
  [.datagram true (encode (response req 0 (.request [1, 3, 6, 0])).tree)]

/-- Some data before a walk. -/
def noData : Variable := ⟨.fresh, []⟩

theorem walk_right_iff_stuck : WalksRight stuckAgent [1, 3, 6] ⟨0, [0x70]⟩ noData ↔
    ¬ Returns (nextRequest stuckAgent [1, 3, 6]) (⟨0, [0x70]⟩, [1, 3, 6]) :=
  walk_right_iff stuckAgent [1, 3, 6] ⟨0, [0x70]⟩ noData (by decide) ⟨by decide, by decide⟩

theorem nextRequest_stuck {engine : Engine} {rest : List Arc} (hengine : engine.community = [0x70])
    (hrest : rest.length ≤ 126) :
    nextRequest stuckAgent [1, 3, 6] (engine, 1 :: 3 :: rest) =
      some (engine.next, [1, 3, 6, 0]) := by
  have hcommunity : CommunityString engine.community := by
    rw [hengine]
    exact ⟨by decide, by decide, by decide⟩
  have hresponds : Responds stuckAgent (getNextRequest engine [1 :: 3 :: rest])
      (response (getNextRequest engine [1 :: 3 :: rest]) 0 (.request [1, 3, 6, 0])) :=
    responds_response hcommunity (@sendable_request [6, 0] (by simp)) rfl
  have hasking := asking_of_responds hcommunity.short (sendable_request hrest).name hresponds
  have hchild : isChildOf [1, 3, 6, 0] [1, 3, 6] := by decide
  rw [VarBind.request] at hasking
  rw [nextRequest, hasking]
  simp only [response, VarBind.request, ne_eq, not_true, if_false, if_pos hchild]

/-- The walk under 1.3.6 does not end with that agent. -/
theorem stuckAgent_hangs : ¬ WalksRight stuckAgent [1, 3, 6] ⟨0, [0x70]⟩ noData := by
  have hgoes (fuel : ℕ) (engine : Engine) (rest : List Arc) (hengine : engine.community = [0x70])
      (hrest : rest.length ≤ 126) :
      follow (nextRequest stuckAgent [1, 3, 6]) fuel (engine, 1 :: 3 :: rest) ≠ none := by
    induction fuel generalizing engine rest with
    | zero => simp [follow]
    | succ fuel ih =>
        rw [follow, nextRequest_stuck hengine hrest, Option.bind_some]
        exact ih engine.next [6, 0] hengine (by simp)
  rintro ⟨⟨fuel, hends⟩, -⟩
  rw [Ne, walk_outOfFuel_iff, not_not] at hends
  exact hgoes fuel ⟨0, [0x70]⟩ [6] rfl (by simp) hends

end Snmp
end Apcupsd
