import Apcupsd.Core.CoreRun
import Apcupsd.Snmp.Matching
import Apcupsd.Snmp.Mibs
import Apcupsd.Snmp.Walk
import Mathlib.Algebra.Order.BigOperators.Group.List

/-!
# Datagrams that crash the driver

Which datagrams of an agent can make a query or an update fail, in any state of the driver.

Main results:

- Theorem {lit}`foldl_store`: what the bindings of a response make of the variables of a map.
- Theorem {lit}`get_stored`: what a query leaves in its variables.
- Theorem {lit}`get_error`: how it can fail, if its own requests fit the buffer.
- Theorem {lit}`harmless_iff`: the datagrams that make nothing fail.
-/

namespace Apcupsd
namespace Snmp

open Asn ByteCursor

/-! ## What a response stores -/

/-- The bindings under the OID of an item. -/
def CiOid.bindings (entry : CiOid) (vblist : List VarBind) : List VarBind :=
  vblist.filter fun binding => isChildOf binding.oid entry.oid

/-- The variable of an item after the bindings of a response. -/
def CiOid.stored (entry : CiOid) (vblist : List VarBind) : OidVar :=
  (entry.bindings vblist).foldl OidVar.extract entry.oidVar

/-- A response has a value for an item. -/
def CiOid.bound (entry : CiOid) (vblist : List VarBind) : Bool :=
  (entry.bindings vblist).any VarBind.supported

theorem not_child_of_apart {entry other : CiOid} {oid : List Arc} (hapart : Apart entry other)
    (hchild : isChildOf oid entry.oid) : isChildOf oid other.oid = false := by
  rw [Bool.eq_false_iff]
  intro hother
  rcases List.prefix_or_prefix_of_prefix (isChildOf_iff.mp hchild).1
    (isChildOf_iff.mp hother).1 with hstarts | hstarts
  · exact hapart.1 hstarts
  · exact hapart.2 hstarts

/-- A binding is stored in the one variable that it lies under. -/
theorem store_map {entries : List CiOid} (hapart : entries.Pairwise Apart)
    {vars : CiOid → OidVar} (hoid : ∀ entry, (vars entry).oid = entry.oid) (binding : VarBind) :
    store (entries.map vars) binding = entries.map fun entry =>
      if isChildOf binding.oid entry.oid then (vars entry).extract binding else vars entry := by
  induction entries with
  | nil => rfl
  | cons entry entries ih =>
      rw [List.pairwise_cons] at hapart
      simp only [List.map_cons, store, hoid]
      by_cases hchild : isChildOf binding.oid entry.oid
      · rw [if_pos hchild, if_pos hchild]
        have hrest : entries.map (fun other => if isChildOf binding.oid other.oid then
            (vars other).extract binding else vars other) = entries.map vars := by
          refine List.map_congr_left fun other hother => ?_
          rw [not_child_of_apart (hapart.1 other hother) hchild, if_neg (by simp)]
        rw [hrest]
      · rw [if_neg hchild, if_neg hchild, ih hapart.2]

/-- Storing leaves the names as they are. -/
theorem oids_foldl_store (vblist : List VarBind) (vars : List OidVar) :
    (vblist.foldl store vars).map OidVar.oid = vars.map OidVar.oid := by
  have hstore (vars : List OidVar) (binding : VarBind) :
      (store vars binding).map OidVar.oid = vars.map OidVar.oid := by
    induction vars with
    | nil => rfl
    | cons var vars ih =>
        unfold store
        split_ifs
        · rfl
        · rw [List.map_cons, List.map_cons, ih]
  induction vblist generalizing vars with
  | nil => rfl
  | cons binding vblist ih => rw [List.foldl_cons, ih, hstore]

/-- The bindings of a response are stored under their items. -/
theorem foldl_store {entries : List CiOid} (hapart : entries.Pairwise Apart)
    (vblist : List VarBind) : vblist.foldl store (entries.map CiOid.oidVar) =
      entries.map fun entry => entry.stored vblist := by
  have hgeneral (vars : CiOid → OidVar) (hoid : ∀ entry, (vars entry).oid = entry.oid) :
      vblist.foldl store (entries.map vars) =
        entries.map fun entry => (entry.bindings vblist).foldl OidVar.extract (vars entry) := by
    induction vblist generalizing vars with
    | nil => rfl
    | cons binding vblist ih =>
        rw [List.foldl_cons, store_map hapart hoid, ih]
        · refine List.map_congr_left fun entry _ => ?_
          by_cases hchild : isChildOf binding.oid entry.oid
          · simp [CiOid.bindings, hchild]
          · simp [CiOid.bindings, hchild]
        · intro entry
          split_ifs
          · exact hoid entry
          · exact hoid entry
  exact hgeneral CiOid.oidVar fun entry => rfl

theorem valid_extract (binding : VarBind) (value : Value) :
    (binding.extract value).valid = (value.valid || binding.supported) := by
  unfold VarBind.extract VarBind.supported
  cases binding.data <;> simp

/-- An item has a valid variable exactly if a response has a value for it. -/
theorem valid_stored (entry : CiOid) (vblist : List VarBind) :
    (entry.stored vblist).data.valid = entry.bound vblist := by
  have hgeneral (bindings : List VarBind) (var : OidVar) :
      (bindings.foldl OidVar.extract var).data.valid =
        (var.data.valid || bindings.any VarBind.supported) := by
    induction bindings generalizing var with
    | nil => simp
    | cons binding bindings ih =>
        rw [List.foldl_cons, ih, List.any_cons, ← Bool.or_assoc, OidVar.extract, valid_extract]
  exact hgeneral _ _

/-- No value of a response has the type of a sequence. -/
def NoSequence (vblist : List VarBind) : Prop :=
  ∀ binding ∈ vblist, typeOf binding.data ≠ sequenceId

theorem type_extract (binding : VarBind) (value : Value) :
    (binding.extract value).type = typeOf binding.data := by
  unfold VarBind.extract typeOf
  cases binding.data <;> rfl

/-- Only a variable without bindings is still one of a sequence. -/
theorem type_stored {entry : CiOid} {vblist : List VarBind} (hnone : NoSequence vblist)
    (htype : (entry.stored vblist).data.type = sequenceId) :
    entry.bindings vblist = [] ∧ entry.type = sequenceId := by
  unfold CiOid.stored at htype
  rcases List.eq_nil_or_concat (entry.bindings vblist) with hempty | ⟨front, last, hbindings⟩
  · rw [hempty] at htype
    exact ⟨hempty, htype⟩
  · have hlast : last ∈ entry.bindings vblist := by
      rw [hbindings]
      simp
    rw [hbindings, List.concat_eq_append, List.foldl_append, List.foldl_cons, List.foldl_nil,
      OidVar.extract, type_extract] at htype
    exact absurd htype (hnone last (List.mem_filter.mp hlast).1)

/-! ## What a query leaves -/

/-- What a walk makes of a variable. -/
def Walked (var after : OidVar) : Prop :=
  after = var ∨ var.data.type = sequenceId ∧ after.data.seq ≠ []

/-- The loop over the sequences changes the others not at all. -/
theorem getSequences_walked {σ : Type} {perform : Perform σ} {fuel : ℕ} {vars vars' : List OidVar}
    {engine engine' : Engine} {s s' : σ}
    (hget : getSequences perform fuel vars engine s = .ok (vars', engine', s')) :
    List.Forall₂ Walked vars vars' := by
  induction vars generalizing vars' engine s with
  | nil =>
      simp only [getSequences, Except.ok.injEq, Prod.mk.injEq] at hget
      rcases hget with ⟨rfl, -⟩
      exact .nil
  | cons var vars ih =>
      unfold getSequences at hget
      by_cases hsequence : var.data.type = sequenceId
      · rw [if_pos hsequence] at hget
        rcases hwalk : walk perform var.oid fuel var.oid engine var.data s with
          fault | ⟨between, data, middle⟩
        · simp [hwalk] at hget
        · rcases hrest : getSequences perform fuel vars between middle with
            fault | ⟨tail, after⟩
          · simp [hwalk, hrest, Except.map] at hget
          · simp only [hwalk, hrest, Except.map, Except.ok.injEq, Prod.mk.injEq] at hget
            rcases hget with ⟨rfl, rfl⟩
            refine .cons ?_ (ih hrest)
            rcases walk_ok hwalk with ⟨log, n, walked, -, rfl, -⟩
            rcases walked with _ | ⟨first, walked⟩
            · exact Or.inl rfl
            · exact Or.inr ⟨hsequence, by simp [pushAll_seq]⟩
      · rw [if_neg hsequence] at hget
        rcases hrest : getSequences perform fuel vars engine s with fault | ⟨tail, after⟩
        · simp [hrest, Except.map] at hget
        · simp only [hrest, Except.map, Except.ok.injEq, Prod.mk.injEq] at hget
          rcases hget with ⟨rfl, rfl⟩
          exact .cons (Or.inl rfl) (ih hrest)

/-- A datagram is a response that a request can take. -/
structure Accepts (data : List UInt8) (rsp : VbListMessage) : Prop where
  decodes : demarshalMessage (data.take bufferSize) = .ok (some (.vbList rsp))
  type : rsp.type = getRspPdu
  errstatus : rsp.errstatus = 0

/-- A response of the agent is among some events. -/
def Arrives (events : List Event) (rsp : VbListMessage) : Prop :=
  ∃ data, .datagram true data ∈ events ∧ Accepts data rsp

theorem arrives_of_perform {engine : Engine} {req rsp : VbListMessage} {net after : Net}
    (hreqid : req.reqid = engine.reqid)
    (hperform : perform engine.next req net = .ok (some rsp, after)) : Arrives net.events rsp := by
  rcases perform_ok hreqid hperform with ⟨arrived, harrived, hanswers⟩
  have hanswer := hanswers rsp rfl
  rcases hanswer.received with ⟨data, hdata, hdecode⟩
  refine ⟨data, ?_, hdecode, hanswer.type, hanswer.errstatus⟩
  rw [harrived]
  exact List.mem_append_left _ hdata

theorem reqid_of_perform {engine : Engine} {req rsp : VbListMessage} {net after : Net}
    (hreqid : req.reqid = engine.reqid)
    (hperform : perform engine.next req net = .ok (some rsp, after)) :
    rsp.reqid = engine.reqid := by
  rcases perform_ok hreqid hperform with ⟨arrived, -, hanswers⟩
  exact (hanswers rsp rfl).reqid.trans hreqid

/-- A query stores one response with a binding for each scalar, and then walks. -/
theorem get_stored {fuel : ℕ} {oids vars : List OidVar} {engine engine' : Engine} {net net' : Net}
    (hget : get perform fuel oids engine net = .ok (true, vars, engine', net')) :
    ∃ vblist, vblist.length = (scalars oids).length ∧
      (vblist ≠ [] → ∃ rsp, rsp.vblist = vblist ∧ Arrives net.events rsp) ∧
      List.Forall₂ Walked (vblist.foldl store (oids.map OidVar.invalidate)) vars := by
  unfold get at hget
  by_cases hnone : (getNextRequest engine ((scalars oids).map OidVar.oid)).vblist = []
  · simp only [hnone, if_true] at hget
    rcases hrest : getSequences perform fuel (oids.map OidVar.invalidate) engine.next net with
      fault | ⟨vars', after⟩
    · simp [hrest, Except.map] at hget
    · simp only [hrest, Except.map, Except.ok.injEq, Prod.mk.injEq] at hget
      rcases hget with ⟨-, rfl, rfl⟩
      have hscalars : scalars oids = [] := by simpa [getNextRequest] using hnone
      exact ⟨[], by simp [hscalars], by simp, getSequences_walked hrest⟩
  · simp only [hnone, if_false] at hget
    rcases hperform : perform engine.next
      (getNextRequest engine ((scalars oids).map OidVar.oid)) net with fault | ⟨_ | rsp, middle⟩
    · simp [hperform] at hget
    · simp [hperform] at hget
    · simp only [hperform] at hget
      split_ifs at hget with hsize
      · simp at hget
      · rcases hrest : getSequences perform fuel
          (rsp.vblist.foldl store (oids.map OidVar.invalidate)) engine.next middle with
          fault | ⟨vars', after⟩
        · simp [hrest, Except.map] at hget
        · simp only [hrest, Except.map, Except.ok.injEq, Prod.mk.injEq] at hget
          rcases hget with ⟨-, rfl, rfl⟩
          refine ⟨rsp.vblist, ?_, fun _ => ⟨rsp, rfl, arrives_of_perform rfl hperform⟩,
            getSequences_walked hrest⟩
          simpa [getNextRequest] using not_not.mp hsize

/-! ## How a query fails -/

/-- The requests that a query makes of its own accord fit the buffer, whatever their ids: the one
for its scalars, and one for each of its names. -/
def Modest (community : List UInt8) (oids : List OidVar) : Prop :=
  ∀ reqid,
    overruns (getNextRequest ⟨reqid, community⟩ ((scalars oids).map OidVar.oid)) = false ∧
      ∀ oid ∈ oids.map OidVar.oid, overruns (getNextRequest ⟨reqid, community⟩ [oid]) = false

/-- The decoder finds a tree in a datagram with a binding whose value is a sequence. -/
def CopiesSequence (data : List UInt8) : Prop :=
  ∃ obj, (demarshalObject (memoryOf (data.take bufferSize))
      ⟨0, (data.take bufferSize).length, [], 0⟩).1 = .ok obj ∧
    ∃ item ∈ bindingItems obj, copiesSequence item

/-- A response after which the request for what is behind its first name is written beyond the
buffer. -/
def LeadsTooFar (rsp : VbListMessage) : Prop :=
  ∃ binding rest community, rsp.vblist = binding :: rest ∧ community.length < maxString ∧
    overruns (getNextRequest ⟨rsp.reqid + 1, community⟩ [binding.oid]) = true

/-- A datagram that can make a query fail: a sequence is copied, there is no first binding, or the
next request does not fit. -/
def Spoils (data : List UInt8) : Prop :=
  CopiesSequence data ∨ ∃ rsp, Accepts data rsp ∧ (rsp.vblist = [] ∨ LeadsTooFar rsp)

/-- A fault with its cause among some events. -/
def Caused (events : List Event) (fault : Fault) : Prop :=
  fault = .outOfFuel ∨ ∃ data, .datagram true data ∈ events ∧ Spoils data

theorem Caused.mono {events events' : List Event} {fault : Fault} (hsubset : events ⊆ events')
    (hcaused : Caused events fault) : Caused events' fault := by
  rcases hcaused with hfuel | ⟨data, hdata, hspoils⟩
  · exact Or.inl hfuel
  · exact Or.inr ⟨data, hsubset hdata, hspoils⟩

theorem caused_of_perform {engine : Engine} {req : VbListMessage} {net : Net} {fault : Fault}
    (hfits : overruns req = false) (hperform : perform engine req net = .error fault) :
    Caused net.events fault := by
  rcases perform_error hperform with ⟨-, hover⟩ | ⟨-, data, hdata, hdecode⟩
  · rw [hfits] at hover
    cases hover
  · exact Or.inr ⟨data, hdata, Or.inl (demarshalMessage_eq_error_iff.mp hdecode).2⟩

theorem events_of_perform {engine : Engine} {req : VbListMessage} {net after : Net}
    {response : Option VbListMessage} (hreqid : req.reqid = engine.reqid)
    (hperform : perform engine.next req net = .ok (response, after)) :
    after.events ⊆ net.events := by
  rcases perform_ok hreqid hperform with ⟨arrived, harrived, -⟩
  rw [harrived]
  exact List.subset_append_right _ _

theorem walk_error {oid : List Arc} {fuel : ℕ} {nextoid : List Arc} {engine : Engine}
    {data : Variable} {net : Net} {fault : Fault}
    (hcommunity : engine.community.length < maxString)
    (hfits : overruns (getNextRequest engine [nextoid]) = false)
    (hwalk : walk perform oid fuel nextoid engine data net = .error fault) :
    Caused net.events fault := by
  induction fuel generalizing nextoid engine data net with
  | zero =>
      simp only [walk, Except.error.injEq] at hwalk
      exact Or.inl hwalk.symm
  | succ fuel ih =>
      unfold walk at hwalk
      rcases hperform : perform engine.next (getNextRequest engine [nextoid]) net with
        fault' | ⟨_ | rspmsg, middle⟩
      · simp only [hperform, Except.error.injEq] at hwalk
        exact hwalk ▸ caused_of_perform hfits hperform
      · simp [hperform] at hwalk
      · rcases arrives_of_perform rfl hperform with ⟨datagram, hdatagram, haccepts⟩
        rcases hbindings : rspmsg.vblist with _ | ⟨result, rest⟩
        · exact Or.inr ⟨datagram, hdatagram, Or.inr ⟨rspmsg, haccepts, Or.inl hbindings⟩⟩
        · simp only [hperform, hbindings] at hwalk
          split_ifs at hwalk
          cases hlong : overruns (getNextRequest engine.next [result.oid]) with
          | false =>
              exact (@ih _ engine.next _ _ hcommunity hlong hwalk).mono
                (events_of_perform rfl hperform)
          | true =>
              have hnext : engine.next = ⟨rspmsg.reqid + 1, engine.community⟩ := by
                rw [reqid_of_perform rfl hperform]
                rfl
              rw [hnext] at hlong
              exact Or.inr ⟨datagram, hdatagram, Or.inr ⟨rspmsg, haccepts,
                Or.inr ⟨result, rest, engine.community, hbindings, hcommunity, hlong⟩⟩⟩

theorem getSequences_error {fuel : ℕ} {vars : List OidVar} {engine : Engine} {net : Net}
    {fault : Fault} (hcommunity : engine.community.length < maxString)
    (hfits : ∀ reqid, ∀ oid ∈ vars.map OidVar.oid,
      overruns (getNextRequest ⟨reqid, engine.community⟩ [oid]) = false)
    (hget : getSequences perform fuel vars engine net = .error fault) :
    Caused net.events fault := by
  induction vars generalizing engine net with
  | nil => simp [getSequences] at hget
  | cons var vars ih =>
      have hrest := fun reqid oid hoid => hfits reqid oid (List.mem_cons_of_mem _ hoid)
      unfold getSequences at hget
      by_cases hsequence : var.data.type = sequenceId
      · rw [if_pos hsequence] at hget
        rcases hwalk : walk perform var.oid fuel var.oid engine var.data net with
          fault' | ⟨between, data, middle⟩
        · simp only [hwalk, Except.error.injEq] at hget
          exact hget ▸ walk_error hcommunity (hfits engine.reqid var.oid List.mem_cons_self) hwalk
        · rcases hlater : getSequences perform fuel vars between middle with fault' | after
          · simp only [hwalk, hlater, Except.map, Except.error.injEq] at hget
            rcases walk_ok hwalk with ⟨log, n, walked, hlog, -, -⟩
            rcases exchanges_events hlog with ⟨arrived, harrived, -⟩
            have hsubset : middle.events ⊆ net.events := by
              rw [harrived]
              exact List.subset_append_right _ _
            have hsame := exchanges_community hlog
            subst hget
            rw [← hsame] at hcommunity hrest
            exact (ih hcommunity hrest hlater).mono hsubset
          · simp [hwalk, hlater, Except.map] at hget
      · rw [if_neg hsequence] at hget
        rcases hlater : getSequences perform fuel vars engine net with fault' | after
        · simp only [hlater, Except.map, Except.error.injEq] at hget
          subst hget
          exact ih hcommunity hrest hlater
        · simp [hlater, Except.map] at hget

/-- A query fails only by a datagram that arrives. -/
theorem get_error {fuel : ℕ} {oids : List OidVar} {engine : Engine} {net : Net} {fault : Fault}
    (hcommunity : engine.community.length < maxString) (hmodest : Modest engine.community oids)
    (hget : get perform fuel oids engine net = .error fault) : Caused net.events fault := by
  unfold get at hget
  have hrest {vars : List OidVar} {net' : Net} (hsubset : net'.events ⊆ net.events)
      (hnames : vars.map OidVar.oid = oids.map OidVar.oid)
      (hget : (getSequences perform fuel vars engine.next net').map (fun after => (true, after)) =
        .error fault) : Caused net.events fault := by
    rcases hsequences : getSequences perform fuel vars engine.next net' with fault' | after
    · simp only [hsequences, Except.map, Except.error.injEq] at hget
      subst hget
      refine (@getSequences_error _ _ engine.next _ _ hcommunity (fun reqid oid hoid => ?_)
        hsequences).mono hsubset
      exact (hmodest reqid).2 oid (hnames ▸ hoid)
    · simp [hsequences, Except.map] at hget
  have hinvalid : (oids.map OidVar.invalidate).map OidVar.oid = oids.map OidVar.oid := by
    rw [List.map_map]
    rfl
  dsimp only at hget
  split_ifs at hget with hnone
  · exact hrest (List.Subset.refl _) hinvalid hget
  · rcases hperform : perform engine.next
      (getNextRequest engine ((scalars oids).map OidVar.oid)) net with fault' | ⟨_ | rsp, middle⟩
    · simp only [hperform, Except.error.injEq] at hget
      exact hget ▸ caused_of_perform (hmodest engine.reqid).1 hperform
    · simp [hperform] at hget
    · simp only [hperform] at hget
      split_ifs at hget
      exact hrest (events_of_perform rfl hperform) ((oids_foldl_store _ _).trans hinvalid) hget

/-! ## What a response can hold -/

theorem typeOf_of_decoded {obj data : Obj} (hdecoded : Decoded obj) (hcopy : copy obj = .ok data) :
    typeOf data ≠ sequenceId := by
  cases hdecoded with
  | integer type value signed htype =>
      obtain rfl := Except.ok.inj hcopy
      rintro rfl
      have hclass : classOf sequenceId = some .sequence := by decide
      simp [hclass] at htype
  | sequence type items => cases hcopy
  | _ =>
      obtain rfl := Except.ok.inj hcopy
      simp [typeOf, octetStringId, objectIdId, nullId, sequenceId]

theorem noSequence_of_varBindList {items : List Obj} {vblist : List VarBind}
    (hitems : ∀ item ∈ items, Decoded item) (hvblist : varBindList items = .ok vblist) :
    NoSequence vblist := by
  induction items generalizing vblist with
  | nil =>
      obtain rfl := Except.ok.inj hvblist
      simp [NoSequence]
  | cons item items ih =>
      have hrest := fun item hitem => hitems item (List.mem_cons_of_mem _ hitem)
      have hitem := hitems item List.mem_cons_self
      cases item with
      | sequence type seq =>
          rcases ok_of_bind hvblist with ⟨head, hhead, htail⟩
          rcases ok_of_bind htail with ⟨tail, hlater, hmake⟩
          obtain rfl := Except.ok.inj hmake
          rw [NoSequence, List.forall_mem_cons]
          refine ⟨?_, ih hrest hlater⟩
          unfold VarBind.ofSequence at hhead
          split at hhead
          · rename_i oid value
            rcases hcopy : copy value with fault | data
            · simp [hcopy, Except.map] at hhead
            · simp only [hcopy, Except.map, Except.ok.injEq] at hhead
              subst hhead
              cases hitem with
              | sequence _ _ _ _ hdata => exact typeOf_of_decoded (hdata value (by simp)) hcopy
          · obtain rfl := Except.ok.inj hhead
            decide
      | _ => exact ih hrest hvblist

/-- The bindings of a message are made of the items of its tree. -/
theorem varBindList_of_messageOf {obj : Obj} {rsp : VbListMessage}
    (hmessage : messageOf obj = .ok (some (.vbList rsp))) :
    varBindList (bindingItems obj) = .ok rsp.vblist := by
  unfold messageOf at hmessage
  unfold bindingItems
  split at hmessage
  · split_ifs at hmessage ⊢
    · simp at hmessage
    · unfold VbListMessage.ofSequence at hmessage
      split at hmessage
      · rename_i items
        rcases hvblist : varBindList items with fault | vblist
        · simp [hvblist, Except.map] at hmessage
        · simp [hvblist, Except.map] at hmessage
          simp [← hmessage]
      · simp at hmessage
    · unfold TrapMessage.ofSequence at hmessage
      split at hmessage
      · rename_i items
        rcases hvblist : varBindList items with fault | vblist
        · simp [hvblist, Except.map] at hmessage
        · simp [hvblist, Except.map] at hmessage
      · simp at hmessage
    · simp at hmessage
  · simp at hmessage

theorem decoded_of_mem {type : Identifier} {data : List Obj} {obj : Obj}
    (hdecoded : Decoded (.sequence type data)) (hobj : obj ∈ data) : Decoded obj := by
  cases hdecoded with
  | sequence _ _ _ _ hdata => exact hdata obj hobj

theorem decoded_bindingItems {obj item : Obj} (hdecoded : Decoded obj)
    (hitem : item ∈ bindingItems obj) : Decoded item := by
  unfold bindingItems at hitem
  split at hitem
  · have hpdu := decoded_of_mem hdecoded (List.mem_of_getLast? rfl)
    split_ifs at hitem
    · cases hitem
    · split at hitem
      · exact decoded_of_mem (decoded_of_mem hpdu (List.mem_of_getLast? rfl)) hitem
      · cases hitem
    · split at hitem
      · exact decoded_of_mem (decoded_of_mem hpdu (List.mem_of_getLast? rfl)) hitem
      · cases hitem
    · cases hitem
  · cases hitem

/-- The bindings of a decoded response hold no sequences. -/
theorem noSequence_of_accepts {data : List UInt8} {rsp : VbListMessage}
    (haccepts : Accepts data rsp) : NoSequence rsp.vblist := by
  have hdecodes := haccepts.decodes
  unfold demarshalMessage at hdecodes
  split at hdecodes
  · cases hdecodes
  · rename_i obj hobj
    have hdecoded := (decoded_demarshal _ _).1 obj hobj
    exact noSequence_of_varBindList (fun item hitem => decoded_bindingItems hdecoded hitem)
      (varBindList_of_messageOf hdecodes)

/-! ## Items that cannot be stored -/

/-- Some items can be stored unless the data of one cannot. -/
theorem updateAll_fails_iff (mib : Mib) (items : List (Ci × Variable)) (ups : SnmpUps) :
    (∃ fault, updateAll mib.strategy.updateCi items ups = .error fault) ↔
      ∃ item ∈ items, mib.hazard item.1 item.2 := by
  induction items generalizing ups with
  | nil => simp [updateAll, pure, Except.pure]
  | cons item items ih =>
      have hitem := updateCi_fails_iff mib item.1 item.2 ups
      rcases hstored : mib.strategy.updateCi item.1 item.2 ups with fault | after
      · have hhazard := hitem.mp ⟨fault, hstored⟩
        simp [updateAll, hstored, hhazard, bind, Except.bind]
      · have hkeeps : ¬ mib.hazard item.1 item.2 := by
          rw [← hitem, hstored]
          simp
        rw [List.exists_mem_cons_iff, or_iff_right hkeeps, ← ih after, updateAll, List.foldlM_cons,
          hstored]
        rfl

/-- Some items of a map, with as many scalar ones as a response has bindings, are stored up to one
whose data cannot be stored. -/
def Selects (mib : Mib) (vblist : List VarBind) : Prop :=
  ∃ dynamic front entry back,
    List.Sublist (front ++ entry :: back)
      (mib.strategy.mib.filter fun entry => entry.dynamic == dynamic) ∧
    ((front ++ entry :: back).filter fun entry => entry.type ≠ sequenceId).length =
      vblist.length ∧
    (∀ entry ∈ front, entry.bound vblist) ∧ entry.bound vblist ∧
    mib.hazard entry.ci (entry.stored vblist).data

theorem scalars_map (entries : List CiOid) : scalars (entries.map CiOid.oidVar) =
    (entries.filter fun entry => entry.type ≠ sequenceId).map CiOid.oidVar := by
  rw [scalars, List.filter_map]
  rfl

theorem scalars_names (entries : List CiOid) :
    (scalars (entries.map CiOid.oidVar)).map OidVar.oid =
      (entries.filter fun entry => entry.type ≠ sequenceId).map CiOid.oid := by
  rw [scalars_map, List.map_map]
  rfl

theorem asked_eq_filter (mib : List CiOid) (cap : Ci → Bool) (dynamic : Bool) :
    mib.filter (CiOid.asked cap dynamic) =
      (mib.filter fun entry => entry.dynamic == dynamic).filter fun entry => cap entry.ci := by
  rw [List.filter_filter]
  rfl

/-- A usable scalar variable has a value in the response. -/
theorem bound_of_usable {entry : CiOid} {vblist : List VarBind} {after : OidVar}
    (hnone : NoSequence vblist) (hwalked : Walked (entry.stored vblist) after)
    (husable : usable after.data) (hscalar : entry.type ≠ sequenceId) : entry.bound vblist := by
  rcases hwalked with rfl | ⟨htype, -⟩
  · simp only [usable, Bool.and_eq_true] at husable
    rw [← valid_stored]
    exact husable.1
  · exact absurd (type_stored hnone htype).2 hscalar

/-- So has every variable whose data cannot be stored. -/
theorem bound_of_hazard {mib : Mib} {entry : CiOid} {vblist : List VarBind} {after : OidVar}
    (hentry : entry ∈ mib.strategy.mib) (hnone : NoSequence vblist)
    (hwalked : Walked (entry.stored vblist) after) (husable : usable after.data)
    (hhazard : mib.hazard entry.ci after.data) :
    entry.bound vblist ∧ mib.hazard entry.ci (entry.stored vblist).data := by
  rcases hwalked with rfl | ⟨htype, hseq⟩
  · simp only [usable, Bool.and_eq_true] at husable
    rw [← valid_stored]
    exact ⟨husable.1, hhazard⟩
  · exact absurd (seq_eq_nil_of_hazard hentry (type_stored hnone htype).2 hhazard) hseq

/-- Everything before an item that is passed on is usable. -/
theorem mem_passed {entries : List CiOid} {vars : List OidVar} {item : Ci × Variable}
    (hitem : item ∈ passed entries vars) : ∃ front entry after back,
      entries.zip vars = front ++ (entry, after) :: back ∧ item = (entry.ci, after.data) ∧
      (∀ pair ∈ front, usable pair.2.data) ∧ usable after.data := by
  rcases List.mem_map.mp hitem with ⟨⟨entry, after⟩, hpair, rfl⟩
  rcases List.append_of_mem hpair with ⟨front, back, hfront⟩
  have hzip := @List.takeWhile_append_dropWhile _ (fun pair : CiOid × OidVar => usable pair.2.data)
    (entries.zip vars)
  have husable (pair : CiOid × OidVar) (hmem : pair ∈ front ++ (entry, after) :: back) :
      usable pair.2.data := by
    rw [← hfront] at hmem
    exact @List.mem_takeWhile_imp _ (fun pair : CiOid × OidVar => usable pair.2.data) _ _ hmem
  rw [hfront, List.append_assoc, List.cons_append] at hzip
  exact ⟨front, entry, after, _, hzip.symm, rfl, fun pair hpair => husable pair (by simp [hpair]),
    husable (entry, after) (by simp)⟩

/-- The items before the first unusable variable, among which one cannot be stored, select an item
of the response. -/
theorem selects_of_passed {mib : Mib} {cap : Ci → Bool} {dynamic : Bool} {vblist : List VarBind}
    {vars : List OidVar} {item : Ci × Variable} (hnone : NoSequence vblist)
    (hlength : vblist.length =
      (scalars ((mib.strategy.mib.filter (CiOid.asked cap dynamic)).map CiOid.oidVar)).length)
    (hwalked : List.Forall₂ (fun entry after => Walked (entry.stored vblist) after)
      (mib.strategy.mib.filter (CiOid.asked cap dynamic)) vars)
    (hitem : item ∈ passed (mib.strategy.mib.filter (CiOid.asked cap dynamic)) vars)
    (hhazard : mib.hazard item.1 item.2) : Selects mib vblist := by
  rcases mem_passed hitem with ⟨front, entry, after, back, hzip, rfl, husable, hlast⟩
  have hentries := List.map_fst_zip hwalked.length_eq.le
  rw [hzip, List.map_append, List.map_cons] at hentries
  have hall (entry : CiOid) (after : OidVar)
      (hmem : (entry, after) ∈ (mib.strategy.mib.filter (CiOid.asked cap dynamic)).zip vars) :
      Walked (entry.stored vblist) after :=
    (List.forall₂_iff_zip.mp hwalked).2 hmem
  rw [hzip] at hall
  have hmem : entry ∈ mib.strategy.mib := by
    have hasked : entry ∈ mib.strategy.mib.filter (CiOid.asked cap dynamic) := by
      rw [← hentries]
      simp
    exact (List.mem_filter.mp hasked).1
  have hbound := bound_of_hazard hmem hnone (hall entry after (by simp)) hlast hhazard
  -- walked sequences are left out: what is left has a value in the response
  let keep := fun entry : CiOid => decide (entry.type ≠ sequenceId) || entry.bound vblist
  have hkept : (mib.strategy.mib.filter (CiOid.asked cap dynamic)).filter keep =
      (front.map Prod.fst).filter keep ++ entry :: (back.map Prod.fst).filter keep := by
    rw [← hentries, List.filter_append, List.filter_cons_of_pos (by simp [keep, hbound.1])]
  refine ⟨dynamic, (front.map Prod.fst).filter keep, entry, (back.map Prod.fst).filter keep,
    ?_, ?_, ?_, hbound.1, hbound.2⟩
  · rw [← hkept, asked_eq_filter]
    exact List.filter_sublist.trans List.filter_sublist
  · rw [← hkept, hlength, scalars_map, List.length_map, List.filter_filter]
    congr 1
    refine List.filter_congr fun entry _ => ?_
    by_cases hscalar : entry.type = sequenceId <;> simp [keep, hscalar]
  · intro other hother
    rcases List.mem_filter.mp hother with ⟨hother, hkeep⟩
    rcases List.mem_map.mp hother with ⟨pair, hpair, rfl⟩
    by_cases hscalar : pair.1.type = sequenceId
    · simpa [keep, hscalar] using hkeep
    · exact bound_of_usable hnone (hall pair.1 pair.2 (by simp [hpair])) (husable pair hpair)
        hscalar

/-- The requests for some items of a map are marshalled within the buffer. -/
theorem issuable_scalars {mib : List CiOid} (hmib : WellFormed mib) {part : List CiOid}
    (hpart : part.Sublist mib) {engine : Engine}
    (hcommunity : engine.community.length < maxString) :
    Issuable (getNextRequest engine (part.map CiOid.oid)) := by
  have hnames (oid : List Arc) (hoid : oid ∈ part.map CiOid.oid) :
      2 ≤ oid.length ∧ oid.length ≤ 16 := by
    rcases List.mem_map.mp hoid with ⟨entry, hentry, rfl⟩
    exact hmib.names entry (hpart.subset hentry)
  refine issuable_getNextRequest hcommunity (fun oid hoid => (hnames oid hoid).1) ?_
  have hsum := List.sum_le_card_nsmul
    ((part.map CiOid.oid).map fun oid => 5 * oid.length + 14) 94 (by
      intro n hn
      rcases List.mem_map.mp hn with ⟨oid, hoid, rfl⟩
      have hmost := (hnames oid hoid).2
      omega)
  have hfew := hpart.length_le.trans hmib.few
  simp only [List.length_map, nsmul_eq_mul, Nat.cast_id] at hsum
  omega

theorem modest_asked {mib : List CiOid} (hmib : WellFormed mib) {part : List CiOid}
    (hpart : part.Sublist mib) {community : List UInt8} (hcommunity : community.length < maxString) :
    Modest community (part.map CiOid.oidVar) := by
  refine fun reqid => ⟨?_, fun oid hoid => ?_⟩
  · rw [scalars_names]
    exact (@issuable_scalars mib hmib _ (List.filter_sublist.trans hpart) ⟨reqid, community⟩
      hcommunity).2
  · rw [List.map_map] at hoid
    rcases List.mem_map.mp hoid with ⟨entry, hentry, rfl⟩
    have hnames := hmib.names entry (hpart.subset hentry)
    have haskable : Askable entry.oid := ⟨hnames.1, by omega⟩
    exact (@Askable.issuable ⟨reqid, community⟩ _ haskable hcommunity).2

/-- An update that fails does so by its query, or by a response that selects an item whose data
cannot be stored. -/
theorem updateCis_error {mib : Mib} {fuel : ℕ} {dynamic : Bool} {ups : SnmpUps} {engine : Engine}
    {net : Net} {fault : Fault} (hcommunity : engine.community.length < maxString)
    (hupdate : updateCis perform fuel mib.strategy ups.upsCap dynamic engine net ups =
      .error fault) :
    (∃ oids, Modest engine.community oids ∧ get perform fuel oids engine net = .error fault) ∨
      ∃ rsp, Arrives net.events rsp ∧ Selects mib rsp.vblist := by
  unfold updateCis at hupdate
  rcases hget : get perform fuel
    ((mib.strategy.mib.filter (CiOid.asked ups.upsCap dynamic)).map CiOid.oidVar) engine net with
    fault' | ⟨_ | _, vars, after⟩
  · simp only [hget, Except.error.injEq] at hupdate
    subst hupdate
    exact Or.inl ⟨_, modest_asked (wellFormed_mib mib) List.filter_sublist hcommunity, hget⟩
  · simp [hget] at hupdate
  · right
    have hlen := length_of_get hget
    rw [List.length_map] at hlen
    rcases get_stored hget with ⟨vblist, hlength, harrives, hwalked⟩
    have hapart := (wellFormed_mib mib).apart.filter (CiOid.asked ups.upsCap dynamic)
    have hinvalid : ((mib.strategy.mib.filter (CiOid.asked ups.upsCap dynamic)).map
        CiOid.oidVar).map OidVar.invalidate =
        (mib.strategy.mib.filter (CiOid.asked ups.upsCap dynamic)).map CiOid.oidVar := by
      rw [List.map_map]
      rfl
    rw [hinvalid, foldl_store hapart, List.forall₂_map_left_iff] at hwalked
    have hnone : NoSequence vblist := by
      by_cases hempty : vblist = []
      · simp [hempty, NoSequence]
      · rcases harrives hempty with ⟨rsp, rfl, data, -, haccepts⟩
        exact noSequence_of_accepts haccepts
    simp only [hget, updateLoop_eq _ _ _ _ _ _ hlen] at hupdate
    rcases hall : updateAll mib.strategy.updateCi
      (passed (mib.strategy.mib.filter (CiOid.asked ups.upsCap dynamic)) vars) ups with
      fault' | ups'
    · rcases (updateAll_fails_iff mib _ ups).mp ⟨fault', hall⟩ with ⟨item, hitem, hhazard⟩
      have hselects := selects_of_passed hnone hlength hwalked hitem hhazard
      have hne : vblist ≠ [] := by
        rcases hselects with ⟨_, front, entry, back, -, -, -, hbound, -⟩
        rintro rfl
        cases hbound
      rcases harrives hne with ⟨rsp, rfl, harrived⟩
      exact ⟨rsp, harrived, hselects⟩
    · simp [hall, Except.map] at hupdate

/-! ## Single datagrams -/

/-- A datagram arrives, and nothing after it. -/
def once (data : List UInt8) : Net := ⟨[], [.datagram true data]⟩

/-- An engine that issues its next request with an id. -/
def asker (reqid : BitVec 32) : Engine := ⟨reqid, [0x70]⟩

theorem length_asker (reqid : BitVec 32) : (asker reqid).community.length < maxString := by
  simp [asker, maxString]

theorem perform_once {engine : Engine} {req rsp : VbListMessage} {data : List UInt8}
    (hissuable : Issuable req) (haccepts : Accepts data rsp) (hreqid : rsp.reqid = engine.reqid) :
    perform engine.next req (once data) = .ok (some rsp, ⟨[], []⟩) := by
  have hown : rsp.reqid = engine.next.reqid - 1 :=
    hreqid.trans (BitVec.add_sub_cancel _ _).symm
  rw [once, perform_answered hissuable haccepts.decodes haccepts.type hown,
    if_neg (not_not.mpr haccepts.errstatus)]

/-- A sequence is copied while a request waits. -/
theorem perform_copies {engine : Engine} {req : VbListMessage} {data : List UInt8}
    (hissuable : Issuable req) (hcopies : CopiesSequence data) :
    perform engine req (once data) = .error .unsetSize := by
  have hdecode : demarshalMessage (data.take bufferSize) = .error .unsetSize :=
    demarshalMessage_eq_error_iff.mpr ⟨rfl, hcopies⟩
  rw [perform_of_issuable hissuable engine _ rfl]
  simp [once, rspwait, hdecode, Except.map]

/-- A request that does not fit the buffer has a long name. -/
theorem long_of_overruns {engine : Engine} {oid : List Arc}
    (hcommunity : engine.community.length < maxString)
    (hover : overruns (getNextRequest engine [oid]) = true) : 128 < oid.length := by
  by_contra hshort
  have hfits : overruns (getNextRequest engine [oid]) = false := by
    by_cases htwo : 2 ≤ oid.length
    · exact (Askable.issuable ⟨htwo, not_lt.mp hshort⟩ hcommunity).2
    · have hnone : ¬ encodable (getNextRequest engine [oid]).tree := by
        simp [VbListMessage.tree, VbListMessage.asn, getNextRequest, VarBind.asn, VarBind.request,
          encodable, encodableAll, Obj.ofInt]
        omega
      have hwithin : ((getNextRequest engine [oid]).marshal ⟨[], bufferSize⟩).2.written.length ≤
          bufferSize := (marshal_of_not_encodable hnone bufferSize).2
      simpa [overruns] using hwithin
  rw [hfits] at hover
  cases hover

/-- A query for one sequence. -/
def sequenceUnder (root : List Arc) : List OidVar :=
  [⟨root, ⟨{ Value.fresh with type := sequenceId }, []⟩⟩]

theorem modest_single {community : List UInt8} (hcommunity : community.length < maxString)
    {var : OidVar} (haskable : Askable var.oid) : Modest community [var] := by
  refine fun reqid => ⟨?_, fun oid hoid => ?_⟩
  · have hnames : ∀ oid ∈ (scalars [var]).map OidVar.oid, oid = var.oid := by
      intro oid hoid
      rcases List.mem_map.mp hoid with ⟨other, hother, rfl⟩
      rw [List.mem_singleton.mp (List.mem_filter.mp hother).1]
    have hfew : ((scalars [var]).map OidVar.oid).length ≤ 1 := by
      rw [List.length_map]
      exact List.length_filter_le _ _
    refine (@issuable_getNextRequest ⟨reqid, community⟩ _ hcommunity
      (fun oid hoid => (hnames oid hoid).symm ▸ haskable.1) ?_).2
    have hsum := List.sum_le_card_nsmul
      (((scalars [var]).map OidVar.oid).map fun oid => 5 * oid.length + 14) 654 (by
        intro n hn
        rcases List.mem_map.mp hn with ⟨oid, hoid, rfl⟩
        have hmost := haskable.2
        rw [hnames oid hoid]
        omega)
    rw [List.length_map, nsmul_eq_mul, Nat.cast_id] at hsum
    omega
  · rw [List.map_singleton, List.mem_singleton] at hoid
    exact hoid ▸ (@Askable.issuable ⟨reqid, community⟩ _ haskable hcommunity).2

/-- A query for one sequence is its walk. -/
theorem get_sequenceUnder {root : List Arc} {fuel : ℕ} {engine : Engine} {net : Net} {fault : Fault}
    (hwalk : ∀ data, walk perform root fuel root engine.next data net = .error fault) :
    get perform fuel (sequenceUnder root) engine net = .error fault := by
  have hscalars : scalars (sequenceUnder root) = [] := by
    simp [scalars, sequenceUnder]
  rw [get, hscalars]
  simp only [sequenceUnder, List.map_cons, List.map_nil, OidVar.invalidate, getSequences, if_true,
    hwalk]
  rfl

/-- A datagram that can spoil a query spoils one. -/
theorem get_of_spoils {data : List UInt8} (hspoils : Spoils data) :
    ∃ oids engine fault, engine.community.length < maxString ∧ Modest engine.community oids ∧
      get perform (enoughFuel (once data)) oids engine (once data) = .error fault := by
  have hnext (reqid : BitVec 32) (community : List UInt8) :
      (⟨reqid - 1, community⟩ : Engine).next = ⟨reqid, community⟩ := by
    rw [Engine.next, BitVec.sub_add_cancel]
  rcases hspoils with hcopies | ⟨rsp, haccepts, hempty | ⟨binding, rest, community, hbindings,
    hcommunity, hover⟩⟩
  · have haskable : Askable [1, 3] := ⟨by decide, by decide⟩
    refine ⟨sequenceUnder [1, 3], asker 0, .unsetSize, length_asker 0,
      modest_single (length_asker 0) haskable, get_sequenceUnder fun data' => ?_⟩
    have hissuable : Issuable (getNextRequest (asker 0).next [[1, 3]]) :=
      haskable.issuable (length_asker 1)
    rw [enoughFuel, walk, perform_copies hissuable hcopies]
  · have haskable : Askable [1, 3] := ⟨by decide, by decide⟩
    refine ⟨sequenceUnder [1, 3], asker (rsp.reqid - 1), .noBinding, length_asker 0,
      modest_single (length_asker 0) haskable, get_sequenceUnder fun data' => ?_⟩
    have hperform := @perform_once (asker rsp.reqid) _ _ _
      (haskable.issuable (length_asker rsp.reqid)) haccepts rfl
    have hengine : (asker (rsp.reqid - 1)).next = asker rsp.reqid := hnext rsp.reqid [0x70]
    rw [hengine, enoughFuel, walk, hperform]
    simp [hempty]
  · have hlong := long_of_overruns hcommunity hover
    have hlength : (binding.oid.take 2).length = 2 := by
      rw [List.length_take]
      omega
    have haskable : Askable (binding.oid.take 2) := ⟨hlength.ge, by omega⟩
    have hchild : isChildOf binding.oid (binding.oid.take 2) := by
      refine isChildOf_iff.mpr ⟨List.take_prefix _ _, fun hsame => ?_⟩
      have hsameLength := congrArg List.length hsame
      omega
    refine ⟨sequenceUnder (binding.oid.take 2), ⟨rsp.reqid - 1, community⟩, .overrun, hcommunity,
      modest_single hcommunity haskable, get_sequenceUnder fun data' => ?_⟩
    have hissuable : Issuable (getNextRequest ⟨rsp.reqid, community⟩ [binding.oid.take 2]) :=
      haskable.issuable hcommunity
    have hfirst := @perform_once ⟨rsp.reqid, community⟩ _ _ _ hissuable haccepts rfl
    have hlast : overruns (getNextRequest (⟨rsp.reqid, community⟩ : Engine).next
        [binding.oid]) = true := hover
    rw [hnext, enoughFuel, walk, hfirst]
    simp only [hbindings, if_pos hchild]
    rw [show (once data).events.length = 0 + 1 from rfl, walk, perform_of_overruns hlast]

theorem perform_silent {engine : Engine} {req : VbListMessage} (hfits : overruns req = false) :
    perform engine req ⟨[], []⟩ = .ok (none, ⟨[], []⟩) := by
  cases hmarshals : marshals req with
  | true =>
      rw [perform_of_issuable ⟨hmarshals, hfits⟩ engine _ rfl]
      rfl
  | false =>
      rcases perform_of_not_marshals hmarshals engine ⟨[], []⟩ with hfault | hnone
      · rcases perform_error hfault with ⟨-, hover⟩ | ⟨hother, -⟩
        · rw [hfits] at hover
          cases hover
        · cases hother
      · exact hnone

/-- Without further datagrams a walk changes nothing. -/
theorem getSequences_silent {fuel : ℕ} {vars : List OidVar} {engine : Engine}
    (hfits : ∀ reqid, ∀ oid ∈ vars.map OidVar.oid,
      overruns (getNextRequest ⟨reqid, engine.community⟩ [oid]) = false) :
    ∃ engine', getSequences perform (fuel + 1) vars engine ⟨[], []⟩ =
      .ok (vars, engine', ⟨[], []⟩) := by
  induction vars generalizing engine with
  | nil => exact ⟨engine, rfl⟩
  | cons var vars ih =>
      have hrest := fun reqid oid hoid => hfits reqid oid (List.mem_cons_of_mem _ hoid)
      by_cases hsequence : var.data.type = sequenceId
      · have hperform : perform engine.next (getNextRequest engine [var.oid]) ⟨[], []⟩ =
            .ok (none, ⟨[], []⟩) :=
          perform_silent (hfits engine.reqid var.oid List.mem_cons_self)
        rcases @ih engine.next hrest with ⟨engine', hlater⟩
        exact ⟨engine', by simp [getSequences, hsequence, walk, hperform, hlater, Except.map]⟩
      · rcases ih hrest with ⟨engine', hlater⟩
        exact ⟨engine', by simp [getSequences, hsequence, hlater, Except.map]⟩

/-- A part of a list is what the list has of its keys. -/
theorem filter_mem_of_sublist {α β : Type} [DecidableEq β] {f : α → β} {part l : List α}
    (hpart : part.Sublist l) (hnodup : (l.map f).Nodup) :
    l.filter (fun a => decide (f a ∈ part.map f)) = part := by
  induction hpart with
  | slnil => rfl
  | @cons part l a hpart ih =>
      rw [List.map_cons, List.nodup_cons] at hnodup
      have hnot : f a ∉ part.map f := fun hmem => hnodup.1 ((hpart.map f).subset hmem)
      rw [List.filter_cons_of_neg (by simpa using hnot), ih hnodup.2]
  | @cons_cons part l a hpart ih =>
      rw [List.map_cons, List.nodup_cons] at hnodup
      rw [List.filter_cons_of_pos (by simp)]
      have hrest : l.filter (fun b => decide (f b ∈ (a :: part).map f)) =
          l.filter fun b => decide (f b ∈ part.map f) := by
        refine List.filter_congr fun b hb => ?_
        have hne : f b ≠ f a := by
          intro heq
          exact hnodup.1 (heq ▸ List.mem_map_of_mem hb)
        simp [hne]
      rw [hrest, ih hnodup.2]

/-- The record of a UPS that has some items. -/
def upsWith (cap : Ci → Bool) : SnmpUps where
  toUpsInfo := { newUps (defaultConfig 0) with upsCap := cap }
  toReportFields := ReportFields.zero
  apcAlarmtimer := 0
  mgeAlarmtimer := 0

/-- A query for items of a map, with a response for its scalars as the only datagram. -/
theorem get_once {data : List UInt8} {rsp : VbListMessage} (haccepts : Accepts data rsp)
    (hne : rsp.vblist ≠ []) {mib entries : List CiOid} (hmib : WellFormed mib)
    (hsublist : entries.Sublist mib)
    (hlength : (entries.filter fun entry => entry.type ≠ sequenceId).length =
      rsp.vblist.length) :
    ∃ engine', get perform (enoughFuel (once data)) (entries.map CiOid.oidVar) (asker rsp.reqid)
      (once data) =
        .ok (true, entries.map fun entry => entry.stored rsp.vblist, engine', ⟨[], []⟩) := by
  have hapart : entries.Pairwise Apart := hmib.apart.sublist hsublist
  have hinvalid : (entries.map CiOid.oidVar).map OidVar.invalidate = entries.map CiOid.oidVar := by
    rw [List.map_map]
    rfl
  have hissuable : Issuable (getNextRequest (asker rsp.reqid)
      ((scalars (entries.map CiOid.oidVar)).map OidVar.oid)) := by
    rw [scalars_names]
    exact issuable_scalars hmib (List.filter_sublist.trans hsublist) (length_asker rsp.reqid)
  have hperform := @perform_once (asker rsp.reqid) _ _ _ hissuable haccepts rfl
  have hrequest : (getNextRequest (asker rsp.reqid)
      ((scalars (entries.map CiOid.oidVar)).map OidVar.oid)).vblist.length =
        rsp.vblist.length := by
    rw [scalars_names]
    simpa [getNextRequest] using hlength
  have hasks : (getNextRequest (asker rsp.reqid)
      ((scalars (entries.map CiOid.oidVar)).map OidVar.oid)).vblist ≠ [] := by
    rw [← List.length_pos_iff, hrequest]
    exact List.length_pos_iff.mpr hne
  have hnames : (entries.map fun entry => entry.stored rsp.vblist).map OidVar.oid =
      (entries.map CiOid.oidVar).map OidVar.oid := by
    rw [← foldl_store hapart, oids_foldl_store]
  rcases @getSequences_silent (once data).events.length
    (entries.map fun entry => entry.stored rsp.vblist) (asker rsp.reqid).next
    (fun reqid oid hoid => (modest_asked hmib hsublist (length_asker rsp.reqid) reqid).2 oid
      (hnames ▸ hoid)) with
    ⟨engine', hsilent⟩
  refine ⟨engine', ?_⟩
  rw [get]
  simp only [if_neg hasks, hperform, hrequest, ne_eq, not_true, if_false, hinvalid,
    foldl_store hapart]
  rw [enoughFuel, hsilent]
  rfl

/-- A variable that a response binds can be used. -/
theorem usable_stored {vblist : List VarBind} (hnone : NoSequence vblist) {entry : CiOid}
    (hbound : entry.bound vblist) : usable (entry.stored vblist).data := by
  have htype : (entry.stored vblist).data.type ≠ sequenceId := by
    intro htype
    rw [CiOid.bound, (type_stored hnone htype).1] at hbound
    cases hbound
  simp [usable, valid_stored, hbound, htype]

/-- An item is passed on if it and those in front of it are bound. -/
theorem mem_passed_stored {vblist : List VarBind} (hnone : NoSequence vblist)
    {front back : List CiOid} {entry : CiOid} (hfront : ∀ other ∈ front, other.bound vblist)
    (hbound : entry.bound vblist) :
    (entry.ci, (entry.stored vblist).data) ∈ passed (front ++ entry :: back)
      ((front ++ entry :: back).map fun entry => entry.stored vblist) := by
  have hzip : (front ++ entry :: back).zip
      ((front ++ entry :: back).map fun entry => entry.stored vblist) =
        (front ++ entry :: back).map fun entry => (entry, entry.stored vblist) := by
    simpa using @List.zip_map' _ _ _ id (fun entry : CiOid => entry.stored vblist)
      (front ++ entry :: back)
  have husables : ∀ pair ∈ front.map (fun entry => (entry, entry.stored vblist)),
      usable pair.2.data := by
    intro pair hpair
    rcases List.mem_map.mp hpair with ⟨other, hother, rfl⟩
    exact usable_stored hnone (hfront other hother)
  rw [passed, ciData, hzip, List.map_append, List.map_cons, List.takeWhile_append_of_pos husables]
  simp [usable_stored hnone hbound]

/-- A response that selects an item whose data cannot be stored makes an update fail. -/
theorem updateCis_of_selects {data : List UInt8} {rsp : VbListMessage} {mib : Mib}
    (haccepts : Accepts data rsp) (hselects : Selects mib rsp.vblist) :
    ∃ dynamic ups engine fault, engine.community.length < maxString ∧
      updateCis perform (enoughFuel (once data)) mib.strategy ups.upsCap dynamic engine
        (once data) ups = .error fault := by
  rcases hselects with ⟨dynamic, front, entry, back, hpart, hlength, hfront, hbound, hhazard⟩
  have hmib := wellFormed_mib mib
  let entries := front ++ entry :: back
  let cap : Ci → Bool := fun ci => decide (ci ∈ entries.map CiOid.ci)
  have hasked : mib.strategy.mib.filter (CiOid.asked cap dynamic) = entries := by
    rw [asked_eq_filter]
    exact filter_mem_of_sublist hpart (hmib.distinct.sublist (List.filter_sublist.map _))
  have hne : rsp.vblist ≠ [] := by
    intro hempty
    rw [hempty] at hbound
    cases hbound
  rcases @get_once _ _ haccepts hne _ entries hmib (hpart.trans List.filter_sublist) hlength with
    ⟨engine', hget⟩
  have hpassed : (entry.ci, (entry.stored rsp.vblist).data) ∈
      passed entries (entries.map fun entry => entry.stored rsp.vblist) :=
    mem_passed_stored (noSequence_of_accepts haccepts) hfront hbound
  rcases (updateAll_fails_iff mib _ (upsWith cap)).mpr ⟨_, hpassed, hhazard⟩ with ⟨fault, hfault⟩
  refine ⟨dynamic, upsWith cap, asker rsp.reqid, fault, length_asker rsp.reqid, ?_⟩
  have hlen : (entries.map fun entry => entry.stored rsp.vblist).length =
      (mib.strategy.mib.filter (CiOid.asked cap dynamic)).length := by
    rw [hasked, List.length_map]
  have hcap : (upsWith cap).upsCap = cap := rfl
  rw [updateCis, hcap, hasked, hget]
  simp only [updateLoop_eq _ _ _ _ _ _ hlen, hasked, hfault, Except.map]

/-! ## Harmless datagrams -/

/-- All datagrams of the agent are among some. -/
def Over (datagrams : Set (List UInt8)) (net : Net) : Prop :=
  ∀ data, .datagram true data ∈ net.events → data ∈ datagrams

/-- Whatever the state of the driver, no query whose own requests fit and no update fails as long
as the agent sends nothing but these datagrams. -/
structure Harmless (datagrams : Set (List UInt8)) : Prop where
  query : ∀ oids engine net fault, Over datagrams net → engine.community.length < maxString →
    Modest engine.community oids → get perform (enoughFuel net) oids engine net ≠ .error fault
  update : ∀ (mib : Mib) dynamic (ups : SnmpUps) engine net fault, Over datagrams net →
    engine.community.length < maxString →
      updateCis perform (enoughFuel net) mib.strategy ups.upsCap dynamic engine net ups ≠
        .error fault

/-- A datagram that copies no sequence and that, as a response, has a binding, leads to no request
that does not fit, and selects no item whose data cannot be stored. -/
structure Safe (data : List UInt8) : Prop where
  spoils : ¬ Spoils data
  selects : ∀ rsp mib, Accepts data rsp → ¬ Selects mib rsp.vblist

theorem over_once {datagrams : Set (List UInt8)} {data : List UInt8} (hdata : data ∈ datagrams) :
    Over datagrams (once data) := by
  intro other hother
  simp only [once, List.mem_singleton, Event.datagram.injEq, true_and] at hother
  exact hother ▸ hdata

/-- Datagrams are harmless exactly if each of them is safe. -/
theorem harmless_iff (datagrams : Set (List UInt8)) :
    Harmless datagrams ↔ ∀ data ∈ datagrams, Safe data := by
  constructor
  · intro hharmless data hdata
    refine ⟨fun hspoils => ?_, fun rsp mib haccepts hselects => ?_⟩
    · rcases get_of_spoils hspoils with ⟨oids, engine, fault, hcommunity, hmodest, hget⟩
      exact hharmless.query oids engine _ fault (over_once hdata) hcommunity hmodest hget
    · rcases updateCis_of_selects haccepts hselects with
        ⟨dynamic, ups, engine, fault, hcommunity, hupdate⟩
      exact hharmless.update mib dynamic ups engine _ fault (over_once hdata) hcommunity hupdate
  · intro hsafe
    have hquery (oids : List OidVar) (engine : Engine) (net : Net) (fault : Fault)
        (hover : Over datagrams net) (hcommunity : engine.community.length < maxString)
        (hmodest : Modest engine.community oids) :
        get perform (enoughFuel net) oids engine net ≠ .error fault := by
      intro hget
      rcases get_error hcommunity hmodest hget with rfl | ⟨data, hdata, hspoils⟩
      · exact get_terminates oids engine net hget
      · exact (hsafe data (hover data hdata)).spoils hspoils
    refine ⟨hquery, fun mib dynamic ups engine net fault hover hcommunity hupdate => ?_⟩
    rcases updateCis_error hcommunity hupdate with
      ⟨oids, hmodest, hget⟩ | ⟨rsp, ⟨data, hdata, haccepts⟩, hselects⟩
    · exact hquery oids engine net fault hover hcommunity hmodest hget
    · exact (hsafe data (hover data hdata)).selects rsp mib haccepts hselects

/-! ## Examples of runs -/

/-- The overload state as a text of one character. -/
def shortState : List UInt8 :=
  [0x30, 0x28, 0x02, 0x01, 0x00, 0x04, 0x01, 0x70, 0xA2, 0x20, 0x02, 0x01, 0x07,
    0x02, 0x01, 0x00, 0x02, 0x01, 0x00, 0x30, 0x15, 0x30, 0x13, 0x06, 0x0E,
    0x2B, 0x06, 0x01, 0x04, 0x01, 0x82, 0x3E, 0x01, 0x01, 0x01, 0x0B, 0x01, 0x01, 0x00,
    0x04, 0x01, 0x31]

/-- One binding, of the first input voltage of a table. -/
def tableEntry : List UInt8 :=
  [0x30, 0x26, 0x02, 0x01, 0x00, 0x04, 0x01, 0x70, 0xA2, 0x1E, 0x02, 0x01, 0x07,
    0x02, 0x01, 0x00, 0x02, 0x01, 0x00, 0x30, 0x13, 0x30, 0x11, 0x06, 0x0C,
    0x2B, 0x06, 0x01, 0x02, 0x01, 0x21, 0x01, 0x03, 0x03, 0x01, 0x03, 0x01, 0x02, 0x01, 0x05]

/-- A list with something that is no binding. -/
def noBindings : List UInt8 :=
  [0x30, 0x15, 0x02, 0x01, 0x00, 0x04, 0x01, 0x70, 0xA2, 0x0D, 0x02, 0x01, 0x07,
    0x02, 0x01, 0x00, 0x02, 0x01, 0x00, 0x30, 0x02, 0x05, 0x00]

/-- A binding of 1.3 to a sequence. -/
def nestedSequence : List UInt8 :=
  [0x30, 0x1C, 0x02, 0x01, 0x00, 0x04, 0x01, 0x70, 0xA2, 0x14, 0x02, 0x01, 0x07,
    0x02, 0x01, 0x00, 0x02, 0x01, 0x00, 0x30, 0x09, 0x30, 0x07, 0x06, 0x01, 0x2B,
    0x30, 0x02, 0x05, 0x00]

/-- The fault of a run. -/
def faultOf {α : Type} : Except Fault α → Option Fault
  | .error fault => some fault
  | .ok _ => none

theorem eq_error_of_faultOf {α : Type} {run : Except Fault α} {fault : Fault}
    (hfault : faultOf run = some fault) : run = .error fault := by
  cases run with
  | error fault' => rw [Option.some.inj hfault]
  | ok a => cases hfault

/-- Each of these datagrams makes an update fail. -/
theorem datagrams_crash : ¬ Harmless {shortState} ∧ ¬ Harmless {tableEntry} ∧
    ¬ Harmless {noBindings} ∧ ¬ Harmless {nestedSequence} := by
  have hcrashes (data : List UInt8) (mib : Mib) (cap : Ci → Bool) (reqid : BitVec 32)
      (fault : Fault) (hfault : faultOf (updateCis perform (enoughFuel (once data)) mib.strategy
        cap true (asker reqid) (once data) (upsWith cap)) = some fault) : ¬ Harmless {data} :=
    fun hharmless => hharmless.update mib true (upsWith cap) (asker reqid) (once data) fault
      (over_once rfl) (length_asker reqid) (eq_error_of_faultOf hfault)
  refine ⟨hcrashes _ .apc (fun ci => ci = .overload) 7 .badIndex ?_,
    hcrashes _ .rfc1628 (fun ci => ci ∈ [.vline, .status]) 7 .emptyList ?_,
    hcrashes _ .rfc1628 (fun ci => ci = .vline) 6 .noBinding ?_,
    hcrashes _ .mge (fun ci => ci = .status) 7 .unsetSize ?_⟩
  · decide +kernel
  · decide +kernel
  · decide +kernel
  · decide +kernel

end Snmp
end Apcupsd
