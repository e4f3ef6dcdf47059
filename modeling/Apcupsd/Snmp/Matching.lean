import Apcupsd.Snmp.Engine

/-!
# Answers and their questions

Calls of {lit}`SnmpEngine::Get` in a row, over a stream of datagrams that nothing is assumed
about.

Main results:

- Theorem {lit}`matched_of_fetched`: what a valid variable shows.
- Theorem {lit}`exchanges_nodup`: the request ids of a run are different.
- Theorem {lit}`gets_match`: every call takes its values from answers to its own requests.
-/

namespace Apcupsd
namespace Snmp

open Asn

/-! ## What a valid variable shows -/

/-- The number or the text of a binding stands in a variable. -/
def Shows (value : Value) (binding : VarBind) : Prop :=
  match binding.data with
  | .integer _ number _ => value.i32 = number ∧ value.u32 = number
  | .octetString data => value.str = text data
  | _ => False

/-- A binding that lies under an OID comes from one of some responses. -/
def OwnBinding (log : List Exchange) (oid : List Arc) (binding : VarBind) : Prop :=
  isChildOf binding.oid oid ∧ FromResponse log binding

/-- A variable that has been marked valid shows a binding of its own, and so does every
element of its list. -/
structure Matched (log : List Exchange) (var after : OidVar) : Prop where
  oid : after.oid = var.oid
  value : after.data.valid →
    (∃ binding, OwnBinding log var.oid binding ∧ Shows after.data.toValue binding) ∨
      after.data.seq ≠ []
  element : ∀ element ∈ after.data.seq, ∃ binding, OwnBinding log var.oid binding ∧
    element = binding.extract .fresh

theorem shows_extract {binding : VarBind} (hsupported : binding.supported) (value : Value) :
    Shows (binding.extract value) binding := by
  unfold VarBind.supported at hsupported
  unfold Shows VarBind.extract
  cases hdata : binding.data <;> simp [hdata] at hsupported ⊢

theorem extract_of_not_supported {binding : VarBind} (hsupported : ¬ binding.supported)
    (value : Value) : binding.extract value = { value with type := typeOf binding.data } := by
  unfold VarBind.supported at hsupported
  unfold VarBind.extract
  cases hdata : binding.data <;> simp [hdata] at hsupported ⊢

/-- A variable becomes valid by a binding that it shows from then on, until another takes its
place. -/
theorem shows_of_valid {var : OidVar} (hinvalid : var.data.valid = false) (direct : List VarBind)
    (hvalid : (direct.foldl OidVar.extract var).data.valid) :
    ∃ binding ∈ direct, Shows (direct.foldl OidVar.extract var).data.toValue binding := by
  induction direct using List.reverseRecOn with
  | nil => simp [hinvalid] at hvalid
  | append_singleton front binding ih =>
      simp only [List.foldl_append, List.foldl_cons, List.foldl_nil] at hvalid ⊢
      by_cases hsupported : binding.supported
      · exact ⟨binding, by simp, shows_extract hsupported _⟩
      · simp only [OidVar.extract, extract_of_not_supported hsupported] at hvalid ⊢
        rcases ih hvalid with ⟨shown, hshown, hshows⟩
        exact ⟨shown, by simp [hshown], hshows⟩

theorem pushAll_seq (data : Variable) (walked : List VarBind) :
    (data.pushAll walked).seq = data.seq ++ walked.map fun binding => binding.extract .fresh := by
  induction walked generalizing data with
  | nil => simp [Variable.pushAll]
  | cons binding walked ih =>
      have htail := ih (data.push (binding.extract .fresh))
      simpa [Variable.pushAll, Variable.push] using htail

theorem seq_foldl_extract (var : OidVar) (direct : List VarBind) :
    (direct.foldl OidVar.extract var).data.seq = var.data.seq := by
  induction direct generalizing var with
  | nil => rfl
  | cons binding direct ih => exact ih _

/-- What a query has fetched for a variable without elements. -/
theorem matched_of_fetched {log : List Exchange} {var after : OidVar} (hfresh : var.data.seq = [])
    (hfetched : Fetched log var after) : Matched log var after := by
  rcases hfetched with ⟨direct, walked, rfl, hdirect, hwalked⟩
  have hseq : (var.invalidate.result direct walked).data.seq =
      walked.map fun binding => binding.extract .fresh := by
    rw [OidVar.result, pushAll_seq, seq_foldl_extract]
    simp [OidVar.invalidate, hfresh]
  refine ⟨rfl, fun hvalid => ?_, fun element helement => ?_⟩
  · cases walked with
    | nil =>
        rcases @shows_of_valid var.invalidate rfl direct hvalid with
          ⟨binding, hbinding, hshows⟩
        exact Or.inl ⟨binding, hdirect binding hbinding, hshows⟩
    | cons binding walked =>
        right
        rw [hseq]
        simp
  · rw [hseq] at helement
    rcases List.mem_map.mp helement with ⟨binding, hbinding, rfl⟩
    exact ⟨binding, hwalked binding hbinding, rfl⟩

/-! ## Request ids -/

section Ids

variable {σ : Type} {perform : Perform σ}

theorem reqid_next (engine : Engine) (k : ℕ) :
    engine.next.reqid + BitVec.ofNat 32 k = engine.reqid + BitVec.ofNat 32 (k + 1) := by
  rw [Engine.next, BitVec.add_assoc, Nat.add_comm, BitVec.ofNat_add]
  rfl

theorem exchanges_reqid {log : List Exchange} {n : ℕ} {engine engine' : Engine} {s s' : σ}
    (hlog : Exchanges perform engine s log n engine' s') :
    ∀ exchange ∈ log, ∃ k < n, exchange.request.reqid = engine.reqid + BitVec.ofNat 32 k := by
  induction hlog with
  | nil engine s => simp
  | skip _ ih =>
      intro exchange hexchange
      rcases ih exchange hexchange with ⟨k, hk, hid⟩
      exact ⟨k + 1, by omega, hid.trans (reqid_next _ k)⟩
  | cons hreqid _ _ ih =>
      intro exchange hexchange
      rcases List.mem_cons.mp hexchange with rfl | htail
      · exact ⟨0, by omega, by simpa using hreqid⟩
      · rcases ih exchange htail with ⟨k, hk, hid⟩
        exact ⟨k + 1, by omega, hid.trans (reqid_next _ k)⟩

/-- The request ids of a run are different, as long as they do not start again. -/
theorem exchanges_nodup {log : List Exchange} {n : ℕ} {engine engine' : Engine} {s s' : σ}
    (hlog : Exchanges perform engine s log n engine' s') (hn : n ≤ 2 ^ 32) :
    (log.map fun exchange => exchange.request.reqid).Nodup := by
  induction hlog with
  | nil engine s => simp
  | skip _ ih => exact ih (by omega)
  | cons hreqid _ hrest ih =>
      rw [List.map_cons, List.nodup_cons]
      refine ⟨fun hmem => ?_, ih (by omega)⟩
      rcases List.mem_map.mp hmem with ⟨exchange, hexchange, hid⟩
      rcases exchanges_reqid hrest exchange hexchange with ⟨k, hk, hlater⟩
      rw [hlater, reqid_next, hreqid] at hid
      have hzero : BitVec.ofNat 32 (k + 1) = 0 := by simpa using hid
      have hnat := congrArg BitVec.toNat hzero
      rw [BitVec.toNat_ofNat, Nat.mod_eq_of_lt (by omega)] at hnat
      simp at hnat

end Ids

/-! ## Calls in a row -/

/-- Calls of {lit}`Get`, with the result and the variables of each. -/
def gets : List (List OidVar) → Engine → Net →
    Except Fault (List (Bool × List OidVar) × Engine × Net)
  | [], engine, net => .ok ([], engine, net)
  | oids :: calls, engine, net =>
      match get perform (enoughFuel net) oids engine net with
      | .error fault => .error fault
      | .ok (ret, vars, engine, net) =>
          (gets calls engine net).map fun (results, after) => ((ret, vars) :: results, after)

/-- What belongs to one call: its variables before and after it, the requests that it issued
and the events that arrived while it ran. -/
structure Call where
  oids : List OidVar
  vars : List OidVar
  log : List Exchange
  arrived : List Event

/-- Every response of a call answers the request that it issued, arrived while the call ran,
and gave the valid variables what they show. -/
structure Call.Matched (call : Call) : Prop where
  answers : ∀ exchange ∈ call.log, ∀ rsp, exchange.response = some rsp →
    Answers exchange.request rsp call.arrived
  values : List.Forall₂ (Snmp.Matched call.log) call.oids call.vars

/-- However datagrams are delayed, repeated, reordered or mixed with traps: every call takes
its values from answers to its own requests, and no other request has the same id. -/
theorem gets_match {calls : List (List OidVar)} {results : List (Bool × List OidVar)}
    {engine engine' : Engine} {net net' : Net}
    (hfresh : ∀ oids ∈ calls, ∀ var ∈ oids, var.data.seq = [])
    (hrun : gets calls engine net = .ok (results, engine', net')) :
    ∃ (record : List Call) (n : ℕ),
      record.map Call.oids = calls ∧ record.map Call.vars = results.map Prod.snd ∧
      net.events = record.flatMap Call.arrived ++ net'.events ∧
      Exchanges perform engine net (record.flatMap Call.log) n engine' net' ∧
      (n ≤ 2 ^ 32 → ((record.flatMap Call.log).map fun exchange =>
        exchange.request.reqid).Nodup) ∧
      ∀ call ∈ record, call.Matched := by
  induction calls generalizing results engine net with
  | nil =>
      simp only [gets, Except.ok.injEq, Prod.mk.injEq] at hrun
      rcases hrun with ⟨rfl, rfl, rfl⟩
      exact ⟨[], 0, rfl, rfl, rfl, .nil _ _, by simp, by simp⟩
  | cons oids calls ih =>
      unfold gets at hrun
      rcases hget : get perform (enoughFuel net) oids engine net with
        fault | ⟨ret, vars, between, middle⟩
      · simp [hget] at hrun
      · rcases hrest : gets calls between middle with fault | ⟨tail, after⟩
        · simp [hget, hrest, Except.map] at hrun
        · simp only [hget, hrest, Except.map, Except.ok.injEq, Prod.mk.injEq] at hrun
          rcases hrun with ⟨rfl, rfl⟩
          rcases get_ok hget with ⟨log, n, hlog, hfetched⟩
          rcases exchanges_events hlog with ⟨arrived, harrived, hanswers⟩
          rcases ih (fun oids hoids => hfresh oids (List.mem_cons_of_mem _ hoids)) hrest with
            ⟨record, n', hoids, hvars, hevents, hchain, -, hmatched⟩
          have hwhole := hlog.append hchain
          refine ⟨⟨oids, vars, log, arrived⟩ :: record, n + n', by simp [hoids], by simp [hvars],
            by simp [harrived, hevents], hwhole, exchanges_nodup hwhole, fun call hcall => ?_⟩
          rcases List.mem_cons.mp hcall with rfl | hlater
          · refine ⟨hanswers, ?_⟩
            have hempty := hfresh oids List.mem_cons_self
            refine List.forall₂_iff_get.mpr ⟨hfetched.length_eq, fun i hi hi' => ?_⟩
            exact matched_of_fetched (hempty _ (List.get_mem _ _)) (hfetched.get hi hi')
          · exact hmatched call hlater

/-! ## Examples of runs -/

/-- A GET-RESPONSE with one binding of 1.3.6.1.0 to a small number. -/
def shortResponse (reqid number : UInt8) : List UInt8 :=
  [0x30, 0x1E, 0x02, 0x01, 0x00, 0x04, 0x01, 0x70, 0xA2, 0x16, 0x02, 0x01, reqid,
    0x02, 0x01, 0x00, 0x02, 0x01, 0x00, 0x30, 0x0B, 0x30, 0x09,
    0x06, 0x04, 0x2B, 0x06, 0x01, 0x00, 0x02, 0x01, number]

/-- A variable that is asked for 1.3.6.1. -/
def shortVar (valid : Bool) (number : BitVec 32) : OidVar where
  oid := [1, 3, 6, 1]
  data := ⟨⟨valid, integerId, number, number, []⟩, []⟩

/-- The response to an earlier request arrives first, then twice the one that is asked for. -/
def lateNet : Net where
  sends := []
  events := [.datagram true (shortResponse 6 9), .datagram true (shortResponse 7 5),
    .datagram true (shortResponse 7 5)]

theorem gets_match_late : ∃ (record : List Call) (n : ℕ),
    record.map Call.oids = [[shortVar false 0]] ∧
    record.map Call.vars = [[shortVar true 5]] ∧
    lateNet.events = record.flatMap Call.arrived ++ [.datagram true (shortResponse 7 5)] ∧
    Exchanges perform ⟨7, [0x70]⟩ lateNet (record.flatMap Call.log) n ⟨8, [0x70]⟩
      ⟨[], [.datagram true (shortResponse 7 5)]⟩ ∧
    (n ≤ 2 ^ 32 → ((record.flatMap Call.log).map fun exchange =>
      exchange.request.reqid).Nodup) ∧
    ∀ call ∈ record, call.Matched :=
  @gets_match [[shortVar false 0]] [(true, [shortVar true 5])] ⟨7, [0x70]⟩ ⟨8, [0x70]⟩ lateNet
    ⟨[], [.datagram true (shortResponse 7 5)]⟩ (by simp [shortVar]) (by decide +kernel)

end Snmp
end Apcupsd
