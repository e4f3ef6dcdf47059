import Apcupsd.Snmp.Message

/-!
# The SNMP engine

Requests, the wait for their responses and the queries of {lit}`SnmpEngine`.  A query is
written over any way to perform a request; the engine's own way is {lit}`perform`.

Main results:

- Theorem {lit}`Snmp.rspwait_ok`: what a wait returns.
- Theorem {lit}`Snmp.get_ok`: a query is a chain of requests, and what it stores comes
  from their responses.
- Theorem {lit}`Snmp.get_terminates`: a finite stream of datagrams ends every query.
-/

namespace Apcupsd
namespace Snmp

open Asn ByteCursor

/-! ## The network -/

/-- What a wait sees: a datagram, from the agent's address or from another, an interrupted
call, a failed one, or the time running out. -/
inductive Event where
  | datagram (fromAgent : Bool) (data : List UInt8)
  | again
  | broken
  | timeout
deriving DecidableEq

/-- Whether the next calls of {lit}`sendto` succeed, and what arrives. -/
structure Net where
  sends : List Bool
  events : List Event
deriving DecidableEq

/-- {lit}`SnmpEngine`, as far as requests depend on it. -/
structure Engine where
  reqid : BitVec 32
  community : List UInt8
deriving DecidableEq

/-- {lit}`_reqid++`. -/
def Engine.next (engine : Engine) : Engine := { engine with reqid := engine.reqid + 1 }

/-! ## One request -/

/-- The size of the buffers of {lit}`issue` and {lit}`rspwait`. -/
def bufferSize : ℕ := 8192

/-- The messages that a wait is for. -/
def wanted (trap : Bool) (reqid : BitVec 32) : Message → Bool
  | .trap msg => trap && msg.type = trapPdu
  | .vbList msg => !trap && msg.type = getRspPdu && msg.reqid = reqid - 1

/-- {lit}`SnmpEngine::rspwait`: the message, and what has not arrived yet. -/
def rspwait (trap : Bool) (reqid : BitVec 32) :
    List Event → Except Fault (Option Message × List Event)
  | [] => .ok (none, [])
  | .timeout :: rest => .ok (none, rest)
  | .broken :: rest => .ok (none, rest)
  | .again :: rest => rspwait trap reqid rest
  | .datagram fromAgent data :: rest =>
      if fromAgent then
        match demarshalMessage (data.take bufferSize) with
        | .error fault => .error fault
        | .ok none => rspwait trap reqid rest
        | .ok (some msg) =>
            if wanted trap reqid msg then .ok (some msg, rest) else rspwait trap reqid rest
      else rspwait trap reqid rest

/-- The request can be marshalled into the buffer. -/
def marshals (msg : VbListMessage) : Bool := (msg.marshal ⟨[], bufferSize⟩).1

/-- {lit}`Marshal` writes beyond the buffer. -/
@[irreducible]
def overruns (msg : VbListMessage) : Bool :=
  bufferSize < (msg.marshal ⟨[], bufferSize⟩).2.written.length

/-- A request is marshalled within the buffer. -/
def Issuable (msg : VbListMessage) : Prop :=
  marshals msg = true ∧ overruns msg = false

/-- {lit}`SnmpEngine::issue`. -/
def issue (msg : VbListMessage) (net : Net) : Except Fault (Bool × Net) :=
  if overruns msg then .error .overrun
  else if marshals msg then .ok (net.sends.headD true, { net with sends := net.sends.tail })
  else .ok (false, net)

/-- A way to perform a request. -/
abbrev Perform (σ : Type) :=
  Engine → VbListMessage → σ → Except Fault (Option VbListMessage × σ)

/-- The response of a request, unless it reports an error. -/
def accepted : Option Message → Option VbListMessage
  | some (.vbList rsp) => if rsp.errstatus ≠ 0 then none else some rsp
  | _ => none

/-- {lit}`SnmpEngine::perform`. -/
def perform : Perform Net := fun engine req net =>
  match issue req net with
  | .error fault => .error fault
  | .ok (false, net) => .ok (none, net)
  | .ok (true, net) =>
      match rspwait false engine.reqid net.events with
      | .error fault => .error fault
      | .ok (rsp, events) => .ok (accepted rsp, { net with events := events })

/-- A request that is issued waits for its response. -/
theorem perform_of_issuable {req : VbListMessage} (hissuable : Issuable req) (engine : Engine)
    (net : Net) (hsend : net.sends.headD true = true) :
    perform engine req net = (rspwait false engine.reqid net.events).map fun (rsp, events) =>
      (accepted rsp, ⟨net.sends.tail, events⟩) := by
  rcases hissuable with ⟨hmarshals, hfits⟩
  unfold perform issue
  rw [hfits, hmarshals, hsend]
  simp only [Bool.false_eq_true, if_false, if_true]
  cases rspwait false engine.reqid net.events <;> rfl

/-- A request that does not fit is a fault. -/
theorem perform_of_overruns {req : VbListMessage} (hover : overruns req = true) (engine : Engine)
    (net : Net) : perform engine req net = .error .overrun := by
  unfold perform issue
  rw [hover]
  rfl

/-- A request that cannot be marshalled has no response. -/
theorem perform_of_not_marshals {req : VbListMessage} (hmarshals : marshals req = false)
    (engine : Engine) (net : Net) :
    perform engine req net = .error .overrun ∨ perform engine req net = .ok (none, net) := by
  unfold perform issue
  rw [hmarshals]
  cases overruns req with
  | true => exact Or.inl rfl
  | false => exact Or.inr rfl

/-! ## Queries -/

/-- {lit}`OidVar`. -/
structure OidVar where
  oid : List Arc
  data : Variable
deriving DecidableEq

/-- {lit}`VbListMessage(Asn::GETNEXT_REQ_PDU, _community, _reqid)` with some bindings. -/
def getNextRequest (engine : Engine) (oids : List (List Arc)) : VbListMessage where
  type := getNextReqPdu
  community := engine.community
  reqid := engine.reqid
  errstatus := 0
  errindex := 0
  vblist := oids.map VarBind.request

/-- The variables that are fetched with a single request. -/
def scalars (oids : List OidVar) : List OidVar :=
  oids.filter fun var => var.data.type ≠ sequenceId

def OidVar.invalidate (var : OidVar) : OidVar :=
  { var with data := { var.data with valid := false } }

def OidVar.extract (var : OidVar) (binding : VarBind) : OidVar :=
  { var with data := { var.data with toValue := binding.extract var.data.toValue } }

/-- A binding is stored in the first variable that it lies under. -/
def store : List OidVar → VarBind → List OidVar
  | [], _ => []
  | var :: rest, binding =>
      if isChildOf binding.oid var.oid then var.extract binding :: rest
      else var :: store rest binding

/-- {lit}`seq.append(tmp); valid = true`. -/
def Variable.push (data : Variable) (element : Value) : Variable :=
  { data with seq := data.seq ++ [element], valid := true }

section Get

variable {σ : Type} (perform : Perform σ)

/-- The GETNEXT requests for one sequence, from the last OID that was returned on. -/
def walk (oid : List Arc) :
    ℕ → List Arc → Engine → Variable → σ → Except Fault (Engine × Variable × σ)
  | 0, _, _, _, _ => .error .outOfFuel
  | fuel + 1, nextoid, engine, data, s =>
      match perform engine.next (getNextRequest engine [nextoid]) s with
      | .error fault => .error fault
      | .ok (none, s) => .ok (engine.next, data, s)
      | .ok (some rspmsg, s) =>
          match rspmsg.vblist with
          | [] => .error .noBinding
          | result :: _ =>
              if isChildOf result.oid oid then
                walk oid fuel result.oid engine.next (data.push (result.extract .fresh)) s
              else .ok (engine.next, data, s)

/-- The loop over the sequences. -/
def getSequences (fuel : ℕ) :
    List OidVar → Engine → σ → Except Fault (List OidVar × Engine × σ)
  | [], engine, s => .ok ([], engine, s)
  | var :: rest, engine, s =>
      if var.data.type = sequenceId then
        match walk perform var.oid fuel var.oid engine var.data s with
        | .error fault => .error fault
        | .ok (engine, data, s) =>
            (getSequences fuel rest engine s).map fun (rest, after) =>
              ({ var with data := data } :: rest, after)
      else
        (getSequences fuel rest engine s).map fun (rest, after) => (var :: rest, after)

/-- {lit}`SnmpEngine::Get(alist<OidVar> &)`: the result, the variables and what is left. -/
def get (fuel : ℕ) (oids : List OidVar) (engine : Engine) (s : σ) :
    Except Fault (Bool × List OidVar × Engine × σ) :=
  let getreq := getNextRequest engine ((scalars oids).map OidVar.oid)
  let vars := oids.map OidVar.invalidate
  if getreq.vblist = [] then
    (getSequences perform fuel vars engine.next s).map fun after => (true, after)
  else
    match perform engine.next getreq s with
    | .error fault => .error fault
    | .ok (none, s) => .ok (false, vars, engine.next, s)
    | .ok (some rsp, s) =>
        if rsp.vblist.length ≠ getreq.vblist.length then .ok (false, vars, engine.next, s)
        else
          (getSequences perform fuel (rsp.vblist.foldl store vars) engine.next s).map
            fun after => (true, after)

end Get

/-! ## What a wait returns -/

/-- A wait takes events off the stream, and returns a wanted message of one of them. -/
theorem rspwait_ok {trap : Bool} {reqid : BitVec 32} {events rest : List Event}
    {found : Option Message} (hwait : rspwait trap reqid events = .ok (found, rest)) :
    ∃ arrived, events = arrived ++ rest ∧ ∀ msg, found = some msg →
      wanted trap reqid msg ∧ ∃ data, .datagram true data ∈ arrived ∧
        demarshalMessage (data.take bufferSize) = .ok (some msg) := by
  induction events with
  | nil =>
      simp [rspwait] at hwait
      exact ⟨[], by simp [hwait], by simp [← hwait.1]⟩
  | cons event events ih =>
      have hskip (hwait : rspwait trap reqid events = .ok (found, rest)) :
          ∃ arrived, event :: events = arrived ++ rest ∧ ∀ msg, found = some msg →
            wanted trap reqid msg ∧ ∃ data, .datagram true data ∈ arrived ∧
              demarshalMessage (data.take bufferSize) = .ok (some msg) := by
        rcases ih hwait with ⟨arrived, rfl, hfound⟩
        refine ⟨event :: arrived, rfl, fun msg hmsg => ?_⟩
        rcases hfound msg hmsg with ⟨hwanted, data, hdata, hdecode⟩
        exact ⟨hwanted, data, List.mem_cons_of_mem _ hdata, hdecode⟩
      cases event with
      | timeout =>
          simp [rspwait] at hwait
          exact ⟨[.timeout], by simp [hwait], by simp [← hwait.1]⟩
      | broken =>
          simp [rspwait] at hwait
          exact ⟨[.broken], by simp [hwait], by simp [← hwait.1]⟩
      | again => exact hskip hwait
      | datagram fromAgent data =>
          unfold rspwait at hwait
          by_cases hagent : fromAgent
          · rcases hdecode : demarshalMessage (data.take bufferSize) with fault | _ | msg
            · simp [hagent, hdecode] at hwait
            · simp [hagent, hdecode] at hwait
              exact hskip hwait
            · by_cases hwanted : wanted trap reqid msg
              · simp [hagent, hdecode, hwanted] at hwait
                refine ⟨[.datagram fromAgent data], by simp [hwait], fun found' hfound => ?_⟩
                rw [← hwait.1, Option.some.injEq] at hfound
                exact ⟨hfound ▸ hwanted, data, by simp [hagent], hfound ▸ hdecode⟩
              · simp [hagent, hdecode, hwanted] at hwait
                exact hskip hwait
          · simp [hagent] at hwait
            exact hskip hwait

/-- A response that a request can take: it answers that request, without an error, and arrived
from the agent. -/
structure Answers (req rsp : VbListMessage) (arrived : List Event) : Prop where
  type : rsp.type = getRspPdu
  reqid : rsp.reqid = req.reqid
  errstatus : rsp.errstatus = 0
  received : ∃ data, .datagram true data ∈ arrived ∧
    demarshalMessage (data.take bufferSize) = .ok (some (.vbList rsp))

theorem Answers.mono {req rsp : VbListMessage} {arrived arrived' : List Event}
    (hsubset : arrived ⊆ arrived') (hanswers : Answers req rsp arrived) :
    Answers req rsp arrived' := by
  rcases hanswers.received with ⟨data, hdata, hdecode⟩
  exact ⟨hanswers.type, hanswers.reqid, hanswers.errstatus, data, hsubset hdata, hdecode⟩

theorem accepted_eq_some {found : Option Message} {rsp : VbListMessage}
    (haccepted : accepted found = some rsp) :
    found = some (.vbList rsp) ∧ rsp.errstatus = 0 := by
  rcases found with _ | ⟨msg⟩ | msg
  · cases haccepted
  · by_cases herror : msg.errstatus ≠ 0
    · rw [accepted, if_pos herror] at haccepted
      cases haccepted
    · rw [accepted, if_neg herror, Option.some.injEq] at haccepted
      exact ⟨by rw [haccepted], haccepted ▸ not_not.mp herror⟩
  · cases haccepted

/-- A request takes events off the stream, and a response among them that answers it. -/
theorem perform_ok {engine : Engine} {req : VbListMessage} {net after : Net}
    {response : Option VbListMessage} (hreqid : req.reqid = engine.reqid)
    (hperform : perform engine.next req net = .ok (response, after)) :
    ∃ arrived, net.events = arrived ++ after.events ∧
      ∀ rsp, response = some rsp → Answers req rsp arrived := by
  unfold perform issue at hperform
  have hfits : overruns req = false := by
    cases hover : overruns req with
    | false => rfl
    | true => simp [hover] at hperform
  simp only [hfits, Bool.false_eq_true, if_false] at hperform
  by_cases hmarshals : marshals req
  · by_cases hsend : net.sends.headD true
    · simp only [hmarshals, if_true, hsend] at hperform
      rcases hwait : rspwait false engine.next.reqid net.events with fault | ⟨found, rest⟩
      · simp [hwait] at hperform
      · simp only [hwait, Except.ok.injEq, Prod.mk.injEq] at hperform
        rcases hperform with ⟨rfl, rfl⟩
        rcases rspwait_ok hwait with ⟨arrived, harrived, hfound⟩
        refine ⟨arrived, harrived, fun rsp hrsp => ?_⟩
        rcases accepted_eq_some hrsp with ⟨hmsg, herror⟩
        rcases hfound _ hmsg with ⟨hwanted, hreceived⟩
        simp only [wanted, Bool.not_false, Bool.true_and, Bool.and_eq_true,
          decide_eq_true_eq] at hwanted
        have hown : engine.next.reqid - 1 = req.reqid := by
          rw [hreqid]
          exact BitVec.add_sub_cancel _ _
        exact ⟨hwanted.1, hwanted.2.trans hown, herror, hreceived⟩
    · simp only [hmarshals, if_true, hsend, Except.ok.injEq, Prod.mk.injEq] at hperform
      exact ⟨[], by simp [← hperform.2], by simp [← hperform.1]⟩
  · simp only [hmarshals, Bool.false_eq_true, if_false, Except.ok.injEq,
      Prod.mk.injEq] at hperform
    exact ⟨[], by simp [← hperform.2], by simp [← hperform.1]⟩

/-! ## Chains of requests -/

/-- A request and what came of it. -/
structure Exchange where
  request : VbListMessage
  response : Option VbListMessage

section Chains

variable {σ : Type} {perform : Perform σ}

/-- Requests in a row, with as many request ids as have been taken. -/
inductive Exchanges (perform : Perform σ) :
    Engine → σ → List Exchange → ℕ → Engine → σ → Prop where
  | nil (engine : Engine) (s : σ) : Exchanges perform engine s [] 0 engine s
  | skip {engine engine' : Engine} {s s' : σ} {log : List Exchange} {n : ℕ}
      (hrest : Exchanges perform engine.next s log n engine' s') :
      Exchanges perform engine s log (n + 1) engine' s'
  | cons {engine engine' : Engine} {s middle s' : σ} {req : VbListMessage}
      {response : Option VbListMessage} {log : List Exchange} {n : ℕ}
      (hreqid : req.reqid = engine.reqid)
      (hperform : perform engine.next req s = .ok (response, middle))
      (hrest : Exchanges perform engine.next middle log n engine' s') :
      Exchanges perform engine s (⟨req, response⟩ :: log) (n + 1) engine' s'

theorem Exchanges.append {engine engine' engine'' : Engine} {s s' s'' : σ}
    {log log' : List Exchange} {n n' : ℕ} (hfirst : Exchanges perform engine s log n engine' s')
    (hnext : Exchanges perform engine' s' log' n' engine'' s'') :
    Exchanges perform engine s (log ++ log') (n + n') engine'' s'' := by
  induction hfirst with
  | nil engine s => simpa using hnext
  | skip _ ih =>
      rw [Nat.add_right_comm]
      exact .skip (ih hnext)
  | cons hreqid hperform _ ih =>
      rw [Nat.add_right_comm]
      exact .cons hreqid hperform (ih hnext)

/-- The community stays the same. -/
theorem exchanges_community {engine engine' : Engine} {s s' : σ} {log : List Exchange} {n : ℕ}
    (hlog : Exchanges perform engine s log n engine' s') :
    engine'.community = engine.community := by
  induction hlog with
  | nil engine s => rfl
  | skip _ ih => exact ih
  | cons _ _ _ ih => exact ih

/-- A binding comes from the response of a request. -/
def FromResponse (log : List Exchange) (binding : VarBind) : Prop :=
  ∃ exchange ∈ log, ∃ rsp, exchange.response = some rsp ∧ binding ∈ rsp.vblist

/-- Bindings of responses that lie under an OID. -/
def TakenFrom (log : List Exchange) (oid : List Arc) (bindings : List VarBind) : Prop :=
  ∀ binding ∈ bindings, isChildOf binding.oid oid ∧ FromResponse log binding

theorem FromResponse.mono {log log' : List Exchange} {binding : VarBind}
    (hlog : log ⊆ log') (hfrom : FromResponse log binding) : FromResponse log' binding := by
  rcases hfrom with ⟨exchange, hexchange, hrsp⟩
  exact ⟨exchange, hlog hexchange, hrsp⟩

theorem TakenFrom.mono {log log' : List Exchange} {oid : List Arc} {bindings : List VarBind}
    (hlog : log ⊆ log') (htaken : TakenFrom log oid bindings) : TakenFrom log' oid bindings :=
  fun binding hbinding => ⟨(htaken binding hbinding).1, (htaken binding hbinding).2.mono hlog⟩

/-! ## What is stored -/

/-- The elements that a walk appends. -/
def Variable.pushAll (data : Variable) (walked : List VarBind) : Variable :=
  walked.foldl (fun data binding => data.push (binding.extract .fresh)) data

/-- A walk appends bindings of its responses that lie under its OID. -/
theorem walk_ok {oid : List Arc} {fuel : ℕ} {nextoid : List Arc} {engine engine' : Engine}
    {data data' : Variable} {s s' : σ}
    (hwalk : walk perform oid fuel nextoid engine data s = .ok (engine', data', s')) :
    ∃ log n walked, Exchanges perform engine s log n engine' s' ∧ data' = data.pushAll walked ∧
      TakenFrom log oid walked := by
  induction fuel generalizing nextoid engine data s with
  | zero => cases hwalk
  | succ fuel ih =>
      unfold walk at hwalk
      rcases hperform : perform engine.next (getNextRequest engine [nextoid]) s with
        fault | ⟨_ | rspmsg, middle⟩
      · simp [hperform] at hwalk
      · simp only [hperform, Except.ok.injEq, Prod.mk.injEq] at hwalk
        rcases hwalk with ⟨rfl, rfl, rfl⟩
        exact ⟨_, _, [], .cons rfl hperform (.nil _ _), rfl, by simp [TakenFrom]⟩
      · rcases hbindings : rspmsg.vblist with _ | ⟨result, rest⟩
        · simp [hperform, hbindings] at hwalk
        · simp only [hperform, hbindings] at hwalk
          by_cases hchild : isChildOf result.oid oid
          · rw [if_pos hchild] at hwalk
            rcases ih hwalk with ⟨log, n, walked, hlog, rfl, htaken⟩
            refine ⟨_, _, result :: walked, .cons rfl hperform hlog, rfl, ?_⟩
            intro binding hbinding
            rcases List.mem_cons.mp hbinding with rfl | hlater
            · exact ⟨hchild, _, List.mem_cons_self, rspmsg, rfl, by simp [hbindings]⟩
            · exact htaken.mono (List.subset_cons_self _ _) binding hlater
          · simp only [if_neg hchild, Except.ok.injEq, Prod.mk.injEq] at hwalk
            rcases hwalk with ⟨rfl, rfl, rfl⟩
            exact ⟨_, _, [], .cons rfl hperform (.nil _ _), rfl, by simp [TakenFrom]⟩

/-- What a query makes of a variable: bindings are extracted into it, and then others are
appended. -/
def OidVar.result (var : OidVar) (direct walked : List VarBind) : OidVar :=
  { var with data := (direct.foldl OidVar.extract var).data.pushAll walked }

/-- Every sequence among the variables gets what its walk appends. -/
theorem getSequences_ok {fuel : ℕ} {vars vars' : List OidVar} {engine engine' : Engine} {s s' : σ}
    (hget : getSequences perform fuel vars engine s = .ok (vars', engine', s')) :
    ∃ log n, Exchanges perform engine s log n engine' s' ∧
      List.Forall₂ (fun var after => ∃ walked, after = var.result [] walked ∧
        TakenFrom log var.oid walked) vars vars' := by
  induction vars generalizing vars' engine s with
  | nil =>
      simp only [getSequences, Except.ok.injEq, Prod.mk.injEq] at hget
      rcases hget with ⟨rfl, rfl, rfl⟩
      exact ⟨[], 0, .nil _ _, .nil⟩
  | cons var vars ih =>
      unfold getSequences at hget
      by_cases hsequence : var.data.type = sequenceId
      · rw [if_pos hsequence] at hget
        rcases hwalk : walk perform var.oid fuel var.oid engine var.data s with
          fault | ⟨between, data, middle⟩
        · simp [hwalk] at hget
        · rcases hrest : getSequences perform fuel vars between middle with
            fault | ⟨tail, after⟩
          · simp [hwalk, hrest, Except.map] at hget
          · simp only [hwalk, hrest, Except.map, Except.ok.injEq, Prod.mk.injEq] at hget
            rcases hget with ⟨rfl, rfl⟩
            rcases walk_ok hwalk with ⟨log, n, walked, hlog, hdata, htaken⟩
            rcases ih hrest with ⟨log', n', hlog', htail⟩
            refine ⟨log ++ log', n + n', hlog.append hlog', .cons ⟨walked, ?_, ?_⟩ ?_⟩
            · rw [hdata]
              rfl
            · exact htaken.mono (List.subset_append_left _ _)
            · refine htail.imp fun var after ⟨walked, hafter, htaken⟩ => ⟨walked, hafter, ?_⟩
              exact htaken.mono (List.subset_append_right _ _)
      · rw [if_neg hsequence] at hget
        rcases hrest : getSequences perform fuel vars engine s with fault | ⟨tail, after⟩
        · simp [hrest, Except.map] at hget
        · simp only [hrest, Except.map, Except.ok.injEq, Prod.mk.injEq] at hget
          rcases hget with ⟨rfl, rfl⟩
          rcases ih hrest with ⟨log, n, hlog, htail⟩
          exact ⟨log, n, hlog, .cons ⟨[], rfl, by simp [TakenFrom]⟩ htail⟩

/-- Some bindings that lie under a variable's OID have been extracted into it. -/
def Stored (bindings : List VarBind) (var after : OidVar) : Prop :=
  ∃ direct : List VarBind, after = direct.foldl OidVar.extract var ∧
    ∀ binding ∈ direct, isChildOf binding.oid var.oid ∧ binding ∈ bindings

theorem oid_foldl_extract (var : OidVar) (direct : List VarBind) :
    (direct.foldl OidVar.extract var).oid = var.oid := by
  induction direct generalizing var with
  | nil => rfl
  | cons binding direct ih => exact ih _

theorem Stored.refl (bindings : List VarBind) (var : OidVar) : Stored bindings var var :=
  ⟨[], rfl, by simp⟩

theorem Stored.trans {bindings : List VarBind} {first second third : OidVar}
    (hfirst : Stored bindings first second) (hsecond : Stored bindings second third) :
    Stored bindings first third := by
  rcases hfirst with ⟨direct, rfl, hdirect⟩
  rcases hsecond with ⟨direct', rfl, hdirect'⟩
  rw [oid_foldl_extract] at hdirect'
  refine ⟨direct ++ direct', by rw [List.foldl_append], fun binding hbinding => ?_⟩
  rcases List.mem_append.mp hbinding with hmem | hmem
  · exact hdirect binding hmem
  · exact hdirect' binding hmem

theorem forall₂_comp {α β γ : Type} {R : α → β → Prop} {S : β → γ → Prop} {T : α → γ → Prop}
    (hcomp : ∀ a b c, R a b → S b c → T a c) {as : List α} {bs : List β} {cs : List γ}
    (hfirst : List.Forall₂ R as bs) (hsecond : List.Forall₂ S bs cs) : List.Forall₂ T as cs := by
  induction hfirst generalizing cs with
  | nil =>
      cases hsecond
      exact .nil
  | cons hhead _ ih =>
      cases hsecond with
      | cons hhead' htail' => exact .cons (hcomp _ _ _ hhead hhead') (ih htail')

/-- A binding is stored in one variable at most, under whose OID it lies. -/
theorem store_stored {bindings : List VarBind} {binding : VarBind} (hmem : binding ∈ bindings)
    (vars : List OidVar) : List.Forall₂ (Stored bindings) vars (store vars binding) := by
  induction vars with
  | nil => exact .nil
  | cons var vars ih =>
      unfold store
      by_cases hchild : isChildOf binding.oid var.oid
      · rw [if_pos hchild]
        exact .cons ⟨[binding], rfl, by simp [hchild, hmem]⟩
          (List.forall₂_same.mpr fun var _ => Stored.refl _ _)
      · rw [if_neg hchild]
        exact .cons (Stored.refl _ _) ih

/-- The bindings of a response are stored under their variables, in any order. -/
theorem foldl_store_stored {bindings part : List VarBind} (hpart : part ⊆ bindings)
    (vars : List OidVar) : List.Forall₂ (Stored bindings) vars (part.foldl store vars) := by
  induction part generalizing vars with
  | nil => exact List.forall₂_same.mpr fun var _ => Stored.refl _ _
  | cons binding part ih =>
      have hhead := store_stored (hpart List.mem_cons_self) vars
      have htail := ih (fun b hb => hpart (List.mem_cons_of_mem _ hb)) (store vars binding)
      exact forall₂_comp (fun _ _ _ hab hbc => hab.trans hbc) hhead htail

/-- What a query has made of a variable, from the responses of its requests. -/
def Fetched (log : List Exchange) (var after : OidVar) : Prop :=
  ∃ direct walked, after = var.invalidate.result direct walked ∧
    TakenFrom log var.oid direct ∧ TakenFrom log var.oid walked

/-- Bindings that are stored and others that are appended make up what a variable has
fetched. -/
theorem fetched_of_stored {bindings : List VarBind} {log : List Exchange}
    {var middle after : OidVar} (hfrom : ∀ binding ∈ bindings, FromResponse log binding)
    (hstored : Stored bindings var.invalidate middle)
    (hwalked : ∃ walked, after = middle.result [] walked ∧ TakenFrom log middle.oid walked) :
    Fetched log var after := by
  rcases hstored with ⟨direct, rfl, hdirect⟩
  rcases hwalked with ⟨walked, rfl, htaken⟩
  have hoid : (direct.foldl OidVar.extract var.invalidate).oid = var.oid := oid_foldl_extract _ _
  refine ⟨direct, walked, ?_, fun binding hbinding => ?_, ?_⟩
  · rw [OidVar.result, OidVar.result, hoid]
    rfl
  · exact ⟨(hdirect binding hbinding).1, hfrom binding (hdirect binding hbinding).2⟩
  · rwa [hoid] at htaken

/-- A query is a chain of requests, and what it stores comes from their responses. -/
theorem get_ok {fuel : ℕ} {oids oids' : List OidVar} {engine engine' : Engine} {s s' : σ}
    {ret : Bool} (hget : get perform fuel oids engine s = .ok (ret, oids', engine', s')) :
    ∃ log n, Exchanges perform engine s log n engine' s' ∧
      List.Forall₂ (Fetched log) oids oids' := by
  unfold get at hget
  have hinvalid (bindings : List VarBind) :
      List.Forall₂ (fun var after => Stored bindings var.invalidate after) oids
        (oids.map OidVar.invalidate) :=
    List.forall₂_map_right_iff.mpr (List.forall₂_same.mpr fun var _ => Stored.refl _ _)
  have hunwalked (log : List Exchange) : List.Forall₂ (Fetched log) oids
      (oids.map OidVar.invalidate) :=
    (hinvalid []).imp fun var after hstored => fetched_of_stored (by simp) hstored
      ⟨[], rfl, by simp [TakenFrom]⟩
  by_cases hnone : (getNextRequest engine ((scalars oids).map OidVar.oid)).vblist = []
  · simp only [hnone, if_true] at hget
    rcases hrest : getSequences perform fuel (oids.map OidVar.invalidate) engine.next s with
      fault | ⟨vars, after⟩
    · simp [hrest, Except.map] at hget
    · simp only [hrest, Except.map, Except.ok.injEq, Prod.mk.injEq] at hget
      rcases hget with ⟨-, rfl, rfl⟩
      rcases getSequences_ok hrest with ⟨log, n, hlog, hwalked⟩
      refine ⟨log, n + 1, .skip hlog, ?_⟩
      refine forall₂_comp (fun var middle after hstored hwalked => ?_) (hinvalid []) hwalked
      exact fetched_of_stored (by simp) hstored hwalked
  · simp only [hnone, if_false] at hget
    rcases hperform : perform engine.next
      (getNextRequest engine ((scalars oids).map OidVar.oid)) s with fault | ⟨_ | rsp, middle⟩
    · simp [hperform] at hget
    · simp only [hperform, Except.ok.injEq, Prod.mk.injEq] at hget
      rcases hget with ⟨-, rfl, rfl, rfl⟩
      exact ⟨_, _, .cons rfl hperform (.nil _ _), hunwalked _⟩
    · simp only [hperform] at hget
      split_ifs at hget with hsize
      · simp only [Except.ok.injEq, Prod.mk.injEq] at hget
        rcases hget with ⟨-, rfl, rfl, rfl⟩
        exact ⟨_, _, .cons rfl hperform (.nil _ _), hunwalked _⟩
      · rcases hrest : getSequences perform fuel
          (rsp.vblist.foldl store (oids.map OidVar.invalidate)) engine.next middle with
          fault | ⟨vars, after⟩
        · simp [hrest, Except.map] at hget
        · simp only [hrest, Except.map, Except.ok.injEq, Prod.mk.injEq] at hget
          rcases hget with ⟨-, rfl, rfl⟩
          rcases getSequences_ok hrest with ⟨log, n, hlog, hwalked⟩
          refine ⟨_, _, .cons rfl hperform hlog, ?_⟩
          have hstored := forall₂_comp (fun _ _ _ hab hbc => hab.trans hbc)
            (hinvalid rsp.vblist) (foldl_store_stored (List.Subset.refl rsp.vblist) _)
          refine forall₂_comp (fun var between after hstored hwalked => ?_) hstored hwalked
          refine fetched_of_stored (fun binding hbinding => ?_) hstored ?_
          · exact ⟨_, List.mem_cons_self, rsp, rfl, hbinding⟩
          · rcases hwalked with ⟨walked, hafter, htaken⟩
            exact ⟨walked, hafter, htaken.mono (List.subset_cons_self _ _)⟩

end Chains

/-! ## The end of a query -/

theorem rspwait_error {trap : Bool} {reqid : BitVec 32} {events : List Event} {fault : Fault}
    (hwait : rspwait trap reqid events = .error fault) :
    fault = .unsetSize ∧ ∃ data, .datagram true data ∈ events ∧
      demarshalMessage (data.take bufferSize) = .error .unsetSize := by
  induction events with
  | nil => cases hwait
  | cons event events ih =>
      have hskip (hwait : rspwait trap reqid events = .error fault) :
          fault = .unsetSize ∧ ∃ data, .datagram true data ∈ event :: events ∧
            demarshalMessage (data.take bufferSize) = .error .unsetSize := by
        rcases ih hwait with ⟨hfault, data, hdata, hdecode⟩
        exact ⟨hfault, data, List.mem_cons_of_mem _ hdata, hdecode⟩
      cases event with
      | timeout => cases hwait
      | broken => cases hwait
      | again => exact hskip hwait
      | datagram fromAgent data =>
          unfold rspwait at hwait
          by_cases hagent : fromAgent
          · rcases hdecode : demarshalMessage (data.take bufferSize) with fault' | _ | msg
            · simp only [hagent, if_true, hdecode, Except.error.injEq] at hwait
              subst hwait
              have hfault := (demarshalMessage_eq_error_iff.mp hdecode).1
              exact ⟨hfault, data, by simp [hagent], hfault ▸ hdecode⟩
            · simp only [hagent, if_true, hdecode] at hwait
              exact hskip hwait
            · simp only [hagent, if_true, hdecode] at hwait
              split_ifs at hwait
              exact hskip hwait
          · simp only [hagent, Bool.false_eq_true, if_false] at hwait
            exact hskip hwait

/-- The faults of a request are its own length and a datagram that arrives. -/
theorem perform_error {engine : Engine} {req : VbListMessage} {net : Net} {fault : Fault}
    (hperform : perform engine req net = .error fault) :
    fault = .overrun ∧ overruns req = true ∨
      fault = .unsetSize ∧ ∃ data, .datagram true data ∈ net.events ∧
        demarshalMessage (data.take bufferSize) = .error .unsetSize := by
  unfold perform issue at hperform
  by_cases hover : overruns req
  · simp only [hover, if_true, Except.error.injEq] at hperform
    exact Or.inl ⟨hperform.symm, hover⟩
  right
  simp only [hover, Bool.false_eq_true, if_false] at hperform
  by_cases hmarshals : marshals req
  · by_cases hsend : net.sends.headD true
    · simp only [hmarshals, if_true, hsend] at hperform
      rcases hwait : rspwait false engine.reqid net.events with fault' | ⟨found, rest⟩
      · simp only [hwait, Except.error.injEq] at hperform
        exact hperform ▸ rspwait_error hwait
      · simp [hwait] at hperform
    · simp only [hmarshals, if_true, hsend, reduceCtorEq] at hperform
  · simp only [hmarshals, Bool.false_eq_true, if_false, reduceCtorEq] at hperform

theorem perform_ne_outOfFuel {engine : Engine} {req : VbListMessage} {net : Net} :
    perform engine req net ≠ .error .outOfFuel := by
  intro hperform
  rcases perform_error hperform with ⟨hfault, -⟩ | ⟨hfault, -⟩
  · cases hfault
  · cases hfault

/-- A finite stream of events bounds the turns of a walk. -/
theorem walk_terminates {oid : List Arc} {fuel : ℕ} {nextoid : List Arc} {engine : Engine}
    {data : Variable} {net : Net} (hfuel : net.events.length < fuel) :
    walk perform oid fuel nextoid engine data net ≠ .error .outOfFuel := by
  induction fuel generalizing nextoid engine data net with
  | zero => omega
  | succ fuel ih =>
      unfold walk
      rcases hperform : perform engine.next (getNextRequest engine [nextoid]) net with
        fault | ⟨_ | rspmsg, middle⟩
      · have hends := hperform ▸ @perform_ne_outOfFuel engine.next _ net
        simpa using hends
      · simp
      · rcases perform_ok rfl hperform with ⟨arrived, harrived, hanswers⟩
        have hshorter : middle.events.length < net.events.length := by
          rcases (hanswers rspmsg rfl).received with ⟨data, hdata, -⟩
          have hpos := List.length_pos_of_mem hdata
          rw [harrived, List.length_append]
          omega
        dsimp only
        rcases hbindings : rspmsg.vblist with _ | ⟨result, rest⟩
        · simp
        · by_cases hchild : isChildOf result.oid oid
          · simp only [if_pos hchild]
            exact ih (by omega)
          · simp [hchild]

/-- Requests take events off the stream. -/
theorem exchanges_events {log : List Exchange} {n : ℕ} {engine engine' : Engine} {net net' : Net}
    (hlog : Exchanges perform engine net log n engine' net') :
    ∃ arrived, net.events = arrived ++ net'.events ∧
      ∀ exchange ∈ log, ∀ rsp, exchange.response = some rsp →
        Answers exchange.request rsp arrived := by
  induction hlog with
  | nil engine net => exact ⟨[], rfl, by simp⟩
  | skip _ ih => exact ih
  | cons hreqid hperform _ ih =>
      rcases perform_ok hreqid hperform with ⟨first, hfirst, hanswers⟩
      rcases ih with ⟨later, hlater, hall⟩
      refine ⟨first ++ later, by rw [hfirst, hlater, List.append_assoc], ?_⟩
      intro exchange hexchange rsp hrsp
      rcases List.mem_cons.mp hexchange with rfl | htail
      · exact (hanswers rsp hrsp).mono (List.subset_append_left _ _)
      · exact (hall exchange htail rsp hrsp).mono (List.subset_append_right _ _)

theorem getSequences_terminates {fuel : ℕ} {vars : List OidVar} {engine : Engine} {net : Net}
    (hfuel : net.events.length < fuel) :
    getSequences perform fuel vars engine net ≠ .error .outOfFuel := by
  induction vars generalizing engine net with
  | nil => simp [getSequences]
  | cons var vars ih =>
      unfold getSequences
      by_cases hsequence : var.data.type = sequenceId
      · rw [if_pos hsequence]
        rcases hwalk : walk perform var.oid fuel var.oid engine var.data net with
          fault | ⟨between, data, middle⟩
        · have hends := @walk_terminates var.oid fuel var.oid engine var.data net hfuel
          rw [hwalk] at hends
          simpa using hends
        · rcases walk_ok hwalk with ⟨log, n, walked, hlog, -, -⟩
          rcases exchanges_events hlog with ⟨arrived, harrived, -⟩
          have hends := @ih between middle (by
            rw [harrived, List.length_append] at hfuel
            omega)
          dsimp only
          cases hrest : getSequences perform fuel vars between middle with
          | error fault =>
              rw [hrest] at hends
              simpa [Except.map] using hends
          | ok after => simp [Except.map]
      · rw [if_neg hsequence]
        have hends := @ih engine net hfuel
        cases hrest : getSequences perform fuel vars engine net with
        | error fault =>
            rw [hrest] at hends
            simpa [Except.map] using hends
        | ok after => simp [Except.map]

/-- As many turns as a stream of events can need. -/
def enoughFuel (net : Net) : ℕ := net.events.length + 1

/-- A finite stream of datagrams ends every query. -/
theorem get_terminates (oids : List OidVar) (engine : Engine) (net : Net) :
    get perform (enoughFuel net) oids engine net ≠ .error .outOfFuel := by
  have hrest {vars : List OidVar} {engine' : Engine} {net' : Net}
      (hevents : net'.events.length < enoughFuel net) :
      (getSequences perform (enoughFuel net) vars engine' net').map (fun after => (true, after)) ≠
        .error .outOfFuel := by
    have hends := @getSequences_terminates (enoughFuel net) vars engine' net' hevents
    cases hsequences : getSequences perform (enoughFuel net) vars engine' net' with
    | error fault =>
        rw [hsequences] at hends
        simpa [Except.map] using hends
    | ok after => simp [Except.map]
  unfold get
  dsimp only
  split_ifs
  · exact hrest (Nat.lt_succ_self _)
  · rcases hperform : perform engine.next
      (getNextRequest engine ((scalars oids).map OidVar.oid)) net with fault | ⟨_ | rsp, middle⟩
    · have hends := hperform ▸ @perform_ne_outOfFuel engine.next _ net
      simpa using hends
    · simp
    · rcases perform_ok rfl hperform with ⟨arrived, harrived, -⟩
      dsimp only
      split_ifs
      · simp
      · refine hrest ?_
        rw [enoughFuel, harrived, List.length_append]
        omega

end Snmp
end Apcupsd
