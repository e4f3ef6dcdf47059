import Apcupsd.Core.UpsInfo
import Apcupsd.Snmp.Engine
import Mathlib.Data.List.TakeWhile

/-!
# From variables to items

{lit}`SnmpLiteUpsDriver::update_cis`, over any map of items to OIDs and any function that
stores an item.

Main results:

- Theorem {lit}`updateLoop_eq`: the items that are passed on are those before the first
  variable that is not usable.
- Theorem {lit}`updateCis_exact_iff`: when they are the ones that are usable.
-/

namespace Apcupsd
namespace Snmp

open Asn

/-! ## The map of items -/

/-- {lit}`CiOidMap`: an item, its OID and type, and whether it changes. -/
structure CiOid where
  ci : Ci
  oid : List Arc
  type : Identifier
  dynamic : Bool
deriving DecidableEq

/-- {lit}`MibStrategy`, as far as updates use it. -/
structure MibStrategy (α : Type) where
  mib : List CiOid
  updateCi : Ci → Variable → α → Except Fault α

/-- The UPS has the item, and it is one of those that are to be updated. -/
def CiOid.asked (cap : Ci → Bool) (dynamic : Bool) (entry : CiOid) : Bool :=
  cap entry.ci && entry.dynamic == dynamic

/-- The variable that is queried for an item. -/
def CiOid.oidVar (entry : CiOid) : OidVar where
  oid := entry.oid
  data := ⟨{ Value.fresh with type := entry.type }, []⟩

/-- The variable is valid, and not an empty sequence. -/
def usable (data : Variable) : Bool :=
  data.valid && (data.type ≠ sequenceId || !data.seq.isEmpty)

section Update

variable {α : Type}

/-- The loop that correlates the results with the items: the iterator over the variables
moves on only when an item is passed on. -/
def updateLoop (updateCi : Ci → Variable → α → Except Fault α) (cap : Ci → Bool)
    (dynamic : Bool) : List CiOid → List OidVar → α → Except Fault α
  | [], _, ups => .ok ups
  | entry :: mib, iter, ups =>
      if entry.asked cap dynamic then
        match iter with
        | [] => .error .emptyList
        | var :: rest =>
            if usable var.data then
              (updateCi entry.ci var.data ups).bind (updateLoop updateCi cap dynamic mib rest)
            else updateLoop updateCi cap dynamic mib iter ups
      else updateLoop updateCi cap dynamic mib iter ups

/-- {lit}`SnmpLiteUpsDriver::update_cis`. -/
def updateCis {σ : Type} (perform : Perform σ) (fuel : ℕ) (strategy : MibStrategy α)
    (cap : Ci → Bool) (dynamic : Bool) (engine : Engine) (s : σ) (ups : α) :
    Except Fault (Bool × α × Engine × σ) :=
  match get perform fuel ((strategy.mib.filter (CiOid.asked cap dynamic)).map CiOid.oidVar)
    engine s with
  | .error fault => .error fault
  | .ok (false, _, after) => .ok (false, ups, after)
  | .ok (true, vars, after) =>
      (updateLoop strategy.updateCi cap dynamic strategy.mib vars ups).map
        fun ups => (true, ups, after)

/-! ## What is passed on -/

/-- An item with its own variable, for each variable that satisfies a condition. -/
def ciData (pairs : List (CiOid × OidVar)) : List (Ci × Variable) :=
  pairs.map fun pair => (pair.1.ci, pair.2.data)

/-- The items whose own variables are usable, each with the data of its variable. -/
def owed (entries : List CiOid) (vars : List OidVar) : List (Ci × Variable) :=
  ciData ((entries.zip vars).filter fun pair => usable pair.2.data)

/-- The items up to the first variable that is not usable. -/
def passed (entries : List CiOid) (vars : List OidVar) : List (Ci × Variable) :=
  ciData ((entries.zip vars).takeWhile fun pair => usable pair.2.data)

/-- Storing some items one after the other. -/
def updateAll (updateCi : Ci → Variable → α → Except Fault α) (items : List (Ci × Variable))
    (ups : α) : Except Fault α :=
  items.foldlM (fun ups item => updateCi item.1 item.2 ups) ups

theorem updateLoop_stuck {updateCi : Ci → Variable → α → Except Fault α} {cap : Ci → Bool}
    {dynamic : Bool} {var : OidVar} (hstuck : ¬ usable var.data) (mib : List CiOid)
    (rest : List OidVar) (ups : α) :
    updateLoop updateCi cap dynamic mib (var :: rest) ups = .ok ups := by
  induction mib with
  | nil => rfl
  | cons entry mib ih =>
      unfold updateLoop
      by_cases hasked : entry.asked cap dynamic <;> simp [hasked, hstuck, ih]

/-- The items that are passed on are those before the first variable that is not usable. -/
theorem updateLoop_eq (updateCi : Ci → Variable → α → Except Fault α) (cap : Ci → Bool)
    (dynamic : Bool) (mib : List CiOid) (vars : List OidVar) (ups : α)
    (hlen : vars.length = (mib.filter (CiOid.asked cap dynamic)).length) :
    updateLoop updateCi cap dynamic mib vars ups =
      updateAll updateCi (passed (mib.filter (CiOid.asked cap dynamic)) vars) ups := by
  induction mib generalizing vars ups with
  | nil => simp [updateLoop, passed, ciData, updateAll, pure, Except.pure]
  | cons entry mib ih =>
      unfold updateLoop
      by_cases hasked : entry.asked cap dynamic
      · rw [List.filter_cons_of_pos hasked] at hlen ⊢
        cases vars with
        | nil => simp at hlen
        | cons var vars =>
            simp only [List.length_cons, Nat.add_right_cancel_iff] at hlen
            by_cases husable : usable var.data
            · have htail : updateLoop updateCi cap dynamic mib vars =
                  updateAll updateCi (passed (mib.filter (CiOid.asked cap dynamic)) vars) :=
                funext fun ups => ih vars ups hlen
              simp only [hasked, if_true, husable, htail]
              simp [passed, ciData, updateAll, husable, bind]
              rfl
            · simp [hasked, husable, updateLoop_stuck husable, passed, ciData, updateAll, pure,
                Except.pure]
      · rw [List.filter_cons_of_neg hasked] at hlen ⊢
        simp only [hasked, Bool.false_eq_true, if_false]
        exact ih vars ups hlen

end Update

/-! ## When that is right -/

/-- The list of the items that are passed on, as something to store them in. -/
def recordCi (ci : Ci) (data : Variable) (items : List (Ci × Variable)) :
    Except Fault (List (Ci × Variable)) :=
  .ok (items ++ [(ci, data)])

theorem updateAll_recordCi (items items' : List (Ci × Variable)) :
    updateAll recordCi items items' = .ok (items' ++ items) := by
  induction items generalizing items' with
  | nil => simp [updateAll, pure, Except.pure]
  | cons item items ih =>
      have htail := ih (items' ++ [item])
      simp only [updateAll, List.append_assoc, List.cons_append, List.nil_append] at htail
      simpa [updateAll, recordCi, bind, Except.bind] using htail

/-- No usable variable comes after one that is not usable. -/
def NoGap (vars : List OidVar) : Prop :=
  vars.Pairwise fun earlier later => usable later.data → usable earlier.data

/-- What a filter keeps beyond the first refusal. -/
theorem filter_eq_takeWhile_append {β : Type} (p : β → Bool) (l : List β) :
    l.filter p = l.takeWhile p ++ (l.dropWhile p).filter p := by
  conv_lhs => rw [← @List.takeWhile_append_dropWhile β p l, List.filter_append]
  rw [List.filter_eq_self.mpr fun a ha => List.mem_takeWhile_imp ha]

theorem filter_dropWhile_eq_nil_iff {β : Type} (p : β → Bool) (l : List β) :
    (l.dropWhile p).filter p = [] ↔ l.Pairwise fun earlier later => p later → p earlier := by
  induction l with
  | nil => simp
  | cons a l ih =>
      rw [List.pairwise_cons]
      by_cases ha : p a
      · rw [List.dropWhile_cons_of_pos ha, ih]
        simp [ha]
      · rw [List.dropWhile_cons_of_neg ha, List.filter_cons_of_neg ha, List.filter_eq_nil_iff]
        constructor
        · intro hnone
          exact ⟨fun b hb hpb => absurd hpb (hnone b hb),
            List.pairwise_of_forall_mem_list fun b hb c hc hpc => absurd hpc (hnone c hc)⟩
        · intro hall b hb hpb
          exact ha (hall.1 b hb hpb)

theorem passed_eq_owed_iff {entries : List CiOid} {vars : List OidVar}
    (hlen : vars.length = entries.length) : passed entries vars = owed entries vars ↔
      NoGap vars := by
  have hzip : (entries.zip vars).map Prod.snd = vars := List.map_snd_zip hlen.le
  have hgap : NoGap vars ↔ (entries.zip vars).Pairwise fun earlier later =>
      usable later.2.data → usable earlier.2.data := by
    conv_lhs => rw [NoGap, ← hzip, List.pairwise_map]
  rw [hgap, ← filter_dropWhile_eq_nil_iff (fun pair : CiOid × OidVar => usable pair.2.data), passed,
    owed, filter_eq_takeWhile_append, ciData, ciData, List.map_append]
  simp

/-- A query answers for exactly the variables that were asked. -/
theorem length_of_get {σ : Type} {perform : Perform σ} {fuel : ℕ} {oids vars : List OidVar}
    {engine engine' : Engine} {s s' : σ} {ret : Bool}
    (hget : get perform fuel oids engine s = .ok (ret, vars, engine', s')) :
    vars.length = oids.length := by
  rcases get_ok hget with ⟨log, n, -, hfetched⟩
  exact hfetched.length_eq.symm

/-- After a query the items that are passed on are those that are owed exactly if no usable
variable comes after one that is not. -/
theorem updateCis_exact_iff {σ : Type} {perform : Perform σ} {fuel : ℕ} {mib : List CiOid}
    {cap : Ci → Bool} {dynamic : Bool} {engine engine' : Engine} {s s' : σ} {vars : List OidVar}
    (hget : get perform fuel ((mib.filter (CiOid.asked cap dynamic)).map CiOid.oidVar) engine s =
      .ok (true, vars, engine', s')) :
    updateCis perform fuel ⟨mib, recordCi⟩ cap dynamic engine s [] =
        .ok (true, owed (mib.filter (CiOid.asked cap dynamic)) vars, engine', s') ↔
      NoGap vars := by
  have hlen : vars.length = (mib.filter (CiOid.asked cap dynamic)).length := by
    simpa using length_of_get hget
  rw [← passed_eq_owed_iff hlen, updateCis, hget]
  simp only [updateLoop_eq recordCi cap dynamic mib vars [] hlen, updateAll_recordCi,
    List.nil_append, Except.map]
  simp

/-! ## Examples of runs -/

/-- Two numbers of the UPS. -/
def gapMib : List CiOid :=
  [⟨.vline, [1, 3, 6, 1], gaugeId, true⟩, ⟨.vout, [1, 3, 6, 3], gaugeId, true⟩]

/-- The agent does not have the first of them: it answers with the next OID that it has. -/
def gapNet : Net where
  sends := []
  events := [.datagram true
    [0x30, 0x29, 0x02, 0x01, 0x00, 0x04, 0x01, 0x70, 0xA2, 0x21, 0x02, 0x01, 0x07,
      0x02, 0x01, 0x00, 0x02, 0x01, 0x00, 0x30, 0x16,
      0x30, 0x09, 0x06, 0x04, 0x2B, 0x06, 0x02, 0x00, 0x02, 0x01, 0x01,
      0x30, 0x09, 0x06, 0x04, 0x2B, 0x06, 0x03, 0x00, 0x02, 0x01, 0x05]]

def gapVars : List OidVar :=
  [⟨[1, 3, 6, 1], ⟨⟨false, gaugeId, 0, 0, []⟩, []⟩⟩,
    ⟨[1, 3, 6, 3], ⟨⟨true, integerId, 5, 5, []⟩, []⟩⟩]

theorem updateCis_exact_iff_gap :
    updateCis perform (enoughFuel gapNet) ⟨gapMib, recordCi⟩ (fun _ => true) true ⟨7, [0x70]⟩
        gapNet [] = .ok (true, owed gapMib gapVars, ⟨8, [0x70]⟩, ⟨[], []⟩) ↔ NoGap gapVars :=
  @updateCis_exact_iff Net perform (enoughFuel gapNet) gapMib (fun _ => true) true ⟨7, [0x70]⟩
    ⟨8, [0x70]⟩ gapNet ⟨[], []⟩ gapVars (by decide +kernel)

/-- The output voltage has arrived, but the missing line voltage hides it. -/
theorem missingVariable_hides :
    get perform (enoughFuel gapNet) (gapMib.map CiOid.oidVar) ⟨7, [0x70]⟩ gapNet =
        .ok (true, gapVars, ⟨8, [0x70]⟩, ⟨[], []⟩) ∧
      owed gapMib gapVars = [(.vout, ⟨⟨true, integerId, 5, 5, []⟩, []⟩)] ∧
      updateCis perform (enoughFuel gapNet) ⟨gapMib, recordCi⟩ (fun _ => true) true ⟨7, [0x70]⟩
        gapNet [] = .ok (true, [], ⟨8, [0x70]⟩, ⟨[], []⟩) := by
  decide +kernel

end Snmp
end Apcupsd
