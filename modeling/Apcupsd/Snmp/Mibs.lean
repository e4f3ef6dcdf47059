import Apcupsd.Core.ReportFields
import Apcupsd.Snmp.Oids

/-!
# Storing the items of the MIBs

The update functions of {lit}`apc-mib.cpp`, {lit}`rfc1628-mib.cpp` and {lit}`mge-mib.cpp`, which
store the data of a variable in the record.

Main results:

- Definitions {lit}`apcUpdateCi`, {lit}`rfc1628UpdateCi` and {lit}`mgeUpdateCi`: the functions.
- Theorem {lit}`updateCi_fails_iff`: the data that they cannot store.
- Theorem {lit}`wellFormed_mib`: what holds of the maps.
-/

namespace Apcupsd
namespace Snmp

open Asn BitFlags

/-! ## The record -/

/-- The record with the alarm timers that two of the functions keep for themselves. -/
structure SnmpUps extends UpsInfo, ReportFields where
  apcAlarmtimer : BitVec 32
  mgeAlarmtimer : BitVec 32

/-- Apply a status method of the record. -/
def SnmpUps.mapUps (ups : SnmpUps) (change : UpsInfo → UpsInfo) : SnmpUps :=
  { ups with toUpsInfo := change ups.toUpsInfo }

/-- An {lit}`unsigned int` as a {lit}`double`. -/
def real (n : BitVec 32) : CDouble := .finite n.toNat

/-- {lit}`((double)n) / 10`. -/
def tenth (n : BitVec 32) : CDouble := .nearest (n.toNat / 10)

/-- {lit}`strlcpy` into an array of the given size. -/
def strlcpy (str : List UInt8) (size : ℕ) : List Char :=
  (str.take (size - 1)).map fun byte => Char.ofNat byte.toNat

/-! ## The PowerNet MIB -/

/-- {lit}`MAX_SANE_ITEMP`. -/
def maxSaneItemp : ℕ := 200

def apcTestresult (n : BitVec 32) : SelfTestResult :=
  match n.toNat with
  | 1 => .testPassed
  | 2 | 3 => .testFailed
  | 4 => .testInprogress
  | _ => .testUnknown

def apcBeepstate (ups : SnmpUps) (n : BitVec 32) : List Char :=
  match n.toNat with
  | 1 => if ups.upsCap .alarmTimer ∧ ups.apcAlarmtimer.toNat < 30 then ['0'] else ['T']
  | 2 => ['L']
  | 3 => ['N']
  | _ => ['T']

/-- Only one of the flags will be raised. -/
def apcStatus (n : BitVec 32) (ups : UpsInfo) : UpsInfo :=
  let cleared := ((ups.clearOnline.clearOnbatt).clear upsBoost).clear upsTrim
  match n.toNat with
  | 2 => cleared.setOnline
  | 3 => cleared.setOnbatt
  | 4 => cleared.setOnline.setBoost
  | 12 => cleared.setOnline.setTrim
  | _ => cleared

def apcLastxfer (n : BitVec 32) : LastXferCause :=
  match n.toNat with
  | 1 => .xferNone
  | 2 => .xferOvervolt
  | 3 | 4 => .xferUndervolt
  | 5 | 6 | 7 | 8 => .xferNotchspike
  | 9 => .xferSelftest
  | 10 => .xferRipple
  | _ => .xferUnknown

def apcSensitivity (n : BitVec 32) : List Char :=
  match n.toNat with
  | 1 => "Auto".toList
  | 2 => "Low".toList
  | 3 => "Medium".toList
  | 4 => "High".toList
  | _ => "Unknown".toList

def apcSelftest (n : BitVec 32) : List Char :=
  match n.toNat with
  | 2 => "336".toList
  | 3 => "168".toList
  | 4 => "ON".toList
  | _ => "OFF".toList

/-- {lit}`apc_update_ci`.  The overload flag is the ninth character of a text; the index of
{lit}`astring` aborts if there is none. -/
def apcUpdateCi (ci : Ci) (data : Variable) (ups : SnmpUps) : Except Fault SnmpUps :=
  match ci with
  | .vline => .ok { ups with lineVoltage := real data.u32 }
  | .vout => .ok { ups with outputVoltage := real data.u32 }
  | .vbatt => .ok { ups with battVoltage := real data.u32 }
  | .freq => .ok { ups with lineFreq := real data.u32 }
  | .load => .ok { ups with upsLoad := real data.u32 }
  | .itemp =>
      .ok (if data.u32.toNat ≤ maxSaneItemp then { ups with upsTemp := real data.u32 } else ups)
  | .atemp => .ok { ups with ambtemp := real data.u32 }
  | .humid => .ok { ups with humidity := real data.u32 }
  | .nombattv => .ok { ups with nombattv := real data.u32 }
  | .nomoutv => .ok { ups with nomOutputVoltage := data.u32.toInt }
  | .nominv => .ok { ups with nomInputVoltage := data.u32.toInt }
  | .nompower => .ok { ups with nomPower := data.u32.toInt }
  | .ltrans => .ok { ups with lotrans := data.u32.toInt }
  | .htrans => .ok { ups with hitrans := data.u32.toInt }
  | .dwake => .ok { ups with dwake := data.u32.toInt }
  | .stStat => .ok { ups with testresult := apcTestresult data.u32 }
  | .alarmTimer => .ok { ups with apcAlarmtimer := data.u32 }
  | .dalarm => .ok { ups with beepstate := apcBeepstate ups data.u32 }
  | .upsmodel => .ok { ups with upsmodel := strlcpy data.str 256 }
  | .serno => .ok { ups with serial := strlcpy data.str 32 }
  | .mandat => .ok { ups with birth := strlcpy data.str 20 }
  | .battlev => .ok { ups with battChg := real data.u32 }
  | .runtim => .ok { ups with timeLeft := .finite (data.u32.toNat / 100 / 60 : ℕ) }
  | .battdat => .ok { ups with battdat := strlcpy data.str 20 }
  | .iden => .ok { ups with upsname := strlcpy data.str 100 }
  | .status => .ok (ups.mapUps (apcStatus data.u32))
  | .needReplacement =>
      .ok (ups.mapUps fun ups => ups.setVal upsReplacebatt (data.u32.toNat = 2))
  | .lowBattery => .ok (ups.mapUps fun ups => ups.setVal upsBattlow (data.u32.toNat = 3))
  | .calibration => .ok (ups.mapUps fun ups => ups.setVal upsCalibration (data.u32.toNat = 3))
  | .overload =>
      match data.str[8]? with
      | none => .error .badIndex
      | some flag => .ok (ups.mapUps fun ups => ups.setVal upsOverload (flag = 0x31))
  | .dshutd => .ok { ups with dshutd := (data.u32 / 100).toInt }
  | .retpct => .ok { ups with rtnpct := data.u32.toInt }
  | .whyBatt => .ok { ups with lastxfer := apcLastxfer data.u32 }
  | .sens => .ok { ups with sensitivity := apcSensitivity data.u32 }
  | .revno => .ok { ups with firmrev := strlcpy data.str 20 }
  | .extbatts => .ok { ups with extbatts := data.u32.toInt }
  | .badbatts => .ok { ups with badbatts := data.u32.toInt }
  | .dlbatt => .ok { ups with dlowbatt := (data.u32 / 100 / 60).toInt }
  | .stesti => .ok { ups with selftest := apcSelftest data.u32 }
  | .vmin => .ok { ups with lineMin := real data.u32 }
  | .vmax => .ok { ups with lineMax := real data.u32 }
  | _ => .ok ups

/-! ## The MIB of RFC 1628 -/

/-- {lit}`seq.begin()->u32`. -/
def firstU32 (data : Variable) : Except Fault (BitVec 32) :=
  match data.seq with
  | [] => .error .emptyList
  | element :: _ => .ok element.u32

/-- The mean of the elements, added up in a {lit}`double`; that of none is not a number. -/
def meanU32 (data : Variable) : CDouble :=
  let sum := data.seq.foldl
    (fun sum element => FloatFormat.binary64.round (sum + (element.u32.toNat : ℚ))) 0
  if data.seq = [] then .nan else .nearest (sum / data.seq.length)

def rfc1628Testresult (n : BitVec 32) : SelfTestResult :=
  match n.toNat with
  | 1 => .testPassed
  | 2 => .testWarning
  | 3 => .testFailed
  | 5 => .testInprogress
  | 4 | 6 => .testNone
  | _ => .testUnknown

/-- Only one of the flags will be raised. -/
def rfc1628Status (n : BitVec 32) (ups : UpsInfo) : UpsInfo :=
  let cleared := ((ups.clearOnline.clearOnbatt).clear upsBoost).clear upsTrim
  match n.toNat with
  | 3 => cleared.setOnline
  | 5 => cleared.setOnbatt
  | 6 => cleared.setOnline.setBoost
  | 7 => cleared.setOnline.setTrim
  | _ => cleared

/-- {lit}`rfc1628_update_ci`: three items take the first element of a sequence. -/
def rfc1628UpdateCi (ci : Ci) (data : Variable) (ups : SnmpUps) : Except Fault SnmpUps :=
  match ci with
  | .vline => (firstU32 data).map fun u32 => { ups with lineVoltage := real u32 }
  | .vout => (firstU32 data).map fun u32 => { ups with outputVoltage := real u32 }
  | .vbatt => .ok { ups with battVoltage := tenth data.u32 }
  | .freq => (firstU32 data).map fun u32 => { ups with lineFreq := tenth u32 }
  | .load => .ok { ups with upsLoad := meanU32 data }
  | .itemp => .ok { ups with upsTemp := real data.u32 }
  | .nomoutv => .ok { ups with nomOutputVoltage := data.u32.toInt }
  | .nominv => .ok { ups with nomInputVoltage := data.u32.toInt }
  | .nompower => .ok { ups with nomPower := data.u32.toInt }
  | .ltrans => .ok { ups with lotrans := data.u32.toInt }
  | .htrans => .ok { ups with hitrans := data.u32.toInt }
  | .stStat => .ok { ups with testresult := rfc1628Testresult data.u32 }
  | .dalarm => .ok { ups with beepstate := if data.u32.toNat = 1 then ['N'] else ['T'] }
  | .upsmodel => .ok { ups with upsmodel := strlcpy data.str 256 }
  | .battlev => .ok { ups with battChg := real data.u32 }
  | .runtim => .ok { ups with timeLeft := real data.u32 }
  | .iden => .ok { ups with upsname := strlcpy data.str 100 }
  | .status => .ok (ups.mapUps (rfc1628Status data.u32))
  | .lowBattery =>
      .ok (ups.mapUps fun ups => ups.setVal upsBattlow (data.u32.toNat ∈ [3, 4]))
  | .revno => .ok { ups with firmrev := strlcpy data.str 20 }
  | .dlbatt => .ok { ups with dlowbatt := data.u32.toInt }
  | _ => .ok ups

/-! ## The MGE MIB -/

/-- The numbers of a sequence. -/
def seqU32 (data : Variable) : List ℕ := data.seq.map fun element => element.u32.toNat

def mgeLastxfer (n : BitVec 32) : LastXferCause :=
  match n.toNat with
  | 1 => .xferNone
  | 2 => .xferNotchspike
  | 3 => .xferFreq
  | _ => .xferUnknown

def mgeTestresult (n : BitVec 32) : SelfTestResult :=
  match n.toNat with
  | 1 => .testPassed
  | 2 => .testFailed
  | _ => .testUnknown

def mgeBeepstate (ups : SnmpUps) (n : BitVec 32) : List Char :=
  if n.toNat = 1 then
    if ups.mgeAlarmtimer ≠ 0 then "Timed".toList else "NoDelay".toList
  else "NoAlarm".toList

def mgeSelftest (n : BitVec 32) : List Char :=
  match n.toNat with
  | 2 => "weekly".toList
  | 3 => "monthly".toList
  | 4 => "atTurnOn".toList
  | 6 => "daily".toList
  | _ => "OFF".toList

/-- Online and on battery are told apart by one number. -/
def mgeStatus (n : BitVec 32) (ups : UpsInfo) : UpsInfo :=
  if n.toNat = 1 then ups.setOnbatt.clearOnline else ups.setOnline.clearOnbatt

/-- {lit}`mge_update_ci`: an empty sequence changes nothing. -/
def mgeUpdateCi (ci : Ci) (data : Variable) (ups : SnmpUps) : Except Fault SnmpUps :=
  match ci with
  | .upsmodel => .ok { ups with upsmodel := strlcpy data.str 256 }
  | .status => .ok (ups.mapUps (mgeStatus data.u32))
  | .whyBatt => .ok { ups with lastxfer := mgeLastxfer data.u32 }
  | .stStat => .ok { ups with testresult := mgeTestresult data.u32 }
  | .vline =>
      match data.seq with
      | [] => .ok ups
      | element :: _ => .ok { ups with lineVoltage := tenth element.u32 }
  | .vmax =>
      if data.seq = [] then .ok ups
      else .ok { ups with lineMax := .nearest (((seqU32 data).foldl max 0 : ℕ) / 10) }
  | .vmin =>
      match seqU32 data with
      | [] => .ok ups
      | first :: rest => .ok { ups with lineMin := .nearest ((rest.foldl min first : ℕ) / 10) }
  | .vout =>
      match data.seq with
      | [] => .ok ups
      | element :: _ => .ok { ups with outputVoltage := tenth element.u32 }
  | .battlev => .ok { ups with battChg := real data.u32 }
  | .vbatt => .ok { ups with battVoltage := tenth data.u32 }
  | .load => if data.seq = [] then .ok ups else .ok { ups with upsLoad := meanU32 data }
  | .freq =>
      match data.seq with
      | [] => .ok ups
      | element :: _ => .ok { ups with lineFreq := tenth element.u32 }
  | .runtim => .ok { ups with timeLeft := .nearest (data.u32.toNat / 60) }
  | .itemp => .ok { ups with upsTemp := real data.u32 }
  | .dwake => .ok { ups with dwake := data.u32.toInt }
  | .dshutd => .ok { ups with dshutd := data.u32.toInt }
  | .ltrans => .ok { ups with lotrans := data.u32.toInt }
  | .htrans => .ok { ups with hitrans := data.u32.toInt }
  | .retpct => .ok { ups with rtnpct := data.u32.toInt }
  | .dalarm => .ok { ups with beepstate := mgeBeepstate ups data.u32 }
  | .dlbatt => .ok { ups with dlowbatt := data.u32.toInt }
  | .iden => .ok { ups with upsname := strlcpy data.str 100 }
  | .stesti => .ok { ups with selftest := mgeSelftest data.u32 }
  | .serno => .ok { ups with serial := strlcpy data.str 32 }
  | .nombattv => .ok { ups with nombattv := tenth data.u32 }
  | .humid => .ok { ups with humidity := real data.u32 }
  | .revno => .ok { ups with firmrev := strlcpy data.str 20 }
  | .atemp => .ok { ups with ambtemp := real data.u32 }
  | .nomoutv => .ok { ups with nomOutputVoltage := (data.u32 / 10).toInt }
  | .boost => .ok (ups.mapUps fun ups => ups.setVal upsBoost (data.u32.toNat = 1))
  | .trim => .ok (ups.mapUps fun ups => ups.setVal upsTrim (data.u32.toNat = 1))
  | .overload => .ok (ups.mapUps fun ups => ups.setVal upsOverload (data.u32.toNat = 1))
  | .needReplacement =>
      .ok (ups.mapUps fun ups => ups.setVal upsReplacebatt (data.u32.toNat = 1))
  | .lowBattery => .ok (ups.mapUps fun ups => ups.setVal upsBattlow (data.u32.toNat = 1))
  | .alarmTimer => .ok { ups with mgeAlarmtimer := data.u32 }
  | _ => .ok ups

/-! ## The strategies -/

/-- {lit}`ApcMibStrategy`. -/
def apcMibStrategy : MibStrategy SnmpUps := ⟨ciOidMap, apcUpdateCi⟩

/-- {lit}`Rfc1628MibStrategy`. -/
def rfc1628MibStrategy : MibStrategy SnmpUps := ⟨rfc1628CiOidMap, rfc1628UpdateCi⟩

/-- {lit}`MGEMibStrategy`. -/
def mgeMibStrategy : MibStrategy SnmpUps := ⟨mgeCiOidMap, mgeUpdateCi⟩

/-- {lit}`MibStrategies`. -/
inductive Mib where
  | apc | rfc1628 | mge
deriving DecidableEq

def Mib.strategy : Mib → MibStrategy SnmpUps
  | .apc => apcMibStrategy
  | .rfc1628 => rfc1628MibStrategy
  | .mge => mgeMibStrategy

/-! ## What cannot be stored -/

/-- The data that an update function cannot store: a text without a ninth character, and a
sequence without a first element. -/
def Mib.hazard : Mib → Ci → Variable → Bool
  | .apc, ci, data => ci = .overload && data.str.length ≤ 8
  | .rfc1628, ci, data => ci ∈ [.vline, .vout, .freq] && data.seq.isEmpty
  | .mge, _, _ => false

/-- An update function fails on no other data, whatever the record. -/
theorem updateCi_fails_iff (mib : Mib) (ci : Ci) (data : Variable) (ups : SnmpUps) :
    (∃ fault, mib.strategy.updateCi ci data ups = .error fault) ↔ mib.hazard ci data := by
  cases mib with
  | apc =>
      by_cases hci : ci = .overload
      · rcases hflag : data.str[8]? with _ | flag
        · have hlength := List.getElem?_eq_none_iff.mp hflag
          simp [Mib.strategy, apcMibStrategy, hci, apcUpdateCi, Mib.hazard, hlength]
        · have hlength := (List.getElem?_eq_some_iff.mp hflag).1
          simp [Mib.strategy, apcMibStrategy, hci, apcUpdateCi, hflag, Mib.hazard]
          exact hlength
      · have hstored : ∃ after, apcUpdateCi ci data ups = .ok after := by
          cases ci <;> first | exact ⟨_, rfl⟩ | exact absurd rfl hci
        rcases hstored with ⟨after, hstored⟩
        simp [Mib.strategy, apcMibStrategy, hstored, Mib.hazard, hci]
  | rfc1628 =>
      rcases hseq : data.seq with _ | ⟨element, rest⟩
      · cases ci <;>
          simp [Mib.strategy, rfc1628MibStrategy, rfc1628UpdateCi, firstU32, hseq, Mib.hazard,
            Except.map]
      · cases ci <;>
          simp [Mib.strategy, rfc1628MibStrategy, rfc1628UpdateCi, firstU32, hseq, Mib.hazard,
            Except.map]
  | mge =>
      have hstored : ∃ after, mgeUpdateCi ci data ups = .ok after := by
        unfold mgeUpdateCi
        cases ci <;> dsimp only <;> first | exact ⟨_, rfl⟩ | (split <;> exact ⟨_, rfl⟩)
      rcases hstored with ⟨after, hstored⟩
      simp [Mib.strategy, mgeMibStrategy, hstored, Mib.hazard]

/-! ## The maps -/

/-- Neither of two OIDs is part of the other, so that nothing lies under both. -/
def Apart (entry other : CiOid) : Prop :=
  ¬ entry.oid <+: other.oid ∧ ¬ other.oid <+: entry.oid

instance (entry other : CiOid) : Decidable (Apart entry other) :=
  inferInstanceAs (Decidable (_ ∧ _))

/-- What holds of the entries of every map. -/
structure WellFormed (mib : List CiOid) : Prop where
  apart : mib.Pairwise Apart
  distinct : (mib.map CiOid.ci).Nodup
  names : ∀ entry ∈ mib, 2 ≤ entry.oid.length ∧ entry.oid.length ≤ 16
  few : mib.length ≤ 40

theorem wellFormed_mib (mib : Mib) : WellFormed mib.strategy.mib := by
  cases mib <;> exact ⟨by decide +kernel, by decide +kernel, by decide +kernel, by decide⟩

/-- A sequence with elements can always be stored. -/
theorem seq_eq_nil_of_hazard {mib : Mib} {entry : CiOid} {data : Variable}
    (hentry : entry ∈ mib.strategy.mib) (htype : entry.type = sequenceId)
    (hhazard : mib.hazard entry.ci data) : data.seq = [] := by
  cases mib with
  | apc =>
      have hscalar : ∀ entry ∈ ciOidMap, entry.type ≠ sequenceId := by decide +kernel
      exact absurd htype (hscalar entry hentry)
  | rfc1628 =>
      simp [Mib.hazard] at hhazard
      exact hhazard.2
  | mge => cases hhazard

end Snmp
end Apcupsd
