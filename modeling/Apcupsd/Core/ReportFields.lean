import Apcupsd.Core.UpsInfo

/-!
# Items that are only reported

The fields of {lit}`UPSINFO` that some driver fills and the status report prints, and
that no statement of the core reads.  With them come the status methods that only the
drivers use.

Main results:

- Definition {lit}`ReportFields`: the fields, as {lit}`new_ups` and
  {lit}`init_ups_struct` leave them in {lit}`ReportFields.zero`.
- Definition {lit}`UpsInfo.lineWord`: the part of the status word that tells mains from
  battery.
-/

namespace Apcupsd

open BitFlags

/-! ## The fields -/

/-- Items reported by the UPS that the core does not read. -/
structure ReportFields where
  reg1 : ℕ
  reg2 : ℕ
  reg3 : ℕ
  dipsw : ℕ
  lineMin : CDouble
  lineMax : CDouble
  lastSTTime : CDouble
  humidity : CDouble
  ambtemp : CDouble
  nomInputVoltage : Int
  nombattv : CDouble
  extbatts : Int
  badbatts : Int
  lotrans : Int
  hitrans : Int
  rtnpct : Int
  dlowbatt : Int
  selftest : List Char
  sensitivity : List Char
  beepstate : List Char
deriving DecidableEq

/-- The fields before a driver has filled them. -/
def ReportFields.zero : ReportFields where
  reg1 := 0
  reg2 := 0
  reg3 := 0
  dipsw := 0
  lineMin := .finite 0
  lineMax := .finite 0
  lastSTTime := .finite 0
  humidity := .finite 0
  ambtemp := .finite 0
  nomInputVoltage := 0
  nombattv := .finite 0
  extbatts := 0
  badbatts := 0
  lotrans := -1
  hitrans := -1
  rtnpct := -1
  dlowbatt := -1
  selftest := ['-', '1']
  sensitivity := ['-', '1']
  beepstate := ['-', '1']

namespace UpsInfo

/-! ## Status methods of the drivers -/

def setBattlow (ups : UpsInfo) : UpsInfo := ups.set upsBattlow
def setBoost (ups : UpsInfo) : UpsInfo := ups.set upsBoost
def setTrim (ups : UpsInfo) : UpsInfo := ups.set upsTrim
def setOverload (ups : UpsInfo) : UpsInfo := ups.set upsOverload
def setBattpresent (ups : UpsInfo) : UpsInfo := ups.set upsBattpresent
def clearBattpresent (ups : UpsInfo) : UpsInfo := ups.clear upsBattpresent

/-! ## Status methods of the report -/

def isBoost (ups : UpsInfo) : Bool := ups.test upsBoost
def isTrim (ups : UpsInfo) : Bool := ups.test upsTrim
def isOverload (ups : UpsInfo) : Bool := ups.test upsOverload
def isSlavedown (ups : UpsInfo) : Bool := ups.test upsSlavedown

/-! ## The line state -/

/-- The online and onbatt bits of the status word. -/
def lineWord (ups : UpsInfo) : StatusWord :=
  ups.status &&& (upsOnline ||| upsOnbatt)

end UpsInfo

end Apcupsd
