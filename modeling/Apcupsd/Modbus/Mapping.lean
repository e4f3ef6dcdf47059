import Mathlib.Data.Nat.Notation
import Apcupsd.Core.UpsInfo

/-!
# Registers and what they mean

The register map of {lit}`drivers/modbus/mapping.cpp`, as far as {lit}`CI_TABLE` uses
it, and the decoding half of {lit}`ModbusUpsDriver::UpdateCi`: what the bytes of a
register do to the record.

Main results:

- Theorem {lit}`applyCi_bits`: each item writes its own bits of the status word only.
- Theorem {lit}`applyCi_status`: the status register decides both line flags.
- Definition {lit}`ciUpdate`: storing an item is a driver update.
-/

namespace Apcupsd

open BitFlags

/-! ## The register map -/

/-- {lit}`DataType`. -/
inductive DataType where
  | dtString | dtUint | dtInt
deriving DecidableEq, Repr

/-- {lit}`RegInfo`: a scale of zero means that the value is not scaled. -/
structure RegInfo where
  addr : ℕ
  nregs : ℕ
  type : DataType
  scale : ℕ
deriving DecidableEq, Repr

def regUpsStatus : RegInfo := ⟨0, 2, .dtUint, 0⟩
def regUpsStatusChangeCause : RegInfo := ⟨2, 1, .dtUint, 0⟩
def regSimpleSignallingStatus : RegInfo := ⟨18, 1, .dtUint, 0⟩
def regPowerSystemError : RegInfo := ⟨20, 2, .dtUint, 0⟩
def regBatterySystemError : RegInfo := ⟨22, 1, .dtUint, 0⟩
def regBatteryTestStatus : RegInfo := ⟨23, 1, .dtUint, 0⟩
def regCalibrationStatus : RegInfo := ⟨24, 1, .dtUint, 0⟩
def regRuntimeRemaining : RegInfo := ⟨128, 2, .dtUint, 0⟩
def regStateOfChargePct : RegInfo := ⟨130, 1, .dtUint, 9⟩
def regBatteryVoltage : RegInfo := ⟨131, 1, .dtInt, 5⟩
def regBatteryTemperature : RegInfo := ⟨135, 1, .dtInt, 7⟩
def regOutput0RealPowerPct : RegInfo := ⟨136, 1, .dtUint, 8⟩
def regOutput0ApparentPowerPct : RegInfo := ⟨138, 1, .dtUint, 8⟩
def regOutput0Current : RegInfo := ⟨140, 1, .dtUint, 5⟩
def regOutput0Voltage : RegInfo := ⟨142, 1, .dtUint, 6⟩
def regOutputFrequency : RegInfo := ⟨144, 1, .dtUint, 7⟩
def regInputStatus : RegInfo := ⟨150, 1, .dtUint, 0⟩
def regInput0Voltage : RegInfo := ⟨151, 1, .dtUint, 6⟩
def regFwVersion : RegInfo := ⟨516, 8, .dtString, 0⟩
def regModel : RegInfo := ⟨532, 16, .dtString, 0⟩
def regSerialNumber : RegInfo := ⟨564, 8, .dtString, 0⟩
def regOutputApparentPowerRating : RegInfo := ⟨588, 1, .dtUint, 0⟩
def regOutputRealPowerRating : RegInfo := ⟨589, 1, .dtUint, 0⟩
def regManufactureDate : RegInfo := ⟨591, 1, .dtUint, 0⟩
def regOutputVoltageSetting : RegInfo := ⟨592, 1, .dtUint, 0⟩
def regBatteryDateSetting : RegInfo := ⟨595, 1, .dtUint, 0⟩
def regName : RegInfo := ⟨596, 8, .dtString, 0⟩
def regMogTurnOffCountSetting : RegInfo := ⟨1029, 1, .dtInt, 0⟩
def regMogTurnOnCountSetting : RegInfo := ⟨1030, 1, .dtInt, 0⟩
def regModbusMapId : RegInfo := ⟨2048, 2, .dtString, 0⟩

/-- {lit}`CiInfo`. -/
structure CiInfo where
  ci : Ci
  dynamic : Bool
  reg : RegInfo
deriving DecidableEq, Repr

/-- {lit}`CI_TABLE`, in its order: the map id comes after the revision it is appended
to, and the transfer cause after the status that decides whether it counts. -/
def ciTable : List CiInfo :=
  [⟨.upsmodel, false, regModel⟩,
    ⟨.serno, false, regSerialNumber⟩,
    ⟨.iden, false, regName⟩,
    ⟨.mandat, false, regManufactureDate⟩,
    ⟨.battdat, false, regBatteryDateSetting⟩,
    ⟨.nomoutv, false, regOutputVoltageSetting⟩,
    ⟨.revno, false, regFwVersion⟩,
    ⟨.bupSelfTest, false, regModbusMapId⟩,
    ⟨.nompower, false, regOutputRealPowerRating⟩,
    ⟨.nomApparent, false, regOutputApparentPowerRating⟩,
    ⟨.dshutd, false, regMogTurnOffCountSetting⟩,
    ⟨.dwake, false, regMogTurnOnCountSetting⟩,
    ⟨.vline, true, regInput0Voltage⟩,
    ⟨.vout, true, regOutput0Voltage⟩,
    ⟨.outputCurrent, true, regOutput0Current⟩,
    ⟨.vbatt, true, regBatteryVoltage⟩,
    ⟨.freq, true, regOutputFrequency⟩,
    ⟨.itemp, true, regBatteryTemperature⟩,
    ⟨.battlev, true, regStateOfChargePct⟩,
    ⟨.runtim, true, regRuntimeRemaining⟩,
    ⟨.status, true, regUpsStatus⟩,
    ⟨.whyBatt, true, regUpsStatusChangeCause⟩,
    ⟨.calibration, true, regCalibrationStatus⟩,
    ⟨.stStat, true, regBatteryTestStatus⟩,
    ⟨.overload, true, regPowerSystemError⟩,
    ⟨.needReplacement, true, regBatterySystemError⟩,
    ⟨.batteryPresent, true, regBatterySystemError⟩,
    ⟨.boost, true, regInputStatus⟩,
    ⟨.trim, true, regInputStatus⟩,
    ⟨.load, true, regOutput0RealPowerPct⟩,
    ⟨.loadApparent, true, regOutput0ApparentPowerPct⟩,
    ⟨.lowBattery, true, regSimpleSignallingStatus⟩]

/-! ## Register bits -/

/-- {lit}`1U << n`. -/
def regBit (n : ℕ) : UInt64 :=
  UInt64.ofNat (2 ^ n)

def usOnline : UInt64 := regBit 1
def usOnbattery : UInt64 := regBit 2
def sssShutdownImminent : UInt64 := regBit 1
def pseOutputOverload : UInt64 := regBit 0
def bseDisconnected : UInt64 := regBit 0
def bseNeedsReplacement : UInt64 := regBit 2
def btsPending : UInt64 := regBit 0
def btsInProgress : UInt64 := regBit 1
def btsPassed : UInt64 := regBit 2
def btsFailed : UInt64 := regBit 3
def csPending : UInt64 := regBit 0
def csInProgress : UInt64 := regBit 1
def isBoost : UInt64 := regBit 5
def isTrim : UInt64 := regBit 6

/-- {lit}`uint & mask` as a condition. -/
def anyBit (value mask : UInt64) : Bool :=
  value &&& mask != 0

/-! ## Decoding -/

/-- What {lit}`UpdateCi` makes of the bytes of a register; a part that the type of the
register does not fill keeps its initial value. -/
structure CiValue where
  uint : UInt64
  sint : Int
  dbl : CDouble
  str : List Char

/-- Most significant byte first. -/
def bigEndian (data : List UInt8) : UInt64 :=
  data.foldl (fun value byte => (value <<< 8) ||| byte.toUInt64) 0

/-- The characters that the valid subset of ASCII leaves of a string register. -/
def asciiOf (data : List UInt8) : List Char :=
  data.map fun byte => if byte < 0x20 ∨ byte > 0x7E then ' ' else Char.ofNat byte.toNat

/-- {lit}`astring::trim`, for the one whitespace character that can occur. -/
def trimBlanks (str : List Char) : List Char :=
  ((str.dropWhile (· == ' ')).reverse.dropWhile (· == ' ')).reverse

/-- The first half of {lit}`UpdateCi`. -/
def decode (reg : RegInfo) (data : List UInt8) : CiValue :=
  let uint := bigEndian data
  -- sign extension of the low bytes
  let sint := (uint.toBitVec.setWidth (8 * (reg.nregs * 2))).toInt
  -- the cast rounds; the division by a power of two does not
  let scaled (raw : Int) : CDouble :=
    if reg.scale = 0 then .finite 0
    else .finite (FloatFormat.binary64.round (raw : ℚ) / (2 ^ reg.scale : ℕ))
  match reg.type with
  | .dtString => ⟨0, 0, .finite 0, trimBlanks (asciiOf data)⟩
  | .dtInt => ⟨uint, sint, scaled sint, []⟩
  | .dtUint => ⟨uint, 0, scaled uint.toNat, []⟩

/-- Year, month and day of a day counted from 1/1/2000, as {lit}`gmtime_r` computes
them: the years are taken to begin in March. -/
def civilOfDays (days : ℕ) : ℕ × ℕ × ℕ :=
  let shifted := 730425 + days
  let era := shifted / 146097
  let doe := shifted % 146097
  let yoe := (doe - doe / 1460 + doe / 36524 - doe / 146096) / 365
  let doy := doe - (365 * yoe + yoe / 4 - yoe / 100)
  let mp := (5 * doy + 2) / 153
  let day := doy - (153 * mp + 2) / 5 + 1
  let month := if mp < 10 then mp + 3 else mp - 9
  (yoe + era * 400 + (if month ≤ 2 then 1 else 0), month, day)

def twoDigits (n : ℕ) : List Char :=
  [Nat.digitChar (n / 10 % 10), Nat.digitChar (n % 10)]

/-- {lit}`strftime` with {lit}`%Y-%m-%d` of the day in a date register. -/
def dateString (days : ℕ) : List Char :=
  let (year, month, day) := civilOfDays days
  Nat.toDigits 10 year ++ '-' :: twoDigits month ++ '-' :: twoDigits day

example : dateString 59 = "2000-02-29".toList := by decide

/-- {lit}`strlcpy` into an array of the given size. -/
def strlcpy (str : List Char) (size : ℕ) : List Char :=
  str.take (size - 1)

def nomOutputVoltageOf (uint : UInt64) : Int :=
  if anyBit uint (regBit 0) then 100
  else if anyBit uint (regBit 1) then 120
  else if anyBit uint (regBit 2) then 200
  else if anyBit uint (regBit 3) then 208
  else if anyBit uint (regBit 4) then 220
  else if anyBit uint (regBit 5) then 230
  else if anyBit uint (regBit 6) then 240
  else -1

def testresultOf (uint : UInt64) : SelfTestResult :=
  if anyBit uint (btsPending ||| btsInProgress) then .testInprogress
  else if anyBit uint btsPassed then .testPassed
  else if anyBit uint btsFailed then .testFailed
  else if uint = 0 then .testNone
  else .testUnknown

/-- The codes of {lit}`REG_UPS_STATUS_CHANGE_CAUSE`. -/
def lastxferOf (uint : UInt64) : LastXferCause :=
  match uint.toNat with
  | 1 => .xferOvervolt
  | 2 => .xferUndervolt
  | 3 => .xferNotchspike
  | 4 => .xferRipple
  | 5 | 6 | 7 => .xferFreq
  | 9 => .xferSelftest
  | 11 | 12 => .xferForced
  | _ => .xferUnknown

/-- Only one of the two line flags will be raised. -/
def applyStatus (uint : UInt64) (ups : UpsInfo) : UpsInfo :=
  let cleared := ups.clearOnline.clearOnbatt
  if anyBit uint usOnline then cleared.setOnline
  else if anyBit uint usOnbattery then cleared.setOnbatt
  else cleared

/-- The second half of {lit}`UpdateCi`, under the lock of the record. -/
def applyCi (ci : Ci) (value : CiValue) (ups : UpsInfo) : UpsInfo :=
  match ci with
  | .upsmodel => { ups with upsmodel := strlcpy value.str 256 }
  | .serno => { ups with serial := strlcpy value.str 32 }
  | .iden => { ups with upsname := strlcpy value.str 100 }
  | .revno => { ups with firmrev := strlcpy value.str 20 }
  | .bupSelfTest =>
      { ups with firmrev := strlcpy (ups.firmrev ++ " / ".toList ++ value.str) 20 }
  | .mandat => { ups with birth := dateString value.uint.toNat }
  | .battdat => { ups with battdat := dateString value.uint.toNat }
  | .nomoutv => { ups with nomOutputVoltage := nomOutputVoltageOf value.uint }
  | .nompower => { ups with nomPower := value.uint.toNat }
  | .nomApparent => { ups with nomApparentPower := value.uint.toNat }
  | .dshutd => { ups with dshutd := value.sint }
  | .dwake => { ups with dwake := value.sint }
  | .lowBattery => ups.setVal upsBattlow (anyBit value.uint sssShutdownImminent)
  | .load => { ups with upsLoad := value.dbl }
  | .loadApparent => { ups with loadApparent := value.dbl }
  | .vline => { ups with lineVoltage := value.dbl }
  | .vout => { ups with outputVoltage := value.dbl }
  | .outputCurrent => { ups with outputCurrent := value.dbl }
  | .vbatt => { ups with battVoltage := value.dbl }
  | .freq => { ups with lineFreq := value.dbl }
  | .itemp => { ups with upsTemp := value.dbl }
  | .battlev => { ups with battChg := value.dbl }
  | .runtim => { ups with timeLeft := .finite (value.uint.toNat / 60 : ℕ) }
  | .stStat => { ups with testresult := testresultOf value.uint }
  | .whyBatt =>
      -- only while the record says that we are on battery
      if ups.isOnbatt then { ups with lastxfer := lastxferOf value.uint } else ups
  | .status => applyStatus value.uint ups
  | .calibration => ups.setVal upsCalibration (anyBit value.uint (csPending ||| csInProgress))
  | .overload => ups.setVal upsOverload (anyBit value.uint pseOutputOverload)
  | .needReplacement => ups.setVal upsReplacebatt (anyBit value.uint bseNeedsReplacement)
  | .batteryPresent => ups.setVal upsBattpresent (!anyBit value.uint bseDisconnected)
  | .boost => ups.setVal upsBoost (anyBit value.uint isBoost)
  | .trim => ups.setVal upsTrim (anyBit value.uint isTrim)
  | _ => ups

/-! ## What an item writes -/

/-- The bits of the status word that an item writes. -/
def ciBits : Ci → StatusWord
  | .status => upsOnline ||| upsOnbatt
  | .lowBattery => upsBattlow
  | .calibration => upsCalibration
  | .overload => upsOverload
  | .needReplacement => upsReplacebatt
  | .batteryPresent => upsBattpresent
  | .boost => upsBoost
  | .trim => upsTrim
  | _ => 0

theorem UpsInfo.setVal_bits (mask : StatusWord) (val : Bool) (ups : UpsInfo) :
    (ups.setVal mask val).status &&& ~~~mask = ups.status &&& ~~~mask := by
  have hdisjoint : mask &&& ~~~mask = 0 := BitVec.and_not_self mask
  unfold UpsInfo.setVal
  split
  · exact raiseMask_and_of_disjoint hdisjoint ups.status
  · exact dropMask_and_of_disjoint hdisjoint ups.status

theorem applyStatus_bits (uint : UInt64) (ups : UpsInfo) :
    (applyStatus uint ups).status &&& ~~~(upsOnline ||| upsOnbatt) =
      ups.status &&& ~~~(upsOnline ||| upsOnbatt) := by
  have hset : ∀ ups : UpsInfo, ∀ mask : StatusWord,
      mask &&& ~~~(upsOnline ||| upsOnbatt) = 0 →
      (ups.set mask).status &&& ~~~(upsOnline ||| upsOnbatt) =
        ups.status &&& ~~~(upsOnline ||| upsOnbatt) :=
    fun ups _ hmask => raiseMask_and_of_disjoint hmask ups.status
  have hclear : ∀ ups : UpsInfo, ∀ mask : StatusWord,
      mask &&& ~~~(upsOnline ||| upsOnbatt) = 0 →
      (ups.clear mask).status &&& ~~~(upsOnline ||| upsOnbatt) =
        ups.status &&& ~~~(upsOnline ||| upsOnbatt) :=
    fun ups _ hmask => dropMask_and_of_disjoint hmask ups.status
  have hcleared : ups.clearOnline.clearOnbatt.status &&& ~~~(upsOnline ||| upsOnbatt) =
      ups.status &&& ~~~(upsOnline ||| upsOnbatt) :=
    (hclear _ _ (by decide)).trans
      ((hclear (ups.set upsOnbatt) _ (by decide)).trans (hset ups _ (by decide)))
  unfold applyStatus
  dsimp only
  split_ifs
  · exact ((hclear (ups.clearOnline.clearOnbatt.set upsOnline) _ (by decide)).trans
      (hset _ _ (by decide))).trans hcleared
  · exact (hset _ _ (by decide)).trans hcleared
  · exact hcleared

/-- Each item writes its own bits of the status word only. -/
theorem applyCi_bits (ci : Ci) (value : CiValue) (ups : UpsInfo) :
    (applyCi ci value ups).status &&& ~~~ciBits ci = ups.status &&& ~~~ciBits ci := by
  cases ci with
  | status => exact applyStatus_bits value.uint ups
  | lowBattery | calibration | overload | needReplacement | batteryPresent | boost | trim =>
      exact UpsInfo.setVal_bits _ _ ups
  | whyBatt =>
      unfold applyCi
      dsimp only
      split <;> rfl
  | _ => rfl

/-- No item writes the configuration, the core's own fields or the capabilities. -/
theorem applyCi_fields (ci : Ci) (value : CiValue) (ups : UpsInfo) :
    (applyCi ci value ups).toUpsConfig = ups.toUpsConfig ∧
      (applyCi ci value ups).toCoreFields = ups.toCoreFields ∧
      (applyCi ci value ups).upsCap = ups.upsCap := by
  cases ci with
  | status =>
      change (applyStatus value.uint ups).toUpsConfig = _ ∧
        (applyStatus value.uint ups).toCoreFields = _ ∧
        (applyStatus value.uint ups).upsCap = _
      unfold applyStatus
      dsimp only
      split_ifs <;> exact ⟨rfl, rfl, rfl⟩
  | lowBattery | calibration | overload | needReplacement | batteryPresent | boost | trim =>
      unfold applyCi UpsInfo.setVal
      dsimp only
      split <;> exact ⟨rfl, rfl, rfl⟩
  | whyBatt =>
      unfold applyCi
      dsimp only
      split <;> exact ⟨rfl, rfl, rfl⟩
  | _ => exact ⟨rfl, rfl, rfl⟩

/-- A flag outside an item's bits is not disturbed by it. -/
theorem applyCi_test {ci : Ci} {mask : StatusWord} (hmask : mask &&& ~~~ciBits ci = mask)
    (value : CiValue) (ups : UpsInfo) :
    (applyCi ci value ups).test mask = ups.test mask :=
  testMask_eq_of_and_eq hmask (applyCi_bits ci value ups)

/-- Storing an item is a driver update. -/
def ciUpdate (ci : Ci) (value : CiValue) : DriverUpdate where
  apply := applyCi ci value
  frame := fun ups =>
    { config := (applyCi_fields ci value ups).1
      core := (applyCi_fields ci value ups).2.1
      bits := by
        have hinside : coreBits = ~~~ciBits ci &&& coreBits := by
          cases ci <;> decide
        rw [hinside, ← BitVec.and_assoc, applyCi_bits, BitVec.and_assoc] }

/-! ## The line flags -/

/-- {lit}`is_online` and {lit}`is_onbatt`. -/
def UpsInfo.lineFlags (ups : UpsInfo) : Bool × Bool :=
  (ups.isOnline, ups.isOnbatt)

/-- The line flags that a value of the status register stands for. -/
def lineFlagsOf (uint : UInt64) : Bool × Bool :=
  if anyBit uint usOnline then (true, false) else (false, anyBit uint usOnbattery)

/-- The status register decides both line flags. -/
theorem applyCi_status (value : CiValue) (ups : UpsInfo) :
    (applyCi .status value ups).lineFlags = lineFlagsOf value.uint := by
  have hclear : ∀ ups : UpsInfo, (ups.clear upsOnbatt).isOnbatt = false :=
    fun ups => UpsInfo.test_clear_self (by decide) ups
  have honline : ∀ ups : UpsInfo, (ups.clear upsOnbatt).isOnline = ups.isOnline :=
    fun ups => UpsInfo.test_clear_of_disjoint (by decide) ups
  have hcleared : ups.clearOnline.clearOnbatt.isOnline = false :=
    (honline _).trans (UpsInfo.test_clear_self (by decide) (ups.set upsOnbatt))
  change (applyStatus value.uint ups).lineFlags = _
  unfold applyStatus lineFlagsOf UpsInfo.lineFlags
  dsimp only
  split_ifs with hmains hbattery
  · exact Prod.ext ((honline _).trans (UpsInfo.test_set_self _ _)) (hclear _)
  · refine Prod.ext ?_ ((UpsInfo.test_set_self _ _).trans hbattery.symm)
    exact (UpsInfo.test_set_of_disjoint (by decide) _).trans hcleared
  · exact Prod.ext hcleared ((hclear _).trans (Bool.eq_false_iff.mpr hbattery).symm)

/-- Only the status register writes the line flags. -/
theorem applyCi_lineFlags {ci : Ci} (hci : ci ≠ .status) (value : CiValue) (ups : UpsInfo) :
    (applyCi ci value ups).lineFlags = ups.lineFlags := by
  have hmask : upsOnline &&& ~~~ciBits ci = upsOnline ∧
      upsOnbatt &&& ~~~ciBits ci = upsOnbatt := by
    cases ci <;> first | exact absurd rfl hci | decide
  exact Prod.ext (applyCi_test hmask.1 value ups) (applyCi_test hmask.2 value ups)

end Apcupsd
