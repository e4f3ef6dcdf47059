import Apcupsd.Core.ReportFields
import Apcupsd.Foundations.CStrings

/-!
# USB reports and what they mean

The table of usages and the decoding half of {lit}`drivers/usb/usb.c`: what the value
of one report does to the record.

Main results:

- Definition {lit}`knownInfo`: the table, with the items that are polled.
- Theorem {lit}`usbProcessValue_keepsTo`: each item writes the driver's fields and its own
  bits of the status word only.
-/

namespace Apcupsd

open BitFlags CStrings

/-! ## The usages -/

/-- {lit}`s_known_info`, with its command index, its usage and whether it is polled;
{lit}`CI_NONE` is no index. -/
structure KnownInfo where
  ci : Option Ci
  usageCode : ℕ
  isvolatile : Bool
deriving DecidableEq, Repr

/-- {lit}`_known_info`, without the row that ends it. -/
def knownInfo : List KnownInfo :=
  [⟨none, 0x00840001, false⟩,
    ⟨some .vline, 0x00840030, true⟩,
    ⟨some .vout, 0x00840030, true⟩,
    ⟨some .vbatt, 0x00840030, true⟩,
    ⟨some .vbatt, 0x00840030, true⟩,
    ⟨none, 0x00840031, false⟩,
    ⟨some .freq, 0x00840032, true⟩,
    ⟨none, 0x00840033, false⟩,
    ⟨none, 0x00840034, false⟩,
    ⟨some .load, 0x00840035, true⟩,
    ⟨some .itemp, 0x00840036, true⟩,
    ⟨some .atemp, 0x00840036, true⟩,
    ⟨some .humid, 0x00840037, true⟩,
    ⟨some .nombattv, 0x00840040, false⟩,
    ⟨some .nombattv, 0x00840040, false⟩,
    ⟨some .nomoutv, 0x00840040, false⟩,
    ⟨some .nominv, 0x00840040, false⟩,
    ⟨none, 0x00840042, false⟩,
    ⟨none, 0x00840043, false⟩,
    ⟨some .nompower, 0x00840044, false⟩,
    ⟨some .ltrans, 0x00840053, false⟩,
    ⟨some .htrans, 0x00840054, false⟩,
    ⟨some .delayBeforeReboot, 0x00840055, false⟩,
    ⟨some .dwake, 0x00840056, false⟩,
    ⟨some .delayBeforeShutdown, 0x00840057, false⟩,
    ⟨some .stStat, 0x00840058, false⟩,
    ⟨some .dalarm, 0x0084005a, true⟩,
    ⟨none, 0x00840061, false⟩,
    ⟨some .iFailure, 0x00840062, false⟩,
    ⟨some .pwVoltageOOR, 0x00840063, false⟩,
    ⟨some .pwFrequencyOOR, 0x00840064, false⟩,
    ⟨some .overload, 0x00840065, true⟩,
    ⟨some .overCharged, 0x00840066, false⟩,
    ⟨some .overTemp, 0x00840067, false⟩,
    ⟨some .shutdownRequested, 0x00840068, false⟩,
    ⟨some .shutdownImminent, 0x00840069, true⟩,
    ⟨none, 0x0084006b, false⟩,
    ⟨none, 0x0084006c, false⟩,
    ⟨some .boost, 0x0084006e, true⟩,
    ⟨some .trim, 0x0084006f, true⟩,
    ⟨some .communicationLost, 0x00840073, false⟩,
    ⟨some .manufacturer, 0x008400fd, false⟩,
    ⟨some .upsmodel, 0x008400fe, false⟩,
    ⟨some .serno, 0x008400ff, false⟩,
    ⟨some .mandat, 0x00850085, false⟩,
    ⟨some .remCapLimit, 0x00850029, false⟩,
    ⟨some .remTimeLimit, 0x0085002a, false⟩,
    ⟨none, 0x0085002c, false⟩,
    ⟨some .belowRemCapLimit, 0x00850042, true⟩,
    ⟨some .remTimeLimitExpired, 0x00850043, true⟩,
    ⟨some .charging, 0x00850044, false⟩,
    ⟨some .discharging, 0x00850045, true⟩,
    ⟨some .needReplacement, 0x0085004b, true⟩,
    ⟨some .battlev, 0x00850066, true⟩,
    ⟨none, 0x00850067, false⟩,
    ⟨some .runtim, 0x00850068, true⟩,
    ⟨some .cycleCount, 0x0085006b, false⟩,
    ⟨some .battPackLevel, 0x00850080, false⟩,
    ⟨none, 0x00850083, false⟩,
    ⟨some .battdat, 0x00850085, false⟩,
    ⟨some .iden, 0x00850088, false⟩,
    ⟨none, 0x00850089, false⟩,
    ⟨none, 0x0085008b, false⟩,
    ⟨some .warningCapacityLimit, 0x0085008c, false⟩,
    ⟨none, 0x0085008d, false⟩,
    ⟨none, 0x0085008e, false⟩,
    ⟨none, 0x0085008f, false⟩,
    ⟨some .acPresent, 0x008500d0, true⟩,
    ⟨some .batteryPresent, 0x008500d1, true⟩,
    ⟨some .chargerVoltageOOR, 0x008500d8, false⟩,
    ⟨some .chargerCurrentOOR, 0x008500d9, false⟩,
    ⟨some .currentNotRegulated, 0x008500da, false⟩,
    ⟨some .voltageNotRegulated, 0x008500db, false⟩,
    ⟨some .stesti, 0xFF86001a, false⟩,
    ⟨some .status, 0xFF860060, true⟩,
    ⟨some .dshutd, 0xFF860076, false⟩,
    ⟨none, 0xFF860005, false⟩,
    ⟨some .apcForceShutdown, 0xFF86007C, false⟩,
    ⟨some .testalarm, 0xFF860072, false⟩,
    ⟨none, 0xFF860042, false⟩,
    ⟨none, 0xFF860079, false⟩,
    ⟨some .retpct, 0xFF860019, false⟩,
    ⟨some .apcDelayBeforeStartup, 0xFF86007E, false⟩,
    ⟨some .apcDelayBeforeShutdown, 0xFF86007D, false⟩,
    ⟨some .apcLineFailCause, 0xFF860052, true⟩,
    ⟨some .sens, 0xFF860061, false⟩,
    ⟨some .bupBattCapBeforeStartup, 0x00860012, false⟩,
    ⟨some .bupDelayBeforeStartup, 0x00860076, false⟩,
    ⟨some .bupSelfTest, 0x00860010, false⟩,
    ⟨some .bupHibernate, 0x00850058, false⟩]

/-- {lit}`USB_VALUE`. -/
structure UsbValue where
  dValue : CDouble
  iValue : BitVec 32
  sValue : List Char

/-- The record and {lit}`UsbUpsDriver`'s own variables. -/
structure UsbUps extends UpsInfo, ReportFields where
  quirkOldBackupsPro : Bool
  bpcnt : ℕ

/-- Apply a status method of the record. -/
def UsbUps.mapUps (usb : UsbUps) (change : UpsInfo → UpsInfo) : UsbUps :=
  { usb with toUpsInfo := change usb.toUpsInfo }

/-! ## Conversions -/

/-- {lit}`273.15`, as a {lit}`double`. -/
def zeroCelsius : ℚ :=
  FloatFormat.binary64.round 273.15

/-- {lit}`(int)d`: towards zero; what does not fit becomes the least {lit}`int`. -/
def CDouble.toInt : CDouble → Int
  | .finite q =>
      let truncated := q.num.tdiv q.den
      if -2 ^ 31 ≤ truncated ∧ truncated < 2 ^ 31 then truncated else -2 ^ 31
  | _ => -2 ^ 31

/-- Some UPSes get the units wrong. -/
def inVolts (voltage : Int) : Int :=
  if 1000 < voltage then inVolts (voltage / 10) else voltage
termination_by voltage.toNat
decreasing_by omega

/-- {lit}`"%4d-%02d-%02d"` of a date that packs the years since 1980. -/
def packedDate (value : BitVec 32) : List Char :=
  padLeft ' ' 4 (decimal ((value.sshiftRight 9).toInt + 1980)) ++
    '-' :: padLeft '0' 2 (decimal ((value.sshiftRight 5) &&& 0xF).toNat) ++
    '-' :: padLeft '0' 2 (decimal (value &&& 0x1F).toNat)

/-- The same format of a date with two decimal digits to a byte. -/
def codedDate (value : BitVec 32) : List Char :=
  let twoDigits (shift : ℕ) : ℕ :=
    ((value.sshiftRight (shift + 4)) &&& 0xF).toNat * 10 +
      ((value.sshiftRight shift) &&& 0xF).toNat
  padLeft ' ' 4 (decimal (twoDigits 0 + 2000 : ℕ)) ++
    '-' :: padLeft '0' 2 (decimal (twoDigits 16)) ++
    '-' :: padLeft '0' 2 (decimal (twoDigits 8))

def usbTestresultOf (value : BitVec 32) : SelfTestResult :=
  match value.toNat with
  | 1 => .testPassed
  | 2 => .testWarning
  | 3 | 4 => .testFailed
  | 5 => .testInprogress
  | 6 => .testNone
  | _ => .testUnknown

def usbSelftestOf (value : BitVec 32) : List Char :=
  match value.toNat with
  | 0 => "None".toList
  | 1 => "Power On".toList
  | 2 => "7 days".toList
  | _ => "14 days".toList

def usbLastxferOf (value : BitVec 32) : LastXferCause :=
  match value.toNat with
  | 0 => .xferNone
  | 2 => .xferOvervolt
  | 3 => .xferRipple
  | 1 | 4 | 8 | 9 => .xferUndervolt
  | 6 | 10 => .xferForced
  | 7 => .xferFreq
  | 5 | 11 | 12 | 13 => .xferSelftest
  | _ => .xferUnknown

def usbSensitivityOf (value : BitVec 32) : List Char :=
  match value.toNat with
  | 0 => "Low".toList
  | 1 => "Medium".toList
  | 2 => "High".toList
  | _ => "Unknown".toList

def usbBeepstateOf (value : BitVec 32) : List Char :=
  if value = 1 then ['N'] else ['T']

/-! ## Decoding -/

/-- {lit}`usb_process_value_bup`: the special decoding, unless it does not apply. -/
def usbProcessValueBup (ci : Ci) (uval : UsbValue) (usb : UsbUps) : Option UsbUps :=
  let val : BitVec 32 := BitVec.ofInt 32 uval.dValue.toInt
  let digit (shift : ℕ) : ℕ := ((val >>> shift) &&& 0xFF).toNat
  let isdigit (code : ℕ) : Bool := 0x30 ≤ code && code ≤ 0x39
  let atoi : ℕ := (digit 16 - 0x30) * 100 + (digit 8 - 0x30) * 10 + (digit 0 - 0x30)
  if ci = .runtim then some { usb with timeLeft := uval.dValue }
  else if !isdigit (digit 16) || !isdigit (digit 8) || !isdigit (digit 0) then none
  else
    match ci with
    | .load => some { usb with upsLoad := .finite atoi }
    | .ltrans => some { usb with lotrans := atoi }
    | .htrans => some { usb with hitrans := atoi }
    | .freq => some { usb with lineFreq := .finite atoi }
    | _ => none

/-- The model name, and the firmware revision that some product strings append. -/
def processModel (sValue : List Char) (usb : UsbUps) : UsbUps :=
  match strstr "FW:".toList sValue with
  | some found =>
      { usb with
        firmrev := ((found.drop 3).dropWhile isspace).take 19
        upsCap := fun ci => if ci = .revno then true else usb.upsCap ci
        upsmodel :=
          ((sValue.take (sValue.length - found.length)).dropWhile isspace).take 255 }
  | none => { usb with upsmodel := (sValue.dropWhile isspace).take 255 }

/-- If the serial number has garbage, trash it. -/
def processSerial (sValue : List Char) (usb : UsbUps) : UsbUps :=
  let serial := sValue.take 31
  if serial.any fun c => c < ' ' || 'z' < c then
    { usb with
      serial := []
      upsCap := fun ci => if ci = .serno then false else usb.upsCap ci }
  else { usb with serial := serial }

/-- The switch of {lit}`usb_process_value`. -/
def processItem (ci : Ci) (uval : UsbValue) (usb : UsbUps) : UsbUps :=
  let raised : Bool := uval.iValue != 0
  match ci with
  | .status =>
      usb.mapUps fun ups =>
        { ups with status := (ups.status &&& ~~~0xFF) ||| (uval.iValue &&& 0xFF) }
  | .acPresent => if raised then usb.mapUps UpsInfo.setOnline else usb
  | .discharging => usb.mapUps (if raised then UpsInfo.clearOnline else UpsInfo.setOnline)
  | .belowRemCapLimit => if raised then usb.mapUps UpsInfo.setBattlow else usb
  | .remTimeLimitExpired => if raised then usb.mapUps UpsInfo.setBattlow else usb
  | .shutdownImminent => if raised then usb.mapUps UpsInfo.setBattlow else usb
  | .boost => if raised then usb.mapUps UpsInfo.setBoost else usb
  | .trim => if raised then usb.mapUps UpsInfo.setTrim else usb
  | .overload => if raised then usb.mapUps UpsInfo.setOverload else usb
  | .needReplacement =>
      if raised then usb.mapUps fun ups => ups.setVal upsReplacebatt raised else usb
  | .vline => { usb with lineVoltage := uval.dValue }
  | .vout => { usb with outputVoltage := uval.dValue }
  | .battlev => { usb with battChg := uval.dValue }
  | .vbatt => { usb with battVoltage := uval.dValue }
  | .load => { usb with upsLoad := uval.dValue }
  | .freq => { usb with lineFreq := uval.dValue }
  | .runtim => { usb with timeLeft := uval.dValue.map (· / 60) }
  | .itemp => { usb with upsTemp := uval.dValue.map (· - zeroCelsius) }
  | .humid => { usb with humidity := uval.dValue }
  | .atemp => { usb with ambtemp := uval.dValue.map (· - zeroCelsius) }
  | .stStat => { usb with testresult := usbTestresultOf uval.iValue }
  | .stesti => { usb with selftest := usbSelftestOf uval.iValue }
  | .apcLineFailCause => { usb with lastxfer := usbLastxferOf uval.iValue }
  | .batteryPresent =>
      -- ignored until it has been seen twice in a row
      if raised then
        let counted := { usb with bpcnt := usb.bpcnt + 1 }
        if usb.bpcnt ≠ 0 then counted.mapUps UpsInfo.setBattpresent else counted
      else { usb with bpcnt := 0 }.mapUps UpsInfo.clearBattpresent
  | .iden =>
      if usb.upsname = [] ∧ uval.sValue ≠ [] then
        { usb with upsname := uval.sValue.take 99 }
      else usb
  | .upsmodel => processModel uval.sValue usb
  | .dwake => { usb with dwake := uval.dValue.toInt }
  | .dshutd => { usb with dshutd := uval.dValue.toInt }
  | .ltrans => { usb with lotrans := uval.dValue.toInt }
  | .htrans => { usb with hitrans := uval.dValue.toInt }
  | .retpct => { usb with rtnpct := uval.dValue.toInt }
  | .dlbatt => { usb with dlowbatt := uval.dValue.toInt }
  | .mandat => { usb with birth := packedDate uval.iValue }
  | .battdat => { usb with battdat := packedDate uval.iValue }
  | .battReplaceDate => { usb with battdat := codedDate uval.iValue }
  | .serno => processSerial uval.sValue usb
  | .nomoutv => { usb with nomOutputVoltage := inVolts uval.dValue.toInt }
  | .nominv => { usb with nomInputVoltage := inVolts uval.dValue.toInt }
  | .nombattv => { usb with nombattv := uval.dValue }
  | .nompower => { usb with nomPower := uval.dValue.toInt }
  | .sens => { usb with sensitivity := usbSensitivityOf uval.iValue }
  | .dalarm => { usb with beepstate := usbBeepstateOf uval.iValue }
  | _ => usb

/-- {lit}`usb_process_value`. -/
def usbProcessValue (ci : Ci) (uval : UsbValue) (usb : UsbUps) : UsbUps :=
  if usb.quirkOldBackupsPro then
    (usbProcessValueBup ci uval usb).getD (processItem ci uval usb)
  else processItem ci uval usb

/-! ## What an item writes -/

/-- The bits of the status word that an item writes. -/
def usbCiBits : Ci → StatusWord
  | .status => 0xFF
  | .acPresent | .discharging => upsOnline ||| upsOnbatt
  | .belowRemCapLimit | .remTimeLimitExpired | .shutdownImminent => upsBattlow
  | .boost => upsBoost
  | .trim => upsTrim
  | .overload => upsOverload
  | .needReplacement => upsReplacebatt
  | .batteryPresent => upsBattpresent
  | _ => 0

/-- A change of the record that keeps to the driver's fields and to some of its bits. -/
structure KeepsTo (bits : StatusWord) (before after : UsbUps) : Prop where
  config : after.toUpsConfig = before.toUpsConfig
  core : after.toCoreFields = before.toCoreFields
  status : after.status &&& ~~~bits = before.status &&& ~~~bits
  pollTime : after.pollTime = before.pollTime
  quirk : after.quirkOldBackupsPro = before.quirkOldBackupsPro
  caps : ∀ ci, ci ≠ .revno → ci ≠ .serno → after.upsCap ci = before.upsCap ci

namespace KeepsTo

theorem refl (bits : StatusWord) (usb : UsbUps) : KeepsTo bits usb usb :=
  ⟨rfl, rfl, rfl, rfl, rfl, fun _ _ _ => rfl⟩

theorem trans {bits : StatusWord} {first second third : UsbUps}
    (hleft : KeepsTo bits first second) (hright : KeepsTo bits second third) :
    KeepsTo bits first third :=
  ⟨hright.config.trans hleft.config, hright.core.trans hleft.core,
    hright.status.trans hleft.status, hright.pollTime.trans hleft.pollTime,
    hright.quirk.trans hleft.quirk,
    fun ci hrevno hserno => (hright.caps ci hrevno hserno).trans (hleft.caps ci hrevno hserno)⟩

theorem set {bits mask : StatusWord} (hmask : mask &&& ~~~bits = 0) (usb : UsbUps) :
    KeepsTo bits usb (usb.mapUps fun ups => ups.set mask) :=
  ⟨rfl, rfl, raiseMask_and_of_disjoint hmask usb.status, rfl, rfl, fun _ _ _ => rfl⟩

theorem clear {bits mask : StatusWord} (hmask : mask &&& ~~~bits = 0) (usb : UsbUps) :
    KeepsTo bits usb (usb.mapUps fun ups => ups.clear mask) :=
  ⟨rfl, rfl, dropMask_and_of_disjoint hmask usb.status, rfl, rfl, fun _ _ _ => rfl⟩

/-- A change of some bits is a change of more. -/
theorem mono {bits wide : StatusWord} (hwide : bits &&& ~~~wide = 0) {before after : UsbUps}
    (hkeeps : KeepsTo bits before after) : KeepsTo wide before after := by
  have hinside : ~~~wide &&& ~~~bits = ~~~wide := by
    ext i hi
    have hbit : (bits &&& ~~~wide)[i] = false := by simp [hwide]
    simp only [BitVec.getElem_and, BitVec.getElem_not] at hbit ⊢
    cases hw : wide[i] <;> simp_all
  have hand : ∀ word : StatusWord, word &&& ~~~wide = (word &&& ~~~bits) &&& ~~~wide := by
    intro word
    rw [BitVec.and_assoc, BitVec.and_comm (~~~bits), hinside]
  exact ⟨hkeeps.config, hkeeps.core, by rw [hand, hkeeps.status, ← hand], hkeeps.pollTime,
    hkeeps.quirk, hkeeps.caps⟩

end KeepsTo

theorem keepsTo_setOnline (usb : UsbUps) :
    KeepsTo (upsOnline ||| upsOnbatt) usb (usb.mapUps UpsInfo.setOnline) :=
  (KeepsTo.set (by decide) usb).trans (KeepsTo.clear (by decide) _)

theorem keepsTo_clearOnline (usb : UsbUps) :
    KeepsTo (upsOnline ||| upsOnbatt) usb (usb.mapUps UpsInfo.clearOnline) :=
  (KeepsTo.set (by decide) usb).trans (KeepsTo.clear (by decide) _)

/-- Each item writes its own bits of the status word only. -/
theorem processItem_keepsTo (ci : Ci) (uval : UsbValue) (usb : UsbUps) :
    KeepsTo (usbCiBits ci) usb (processItem ci uval usb) := by
  have hset : ∀ mask : StatusWord,
      KeepsTo mask usb (if uval.iValue != 0 then usb.mapUps fun ups => ups.set mask else usb) := by
    intro mask
    split
    · exact KeepsTo.set (BitVec.and_not_self mask) usb
    · exact KeepsTo.refl mask usb
  cases ci with
  | status =>
      refine ⟨rfl, rfl, ?_, rfl, rfl, fun _ _ _ => rfl⟩
      change ((usb.status &&& ~~~0xFF) ||| (uval.iValue &&& 0xFF)) &&& ~~~0xFF =
        usb.status &&& ~~~0xFF
      ext i hi
      simp only [BitVec.getElem_and, BitVec.getElem_or, BitVec.getElem_not]
      cases (0xFF : StatusWord)[i] <;> simp
  | acPresent =>
      unfold processItem
      dsimp only
      split
      · exact keepsTo_setOnline usb
      · exact KeepsTo.refl _ usb
  | discharging =>
      unfold processItem
      dsimp only
      split
      · exact keepsTo_clearOnline usb
      · exact keepsTo_setOnline usb
  | belowRemCapLimit | remTimeLimitExpired | shutdownImminent | boost | trim | overload =>
      exact hset _
  | needReplacement =>
      unfold processItem UpsInfo.setVal
      dsimp only
      split
      · exact KeepsTo.set (by decide) usb
      · exact KeepsTo.refl _ usb
  | batteryPresent =>
      unfold processItem
      dsimp only
      have hraised : KeepsTo upsBattpresent usb
          ({ usb with bpcnt := usb.bpcnt + 1 }.mapUps UpsInfo.setBattpresent) :=
        ⟨rfl, rfl, raiseMask_and_of_disjoint (by decide) usb.status, rfl, rfl, fun _ _ _ => rfl⟩
      have hcleared : KeepsTo upsBattpresent usb
          ({ usb with bpcnt := 0 }.mapUps UpsInfo.clearBattpresent) :=
        ⟨rfl, rfl, dropMask_and_of_disjoint (by decide) usb.status, rfl, rfl, fun _ _ _ => rfl⟩
      split_ifs
      · exact hraised
      · exact ⟨rfl, rfl, rfl, rfl, rfl, fun _ _ _ => rfl⟩
      · exact hcleared
  | iden =>
      unfold processItem
      dsimp only
      split <;> exact ⟨rfl, rfl, rfl, rfl, rfl, fun _ _ _ => rfl⟩
  | upsmodel =>
      unfold processItem processModel
      dsimp only
      split
      · exact ⟨rfl, rfl, rfl, rfl, rfl, fun ci hrevno _ => if_neg hrevno⟩
      · exact ⟨rfl, rfl, rfl, rfl, rfl, fun _ _ _ => rfl⟩
  | serno =>
      unfold processItem processSerial
      dsimp only
      split
      · exact ⟨rfl, rfl, rfl, rfl, rfl, fun ci _ hserno => if_neg hserno⟩
      · exact ⟨rfl, rfl, rfl, rfl, rfl, fun _ _ _ => rfl⟩
  | _ => exact ⟨rfl, rfl, rfl, rfl, rfl, fun _ _ _ => rfl⟩

theorem usbProcessValueBup_keepsTo {ci : Ci} {uval : UsbValue} {usb after : UsbUps}
    (hafter : usbProcessValueBup ci uval usb = some after) (bits : StatusWord) :
    KeepsTo bits usb after := by
  unfold usbProcessValueBup at hafter
  dsimp only at hafter
  split_ifs at hafter
  · obtain rfl := Option.some.inj hafter
    exact ⟨rfl, rfl, rfl, rfl, rfl, fun _ _ _ => rfl⟩
  · cases ci with
    | load | ltrans | htrans | freq =>
        obtain rfl := Option.some.inj hafter
        exact ⟨rfl, rfl, rfl, rfl, rfl, fun _ _ _ => rfl⟩
    | _ => cases hafter

theorem usbProcessValue_keepsTo (ci : Ci) (uval : UsbValue) (usb : UsbUps) :
    KeepsTo (usbCiBits ci) usb (usbProcessValue ci uval usb) := by
  unfold usbProcessValue
  split
  · cases hbup : usbProcessValueBup ci uval usb with
    | none => exact processItem_keepsTo ci uval usb
    | some after => exact usbProcessValueBup_keepsTo hbup _
  · exact processItem_keepsTo ci uval usb

end Apcupsd
