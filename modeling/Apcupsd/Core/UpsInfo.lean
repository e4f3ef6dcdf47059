import Apcupsd.Core.Status
import Apcupsd.Foundations.FloatFormat

/-!
# The shared UPS record

{lit}`UPSINFO` from {lit}`include/struct.h`: the record that the drivers fill, the
core acts on and the status server reports.  Its fields are grouped by who
writes them, which is the only ownership discipline the C++ code has; the group
of the core's own fields is what a driver call leaves alone.

Main results:

- Theorem {lit}`DriverFrame.test_eq`: the core's flags
  survive every driver update.
- Theorems {lit}`chgOnbatt_eq` and {lit}`chgBattlow_eq`: a change predicate is
  the disagreement of the present and the remembered flag.
-/

namespace Apcupsd

open BitFlags

/-! ## Enumerations -/

/-- {lit}`CI_*`: the capability and command index. -/
inductive Ci where
  | upsmodel | status | lqual | whyBatt | stStat | vline | vmax | vmin | vout
  | battlev | vbatt | load | freq | runtim | itemp | dipsw | sens | dwake
  | dshutd | ltrans | htrans | retpct | dalarm | dlbatt | iden | stesti | mandat
  | serno | battdat | nombattv | humid | revno | reg1 | reg2 | reg3 | extbatts
  | atemp | nomoutv | badbatts | eprom | stTime | testalarm | manufacturer
  | shutdownRequested | shutdownImminent | delayBeforeReboot | belowRemCapLimit
  | remTimeLimitExpired | charging | discharging | remCapLimit | remTimeLimit
  | warningCapacityLimit | capacityMode | battPackLevel | cycleCount | acPresent
  | boost | trim | overload | needReplacement | battReplaceDate
  | apcForceShutdown | delayBeforeShutdown | apcDelayBeforeStartup
  | apcDelayBeforeShutdown | apcLineFailCause | nominv | nompower | lowBattery
  | calibration | alarmTimer | outputCurrent | loadApparent | nomApparent
  | bupBattCapBeforeStartup | bupDelayBeforeStartup | bupSelfTest | bupHibernate
  | iFailure | pwVoltageOOR | pwFrequencyOOR | overCharged | overTemp
  | communicationLost | chargerVoltageOOR | chargerCurrentOOR
  | currentNotRegulated | voltageNotRegulated | batteryPresent
  | cycleEprom | upsCaps
deriving DecidableEq, Repr

/-- {lit}`NoLoginMode`. -/
inductive NoLoginMode where
  | noLogon | never | timeout | percent | minutes | always
deriving DecidableEq, Repr

/-- {lit}`UpsMode`. -/
inductive UpsMode where
  | noUps | dumbUps | apcsmartUps | usbUps | networkUps | testUps | pcnetUps
  | snmpliteUps | modbusUps
deriving DecidableEq, Repr

/-- {lit}`ClassMode`. -/
inductive ClassMode where
  | noClass | standalone | shareslave | sharemaster
deriving DecidableEq, Repr

/-- {lit}`LastXferCause`. -/
inductive LastXferCause where
  | xferNa | xferNone | xferOvervolt | xferUndervolt | xferNotchspike
  | xferRipple | xferSelftest | xferForced | xferFreq | xferUnknown
deriving DecidableEq, Repr

/-- {lit}`SelfTestResult`. -/
inductive SelfTestResult where
  | testNa | testNone | testFailed | testWarning | testInprogress | testPassed
  | testFailcap | testFailload | testUnknown
deriving DecidableEq, Repr

/-! ## Floating point measurements -/

/-- A C {lit}`double` as far as the code uses it: a finite value is the rational that it
denotes, zero has no sign, and the special values compare as IEEE 754 prescribes. -/
inductive CDouble where
  | finite (q : ℚ)
  | posInf
  | negInf
  | nan
deriving DecidableEq

/-- The double that is nearest to a number; beyond the largest one it is infinite. -/
def CDouble.nearest (q : ℚ) : CDouble :=
  let rounded := FloatFormat.binary64.round q
  if 2 ^ 1024 ≤ rounded then .posInf
  else if rounded ≤ -2 ^ 1024 then .negInf
  else .finite rounded

/-- The result of an operation, rounded; the special values absorb it. -/
def CDouble.map (f : ℚ → ℚ) : CDouble → CDouble
  | .finite q => nearest (f q)
  | d => d

/-- Integers of no more than 53 bits are doubles. -/
theorem CDouble.nearest_intCast {n : Int} (hn : |n| ≤ 2 ^ 53) : nearest n = .finite n := by
  have hround : FloatFormat.binary64.round (n : ℚ) = n :=
    FloatFormat.round_intCast (by decide) hn
  have hlarge : (2 : ℚ) ^ 53 < 2 ^ 1024 := pow_lt_pow_right₀ one_lt_two (by decide)
  have hbounds : -2 ^ 53 ≤ (n : ℚ) ∧ (n : ℚ) ≤ 2 ^ 53 := abs_le.mp (by exact_mod_cast hn)
  rw [nearest, hround, if_neg (hbounds.2.trans_lt hlarge).not_ge,
    if_neg ((neg_lt_neg hlarge).trans_le hbounds.1).not_ge]

/-- {lit}`d <= i` for a double and an int. -/
def CDouble.leInt : CDouble → Int → Bool
  | .finite q, i => decide (q ≤ i)
  | .posInf, _ => false
  | .negInf, _ => true
  | .nan, _ => false

/-! ## The record -/

/-- Items specified from the config file, and the record's wiring to its class
and driver: constant while the daemon runs. -/
structure UpsConfig where
  nologinType : NoLoginMode
  modeType : UpsMode
  upsclassType : ClassMode
  annoy : Int
  maxtime : Int
  annoydelay : Int
  onbattdelay : Int
  killdelay : Int
  nologinTime : Int
  stattime : Int
  datatime : Int
  polltime : Int
  percent : Int
  runtime : Int
  startTime : Int
deriving DecidableEq

/-- Internal state that only the core writes.  Time stamps are {lit}`time_t`
seconds. -/
structure CoreFields where
  prevStatus : StatusWord
  shutDown : Int
  lastSelfTest : Int
  lastOnbattTime : Int
  lastOffbattTime : Int
  lastTimeOnLine : Int
  lastTimeAnnoy : Int
  lastTimeNologon : Int
  lastTimeChangeme : Int
  startShutLtime : Int
  startShutLoad : Int
  startShutLbatt : Int
  numXfers : Int
  cumTimeOnBatt : Int
  changeBattCounter : Int
  nologinFile : Bool
deriving DecidableEq

/-- Items reported by the UPS and written by its driver.  The count of children
is here because a driver that generates an event also starts its script, and the
wait time because the device loop sets it between passes. -/
structure DriverFields where
  numExecedChildren : Int
  waitTime : Int
  upsCap : Ci → Bool
  selfTest : Int
  pollTime : Int
  lastxfer : LastXferCause
  testresult : SelfTestResult
  battChg : CDouble
  timeLeft : CDouble
  upsLoad : CDouble
  loadApparent : CDouble
  lineFreq : CDouble
  lineVoltage : CDouble
  outputVoltage : CDouble
  outputCurrent : CDouble
  upsTemp : CDouble
  battVoltage : CDouble
  nomOutputVoltage : Int
  nomPower : Int
  nomApparentPower : Int
  dwake : Int
  dshutd : Int
  birth : List Char
  serial : List Char
  battdat : List Char
  firmrev : List Char
  upsname : List Char
  upsmodel : List Char

/-- {lit}`UPSINFO`.  The status word is the one field that the core and the
drivers both write. -/
structure UpsInfo extends UpsConfig, CoreFields, DriverFields where
  status : StatusWord

namespace UpsInfo

/-! ## Status methods

Every method of the record is one mask operation with the mask its name gives.
-/

/-- The shape of every {lit}`is_*` method. -/
def test (ups : UpsInfo) (mask : StatusWord) : Bool :=
  testMask ups.status mask

/-- The shape of every {lit}`chg_*` method. -/
def chg (ups : UpsInfo) (mask : StatusWord) : Bool :=
  testMask (ups.status ^^^ ups.prevStatus) mask

/-- The shape of every {lit}`set_*` method. -/
def set (ups : UpsInfo) (mask : StatusWord) : UpsInfo :=
  { ups with status := raiseMask ups.status mask }

/-- The shape of every {lit}`clear_*` method. -/
def clear (ups : UpsInfo) (mask : StatusWord) : UpsInfo :=
  { ups with status := dropMask ups.status mask }

def isBattlow (ups : UpsInfo) : Bool := ups.test upsBattlow
def isCalibration (ups : UpsInfo) : Bool := ups.test upsCalibration
def isCommlost (ups : UpsInfo) : Bool := ups.test upsCommlost
def isFastpoll (ups : UpsInfo) : Bool := ups.test upsFastpoll
def isOnbatt (ups : UpsInfo) : Bool := ups.test upsOnbatt
def isOnbattMsg (ups : UpsInfo) : Bool := ups.test upsOnbattMsg
def isOnline (ups : UpsInfo) : Bool := ups.test upsOnline
def isReplacebatt (ups : UpsInfo) : Bool := ups.test upsReplacebatt
def isShutdown (ups : UpsInfo) : Bool := ups.test upsShutdown
def isShutLoad (ups : UpsInfo) : Bool := ups.test upsShutLoad
def isShutLtime (ups : UpsInfo) : Bool := ups.test upsShutLtime
def isShutRemote (ups : UpsInfo) : Bool := ups.test upsShutRemote
def isSlave (ups : UpsInfo) : Bool := ups.test upsSlave
def isBattpresent (ups : UpsInfo) : Bool := ups.test upsBattpresent

def chgBattlow (ups : UpsInfo) : Bool := ups.chg upsBattlow
def chgOnbatt (ups : UpsInfo) : Bool := ups.chg upsOnbatt
def chgBattpresent (ups : UpsInfo) : Bool := ups.chg upsBattpresent
def chgShutRemote (ups : UpsInfo) : Bool := ups.chg upsShutRemote

def setCommlost (ups : UpsInfo) : UpsInfo := ups.set upsCommlost
def setFastpoll (ups : UpsInfo) : UpsInfo := ups.set upsFastpoll
def setOnbattMsg (ups : UpsInfo) : UpsInfo := ups.set upsOnbattMsg
def setOnbatt (ups : UpsInfo) : UpsInfo := ups.set upsOnbatt
def setShutdown (ups : UpsInfo) : UpsInfo := ups.set upsShutdown
def setShutBtime (ups : UpsInfo) : UpsInfo := ups.set upsShutBtime
def setShutEmerg (ups : UpsInfo) : UpsInfo := ups.set upsShutEmerg
def setShutLoad (ups : UpsInfo) : UpsInfo := ups.set upsShutLoad
def setShutLtime (ups : UpsInfo) : UpsInfo := ups.set upsShutLtime

def clearCommlost (ups : UpsInfo) : UpsInfo := ups.clear upsCommlost
def clearFastpoll (ups : UpsInfo) : UpsInfo := ups.clear upsFastpoll
def clearOnbattMsg (ups : UpsInfo) : UpsInfo := ups.clear upsOnbattMsg
def clearOnbatt (ups : UpsInfo) : UpsInfo := ups.clear upsOnbatt
def clearReplacebatt (ups : UpsInfo) : UpsInfo := ups.clear upsReplacebatt
def clearShutLoad (ups : UpsInfo) : UpsInfo := ups.clear upsShutLoad
def clearShutLtime (ups : UpsInfo) : UpsInfo := ups.clear upsShutLtime

/-- Unlike its siblings this method also raises {lit}`onbatt`. -/
def clearOnline (ups : UpsInfo) : UpsInfo := (ups.set upsOnbatt).clear upsOnline

/-- Unlike its siblings this method also drops {lit}`onbatt`. -/
def setOnline (ups : UpsInfo) : UpsInfo := (ups.set upsOnline).clear upsOnbatt

/-- The shape of the {lit}`set_*(int val)` overloads. -/
def setVal (ups : UpsInfo) (mask : StatusWord) (val : Bool) : UpsInfo :=
  if val then ups.set mask else ups.clear mask

/-! ## Laws of the methods -/

@[simp]
theorem test_set_self (ups : UpsInfo) (mask : StatusWord) :
    (ups.set mask).test mask = true :=
  testMask_raiseMask_self ups.status mask

theorem test_clear_self {mask : StatusWord} (hmask : mask ≠ 0) (ups : UpsInfo) :
    (ups.clear mask).test mask = false :=
  testMask_dropMask_self hmask ups.status

theorem test_set_of_disjoint {mask other : StatusWord}
    (hdisjoint : other &&& mask = 0) (ups : UpsInfo) :
    (ups.set other).test mask = ups.test mask :=
  testMask_raiseMask_of_disjoint hdisjoint ups.status

theorem test_clear_of_disjoint {mask other : StatusWord}
    (hdisjoint : other &&& mask = 0) (ups : UpsInfo) :
    (ups.clear other).test mask = ups.test mask :=
  testMask_dropMask_of_disjoint hdisjoint ups.status

theorem chgOnbatt_eq (ups : UpsInfo) :
    ups.chgOnbatt = (ups.isOnbatt ^^ testMask ups.prevStatus upsOnbatt) :=
  testMask_xor_upsOnbatt ups.status ups.prevStatus

theorem chgBattlow_eq (ups : UpsInfo) :
    ups.chgBattlow = (ups.isBattlow ^^ testMask ups.prevStatus upsBattlow) :=
  testMask_xor_upsBattlow ups.status ups.prevStatus

theorem chgShutRemote_eq (ups : UpsInfo) :
    ups.chgShutRemote = (ups.isShutRemote ^^ testMask ups.prevStatus upsShutRemote) :=
  testMask_xor_upsShutRemote ups.status ups.prevStatus

end UpsInfo

/-! ## Driver updates -/

/-- What any driver call leaves alone: the configuration, the core's own fields
and the core's own bits of the status word. -/
structure DriverFrame (before after : UpsInfo) : Prop where
  config : after.toUpsConfig = before.toUpsConfig
  core : after.toCoreFields = before.toCoreFields
  bits : after.status &&& coreBits = before.status &&& coreBits

namespace DriverFrame

theorem refl (ups : UpsInfo) : DriverFrame ups ups :=
  ⟨rfl, rfl, rfl⟩

theorem trans {first second third : UpsInfo} (hleft : DriverFrame first second)
    (hright : DriverFrame second third) : DriverFrame first third :=
  ⟨hright.config.trans hleft.config, hright.core.trans hleft.core,
    hright.bits.trans hleft.bits⟩

/-- A core bit is unchanged by a driver call. -/
theorem test_eq {before after : UpsInfo} (hframe : DriverFrame before after)
    {mask : StatusWord} (hmask : mask &&& coreBits = mask) :
    after.test mask = before.test mask :=
  testMask_eq_of_and_eq hmask hframe.bits

theorem isShutdown {before after : UpsInfo} (hframe : DriverFrame before after) :
    after.isShutdown = before.isShutdown :=
  hframe.test_eq (by decide)

end DriverFrame

/-- An atomic update of the record by a driver: any function that respects the
frame.  Drivers perform one under the UPS lock. -/
structure DriverUpdate where
  apply : UpsInfo → UpsInfo
  frame : ∀ ups, DriverFrame ups (apply ups)

/-- The update that changes nothing. -/
def DriverUpdate.none : DriverUpdate where
  apply := id
  frame := DriverFrame.refl

/-- A poll: the driver overwrites every bit of the status word that is not the
core's, and its own fields. -/
def DriverUpdate.poll (word : StatusWord) (fields : DriverFields → DriverFields) :
    DriverUpdate where
  apply := fun ups =>
    { ups with
      toDriverFields := fields ups.toDriverFields
      status := (ups.status &&& coreBits) ||| (word &&& ~~~coreBits) }
  frame := fun ups => ⟨rfl, rfl, replace_and_kept ups.status word coreBits⟩

/-- After a poll the bits that are not the core's are those the driver wrote. -/
theorem DriverUpdate.poll_test {mask : StatusWord} (hmask : coreBits &&& mask = 0)
    (word : StatusWord) (fields : DriverFields → DriverFields) (ups : UpsInfo) :
    ((DriverUpdate.poll word fields).apply ups).test mask = testMask word mask :=
  testMask_replace_of_disjoint hmask ups.status word

/-- The record after a sequence of driver updates. -/
def applyUpdates (updates : List DriverUpdate) (ups : UpsInfo) : UpsInfo :=
  updates.foldl (fun ups update => update.apply ups) ups

theorem applyUpdates_frame (updates : List DriverUpdate) (ups : UpsInfo) :
    DriverFrame ups (applyUpdates updates ups) := by
  induction updates generalizing ups with
  | nil => exact DriverFrame.refl ups
  | cons update updates ih => exact (update.frame ups).trans (ih (update.apply ups))

/-- What every update preserves holds after all of them. -/
theorem applyUpdates_invariant {P : UpsInfo → Prop} {updates : List DriverUpdate}
    (hupdates : ∀ update ∈ updates, ∀ ups, P ups → P (update.apply ups)) {ups : UpsInfo}
    (hups : P ups) : P (applyUpdates updates ups) := by
  induction updates generalizing ups with
  | nil => exact hups
  | cons update updates ih =>
      exact ih (fun later hlater => hupdates later (List.mem_cons_of_mem _ hlater))
        (hupdates update List.mem_cons_self ups hups)

end Apcupsd
