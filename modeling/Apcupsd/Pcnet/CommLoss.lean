import Mathlib.Data.Int.ConditionallyCompleteOrder
import Apcupsd.Modbus.CommLoss
import Apcupsd.Pcnet.PacketHash
import Apcupsd.Pcnet.Replay

/-!
# The loss of the connection to a management card

A PCNET driver takes the connection for lost if it has heard nothing for 55 seconds:
{lit}`wait_for_data` keeps the time of the last useful packet, and {lit}`read_volatile_data`
compares it with the clock.  Packets also come in during the self test in {lit}`do_action`.

Main results:

- Theorem {lit}`PcnetDevice.step_comm`: what a step does to the flag, to the time and to the
  events.
- Theorem {lit}`PcnetDevice.authentic_of_hears`: a packet that is of use has passed all checks of
  the driver as the packets before it have left it.
- Theorem {lit}`PcnetRun.comm_authentic`: the flag and the events in a run.
-/

namespace Apcupsd

open BitFlags Apcupsd.Core CStrings

/-! ## The driver -/

/-- {lit}`COMMLOST_TIMEOUT`. -/
def commlostTimeout : Int := 55

/-- The driver, the core with the record, what else of the record the driver fills, and
{lit}`_datatime`. -/
structure PcnetDevice where
  driver : PcnetDriver
  core : Core
  report : ReportFields
  linequal : List Char
  eprom : List Char
  datatime : Int

/-- What happens to the device: a pass of {lit}`do_action`, with what arrives if it waits for the
result of a self test; a poll; a call of {lit}`check_state` or of {lit}`get_capabilities`, with
what arrives.  The time is that of the call. -/
inductive PcnetStep where
  | act (env : PassEnv) (arrivals : List Arrival) (time : Int)
  | read (env : PassEnv) (time : Int)
  | wait (arrivals : List Arrival) (time : Int)

namespace PcnetStep

def time : PcnetStep → Int
  | .act _ _ time => time
  | .read _ time => time
  | .wait _ time => time

def arrivals : PcnetStep → List Arrival
  | .act _ arrivals _ => arrivals
  | .read _ _ => []
  | .wait arrivals _ => arrivals

end PcnetStep

/-! ## What a packet leaves alone -/

/-- The bits of the status word that packets write. -/
def pcnetBits : StatusWord :=
  0xFF ||| upsBattpresent ||| upsShutRemote

/-- What packets leave alone. -/
structure PcnetFrame (before after : UpsInfo) : Prop where
  config : after.toUpsConfig = before.toUpsConfig
  core : after.toCoreFields = before.toCoreFields
  bits : after.status &&& ~~~pcnetBits = before.status &&& ~~~pcnetBits

namespace PcnetFrame

variable {first second third : UpsInfo}

theorem refl (ups : UpsInfo) : PcnetFrame ups ups :=
  ⟨rfl, rfl, rfl⟩

theorem trans (hleft : PcnetFrame first second) (hright : PcnetFrame second third) :
    PcnetFrame first third :=
  ⟨hright.config.trans hleft.config, hright.core.trans hleft.core, hright.bits.trans hleft.bits⟩

theorem driverFrame (hframe : PcnetFrame first second) : DriverFrame first second := by
  refine ⟨hframe.config, hframe.core, ?_⟩
  have hinside : coreBits = ~~~pcnetBits &&& coreBits := by decide
  rw [hinside, ← BitVec.and_assoc, hframe.bits, BitVec.and_assoc]

theorem isCommlost (hframe : PcnetFrame first second) : second.isCommlost = first.isCommlost :=
  testMask_eq_of_and_eq (by decide) hframe.bits

end PcnetFrame

theorem setVal_frame {mask : StatusWord} (hmask : mask &&& ~~~pcnetBits = 0) (val : Bool)
    (ups : UpsInfo) : PcnetFrame ups (ups.setVal mask val) := by
  unfold UpsInfo.setVal
  split
  · exact ⟨rfl, rfl, raiseMask_and_of_disjoint hmask ups.status⟩
  · exact ⟨rfl, rfl, dropMask_and_of_disjoint hmask ups.status⟩

/-- An item writes driver fields, and its own bits of the status word. -/
theorem pcnetItem_frame (runtimeInSeconds : Bool) (ci : Ci) (value : List Char)
    (pcnet : PcnetUps) :
    PcnetFrame pcnet.toUpsInfo (pcnetItem runtimeInSeconds ci value pcnet).2.toUpsInfo := by
  cases ci with
  | status =>
      refine ⟨rfl, rfl, ?_⟩
      have hnew : BitVec.ofNat 32 (strtoul 16 value) &&& 0xFF &&& ~~~pcnetBits = 0 := by
        rw [BitVec.and_assoc, show (0xFF : StatusWord) &&& ~~~pcnetBits = 0 by decide]
        exact BitVec.and_zero
      have hold : (~~~0xFF : StatusWord) &&& ~~~pcnetBits = ~~~pcnetBits := by decide
      change ((pcnet.status &&& ~~~0xFF) ||| (BitVec.ofNat 32 (strtoul 16 value) &&& 0xFF)) &&&
        ~~~pcnetBits = pcnet.status &&& ~~~pcnetBits
      rw [BitVec.and_or_distrib_right, hnew, BitVec.and_assoc, hold]
      exact BitVec.or_zero
  | reg2 => exact setVal_frame (by decide) _ _
  | _ => exact ⟨rfl, rfl, rfl⟩

theorem pcnetProcessData_frame (runtimeInSeconds : Bool) (key value : List Char)
    (pcnet : PcnetUps) :
    PcnetFrame pcnet.toUpsInfo
      (pcnetProcessData runtimeInSeconds key value pcnet).2.toUpsInfo := by
  have hremote (val : Bool) : PcnetFrame pcnet.toUpsInfo (pcnet.setVal upsShutRemote val) :=
    setVal_frame (by decide) val pcnet.toUpsInfo
  unfold pcnetProcessData
  split_ifs
  · exact .refl _
  · split
    · exact hremote false
    · exact hremote true
    · exact .refl _
  · cases itemOf key with
    | none => exact .refl _
    | some ci =>
        have hitem := pcnetItem_frame runtimeInSeconds ci value
          { pcnet with upsCap := fun other => if other = ci then true else pcnet.upsCap other }
        exact ⟨hitem.config, hitem.core, hitem.bits⟩

theorem processTable_frame (runtimeInSeconds : Bool) (table : List Pair) (ups : PcnetUps) :
    PcnetFrame ups.toUpsInfo (processTable runtimeInSeconds table ups).2.toUpsInfo := by
  unfold processTable
  generalize false = done
  induction table generalizing done ups with
  | nil => exact .refl _
  | cons field table ih =>
      exact (pcnetProcessData_frame runtimeInSeconds field.1 field.2 ups).trans (ih _ _)

theorem receivePacket_frame (md5 : List Char → List Char) (packet : List Char)
    (pcnet : PcnetState) :
    PcnetFrame pcnet.ups.toUpsInfo (receivePacket md5 packet pcnet).2.ups.toUpsInfo := by
  unfold receivePacket
  split
  · exact .refl _
  · exact processTable_frame _ _ _

theorem afterPackets_frame (md5 : List Char → List Char) (packets : List (List Char))
    (pcnet : PcnetState) :
    PcnetFrame pcnet.ups.toUpsInfo (afterPackets md5 pcnet packets).ups.toUpsInfo := by
  induction packets generalizing pcnet with
  | nil => exact .refl _
  | cons packet packets ih => exact (receivePacket_frame md5 packet pcnet).trans (ih _)

theorem waitForData_frame (md5 : List Char → List Char) (arrivals : List Arrival)
    (pcnet : PcnetState) :
    PcnetFrame pcnet.ups.toUpsInfo (waitForData md5 arrivals pcnet).2.1.ups.toUpsInfo := by
  rcases @waitForData_eq md5 arrivals pcnet with ⟨taken, -, hstate⟩
  rw [hstate]
  exact afterPackets_frame md5 (packetsOf taken) pcnet

/-! ## What a packet has passed -/

/-- The members that packets change: the counters. -/
def PcnetDriver.SameCard (before after : PcnetDriver) : Prop :=
  ∃ reboots uptime, after = { before with reboots := reboots, uptime := uptime }

theorem PcnetDriver.SameCard.trans {first second third : PcnetDriver}
    (hleft : first.SameCard second) (hright : second.SameCard third) : first.SameCard third := by
  rcases hleft with ⟨_, _, rfl⟩
  rcases hright with ⟨reboots, uptime, rfl⟩
  exact ⟨reboots, uptime, rfl⟩

theorem PcnetDriver.SameCard.refl (drv : PcnetDriver) : drv.SameCard drv :=
  ⟨_, _, rfl⟩

theorem authAndMapPacket_sameCard (md5 : List Char → List Char) (drv : PcnetDriver)
    (buf : List Char) : drv.SameCard (authAndMapPacket md5 drv buf).2 := by
  rcases authAndMapPacket_cases md5 drv buf with ⟨counters, -, heq⟩ | ⟨-, heq⟩
  · rw [heq]
    exact ⟨counters.1, counters.2, rfl⟩
  · rw [heq]
    exact .refl drv

/-- The driver behind some packets: the counters are those of the last one that it has taken. -/
def driverAfter (md5 : List Char → List Char) (drv : PcnetDriver) (packets : List (List Char)) :
    PcnetDriver :=
  packets.foldl (fun drv packet => (authAndMapPacket md5 drv (receivedText packet)).2) drv

/-- One of some packets passes all checks of the driver as those before it leave the driver. -/
def Authentic (md5 : List Char → List Char) (drv : PcnetDriver) (packets : List (List Char)) :
    Prop :=
  ∃ before packet after counters, packets = before ++ packet :: after ∧
    Admits md5 (driverAfter md5 drv before) (receivedText packet) counters

/-- A packet in front takes the driver one packet on. -/
theorem Authentic.cons {md5 : List Char → List Char} {drv : PcnetDriver} {packet : List Char}
    {packets : List (List Char)}
    (hlater : Authentic md5 (authAndMapPacket md5 drv (receivedText packet)).2 packets) :
    Authentic md5 drv (packet :: packets) := by
  rcases hlater with ⟨before, found, after, counters, hsplit, hadmits⟩
  exact ⟨packet :: before, found, after, counters, congrArg (List.cons packet) hsplit, hadmits⟩

theorem receivePacket_driver (md5 : List Char → List Char) (packet : List Char)
    (pcnet : PcnetState) :
    (receivePacket md5 packet pcnet).2.driver =
      (authAndMapPacket md5 pcnet.driver (receivedText packet)).2 := by
  unfold receivePacket
  split <;> next heq => rw [heq]

/-- A packet is of use only if it has passed all checks. -/
theorem receivePacket_admits {md5 : List Char → List Char} {packet : List Char}
    {pcnet : PcnetState} (hdone : (receivePacket md5 packet pcnet).1 = true) :
    ∃ counters, Admits md5 pcnet.driver (receivedText packet) counters := by
  unfold receivePacket at hdone
  rcases authAndMapPacket_cases md5 pcnet.driver (receivedText packet) with
    ⟨counters, hadmits, -⟩ | ⟨-, heq⟩
  · exact ⟨counters, hadmits⟩
  · rw [heq] at hdone
    exact absurd hdone Bool.false_ne_true

/-- A call returns with useful data only if a packet has passed all checks. -/
theorem waitForData_authentic (md5 : List Char → List Char) (arrivals : List Arrival)
    (pcnet : PcnetState) :
    pcnet.driver.SameCard (waitForData md5 arrivals pcnet).2.1.driver ∧
      ((waitForData md5 arrivals pcnet).1 = true →
        Authentic md5 pcnet.driver (packetsOf arrivals)) := by
  induction arrivals generalizing pcnet with
  | nil => exact ⟨.refl _, fun hdone => absurd hdone Bool.false_ne_true⟩
  | cons arrival arrivals ih =>
      cases arrival with
      | packet bytes =>
          have hdriver := receivePacket_driver md5 bytes pcnet
          have hcard := authAndMapPacket_sameCard md5 pcnet.driver (receivedText bytes)
          rw [← hdriver] at hcard
          rw [waitForData]
          dsimp only
          split_ifs with hdone
          · rcases receivePacket_admits hdone with ⟨counters, hadmits⟩
            exact ⟨hcard, fun _ => ⟨[], bytes, packetsOf arrivals, counters, rfl, hadmits⟩⟩
          · rcases ih (receivePacket md5 bytes pcnet).2 with ⟨hlater, hauthentic⟩
            rw [hdriver] at hauthentic
            exact ⟨hcard.trans hlater, fun hfound => (hauthentic hfound).cons⟩
      | interrupted =>
          rw [waitForData]
          exact ih pcnet
      | failed => exact ⟨.refl _, fun hdone => absurd hdone Bool.false_ne_true⟩
      | timeout => exact ⟨.refl _, fun hdone => absurd hdone Bool.false_ne_true⟩

/-! ## Changes of the flag -/

/-- The event that goes with a change of the flag. -/
def turned : Bool → Bool → List (Boundary Unit)
  | false, true => [.opens ()]
  | true, false => [.closes ()]
  | _, _ => []

@[simp]
theorem turned_self (lost : Bool) : turned lost lost = [] := by
  cases lost <;> rfl

/-- The loss that the flag stands for. -/
def openLoss (lost : Bool) : Option Unit :=
  if lost then some () else none

/-- The events that go with the changes come in pairs. -/
theorem LeavesOpen.turned {events : List (Boundary Unit)} {before : Bool}
    (hleaves : LeavesOpen events (openLoss before)) (after : Bool) :
    LeavesOpen (events ++ Apcupsd.turned before after) (openLoss after) := by
  cases before <;> cases after
  · exact (List.append_nil events).symm ▸ hleaves
  · exact hleaves.opens
  · exact hleaves.closes
  · exact (List.append_nil events).symm ▸ hleaves

namespace PcnetDevice

variable (md5 : List Char → List Char)

/-! ## Steps -/

/-- The driver with a record. -/
def withUps (device : PcnetDevice) (ups : UpsInfo) : PcnetState where
  driver := device.driver
  ups :=
    { toUpsInfo := ups
      toReportFields := device.report
      linequal := device.linequal
      eprom := device.eprom }

/-- {lit}`wait_for_data`: the members of the driver, and what is not the core's in the record. -/
def hear (arrivals : List Arrival) (time : Int) (device : PcnetDevice) : PcnetDevice :=
  let (done, pcnet, _) := waitForData md5 arrivals (device.withUps device.core.ups)
  { device with
    driver := pcnet.driver
    report := pcnet.ups.toReportFields
    linequal := pcnet.ups.linequal
    eprom := pcnet.ups.eprom
    datatime := if done then time else device.datatime }

/-- What a call of {lit}`wait_for_data` stores in the core's record. -/
def heardUpdate (arrivals : List Arrival) (device : PcnetDevice) : DriverUpdate where
  apply := fun ups => (waitForData md5 arrivals (device.withUps ups)).2.1.ups.toUpsInfo
  frame := fun ups => (waitForData_frame md5 arrivals (device.withUps ups)).driverFrame

/-- {lit}`DEVICE_CMD_CHECK_SELFTEST`. -/
def checkSelftest (time : Int) : DriverUpdate where
  apply := fun ups =>
    if ups.upsCap .whyBatt ∧ ups.lastxfer = .xferSelftest then { ups with selfTest := time }
    else ups
  frame := fun ups => by split <;> exact ⟨rfl, rfl, rfl⟩

/-- {lit}`entry_point`, as a pass calls it. -/
def passEnv (env : PassEnv) (arrivals : List Arrival) (time : Int) (device : PcnetDevice) :
    PassEnv :=
  { env with
    checkSelftest := [checkSelftest time]
    dtrEnable := []
    getSelftestMsg := [device.heardUpdate md5 arrivals]
    dtrStDisable := []
    readVolatileData := []
    killPower := [] }

/-- A pass has asked for the result of the self test. -/
def asksForResult (core : Core) : Bool :=
  core.log.any fun
    | .entryPoint .getSelftestMsg => true
    | _ => false

/-- A pass. -/
def takeAction (env : PassEnv) (arrivals : List Arrival) (time : Int) (device : PcnetDevice) :
    PcnetDevice :=
  let core := doAction (device.passEnv md5 env arrivals time) device.core
  if asksForResult core then { device.hear md5 arrivals time with core := core }
  else { device with core := core }

/-- {lit}`read_volatile_data`. -/
def readVolatileData (env : PassEnv) (time : Int) (device : PcnetDevice) : PcnetDevice :=
  let diff := time - device.datatime
  if device.core.ups.isCommlost then
    if diff < commlostTimeout then
      { device with
        core := (generateEvent env device.core .cmdCommok).mapUps UpsInfo.clearCommlost }
    else device
  else if diff ≥ commlostTimeout then
    { device with
      core := (generateEvent env device.core .cmdCommfailure).mapUps
          UpsInfo.setCommlost }
  else device

/-- {lit}`check_state`. -/
def checkState (arrivals : List Arrival) (time : Int) (device : PcnetDevice) : PcnetDevice :=
  { device.hear md5 arrivals time with
    core := device.core.mapUps (device.heardUpdate md5 arrivals).apply }

/-- One step; the log is that of the step. -/
def step (device : PcnetDevice) : PcnetStep → PcnetDevice :=
  let fresh := { device with core := { device.core with log := [] } }
  fun
  | .act env arrivals time => fresh.takeAction md5 env arrivals time
  | .read env time => fresh.readVolatileData env time
  | .wait arrivals time => fresh.checkState md5 arrivals time

/-! ## What a step does -/

/-- A step brings a packet that is of use. -/
def hears (device : PcnetDevice) : PcnetStep → Bool :=
  let fresh := { device with core := { device.core with log := [] } }
  fun
  | .act env arrivals time =>
      asksForResult (doAction (fresh.passEnv md5 env arrivals time) fresh.core) &&
        (waitForData md5 arrivals (fresh.withUps fresh.core.ups)).1
  | .read _ _ => false
  | .wait arrivals _ => (waitForData md5 arrivals (fresh.withUps fresh.core.ups)).1

/-- The flag after a step. -/
def nextLost (device : PcnetDevice) : PcnetStep → Bool
  | .read _ time => decide (commlostTimeout ≤ time - device.datatime)
  | _ => device.core.ups.isCommlost

/-- A pass leaves the flag alone. -/
theorem doAction_commlost (env : PassEnv) (arrivals : List Arrival) (time : Int)
    (device : PcnetDevice) :
    (doAction (device.passEnv md5 env arrivals time) device.core).ups.isCommlost =
      device.core.ups.isCommlost := by
  refine (doAction_steps (device.passEnv md5 env arrivals time) device.core).invariant
    (P := fun ups => ups.isCommlost = device.core.ups.isCommlost) ?_ ?_ ?_
  · exact fun change hchange ups hups =>
      (testMask_eq_of_and_eq (by decide) (hchange ups).1).trans hups
  · intro updates hupdates update hmem ups hups
    have hcalls : updates = [checkSelftest time] ∨ updates = [device.heardUpdate md5 arrivals] ∨
        updates = [] := by
      simp only [PassEnv.driverCalls, passEnv, List.mem_cons, List.not_mem_nil, or_false]
        at hupdates
      tauto
    rcases hcalls with rfl | rfl | rfl
    · obtain rfl := List.mem_singleton.mp hmem
      rw [← hups]
      unfold checkSelftest
      dsimp only
      split <;> rfl
    · obtain rfl := List.mem_singleton.mp hmem
      exact (waitForData_frame md5 arrivals (device.withUps ups)).isCommlost.trans hups
    · cases hmem
  · unfold UpsInfo.isCommlost UpsInfo.test
    rw [(firstCall_status _ device.core).1]

/-- A poll compares the time of the last useful packet with the clock. -/
theorem readVolatileData_comm (env : PassEnv) (time : Int) {device : PcnetDevice}
    (hlog : device.core.log = []) :
    (device.readVolatileData env time).core.ups.isCommlost =
        decide (commlostTimeout ≤ time - device.datatime) ∧
      commEvents (device.readVolatileData env time).core =
        turned device.core.ups.isCommlost (decide (commlostTimeout ≤ time - device.datatime)) := by
  have hempty := commEvents_of_log hlog
  unfold readVolatileData
  dsimp only
  split_ifs with hlost hshort hlong
  · rw [decide_eq_false (not_le.mpr hshort), hlost, commEvents_mapUps,
      commEvents_generateEvent _ _ rfl, hempty]
    exact ⟨UpsInfo.test_clear_self (by decide) _, rfl⟩
  · rw [decide_eq_true (not_lt.mp hshort), hlost]
    exact ⟨rfl, hempty⟩
  · rw [decide_eq_true hlong, Bool.eq_false_iff.mpr hlost, commEvents_mapUps,
      commEvents_generateEvent _ _ rfl, hempty]
    exact ⟨UpsInfo.test_set_self _ _, rfl⟩
  · rw [decide_eq_false hlong, Bool.eq_false_iff.mpr hlost]
    exact ⟨rfl, hempty⟩

/-- A poll keeps the members of the driver. -/
theorem readVolatileData_members (env : PassEnv) (time : Int) (device : PcnetDevice) :
    (device.readVolatileData env time).driver = device.driver ∧
      (device.readVolatileData env time).datatime = device.datatime := by
  unfold readVolatileData
  dsimp only
  split_ifs <;> exact ⟨rfl, rfl⟩

theorem hear_members (arrivals : List Arrival) (time : Int) (device : PcnetDevice) :
    device.driver.SameCard (device.hear md5 arrivals time).driver ∧
      (device.hear md5 arrivals time).datatime =
        if (waitForData md5 arrivals (device.withUps device.core.ups)).1 then time
        else device.datatime :=
  ⟨(waitForData_authentic md5 arrivals (device.withUps device.core.ups)).1, rfl⟩

/-- What a step does to the flag, to the time of the last useful packet and to the events. -/
theorem step_comm (device : PcnetDevice) (step : PcnetStep) :
    (device.step md5 step).core.ups.isCommlost = device.nextLost step ∧
      commEvents (device.step md5 step).core =
        turned device.core.ups.isCommlost (device.nextLost step) ∧
      device.driver.SameCard (device.step md5 step).driver ∧
      (device.step md5 step).datatime =
        if device.hears md5 step then step.time else device.datatime := by
  let fresh : PcnetDevice := { device with core := { device.core with log := [] } }
  cases step with
  | act env arrivals time =>
      have hlost := fresh.doAction_commlost md5 env arrivals time
      have hnone := @commEvents_doAction (fresh.passEnv md5 env arrivals time) fresh.core rfl
      rcases hear_members md5 arrivals time fresh with ⟨hcard, hdatatime⟩
      change (fresh.takeAction md5 env arrivals time).core.ups.isCommlost = _ ∧
        commEvents (fresh.takeAction md5 env arrivals time).core = _ ∧
        fresh.driver.SameCard (fresh.takeAction md5 env arrivals time).driver ∧
        (fresh.takeAction md5 env arrivals time).datatime =
          if asksForResult _ && (waitForData md5 arrivals (fresh.withUps fresh.core.ups)).1 then
            time
          else fresh.datatime
      unfold takeAction nextLost
      dsimp only
      rw [turned_self]
      cases hasks : asksForResult (doAction (fresh.passEnv md5 env arrivals time) fresh.core) with
      | true => exact ⟨hlost, hnone, hcard, hdatatime⟩
      | false => exact ⟨hlost, hnone, .refl _, rfl⟩
  | read env time =>
      rcases @readVolatileData_comm env time fresh rfl with ⟨hlost, hevents⟩
      rcases readVolatileData_members env time fresh with ⟨hdriver, hdatatime⟩
      refine ⟨hlost, hevents, ⟨_, _, hdriver⟩, hdatatime⟩
  | wait arrivals time =>
      rcases hear_members md5 arrivals time fresh with ⟨hcard, hdatatime⟩
      have hlost := (waitForData_frame md5 arrivals (fresh.withUps fresh.core.ups)).isCommlost
      exact ⟨hlost, (turned_self _).symm, hcard, hdatatime⟩

/-- A step brings a packet that is of use only if one has passed all checks. -/
theorem authentic_of_hears {device : PcnetDevice} {step : PcnetStep}
    (hhears : device.hears md5 step = true) :
    Authentic md5 device.driver (packetsOf step.arrivals) := by
  let fresh : PcnetDevice := { device with core := { device.core with log := [] } }
  cases step with
  | act env arrivals time =>
      have hdone := (Bool.and_eq_true _ _ ▸ hhears :
        asksForResult _ = true ∧ (waitForData md5 arrivals (fresh.withUps fresh.core.ups)).1 = true)
      exact (waitForData_authentic md5 arrivals (fresh.withUps fresh.core.ups)).2 hdone.2
  | read env time => cases hhears
  | wait arrivals time =>
      exact (waitForData_authentic md5 arrivals (fresh.withUps fresh.core.ups)).2 hhears

end PcnetDevice

/-! ## Runs -/

/-- The device thread after {lit}`Open`, which has cleared the flag; the clock does not go
back. -/
structure PcnetRun where
  md5 : List Char → List Char
  start : PcnetDevice
  steps : ℕ → PcnetStep
  clear : start.core.ups.isCommlost = false
  opened : start.datatime ≤ (steps 0).time
  clock : Monotone fun n => (steps n).time

namespace PcnetRun

variable (run : PcnetRun)

def device : ℕ → PcnetDevice
  | 0 => run.start
  | n + 1 => (device n).step run.md5 (run.steps n)

/-- The connection counts as lost. -/
def lost (n : ℕ) : Bool :=
  (run.device n).core.ups.isCommlost

/-- What a step announces. -/
def events (n : ℕ) : List (Boundary Unit) :=
  commEvents (run.device (n + 1)).core

/-- A step brings a packet that is of use. -/
def heard (n : ℕ) : Bool :=
  (run.device n).hears run.md5 (run.steps n)

/-- What has been announced. -/
def announced (n : ℕ) : List (Boundary Unit) :=
  (List.range n).flatMap run.events

theorem announced_leavesOpen (n : ℕ) :
    LeavesOpen (run.announced n) (openLoss (run.lost n)) := by
  induction n with
  | zero =>
      unfold lost device
      rw [run.clear]
      exact .nil
  | succ n ih =>
      rcases (run.device n).step_comm run.md5 (run.steps n) with
        ⟨hlost, hevents, -, -⟩
      have hnext : run.announced (n + 1) = run.announced n ++ run.events n := by
        simp [announced, List.range_succ]
      have hturned : run.events n = turned (run.lost n) (run.lost (n + 1)) := by
        rw [show run.lost (n + 1) = _ from hlost]
        exact hevents
      rw [hnext, hturned]
      exact ih.turned _

/-- The driver is that of the same card. -/
theorem sameCard (n : ℕ) : run.start.driver.SameCard (run.device n).driver := by
  induction n with
  | zero => exact .refl _
  | succ n ih => exact ih.trans ((run.device n).step_comm run.md5 (run.steps n)).2.2.1

theorem time_le {m n : ℕ} (hle : m ≤ n) : (run.steps m).time ≤ (run.steps n).time :=
  run.clock hle

theorem datatime_succ (n : ℕ) :
    (run.device (n + 1)).datatime =
      if run.heard n then (run.steps n).time else (run.device n).datatime :=
  ((run.device n).step_comm run.md5 (run.steps n)).2.2.2

/-- {lit}`_datatime` is the time of the last useful packet, or that of the opening. -/
theorem lt_datatime_iff (n : ℕ) (time : Int) :
    time < (run.device n).datatime ↔
      time < run.start.datatime ∨ ∃ m < n, run.heard m = true ∧ time < (run.steps m).time := by
  induction n with
  | zero => exact ⟨.inl, fun hor => hor.resolve_right (fun ⟨m, hm, _⟩ => by cases hm)⟩
  | succ n ih =>
      rw [datatime_succ]
      split_ifs with hheard
      · constructor
        · exact fun hlt => .inr ⟨n, Nat.lt_succ_self n, hheard, hlt⟩
        · rintro (hstart | ⟨m, hm, -, hlt⟩)
          · exact hstart.trans_le (run.opened.trans (run.time_le (Nat.zero_le n)))
          · exact hlt.trans_le (run.time_le (Nat.le_of_lt_succ hm))
      · rw [ih]
        refine or_congr_right ⟨?_, ?_⟩
        · exact fun ⟨m, hm, hrest⟩ => ⟨m, hm.trans (Nat.lt_succ_self n), hrest⟩
        · rintro ⟨m, hm, hheardm, hlt⟩
          rcases Nat.lt_succ_iff_lt_or_eq.mp hm with hless | rfl
          · exact ⟨m, hless, hheardm, hlt⟩
          · exact absurd hheardm hheard

theorem lost_succ (n : ℕ) :
    run.lost (n + 1) = (run.device n).nextLost (run.steps n) :=
  ((run.device n).step_comm run.md5 (run.steps n)).1

theorem events_eq (n : ℕ) : run.events n = turned (run.lost n) (run.lost (n + 1)) := by
  rw [lost_succ]
  exact ((run.device n).step_comm run.md5 (run.steps n)).2.1

/-- While the connection counts as lost, the last useful packet is as old as the loss, unless
one has come in since. -/
theorem heard_or_silent {n : ℕ} (hlost : run.lost n = true) :
    (∃ m < n, run.lost m = true ∧ run.heard m = true ∧
      (run.device n).datatime = (run.steps m).time) ∨
    ∀ k, n ≤ k → commlostTimeout ≤ (run.steps k).time - (run.device n).datatime := by
  induction n with
  | zero => exact absurd (run.clear.symm.trans hlost) Bool.false_ne_true
  | succ n ih =>
      have hkept (hbefore : run.lost n = true) :
          (∃ m < n + 1, run.lost m = true ∧ run.heard m = true ∧
            (run.device (n + 1)).datatime = (run.steps m).time) ∨
          ∀ k, n + 1 ≤ k →
            commlostTimeout ≤ (run.steps k).time - (run.device (n + 1)).datatime := by
        rw [datatime_succ]
        split_ifs with hheard
        · exact .inl ⟨n, Nat.lt_succ_self n, hbefore, hheard, rfl⟩
        · refine (ih hbefore).imp ?_ ?_
          · exact fun ⟨m, hm, hrest⟩ => ⟨m, hm.trans (Nat.lt_succ_self n), hrest⟩
          · exact fun hsilent k hk => hsilent k ((Nat.le_succ n).trans hk)
      rw [lost_succ] at hlost
      cases hstep : run.steps n with
      | read env time =>
          have hlong : commlostTimeout ≤ time - (run.device n).datatime := by
            rw [hstep] at hlost
            exact of_decide_eq_true hlost
          have hnotheard : run.heard n = false := by
            unfold heard
            rw [hstep]
            rfl
          have htime : (run.steps n).time = time := by rw [hstep, PcnetStep.time]
          refine .inr fun k hk => ?_
          rw [datatime_succ, hnotheard, if_neg Bool.false_ne_true]
          have hlater := run.time_le ((Nat.le_succ n).trans hk)
          omega
      | act env arrivals time =>
          rw [hstep] at hlost
          exact hkept hlost
      | wait arrivals time =>
          rw [hstep] at hlost
          exact hkept hlost

/-- After a poll the flag says whether anything useful has come in for 55 seconds. -/
theorem lost_iff_of_read {n : ℕ} {env : PassEnv} {time : Int}
    (hstep : run.steps n = .read env time) :
    run.lost (n + 1) = true ↔ 55 ≤ time - run.start.datatime ∧
      ∀ m < n, run.heard m = true → 55 ≤ time - (run.steps m).time := by
  have hflag : run.lost (n + 1) = decide (55 ≤ time - (run.device n).datatime) := by
    rw [lost_succ, hstep]
    rfl
  have hbound := run.lt_datatime_iff n (time - 55)
  rw [hflag, decide_eq_true_iff]
  constructor
  · intro hlong
    have hnot := mt hbound.mpr (by omega)
    rw [not_or] at hnot
    refine ⟨by omega, fun m hm hheard => ?_⟩
    by_contra hshort
    exact hnot.2 ⟨m, hm, hheard, by omega⟩
  · rintro ⟨hstart, hall⟩
    by_contra hshort
    rcases hbound.mp (by omega) with hlate | ⟨m, hm, hheard, hlate⟩
    · omega
    · have hm := hall m hm hheard
      omega

/-- Only a poll shortly after a useful packet announces the end of a loss. -/
theorem authentic_of_closes {n : ℕ} (hcloses : Boundary.closes () ∈ run.events n) :
    ∃ m < n, run.lost m = true ∧ (run.steps n).time - (run.steps m).time < 55 ∧
      run.start.driver.SameCard (run.device m).driver ∧
      Authentic run.md5 (run.device m).driver (packetsOf (run.steps m).arrivals) := by
  rw [events_eq] at hcloses
  have hboth : run.lost n = true ∧ run.lost (n + 1) = false := by
    cases hbefore : run.lost n <;> cases hafter : run.lost (n + 1) <;>
      simp [turned, hbefore, hafter] at hcloses ⊢
  rcases hboth with ⟨hbefore, hafter⟩
  rw [lost_succ] at hafter
  cases hstep : run.steps n with
  | read env time =>
      rw [hstep] at hafter
      have hshort : ¬ commlostTimeout ≤ time - (run.device n).datatime :=
        of_decide_eq_false hafter
      have htime : (run.steps n).time = time := by rw [hstep, PcnetStep.time]
      rcases run.heard_or_silent hbefore with ⟨m, hm, hlostm, hheard, hdatatime⟩ | hsilent
      · rw [hdatatime] at hshort
        exact ⟨m, hm, hlostm, not_le.mp hshort, run.sameCard m,
          PcnetDevice.authentic_of_hears run.md5 hheard⟩
      · have hlong := hsilent n le_rfl
        rw [htime] at hlong
        exact absurd hlong hshort
  | act env arrivals time =>
      rw [hstep] at hafter
      exact absurd (hbefore.symm.trans hafter) Bool.noConfusion
  | wait arrivals time =>
      rw [hstep] at hafter
      exact absurd (hbefore.symm.trans hafter) Bool.noConfusion

/-- In every run the loss of the connection and its end are announced in turn; after a poll the
connection counts as lost if and only if for 55 seconds nothing useful has come in, nor was the
device opened; and the end of a loss is announced only after a packet that has passed all checks,
the last one against the counters that the driver has then, in the last 55 seconds and since the
loss was announced. -/
theorem comm_authentic (n : ℕ) :
    LeavesOpen (run.announced n) (openLoss (run.lost n)) ∧
    (∀ env time, run.steps n = .read env time →
      (run.lost (n + 1) = true ↔ 55 ≤ time - run.start.datatime ∧
        ∀ m < n, run.heard m = true → 55 ≤ time - (run.steps m).time)) ∧
    (Boundary.closes () ∈ run.events n →
      ∃ m < n, run.lost m = true ∧ (run.steps n).time - (run.steps m).time < 55 ∧
        run.start.driver.SameCard (run.device m).driver ∧
        Authentic run.md5 (run.device m).driver (packetsOf (run.steps m).arrivals)) :=
  ⟨run.announced_leavesOpen n, fun _ _ => run.lost_iff_of_read, run.authentic_of_closes⟩

/-- A run in which nothing comes in for a minute, and then a packet. -/
def silentMinute : PcnetRun where
  md5 := md5Hex
  start :=
    { driver := ⟨['9'], ['u'], ['p'], true, 0, 0, false⟩
      core := Core.start (defaultConfig 0)
      report := ReportFields.zero
      linequal := []
      eprom := []
      datatime := 0 }
  steps := fun
    | 0 => .read PassEnv.quiet 60
    | 1 => .wait [.packet "SR=1\nSU=1\nPC=9\n51=08\nMD=52eb64c4d5ca851f59c4bccfe42d7d71".toList] 61
    | _ => .read PassEnv.quiet 62
  clear := by decide
  opened := by decide
  clock := monotone_nat_of_le_succ fun n => by
    rcases n with _ | _ | n
    · decide
    · decide
    · exact le_rfl

/-- The loss of that minute ends with the packet. -/
theorem comm_authentic_silentMinute :
    silentMinute.events 0 = [.opens ()] ∧ silentMinute.events 2 = [.closes ()] ∧
      ∃ m < 2, silentMinute.lost m = true ∧
        (silentMinute.steps 2).time - (silentMinute.steps m).time < 55 ∧
        silentMinute.start.driver.SameCard (silentMinute.device m).driver ∧
        Authentic silentMinute.md5 (silentMinute.device m).driver
          (packetsOf (silentMinute.steps m).arrivals) := by
  have hcloses : silentMinute.events 2 = [.closes ()] := by decide +kernel
  refine ⟨by decide +kernel, hcloses, (silentMinute.comm_authentic 2).2.2 ?_⟩
  rw [hcloses]
  exact List.mem_singleton_self _

end PcnetRun

end Apcupsd
