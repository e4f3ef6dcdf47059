import Apcupsd.Usb.VolatileData

/-!
# How often a USB device is polled

{lit}`read_volatile_data` skips a poll if the last one was less than five seconds ago, in runs in
which interrupt reports and other threads change the record between the calls.

Main results:

- Theorem {lit}`readVolatileDataTraced_eq`: a call reads all volatile items, or none.
- Theorem {lit}`call_items`: which of the two a call in a run does.
- Theorem {lit}`polls_throttled_iff`: when polling is throttled on mains and never on battery.
-/

namespace Apcupsd

open Apcupsd.Core

/-! ## The items of a poll -/

/-- The items of the rows that are marked volatile, or of the others. -/
def pollItems (isvolatile : Bool) (table : List KnownInfo) : List Ci :=
  table.filterMap fun info => if info.isvolatile = isvolatile then info.ci else none

/-- The loop through the table, with the items that are updated. -/
def pollTableTraced (port : UsbPort) (isvolatile : Bool) :
    List KnownInfo → ℕ → UsbUps → List Ci × UsbUps
  | [], _, usb => ([], usb)
  | info :: table, row, usb =>
      match info.ci with
      | some ci =>
          if info.isvolatile = isvolatile then
            let rest := pollTableTraced port isvolatile table (row + 1)
              (usbUpdateValue (port row) ci usb).2
            (ci :: rest.1, rest.2)
          else pollTableTraced port isvolatile table (row + 1) usb
      | none => pollTableTraced port isvolatile table (row + 1) usb

/-- {lit}`read_volatile_data`, with the items that are updated. -/
def readVolatileDataTraced (now : Int) (port : UsbPort) (usb : UsbUps) : List Ci × UsbUps :=
  if skipsPoll now usb then ([], usb)
  else pollTableTraced port true knownInfo 0 (clearApcStatus now usb)

/-- Without the items it is the loop. -/
theorem pollTableTraced_eq (port : UsbPort) (isvolatile : Bool) (table : List KnownInfo) (row : ℕ)
    (usb : UsbUps) : pollTableTraced port isvolatile table row usb =
      (pollItems isvolatile table, pollTable port isvolatile table row usb) := by
  induction table generalizing row usb with
  | nil => rfl
  | cons info table ih =>
      unfold pollTableTraced pollTable pollItems
      rw [List.filterMap_cons]
      cases info.ci with
      | none =>
          rw [ih, ite_self]
          rfl
      | some ci =>
          dsimp only
          by_cases hvolatile : info.isvolatile = isvolatile
          · rw [if_pos hvolatile, if_pos hvolatile, if_pos hvolatile, ih]
            rfl
          · rw [if_neg hvolatile, if_neg hvolatile, if_neg hvolatile, ih]
            rfl

/-- A call updates all volatile items, or none. -/
theorem readVolatileDataTraced_eq (now : Int) (port : UsbPort) (usb : UsbUps) :
    readVolatileDataTraced now port usb =
      (if skipsPoll now usb then [] else pollItems true knownInfo,
        readVolatileData now port usb) := by
  unfold readVolatileDataTraced readVolatileData
  split
  · rfl
  · exact pollTableTraced_eq _ _ _ _ _

/-! ## Runs -/

/-- What happens to the record. -/
inductive UsbEvent where
  /-- The loop of {lit}`check_state` through the items of an interrupt report. -/
  | interrupt (values : List (Ci × UsbValue))
  /-- {lit}`output_status` in another thread. -/
  | outputStatus (now : Int)
  | other (change : UsbUps → UsbUps)
  | readVolatileData (now : Int) (port : UsbPort)

/-- {lit}`usb_report_event` for each of the items. -/
def reportEvents (values : List (Ci × UsbValue)) (usb : UsbUps) : UsbUps :=
  values.foldl (fun usb value => usbProcessValue value.1 value.2 usb) usb

/-- {lit}`if (ups->poll_time == 0) ups->poll_time = now`. -/
def stampPollTime (now : Int) (usb : UsbUps) : UsbUps :=
  if usb.pollTime = 0 then { usb with pollTime := now } else usb

/-- A call of {lit}`read_volatile_data`: what it finds, and the items that it updates. -/
structure PollCall where
  now : Int
  onbatt : Bool
  lastPoll : Int
  items : List Ci

/-- The calls of a run. -/
def pollCalls : UsbUps → List UsbEvent → List PollCall
  | _, [] => []
  | usb, .interrupt values :: events => pollCalls (reportEvents values usb) events
  | usb, .outputStatus now :: events => pollCalls (stampPollTime now usb) events
  | usb, .other change :: events => pollCalls (change usb) events
  | usb, .readVolatileData now port :: events =>
      { now := now
        onbatt := usb.isOnbatt
        lastPoll := usb.pollTime
        items := (readVolatileDataTraced now port usb).1 } ::
      pollCalls (readVolatileDataTraced now port usb).2 events

/-- A call that reads all volatile items again. -/
def PollCall.isFull (call : PollCall) : Bool :=
  call.items == pollItems true knownInfo

/-- The first call is at least {lit}`MAX_VOLATILE_POLL_RATE` seconds before the second. -/
def PollCall.Apart (first second : PollCall) : Prop :=
  maxVolatilePollRate ≤ second.now - first.now

/-- Every call on battery is a full one, and full calls off battery are some time apart. -/
structure Throttled (calls : List PollCall) : Prop where
  onBattery : ∀ call ∈ calls, call.onbatt = true → call.isFull = true
  onMains : (calls.filter fun call => !call.onbatt && call.isFull).Pairwise PollCall.Apart

/-- Calls on battery find the last poll some time ago, and calls off battery come some time after
each other. -/
structure Sparse (calls : List PollCall) : Prop where
  onBattery : ∀ call ∈ calls, call.onbatt = true →
    call.lastPoll = 0 ∨ maxVolatilePollRate ≤ call.now - call.lastPoll
  onMains : (calls.filter fun call => !call.onbatt).Pairwise PollCall.Apart

/-- A call reads nothing exactly if it is on battery and shortly after the last poll. -/
theorem call_items {usb : UsbUps} {events : List UsbEvent} {call : PollCall}
    (hcall : call ∈ pollCalls usb events) :
    call.isFull = true ↔
      (call.onbatt = true →
        call.lastPoll = 0 ∨ maxVolatilePollRate ≤ call.now - call.lastPoll) := by
  induction events generalizing usb with
  | nil => cases hcall
  | cons event events ih =>
      cases event with
      | interrupt values => exact ih hcall
      | outputStatus now => exact ih hcall
      | other change => exact ih hcall
      | readVolatileData now port =>
          rcases List.mem_cons.mp hcall with rfl | hlater
          · have hitems : pollItems true knownInfo ≠ [] := by decide
            unfold PollCall.isFull
            dsimp only
            rw [readVolatileDataTraced_eq, beq_iff_eq]
            unfold skipsPoll
            cases usb.isOnbatt with
            | false => simp
            | true =>
                by_cases hskips : usb.pollTime ≠ 0 ∧ now - usb.pollTime < maxVolatilePollRate
                · simp [hskips, hitems.symm]
                · have hlate : usb.pollTime = 0 ∨ maxVolatilePollRate ≤ now - usb.pollTime := by
                    rw [not_and_or, not_not, not_lt] at hskips
                    exact hskips
                  simp [hskips, hlate]
          · exact ih hlater

/-- Polling is throttled on mains and never on battery exactly if every call on battery finds no
earlier poll or one that is long enough ago, and the calls off battery are far enough apart. -/
theorem polls_throttled_iff (usb : UsbUps) (events : List UsbEvent) :
    Throttled (pollCalls usb events) ↔ Sparse (pollCalls usb events) := by
  have hmains : (pollCalls usb events).filter (fun call => !call.onbatt && call.isFull) =
      (pollCalls usb events).filter fun call => !call.onbatt := by
    apply List.filter_congr
    intro call hcall
    cases honbatt : call.onbatt with
    | true => rfl
    | false =>
        have hfull : call.isFull = true := (call_items hcall).mpr (by simp [honbatt])
        rw [hfull, Bool.and_true]
  constructor
  · intro hthrottled
    exact {
      onBattery := fun call hcall honbatt =>
        (call_items hcall).mp (hthrottled.onBattery call hcall honbatt) honbatt
      onMains := hmains ▸ hthrottled.onMains }
  · intro hsparse
    exact {
      onBattery := fun call hcall _ => (call_items hcall).mpr (hsparse.onBattery call hcall)
      onMains := hmains ▸ hsparse.onMains }

/-- A UPS that was never polled, on mains. -/
def pluggedUps : UsbUps where
  toUpsInfo :=
    { newUps { defaultConfig 0 with modeType := .usbUps } with
      upsCap := fun ci => decide (ci = .discharging) }
  toReportFields := ReportFields.zero
  quirkOldBackupsPro := false
  bpcnt := 0

/-- What the device answers on battery. -/
def dischargingValue : UsbValue where
  dValue := .finite 1
  iValue := 1
  sValue := []

/-- A report of the outage, and two polls a second apart. -/
def outagePolls : List UsbEvent :=
  [.interrupt [(.discharging, dischargingValue)],
    .readVolatileData 100 fun _ => some dischargingValue,
    .readVolatileData 101 fun _ => some dischargingValue]

/-- The second poll on battery reads nothing. -/
theorem not_throttled_outagePolls : ¬ Throttled (pollCalls pluggedUps outagePolls) := by
  intro hthrottled
  have hlast : ((pollCalls pluggedUps outagePolls).all fun call =>
      !call.onbatt || call.isFull) = false := by decide +kernel
  have hall : ((pollCalls pluggedUps outagePolls).all fun call =>
      !call.onbatt || call.isFull) = true := by
    rw [List.all_eq_true]
    intro call hcall
    cases honbatt : call.onbatt with
    | false => rfl
    | true => exact hthrottled.onBattery call hcall honbatt
  rw [hlast] at hall
  cases hall

end Apcupsd
