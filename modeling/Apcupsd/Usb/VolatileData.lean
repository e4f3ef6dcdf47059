import Apcupsd.Core.CoreRun
import Apcupsd.Usb.ProcessValue

/-!
# Polling a USB device

{lit}`usb_update_value` and {lit}`read_volatile_data` from {lit}`drivers/usb/usb.c`: the
low byte of the status word is cleared, and rebuilt from the items that can be read.
The answers of {lit}`pusb_get_value`, which each platform implements, are arbitrary.

Main results:

- Definition {lit}`volatileUpdate`: a poll is a driver update.
- Theorem {lit}`readVolatileData_lineWord_of_silent`: a poll that reads no item of the line
  state leaves both line flags clear.
- Theorem {lit}`readVolatileData_silent_iff`: such a poll reports nothing if and only if it
  is skipped or neither flag was raised before.
-/

namespace Apcupsd

open BitFlags Apcupsd.Core

/-! ## The poll -/

/-- What {lit}`pusb_get_value` gets from the device, by the row of the table. -/
abbrev UsbPort := ℕ → Option UsbValue

/-- {lit}`usb_get_value`: without the capability nothing is read. -/
def usbGetValue (answer : Option UsbValue) (ci : Ci) (usb : UsbUps) : Option UsbValue :=
  if usb.upsCap ci then answer else none

/-- {lit}`usb_update_value`. -/
def usbUpdateValue (answer : Option UsbValue) (ci : Ci) (usb : UsbUps) : Bool × UsbUps :=
  match usbGetValue answer ci usb with
  | none => (false, usb)
  | some uval => (true, usbProcessValue ci uval usb)

/-- The loop through the rows that are marked volatile, or through the others. -/
def pollTable (port : UsbPort) (isvolatile : Bool) : List KnownInfo → ℕ → UsbUps → UsbUps
  | [], _, usb => usb
  | info :: table, row, usb =>
      let updated :=
        match info.ci with
        | some ci =>
            if info.isvolatile = isvolatile then (usbUpdateValue (port row) ci usb).2 else usb
        | none => usb
      pollTable port isvolatile table (row + 1) updated

/-- {lit}`MAX_VOLATILE_POLL_RATE`. -/
def maxVolatilePollRate : Int := 5

/-- The early return of {lit}`read_volatile_data`. -/
def skipsPoll (now : Int) (usb : UsbUps) : Bool :=
  usb.isOnbatt && usb.pollTime != 0 && decide (now - usb.pollTime < maxVolatilePollRate)

/-- The time stamp, and the status byte that the items set again. -/
def clearApcStatus (now : Int) (usb : UsbUps) : UsbUps :=
  { usb with pollTime := now, status := usb.status &&& ~~~0xFF }

/-- {lit}`read_volatile_data`. -/
def readVolatileData (now : Int) (port : UsbPort) (usb : UsbUps) : UsbUps :=
  if skipsPoll now usb then usb
  else pollTable port true knownInfo 0 (clearApcStatus now usb)

/-- {lit}`read_static_data`. -/
def readStaticData (port : UsbPort) (usb : UsbUps) : UsbUps :=
  pollTable port false knownInfo 0 usb

/-! ## What a poll writes -/

theorem usbUpdateValue_keepsTo {bits : StatusWord} {answer : Option UsbValue} {ci : Ci}
    {usb : UsbUps} (hbits : (usbGetValue answer ci usb).isSome → usbCiBits ci &&& ~~~bits = 0) :
    KeepsTo bits usb (usbUpdateValue answer ci usb).2 := by
  unfold usbUpdateValue
  cases hanswer : usbGetValue answer ci usb with
  | none => exact KeepsTo.refl bits usb
  | some uval =>
      exact (usbProcessValue_keepsTo ci uval usb).mono (hbits (by rw [hanswer]; rfl))

/-- The rows that a pass over the table reads with success write no other bits. -/
def ReadsWithin (bits : StatusWord) (port : UsbPort) (isvolatile : Bool)
    (table : List KnownInfo) (row : ℕ) (usb : UsbUps) : Prop :=
  ∀ k info ci, table[k]? = some info → info.isvolatile = isvolatile → info.ci = some ci →
    (usbGetValue (port (row + k)) ci usb).isSome → usbCiBits ci &&& ~~~bits = 0

/-- The rows that are left can be read as before: the two capabilities that a pass may
write belong to items that write no bits. -/
theorem ReadsWithin.tail {bits : StatusWord} {port : UsbPort} {isvolatile : Bool}
    {info : KnownInfo} {table : List KnownInfo} {row : ℕ} {usb after : UsbUps}
    (hwithin : ReadsWithin bits port isvolatile (info :: table) row usb)
    (hkeeps : KeepsTo bits usb after) :
    ReadsWithin bits port isvolatile table (row + 1) after := by
  intro k later ci hlater hvolatile hci hread
  by_cases hcaps : ci = .revno ∨ ci = .serno
  · rcases hcaps with rfl | rfl <;> exact BitVec.zero_and
  · rcases not_or.mp hcaps with ⟨hrevno, hserno⟩
    refine hwithin (k + 1) later ci hlater hvolatile hci ?_
    have hcap := hkeeps.caps ci hrevno hserno
    rw [usbGetValue, hcap, Nat.add_right_comm, Nat.add_assoc] at hread
    exact hread

theorem pollTable_keepsTo {bits : StatusWord} {port : UsbPort} {isvolatile : Bool}
    {table : List KnownInfo} {row : ℕ} {usb : UsbUps}
    (hwithin : ReadsWithin bits port isvolatile table row usb) :
    KeepsTo bits usb (pollTable port isvolatile table row usb) := by
  induction table generalizing row usb with
  | nil => exact KeepsTo.refl bits usb
  | cons info table ih =>
      have hrow : ∀ after,
          after =
            (match info.ci with
            | some ci =>
                if info.isvolatile = isvolatile then (usbUpdateValue (port row) ci usb).2
                else usb
            | none => usb) →
          KeepsTo bits usb after := by
        rintro after rfl
        cases hci : info.ci with
        | none => exact KeepsTo.refl bits usb
        | some ci =>
            dsimp only
            split
            case isTrue hvolatile =>
              exact usbUpdateValue_keepsTo (hwithin 0 info ci rfl hvolatile hci)
            case isFalse => exact KeepsTo.refl bits usb
      have hfirst := hrow _ rfl
      exact hfirst.trans (ih (hwithin.tail hfirst))

/-- No item writes a bit of the core. -/
theorem readsWithin_core (port : UsbPort) (isvolatile : Bool) (table : List KnownInfo)
    (row : ℕ) (usb : UsbUps) : ReadsWithin (~~~coreBits) port isvolatile table row usb := by
  intro k info ci _ _ _ _
  cases ci <;> decide

theorem clearApcStatus_bits {mask : StatusWord} (hmask : 0xFF &&& mask = 0) (now : Int)
    (usb : UsbUps) : (clearApcStatus now usb).status &&& mask = usb.status &&& mask :=
  dropMask_and_of_disjoint hmask usb.status

theorem readVolatileData_frame (now : Int) (port : UsbPort) (usb : UsbUps) :
    DriverFrame usb.toUpsInfo (readVolatileData now port usb).toUpsInfo := by
  unfold readVolatileData
  split
  · exact DriverFrame.refl _
  · have hkeeps := pollTable_keepsTo
      (readsWithin_core port true knownInfo 0 (clearApcStatus now usb))
    have hstatus := hkeeps.status
    rw [BitVec.not_not] at hstatus
    exact ⟨hkeeps.config, hkeeps.core,
      hstatus.trans (clearApcStatus_bits (by decide) now usb)⟩

/-- A poll is a driver update. -/
def volatileUpdate (now : Int) (port : UsbPort) (report : ReportFields) (quirk : Bool)
    (bpcnt : ℕ) : DriverUpdate where
  apply := fun ups =>
    (readVolatileData now port
      { toUpsInfo := ups, toReportFields := report, quirkOldBackupsPro := quirk,
        bpcnt := bpcnt }).toUpsInfo
  frame := fun ups => readVolatileData_frame now port
    { toUpsInfo := ups, toReportFields := report, quirkOldBackupsPro := quirk, bpcnt := bpcnt }

/-! ## The line state -/

/-- The items that carry the line state. -/
def Ci.isLineState : Ci → Bool
  | .status | .acPresent | .discharging => true
  | _ => false

/-- A poll reads an item of the line state. -/
def ReportsLine (port : UsbPort) (usb : UsbUps) : Prop :=
  ∃ row info ci, knownInfo[row]? = some info ∧ info.isvolatile = true ∧ info.ci = some ci ∧
    ci.isLineState = true ∧ (usbGetValue (port row) ci usb).isSome

theorem readsWithin_of_silent {port : UsbPort} {usb : UsbUps} (hsilent : ¬ ReportsLine port usb)
    (now : Int) :
    ReadsWithin (~~~(upsOnline ||| upsOnbatt)) port true knownInfo 0 (clearApcStatus now usb) := by
  intro row info ci hinfo hvolatile hci hread
  rw [Nat.zero_add] at hread
  have hline : ci.isLineState = false := by
    by_contra hline
    exact hsilent ⟨row, info, ci, hinfo, hvolatile, hci, Bool.eq_true_of_not_eq_false hline,
      hread⟩
  cases ci <;> first | decide | cases hline

/-- A poll that reads no item of the line state leaves both flags clear. -/
theorem readVolatileData_lineWord_of_silent {port : UsbPort} {usb : UsbUps} {now : Int}
    (hsilent : ¬ ReportsLine port usb) (hpolls : skipsPoll now usb = false) :
    (readVolatileData now port usb).lineWord = 0 := by
  have hstatus := (pollTable_keepsTo (readsWithin_of_silent hsilent now)).status
  rw [BitVec.not_not] at hstatus
  have hcleared : (clearApcStatus now usb).status &&& (upsOnline ||| upsOnbatt) = 0 := by
    have hbyte : ~~~(0xFF : StatusWord) &&& (upsOnline ||| upsOnbatt) = 0 := by decide
    change (usb.status &&& ~~~0xFF) &&& (upsOnline ||| upsOnbatt) = 0
    rw [BitVec.and_assoc, hbyte]
    exact BitVec.and_zero
  unfold readVolatileData
  rw [if_neg (by rw [hpolls]; exact Bool.false_ne_true)]
  exact hstatus.trans hcleared

/-- A poll that keeps the line flags keeps the change of the battery flag. -/
theorem readVolatileData_chgOnbatt {port : UsbPort} {usb : UsbUps} {now : Int}
    (hline : (readVolatileData now port usb).lineWord = usb.lineWord) :
    (readVolatileData now port usb).chgOnbatt = usb.chgOnbatt := by
  have honbatt : (readVolatileData now port usb).isOnbatt = usb.isOnbatt :=
    testMask_eq_of_and_eq (by decide) hline
  have hprev : (readVolatileData now port usb).prevStatus = usb.prevStatus :=
    congrArg CoreFields.prevStatus (readVolatileData_frame now port usb).core
  rw [UpsInfo.chgOnbatt_eq, UpsInfo.chgOnbatt_eq, honbatt, hprev]

/-- The states of the core that begin or end an outage follow a change of the battery
flag. -/
theorem chgOnbatt_of_getState {ups : UpsInfo}
    (hstate : getState ups = .stPowerFailure ∨ getState ups = .stMainsBack) :
    ups.chgOnbatt = true := by
  unfold getState at hstate
  split_ifs at hstate with _ _ hchg _ hchg
  all_goals first
    | exact hchg
    | (rcases hstate with hstate | hstate <;> cases hstate)

/-- A poll that reads no item of the line state keeps the line flags, and so begins or ends
no outage, if and only if it is skipped or neither flag was raised before. -/
theorem readVolatileData_silent_iff (now : Int) (port : UsbPort) (usb : UsbUps) :
    (¬ ReportsLine port usb →
      (readVolatileData now port usb).lineWord = usb.lineWord ∧
        ((getState (readVolatileData now port usb).toUpsInfo = .stPowerFailure ∨
            getState (readVolatileData now port usb).toUpsInfo = .stMainsBack) →
          usb.chgOnbatt = true)) ↔
      (ReportsLine port usb ∨ skipsPoll now usb = true ∨ usb.lineWord = 0) := by
  constructor
  · intro hkeeps
    by_cases hreports : ReportsLine port usb
    · exact Or.inl hreports
    · cases hpolls : skipsPoll now usb with
      | true => exact Or.inr (Or.inl rfl)
      | false =>
          have hline := (hkeeps hreports).1
          rw [readVolatileData_lineWord_of_silent hreports hpolls] at hline
          exact Or.inr (Or.inr hline.symm)
  · intro hcases hsilent
    have hline : (readVolatileData now port usb).lineWord = usb.lineWord := by
      rcases hcases with hreports | hskips | hclear
      · exact absurd hreports hsilent
      · rw [readVolatileData, if_pos hskips]
      · cases hpolls : skipsPoll now usb with
        | true => rw [readVolatileData, if_pos hpolls]
        | false => rw [readVolatileData_lineWord_of_silent hsilent hpolls, hclear]
    refine ⟨hline, fun hstate => ?_⟩
    rw [← readVolatileData_chgOnbatt hline]
    exact chgOnbatt_of_getState hstate

/-! ## Examples of runs -/

/-- A UPS on battery, whose driver last polled it at time 100. -/
def dischargingUps : UsbUps where
  toUpsInfo :=
    { newUps { defaultConfig 0 with modeType := .usbUps } with
      status := upsPlugged ||| upsBattpresent ||| upsOnbatt
      prevStatus := upsPlugged ||| upsBattpresent ||| upsOnbatt
      pollTime := 100
      upsCap := fun ci => decide (ci = .discharging) }
  toReportFields := ReportFields.zero
  quirkOldBackupsPro := false
  bpcnt := 2

/-- The record five seconds later, when no report could be read. -/
def silentUps : UpsInfo :=
  (readVolatileData 105 (fun _ => none) dischargingUps).toUpsInfo

/-- One poll without an answer ends the outage for the core and for the scripts. -/
theorem mainsBack_silentUps :
    ¬ (∀ now port usb, ¬ ReportsLine port usb →
      (readVolatileData now port usb).lineWord = usb.lineWord) ∧
    dischargingUps.chgOnbatt = false ∧ getState silentUps = .stMainsBack ∧
    Effect.executeCommand .cmdMainsback ∈
      (doAction PassEnv.quiet { Core.start (defaultConfig 0) with
        first := false, ups := silentUps }).log := by
  refine ⟨fun hkeeps => ?_, by decide +kernel, by decide +kernel, by decide +kernel⟩
  have hsilent : ¬ ReportsLine (fun _ => none) dischargingUps := by
    rintro ⟨row, info, ci, -, -, -, -, hread⟩
    unfold usbGetValue at hread
    split at hread <;> cases hread
  have hline := hkeeps 105 (fun _ => none) dischargingUps hsilent
  revert hline
  decide +kernel

end Apcupsd
