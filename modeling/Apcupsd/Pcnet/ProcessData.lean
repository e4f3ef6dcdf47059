import Apcupsd.Core.ReportFields
import Apcupsd.Core.TextNumbers
import Apcupsd.Usb.ProcessValue

/-!
# What a field of a PCNET packet does

{lit}`pcnet_process_data` from {lit}`drivers/pcnet/pcnet.c`: the key of a field selects an
item, and its value is stored.

Main results:

- Theorem {lit}`numbers_pcnetProcessData_of_not_counted`: a field that is not counted changes
  no number.
- Theorem {lit}`numbers_pcnetProcessData_append_cons`: no number depends on what stands behind
  a character that belongs to no number.
- Theorem {lit}`exists_separating`: a counted key has two values that leave different numbers.
-/

namespace Apcupsd

open BitFlags CStrings

/-! ## The record -/

/-- The record with the texts that only this driver fills. -/
structure PcnetUps extends UpsInfo, ReportFields where
  linequal : List Char
  eprom : List Char

/-- {lit}`UPS_Cmd`, as {lit}`init_ups_struct` leaves it. -/
def upsCmd : Ci → ℕ
  | .upsmodel => 0x1
  | .status => 'Q'.toNat
  | .lqual => '9'.toNat
  | .whyBatt => 'G'.toNat
  | .stStat => 'X'.toNat
  | .vline => 'L'.toNat
  | .vmax => 'M'.toNat
  | .vmin => 'N'.toNat
  | .vout => 'O'.toNat
  | .battlev => 'f'.toNat
  | .vbatt => 'B'.toNat
  | .load => 'P'.toNat
  | .freq => 'F'.toNat
  | .runtim => 'j'.toNat
  | .itemp => 'C'.toNat
  | .dipsw => '7'.toNat
  | .sens => 's'.toNat
  | .dwake => 'r'.toNat
  | .dshutd => 'p'.toNat
  | .ltrans => 'l'.toNat
  | .htrans => 'u'.toNat
  | .retpct => 'e'.toNat
  | .dalarm => 'k'.toNat
  | .dlbatt => 'q'.toNat
  | .iden => 'c'.toNat
  | .stesti => 'E'.toNat
  | .mandat => 'm'.toNat
  | .serno => 'n'.toNat
  | .battdat => 'x'.toNat
  | .nombattv => 'g'.toNat
  | .humid => 'h'.toNat
  | .revno => 'b'.toNat
  | .reg1 => '~'.toNat
  | .reg2 => '\''.toNat
  | .reg3 => '8'.toNat
  | .extbatts => '>'.toNat
  | .atemp => 't'.toNat
  | .nomoutv => 'o'.toNat
  | .badbatts => '<'.toNat
  | .eprom => 0x1a
  | .stTime => 'd'.toNat
  | .cycleEprom => '-'.toNat
  | .upsCaps => 'a'.toNat
  | _ => 0

/-- The indices below {lit}`CI_MAXCI`, in their order. -/
def ciOrder : List Ci :=
  [.upsmodel, .status, .lqual, .whyBatt, .stStat, .vline, .vmax, .vmin, .vout, .battlev, .vbatt,
    .load, .freq, .runtim, .itemp, .dipsw, .sens, .dwake, .dshutd, .ltrans, .htrans, .retpct,
    .dalarm, .dlbatt, .iden, .stesti, .mandat, .serno, .battdat, .nombattv, .humid, .revno,
    .reg1, .reg2, .reg3, .extbatts, .atemp, .nomoutv, .badbatts, .eprom, .stTime, .testalarm,
    .manufacturer, .shutdownRequested, .shutdownImminent, .delayBeforeReboot,
    .belowRemCapLimit, .remTimeLimitExpired, .charging, .discharging, .remCapLimit,
    .remTimeLimit, .warningCapacityLimit, .capacityMode, .battPackLevel, .cycleCount,
    .acPresent, .boost, .trim, .overload, .needReplacement, .battReplaceDate,
    .apcForceShutdown, .delayBeforeShutdown, .apcDelayBeforeStartup, .apcDelayBeforeShutdown,
    .apcLineFailCause, .nominv, .nompower, .lowBattery, .calibration, .alarmTimer,
    .outputCurrent, .loadApparent, .nomApparent, .bupBattCapBeforeStartup,
    .bupDelayBeforeStartup, .bupSelfTest, .bupHibernate, .iFailure, .pwVoltageOOR,
    .pwFrequencyOOR, .overCharged, .overTemp, .communicationLost, .chargerVoltageOOR,
    .chargerCurrentOOR, .currentNotRegulated, .voltageNotRegulated, .batteryPresent,
    .cycleEprom]

/-- The first index with this command. -/
def ciOfCmd (cmd : ℕ) : Option Ci :=
  ciOrder.find? fun ci => upsCmd ci == cmd

/-! ## Conversions -/

/-- {lit}`decode_testresult`. -/
def pcnetTestresult (str : List Char) : SelfTestResult :=
  if ['O', 'K'] <+: str then .testPassed
  else if ['B', 'T'] <+: str then .testFailcap
  else if ['N', 'G'] <+: str then .testFailload
  else .testNone

/-- {lit}`decode_lastxfer`. -/
def pcnetLastxfer (str : List Char) : LastXferCause :=
  match str.headD nul with
  | 'N' => .xferNa
  | 'R' => .xferRipple
  | 'H' => .xferOvervolt
  | 'L' => .xferUndervolt
  | 'T' => .xferNotchspike
  | 'O' => .xferNone
  | 'K' => .xferForced
  | 'S' => .xferSelftest
  | _ => .xferUnknown

/-- An {lit}`unsigned int` from a hexadecimal text. -/
def hexUint (value : List Char) : ℕ :=
  strtoul 16 value % 2 ^ 32

/-- {lit}`strlcpy` into an array of the given size. -/
def copyText (value : List Char) (size : ℕ) : List Char :=
  value.take (size - 1)

/-- Apply a status method of the record. -/
def PcnetUps.mapUps (pcnet : PcnetUps) (change : UpsInfo → UpsInfo) : PcnetUps :=
  { pcnet with toUpsInfo := change pcnet.toUpsInfo }

/-! ## Storing a value -/

/-- The switch of {lit}`pcnet_process_data`, with its result. -/
def pcnetItem (runtimeInSeconds : Bool) (ci : Ci) (value : List Char) (pcnet : PcnetUps) :
    Bool × PcnetUps :=
  match ci with
  -- volatile data
  | .status =>
      (true, pcnet.mapUps fun ups =>
        { ups with
          status := (ups.status &&& ~~~0xFF) ||| (BitVec.ofNat 32 (strtoul 16 value) &&& 0xFF) })
  | .lqual => (true, { pcnet with linequal := copyText value 8 })
  | .whyBatt => (true, { pcnet with lastxfer := pcnetLastxfer value })
  | .stStat => (true, { pcnet with testresult := pcnetTestresult value })
  | .vline => (true, { pcnet with lineVoltage := atof value })
  | .vmin => (true, { pcnet with lineMin := atof value })
  | .vmax => (true, { pcnet with lineMax := atof value })
  | .vout => (true, { pcnet with outputVoltage := atof value })
  | .battlev => (true, { pcnet with battChg := atof value })
  | .vbatt => (true, { pcnet with battVoltage := atof value })
  | .load => (true, { pcnet with upsLoad := atof value })
  | .freq => (true, { pcnet with lineFreq := atof value })
  | .runtim =>
      let tmp := atof value
      (true, { pcnet with timeLeft := if runtimeInSeconds then tmp.map (· / 60) else tmp })
  | .itemp => (true, { pcnet with upsTemp := atof value })
  | .dipsw => (true, { pcnet with dipsw := hexUint value })
  | .reg1 => (true, { pcnet with reg1 := hexUint value })
  | .reg2 =>
      let stored : PcnetUps := { pcnet with reg2 := hexUint value }
      (true, stored.mapUps fun ups => ups.setVal upsBattpresent (hexUint value &&& 0x20 = 0))
  | .reg3 => (true, { pcnet with reg3 := hexUint value })
  | .humid => (true, { pcnet with humidity := atof value })
  | .atemp => (true, { pcnet with ambtemp := atof value })
  | .stTime => (true, { pcnet with lastSTTime := atof value })
  -- static data
  | .sens => (true, { pcnet with sensitivity := copyText value 8 })
  | .dwake => (true, { pcnet with dwake := (atof value).toInt })
  | .dshutd => (true, { pcnet with dshutd := (atof value).toInt })
  | .ltrans => (true, { pcnet with lotrans := (atof value).toInt })
  | .htrans => (true, { pcnet with hitrans := (atof value).toInt })
  | .retpct => (true, { pcnet with rtnpct := (atof value).toInt })
  | .dalarm => (true, { pcnet with beepstate := copyText value 8 })
  | .dlbatt => (true, { pcnet with dlowbatt := (atof value).toInt })
  | .iden =>
      (true, { pcnet with
        upsname := if pcnet.upsname = [] then copyText value 100 else pcnet.upsname })
  | .stesti => (true, { pcnet with selftest := copyText value 9 })
  | .mandat => (true, { pcnet with birth := copyText value 20 })
  | .serno => (true, { pcnet with serial := copyText value 32 })
  | .battdat => (true, { pcnet with battdat := copyText value 20 })
  | .nomoutv => (true, { pcnet with nomOutputVoltage := (atof value).toInt })
  | .nombattv => (true, { pcnet with nombattv := atof value })
  | .revno => (true, { pcnet with firmrev := copyText value 20 })
  | .extbatts => (true, { pcnet with extbatts := (atof value).toInt })
  | .badbatts => (true, { pcnet with badbatts := (atof value).toInt })
  | .upsmodel => (true, { pcnet with upsmodel := copyText value 256 })
  | .eprom => (true, { pcnet with eprom := copyText value 500 })
  | _ => (false, pcnet)

/-- The index that a key selects: it begins with two hexadecimal digits. -/
def itemOf (key : List Char) : Option Ci :=
  match key with
  | first :: second :: _ =>
      if isxdigit first && isxdigit second then ciOfCmd (strtoul 16 key) else none
  | _ => none

/-- The key of the shutdown command. -/
def sdKey : List Char := ['S', 'D']

/-- {lit}`pcnet_process_data`. -/
def pcnetProcessData (runtimeInSeconds : Bool) (key value : List Char) (pcnet : PcnetUps) :
    Bool × PcnetUps :=
  if value = [] then (false, pcnet)
  else if key = sdKey then
    match strtoul 10 value with
    | 0 => (true, pcnet.mapUps fun ups => ups.clear upsShutRemote)
    | 1 => (true, pcnet.mapUps fun ups => ups.set upsShutRemote)
    | _ => (true, pcnet)
  else
    match itemOf key with
    | none => (false, pcnet)
    | some ci =>
        pcnetItem runtimeInSeconds ci value
          { pcnet with upsCap := fun other => if other = ci then true else pcnet.upsCap other }

/-! ## What is counted -/

/-- The record without its texts and capability flags: the status bits, the numbers and
the codes. -/
def PcnetUps.numbers (pcnet : PcnetUps) : PcnetUps :=
  { pcnet with
    upsCap := fun _ => false
    linequal := []
    eprom := []
    sensitivity := []
    beepstate := []
    selftest := []
    upsname := []
    birth := []
    serial := []
    battdat := []
    firmrev := []
    upsmodel := [] }

/-- The items that store something else than a text. -/
def isNumber : Ci → Bool
  | .status | .whyBatt | .stStat | .vline | .vmin | .vmax | .vout | .battlev | .vbatt | .load
  | .freq | .runtim | .itemp | .dipsw | .reg1 | .reg2 | .reg3 | .humid | .atemp | .stTime
  | .dwake | .dshutd | .ltrans | .htrans | .retpct | .dlbatt | .nomoutv | .nombattv
  | .extbatts | .badbatts => true
  | _ => false

/-- A key whose value goes to the status bits, the numbers or the codes. -/
def countedKey (key : List Char) : Bool :=
  key = sdKey || (itemOf key).any isNumber

/-- A field that changes the status bits, the numbers or the codes. -/
def countedField (field : List Char × List Char) : Bool :=
  field.2 ≠ [] && countedKey field.1

section Numbers

variable {runtimeInSeconds : Bool} {ci : Ci} {key value : List Char}

theorem pcnetItem_of_not_isNumber (hci : isNumber ci = false) (pcnet : PcnetUps) :
    (pcnetItem runtimeInSeconds ci value pcnet).2.numbers = pcnet.numbers := by
  cases ci <;> first | rfl | cases hci

/-- A field that is not counted changes no number. -/
theorem numbers_pcnetProcessData_of_not_counted {field : List Char × List Char}
    (hfield : countedField field = false) (pcnet : PcnetUps) :
    (pcnetProcessData runtimeInSeconds field.1 field.2 pcnet).2.numbers = pcnet.numbers := by
  unfold pcnetProcessData
  by_cases hvalue : field.2 = []
  · rw [if_pos hvalue]
  · have hkey : countedKey field.1 = false := by simpa [countedField, hvalue] using hfield
    have hsd : field.1 ≠ sdKey := by
      intro hsd
      simp [countedKey, hsd] at hkey
    rw [if_neg hvalue, if_neg hsd]
    cases hitem : itemOf field.1 with
    | none => rfl
    | some ci =>
        have hci : isNumber ci = false := by simpa [countedKey, hsd, hitem] using hkey
        dsimp only
        rw [pcnetItem_of_not_isNumber hci]
        rfl

/-! ## Where a value ends -/

theorem pcnetTestresult_append_cons {c : Char} (hc : c ∉ ['O', 'K', 'B', 'T', 'N', 'G'])
    (front rest : List Char) :
    pcnetTestresult (front ++ c :: rest) = pcnetTestresult (front ++ [c]) := by
  have hstarts (first second : Char) (hword : c ∉ [first, second]) (tail : List Char) :
      [first, second] <+: front ++ c :: tail ↔ [first, second] <+: front := by
    constructor
    · exact isPrefix_of_isPrefix_append_cons hword
    · exact fun hfront => hfront.trans (List.prefix_append _ _)
  simp only [List.mem_cons, List.not_mem_nil, or_false, not_or] at hc
  unfold pcnetTestresult
  simp only [hstarts 'O' 'K' (by simp [hc]), hstarts 'B' 'T' (by simp [hc]),
    hstarts 'N' 'G' (by simp [hc])]

theorem pcnetLastxfer_append_cons {c : Char} (front rest : List Char) :
    pcnetLastxfer (front ++ c :: rest) = pcnetLastxfer (front ++ [c]) := by
  cases front <;> rfl

theorem endsNumber_M : EndsNumber 'M' where
  space := by decide
  xdigit := by decide
  sign := by decide
  marker := by decide
  word := by decide

/-- No number depends on what stands behind a character that belongs to no number. -/
theorem pcnetItem_append_cons (pcnet : PcnetUps) (front rest : List Char) :
    (pcnetItem runtimeInSeconds ci (front ++ 'M' :: rest) pcnet).2.numbers =
      (pcnetItem runtimeInSeconds ci (front ++ ['M']) pcnet).2.numbers := by
  have hatof : atof (front ++ 'M' :: rest) = atof (front ++ ['M']) := by
    rw [atof_append_cons endsNumber_M, atof_append_cons endsNumber_M]
  have hhex : strtoul 16 (front ++ 'M' :: rest) = strtoul 16 (front ++ ['M']) := by
    rw [strtoul_append_cons endsNumber_M, strtoul_append_cons endsNumber_M]
  have huint : hexUint (front ++ 'M' :: rest) = hexUint (front ++ ['M']) := by
    rw [hexUint, hhex, ← hexUint]
  by_cases hci : isNumber ci = true
  · cases ci
    case reg2 =>
      dsimp only [pcnetItem]
      rw [huint]
    case whyBatt => simp only [pcnetItem, pcnetLastxfer_append_cons front rest]
    case stStat =>
      simp only [pcnetItem, pcnetTestresult_append_cons (show 'M' ∉ _ by decide) front rest]
    all_goals first | exact absurd hci (by decide) | simp only [pcnetItem, huint, hatof, hhex]
  · rw [pcnetItem_of_not_isNumber (by simpa using hci),
      pcnetItem_of_not_isNumber (by simpa using hci)]

theorem numbers_pcnetProcessData_append_cons (pcnet : PcnetUps) (front rest : List Char) :
    (pcnetProcessData runtimeInSeconds key (front ++ 'M' :: rest) pcnet).2.numbers =
      (pcnetProcessData runtimeInSeconds key (front ++ ['M']) pcnet).2.numbers := by
  have hcons : front ++ 'M' :: rest ≠ [] := by simp
  have hsingle : front ++ ['M'] ≠ [] := by simp
  unfold pcnetProcessData
  simp only [if_neg hcons, if_neg hsingle]
  split_ifs with hkey
  · rw [strtoul_append_cons endsNumber_M, strtoul_append_cons endsNumber_M]
  · cases itemOf key with
    | none => rfl
    | some ci => exact pcnetItem_append_cons _ front rest

/-! ## Values that leave different numbers -/

/-- Two values that an item stores differently. -/
def separating : Ci → List Char × List Char
  | .whyBatt => (['N'], ['R'])
  | .stStat => (['O', 'K'], ['B', 'T'])
  | _ => (['0'], ['1'])

theorem pcnetItem_separating (hci : isNumber ci = true) (pcnet other : PcnetUps) :
    (pcnetItem runtimeInSeconds ci (separating ci).1 pcnet).2.numbers ≠
      (pcnetItem runtimeInSeconds ci (separating ci).2 other).2.numbers := by
  have hatof : atof ['0'] ≠ atof ['1'] := by decide +kernel
  have hint : (atof ['0']).toInt ≠ (atof ['1']).toInt := by decide +kernel
  have hhex : hexUint ['0'] ≠ hexUint ['1'] := by decide +kernel
  have hruntim : (if runtimeInSeconds then (atof ['0']).map (· / 60) else atof ['0']) ≠
      if runtimeInSeconds then (atof ['1']).map (· / 60) else atof ['1'] := by
    cases runtimeInSeconds <;> decide +kernel
  have hbyte (a b : StatusWord) :
      (a &&& ~~~0xFF) ||| (BitVec.ofNat 32 (strtoul 16 ['0']) &&& 0xFF) ≠
        (b &&& ~~~0xFF) ||| (BitVec.ofNat 32 (strtoul 16 ['1']) &&& 0xFF) := by
    rw [show strtoul 16 ['0'] = 0 by decide +kernel, show strtoul 16 ['1'] = 1 by decide +kernel]
    intro heq
    have hbit := congrArg (fun w => BitVec.getLsbD w 0) heq
    simp at hbit
  intro heq
  have hnumber {α : Type} (field : PcnetUps → α) :
      field (pcnetItem runtimeInSeconds ci (separating ci).1 pcnet).2.numbers =
        field (pcnetItem runtimeInSeconds ci (separating ci).2 other).2.numbers :=
    congrArg field heq
  cases ci
  case status => exact hbyte _ _ (hnumber fun p => p.status)
  case whyBatt => exact (show LastXferCause.xferNa ≠ .xferRipple by decide) (hnumber fun p => p.lastxfer)
  case stStat => exact (show SelfTestResult.testPassed ≠ .testFailcap by decide) (hnumber fun p => p.testresult)
  case vline => exact hatof (hnumber fun p => p.lineVoltage)
  case vmin => exact hatof (hnumber fun p => p.lineMin)
  case vmax => exact hatof (hnumber fun p => p.lineMax)
  case vout => exact hatof (hnumber fun p => p.outputVoltage)
  case battlev => exact hatof (hnumber fun p => p.battChg)
  case vbatt => exact hatof (hnumber fun p => p.battVoltage)
  case load => exact hatof (hnumber fun p => p.upsLoad)
  case freq => exact hatof (hnumber fun p => p.lineFreq)
  case runtim => exact hruntim (hnumber fun p => p.timeLeft)
  case itemp => exact hatof (hnumber fun p => p.upsTemp)
  case dipsw => exact hhex (hnumber fun p => p.dipsw)
  case reg1 => exact hhex (hnumber fun p => p.reg1)
  case reg2 => exact hhex (hnumber fun p => p.reg2)
  case reg3 => exact hhex (hnumber fun p => p.reg3)
  case humid => exact hatof (hnumber fun p => p.humidity)
  case atemp => exact hatof (hnumber fun p => p.ambtemp)
  case stTime => exact hatof (hnumber fun p => p.lastSTTime)
  case dwake => exact hint (hnumber fun p => p.dwake)
  case dshutd => exact hint (hnumber fun p => p.dshutd)
  case ltrans => exact hint (hnumber fun p => p.lotrans)
  case htrans => exact hint (hnumber fun p => p.hitrans)
  case retpct => exact hint (hnumber fun p => p.rtnpct)
  case dlbatt => exact hint (hnumber fun p => p.dlowbatt)
  case nomoutv => exact hint (hnumber fun p => p.nomOutputVoltage)
  case nombattv => exact hatof (hnumber fun p => p.nombattv)
  case extbatts => exact hint (hnumber fun p => p.extbatts)
  case badbatts => exact hint (hnumber fun p => p.badbatts)
  all_goals cases hci

/-- A value of printing characters. -/
structure PlainValue (value : List Char) : Prop where
  ne_nil : value ≠ []
  plain : ∀ c ∈ value, isspace c = false ∧ c ≠ nul

theorem plainValue_separating (ci : Ci) :
    PlainValue (separating ci).1 ∧ PlainValue (separating ci).2 := by
  unfold separating
  split
  all_goals exact ⟨⟨by simp, by decide⟩, ⟨by simp, by decide⟩⟩

/-- A counted key has two values that leave different numbers, whatever they were before. -/
theorem exists_separating (hkey : countedKey key = true) :
    ∃ low high, PlainValue low ∧ PlainValue high ∧ ∀ pcnet other : PcnetUps,
      (pcnetProcessData runtimeInSeconds key low pcnet).2.numbers ≠
        (pcnetProcessData runtimeInSeconds key high other).2.numbers := by
  by_cases hsd : key = sdKey
  · refine ⟨['0'], ['1'], ⟨by simp, by decide⟩, ⟨by simp, by decide⟩, fun pcnet other heq => ?_⟩
    have hlow : pcnetProcessData runtimeInSeconds key ['0'] pcnet =
        (true, pcnet.mapUps fun ups => ups.clear upsShutRemote) := by
      unfold pcnetProcessData
      rw [if_neg (by simp), if_pos hsd, show strtoul 10 ['0'] = 0 by decide +kernel]
      rfl
    have hhigh : pcnetProcessData runtimeInSeconds key ['1'] other =
        (true, other.mapUps fun ups => ups.set upsShutRemote) := by
      unfold pcnetProcessData
      rw [if_neg (by simp), if_pos hsd, show strtoul 10 ['1'] = 1 by decide +kernel]
      rfl
    rw [hlow, hhigh] at heq
    have hflag := congrArg (fun p : PcnetUps => p.toUpsInfo.test upsShutRemote) heq
    have hclear := @UpsInfo.test_clear_self upsShutRemote (by decide) pcnet.toUpsInfo
    have hset := UpsInfo.test_set_self other.toUpsInfo upsShutRemote
    exact absurd (hclear.symm.trans (hflag.trans hset)) (by decide)
  · have hitem : (itemOf key).any isNumber = true := by simpa [countedKey, hsd] using hkey
    cases hci : itemOf key with
    | none => simp [hci] at hitem
    | some ci =>
        rw [hci] at hitem
        have hprocess (value : List Char) (hvalue : value ≠ []) (pcnet : PcnetUps) :
            pcnetProcessData runtimeInSeconds key value pcnet =
              pcnetItem runtimeInSeconds ci value { pcnet with
                upsCap := fun other => if other = ci then true else pcnet.upsCap other } := by
          unfold pcnetProcessData
          rw [if_neg hvalue, if_neg hsd, hci]
        rcases plainValue_separating ci with ⟨hlow, hhigh⟩
        refine ⟨_, _, hlow, hhigh, fun pcnet other => ?_⟩
        rw [hprocess _ hlow.ne_nil, hprocess _ hhigh.ne_nil]
        exact pcnetItem_separating hitem _ _

end Numbers

end Apcupsd
