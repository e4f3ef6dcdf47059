import Apcupsd.Core.ReportFields
import Apcupsd.Foundations.TextLines
import Mathlib.Data.List.DropRight

/-!
# The status report

The text that the server sends in reply to {lit}`status`: {lit}`output_status` from
{lit}`lib/apcstatus.c`, with {lit}`status_write` and {lit}`status_close` from
{lit}`apcnis.c`.

Main results:

- Definition {lit}`outputStatus`: the records, in their order, and which capability each of
  them needs.
- Theorem {lit}`statusText_labelled`: every line of the text that is sent begins with a
  padded key, a colon and a blank.
-/

namespace Apcupsd

open CStrings TextLines

/-! ## What is reported -/

/-- {lit}`struct tm`, as far as {lit}`format_date` prints it. -/
structure Tm where
  year : Int
  mon : ℕ
  mday : ℕ
  hour : ℕ
  min : ℕ
  sec : ℕ
  gmtoffMinutes : Int

/-- The calls that a report makes, and the host name that is compiled in. -/
structure Host where
  time : Int
  localtime : Int → Tm
  gethostname : List Char
  apcupsdHost : List Char

/-- The record with the fields that only the report reads: the long names, the name of the
master and the time of its last answer. -/
structure StatusUps extends UpsInfo, ReportFields where
  cable : List Char
  mode : List Char
  upsclass : List Char
  sharenetDisabled : Bool
  sharenet : List Char
  lastMasterConnectTime : Int
  masterName : List Char

/-- The texts of a report that are not computed by it. -/
def reportedTexts (host : Host) (ups : StatusUps) : List (List Char) :=
  [host.gethostname, host.apcupsdHost, ups.upsname, ups.cable, ups.mode, ups.upsclass,
    ups.sharenet, ups.masterName, ups.upsmodel, ups.selftest, ups.birth, ups.serial,
    ups.battdat, ups.firmrev]

/-! ## Conversions -/

/-- {lit}`%02d`. -/
def atLeastTwo (n : ℕ) : List Char :=
  padLeft '0' 2 (Nat.toDigits 10 n)

/-- {lit}`format_date`: {lit}`"%Y-%m-%d %H:%M:%S %z  "`. -/
def formatDate (host : Host) (timestamp : Int) : List Char :=
  let tm := host.localtime timestamp
  let offset := tm.gmtoffMinutes.natAbs
  decimal tm.year ++ '-' :: atLeastTwo tm.mon ++ '-' :: atLeastTwo tm.mday ++
    ' ' :: atLeastTwo tm.hour ++ ':' :: atLeastTwo tm.min ++ ':' :: atLeastTwo tm.sec ++
    (if tm.gmtoffMinutes < 0 then " -" else " +").toList ++
    atLeastTwo (offset / 60) ++ atLeastTwo (offset % 60) ++ "  ".toList

/-- {lit}`%.nf`: the nearest decimal, and the even one of two. -/
def fixedPoint (places : ℕ) : CDouble → List Char
  | .finite q =>
      let scaled := q.num.natAbs * 10 ^ places
      let n := scaled / q.den
      let r := scaled % q.den
      let rounded := if 2 * r < q.den then n else if q.den < 2 * r then n + 1 else n + n % 2
      (if q < 0 then ['-'] else []) ++ Nat.toDigits 10 (rounded / 10 ^ places) ++
        '.' :: padLeft '0' places (Nat.toDigits 10 (rounded % 10 ^ places))
  | .posInf => "inf".toList
  | .negInf => "-inf".toList
  | .nan => "nan".toList

/-- A double times an integer. -/
def timesInt : CDouble → Int → CDouble
  | .finite q, n => .nearest (q * n)
  | .posInf, n => if n = 0 then .nan else if 0 < n then .posInf else .negInf
  | .negInf, n => if n = 0 then .nan else if 0 < n then .negInf else .posInf
  | .nan, _ => .nan

/-- {lit}`d / 100.0 * n`. -/
def percentOf (d : CDouble) (n : Int) : CDouble :=
  timesInt (d.map (· / 100)) n

/-- A number with its unit. -/
def measured (d : CDouble) (unit : String) : List Char :=
  fixedPoint 1 d ++ unit.toList

def counted (n : Int) (unit : String) : List Char :=
  decimal n ++ unit.toList

/-- {lit}`0x%0*X`. -/
def hexWord (width n : ℕ) : List Char :=
  "0x".toList ++ padLeft '0' width (hexadecimal n)

example : measured (.finite (2405 / 20)) " Volts" = "120.2 Volts".toList := by decide +kernel

/-- {lit}`strlcat` of a word, in the array {lit}`status`. -/
def catStatus (status : List Char) (word : String) : List Char :=
  status ++ word.toList.take (100 - 1 - status.length)

/-- The human readable status. -/
def statusWords (ups : UpsInfo) : List Char :=
  let status := [(ups.isCalibration, "CAL "), (ups.isTrim, "TRIM "), (ups.isBoost, "BOOST "),
      (ups.isOnline, "ONLINE "), (ups.isOnbatt, "ONBATT "), (ups.isOverload, "OVERLOAD "),
      (ups.isBattlow, "LOWBATT "), (ups.isReplacebatt, "REPLACEBATT "),
      (!ups.isBattpresent, "NOBATT "), (ups.isSlave, "SLAVE "),
      (ups.isSlavedown, "SLAVEDOWN")].foldl
    (fun status flag => if flag.1 then catStatus status flag.2 else status) []
  let status := if ups.isCommlost then "COMMLOST ".toList else status
  if ups.isShutdown then "SHUTTING DOWN".toList else status

def sensitivityText (sensitivity : List Char) : String :=
  match sensitivity.headD nul with
  | 'A' => "Auto Adjust"
  | 'L' => "Low"
  | 'M' => "Medium"
  | 'H' => "High"
  | _ => "Unknown"

def alarmdelText (beepstate : List Char) : String :=
  match beepstate.headD nul with
  | 'T' => "30 Seconds"
  | 'L' => "Low Battery"
  | 'N' => "No alarm"
  | '0' => "5 Seconds"
  | _ => "Always"

/-- The cause of the last transfer, if the UPS reports it. -/
def lastxferText : LastXferCause → Option String
  | .xferNone => some "No transfers since turnon"
  | .xferSelftest => some "Automatic or explicit self test"
  | .xferForced => some "Forced by software"
  | .xferUndervolt => some "Low line voltage"
  | .xferOvervolt => some "High line voltage"
  | .xferRipple => some "Unacceptable line voltage changes"
  | .xferNotchspike => some "Line voltage notch or spike"
  | .xferFreq => some "Input frequency out of range"
  | .xferUnknown => some "UNKNOWN EVENT"
  | .xferNa => none

/-- The status of the last self test, if the UPS reports it. -/
def selftestText : SelfTestResult → Option String
  | .testNone => some "NO"
  | .testFailed => some "NG"
  | .testWarning => some "WN"
  | .testInprogress => some "IP"
  | .testPassed => some "OK"
  | .testFailcap => some "BT"
  | .testFailload => some "NG"
  | .testUnknown => some "??"
  | .testNa => none

/-! ## The records -/

/-- A record that is written only if a condition holds. -/
def onlyIf (condition : Bool) (value : List Char) : Option (List Char) :=
  if condition then some value else none

/-- The time on batteries, in seconds. -/
def timeOnBatt (host : Host) (ups : UpsInfo) : Int :=
  if ups.isOnbatt ∧ ups.lastOnbattTime > 0 then host.time - ups.lastOnbattTime else 0

/-- Who reports, on what. -/
def identityRows (host : Host) (ups : StatusUps) : List (String × Option (List Char)) :=
  [("DATE     : ",
      some (formatDate host (if ups.pollTime = 0 then host.time else ups.pollTime))),
    ("HOSTNAME : ", some host.gethostname),
    ("VERSION  : ", some ("3.14.14 (31 May 2016) ".toList ++ host.apcupsdHost)),
    ("UPSNAME  : ", onlyIf (ups.upsname ≠ []) ups.upsname),
    ("CABLE    : ", some ups.cable),
    ("DRIVER   : ", some ups.mode),
    ("UPSMODE  : ", some ups.upsclass),
    ("STARTTIME: ", some (formatDate host ups.startTime)),
    ("SHARE    : ", onlyIf (!ups.sharenetDisabled) ups.sharenet),
    ("MASTERUPD: ", onlyIf ups.isSlave
      (if ups.lastMasterConnectTime = 0 then "No connection to Master".toList
        else formatDate host ups.lastMasterConnectTime)),
    ("MASTER   : ", onlyIf ups.isSlave ups.masterName),
    ("MODEL    : ", onlyIf (ups.upsCap .upsmodel) ups.upsmodel),
    ("STATUS   : ", some (statusWords ups.toUpsInfo))]

/-- The line, the load and the battery. -/
def measurementRows (ups : StatusUps) : List (String × Option (List Char)) :=
  [("LINEV    : ", onlyIf (ups.upsCap .vline) (measured ups.lineVoltage " Volts")),
    ("LOADPCT  : ", onlyIf (ups.upsCap .load) (measured ups.upsLoad " Percent")),
    ("REALPOWER: ", onlyIf (ups.upsCap .load && ups.upsCap .nompower)
      (measured (percentOf ups.upsLoad ups.nomPower) " Watts")),
    ("LOADAPNT : ", onlyIf (ups.upsCap .loadApparent) (measured ups.loadApparent " Percent")),
    ("APPARENTPOWER: ", onlyIf (ups.upsCap .loadApparent && ups.upsCap .nomApparent)
      (measured (percentOf ups.loadApparent ups.nomApparentPower) " VA")),
    ("BCHARGE  : ", onlyIf (ups.upsCap .battlev) (measured ups.battChg " Percent")),
    ("TIMELEFT : ", onlyIf (ups.upsCap .runtim) (measured ups.timeLeft " Minutes")),
    ("MBATTCHG : ", some (counted ups.percent " Percent")),
    ("MINTIMEL : ", some (counted ups.runtime " Minutes")),
    ("MAXTIME  : ", some (counted ups.maxtime " Seconds")),
    ("MAXLINEV : ", onlyIf (ups.upsCap .vmax) (measured ups.lineMax " Volts")),
    ("MINLINEV : ", onlyIf (ups.upsCap .vmin) (measured ups.lineMin " Volts")),
    ("OUTPUTV  : ", onlyIf (ups.upsCap .vout) (measured ups.outputVoltage " Volts"))]

/-- What the UPS is set to, and three more measurements. -/
def settingRows (ups : StatusUps) : List (String × Option (List Char)) :=
  [("SENSE    : ", onlyIf (ups.upsCap .sens) (sensitivityText ups.sensitivity).toList),
    ("DWAKE    : ", onlyIf (ups.upsCap .dwake) (counted ups.dwake " Seconds")),
    ("DSHUTD   : ", onlyIf (ups.upsCap .dshutd) (counted ups.dshutd " Seconds")),
    ("DLOWBATT : ", onlyIf (ups.upsCap .dlbatt) (counted ups.dlowbatt " Minutes")),
    ("LOTRANS  : ", onlyIf (ups.upsCap .ltrans) (counted ups.lotrans ".0 Volts")),
    ("HITRANS  : ", onlyIf (ups.upsCap .htrans) (counted ups.hitrans ".0 Volts")),
    ("RETPCT   : ", onlyIf (ups.upsCap .retpct) (counted ups.rtnpct ".0 Percent")),
    ("ITEMP    : ", onlyIf (ups.upsCap .itemp) (measured ups.upsTemp " C")),
    ("ALARMDEL : ", onlyIf (ups.upsCap .dalarm) (alarmdelText ups.beepstate).toList),
    ("BATTV    : ", onlyIf (ups.upsCap .vbatt) (measured ups.battVoltage " Volts")),
    ("LINEFREQ : ", onlyIf (ups.upsCap .freq) (measured ups.lineFreq " Hz")),
    ("OUTCURNT : ", onlyIf (ups.upsCap .outputCurrent)
      (fixedPoint 2 ups.outputCurrent ++ " Amps".toList))]

/-- Transfers and self tests. -/
def historyRows (host : Host) (ups : StatusUps) : List (String × Option (List Char)) :=
  [("LASTXFER : ", (lastxferText ups.lastxfer).map String.toList),
    ("NUMXFERS : ", some (decimal ups.numXfers)),
    ("XONBATT  : ", onlyIf (0 < ups.numXfers) (formatDate host ups.lastOnbattTime)),
    ("TONBATT  : ", some (counted (timeOnBatt host ups.toUpsInfo) " Seconds")),
    ("CUMONBATT: ",
      some (counted (ups.cumTimeOnBatt + timeOnBatt host ups.toUpsInfo) " Seconds")),
    ("XOFFBATT : ", some (if ups.lastOffbattTime > 0 then formatDate host ups.lastOffbattTime
      else "N/A".toList)),
    ("LASTSTEST: ", onlyIf (ups.lastSelfTest ≠ 0) (formatDate host ups.lastSelfTest)),
    ("SELFTEST : ", (selftestText ups.testresult).map String.toList),
    ("STESTI   : ", onlyIf (ups.upsCap .stesti) ups.selftest)]

/-- Registers, nameplate data and the end of the report. -/
def nameplateRows (host : Host) (ups : StatusUps) : List (String × Option (List Char)) :=
  [("STATFLAG : ", some (hexWord 8 ups.status.toNat)),
    ("DIPSW    : ", onlyIf (ups.upsCap .dipsw) (hexWord 2 ups.dipsw)),
    ("REG1     : ", onlyIf (ups.upsCap .reg1) (hexWord 2 ups.reg1)),
    ("REG2     : ", onlyIf (ups.upsCap .reg2) (hexWord 2 ups.reg2)),
    ("REG3     : ", onlyIf (ups.upsCap .reg3) (hexWord 2 ups.reg3)),
    ("MANDATE  : ", onlyIf (ups.upsCap .mandat) ups.birth),
    ("SERIALNO : ", onlyIf (ups.upsCap .serno) ups.serial),
    ("BATTDATE : ", onlyIf (ups.upsCap .battdat || ups.upsCap .battReplaceDate) ups.battdat),
    ("NOMOUTV  : ", onlyIf (ups.upsCap .nomoutv) (counted ups.nomOutputVoltage " Volts")),
    ("NOMINV   : ", onlyIf (ups.upsCap .nominv) (counted ups.nomInputVoltage " Volts")),
    ("NOMBATTV : ", onlyIf (ups.upsCap .nombattv) (measured ups.nombattv " Volts")),
    ("NOMPOWER : ", onlyIf (ups.upsCap .nompower) (counted ups.nomPower " Watts")),
    ("NOMAPNT  : ", onlyIf (ups.upsCap .nomApparent) (counted ups.nomApparentPower " VA")),
    ("HUMIDITY : ", onlyIf (ups.upsCap .humid) (measured ups.humidity " Percent")),
    ("AMBTEMP  : ", onlyIf (ups.upsCap .atemp) (measured ups.ambtemp " C")),
    ("EXTBATTS : ", onlyIf (ups.upsCap .extbatts) (decimal ups.extbatts)),
    ("BADBATTS : ", onlyIf (ups.upsCap .badbatts) (decimal ups.badbatts)),
    ("FIRMWARE : ", onlyIf (ups.upsCap .revno) ups.firmrev),
    ("END APC  : ", some (formatDate host host.time))]

/-- The records that {lit}`output_status` considers, in their order. -/
def statusRows (host : Host) (ups : StatusUps) : List (String × Option (List Char)) :=
  identityRows host ups ++ measurementRows ups ++ settingRows ups ++ historyRows host ups ++
    nameplateRows host ups

/-- The text of a record. -/
def recordText (label : String) (value : List Char) : List Char :=
  label.toList ++ value ++ ['\n']

/-- {lit}`output_status`: the texts that it hands to {lit}`s_write`. -/
def outputStatus (host : Host) (ups : StatusUps) : List (List Char) :=
  (statusRows host ups).filterMap fun row => row.2.map (recordText row.1)

/-! ## What is sent -/

/-- {lit}`MAXSTRING`. -/
def maxString : ℕ := 256

/-- {lit}`sizeof(largebuf)`. -/
def largebufSize : ℕ := 4096

/-- {lit}`largebuf` and {lit}`stat_recs`. -/
structure StatusServer where
  largebuf : List Char
  statRecs : ℕ
deriving DecidableEq, Repr

/-- {lit}`status_open`. -/
def statusOpen : StatusServer where
  largebuf := []
  statRecs := 0

/-- {lit}`status_write`: a text that is too long for its array is cut, and one for which the
buffer has no room is logged. -/
def statusWrite (server : StatusServer) (text : List Char) : StatusServer :=
  let buf := text.take (maxString - 1)
  if server.largebuf.length + buf.length < largebufSize - 1 then
    { largebuf := server.largebuf ++ buf, statRecs := server.statRecs + 1 }
  else server

/-- The record at the front of a reply, with the numbers of records and of characters. -/
def headerRecord (server : StatusServer) : List Char :=
  ("APC      : ".toList ++ padLeft '0' 3 (Nat.toDigits 10 1) ++
    ',' :: padLeft '0' 3 (Nat.toDigits 10 server.statRecs) ++
    ',' :: padLeft '0' 4 (Nat.toDigits 10 server.largebuf.length) ++ ['\n']).take (maxString - 1)

/-- The loop of {lit}`status_close`: each record is sent up to its newline. -/
def sentRecords (record : List Char) : List Char → List (List Char)
  | [] => []
  | c :: text =>
      if c = '\n' then (record ++ [c]) :: sentRecords [] text
      else sentRecords (record ++ [c]) text

/-- {lit}`status_close`: the messages before the terminator. -/
def statusClose (server : StatusServer) : List (List Char) :=
  headerRecord server :: sentRecords [] server.largebuf

/-- The messages of a reply to {lit}`status`. -/
def statusMessages (host : Host) (ups : StatusUps) : List (List Char) :=
  statusClose ((outputStatus host ups).foldl statusWrite statusOpen)

/-- The text of a reply to {lit}`status`. -/
def statusText (host : Host) (ups : StatusUps) : List Char :=
  (statusMessages host ups).flatten

/-! ## Each value is on one line -/

/-- The value of a record, if it is written, is on one line. -/
def OneLineRow (row : String × Option (List Char)) : Prop :=
  ∀ value ∈ row.2, OneLine value

@[simp]
theorem oneLineRow_some {label : String} {value : List Char} :
    OneLineRow (label, some value) ↔ OneLine value := by
  simp [OneLineRow]

@[simp]
theorem oneLineRow_onlyIf {label : String} {condition : Bool} {value : List Char} :
    OneLineRow (label, onlyIf condition value) ↔ (condition = true → OneLine value) := by
  cases condition <;> simp [OneLineRow, onlyIf]

@[simp]
theorem oneLine_atLeastTwo (n : ℕ) : OneLine (atLeastTwo n) :=
  oneLine_padLeft (by decide) (oneLine_toDigits n)

@[simp]
theorem oneLine_formatDate (host : Host) (timestamp : Int) :
    OneLine (formatDate host timestamp) := by
  have hsign : OneLine
      (if (host.localtime timestamp).gmtoffMinutes < 0 then " -" else " +").toList := by
    split_ifs <;> decide
  simp only [formatDate, oneLine_append, oneLine_cons, oneLine_decimal, oneLine_atLeastTwo, hsign]
  decide

@[simp]
theorem oneLine_fixedPoint (places : ℕ) (d : CDouble) : OneLine (fixedPoint places d) := by
  cases d with
  | finite q =>
      have hsign : OneLine (if q < 0 then ['-'] else []) := by
        split_ifs <;> decide
      have hplaces (n : ℕ) : OneLine (padLeft '0' places (Nat.toDigits 10 n)) :=
        oneLine_padLeft (by decide) (oneLine_toDigits n)
      simp only [fixedPoint, oneLine_append, oneLine_cons, oneLine_toDigits, hsign, hplaces]
      decide
  | posInf => exact (by decide : OneLine "inf".toList)
  | negInf => exact (by decide : OneLine "-inf".toList)
  | nan => exact (by decide : OneLine "nan".toList)

@[simp]
theorem oneLine_measured {unit : String} (hunit : OneLine unit.toList) (d : CDouble) :
    OneLine (measured d unit) :=
  oneLine_append.mpr ⟨oneLine_fixedPoint 1 d, hunit⟩

@[simp]
theorem oneLine_counted {unit : String} (hunit : OneLine unit.toList) (n : Int) :
    OneLine (counted n unit) :=
  oneLine_append.mpr ⟨oneLine_decimal n, hunit⟩

@[simp]
theorem oneLine_hexWord (width n : ℕ) : OneLine (hexWord width n) :=
  oneLine_append.mpr ⟨by decide, oneLine_padLeft (by decide) (oneLine_hexadecimal n)⟩

@[simp]
theorem oneLine_sensitivityText (sensitivity : List Char) :
    OneLine (sensitivityText sensitivity).toList := by
  unfold sensitivityText
  split <;> decide

@[simp]
theorem oneLine_alarmdelText (beepstate : List Char) :
    OneLine (alarmdelText beepstate).toList := by
  unfold alarmdelText
  split <;> decide

theorem oneLineRow_lastxferText (label : String) (cause : LastXferCause) :
    OneLineRow (label, (lastxferText cause).map String.toList) := by
  have hall : ∀ value ∈ (lastxferText cause).map String.toList, OneLine value := by
    cases cause <;> decide
  exact hall

theorem oneLineRow_selftestText (label : String) (result : SelfTestResult) :
    OneLineRow (label, (selftestText result).map String.toList) := by
  have hall : ∀ value ∈ (selftestText result).map String.toList, OneLine value := by
    cases result <;> decide
  exact hall

theorem oneLine_catStatus {status : List Char} (hstatus : OneLine status) {word : String}
    (hword : OneLine word.toList) : OneLine (catStatus status word) :=
  oneLine_append.mpr ⟨hstatus, fun c hc => hword c (List.mem_of_mem_take hc)⟩

theorem oneLine_foldl_catStatus {flags : List (Bool × String)}
    (hflags : ∀ flag ∈ flags, OneLine flag.2.toList) {status : List Char}
    (hstatus : OneLine status) :
    OneLine (flags.foldl
      (fun status flag => if flag.1 then catStatus status flag.2 else status) status) := by
  induction flags generalizing status with
  | nil => exact hstatus
  | cons flag flags ih =>
      rcases List.forall_mem_cons.mp hflags with ⟨hflag, hrest⟩
      cases hraised : flag.1 with
      | true => simpa [hraised] using ih hrest (oneLine_catStatus hstatus hflag)
      | false => simpa [hraised] using ih hrest hstatus

@[simp]
theorem oneLine_statusWords (ups : UpsInfo) : OneLine (statusWords ups) := by
  unfold statusWords
  dsimp only
  split_ifs
  · decide
  · decide
  · refine oneLine_foldl_catStatus ?_ (by decide)
    simp only [List.forall_mem_cons]
    decide

section Rows

variable {host : Host} {ups : StatusUps}

theorem identityRows_oneLine (htexts : ∀ text ∈ reportedTexts host ups, OneLine text) :
    ∀ row ∈ identityRows host ups, OneLineRow row := by
  simp only [reportedTexts, List.forall_mem_cons] at htexts
  rcases htexts with ⟨hhostname, hhost, hupsname, hcable, hmode, hclass, hshare, hmaster, hmodel, -⟩
  have hversion : OneLine ("3.14.14 (31 May 2016) ".toList ++ host.apcupsdHost) :=
    oneLine_append.mpr ⟨by decide, hhost⟩
  have hmasterupd : OneLine (if ups.lastMasterConnectTime = 0 then
      "No connection to Master".toList else formatDate host ups.lastMasterConnectTime) := by
    split_ifs
    · decide
    · exact oneLine_formatDate host _
  simp only [identityRows, List.forall_mem_cons, oneLineRow_some, oneLineRow_onlyIf,
    oneLine_formatDate, oneLine_statusWords, hhostname, hupsname, hcable, hmode, hclass, hshare,
    hmaster, hmodel, hversion, hmasterupd, implies_true, true_and, List.not_mem_nil,
    false_imp_iff]

theorem measurementRows_oneLine : ∀ row ∈ measurementRows ups, OneLineRow row := by
  simp (disch := decide) only [measurementRows, List.forall_mem_cons, oneLineRow_some,
    oneLineRow_onlyIf, oneLine_measured, oneLine_counted, implies_true, true_and,
    List.not_mem_nil, false_imp_iff]

theorem settingRows_oneLine : ∀ row ∈ settingRows ups, OneLineRow row := by
  have hamps : OneLine (fixedPoint 2 ups.outputCurrent ++ " Amps".toList) :=
    oneLine_append.mpr ⟨oneLine_fixedPoint 2 _, by decide⟩
  simp (disch := decide) only [settingRows, List.forall_mem_cons, oneLineRow_onlyIf,
    oneLine_measured, oneLine_counted, oneLine_sensitivityText, oneLine_alarmdelText, hamps,
    implies_true, true_and, List.not_mem_nil, false_imp_iff]

theorem historyRows_oneLine (hselftest : OneLine ups.selftest) :
    ∀ row ∈ historyRows host ups, OneLineRow row := by
  have hxoffbatt : OneLine (if ups.lastOffbattTime > 0 then formatDate host ups.lastOffbattTime
      else "N/A".toList) := by
    split_ifs
    · exact oneLine_formatDate host _
    · decide
  simp (disch := decide) only [historyRows, List.forall_mem_cons, oneLineRow_some,
    oneLineRow_onlyIf, oneLineRow_lastxferText, oneLineRow_selftestText, oneLine_formatDate,
    oneLine_decimal, oneLine_counted, hxoffbatt, hselftest, implies_true, true_and,
    List.not_mem_nil, false_imp_iff]

theorem nameplateRows_oneLine (hbirth : OneLine ups.birth) (hserial : OneLine ups.serial)
    (hbattdat : OneLine ups.battdat) (hfirmrev : OneLine ups.firmrev) :
    ∀ row ∈ nameplateRows host ups, OneLineRow row := by
  simp (disch := decide) only [nameplateRows, List.forall_mem_cons, oneLineRow_some,
    oneLineRow_onlyIf, oneLine_formatDate, oneLine_hexWord, oneLine_decimal, oneLine_measured,
    oneLine_counted, hbirth, hserial, hbattdat, hfirmrev, implies_true, true_and,
    List.not_mem_nil, false_imp_iff]

/-- Every value is on one line if the texts that are not computed are. -/
theorem statusRows_oneLine (htexts : ∀ text ∈ reportedTexts host ups, OneLine text) :
    ∀ row ∈ statusRows host ups, OneLineRow row := by
  have hmem : ∀ text, text ∈ [ups.selftest, ups.birth, ups.serial, ups.battdat, ups.firmrev] →
      OneLine text := by
    intro text htext
    exact htexts text (List.mem_of_mem_drop (i := 9) htext)
  simp only [List.forall_mem_cons] at hmem
  rcases hmem with ⟨hselftest, hbirth, hserial, hbattdat, hfirmrev, -⟩
  simp only [statusRows, List.forall_mem_append]
  exact ⟨⟨⟨⟨identityRows_oneLine htexts, measurementRows_oneLine⟩, settingRows_oneLine⟩,
    historyRows_oneLine hselftest⟩, nameplateRows_oneLine hbirth hserial hbattdat hfirmrev⟩

end Rows

/-! ## Each line has a label -/

/-- The characters before the colon, without the blanks at their end. -/
def keyOf (line : List Char) : List Char :=
  (line.takeWhile (· ≠ ':')).rdropWhile (· = ' ')

/-- What the report writes before the value for a key. -/
def labelOf (key : List Char) : List Char :=
  key ++ List.replicate (9 - key.length) ' ' ++ [':', ' ']

/-- The line is a key, padded to nine characters, a colon, a blank and a value. -/
def Labelled (line : List Char) : Prop :=
  labelOf (keyOf line) <+: line

/-- A label of the report. -/
structure IsLabel (label : List Char) : Prop where
  padded : labelOf (keyOf label) = label
  colon : ':' ∈ label
  oneLine : OneLine label
  short : label.length ≤ maxString - 1

instance (label : List Char) : Decidable (IsLabel label) :=
  decidable_of_iff
    (labelOf (keyOf label) = label ∧ ':' ∈ label ∧ OneLine label ∧ label.length ≤ maxString - 1)
    ⟨fun ⟨hpadded, hcolon, honeLine, hshort⟩ => ⟨hpadded, hcolon, honeLine, hshort⟩,
      fun ⟨hpadded, hcolon, honeLine, hshort⟩ => ⟨hpadded, hcolon, honeLine, hshort⟩⟩

/-- The key ends at the first colon. -/
theorem keyOf_append {front : List Char} (hcolon : ':' ∈ front) (rest : List Char) :
    keyOf (front ++ rest) = keyOf front := by
  have htaken : (front ++ rest).takeWhile (· ≠ ':') = front.takeWhile (· ≠ ':') := by
    rw [List.takeWhile_append, if_neg]
    intro hlength
    have hall : front.takeWhile (· ≠ ':') = front :=
      (List.takeWhile_prefix _).eq_of_length hlength
    have hne := List.mem_takeWhile_imp (hall.symm ▸ hcolon)
    simp at hne
  rw [keyOf, keyOf, htaken]

/-- What begins with a label is labelled. -/
theorem IsLabel.labelled {label : List Char} (hlabel : IsLabel label) {line : List Char}
    (hstarts : label <+: line) : Labelled line := by
  rcases hstarts with ⟨value, rfl⟩
  rw [Labelled, keyOf_append hlabel.colon, hlabel.padded]
  exact List.prefix_append label value

theorem statusRows_isLabel (host : Host) (ups : StatusUps) :
    ∀ row ∈ statusRows host ups, IsLabel row.1.toList := by
  simp only [statusRows, List.forall_mem_append, identityRows, measurementRows, settingRows,
    historyRows, nameplateRows, List.forall_mem_cons, List.not_mem_nil, false_imp_iff,
    implies_true, and_true]
  refine ⟨⟨⟨⟨?_, ?_⟩, ?_⟩, ?_⟩, ?_⟩ <;> decide +kernel

/-! ## Each line that is sent has one -/

/-- The records that are sent are the front of the buffer. -/
theorem flatten_sentRecords (text record : List Char) :
    (sentRecords record text).flatten <+: record ++ text := by
  induction text generalizing record with
  | nil => simp [sentRecords]
  | cons c text ih =>
      by_cases hc : c = '\n'
      · have hrest := (List.prefix_append_right_inj (record ++ [c])).mpr (ih [])
        simpa [sentRecords, hc] using hrest
      · simpa [sentRecords, hc] using ih (record ++ [c])

/-- The buffer holds the texts that were written, cut, except those it had no room for. -/
theorem largebuf_foldl_statusWrite (texts : List (List Char)) (server : StatusServer) :
    ∃ pieces, List.Sublist pieces (texts.map fun text => text.take (maxString - 1)) ∧
      (texts.foldl statusWrite server).largebuf = server.largebuf ++ pieces.flatten := by
  induction texts generalizing server with
  | nil => exact ⟨[], List.Sublist.refl _, by simp⟩
  | cons text texts ih =>
      rcases ih (statusWrite server text) with ⟨pieces, hpieces, hlargebuf⟩
      rw [List.foldl_cons, hlargebuf, List.map_cons]
      unfold statusWrite
      dsimp only
      split_ifs
      · exact ⟨_ :: pieces, hpieces.cons_cons _, by simp⟩
      · exact ⟨pieces, hpieces.cons _, rfl⟩

/-- A record as it is written: a label, a value on one line and a newline, cut to the array. -/
def ReportPiece (piece : List Char) : Prop :=
  ∃ label value, IsLabel label ∧ OneLine value ∧
    piece = (label ++ value ++ ['\n']).take (maxString - 1)

/-- Cutting a record leaves its label. -/
theorem ReportPiece.append {piece text : List Char} (hpiece : ReportPiece piece)
    (htext : EveryLine '\n' Labelled text) : EveryLine '\n' Labelled (piece ++ text) := by
  rcases hpiece with ⟨label, value, hlabel, hvalue, rfl⟩
  have hline : '\n' ∉ label ++ value :=
    (oneLine_append.mpr ⟨hlabel.oneLine, hvalue⟩).newline_not_mem
  refine htext.append (fun line => hlabel.labelled) hlabel.oneLine.newline_not_mem ?_
    ((onePiece_append_sep hline).of_isPrefix (List.take_prefix _ _))
  rw [List.append_assoc, List.take_append, List.take_of_length_le hlabel.short]
  exact List.prefix_append _ _

theorem everyLine_flatten {pieces : List (List Char)}
    (hpieces : ∀ piece ∈ pieces, ReportPiece piece) :
    EveryLine '\n' Labelled pieces.flatten := by
  induction pieces with
  | nil => exact everyLine_nil
  | cons piece pieces ih =>
      rcases List.forall_mem_cons.mp hpieces with ⟨hpiece, hrest⟩
      exact hpiece.append (ih hrest)

theorem ReportPiece.nul_not_mem {piece : List Char} (hpiece : ReportPiece piece) :
    nul ∉ piece := by
  rcases hpiece with ⟨label, value, hlabel, hvalue, rfl⟩
  intro hmem
  rcases List.mem_append.mp (List.mem_of_mem_take hmem) with hline | hnewline
  · exact (oneLine_append.mpr ⟨hlabel.oneLine, hvalue⟩).nul_not_mem hline
  · exact absurd (List.mem_singleton.mp hnewline) (by decide)

theorem headerRecord_reportPiece (server : StatusServer) : ReportPiece (headerRecord server) := by
  have hpad (width n : ℕ) : OneLine (padLeft '0' width (Nat.toDigits 10 n)) :=
    oneLine_padLeft (by decide) (oneLine_toDigits n)
  refine ⟨"APC      : ".toList, padLeft '0' 3 (Nat.toDigits 10 1) ++
      ',' :: padLeft '0' 3 (Nat.toDigits 10 server.statRecs) ++
      ',' :: padLeft '0' 4 (Nat.toDigits 10 server.largebuf.length), by decide, ?_, ?_⟩
  · simp only [oneLine_append, oneLine_cons, hpad]
    decide
  · simp only [headerRecord, List.append_assoc]

/-- The text that is sent is the front of a sequence of records. -/
theorem statusText_pieces {host : Host} {ups : StatusUps}
    (htexts : ∀ text ∈ reportedTexts host ups, OneLine text) :
    ∃ pieces : List (List Char), (∀ piece ∈ pieces, ReportPiece piece) ∧
      statusText host ups <+: pieces.flatten := by
  rcases largebuf_foldl_statusWrite (outputStatus host ups) statusOpen with
    ⟨pieces, hpieces, hlargebuf⟩
  refine ⟨headerRecord ((outputStatus host ups).foldl statusWrite statusOpen) :: pieces,
    List.forall_mem_cons.mpr ⟨headerRecord_reportPiece _, ?_⟩, ?_⟩
  · intro piece hpiece
    rcases List.mem_map.mp (hpieces.subset hpiece) with ⟨text, htext, rfl⟩
    rcases List.mem_filterMap.mp htext with ⟨row, hrow, hrecord⟩
    rcases Option.map_eq_some_iff.mp hrecord with ⟨value, hvalue, rfl⟩
    exact ⟨row.1.toList, value, statusRows_isLabel host ups row hrow,
      statusRows_oneLine htexts row hrow value hvalue, rfl⟩
  · have hbuffer : ((outputStatus host ups).foldl statusWrite statusOpen).largebuf =
        pieces.flatten := hlargebuf.trans (List.nil_append _)
    rw [statusText, statusMessages, statusClose, List.flatten_cons, List.flatten_cons, hbuffer]
    exact (List.prefix_append_right_inj _).mpr (flatten_sentRecords _ [])

/-- Every line of the text that is sent begins with a padded key, a colon and a blank. -/
theorem statusText_labelled {host : Host} {ups : StatusUps}
    (htexts : ∀ text ∈ reportedTexts host ups, OneLine text) :
    EveryLine '\n' Labelled (statusText host ups) := by
  rcases statusText_pieces htexts with ⟨pieces, hpieces, hstarts⟩
  exact (everyLine_flatten hpieces).of_isPrefix hstarts

theorem statusText_nul_not_mem {host : Host} {ups : StatusUps}
    (htexts : ∀ text ∈ reportedTexts host ups, OneLine text) :
    nul ∉ statusText host ups := by
  rcases statusText_pieces htexts with ⟨pieces, hpieces, hstarts⟩
  intro hmem
  rcases List.mem_flatten.mp (hstarts.subset hmem) with ⟨piece, hpiece, hnul⟩
  exact (hpieces piece hpiece).nul_not_mem hnul

end Apcupsd
