import Apcupsd.Foundations.Occurrence
import Apcupsd.Nis.GetUpsVar
import Apcupsd.Nis.SelfConsistent

/-!
# Every keyword is found on its own line

The lookup of a slave takes the first occurrence of a keyword.  No label of the report and nothing
that the report computes contains a keyword of a later line, so only the texts that the
administrator and the UPS provide can mislead it.

Main results:

- Theorem {lit}`statusRows_keyless`: no value contains a keyword if none of those texts does.
- Theorem {lit}`getupsvar_report`: then every request gets the value of its own line.
-/

namespace Apcupsd

open CStrings TextLines

/-! ## Texts without keywords -/

/-- No keyword of the table occurs in the text. -/
def Keyless (text : List Char) : Prop :=
  ∀ row ∈ cmdtrans, ¬ row.key <:+: text

instance (text : List Char) : Decidable (Keyless text) :=
  inferInstanceAs (Decidable (∀ row ∈ cmdtrans, ¬ row.key <:+: text))

/-- No character of the text is a capital letter. -/
def Quiet (text : List Char) : Prop :=
  ∀ c ∈ text, c.isUpper = false

instance (text : List Char) : Decidable (Quiet text) :=
  inferInstanceAs (Decidable (∀ c ∈ text, c.isUpper = false))

/-- Keywords consist of capital letters. -/
theorem isUpper_of_mem_key : ∀ row ∈ cmdtrans, ∀ c ∈ row.key, c.isUpper = true := by
  decide +kernel

theorem not_mem_key {row : CmdTrans} (hrow : row ∈ cmdtrans) {c : Char}
    (hc : c.isUpper = false) : c ∉ row.key :=
  fun hmem => Bool.false_ne_true (hc.symm.trans (isUpper_of_mem_key row hrow c hmem))

/-- Every keyword has four letters or more. -/
theorem keyless_of_few {text : List Char} (hfew : text.countP Char.isUpper < 4) :
    Keyless text := by
  have hlong : ∀ row ∈ cmdtrans, 4 ≤ row.key.countP Char.isUpper := by decide +kernel
  intro row hrow hoccurs
  have hle : row.key.countP Char.isUpper ≤ text.countP Char.isUpper :=
    hoccurs.sublist.countP_le
  have hfour := hlong row hrow
  omega

theorem Quiet.countP_eq_zero {text : List Char} (htext : Quiet text) :
    text.countP Char.isUpper = 0 :=
  List.countP_eq_zero.mpr fun c hc => by
    rw [htext c hc]
    exact Bool.false_ne_true

theorem Quiet.keyless {text : List Char} (htext : Quiet text) : Keyless text := by
  apply keyless_of_few
  rw [htext.countP_eq_zero]
  decide

/-- No keyword reaches across a character that is no capital letter. -/
theorem Keyless.append {front rest : List Char} (hfront : Keyless front) (hrest : Keyless rest)
    (hbreak : ∀ c ∈ rest.head?, c.isUpper = false) : Keyless (front ++ rest) :=
  fun row hrow => not_isInfix_append (fun c hc => not_mem_key hrow (hbreak c hc))
    (hfront row hrow) (hrest row hrow)

theorem Keyless.append_of_last {front rest : List Char} (hfront : Keyless front)
    (hrest : Keyless rest) (hbreak : ∀ c ∈ front.getLast?, c.isUpper = false) :
    Keyless (front ++ rest) :=
  fun row hrow => not_isInfix_append_of_last (fun c hc => not_mem_key hrow (hbreak c hc))
    (hfront row hrow) (hrest row hrow)

theorem Keyless.of_isPrefix {text part : List Char} (htext : Keyless text)
    (hstarts : part <+: text) : Keyless part :=
  fun row hrow hoccurs => htext row hrow (hoccurs.trans hstarts.isInfix)

@[simp]
theorem quiet_append {front rest : List Char} :
    Quiet (front ++ rest) ↔ Quiet front ∧ Quiet rest :=
  List.forall_mem_append

@[simp]
theorem quiet_cons {c : Char} {text : List Char} :
    Quiet (c :: text) ↔ c.isUpper = false ∧ Quiet text :=
  List.forall_mem_cons

/-! ## What the report computes -/

/-- The characters of a decimal number. -/
def numberChars : List Char :=
  "0123456789abcdef*.-in".toList

/-- The characters of a hexadecimal word. -/
def hexChars : List Char :=
  "0123456789ABCDEF*x".toList

theorem toDigits_chars (n : ℕ) : ∀ c ∈ Nat.toDigits 10 n, c ∈ numberChars := by
  intro c hc
  have hall : ∀ c ∈ "0123456789abcdef*".toList, c ∈ numberChars := by decide
  exact hall c (mem_toDigits (by decide) hc)

theorem padLeft_chars {chars text : List Char} (hzero : '0' ∈ chars)
    (htext : ∀ c ∈ text, c ∈ chars) (width : ℕ) : ∀ c ∈ padLeft '0' width text, c ∈ chars := by
  refine List.forall_mem_append.mpr ⟨fun c hc => ?_, htext⟩
  rw [(List.mem_replicate.mp hc).2]
  exact hzero

theorem decimal_chars (n : Int) : ∀ c ∈ decimal n, c ∈ numberChars := by
  unfold decimal
  split_ifs
  · exact List.forall_mem_cons.mpr ⟨by decide, toDigits_chars _⟩
  · exact toDigits_chars _

theorem fixedPoint_chars (places : ℕ) (d : CDouble) :
    ∀ c ∈ fixedPoint places d, c ∈ numberChars := by
  cases d with
  | finite q =>
      have hsign : ∀ c ∈ if q < 0 then ['-'] else [], c ∈ numberChars := by
        split_ifs <;> decide
      have hplaces (n : ℕ) : ∀ c ∈ padLeft '0' places (Nat.toDigits 10 n), c ∈ numberChars :=
        padLeft_chars (by decide) (toDigits_chars n) places
      refine List.forall_mem_append.mpr ⟨List.forall_mem_append.mpr ⟨hsign, toDigits_chars _⟩, ?_⟩
      exact List.forall_mem_cons.mpr ⟨by decide, hplaces _⟩
  | posInf => exact (by decide : ∀ c ∈ "inf".toList, c ∈ numberChars)
  | negInf => exact (by decide : ∀ c ∈ "-inf".toList, c ∈ numberChars)
  | nan => exact (by decide : ∀ c ∈ "nan".toList, c ∈ numberChars)

theorem hexWord_chars (width n : ℕ) : ∀ c ∈ hexWord width n, c ∈ hexChars := by
  refine List.forall_mem_append.mpr ⟨by decide, padLeft_chars (by decide) ?_ width⟩
  intro c hc
  rcases List.mem_map.mp hc with ⟨digit, hdigit, rfl⟩
  have hall : ∀ c ∈ "0123456789abcdef*".toList, c.toUpper ∈ hexChars := by decide
  exact hall digit (mem_toDigits (by decide) hdigit)

theorem quiet_of_number {text : List Char} (htext : ∀ c ∈ text, c ∈ numberChars) : Quiet text := by
  have hall : ∀ c ∈ numberChars, c.isUpper = false := by decide
  exact fun c hc => hall c (htext c hc)

theorem quiet_decimal (n : Int) : Quiet (decimal n) :=
  quiet_of_number (decimal_chars n)

theorem quiet_atLeastTwo (n : ℕ) : Quiet (atLeastTwo n) :=
  quiet_of_number (padLeft_chars (by decide) (toDigits_chars n) 2)

theorem quiet_formatDate (host : Host) (timestamp : Int) : Quiet (formatDate host timestamp) := by
  have hsign : Quiet
      (if (host.localtime timestamp).gmtoffMinutes < 0 then " -" else " +").toList := by
    split_ifs <;> decide
  simp only [formatDate, quiet_append, quiet_cons, quiet_decimal, quiet_atLeastTwo, hsign]
  decide

theorem quiet_fixedPoint (places : ℕ) (d : CDouble) : Quiet (fixedPoint places d) :=
  quiet_of_number (fixedPoint_chars places d)

/-- What stands behind a number: a unit, with at most three capital letters. -/
theorem Quiet.keyless_append {number : List Char} (hnumber : Quiet number) {unit : String}
    (hfew : unit.toList.countP Char.isUpper < 4) : Keyless (number ++ unit.toList) := by
  apply keyless_of_few
  rw [List.countP_append, hnumber.countP_eq_zero, Nat.zero_add]
  exact hfew

theorem keyless_fixedPoint_append (places : ℕ) (d : CDouble) {unit : String}
    (hfew : unit.toList.countP Char.isUpper < 4) :
    Keyless (fixedPoint places d ++ unit.toList) :=
  (quiet_fixedPoint places d).keyless_append hfew

theorem keyless_measured {unit : String} (hfew : unit.toList.countP Char.isUpper < 4)
    (d : CDouble) : Keyless (measured d unit) :=
  keyless_fixedPoint_append 1 d hfew

theorem keyless_counted {unit : String} (hfew : unit.toList.countP Char.isUpper < 4) (n : Int) :
    Keyless (counted n unit) :=
  (quiet_decimal n).keyless_append hfew

/-- Every keyword has a character that is no hexadecimal digit. -/
theorem keyless_hexWord (width n : ℕ) : Keyless (hexWord width n) := by
  have hall : ∀ row ∈ cmdtrans, row.key.all (fun c => decide (c ∈ hexChars)) = false := by
    decide +kernel
  intro row hrow
  rcases List.all_eq_false.mp (hall row hrow) with ⟨c, hc, hnot⟩
  rw [decide_eq_true_iff] at hnot
  exact not_isInfix_of_not_mem hc fun hmem => hnot (hexWord_chars width n c hmem)

theorem keyless_sensitivityText (sensitivity : List Char) :
    Keyless (sensitivityText sensitivity).toList := by
  apply keyless_of_few
  unfold sensitivityText
  split <;> decide

theorem keyless_alarmdelText (beepstate : List Char) :
    Keyless (alarmdelText beepstate).toList := by
  apply keyless_of_few
  unfold alarmdelText
  split <;> decide

/-! ## The status in words -/

theorem not_isUpper_of_blank {text : List Char} (htext : text.getLast? = some ' ') :
    ∀ c ∈ text.getLast?, c.isUpper = false := by
  intro c hc
  rw [htext] at hc
  obtain rfl := Option.some.inj hc
  rfl

/-- Words can be appended: the text ends with no capital letter, or has no more room. -/
structure OpenWords (status : List Char) : Prop where
  keyless : Keyless status
  last : (∀ c ∈ status.getLast?, c.isUpper = false) ∨ 99 ≤ status.length

theorem OpenWords.keyless_catStatus {status : List Char} (hstatus : OpenWords status)
    {word : String} (hword : Keyless word.toList) : Keyless (catStatus status word) := by
  unfold catStatus
  rcases hstatus.last with hlast | hfull
  · exact hstatus.keyless.append_of_last (hword.of_isPrefix (List.take_prefix _ _)) hlast
  · have hroom : 100 - 1 - status.length = 0 := by omega
    rw [hroom, List.take_zero, List.append_nil]
    exact hstatus.keyless

/-- A word with a blank at its end. -/
theorem OpenWords.catStatus {status : List Char} (hstatus : OpenWords status) {word : String}
    (hword : Keyless word.toList) (hblank : ∀ c ∈ word.toList.getLast?, c.isUpper = false) :
    OpenWords (catStatus status word) := by
  refine ⟨hstatus.keyless_catStatus hword, ?_⟩
  unfold Apcupsd.catStatus
  by_cases hroom : word.toList.length ≤ 100 - 1 - status.length
  · rw [List.take_of_length_le hroom]
    rcases List.eq_nil_or_concat word.toList with hnil | ⟨front, c, hword'⟩
    · rw [hnil, List.append_nil]
      exact hstatus.last
    · left
      rw [hword', List.concat_eq_append] at hblank ⊢
      simpa [← List.append_assoc] using hblank
  · right
    rw [List.length_append, List.length_take]
    omega

theorem OpenWords.foldl {flags : List (Bool × String)}
    (hflags : ∀ flag ∈ flags, Keyless flag.2.toList ∧ flag.2.toList.getLast? = some ' ')
    {status : List Char}
    (hstatus : OpenWords status) :
    OpenWords (flags.foldl
      (fun status flag => if flag.1 then Apcupsd.catStatus status flag.2 else status) status) := by
  induction flags generalizing status with
  | nil => exact hstatus
  | cons flag flags ih =>
      rcases List.forall_mem_cons.mp hflags with ⟨hflag, hrest⟩
      have hopen := hstatus.catStatus hflag.1 (not_isUpper_of_blank hflag.2)
      cases hraised : flag.1 with
      | true => simpa [hraised] using ih hrest hopen
      | false => simpa [hraised] using ih hrest hstatus

theorem keyless_statusWords (ups : UpsInfo) : Keyless (statusWords ups) := by
  have hnil : OpenWords [] := ⟨by decide +kernel, .inl (by simp)⟩
  have hwords : OpenWords ([(ups.isCalibration, "CAL "), (ups.isTrim, "TRIM "),
      (ups.isBoost, "BOOST "), (ups.isOnline, "ONLINE "), (ups.isOnbatt, "ONBATT "),
      (ups.isOverload, "OVERLOAD "), (ups.isBattlow, "LOWBATT "),
      (ups.isReplacebatt, "REPLACEBATT "), (!ups.isBattpresent, "NOBATT "),
      (ups.isSlave, "SLAVE ")].foldl
      (fun status flag => if flag.1 then catStatus status flag.2 else status) []) := by
    apply hnil.foldl
    simp only [List.forall_mem_cons]
    decide +kernel
  -- the last word has no blank behind it
  have hends (status : List Char) (hstatus : OpenWords status) :
      Keyless (if ups.isSlavedown then catStatus status "SLAVEDOWN" else status) := by
    split_ifs
    · exact hstatus.keyless_catStatus (by decide +kernel)
    · exact hstatus.keyless
  unfold statusWords
  dsimp only
  split_ifs
  · decide +kernel
  · decide +kernel
  · exact hends _ hwords

/-! ## The values of the report -/

/-- The value of a record, if it is written, has no keyword. -/
def KeylessRow (row : String × Option (List Char)) : Prop :=
  ∀ value ∈ row.2, Keyless value

theorem keylessRow_some {label : String} {value : List Char} :
    KeylessRow (label, some value) ↔ Keyless value := by
  simp [KeylessRow]

theorem keylessRow_onlyIf {label : String} {condition : Bool} {value : List Char} :
    KeylessRow (label, onlyIf condition value) ↔ (condition = true → Keyless value) := by
  cases condition <;> simp [KeylessRow, onlyIf]

theorem keylessRow_lastxferText (label : String) (cause : LastXferCause) :
    KeylessRow (label, (lastxferText cause).map String.toList) := by
  cases cause with
  | xferUnknown => exact keylessRow_some.mpr (by decide +kernel)
  | xferNa => exact fun value hvalue => by cases hvalue
  | _ => exact keylessRow_some.mpr (keyless_of_few (by decide))

theorem keylessRow_selftestText (label : String) (result : SelfTestResult) :
    KeylessRow (label, (selftestText result).map String.toList) := by
  cases result with
  | testNa => exact fun value hvalue => by cases hvalue
  | _ => exact keylessRow_some.mpr (keyless_of_few (by decide))

section Rows

variable {host : Host} {ups : StatusUps}

theorem keyless_formatDate (timestamp : Int) : Keyless (formatDate host timestamp) :=
  (quiet_formatDate host timestamp).keyless

theorem keyless_decimal (n : Int) : Keyless (decimal n) :=
  (quiet_decimal n).keyless

theorem identityRows_keyless (htexts : ∀ text ∈ reportedTexts host ups, Keyless text) :
    ∀ row ∈ identityRows host ups, KeylessRow row := by
  simp only [reportedTexts, List.forall_mem_cons] at htexts
  rcases htexts with ⟨hhostname, hhost, hupsname, hcable, hmode, hclass, hshare, hmaster, hmodel, -⟩
  have hversion : Keyless ("3.14.14 (31 May 2016) ".toList ++ host.apcupsdHost) :=
    Keyless.append_of_last (keyless_of_few (by decide)) hhost (not_isUpper_of_blank rfl)
  have hmasterupd : Keyless (if ups.lastMasterConnectTime = 0 then
      "No connection to Master".toList else formatDate host ups.lastMasterConnectTime) := by
    split_ifs
    · exact keyless_of_few (by decide)
    · exact keyless_formatDate _
  simp only [identityRows, List.forall_mem_cons, keylessRow_some, keylessRow_onlyIf,
    keyless_formatDate, keyless_statusWords, hhostname, hupsname, hcable, hmode, hclass, hshare,
    hmaster, hmodel, hversion, hmasterupd, implies_true, true_and, List.not_mem_nil,
    false_imp_iff]

theorem measurementRows_keyless : ∀ row ∈ measurementRows ups, KeylessRow row := by
  simp (disch := decide) only [measurementRows, List.forall_mem_cons, keylessRow_some,
    keylessRow_onlyIf, keyless_measured, keyless_counted, implies_true, true_and,
    List.not_mem_nil, false_imp_iff]

theorem settingRows_keyless : ∀ row ∈ settingRows ups, KeylessRow row := by
  simp (disch := decide) only [settingRows, List.forall_mem_cons, keylessRow_onlyIf,
    keyless_measured, keyless_counted, keyless_sensitivityText, keyless_alarmdelText,
    keyless_fixedPoint_append, implies_true, true_and, List.not_mem_nil, false_imp_iff]

theorem historyRows_keyless (hselftest : Keyless ups.selftest) :
    ∀ row ∈ historyRows host ups, KeylessRow row := by
  have hxoffbatt : Keyless (if ups.lastOffbattTime > 0 then formatDate host ups.lastOffbattTime
      else "N/A".toList) := by
    split_ifs
    · exact keyless_formatDate _
    · exact keyless_of_few (by decide)
  simp (disch := decide) only [historyRows, List.forall_mem_cons, keylessRow_some,
    keylessRow_onlyIf, keylessRow_lastxferText, keylessRow_selftestText, keyless_formatDate,
    keyless_decimal, keyless_counted, hxoffbatt, hselftest, implies_true, true_and,
    List.not_mem_nil, false_imp_iff]

theorem nameplateRows_keyless (hbirth : Keyless ups.birth) (hserial : Keyless ups.serial)
    (hbattdat : Keyless ups.battdat) (hfirmrev : Keyless ups.firmrev) :
    ∀ row ∈ nameplateRows host ups, KeylessRow row := by
  simp (disch := decide) only [nameplateRows, List.forall_mem_cons, keylessRow_some,
    keylessRow_onlyIf, keyless_formatDate, keyless_hexWord, keyless_decimal, keyless_measured,
    keyless_counted, hbirth, hserial, hbattdat, hfirmrev, implies_true, true_and,
    List.not_mem_nil, false_imp_iff]

/-- No value contains a keyword if the texts that are not computed contain none. -/
theorem statusRows_keyless (htexts : ∀ text ∈ reportedTexts host ups, Keyless text) :
    ∀ row ∈ statusRows host ups, KeylessRow row := by
  have hmem : ∀ text, text ∈ [ups.selftest, ups.birth, ups.serial, ups.battdat, ups.firmrev] →
      Keyless text := by
    intro text htext
    exact htexts text (List.mem_of_mem_drop (i := 9) htext)
  simp only [List.forall_mem_cons] at hmem
  rcases hmem with ⟨hselftest, hbirth, hserial, hbattdat, hfirmrev, -⟩
  simp only [statusRows, List.forall_mem_append]
  exact ⟨⟨⟨⟨identityRows_keyless htexts, measurementRows_keyless⟩, settingRows_keyless⟩,
    historyRows_keyless hselftest⟩, nameplateRows_keyless hbirth hserial hbattdat hfirmrev⟩

end Rows

/-! ## The labels of the report -/

/-- The labels, in their order. -/
def statusLabels : List String :=
  ["DATE     : ", "HOSTNAME : ", "VERSION  : ", "UPSNAME  : ", "CABLE    : ", "DRIVER   : ",
    "UPSMODE  : ", "STARTTIME: ", "SHARE    : ", "MASTERUPD: ", "MASTER   : ", "MODEL    : ",
    "STATUS   : ", "LINEV    : ", "LOADPCT  : ", "REALPOWER: ", "LOADAPNT : ",
    "APPARENTPOWER: ", "BCHARGE  : ", "TIMELEFT : ", "MBATTCHG : ", "MINTIMEL : ",
    "MAXTIME  : ", "MAXLINEV : ", "MINLINEV : ", "OUTPUTV  : ", "SENSE    : ", "DWAKE    : ",
    "DSHUTD   : ", "DLOWBATT : ", "LOTRANS  : ", "HITRANS  : ", "RETPCT   : ", "ITEMP    : ",
    "ALARMDEL : ", "BATTV    : ", "LINEFREQ : ", "OUTCURNT : ", "LASTXFER : ", "NUMXFERS : ",
    "XONBATT  : ", "TONBATT  : ", "CUMONBATT: ", "XOFFBATT : ", "LASTSTEST: ", "SELFTEST : ",
    "STESTI   : ", "STATFLAG : ", "DIPSW    : ", "REG1     : ", "REG2     : ", "REG3     : ",
    "MANDATE  : ", "SERIALNO : ", "BATTDATE : ", "NOMOUTV  : ", "NOMINV   : ", "NOMBATTV : ",
    "NOMPOWER : ", "NOMAPNT  : ", "HUMIDITY : ", "AMBTEMP  : ", "EXTBATTS : ", "BADBATTS : ",
    "FIRMWARE : ", "END APC  : "]

theorem map_fst_statusRows (host : Host) (ups : StatusUps) :
    (statusRows host ups).map Prod.fst = statusLabels :=
  rfl

/-- No label in front of that of a keyword contains the keyword. -/
theorem statusLabels_keyless {row : CmdTrans} (hrow : row ∈ cmdtrans) {front : List String}
    {label : String} {rest : List String} (hlabels : statusLabels = front ++ label :: rest)
    (hkey : keyOf label.toList = row.key) : ∀ earlier ∈ front, ¬ row.key <:+: earlier.toList := by
  have hall : ∀ row ∈ cmdtrans, ∀ i < 66,
      (statusLabels[i]?.map fun label => keyOf label.toList) = some row.key →
        ∀ earlier ∈ statusLabels.take i, ¬ row.key <:+: earlier.toList := by
    decide +kernel
  have hplace : statusLabels[front.length]? = some label := by
    rw [hlabels, List.getElem?_append_right le_rfl, Nat.sub_self]
    rfl
  have hlength : front.length < 66 := by
    have hall : statusLabels.length = 66 := rfl
    rw [hlabels, List.length_append, List.length_cons] at hall
    omega
  have htake : statusLabels.take front.length = front := by
    rw [hlabels, List.take_left]
  have hearlier := hall row hrow front.length hlength (by rw [hplace, Option.map_some, hkey])
  rwa [htake] at hearlier

/-! ## The line of a keyword -/

section Lines

variable {host : Host} {ups : StatusUps} {row : CmdTrans}

/-- A record without the keyword, in front of its line. -/
theorem record_keyless {text : List Char} (htext : ¬ row.key <:+: text) (hrow : row ∈ cmdtrans) :
    ¬ row.key <:+: text ++ ['\n'] ∧ ∀ c ∈ (text ++ ['\n']).getLast?, c ∉ row.key := by
  have hnewline : '\n' ∉ row.key := not_mem_key hrow rfl
  refine ⟨fun hoccurs => htext (isInfix_of_isInfix_append_singleton hnewline hoccurs), ?_⟩
  intro c hc
  rw [List.getLast?_concat] at hc
  obtain rfl := Option.some.inj hc
  exact hnewline

/-- Records end with a newline, one after the other. -/
theorem flatten_records {records : List (List Char)} (hne : records ≠ [])
    (hrecords : ∀ record ∈ records, ∃ text, record = text ++ ['\n']) :
    ∃ text, records.flatten = text ++ ['\n'] := by
  rcases List.eq_nil_or_concat records with hnil | ⟨earlier, last, rfl⟩
  · exact absurd hnil hne
  · rw [List.concat_eq_append] at hrecords ⊢
    obtain ⟨text, rfl⟩ := hrecords last (by simp)
    exact ⟨earlier.flatten ++ text, by simp⟩

theorem IsLabel.last {label : List Char} (hlabel : IsLabel label) :
    ∀ c ∈ label.getLast?, c.isUpper = false := by
  intro c hc
  rw [← hlabel.padded, labelOf, List.getLast?_append] at hc
  obtain rfl := Option.some.inj hc
  rfl

/-- The record at the front of a reply has no keyword. -/
theorem announcingRecord_keyless (records bytes : ℕ) :
    ∃ text, announcingRecord records bytes = text ++ ['\n'] ∧ Keyless text := by
  refine ⟨_, rfl, ?_⟩
  have hpad (width n : ℕ) : Quiet (padLeft '0' width (Nat.toDigits 10 n)) :=
    quiet_of_number (padLeft_chars (by decide) (toDigits_chars n) width)
  have hrest : Quiet (padLeft '0' 3 (Nat.toDigits 10 records) ++
      ',' :: padLeft '0' 4 (Nat.toDigits 10 bytes)) := by
    simp only [quiet_append, quiet_cons, hpad]
    decide
  apply keyless_of_few
  rw [List.append_assoc, List.countP_append, hrest.countP_eq_zero]
  decide

/-- Where the line of a keyword stands in the text of a report that fits. -/
theorem statusText_line (htexts : ∀ text ∈ reportedTexts host ups, OneLine text)
    (hkeyless : ∀ text ∈ reportedTexts host ups, Keyless text) (hfit : RecordsFit host ups)
    (hrow : row ∈ cmdtrans) {label : String} {value : List Char}
    (hvalue : (label, some value) ∈ statusRows host ups) (hkey : keyOf label.toList = row.key) :
    ∃ front rest, LineAt '\n' (statusText host ups) front (label.toList ++ value) rest ∧
      ¬ row.key <:+: front := by
  let texts (rows : List (String × Option (List Char))) : List (List Char) :=
    rows.filterMap fun row => row.2.map (recordText row.1)
  rcases List.append_of_mem hvalue with ⟨before, after, hsplit⟩
  rcases announcingRecord_keyless (outputStatus host ups).length
    (outputStatus host ups).flatten.length with ⟨announced, hannounced, hfirst⟩
  have hmessages : statusMessages host ups = (announced ++ ['\n']) :: outputStatus host ups := by
    rw [← hannounced]
    exact List.append_cancel_right (consistent_of_fits htexts hfit).1
  have houtput : outputStatus host ups =
      texts before ++ recordText label value :: texts after := by
    change texts (statusRows host ups) = _
    rw [hsplit]
    simp [texts]
  have htext : statusText host ups = ((announced ++ ['\n']) :: texts before).flatten ++
      (label.toList ++ value) ++ '\n' :: (texts after).flatten := by
    rw [statusText, hmessages, houtput]
    simp [recordText]
  have hlabels : statusLabels = before.map Prod.fst ++ label :: after.map Prod.fst := by
    rw [← map_fst_statusRows host ups, hsplit, List.map_append, List.map_cons]
  -- nothing in front has the keyword
  have hrecords : ∀ record ∈ (announced ++ ['\n']) :: texts before,
      ∃ text, record = text ++ ['\n'] ∧ ¬ row.key <:+: text := by
    rw [List.forall_mem_cons]
    refine ⟨⟨announced, rfl, hfirst row hrow⟩, fun record hmem => ?_⟩
    rcases List.mem_filterMap.mp hmem with ⟨earlier, hbefore, hrecord⟩
    rcases Option.map_eq_some_iff.mp hrecord with ⟨value, hsome, rfl⟩
    have hin : earlier ∈ statusRows host ups := by
      rw [hsplit]
      exact List.mem_append_left _ hbefore
    have hlast := (statusRows_isLabel host ups earlier hin).last
    refine ⟨earlier.1.toList ++ value, rfl, ?_⟩
    apply not_isInfix_append_of_last fun c hc => not_mem_key hrow (hlast c hc)
    · exact statusLabels_keyless hrow hlabels hkey earlier.1 (List.mem_map_of_mem hbefore)
    · exact statusRows_keyless hkeyless earlier hin value hsome row hrow
  refine ⟨_, (texts after).flatten, ⟨htext, .inr ?_, ?_⟩, ?_⟩
  · apply flatten_records (List.cons_ne_nil _ _)
    intro record hmem
    rcases hrecords record hmem with ⟨text, heq, -⟩
    exact ⟨text, heq⟩
  · have honeLine := statusRows_oneLine htexts _ hvalue value rfl
    have hlabel := statusRows_isLabel host ups _ hvalue
    exact (oneLine_append.mpr ⟨hlabel.oneLine, honeLine⟩).newline_not_mem
  · apply not_isInfix_flatten (cmdtrans_isKey row hrow).ne_nil
    intro record hmem
    rcases hrecords record hmem with ⟨text, rfl, htext⟩
    exact record_keyless htext hrow

/-- Every request gets the value of its own line, whatever the buffer holds behind the text. -/
theorem getupsvar_report (htexts : ∀ text ∈ reportedTexts host ups, OneLine text)
    (hkeyless : ∀ text ∈ reportedTexts host ups, Keyless text) (hfit : RecordsFit host ups)
    {buffer : StatusBuffer} (hbuffer : buffer.text = statusText host ups) (hrow : row ∈ cmdtrans)
    {label : String} {value : List Char}
    (hvalue : (label, some value) ∈ statusRows host ups) (hkey : keyOf label.toList = row.key)
    {anslen : ℕ} (hreadable : row.Readable value anslen) (answer : List Char) :
    getupsvar buffer row.request answer anslen = (true, row.given value anslen) := by
  rcases statusText_line htexts hkeyless hfit hrow hvalue hkey with ⟨front, rest, hat, hfirst⟩
  have hlabel := statusRows_isLabel host ups _ hvalue
  have hlabelled : Labelled (label.toList ++ value) := hlabel.labelled (List.prefix_append _ _)
  have hkeyOf : keyOf (label.toList ++ value) = row.key :=
    (keyOf_append hlabel.colon value).trans hkey
  have hvalueOf : valueOf (label.toList ++ value) = value := by
    rw [← hlabel.padded, hkey]
    exact valueOf_labelOf_append (cmdtrans_isKey row hrow).colon value
  have hnul : nul ∉ buffer.text := by
    rw [hbuffer]
    exact statusText_nul_not_mem htexts
  rw [← hbuffer] at hat
  rw [← hvalueOf] at hreadable
  rcases @getupsvar_ownLine buffer row answer anslen _ _ _ hrow hat hlabelled hkeyOf hnul hfirst
    hreadable with ⟨hfound, htaken⟩
  exact Prod.ext hfound (htaken.given.trans (by rw [hvalueOf]))

end Lines

end Apcupsd
