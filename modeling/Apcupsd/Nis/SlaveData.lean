import Apcupsd.Config.ParseConfig
import Apcupsd.Nis.OwnLines
import Apcupsd.Nis.PrintedNumbers
import Apcupsd.Nis.SlaveShutdown
import Apcupsd.Usb.ProcessValue

/-!
# What a slave knows about the UPS of its master

{lit}`NetUpsDriver::read_volatile_data` from {lit}`drivers/net/net.c` looks up one variable after
the other in the report of the master.  Together with {lit}`output_status` at the other end, and
with what is between them, it makes the record of the slave follow that of the master.

Main results:

- Definition {lit}`volatileVars`: the variables, in their order.
- Theorem {lit}`readVolatile_stores`: what a variable leaves in the record.
- Theorem {lit}`slave_mirrors_master`: after a poll the slave has the status of the master, and
  its measurements up to a tenth.
-/

namespace Apcupsd
namespace NetSlave

open BitFlags CStrings Config LengthPrefix Deframer

/-! ## The variables -/

/-- {lit}`decode_testresult`. -/
def decodeTestresult (str : List Char) : SelfTestResult :=
  if ['O', 'K'] <+: str then .testPassed
  else if ['N', 'O'] <+: str then .testNone
  else if ['B', 'T'] <+: str then .testFailcap
  else if ['N', 'G'] <+: str then .testFailed
  else if ['W', 'N'] <+: str then .testWarning
  else if ['I', 'P'] <+: str then .testInprogress
  else .testUnknown

/-- {lit}`decode_lastxfer`. -/
def decodeLastxfer (str : List Char) : LastXferCause :=
  if str = "No transfers since turnon".toList then .xferNone
  else if str = "Automatic or explicit self test".toList then .xferSelftest
  else if str = "Forced by software".toList then .xferForced
  else if str = "Low line voltage".toList then .xferUndervolt
  else if str = "High line voltage".toList then .xferOvervolt
  else if str = "Line voltage notch or spike".toList then .xferNotchspike
  else if str = "Unacceptable line voltage changes".toList then .xferRipple
  else if str = "Input frequency out of range".toList then .xferFreq
  else .xferUnknown

/-- A variable of the report, and what is done with the answer. -/
structure SlaveVar where
  ci : Ci
  request : String
  store : List Char → StatusUps → StatusUps

/-- The variables that {lit}`read_volatile_data` asks for. -/
def volatileVars : List SlaveVar :=
  [⟨.vline, "utility", fun answer ups => { ups with lineVoltage := atof answer }⟩,
    ⟨.load, "loadpct", fun answer ups => { ups with upsLoad := atof answer }⟩,
    ⟨.battlev, "battcap", fun answer ups => { ups with battChg := atof answer }⟩,
    ⟨.runtim, "runtime", fun answer ups => { ups with timeLeft := atof answer }⟩,
    ⟨.vmax, "linemax", fun answer ups => { ups with lineMax := atof answer }⟩,
    ⟨.vmin, "linemin", fun answer ups => { ups with lineMin := atof answer }⟩,
    ⟨.vout, "outputv", fun answer ups => { ups with outputVoltage := atof answer }⟩,
    ⟨.sens, "sense", fun answer ups =>
      { ups with sensitivity := answer.headD nul :: ups.sensitivity.drop 1 }⟩,
    ⟨.dlbatt, "lowbatt", fun answer ups => { ups with dlowbatt := (atof answer).toInt }⟩,
    ⟨.ltrans, "lowxfer", fun answer ups => { ups with lotrans := (atof answer).toInt }⟩,
    ⟨.htrans, "highxfer", fun answer ups => { ups with hitrans := (atof answer).toInt }⟩,
    ⟨.retpct, "retpct", fun answer ups => { ups with rtnpct := (atof answer).toInt }⟩,
    ⟨.itemp, "upstemp", fun answer ups => { ups with upsTemp := atof answer }⟩,
    ⟨.vbatt, "battvolt", fun answer ups => { ups with battVoltage := atof answer }⟩,
    ⟨.freq, "outputfreq", fun answer ups => { ups with lineFreq := atof answer }⟩,
    ⟨.whyBatt, "lastxfer", fun answer ups => { ups with lastxfer := decodeLastxfer answer }⟩,
    ⟨.stStat, "selftest", fun answer ups =>
      { ups with testresult := decodeTestresult answer }⟩]

/-- {lit}`GETVAR` and the assignment behind it; all of them share the array of the answer. -/
def SlaveVar.get (buffer : StatusBuffer) (state : List Char × StatusUps) (var : SlaveVar) :
    List Char × StatusUps :=
  if state.2.upsCap var.ci then
    let (found, answer) := getupsvar buffer var.request state.1 200
    (answer, if found then var.store answer state.2 else state.2)
  else state

/-- {lit}`read_volatile_data` between {lit}`fill_status_buffer` and {lit}`get_ups_status_flag`. -/
def readVolatile (buffer : StatusBuffer) (now : Int) (answer : List Char) (ups : StatusUps) :
    StatusUps :=
  let slave : StatusUps :=
    { ups with
      toUpsInfo := { ups.toUpsInfo.set upsSlave with pollTime := now }
      lastMasterConnectTime := now }
  (volatileVars.foldl (SlaveVar.get buffer) (answer, slave)).2

/-- {lit}`read_volatile_data`: its result, the driver, and the record. -/
def readVolatileData (now : Int) (fill : FillPolls) (polls : CallPolls) (beyond answer : List Char)
    (net : NetUpsDriver) (ups : StatusUps) : Bool × NetUpsDriver × StatusUps :=
  match net.fillStatusBuffer now fill with
  | (false, net) => (false, net, { ups with toUpsInfo := net.ups })
  | (true, net) =>
      let ups := readVolatile ⟨net.statbuf, beyond⟩ now answer { ups with toUpsInfo := net.ups }
      let net := { net with ups := ups.toUpsInfo }
      let net := (net.getUpsStatusFlag false now polls).2
      (true, net, { ups with toUpsInfo := net.ups })

/-! ## What a variable leaves -/

section Vars

variable {buffer : StatusBuffer} {var : SlaveVar} {β : Type*} {field : StatusUps → β}

theorem upsCap_get (hvar : var ∈ volatileVars) (state : List Char × StatusUps) :
    (var.get buffer state).2.upsCap = state.2.upsCap := by
  have hall : ∀ var ∈ volatileVars, ∀ answer ups, (var.store answer ups).upsCap = ups.upsCap := by
    simp [volatileVars]
  unfold SlaveVar.get
  split_ifs with hcap
  · dsimp only
    split_ifs
    · exact hall var hvar _ _
    · rfl
  · rfl

theorem upsCap_foldl {vars : List SlaveVar} (hvars : ∀ var ∈ vars, var ∈ volatileVars)
    (state : List Char × StatusUps) :
    (vars.foldl (SlaveVar.get buffer) state).2.upsCap = state.2.upsCap := by
  induction vars generalizing state with
  | nil => rfl
  | cons var vars ih =>
      rw [List.forall_mem_cons] at hvars
      exact (ih hvars.2 _).trans (upsCap_get hvars.1 state)

/-- Later variables leave the field alone. -/
theorem field_foldl {vars : List SlaveVar}
    (hkept : ∀ var ∈ vars, ∀ answer ups, field (var.store answer ups) = field ups)
    (state : List Char × StatusUps) :
    field (vars.foldl (SlaveVar.get buffer) state).2 = field state.2 := by
  induction vars generalizing state with
  | nil => rfl
  | cons var vars ih =>
      rw [List.forall_mem_cons] at hkept
      refine (ih hkept.2 _).trans ?_
      unfold SlaveVar.get
      split_ifs
      · dsimp only
        split_ifs
        · exact hkept.1 _ _
        · rfl
      · rfl

/-- A variable that the slave has and that is found leaves its value in the field. -/
theorem readVolatile_stores {i : ℕ} (hvar : volatileVars[i]? = some var)
    (hkept : ∀ later ∈ volatileVars.drop (i + 1), ∀ answer ups,
      field (later.store answer ups) = field ups)
    {value : List Char} (hread : ∀ answer, getupsvar buffer var.request answer 200 = (true, value))
    (now : Int) (answer : List Char) {slave : StatusUps} (hcap : slave.upsCap var.ci = true) :
    ∃ ups, field (readVolatile buffer now answer slave) = field (var.store value ups) := by
  have hlt := (List.getElem?_eq_some_iff.mp hvar).1
  have hsplit : volatileVars = volatileVars.take i ++ var :: volatileVars.drop (i + 1) := by
    rw [← (List.getElem?_eq_some_iff.mp hvar).2, ← List.drop_eq_getElem_cons hlt,
      List.take_append_drop]
  unfold readVolatile
  dsimp only
  generalize hstart : ({ slave with
    toUpsInfo := { slave.toUpsInfo.set upsSlave with pollTime := now }
    lastMasterConnectTime := now } : StatusUps) = start
  have hcap' : start.upsCap var.ci = true := by
    rw [← hstart]
    exact hcap
  rw [hsplit, List.foldl_append, List.foldl_cons, field_foldl hkept]
  have hkeeps := @upsCap_foldl buffer (volatileVars.take i)
    (fun var hmem => List.mem_of_mem_take hmem) (answer, start)
  generalize (volatileVars.take i).foldl (SlaveVar.get buffer) (answer, start) = state at hkeeps ⊢
  refine ⟨state.2, ?_⟩
  unfold SlaveVar.get
  rw [if_pos ((congrFun hkeeps var.ci).trans hcap'), hread state.1]
  rfl

end Vars

/-! ## What is read of a report -/

/-- What a slave copies of a number, the first word of its value, has room in the array of the
answer. -/
def WordsFit (ups : StatusUps) : Prop :=
  ∀ row ∈ measurementRows ups ++ settingRows ups, ∀ value ∈ row.2, (frontWord value).length < 200

/-- A report that can be read: its texts are lines without keywords, its records and all of it
have room, and so have the numbers in it. -/
structure Legible (host : Host) (ups : StatusUps) : Prop where
  oneLine : ∀ text ∈ reportedTexts host ups, OneLine text
  keyless : ∀ text ∈ reportedTexts host ups, Keyless text
  records : RecordsFit host ups
  length : (statusText host ups).length < statbufSize
  words : WordsFit ups

/-- The variable at a place of the list asks for the value behind a label, and no later one
writes the field. -/
structure AsksFor {β : Type} (field : StatusUps → β) (i : ℕ) (label : String) (nfields : ℕ)
    (var : SlaveVar) : Prop where
  place : volatileVars[i]? = some var
  known : ∃ row ∈ cmdtrans, row.request = var.request ∧ keyOf label.toList = row.key ∧
    row.nfields = nfields
  kept : ∀ later ∈ volatileVars.drop (i + 1), ∀ answer ups,
    field (later.store answer ups) = field ups

section Reads

variable {host : Host} {ups : StatusUps} {buffer : StatusBuffer} {row : CmdTrans} {label : String}

theorem frontWord_append {word rest : List Char} (hword : ∀ c ∈ word, isspace c = false)
    (hrest : ∀ c ∈ rest.head?, isspace c = true) : frontWord (word ++ rest) = word := by
  apply takeWhile_append_stop
  · exact fun c hc => by rw [hword c hc]; rfl
  · exact fun c hc => by rw [hrest c hc]; rfl

/-- A variable of one word that says something. -/
theorem Legible.word (hlegible : Legible host ups) (hbuffer : buffer.text = statusText host ups)
    (hrow : row ∈ cmdtrans) (hfield : row.nfields = 1) (hkey : keyOf label.toList = row.key)
    {word rest : List Char} (hvalue : (label, some (word ++ rest)) ∈ statusRows host ups)
    (hne : word ≠ []) (hword : ∀ c ∈ word, isspace c = false)
    (hrest : ∀ c ∈ rest.head?, isspace c = true) (hanswers : word ≠ "N/A".toList)
    (hlength : word.length ≤ 200) (answer : List Char) :
    getupsvar buffer row.request answer 200 = (true, word) := by
  have hfront : frontWord (word ++ rest) = word := frontWord_append hword hrest
  have hskip : skipSpace (word ++ rest) = word ++ rest := by
    cases word with
    | nil => exact absurd rfl hne
    | cons c word => exact skipSpace_cons_of_not_isspace (hword c List.mem_cons_self) _
  have hgiven : row.given (word ++ rest) 200 = word := by
    rw [CmdTrans.given, if_pos hfield, hskip, hfront, List.take_of_length_le hlength]
  have hreadable : row.Readable (word ++ rest) 200 := by
    refine ⟨fun _ => ?_, by rwa [hgiven]⟩
    cases word with
    | nil => exact absurd rfl hne
    | cons c word => exact ⟨c, List.mem_cons_self, hword c List.mem_cons_self⟩
  rw [getupsvar_report hlegible.oneLine hlegible.keyless hlegible.records hbuffer hrow hvalue hkey
    hreadable answer, hgiven]

theorem not_isspace_of_number {text : List Char} (htext : ∀ c ∈ text, c ∈ numberChars) :
    ∀ c ∈ text, isspace c = false := by
  have hall : ∀ c ∈ numberChars, isspace c = false := by decide
  exact fun c hc => hall c (htext c hc)

theorem mem_statusRows_of_numbers {entry : String × Option (List Char)}
    (hentry : entry ∈ measurementRows ups ++ settingRows ups) : entry ∈ statusRows host ups := by
  simp only [statusRows, List.mem_append] at hentry ⊢
  tauto

/-- A number with a unit behind a blank. -/
theorem Legible.number (hlegible : Legible host ups) (hbuffer : buffer.text = statusText host ups)
    (hrow : row ∈ cmdtrans) (hfield : row.nfields = 1) (hkey : keyOf label.toList = row.key)
    {word unit : List Char}
    (hvalue : (label, some (word ++ unit)) ∈ measurementRows ups ++ settingRows ups)
    (hne : word ≠ []) (hword : ∀ c ∈ word, c ∈ numberChars)
    (hunit : ∀ c ∈ unit.head?, isspace c = true) (answer : List Char) :
    getupsvar buffer row.request answer 200 = (true, word) := by
  have hplain := not_isspace_of_number hword
  have hlength : word.length < 200 := by
    have hfits := hlegible.words _ hvalue _ rfl
    rwa [frontWord_append hplain hunit] at hfits
  have hanswers : word ≠ "N/A".toList := by
    rintro rfl
    exact absurd (hword 'N' (by decide)) (by decide)
  exact hlegible.word hbuffer hrow hfield hkey (mem_statusRows_of_numbers hvalue) hne hplain hunit
    hanswers hlength.le answer

theorem isspace_of_blank {text : List Char} (htext : text.head? = some ' ') :
    ∀ c ∈ text.head?, isspace c = true := by
  intro c hc
  rw [htext] at hc
  obtain rfl := Option.some.inj hc
  rfl

theorem fixedPoint_ne_nil (places : ℕ) (d : CDouble) : fixedPoint places d ≠ [] := by
  cases d with
  | finite q => exact List.append_ne_nil_of_right_ne_nil _ (List.cons_ne_nil _ _)
  | _ => exact List.cons_ne_nil _ _

theorem decimal_ne_nil (n : Int) : decimal n ≠ [] := by
  unfold decimal
  split_ifs
  · exact List.cons_ne_nil _ _
  · exact Nat.toDigits_ne_nil

/-! ## The status -/

theorem strtol_hexWord {n : ℕ} (hn : n < 2 ^ 32) : strtol (hexWord 8 n) = n := by
  have hdigits : ∀ c ∈ padLeft '0' 8 (hexadecimal n), isxdigit c = true := by
    refine List.forall_mem_append.mpr ⟨fun c hc => ?_, fun c hc => isxdigit_of_mem_hexadecimal hc⟩
    rw [(List.mem_replicate.mp hc).2]
    rfl
  have hread : ofDigits 16 (padLeft '0' 8 (hexadecimal n)) = n := by
    rw [ofDigits_padLeft, ofDigits_hexadecimal]
  unfold hexWord
  generalize padLeft '0' 8 (hexadecimal n) = digits at hdigits hread ⊢
  cases digits with
  | nil =>
      obtain rfl : 0 = n := hread
      decide
  | cons c digits =>
      have hdrop : dropHexPrefix ("0x".toList ++ c :: digits) = c :: digits := by
        change (if ('x' = 'x' ∨ 'x' = 'X') ∧ isxdigit c then c :: digits else _) = _
        rw [if_pos ⟨.inl rfl, hdigits c List.mem_cons_self⟩]
      have hsign : splitSign (skipSpace ("0x".toList ++ c :: digits)) =
          (false, "0x".toList ++ c :: digits) :=
        rfl
      have hlonger : c :: digits ≠ "0x".toList ++ c :: digits := by
        intro heq
        have hlength := congrArg List.length heq
        simp at hlength
      unfold strtol
      rw [hsign]
      dsimp only
      rw [hdrop, if_pos hlonger, List.takeWhile_eq_self_iff.mpr hdigits, hread]
      simp only [Bool.false_eq_true, if_false]
      omega

theorem length_hexWord {n : ℕ} (hn : n < 2 ^ 32) : (hexWord 8 n).length = 10 := by
  have hle : (Nat.toDigits 16 n).length ≤ 8 :=
    (Nat.length_toDigits_le_iff (by decide) (by decide)).mpr hn
  rw [hexWord, padLeft, hexadecimal]
  simp only [List.length_append, List.length_replicate, List.length_map]
  change 2 + _ = 10
  omega

/-- The status of the master comes over as it is. -/
theorem Legible.statusFlag_eq (hlegible : Legible host ups) :
    statusFlag (statusText host ups) = some ups.status := by
  have hvalue : ("STATFLAG : ", some (hexWord 8 ups.status.toNat ++ [])) ∈ statusRows host ups := by
    rw [List.append_nil]
    simp [statusRows, nameplateRows]
  have hplain : ∀ c ∈ hexChars, isspace c = false := by decide
  have hanswers : hexWord 8 ups.status.toNat ≠ "N/A".toList := by
    intro heq
    have hmem : 'N' ∈ hexWord 8 ups.status.toNat := by
      rw [heq]
      decide
    exact absurd (hexWord_chars 8 _ 'N' hmem) (by decide)
  have hlength : (hexWord 8 ups.status.toNat).length ≤ 200 := by
    rw [length_hexWord ups.status.isLt]
    decide
  have hread := @Legible.word host ups ⟨statusText host ups, []⟩ ⟨"status", "STATFLAG", 1⟩ _
    hlegible rfl (by decide +kernel) rfl (by decide +kernel) _ [] hvalue (List.cons_ne_nil _ _)
    (fun c hc => hplain c (hexWord_chars 8 _ c hc)) (fun c hc => by cases hc) hanswers hlength []
  unfold statusFlag
  rw [hread]
  dsimp only
  rw [if_pos rfl, strtol_hexWord ups.status.isLt, BitVec.ofInt_natCast, BitVec.ofNat_toNat]
  simp

/-! ## The measurements -/

variable {slave : StatusUps} {var : SlaveVar} {i : ℕ}

theorem upsCap_readVolatile (now : Int) (answer : List Char) :
    (readVolatile buffer now answer slave).upsCap = slave.upsCap :=
  upsCap_foldl (fun _ hmem => hmem) _

/-- A measurement comes over up to a tenth. -/
theorem Legible.near (hlegible : Legible host ups) (hbuffer : buffer.text = statusText host ups)
    {field : StatusUps → CDouble} (hasks : AsksFor field i label 1 var)
    (hstore : ∀ answer ups, field (var.store answer ups) = atof answer) (unit : String)
    (hunit : unit.toList.head? = some ' ')
    (hvalue : (label, onlyIf (ups.upsCap var.ci) (measured (field ups) unit)) ∈
      measurementRows ups ++ settingRows ups)
    {now : Int} {answer : List Char} (hmaster : ups.upsCap var.ci = true)
    (hslave : (readVolatile buffer now answer slave).upsCap var.ci = true) :
    (field ups).Near 1 (field (readVolatile buffer now answer slave)) := by
  rcases hasks.known with ⟨row, hrow, hrequest, hkey, hfield⟩
  rw [upsCap_readVolatile] at hslave
  rw [hmaster] at hvalue
  have hread (answer : List Char) :
      getupsvar buffer var.request answer 200 = (true, fixedPoint 1 (field ups)) := by
    rw [← hrequest]
    exact hlegible.number hbuffer hrow hfield hkey hvalue (fixedPoint_ne_nil 1 _)
      (fixedPoint_chars 1 _) (isspace_of_blank hunit) answer
  rcases readVolatile_stores hasks.place hasks.kept hread now answer hslave with ⟨before, hstored⟩
  rw [hstored, hstore]
  exact atof_fixedPoint (by decide) (field ups)

theorem toInt_finite {n : Int} (hint : FitsInt n) : (CDouble.finite n).toInt = n := by
  unfold CDouble.toInt
  dsimp only
  rw [Rat.num_intCast, Rat.den_intCast, Nat.cast_one, Int.tdiv_one]
  exact if_pos hint

/-- A setting comes over as it is. -/
theorem Legible.setting (hlegible : Legible host ups) (hbuffer : buffer.text = statusText host ups)
    {field : StatusUps → Int} (hasks : AsksFor field i label 1 var)
    (hstore : ∀ answer ups, field (var.store answer ups) = (atof answer).toInt)
    (fraction unit : String) (hfraction : fraction = "" ∨ fraction = ".0")
    (hunit : unit.toList.head? = some ' ')
    (hvalue : (label, onlyIf (ups.upsCap var.ci) (counted (field ups) (fraction ++ unit))) ∈
      measurementRows ups ++ settingRows ups)
    (hint : FitsInt (field ups)) {now : Int} {answer : List Char}
    (hmaster : ups.upsCap var.ci = true)
    (hslave : (readVolatile buffer now answer slave).upsCap var.ci = true) :
    field (readVolatile buffer now answer slave) = field ups := by
  rcases hasks.known with ⟨row, hrow, hrequest, hkey, hfield⟩
  rw [upsCap_readVolatile] at hslave
  have hchars : ∀ c ∈ decimal (field ups) ++ fraction.toList, c ∈ numberChars := by
    refine List.forall_mem_append.mpr ⟨decimal_chars _, ?_⟩
    rcases hfraction with rfl | rfl <;> decide
  have hatof : atof (decimal (field ups) ++ fraction.toList) = .finite (field ups) := by
    have hplaces : |field ups| ≤ 2 ^ 53 := by
      unfold FitsInt at hint
      rw [abs_le]
      omega
    rcases hfraction with rfl | rfl
    · exact (congrArg atof (List.append_nil _)).trans (atof_decimal hplaces)
    · exact atof_decimal_point hplaces
  rw [hmaster, counted, String.toList_append, ← List.append_assoc] at hvalue
  have hread (answer : List Char) : getupsvar buffer var.request answer 200 =
      (true, decimal (field ups) ++ fraction.toList) := by
    rw [← hrequest]
    exact hlegible.number hbuffer hrow hfield hkey hvalue
      (List.append_ne_nil_of_left_ne_nil (decimal_ne_nil _) _) hchars
      (isspace_of_blank hunit) answer
  rcases readVolatile_stores hasks.place hasks.kept hread now answer hslave with ⟨before, hstored⟩
  rw [hstored, hstore, hatof, toInt_finite hint]

/-- A word comes over as it is. -/
theorem Legible.printedWord (hlegible : Legible host ups)
    (hbuffer : buffer.text = statusText host ups) {β : Type} {field : StatusUps → β}
    (hasks : AsksFor field i label 1 var) {word rest : String}
    (hvalue : (label, some (word.toList ++ rest.toList)) ∈ statusRows host ups)
    (hword : word.toList ≠ [] ∧ word.toList.length ≤ 200 ∧ word.toList ≠ "N/A".toList ∧
      ∀ c ∈ word.toList, isspace c = false)
    (hrest : rest = "" ∨ rest.toList.head? = some ' ') {now : Int} {answer : List Char}
    (hslave : (readVolatile buffer now answer slave).upsCap var.ci = true) :
    ∃ before, field (readVolatile buffer now answer slave) =
      field (var.store word.toList before) := by
  rcases hasks.known with ⟨row, hrow, hrequest, hkey, hfield⟩
  rcases hword with ⟨hne, hlength, hanswers, hplain⟩
  have hblank : ∀ c ∈ rest.toList.head?, isspace c = true := by
    rcases hrest with rfl | hrest
    · exact fun c hc => by cases hc
    · exact isspace_of_blank hrest
  rw [upsCap_readVolatile] at hslave
  apply readVolatile_stores hasks.place hasks.kept _ now answer hslave
  intro answer
  rw [← hrequest]
  exact hlegible.word hbuffer hrow hfield hkey hvalue hne hplain hblank hanswers hlength answer

/-- A whole line comes over as it is. -/
theorem Legible.printedLine (hlegible : Legible host ups)
    (hbuffer : buffer.text = statusText host ups) {β : Type} {field : StatusUps → β}
    (hasks : AsksFor field i label 0 var) {text : String}
    (hvalue : (label, some text.toList) ∈ statusRows host ups)
    (htext : text.toList.length ≤ 199 ∧ text.toList ≠ "N/A".toList) {now : Int}
    {answer : List Char} (hslave : (readVolatile buffer now answer slave).upsCap var.ci = true) :
    ∃ before, field (readVolatile buffer now answer slave) =
      field (var.store text.toList before) := by
  rcases hasks.known with ⟨row, hrow, hrequest, hkey, hfield⟩
  have hone : row.nfields ≠ 1 := by omega
  have hgiven : row.given text.toList 200 = text.toList := by
    rw [CmdTrans.given, if_neg hone, List.take_of_length_le (by omega)]
  rw [upsCap_readVolatile] at hslave
  apply readVolatile_stores hasks.place hasks.kept _ now answer hslave
  intro answer
  have hreadable : row.Readable text.toList 200 :=
    ⟨fun hfield => absurd hfield hone, by rw [hgiven]; exact htext.2⟩
  rw [← hrequest, getupsvar_report hlegible.oneLine hlegible.keyless hlegible.records hbuffer hrow
    hvalue hkey hreadable answer, hgiven]

end Reads

/-! ## The record of the slave -/

/-- Both have the capability. -/
def Both (master slave : StatusUps) (ci : Ci) : Prop :=
  master.upsCap ci = true ∧ slave.upsCap ci = true

/-- The letter that begins the word for a sensitivity. -/
def sensitivityLetter (sensitivity : List Char) : Char :=
  if sensitivity.headD nul ∈ "ALMH".toList then sensitivity.headD nul else 'U'

/-- What the slave has of the UPS, beside what the master has: the measurements up to a tenth,
the settings as they are.  A self test that failed for the load has just failed. -/
structure Mirrors (master slave : StatusUps) : Prop where
  lineVoltage : Both master slave .vline → master.lineVoltage.Near 1 slave.lineVoltage
  upsLoad : Both master slave .load → master.upsLoad.Near 1 slave.upsLoad
  battChg : Both master slave .battlev → master.battChg.Near 1 slave.battChg
  timeLeft : Both master slave .runtim → master.timeLeft.Near 1 slave.timeLeft
  lineMax : Both master slave .vmax → master.lineMax.Near 1 slave.lineMax
  lineMin : Both master slave .vmin → master.lineMin.Near 1 slave.lineMin
  outputVoltage : Both master slave .vout → master.outputVoltage.Near 1 slave.outputVoltage
  upsTemp : Both master slave .itemp → master.upsTemp.Near 1 slave.upsTemp
  battVoltage : Both master slave .vbatt → master.battVoltage.Near 1 slave.battVoltage
  lineFreq : Both master slave .freq → master.lineFreq.Near 1 slave.lineFreq
  dlowbatt : Both master slave .dlbatt → FitsInt master.dlowbatt →
    slave.dlowbatt = master.dlowbatt
  lotrans : Both master slave .ltrans → FitsInt master.lotrans → slave.lotrans = master.lotrans
  hitrans : Both master slave .htrans → FitsInt master.hitrans → slave.hitrans = master.hitrans
  rtnpct : Both master slave .retpct → FitsInt master.rtnpct → slave.rtnpct = master.rtnpct
  sensitivity : Both master slave .sens →
    slave.sensitivity.headD nul = sensitivityLetter master.sensitivity
  lastxfer : slave.upsCap .whyBatt = true → master.lastxfer ≠ .xferNa →
    slave.lastxfer = master.lastxfer
  testresult : slave.upsCap .stStat = true → master.testresult ≠ .testNa →
    slave.testresult =
      if master.testresult = .testFailload then .testFailed else master.testresult

/-- The word for a sensitivity. -/
theorem sensitivityText_eq (sensitivity : List Char) :
    ∃ word ∈ ["Auto", "Low", "Medium", "High", "Unknown"], ∃ rest,
      (rest = "" ∨ rest.toList.head? = some ' ') ∧
        (sensitivityText sensitivity).toList = word.toList ++ rest.toList ∧
          word.toList.headD nul = sensitivityLetter sensitivity := by
  unfold sensitivityText sensitivityLetter
  generalize sensitivity.headD nul = letter
  split
  · exact ⟨"Auto", by decide, " Adjust", .inr rfl, by decide, by decide⟩
  · exact ⟨"Low", by decide, "", .inl rfl, by decide, by decide⟩
  · exact ⟨"Medium", by decide, "", .inl rfl, by decide, by decide⟩
  · exact ⟨"High", by decide, "", .inl rfl, by decide, by decide⟩
  · next hauto hlow hmedium hhigh =>
      refine ⟨"Unknown", by decide, "", .inl rfl, by decide, ?_⟩
      rw [if_neg]
      · rfl
      · simp
        exact ⟨hauto, hlow, hmedium, hhigh⟩

theorem decodeLastxfer_text {cause : LastXferCause} (hcause : cause ≠ .xferNa) :
    ∃ text, lastxferText cause = some text ∧ decodeLastxfer text.toList = cause ∧
      text.toList.length ≤ 199 ∧ text.toList ≠ "N/A".toList := by
  cases cause with
  | xferNa => exact absurd rfl hcause
  | _ => exact ⟨_, rfl, by decide, by decide, by decide⟩

theorem decodeTestresult_text {result : SelfTestResult} (hresult : result ≠ .testNa) :
    ∃ text ∈ ["NO", "NG", "WN", "IP", "OK", "BT", "??"], selftestText result = some text ∧
      decodeTestresult text.toList =
        if result = .testFailload then .testFailed else result := by
  cases result with
  | testNa => exact absurd rfl hresult
  | _ => exact ⟨_, by decide, rfl, by decide⟩

theorem Legible.mirrors {host : Host} {master : StatusUps} (hlegible : Legible host master)
    {buffer : StatusBuffer} (hbuffer : buffer.text = statusText host master) (now : Int)
    (answer : List Char) (slave : StatusUps) :
    Mirrors master (readVolatile buffer now answer slave) where
  lineVoltage hboth := by
    have hasks : AsksFor (fun ups => ups.lineVoltage) 0 "LINEV    : " 1 _ :=
      ⟨rfl, by decide +kernel, by simp [volatileVars]⟩
    exact hlegible.near hbuffer hasks (fun _ _ => rfl) " Volts" rfl
      (by simp [measurementRows, settingRows]) hboth.1 hboth.2
  upsLoad hboth := by
    have hasks : AsksFor (fun ups => ups.upsLoad) 1 "LOADPCT  : " 1 _ :=
      ⟨rfl, by decide +kernel, by simp [volatileVars]⟩
    exact hlegible.near hbuffer hasks (fun _ _ => rfl) " Percent" rfl
      (by simp [measurementRows, settingRows]) hboth.1 hboth.2
  battChg hboth := by
    have hasks : AsksFor (fun ups => ups.battChg) 2 "BCHARGE  : " 1 _ :=
      ⟨rfl, by decide +kernel, by simp [volatileVars]⟩
    exact hlegible.near hbuffer hasks (fun _ _ => rfl) " Percent" rfl
      (by simp [measurementRows, settingRows]) hboth.1 hboth.2
  timeLeft hboth := by
    have hasks : AsksFor (fun ups => ups.timeLeft) 3 "TIMELEFT : " 1 _ :=
      ⟨rfl, by decide +kernel, by simp [volatileVars]⟩
    exact hlegible.near hbuffer hasks (fun _ _ => rfl) " Minutes" rfl
      (by simp [measurementRows, settingRows]) hboth.1 hboth.2
  lineMax hboth := by
    have hasks : AsksFor (fun ups => ups.lineMax) 4 "MAXLINEV : " 1 _ :=
      ⟨rfl, by decide +kernel, by simp [volatileVars]⟩
    exact hlegible.near hbuffer hasks (fun _ _ => rfl) " Volts" rfl
      (by simp [measurementRows, settingRows]) hboth.1 hboth.2
  lineMin hboth := by
    have hasks : AsksFor (fun ups => ups.lineMin) 5 "MINLINEV : " 1 _ :=
      ⟨rfl, by decide +kernel, by simp [volatileVars]⟩
    exact hlegible.near hbuffer hasks (fun _ _ => rfl) " Volts" rfl
      (by simp [measurementRows, settingRows]) hboth.1 hboth.2
  outputVoltage hboth := by
    have hasks : AsksFor (fun ups => ups.outputVoltage) 6 "OUTPUTV  : " 1 _ :=
      ⟨rfl, by decide +kernel, by simp [volatileVars]⟩
    exact hlegible.near hbuffer hasks (fun _ _ => rfl) " Volts" rfl
      (by simp [measurementRows, settingRows]) hboth.1 hboth.2
  upsTemp hboth := by
    have hasks : AsksFor (fun ups => ups.upsTemp) 12 "ITEMP    : " 1 _ :=
      ⟨rfl, by decide +kernel, by simp [volatileVars]⟩
    exact hlegible.near hbuffer hasks (fun _ _ => rfl) " C" rfl
      (by simp [measurementRows, settingRows]) hboth.1 hboth.2
  battVoltage hboth := by
    have hasks : AsksFor (fun ups => ups.battVoltage) 13 "BATTV    : " 1 _ :=
      ⟨rfl, by decide +kernel, by simp [volatileVars]⟩
    exact hlegible.near hbuffer hasks (fun _ _ => rfl) " Volts" rfl
      (by simp [measurementRows, settingRows]) hboth.1 hboth.2
  lineFreq hboth := by
    have hasks : AsksFor (fun ups => ups.lineFreq) 14 "LINEFREQ : " 1 _ :=
      ⟨rfl, by decide +kernel, by simp [volatileVars]⟩
    exact hlegible.near hbuffer hasks (fun _ _ => rfl) " Hz" rfl
      (by simp [measurementRows, settingRows]) hboth.1 hboth.2
  dlowbatt hboth hint := by
    have hasks : AsksFor (fun ups => ups.dlowbatt) 8 "DLOWBATT : " 1 _ :=
      ⟨rfl, by decide +kernel, by simp [volatileVars]⟩
    exact hlegible.setting hbuffer hasks (fun _ _ => rfl) "" " Minutes" (.inl rfl) rfl
      (by simp [measurementRows, settingRows]) hint hboth.1 hboth.2
  lotrans hboth hint := by
    have hasks : AsksFor (fun ups => ups.lotrans) 9 "LOTRANS  : " 1 _ :=
      ⟨rfl, by decide +kernel, by simp [volatileVars]⟩
    exact hlegible.setting hbuffer hasks (fun _ _ => rfl) ".0" " Volts" (.inr rfl) rfl
      (by simp [measurementRows, settingRows]) hint hboth.1 hboth.2
  hitrans hboth hint := by
    have hasks : AsksFor (fun ups => ups.hitrans) 10 "HITRANS  : " 1 _ :=
      ⟨rfl, by decide +kernel, by simp [volatileVars]⟩
    exact hlegible.setting hbuffer hasks (fun _ _ => rfl) ".0" " Volts" (.inr rfl) rfl
      (by simp [measurementRows, settingRows]) hint hboth.1 hboth.2
  rtnpct hboth hint := by
    have hasks : AsksFor (fun ups => ups.rtnpct) 11 "RETPCT   : " 1 _ :=
      ⟨rfl, by decide +kernel, by simp [volatileVars]⟩
    exact hlegible.setting hbuffer hasks (fun _ _ => rfl) ".0" " Percent" (.inr rfl) rfl
      (by simp [measurementRows, settingRows]) hint hboth.1 hboth.2
  sensitivity hboth := by
    have hasks : AsksFor (fun ups => ups.sensitivity.headD nul) 7 "SENSE    : " 1 _ :=
      ⟨rfl, by decide +kernel, by simp [volatileVars]⟩
    rcases sensitivityText_eq master.sensitivity with ⟨word, hword, rest, hrest, htext, hletter⟩
    have hwords : ∀ word ∈ ["Auto", "Low", "Medium", "High", "Unknown"], word.toList ≠ [] ∧
        word.toList.length ≤ 200 ∧ word.toList ≠ "N/A".toList ∧
          ∀ c ∈ word.toList, isspace c = false := by
      decide
    have hvalue : ("SENSE    : ", some (word.toList ++ rest.toList)) ∈ statusRows host master := by
      rw [← htext]
      simp [statusRows, settingRows, onlyIf, hboth.1]
    rcases hlegible.printedWord hbuffer hasks hvalue (hwords word hword) hrest hboth.2 with ⟨before, hstored⟩
    exact hstored.trans hletter
  lastxfer hslave hcause := by
    have hasks : AsksFor (fun ups => ups.lastxfer) 15 "LASTXFER : " 0 _ :=
      ⟨rfl, by decide +kernel, by simp [volatileVars]⟩
    rcases decodeLastxfer_text hcause with ⟨text, htext, hdecode, hfits⟩
    have hvalue : ("LASTXFER : ", some text.toList) ∈ statusRows host master := by
      simp [statusRows, historyRows, htext]
    rcases hlegible.printedLine hbuffer hasks hvalue hfits hslave with ⟨before, hstored⟩
    exact hstored.trans hdecode
  testresult hslave hresult := by
    have hasks : AsksFor (fun ups => ups.testresult) 16 "SELFTEST : " 1 _ :=
      ⟨rfl, by decide +kernel, by simp [volatileVars]⟩
    rcases decodeTestresult_text hresult with ⟨text, hmem, htext, hdecode⟩
    have htexts : ∀ text ∈ ["NO", "NG", "WN", "IP", "OK", "BT", "??"], text.toList ≠ [] ∧
        text.toList.length ≤ 200 ∧ text.toList ≠ "N/A".toList ∧
          ∀ c ∈ text.toList, isspace c = false := by
      decide
    have hvalue : ("SELFTEST : ", some (text.toList ++ "".toList)) ∈ statusRows host master := by
      simp [statusRows, historyRows, htext]
    rcases hlegible.printedWord hbuffer hasks hvalue (htexts text hmem) (.inl rfl) hslave with
      ⟨before, hstored⟩
    exact hstored.trans hdecode

/-! ## The status of the slave -/

/-- What the slave says of the status: the bits that are not local as the master says them,
whether communication is lost, too, and a shutdown when the master has one. -/
structure Follows (master : StatusWord) (slave : UpsInfo) : Prop where
  bits : slave.status &&& ~~~(upsLocalBits ||| upsShutRemote) =
    master &&& ~~~(upsLocalBits ||| upsShutRemote)
  commlost : slave.isCommlost = testMask master upsCommlost
  remote : slave.isShutRemote = (testMask master upsShutRemote || testMask master upsShutdown)
  slave : slave.isSlave = true

/-- The word that the slave takes over, before a shutdown of the master raises a flag in it. -/
def takenOver (status master : StatusWord) : StatusWord :=
  ((status &&& upsLocalBits) ||| (master &&& ~~~upsLocalBits)) |||
    (master &&& (upsCommlost ||| upsFastpoll))

theorem takenOver_bits (status master : StatusWord) :
    takenOver status master &&& ~~~(upsLocalBits ||| upsShutRemote) =
      master &&& ~~~(upsLocalBits ||| upsShutRemote) := by
  ext i hi
  simp only [takenOver, BitVec.getElem_and, BitVec.getElem_or, BitVec.getElem_not]
  cases status[i] <;> cases master[i] <;> cases upsLocalBits[i] <;> simp

theorem testMask_takenOver (status master : StatusWord) {i : ℕ} (hi : i < 32) :
    testMask (takenOver status master) (BitVec.twoPow 32 i) =
      if upsLocalBits.getLsbD i then
        status.getLsbD i || master.getLsbD i && (upsCommlost ||| upsFastpoll).getLsbD i
      else master.getLsbD i := by
  rw [testMask_twoPow hi]
  simp only [takenOver, BitVec.getLsbD_and, BitVec.getLsbD_or, BitVec.getLsbD_not, hi,
    decide_true, Bool.true_and]
  cases upsLocalBits.getLsbD i <;> cases master.getLsbD i <;> simp

theorem and_upsShutdown_ne_zero_iff (master : StatusWord) :
    master &&& upsShutdown ≠ 0 ↔ testMask master upsShutdown = true := by
  have hmask : upsShutdown = BitVec.twoPow 32 9 := by decide
  rw [hmask, testMask_twoPow (by decide), BitVec.and_twoPow]
  cases master.getLsbD 9 <;> decide

theorem takenOver_follows {ups : UpsInfo} (hslave : ups.isSlave = true)
    (hcommlost : ups.isCommlost = false) (master : StatusWord) :
    testMask (takenOver ups.status master) upsCommlost = testMask master upsCommlost ∧
      testMask (takenOver ups.status master) upsShutRemote = testMask master upsShutRemote ∧
      testMask (takenOver ups.status master) upsSlave = true := by
  have hcommlostMask : upsCommlost = BitVec.twoPow 32 8 := by decide
  have hremoteMask : upsShutRemote = BitVec.twoPow 32 23 := by decide
  have hslaveMask : upsSlave = BitVec.twoPow 32 10 := by decide
  have hold : ups.status.getLsbD 8 = false ∧ ups.status.getLsbD 10 = true := by
    rw [← testMask_twoPow (by decide), ← hcommlostMask, ← testMask_twoPow (by decide), ← hslaveMask]
    exact ⟨hcommlost, hslave⟩
  have hlocal : upsLocalBits.getLsbD 8 = true ∧ upsLocalBits.getLsbD 10 = true ∧
      ¬ upsLocalBits.getLsbD 23 = true ∧ (upsCommlost ||| upsFastpoll).getLsbD 8 = true := by
    decide
  rcases hlocal with ⟨hlocalLost, hlocalSlave, hremote, hraised⟩
  refine ⟨?_, ?_, ?_⟩
  · rw [hcommlostMask, testMask_takenOver _ _ (by decide), testMask_twoPow (by decide),
      if_pos hlocalLost, hold.1, hraised, Bool.false_or, Bool.and_true]
  · rw [hremoteMask, testMask_takenOver _ _ (by decide), testMask_twoPow (by decide),
      if_neg hremote]
  · rw [hslaveMask, testMask_takenOver _ _ (by decide), if_pos hlocalSlave, hold.2, Bool.true_or]

/-- The word of the master is taken over. -/
theorem takeStatus_follows {net : NetUpsDriver} {master : StatusWord}
    (hmaster : statusFlag net.statbuf = some master) (hslave : net.ups.isSlave = true)
    (hcommlost : net.ups.isCommlost = false) (stat : Bool) :
    (net.takeStatus stat).1 = stat ∧ Follows master (net.takeStatus stat).2.ups ∧
      (net.takeStatus stat).2.ups =
        { net.ups with status := (net.takeStatus stat).2.ups.status } := by
  rcases takenOver_follows hslave hcommlost master with ⟨hlost, hremote, hslave'⟩
  unfold NetUpsDriver.takeStatus
  rw [hmaster]
  refine ⟨rfl, ?_⟩
  dsimp only
  rw [← takenOver]
  have hbits := takenOver_bits net.ups.status master
  split_ifs with hshutdown
  · rcases hshutdown with ⟨hdown, -⟩
    refine ⟨⟨?_, ?_, ?_, ?_⟩, rfl⟩
    · rw [← hbits]
      ext i hi
      simp only [UpsInfo.set, raiseMask, BitVec.getElem_and, BitVec.getElem_or, BitVec.getElem_not]
      cases upsShutRemote[i] <;> simp
    · exact (testMask_raiseMask_of_disjoint (by decide) _).trans hlost
    · rw [(and_upsShutdown_ne_zero_iff master).mp hdown, Bool.or_true]
      exact testMask_raiseMask_self _ _
    · exact (testMask_raiseMask_of_disjoint (by decide) _).trans hslave'
  · refine ⟨⟨hbits, hlost, ?_, hslave'⟩, rfl⟩
    refine hremote.trans ?_
    cases hdown : testMask master upsShutdown with
    | false => rw [Bool.or_false]
    | true =>
        rw [not_and_not_right] at hshutdown
        rw [Bool.or_true, ← hremote]
        exact hshutdown ((and_upsShutdown_ne_zero_iff master).mpr hdown)

/-! ## From the master to the slave -/

theorem readVolatile_status (buffer : StatusBuffer) (now : Int) (answer : List Char)
    (slave : StatusUps) :
    (readVolatile buffer now answer slave).status = raiseMask slave.status upsSlave :=
  @field_foldl buffer _ (fun ups => ups.status) volatileVars (by simp [volatileVars]) _

theorem readVolatile_connected (buffer : StatusBuffer) (now : Int) (answer : List Char)
    (slave : StatusUps) :
    (readVolatile buffer now answer slave).lastMasterConnectTime = now :=
  @field_foldl buffer _ (fun ups => ups.lastMasterConnectTime) volatileVars
    (by simp [volatileVars]) _

theorem Mirrors.of_status {master slave : StatusUps} (hmirrors : Mirrors master slave)
    (status : StatusWord) : Mirrors master { slave with status := status } :=
  ⟨hmirrors.lineVoltage, hmirrors.upsLoad, hmirrors.battChg, hmirrors.timeLeft, hmirrors.lineMax,
    hmirrors.lineMin, hmirrors.outputVoltage, hmirrors.upsTemp, hmirrors.battVoltage,
    hmirrors.lineFreq, hmirrors.dlowbatt, hmirrors.lotrans, hmirrors.hitrans, hmirrors.rtnpct,
    hmirrors.sensitivity, hmirrors.lastxfer, hmirrors.testresult⟩

/-- The record of a slave, after it has read its master. -/
structure Updated (master : StatusUps) (now : Int) (slave : StatusUps) : Prop where
  mirrors : Mirrors master slave
  follows : Follows master.status slave.toUpsInfo
  connected : slave.lastMasterConnectTime = now

section Polls

variable {net : NetUpsDriver} {now : Int}

/-- A poll that is due and goes well fills the buffer, when nothing is missing. -/
theorem fillStatusBuffer_received (hcaps : net.gotCaps = true) (hstatic : net.gotStaticData = true)
    (hdue : 2 ≤ now - net.lastFillTime) {fill : FillPolls} (hok : fill.status.ok = true) :
    ∃ after, net.fillStatusBuffer now fill = (true, after) ∧
      after.statbuf = fill.status.text ∧ after.gotCaps = true ∧ after.gotStaticData = true ∧
      after.ups.isCommlost = false := by
  have hpoll := net.poll_ok fill.status
  have htext := net.poll_statbuf fill.status
  have hgot : (net.poll fill.status).2.gotCaps = true ∧
      (net.poll fill.status).2.gotStaticData = true := ⟨hcaps, hstatic⟩
  have hcleared : (net.poll fill.status).2.ups = net.ups.clearCommlost := by
    rcases hstatus : fill.status with ⟨connected, sent, messages, n⟩
    simp only [hstatus, Poll.ok, Bool.and_eq_true, beq_iff_eq, decide_eq_true_eq] at hok
    simp [NetUpsDriver.poll, pollUps, hok]
  unfold NetUpsDriver.fillStatusBuffer
  rw [if_neg (by omega)]
  rcases hrun : net.poll fill.status with ⟨ok, after⟩
  rw [hrun] at hpoll htext hgot hcleared
  dsimp only at hpoll htext hgot hcleared
  rw [hok] at hpoll
  subst hpoll
  refine ⟨{ after with commErr := false, lastFillTime := now }, ?_, htext, hgot.1, hgot.2, ?_⟩
  · simp [NetUpsDriver.readMissing, hgot]
  · change after.ups.isCommlost = false
    rw [hcleared]
    exact testMask_dropMask_self (by decide) _

/-- A call that does not fill the buffer takes the status that is in it. -/
theorem getUpsStatusFlag_follows (hcaps : net.gotCaps = true) (hstatic : net.gotStaticData = true)
    {master : StatusWord} (hmaster : statusFlag net.statbuf = some master)
    (hslave : net.ups.isSlave = true) (hcommlost : net.ups.isCommlost = false) (polls : CallPolls) :
    ∃ status, Follows master { net.ups with status := status } ∧
      (net.getUpsStatusFlag false now polls).2.ups = { net.ups with status := status } := by
  rcases takeStatus_follows hmaster hslave hcommlost true with ⟨hstat, hfollows, hups⟩
  refine ⟨(net.takeStatus true).2.ups.status, hups ▸ hfollows, ?_⟩
  unfold NetUpsDriver.getUpsStatusFlag
  rw [prepare_of_got hcaps hstatic, if_neg Bool.false_ne_true]
  dsimp only
  rw [hstat]
  exact hups

/-- A slave that has got the report of its master. -/
theorem Legible.readVolatileData {host : Host} {master : StatusUps}
    (hlegible : Legible host master) (hcaps : net.gotCaps = true)
    (hstatic : net.gotStaticData = true) (hdue : 2 ≤ now - net.lastFillTime) {fill : FillPolls}
    (hok : fill.status.ok = true) (htext : fill.status.text = statusText host master)
    (polls : CallPolls) (beyond answer : List Char) (ups : StatusUps) :
    ∃ net' slave, readVolatileData now fill polls beyond answer net ups = (true, net', slave) ∧
      Updated master now slave := by
  rcases fillStatusBuffer_received hcaps hstatic hdue hok with
    ⟨filled, hfilled, hbuffer, hcaps', hstatic', hcommlost⟩
  rw [htext] at hbuffer
  unfold NetSlave.readVolatileData
  rw [hfilled]
  dsimp only
  let buffer : StatusBuffer := ⟨filled.statbuf, beyond⟩
  let before : StatusUps := { ups with toUpsInfo := filled.ups }
  have hmirrors : Mirrors master (readVolatile buffer now answer before) :=
    hlegible.mirrors hbuffer now answer before
  have hstatus := readVolatile_status buffer now answer before
  have hconnected := readVolatile_connected buffer now answer before
  change ∃ net' slave, (true, _, { readVolatile buffer now answer before with
    toUpsInfo := (NetUpsDriver.getUpsStatusFlag false now polls { filled with
      ups := (readVolatile buffer now answer before).toUpsInfo }).2.ups }) = (true, net', slave) ∧ _
  generalize readVolatile buffer now answer before = slave at hmirrors hstatus hconnected ⊢
  have hslave : slave.toUpsInfo.isSlave = true := by
    rw [UpsInfo.isSlave, UpsInfo.test, hstatus]
    exact testMask_raiseMask_self _ _
  have hlost : slave.toUpsInfo.isCommlost = false := by
    rw [UpsInfo.isCommlost, UpsInfo.test, hstatus]
    exact (testMask_raiseMask_of_disjoint (by decide) _).trans hcommlost
  have hflag : statusFlag filled.statbuf = some master.status := by
    rw [hbuffer]
    exact hlegible.statusFlag_eq
  rcases @getUpsStatusFlag_follows { filled with ups := slave.toUpsInfo } now hcaps' hstatic' _
    hflag hslave hlost polls with ⟨status, hfollows, hafter⟩
  refine ⟨_, _, rfl, ?_, ?_, hconnected⟩
  · rw [hafter]
    exact hmirrors.of_status status
  · rw [hafter]
    exact hfollows

end Polls

/-! ## Over the network -/

theorem length_textOf {message : List UInt8} (hplain : 0 ∉ message) :
    (textOf message).length = message.length := by
  have hnul : ∀ c ∈ message.map fun byte => Char.ofNat byte.toNat, decide (c ≠ nul) = true := by
    have hall : ∀ n < 256, Char.ofNat n = nul → n = 0 := by decide +kernel
    intro c hc
    rcases List.mem_map.mp hc with ⟨byte, hbyte, rfl⟩
    rw [decide_eq_true_iff]
    intro heq
    obtain rfl : byte = 0 := UInt8.toNat.inj (hall _ byte.toNat_lt heq)
    exact hplain hbyte
  rw [textOf, List.takeWhile_eq_self_iff.mpr hnul, List.length_map]

theorem length_announcingRecord {records bytes : ℕ} (hrecords : records < 10 ^ 3)
    (hbytes : bytes < 10 ^ 4) : (announcingRecord records bytes).length = 24 := by
  have hthree := length_padLeft_toDigits (by decide) hrecords
  have hfour := length_padLeft_toDigits (by decide) hbytes
  have hlabel : "APC      : 001,".toList.length = 15 := by decide
  unfold announcingRecord
  rw [List.length_append, List.length_append, List.length_append, List.length_cons, hthree, hfour,
    hlabel]
  rfl

/-- Every message of the report can be sent. -/
theorem Legible.length_message {host : Host} {master : StatusUps}
    (hlegible : Legible host master) {message : List Char}
    (hmessage : message ∈ statusMessages host master) :
    0 < message.length ∧ message.length < maxString := by
  rcases recordsFit_iff.mp hlegible.records with ⟨heach, hall⟩
  have hconsistent := consistent_of_fits hlegible.oneLine hlegible.records
  have hmessages := List.append_cancel_right hconsistent.1
  rw [hmessages] at hmessage
  rcases List.mem_cons.mp hmessage with rfl | hrecord
  · rw [length_announcingRecord (length_outputStatus_lt host master) (hall.trans_le (by decide))]
    decide
  · rcases hconsistent.2 message hrecord with ⟨line, -, rfl⟩
    exact ⟨by simp, heach _ hrecord⟩

/-- Whenever a poll is due and the report of the master arrives, in whatever pieces, the slave
has the status of the master, its measurements up to a tenth and its settings as they are. -/
theorem slave_mirrors_master {host : Host} {master : StatusUps} (hlegible : Legible host master)
    {sent : List (List UInt8)} (hplain : ∀ message ∈ sent, 0 ∉ message)
    (hsent : sent.map textOf = statusMessages host master) {closing : Closing}
    {messages : List (List UInt8)} {n : Int}
    (hreceives : Receives none pollMaxlen (frames sent ++ header 0) closing messages n)
    {net : NetUpsDriver} (hcaps : net.gotCaps = true) (hstatic : net.gotStaticData = true)
    {now : Int} (hdue : 2 ≤ now - net.lastFillTime) {fill : FillPolls}
    (hfill : fill.status = ⟨true, 6, messages, n⟩) (polls : CallPolls)
    (beyond answer : List Char) (ups : StatusUps) :
    ∃ net' slave, readVolatileData now fill polls beyond answer net ups = (true, net', slave) ∧
      Updated master now slave := by
  have hfits : ∀ message ∈ sent, Fits pollMaxlen message := by
    intro message hmessage
    have hmem : textOf message ∈ statusMessages host master := by
      rw [← hsent]
      exact List.mem_map_of_mem hmessage
    have hlength := hlegible.length_message hmem
    rw [length_textOf (hplain message hmessage), maxString] at hlength
    rw [Fits, pollMaxlen]
    omega
  have hdeframer := feedAll_terminated hfits []
  rw [List.append_nil, ← replyDeframer] at hdeframer
  have hreply : messages = sent ∧ n = 0 := by
    rcases hreceives.outcome with ⟨-, hmessages, hn⟩ | ⟨k, hk, -⟩
    · rw [replyEnd, hdeframer] at hn
      rw [hdeframer] at hmessages
      exact ⟨hmessages, hn⟩
    · cases hk
  rcases hreply with ⟨rfl, rfl⟩
  have hok : fill.status.ok = true := by
    rw [hfill]
    rfl
  have htext : fill.status.text = statusText host master := by
    have hlength := hlegible.length
    rw [statusText, ← hsent] at hlength ⊢
    rw [hfill, ← slaveBuffer_eq_flatten hlength, ← collectStatus_eq]
    rfl
  exact hlegible.readVolatileData hcaps hstatic hdue hok htext polls beyond answer ups

/-! ## Examples of runs -/

/-- A UPS that measures its input, and knows when its battery is low. -/
def mainsUps : StatusUps :=
  let ups := modelUps []
  { ups with
    upsCap := fun ci => decide (ci = .vline ∨ ci = .dlbatt)
    lineVoltage := .finite (24057 / 200)
    dlowbatt := 2
    status := upsOnline }

theorem mainsUps_legible : Legible newYearHost mainsUps where
  oneLine := by decide +kernel
  keyless := by decide +kernel
  records := ⟨by decide +kernel, by decide +kernel⟩
  length := by decide +kernel
  words := by unfold WordsFit; decide +kernel

/-- The report of this UPS, byte by byte. -/
def mainsReport : List (List UInt8) :=
  (statusMessages newYearHost mainsUps).map fun message =>
    message.map fun c => UInt8.ofNat c.toNat

theorem mainsReport_receives :
    Receives none pollMaxlen (frames mainsReport ++ header 0) .silent mainsReport 0 := by
  have hrun : (execute (Reply.step none pollMaxlen .silent) (fun _ _ => True)
      (Reply.start (frames mainsReport ++ header 0) (fun _ => 0) (fun _ => 0))
        (mainsReport.flatMap (fun message => [.recv 2, .recv message.length]) ++ [.recv 2])).map
        (fun reply => (reply.reading none, reply.receiver.results, lastResult reply.receiver)) =
      some (false, mainsReport, 0) := by
    decide +kernel
  exact receives_of_execute hrun

/-- A slave that has read its capabilities from this UPS. -/
def mainsSlave : NetUpsDriver where
  ups := { mainsUps.toUpsInfo with status := upsSlave ||| upsCommlost, lineVoltage := .finite 0 }
  statbuf := []
  statlen := 0
  gotCaps := true
  gotStaticData := true
  lastFillTime := 0
  commErr := true
  commLoss := 3
  polled := []

theorem slave_mirrors_master_mains :
    ∃ net' slave, readVolatileData 10 ⟨⟨true, 6, mainsReport, 0⟩, lostPoll, lostPoll⟩
        (callOf lostPoll) [] [] mainsSlave (modelUps []) = (true, net', slave) ∧
      Updated mainsUps 10 slave :=
  slave_mirrors_master mainsUps_legible (by decide +kernel) (by decide +kernel)
    mainsReport_receives rfl rfl (by decide) rfl (callOf lostPoll) [] [] (modelUps [])

end NetSlave
end Apcupsd
