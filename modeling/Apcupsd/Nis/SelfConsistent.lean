import Apcupsd.Core.CoreRun
import Apcupsd.Nis.StatusText

/-!
# The counts of a status reply

A reply to {lit}`status` says at its front how many records follow and how long they are.
The records are formatted into an array of {lit}`MAXSTRING` characters, collected in a
buffer, and split again at their newlines.

Main results:

- Theorem {lit}`foldl_statusWrite_of_fits`: records that fit are collected as they were
  written.
- Theorem {lit}`fits_of_foldl_statusWrite`: no others are.
- Theorem {lit}`statusReply_consistent_iff`: a reply agrees with its header exactly when all
  records fit their array and together fit the buffer.
-/

namespace Apcupsd

open CStrings TextLines

/-! ## The reply -/

/-- The messages of a reply to {lit}`status`, with the empty one that ends it. -/
def statusReply (host : Host) (ups : StatusUps) : List (List Char) :=
  statusMessages host ups ++ [[]]

/-- The record that announces so many records of so many characters. -/
def announcingRecord (records bytes : ℕ) : List Char :=
  "APC      : 001,".toList ++ padLeft '0' 3 (Nat.toDigits 10 records) ++
    ',' :: padLeft '0' 4 (Nat.toDigits 10 bytes) ++ ['\n']

/-- A text that ends with its only newline. -/
def IsRecord (text : List Char) : Prop :=
  ∃ line, '\n' ∉ line ∧ text = line ++ ['\n']

/-- The reply is what {lit}`output_status` wrote, record by record, behind a header with the
numbers of the records and of their characters, and before the terminator. -/
def Consistent (host : Host) (ups : StatusUps) : Prop :=
  statusReply host ups =
      announcingRecord (outputStatus host ups).length (outputStatus host ups).flatten.length ::
        outputStatus host ups ++ [[]] ∧
    ∀ record ∈ outputStatus host ups, IsRecord record

/-- The characters of the record for a row. -/
def recordLength (row : String × Option (List Char)) : ℕ :=
  match row.2 with
  | some value => row.1.toList.length + value.length + 1
  | none => 0

/-- Every record has room in the array it is formatted into, and all together have room in
the buffer they are collected in. -/
structure RecordsFit (host : Host) (ups : StatusUps) : Prop where
  each : ∀ row ∈ statusRows host ups, recordLength row < maxString
  all : ((statusRows host ups).map recordLength).sum < largebufSize - 1

/-! ## Records -/

/-- What {lit}`output_status` writes are records. -/
theorem isRecord_outputStatus {host : Host} {ups : StatusUps}
    (htexts : ∀ text ∈ reportedTexts host ups, OneLine text) :
    ∀ record ∈ outputStatus host ups, IsRecord record := by
  intro record hrecord
  rcases List.mem_filterMap.mp hrecord with ⟨row, hrow, hsome⟩
  rcases Option.map_eq_some_iff.mp hsome with ⟨value, hvalue, rfl⟩
  have hlabel := (statusRows_isLabel host ups row hrow).oneLine
  have honeLine := statusRows_oneLine htexts row hrow value hvalue
  exact ⟨row.1.toList ++ value, (oneLine_append.mpr ⟨hlabel, honeLine⟩).newline_not_mem, rfl⟩

/-- The lengths of the records, row by row. -/
theorem length_flatten_filterMap (rows : List (String × Option (List Char))) :
    ((rows.filterMap fun row => row.2.map (recordText row.1)).flatten).length =
      (rows.map recordLength).sum := by
  induction rows with
  | nil => rfl
  | cons row rows ih =>
      rcases row with ⟨label, - | value⟩
      · simpa [recordLength] using ih
      · simp only [List.filterMap_cons, Option.map_some, List.flatten_cons, List.length_append,
          ih, List.map_cons, List.sum_cons, recordLength, recordText, List.length_cons,
          List.length_nil]

theorem each_iff {host : Host} {ups : StatusUps} :
    (∀ row ∈ statusRows host ups, recordLength row < maxString) ↔
      ∀ text ∈ outputStatus host ups, text.length < maxString := by
  constructor
  · intro heach text htext
    rcases List.mem_filterMap.mp htext with ⟨row, hrow, hsome⟩
    rcases Option.map_eq_some_iff.mp hsome with ⟨value, hvalue, rfl⟩
    have hlength := heach row hrow
    rw [recordLength, hvalue] at hlength
    simpa [recordText, Nat.add_assoc] using hlength
  · intro htexts row hrow
    rcases row with ⟨label, - | value⟩
    · exact Nat.succ_pos _
    · have hlength := htexts _ (List.mem_filterMap.mpr ⟨_, hrow, rfl⟩)
      simpa [recordLength, recordText, Nat.add_assoc] using hlength

/-- The records fit if what is written does. -/
theorem recordsFit_iff {host : Host} {ups : StatusUps} :
    RecordsFit host ups ↔
      (∀ text ∈ outputStatus host ups, text.length < maxString) ∧
        (outputStatus host ups).flatten.length < largebufSize - 1 := by
  rw [outputStatus, length_flatten_filterMap, ← outputStatus, ← each_iff]
  exact ⟨fun hfits => ⟨hfits.each, hfits.all⟩, fun hboth => ⟨hboth.1, hboth.2⟩⟩

/-! ## Collecting -/

/-- Records that fit are collected whole. -/
theorem foldl_statusWrite_of_fits {texts : List (List Char)} {server : StatusServer}
    (heach : ∀ text ∈ texts, text.length < maxString)
    (hall : server.largebuf.length + texts.flatten.length < largebufSize - 1) :
    texts.foldl statusWrite server =
      { largebuf := server.largebuf ++ texts.flatten
        statRecs := server.statRecs + texts.length } := by
  induction texts generalizing server with
  | nil => simp
  | cons text texts ih =>
      rcases List.forall_mem_cons.mp heach with ⟨htext, hrest⟩
      rw [List.flatten_cons, List.length_append] at hall
      have hwhole : text.take (maxString - 1) = text :=
        List.take_of_length_le (Nat.le_sub_one_of_lt htext)
      have hroom : server.largebuf.length + text.length < largebufSize - 1 := by omega
      have hwrite : statusWrite server text =
          { largebuf := server.largebuf ++ text, statRecs := server.statRecs + 1 } := by
        unfold statusWrite
        dsimp only
        rw [hwhole, if_pos hroom]
      rw [List.foldl_cons, hwrite, ih hrest (by simp only [List.length_append]; omega)]
      simp [Nat.add_assoc, Nat.add_comm 1]

/-- A write adds at most its text, and leaves room in the buffer. -/
theorem length_statusWrite_le (server : StatusServer) (text : List Char) :
    (statusWrite server text).largebuf.length ≤ server.largebuf.length + text.length := by
  unfold statusWrite
  dsimp only
  split_ifs <;> simp [List.length_take]

theorem length_foldl_statusWrite_le (texts : List (List Char)) (server : StatusServer) :
    (texts.foldl statusWrite server).largebuf.length ≤
      server.largebuf.length + texts.flatten.length := by
  induction texts generalizing server with
  | nil => simp
  | cons text texts ih =>
      have hwrite := length_statusWrite_le server text
      have hrest := ih (statusWrite server text)
      rw [List.foldl_cons, List.flatten_cons, List.length_append]
      omega

/-- A write that adds all of its text has found room for it. -/
theorem fits_of_statusWrite {server : StatusServer} {text : List Char}
    (hroom : server.largebuf.length < largebufSize - 1)
    (hwhole : server.largebuf.length + text.length ≤ (statusWrite server text).largebuf.length) :
    text.length < maxString ∧
      (statusWrite server text).largebuf.length = server.largebuf.length + text.length ∧
      server.largebuf.length + text.length < largebufSize - 1 := by
  have hmax : 0 < maxString := by decide
  unfold statusWrite at hwhole ⊢
  dsimp only at hwhole ⊢
  split_ifs at hwhole ⊢ with hfits
  · simp only [List.length_append, List.length_take] at hwhole hfits ⊢
    omega
  · omega

/-- What is collected whole fits. -/
theorem fits_of_foldl_statusWrite {texts : List (List Char)} {server : StatusServer}
    (hroom : server.largebuf.length < largebufSize - 1)
    (hwhole : server.largebuf.length + texts.flatten.length ≤
      (texts.foldl statusWrite server).largebuf.length) :
    (∀ text ∈ texts, text.length < maxString) ∧
      server.largebuf.length + texts.flatten.length < largebufSize - 1 := by
  induction texts generalizing server with
  | nil => exact ⟨nofun, hroom⟩
  | cons text texts ih =>
      rw [List.foldl_cons, List.flatten_cons, List.length_append] at hwhole
      have hlater := length_foldl_statusWrite_le texts (statusWrite server text)
      have hgrows : server.largebuf.length + text.length ≤
          (statusWrite server text).largebuf.length := by
        omega
      rcases fits_of_statusWrite hroom hgrows with ⟨htext, hlength, hnext⟩
      rcases @ih (statusWrite server text) (by omega) (by omega) with ⟨hrest, hall⟩
      rw [List.flatten_cons, List.length_append]
      exact ⟨List.forall_mem_cons.mpr ⟨htext, hrest⟩, by omega⟩

/-! ## Splitting -/

theorem sentRecords_line {line : List Char} (hline : '\n' ∉ line) (record rest : List Char) :
    sentRecords record (line ++ '\n' :: rest) =
      (record ++ line ++ ['\n']) :: sentRecords [] rest := by
  induction line generalizing record with
  | nil => simp [sentRecords]
  | cons c line ih =>
      have hne : c ≠ '\n' := fun hc => hline (hc ▸ List.mem_cons_self)
      have hrest : '\n' ∉ line := fun hmem => hline (List.mem_cons_of_mem c hmem)
      rw [List.cons_append, sentRecords, if_neg hne, ih hrest]
      simp

/-- Splitting takes the records apart again. -/
theorem sentRecords_flatten {texts : List (List Char)}
    (hrecords : ∀ record ∈ texts, IsRecord record) : sentRecords [] texts.flatten = texts := by
  induction texts with
  | nil => rfl
  | cons text texts ih =>
      rcases List.forall_mem_cons.mp hrecords with ⟨⟨line, hline, rfl⟩, hrest⟩
      have hsplit := sentRecords_line hline [] texts.flatten
      rw [ih hrest] at hsplit
      simpa using hsplit

/-! ## The reply as a whole -/

theorem length_outputStatus_lt (host : Host) (ups : StatusUps) :
    (outputStatus host ups).length < 1000 := by
  refine lt_of_le_of_lt (List.length_filterMap_le _ _) ?_
  change 66 < 1000
  decide

/-- The header is not cut. -/
theorem headerRecord_eq {server : StatusServer} (hrecs : server.statRecs < 1000)
    (hbytes : server.largebuf.length < 10000) :
    headerRecord server = announcingRecord server.statRecs server.largebuf.length := by
  have hlength : ∀ width n, 0 < width → n < 10 ^ width →
      (padLeft '0' width (Nat.toDigits 10 n)).length = width := by
    intro width n hwidth hn
    have hdigits := (Nat.length_toDigits_le_iff (by decide) hwidth).mpr hn
    simp only [padLeft, List.length_append, List.length_replicate]
    omega
  have hthree := hlength 3 server.statRecs (by decide) hrecs
  have hfour := hlength 4 server.largebuf.length (by decide) hbytes
  unfold headerRecord
  rw [List.take_of_length_le]
  · rfl
  · simp only [List.length_append, List.length_cons, hthree, hfour]
    decide

/-- Records that fit are sent as they were written. -/
theorem consistent_of_fits {host : Host} {ups : StatusUps}
    (htexts : ∀ text ∈ reportedTexts host ups, OneLine text) (hfit : RecordsFit host ups) :
    Consistent host ups := by
  rcases recordsFit_iff.mp hfit with ⟨heach, hall⟩
  have hrecords := isRecord_outputStatus htexts
  have hcollected : (outputStatus host ups).foldl statusWrite statusOpen =
      { largebuf := (outputStatus host ups).flatten
        statRecs := (outputStatus host ups).length } := by
    rw [foldl_statusWrite_of_fits heach (by simpa [statusOpen] using hall)]
    simp [statusOpen]
  have hbytes : (outputStatus host ups).flatten.length < 10000 :=
    hall.trans_le (by decide)
  refine ⟨?_, hrecords⟩
  unfold statusReply statusMessages statusClose
  rw [hcollected, headerRecord_eq (length_outputStatus_lt host ups) hbytes,
    sentRecords_flatten hrecords]

/-- No other records are. -/
theorem fits_of_consistent {host : Host} {ups : StatusUps} (hconsistent : Consistent host ups) :
    RecordsFit host ups := by
  have hsent : sentRecords [] ((outputStatus host ups).foldl statusWrite statusOpen).largebuf =
      outputStatus host ups := by
    have hreply := hconsistent.1
    unfold statusReply statusMessages statusClose at hreply
    exact List.append_cancel_right (List.cons.inj hreply).2
  have hfront := flatten_sentRecords
    ((outputStatus host ups).foldl statusWrite statusOpen).largebuf []
  rw [hsent, List.nil_append] at hfront
  have hfits := @fits_of_foldl_statusWrite (outputStatus host ups) statusOpen (by decide)
    (by simpa [statusOpen] using hfront.length_le)
  exact recordsFit_iff.mpr ⟨hfits.1, by simpa [statusOpen] using hfits.2⟩

/-- If no text contains a newline, the reply agrees with its header and no record of it is
split, merged or dropped, if and only if all records fit. -/
theorem statusReply_consistent_iff {host : Host} {ups : StatusUps}
    (htexts : ∀ text ∈ reportedTexts host ups, OneLine text) :
    Consistent host ups ↔ RecordsFit host ups :=
  ⟨fits_of_consistent, consistent_of_fits htexts⟩

/-! ## Examples of runs -/

/-- {lit}`APC_FILENAME_MAX` where it is {lit}`FILENAME_MAX`. -/
def apcFilenameMax : ℕ := 4096

/-- The texts of a report have room in their arrays, each with its terminator. -/
def TextsFit (host : Host) (ups : StatusUps) : Prop :=
  ∀ array ∈ [(host.gethostname, maxString), (ups.upsname, 100), (ups.cable, maxString),
      (ups.mode, maxString), (ups.upsclass, maxString), (ups.sharenet, maxString),
      (ups.masterName, apcFilenameMax), (ups.upsmodel, maxString), (ups.selftest, 9),
      (ups.birth, 20), (ups.serial, 32), (ups.battdat, 20), (ups.firmrev, 20)],
    array.1.length < array.2

instance (host : Host) (ups : StatusUps) : Decidable (TextsFit host ups) :=
  inferInstanceAs (Decidable (∀ array ∈ _, _))

/-- A host whose calendar stands still. -/
def newYearHost : Host where
  time := 1000
  localtime := fun _ =>
    { year := 2024, mon := 1, mday := 1, hour := 0, min := 0, sec := 0, gmtoffMinutes := 0 }
  gethostname := "box".toList
  apcupsdHost := "debian".toList

/-- A UPS that reports its model and nothing else that is optional. -/
def modelUps (upsmodel : List Char) : StatusUps where
  toUpsInfo :=
    { newUps (defaultConfig 0) with
      upsCap := fun ci => decide (ci = .upsmodel)
      upsmodel := upsmodel }
  toReportFields := ReportFields.zero
  cable := "USB Cable".toList
  mode := "MODBUS UPS Driver".toList
  upsclass := "Stand Alone".toList
  sharenetDisabled := true
  sharenet := []
  lastMasterConnectTime := 0
  masterName := []

/-- The reply of a UPS with a short name of its model. -/
theorem statusReply_consistent_short :
    Consistent newYearHost (modelUps "Smart-UPS 1500".toList) :=
  (statusReply_consistent_iff (by decide +kernel)).mpr ⟨by decide +kernel, by decide +kernel⟩

/-- The name of a model fills its array: its record loses its end, the next one is sent as
part of it, and the header counts one record too many. -/
theorem statusReply_longModel :
    ¬ ∀ host ups, (∀ text ∈ reportedTexts host ups, OneLine text) → TextsFit host ups →
      Consistent host ups := by
  intro hclaim
  have hconsistent := hclaim newYearHost (modelUps (List.replicate 255 'A')) (by decide +kernel)
    (by decide +kernel)
  have hcounts : (statusReply newYearHost (modelUps (List.replicate 255 'A'))).length + 1 =
      (outputStatus newYearHost (modelUps (List.replicate 255 'A'))).length + 2 := by
    decide +kernel
  have hreply := congrArg List.length hconsistent.1
  simp only [List.length_cons, List.length_append, List.length_nil] at hreply
  omega

end Apcupsd
