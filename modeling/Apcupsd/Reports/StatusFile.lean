import Apcupsd.Foundations.RewrittenFile
import Apcupsd.Nis.SelfConsistent

/-!
# The status file

{lit}`do_reports` from {lit}`reports.c`, which keeps the file open and writes every report from
its start, with {lit}`log_status_open`, {lit}`log_status_write` and {lit}`log_status_close`.

Main results:

- Theorem {lit}`foldl_logStatusWrite`: what is collected is the front of the records, each cut
  to its array.
- Theorem {lit}`contents_writeStatus_iff`: when a write leaves nothing but the report.
- Theorem {lit}`statusFile_latest_iff`: when every write of a run does.
-/

namespace Apcupsd
namespace Reports

open CStrings RewrittenFile

/-! ## The code -/

/-- {lit}`log_status_open`. -/
def logStatusOpen (file : OpenFile Char) : StatusServer × OpenFile Char :=
  (statusOpen, file.rewind)

/-- {lit}`log_status_write`: {lit}`strncat` takes what there is room for, and the record is
counted all the same. -/
def logStatusWrite (log : StatusServer) (text : List Char) : StatusServer where
  largebuf :=
    log.largebuf ++ (text.take (maxString - 1)).take (largebufSize - log.largebuf.length - 1)
  statRecs := log.statRecs + 1

/-- {lit}`log_status_close`, without the copy for the system log. -/
def logStatusClose (log : StatusServer) (file : OpenFile Char) : Int × OpenFile Char :=
  if largebufSize - 1 < log.largebuf.length then (-1, file)
  else (0, (file.write (headerRecord log)).write log.largebuf)

/-- {lit}`output_status`, called to write the file. -/
def writeStatus (host : Host) (ups : StatusUps) (file : OpenFile Char) : OpenFile Char :=
  let (log, file) := logStatusOpen file
  (logStatusClose ((outputStatus host ups).foldl logStatusWrite log) file).2

/-- A call of {lit}`do_reports`: the time, whether the file could be opened if this is tried,
and the UPS. -/
structure ReportCall where
  now : Int
  opens : Bool
  host : Host
  ups : StatusUps

/-- {lit}`first_time`, {lit}`last_time_status` and {lit}`statusfile`. -/
structure StatusLogger where
  firstTime : Bool
  lastTimeStatus : Int
  statusfile : Option (OpenFile Char)

/-- Before the first call. -/
def StatusLogger.initial : StatusLogger where
  firstTime := true
  lastTimeStatus := 0
  statusfile := none

/-- What the first call does first. -/
def StatusLogger.setUp (logger : StatusLogger) (call : ReportCall) : StatusLogger :=
  if logger.firstTime then
    { firstTime := false
      lastTimeStatus := 0
      -- the file is truncated here, and never again
      statusfile := if call.ups.stattime ≠ 0 ∧ call.opens then some .empty else none }
  else logger

/-- The file, if it is time to write it. -/
def StatusLogger.due (logger : StatusLogger) (call : ReportCall) : Option (OpenFile Char) :=
  if call.now - logger.lastTimeStatus ≥ call.ups.stattime then logger.statusfile else none

/-- {lit}`do_reports`, as far as the status file is concerned. -/
def doReports (logger : StatusLogger) (call : ReportCall) : StatusLogger :=
  let logger := logger.setUp call
  match logger.due call with
  | some file =>
      { logger with
        lastTimeStatus := call.now
        statusfile := some (writeStatus call.host call.ups file) }
  | none => logger

/-! ## Reports -/

/-- A report: a header with the numbers of the records and of their characters, and the
records. -/
def statusReport (host : Host) (ups : StatusUps) : List Char :=
  announcingRecord (outputStatus host ups).length (outputStatus host ups).flatten.length ++
    (outputStatus host ups).flatten

/-- Every record has room in the array it is formatted into, and all of them in the buffer. -/
structure ReportFits (host : Host) (ups : StatusUps) : Prop where
  each : ∀ text ∈ outputStatus host ups, text.length < maxString
  all : (outputStatus host ups).flatten.length < largebufSize

/-- The calls that write the file. -/
def writingCalls : StatusLogger → List ReportCall → List ReportCall
  | _, [] => []
  | logger, call :: calls =>
      let rest := writingCalls (doReports logger call) calls
      if ((logger.setUp call).due call).isSome then call :: rest else rest

/-- After each call that writes the file it holds the report on this call's UPS, and nothing
else. -/
def LatestAfterEach : StatusLogger → List ReportCall → Prop
  | _, [] => True
  | logger, call :: calls =>
      (((logger.setUp call).due call).isSome →
        (doReports logger call).statusfile.map OpenFile.contents =
          some (statusReport call.host call.ups)) ∧
      LatestAfterEach (doReports logger call) calls

/-! ## Collecting -/

/-- What does not fit any more makes no difference. -/
theorem take_append_take {α : Type*} (n : ℕ) (front back : List α) :
    (front.take n ++ back).take n = (front ++ back).take n := by
  rw [List.take_append, List.take_append, List.take_take, Nat.min_self, List.length_take]
  congr 2
  omega

theorem largebuf_logStatusWrite {log : StatusServer} (hroom : log.largebuf.length < largebufSize)
    (text : List Char) :
    (logStatusWrite log text).largebuf =
      (log.largebuf ++ text.take (maxString - 1)).take (largebufSize - 1) := by
  have hleft : largebufSize - log.largebuf.length - 1 =
      largebufSize - 1 - log.largebuf.length := by
    omega
  rw [logStatusWrite, List.take_append, List.take_of_length_le (Nat.le_sub_one_of_lt hroom), hleft]

/-- What is collected is the front of the records, each cut to its array. -/
theorem foldl_logStatusWrite {texts : List (List Char)} {log : StatusServer}
    (hroom : log.largebuf.length < largebufSize) :
    texts.foldl logStatusWrite log =
      { largebuf := (log.largebuf ++ (texts.map (List.take (maxString - 1))).flatten).take
          (largebufSize - 1)
        statRecs := log.statRecs + texts.length } := by
  induction texts generalizing log with
  | nil =>
      rw [List.map_nil, List.flatten_nil, List.append_nil,
        List.take_of_length_le (Nat.le_sub_one_of_lt hroom)]
      rfl
  | cons text texts ih =>
      have hfront := largebuf_logStatusWrite hroom text
      have hnext : (logStatusWrite log text).largebuf.length < largebufSize := by
        have hsize : 0 < largebufSize := by decide
        rw [hfront, List.length_take]
        omega
      rw [List.foldl_cons, ih hnext, hfront, take_append_take, List.map_cons, List.flatten_cons,
        List.append_assoc, List.length_cons, logStatusWrite, Nat.add_right_comm, Nat.add_assoc]

/-- The records, as they are collected for a report. -/
theorem foldl_outputStatus (host : Host) (ups : StatusUps) :
    (outputStatus host ups).foldl logStatusWrite statusOpen =
      { largebuf := ((outputStatus host ups).map (List.take (maxString - 1))).flatten.take
          (largebufSize - 1)
        statRecs := (outputStatus host ups).length } := by
  rw [foldl_logStatusWrite (by decide)]
  simp [statusOpen]

theorem length_flatten_take_le (n : ℕ) (texts : List (List Char)) :
    (texts.map (List.take n)).flatten.length ≤ texts.flatten.length := by
  induction texts with
  | nil => exact le_rfl
  | cons text texts ih =>
      simp only [List.map_cons, List.flatten_cons, List.length_append]
      exact Nat.add_le_add (List.length_take_le' n text) ih

/-- A text that is cut is missing. -/
theorem length_flatten_take_lt {n : ℕ} {texts : List (List Char)} {text : List Char}
    (hmem : text ∈ texts) (hlong : n < text.length) :
    (texts.map (List.take n)).flatten.length < texts.flatten.length := by
  induction texts with
  | nil => cases hmem
  | cons first texts ih =>
      simp only [List.map_cons, List.flatten_cons, List.length_append]
      rcases List.mem_cons.mp hmem with rfl | hrest
      · have hcut : (text.take n).length < text.length := by
          rw [List.length_take]
          omega
        exact Nat.add_lt_add_of_lt_of_le hcut (length_flatten_take_le n texts)
      · exact Nat.add_lt_add_of_le_of_lt (List.length_take_le' n first) (ih hrest)

section Report

variable {host : Host} {ups : StatusUps}

/-- A report that fits is collected whole. -/
theorem ReportFits.collected (hfits : ReportFits host ups) :
    (outputStatus host ups).foldl logStatusWrite statusOpen =
      { largebuf := (outputStatus host ups).flatten
        statRecs := (outputStatus host ups).length } := by
  have heach : ∀ text ∈ outputStatus host ups, text.take (maxString - 1) = text :=
    fun text htext => List.take_of_length_le (Nat.le_sub_one_of_lt (hfits.each text htext))
  have hwhole : (outputStatus host ups).map (List.take (maxString - 1)) = outputStatus host ups :=
    (List.map_congr_left heach).trans (List.map_id' _)
  rw [foldl_outputStatus, hwhole, List.take_of_length_le (Nat.le_sub_one_of_lt hfits.all)]

/-- Of any other report something is missing. -/
theorem length_collected_lt (hfits : ¬ ReportFits host ups) :
    ((outputStatus host ups).foldl logStatusWrite statusOpen).largebuf.length <
      (outputStatus host ups).flatten.length := by
  rw [foldl_outputStatus, List.length_take]
  by_cases heach : ∀ text ∈ outputStatus host ups, text.length < maxString
  · have hlong : ¬ (outputStatus host ups).flatten.length < largebufSize :=
      fun hall => hfits ⟨heach, hall⟩
    have hsize : 0 < largebufSize := by decide
    omega
  · push Not at heach
    obtain ⟨text, htext, hlong⟩ := heach
    have hmax : 0 < maxString := by decide
    have hcut := length_flatten_take_lt htext (show maxString - 1 < text.length by omega)
    omega

theorem length_collected_le (host : Host) (ups : StatusUps) :
    ((outputStatus host ups).foldl logStatusWrite statusOpen).largebuf.length ≤
      largebufSize - 1 := by
  rw [foldl_outputStatus]
  exact List.length_take_le _ _

/-! ## One write -/

/-- What is written: the header and what has been collected. -/
theorem writeStatus_eq (host : Host) (ups : StatusUps) (file : OpenFile Char) :
    writeStatus host ups file =
      file.rewind.write (announcingRecord (outputStatus host ups).length
          ((outputStatus host ups).foldl logStatusWrite statusOpen).largebuf.length ++
        ((outputStatus host ups).foldl logStatusWrite statusOpen).largebuf) := by
  have hbytes := length_collected_le host ups
  have hrecs : ((outputStatus host ups).foldl logStatusWrite statusOpen).statRecs =
      (outputStatus host ups).length := by
    rw [foldl_outputStatus]
  have hcount := length_outputStatus_lt host ups
  rw [writeStatus, logStatusOpen]
  dsimp only
  generalize (outputStatus host ups).foldl logStatusWrite statusOpen = log at hbytes hrecs ⊢
  have hshort : log.largebuf.length < 10000 := hbytes.trans_lt (by decide)
  rw [logStatusClose, if_neg (Nat.not_lt.mpr hbytes)]
  dsimp only
  rw [OpenFile.write_write, headerRecord_eq (hrecs.trans_lt hcount) hshort, hrecs]

/-- A header ends with the number of the characters. -/
theorem announcingRecord_append (records bytes : ℕ) (text : List Char) :
    announcingRecord records bytes ++ text =
      "APC      : 001,".toList ++ padLeft '0' 3 (Nat.toDigits 10 records) ++ [','] ++
        (padLeft '0' 4 (Nat.toDigits 10 bytes) ++ '\n' :: text) := by
  have hshape (front digits text : List Char) :
      front ++ ',' :: digits ++ ['\n'] ++ text = front ++ [','] ++ (digits ++ '\n' :: text) := by
    simp
  exact hshape _ _ text

/-- Digits are read up to the newline behind them. -/
theorem takeWhile_digits (bytes : ℕ) (text : List Char) :
    (padLeft '0' 4 (Nat.toDigits 10 bytes) ++ '\n' :: text).takeWhile (· ≠ '\n') =
      padLeft '0' 4 (Nat.toDigits 10 bytes) := by
  have hdigits : OneLine (padLeft '0' 4 (Nat.toDigits 10 bytes)) :=
    oneLine_padLeft (by decide) (oneLine_toDigits bytes)
  refine takeWhile_append_stop (fun c hc => ?_) (by simp)
  simpa using (hdigits c hc).1

/-- Reports that begin alike announce the same number of characters. -/
theorem bytes_of_announcingRecord {records bytes bytes' : ℕ} {rest rest' : List Char}
    (hsame : announcingRecord records bytes ++ rest = announcingRecord records bytes' ++ rest') :
    bytes = bytes' := by
  rw [announcingRecord_append, announcingRecord_append] at hsame
  have hprinted := congrArg (List.takeWhile (· ≠ '\n')) (List.append_cancel_left hsame)
  rw [takeWhile_digits, takeWhile_digits] at hprinted
  rw [← ofDigitChars_printed 4 bytes, hprinted, ofDigitChars_printed]

/-- A report that fits is written whole. -/
theorem ReportFits.writeStatus_eq (hfits : ReportFits host ups) (file : OpenFile Char) :
    writeStatus host ups file = file.rewind.write (statusReport host ups) := by
  rw [Reports.writeStatus_eq, hfits.collected]
  rfl

/-- A write leaves nothing but the report exactly if the report fits and takes the place of all
that the file held. -/
theorem contents_writeStatus_iff (file : OpenFile Char) :
    (writeStatus host ups file).contents = statusReport host ups ↔
      ReportFits host ups ∧
        (file.rewind.write (statusReport host ups)).contents = statusReport host ups := by
  constructor
  · intro heq
    have hfits : ReportFits host ups := by
      by_contra hmissing
      have hlt := length_collected_lt hmissing
      rw [writeStatus_eq, OpenFile.contents_rewrite, statusReport, List.append_assoc] at heq
      have hbytes := bytes_of_announcingRecord heq
      omega
    exact ⟨hfits, hfits.writeStatus_eq file ▸ heq⟩
  · rintro ⟨hfits, heq⟩
    rw [hfits.writeStatus_eq, heq]

end Report

/-! ## Runs -/

/-- The file that the next write begins with. -/
def StatusLogger.file (logger : StatusLogger) : OpenFile Char :=
  if logger.firstTime then .empty else logger.statusfile.getD .empty

section Step

variable {logger : StatusLogger} {call : ReportCall}

theorem StatusLogger.file_of_statusfile (hfirst : ¬ logger.firstTime = true)
    {file : OpenFile Char} (hopen : logger.statusfile = some file) : logger.file = file := by
  rw [StatusLogger.file, if_neg hfirst, hopen]
  rfl

theorem StatusLogger.file_setUp : (logger.setUp call).file = logger.file := by
  by_cases hfirst : logger.firstTime = true
  · rw [setUp, if_pos hfirst, file, file, if_pos hfirst, if_neg Bool.false_ne_true]
    dsimp only
    split_ifs <;> rfl
  · rw [setUp, if_neg hfirst]

theorem StatusLogger.firstTime_setUp : ¬ (logger.setUp call).firstTime = true := by
  unfold setUp
  split_ifs with hfirst
  · exact not_false
  · exact hfirst

/-- A call writes the file that has been open. -/
theorem StatusLogger.eq_file_of_due {file : OpenFile Char}
    (hdue : (logger.setUp call).due call = some file) : file = logger.file := by
  have hopen : (logger.setUp call).statusfile = some file := by
    unfold due at hdue
    split_ifs at hdue
    exact hdue
  rw [← @file_setUp logger call, file_of_statusfile firstTime_setUp hopen]

/-- A call that writes. -/
theorem doReports_of_due {file : OpenFile Char}
    (hdue : (logger.setUp call).due call = some file) :
    (doReports logger call).statusfile = some (writeStatus call.host call.ups logger.file) ∧
      (doReports logger call).file = writeStatus call.host call.ups logger.file := by
  obtain rfl := StatusLogger.eq_file_of_due hdue
  unfold doReports
  dsimp only
  rw [hdue]
  refine ⟨rfl, StatusLogger.file_of_statusfile ?_ rfl⟩
  exact StatusLogger.firstTime_setUp

/-- A call that does not write. -/
theorem file_doReports_of_not_due (hdue : (logger.setUp call).due call = none) :
    (doReports logger call).file = logger.file := by
  unfold doReports
  dsimp only
  rw [hdue]
  exact StatusLogger.file_setUp

end Step

/-- After every write the file holds the latest report, exactly if all reports fit and they
replace each other. -/
theorem latestAfterEach_iff (logger : StatusLogger) (calls : List ReportCall) :
    LatestAfterEach logger calls ↔
      (∀ call ∈ writingCalls logger calls, ReportFits call.host call.ups) ∧
        Latest logger.file
          ((writingCalls logger calls).map fun call => statusReport call.host call.ups) := by
  induction calls generalizing logger with
  | nil => simp [LatestAfterEach, writingCalls, Latest]
  | cons call calls ih =>
      rw [LatestAfterEach, ih, writingCalls]
      cases hdue : (logger.setUp call).due call with
      | none =>
          rw [file_doReports_of_not_due hdue]
          simp
      | some file =>
          obtain ⟨hstatusfile, hfile⟩ := doReports_of_due hdue
          simp only [hstatusfile, hfile, Option.isSome_some, if_true, List.forall_mem_cons,
            List.map_cons, Latest, Option.map_some, Option.some.injEq, contents_writeStatus_iff,
            true_imp_iff]
          constructor
          · rintro ⟨⟨hfits, hreport⟩, hrest, hlatest⟩
            rw [hfits.writeStatus_eq] at hlatest
            exact ⟨⟨hfits, hrest⟩, hreport, hlatest⟩
          · rintro ⟨⟨hfits, hrest⟩, hreport, hlatest⟩
            rw [hfits.writeStatus_eq]
            exact ⟨⟨hfits, hreport⟩, hrest, hlatest⟩

/-- In every run the status file is the latest report after each write, exactly if every report
fits and none is shorter than the one before. -/
theorem statusFile_latest_iff (calls : List ReportCall) :
    LatestAfterEach .initial calls ↔
      (∀ call ∈ writingCalls .initial calls, ReportFits call.host call.ups) ∧
        ((writingCalls .initial calls).map fun call =>
          (statusReport call.host call.ups).length).IsChain (· ≤ ·) := by
  rw [latestAfterEach_iff]
  refine and_congr_right fun _ => ?_
  rw [StatusLogger.file, StatusLogger.initial, if_pos rfl, latest_empty_iff, List.map_map]
  rfl

/-- A report with the model of the UPS, and one after its capabilities have been lost. -/
def shrinkingReports : List ReportCall :=
  [{ now := 1000
     opens := true
     host := newYearHost
     ups := { modelUps "Smart-UPS 1500".toList with stattime := 300 } },
    { now := 1300
      opens := true
      host := newYearHost
      ups := { modelUps [] with stattime := 300, upsCap := fun _ => false } }]

/-- The end of the first report is left behind the second. -/
theorem shorter_report_keeps_tail :
    (shrinkingReports.foldl doReports .initial).statusfile.map OpenFile.contents =
        some (statusReport newYearHost
            { modelUps [] with stattime := 300, upsCap := fun _ => false } ++
          "24-01-01 00:00:00 +0000  \n".toList) ∧
      ¬ LatestAfterEach .initial shrinkingReports := by
  have hcontents : (shrinkingReports.foldl doReports .initial).statusfile.map OpenFile.contents =
      some (statusReport newYearHost
          { modelUps [] with stattime := 300, upsCap := fun _ => false } ++
        "24-01-01 00:00:00 +0000  \n".toList) := by
    decide +kernel
  refine ⟨hcontents, fun hlatest => ?_⟩
  have hsecond := hlatest.2.1 (by decide +kernel)
  rw [shrinkingReports, List.foldl_cons, List.foldl_cons, List.foldl_nil] at hcontents
  have hlonger := Option.some.inj (hsecond.symm.trans hcontents)
  exact absurd (List.self_eq_append_right.mp hlonger) (by decide)

end Reports
end Apcupsd
