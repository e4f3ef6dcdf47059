import Apcupsd.Nis.StatusReply
import Apcupsd.Nis.StatusText

/-!
# How a slave reads the report

{lit}`NetUpsDriver::getupsvar` from {lit}`drivers/net/net.c`, which looks in the status text
for the keyword that its table gives for a request.

Main results:

- Theorem {lit}`answerStart_lt_of_isInfix`: a search that stops before the line of the
  keyword never reaches the value on that line.
- Theorem {lit}`getupsvar_ownLine_iff`: the answer is that of the line with the keyword if
  and only if the keyword occurs nowhere before it and there is something to read.
-/

namespace Apcupsd

open CStrings TextLines

/-! ## The table -/

/-- {lit}`CmdTrans`. -/
structure CmdTrans where
  request : String
  upskeyword : String
  nfields : ℕ
deriving DecidableEq, Repr

/-- {lit}`cmdtrans`, without the row that ends it. -/
def cmdtrans : List CmdTrans :=
  [⟨"battcap", "BCHARGE", 1⟩,
    ⟨"battdate", "BATTDATE", 1⟩,
    ⟨"battpct", "BCHARGE", 1⟩,
    ⟨"battvolt", "BATTV", 1⟩,
    ⟨"cable", "CABLE", 0⟩,
    ⟨"date", "DATE", 0⟩,
    ⟨"firmware", "FIRMWARE", 0⟩,
    ⟨"highxfer", "HITRANS", 1⟩,
    ⟨"hostname", "HOSTNAME", 1⟩,
    ⟨"laststest", "LASTSTEST", 0⟩,
    ⟨"lastxfer", "LASTXFER", 0⟩,
    ⟨"linemax", "MAXLINEV", 1⟩,
    ⟨"linemin", "MINLINEV", 1⟩,
    ⟨"loadpct", "LOADPCT", 1⟩,
    ⟨"lowbatt", "DLOWBATT", 1⟩,
    ⟨"lowxfer", "LOTRANS", 1⟩,
    ⟨"maxtime", "MAXTIME", 1⟩,
    ⟨"mbattchg", "MBATTCHG", 1⟩,
    ⟨"mintimel", "MINTIMEL", 1⟩,
    ⟨"model", "MODEL", 0⟩,
    ⟨"nombattv", "NOMBATTV", 1⟩,
    ⟨"nominv", "NOMINV", 1⟩,
    ⟨"nomoutv", "NOMOUTV", 1⟩,
    ⟨"nompower", "NOMPOWER", 1⟩,
    ⟨"outputfreq", "LINEFREQ", 1⟩,
    ⟨"outputv", "OUTPUTV", 1⟩,
    ⟨"version", "VERSION", 1⟩,
    ⟨"retpct", "RETPCT", 1⟩,
    ⟨"runtime", "TIMELEFT", 1⟩,
    ⟨"selftest", "SELFTEST", 1⟩,
    ⟨"sense", "SENSE", 1⟩,
    ⟨"serialno", "SERIALNO", 1⟩,
    ⟨"status", "STATFLAG", 1⟩,
    ⟨"transhi", "HITRANS", 1⟩,
    ⟨"translo", "LOTRANS", 1⟩,
    ⟨"upsload", "LOADPCT", 1⟩,
    ⟨"upsmode", "UPSMODE", 0⟩,
    ⟨"upsname", "UPSNAME", 1⟩,
    ⟨"upstemp", "ITEMP", 1⟩,
    ⟨"utility", "LINEV", 1⟩]

/-- The characters of the keyword. -/
def CmdTrans.key (row : CmdTrans) : List Char :=
  row.upskeyword.toList

/-- The row for a request: the last one that matches. -/
def findRow (request : String) : Option CmdTrans :=
  cmdtrans.foldl (fun found row => if row.request = request then some row else found) none

theorem findRow_request : ∀ row ∈ cmdtrans, findRow row.request = some row := by
  decide +kernel

/-- A keyword is a word that fits into a label; one of a single field leaves a blank. -/
structure IsKey (row : CmdTrans) : Prop where
  ne_nil : row.key ≠ []
  word : ∀ c ∈ row.key, isspace c = false
  colon : ':' ∉ row.key
  length_le : row.key.length ≤ 9
  length_le_of_field : row.nfields = 1 → row.key.length ≤ 8

theorem cmdtrans_isKey : ∀ row ∈ cmdtrans, IsKey row := by
  have hall : ∀ row ∈ cmdtrans, row.key ≠ [] ∧ (∀ c ∈ row.key, isspace c = false) ∧
      ':' ∉ row.key ∧ row.key.length ≤ 9 ∧ (row.nfields = 1 → row.key.length ≤ 8) := by
    decide +kernel
  intro row hrow
  rcases hall row hrow with ⟨hne, hword, hcolon, hlength, hfield⟩
  exact ⟨hne, hword, hcolon, hlength, hfield⟩

/-! ## The search -/

/-- {lit}`_statbuf`: the text, and what the array holds from its terminator on. -/
structure StatusBuffer where
  text : List Char
  beyond : List Char

def StatusBuffer.memory (buffer : StatusBuffer) : List Char :=
  buffer.text ++ buffer.beyond

/-- The place from which the answer is copied: {lit}`sscanf` skips two words, and the other
branch eleven characters. -/
def CmdTrans.start (row : CmdTrans) (buffer : StatusBuffer) (find : List Char) : Option ℕ :=
  if row.nfields = 1 then
    (thirdWord find).map fun word => buffer.text.length - word.length
  else some (buffer.text.length - find.length + 11)

/-- What is copied from a place: one word, or everything to the end of the line.  The loop
of the latter does not look for the terminator. -/
def CmdTrans.copied (row : CmdTrans) (buffer : StatusBuffer) (anslen start : ℕ) : List Char :=
  if row.nfields = 1 then (frontWord (buffer.text.drop start)).take anslen
  else
    (((buffer.memory.drop start).takeWhile (· ≠ '\n')).take (anslen - 1)).takeWhile (· ≠ nul)

/-- The answer after a match; {lit}`sscanf` leaves it alone if there is no third word. -/
def CmdTrans.answerFrom (row : CmdTrans) (buffer : StatusBuffer) (answer : List Char)
    (anslen : ℕ) (find : List Char) : List Char :=
  match row.start buffer find with
  | some start => row.copied buffer anslen start
  | none => answer

def notFound (anslen : ℕ) : List Char :=
  "Not found".toList.take (anslen - 1)

/-- {lit}`getupsvar`: the result, and the answer. -/
def getupsvar (buffer : StatusBuffer) (request : String) (answer : List Char) (anslen : ℕ) :
    Bool × List Char :=
  match findRow request with
  | none => (false, notFound anslen)
  | some row =>
      match strstr row.key buffer.text with
      | none => (false, notFound anslen)
      | some find =>
          let answer := row.answerFrom buffer answer anslen find
          if answer = "N/A".toList then (false, answer) else (true, answer)

/-- Where the answer to a row is copied from. -/
def answerStart (buffer : StatusBuffer) (row : CmdTrans) : Option ℕ :=
  (strstr row.key buffer.text).bind (row.start buffer)

/-! ## What a slave should read -/

/-- The value on a line: what follows the colon and a blank. -/
def valueOf (line : List Char) : List Char :=
  (line.dropWhile (· ≠ ':')).drop 2

/-- What a row asks for of a value: its first word, or all of it; as much as fits. -/
def CmdTrans.given (row : CmdTrans) (value : List Char) (anslen : ℕ) : List Char :=
  if row.nfields = 1 then (frontWord (skipSpace value)).take anslen else value.take (anslen - 1)

/-- The text has a line with the key. -/
def HasLine (text key : List Char) : Prop :=
  ∃ front line rest, LineAt '\n' text front line rest ∧ keyOf line = key

/-- The answer is what the row asks for of the value on the line, and it was copied from
there. -/
structure TakenFrom (buffer : StatusBuffer) (row : CmdTrans) (answer : List Char) (anslen : ℕ)
    (front line : List Char) : Prop where
  key : keyOf line = row.key
  given : answer = row.given (valueOf line) anslen
  place : ∃ start ∈ answerStart buffer row,
    front.length + (line.length - (valueOf line).length) ≤ start ∧
      start + answer.length ≤ front.length + line.length

/-- A value is found if and only if there is a line with the keyword, and it is taken from
that line. -/
def ReadsOwnLine (buffer : StatusBuffer) (row : CmdTrans) (answer : List Char) (anslen : ℕ) :
    Prop :=
  ((getupsvar buffer row.request answer anslen).1 = true ↔ HasLine buffer.text row.key) ∧
    ((getupsvar buffer row.request answer anslen).1 = true →
      ∃ front line rest, LineAt '\n' buffer.text front line rest ∧
        TakenFrom buffer row (getupsvar buffer row.request answer anslen).2 anslen front line)

/-! ## Labelled lines -/

theorem length_labelOf {key : List Char} (hlength : key.length ≤ 9) : (labelOf key).length = 11 := by
  simp only [labelOf, List.length_append, List.length_replicate, List.length_cons,
    List.length_nil]
  omega

/-- The value follows the label. -/
theorem valueOf_labelOf_append {key : List Char} (hcolon : ':' ∉ key) (value : List Char) :
    valueOf (labelOf key ++ value) = value := by
  have hfront : ∀ c ∈ key ++ List.replicate (9 - key.length) ' ', decide (c ≠ ':') = true := by
    intro c hc
    rcases List.mem_append.mp hc with hkey | hblank
    · exact decide_eq_true fun heq => hcolon (heq ▸ hkey)
    · rw [(List.mem_replicate.mp hblank).2]
      decide
  rw [valueOf, labelOf, List.append_assoc, List.dropWhile_append_of_pos hfront]
  rfl

/-- A labelled line with the key of a row is the label and a value. -/
theorem IsKey.line_eq {row : CmdTrans} (hkey : IsKey row) {line : List Char}
    (hline : Labelled line) (heq : keyOf line = row.key) :
    line = labelOf row.key ++ valueOf line := by
  rcases hline with ⟨value, hvalue⟩
  rw [heq] at hvalue
  rw [← hvalue, valueOf_labelOf_append hkey.colon]

theorem IsKey.length_line {row : CmdTrans} (hkey : IsKey row) {line : List Char}
    (hline : line = labelOf row.key ++ valueOf line) :
    line.length = 11 + (valueOf line).length := by
  conv_lhs => rw [hline, List.length_append, length_labelOf hkey.length_le]

/-- The second word of a labelled line is the colon. -/
theorem IsKey.skipWord_label {row : CmdTrans} (hkey : IsKey row) (hfield : row.nfields = 1)
    (rest : List Char) :
    ∃ blanks, skipWord (labelOf row.key ++ rest) =
      some (List.replicate blanks ' ' ++ ':' :: ' ' :: rest) := by
  have hlength := hkey.length_le_of_field hfield
  have hblanks : 9 - row.key.length = (8 - row.key.length) + 1 := by omega
  refine ⟨(8 - row.key.length) + 1, ?_⟩
  have hword := skipWord_append_space hkey.word hkey.ne_nil (c := ' ') rfl
    (List.replicate (8 - row.key.length) ' ' ++ ':' :: ' ' :: rest)
  rw [labelOf, hblanks]
  simpa [List.replicate_succ] using hword

/-- The third word of a labelled line is the first of its value. -/
theorem IsKey.thirdWord_label {row : CmdTrans} (hkey : IsKey row) (hfield : row.nfields = 1)
    (rest : List Char) :
    thirdWord (labelOf row.key ++ rest) =
      if skipSpace rest = [] then none else some (skipSpace rest) := by
  rcases hkey.skipWord_label hfield rest with ⟨blanks, hsecond⟩
  have hthird : skipWord (List.replicate blanks ' ' ++ ':' :: ' ' :: rest) =
      some (' ' :: rest) := by
    have hcolon : skipWord ([':'] ++ ' ' :: rest) = some (' ' :: rest) :=
      skipWord_append_space (by decide) (by decide) rfl rest
    rw [skipWord, skipSpace_replicate_append]
    exact hcolon
  rw [thirdWord, hsecond, Option.bind_some, hthird, Option.bind_some,
    skipSpace_cons_of_isspace rfl]

/-! ## Reading the own line -/

section Reading

variable {buffer : StatusBuffer} {row : CmdTrans} {answer : List Char} {anslen : ℕ}
  {front line rest : List Char}

theorem IsKey.newline_not_mem (hkey : IsKey row) : '\n' ∉ row.key :=
  fun hmem => absurd (hkey.word _ hmem) (by decide)

/-- The result of a request whose keyword occurs in the text. -/
theorem getupsvar_of_find (hrow : row ∈ cmdtrans) {find : List Char}
    (hfind : strstr row.key buffer.text = some find) :
    getupsvar buffer row.request answer anslen =
      (decide (row.answerFrom buffer answer anslen find ≠ "N/A".toList),
        row.answerFrom buffer answer anslen find) := by
  unfold getupsvar
  rw [findRow_request row hrow]
  dsimp only
  rw [hfind]
  dsimp only
  split_ifs with hna
  · rw [decide_eq_false (not_not_intro hna)]
  · rw [decide_eq_true hna]

theorem getupsvar_of_not_found (hrow : row ∈ cmdtrans)
    (hfind : strstr row.key buffer.text = none) :
    getupsvar buffer row.request answer anslen = (false, notFound anslen) := by
  unfold getupsvar
  rw [findRow_request row hrow]
  dsimp only
  rw [hfind]

/-- A keyword that occurs nowhere before its line is found there. -/
theorem strstr_ownLine (hkey : IsKey row) (hat : LineAt '\n' buffer.text front line rest)
    (hstarts : row.key <+: line) (hfirst : ¬ row.key <:+: front) :
    strstr row.key buffer.text = some (line ++ '\n' :: rest) := by
  have hfound : row.key <+: line ++ '\n' :: rest := hstarts.trans (List.prefix_append _ _)
  rcases hat.starts with rfl | ⟨earlier, rfl⟩
  · rw [hat.eq]
    exact strstr_of_isPrefix hfound
  · rw [hat.eq, List.append_assoc, List.append_assoc]
    exact strstr_append_of_not_isInfix hkey.newline_not_mem hfirst hfound

/-- What is copied from the own line for a single field. -/
theorem field_ownLine (hkey : IsKey row) (hfield : row.nfields = 1)
    (hat : LineAt '\n' buffer.text front line rest)
    (hline : line = labelOf row.key ++ valueOf line)
    (hword : ∃ c ∈ valueOf line, isspace c = false) :
    ∃ start, row.start buffer (line ++ '\n' :: rest) = some start ∧
      row.copied buffer anslen start = row.given (valueOf line) anslen ∧
      front.length + 11 ≤ start ∧
      start + (row.given (valueOf line) anslen).length ≤ front.length + line.length := by
  have hthird : thirdWord (line ++ '\n' :: rest) =
      some (skipSpace (valueOf line) ++ '\n' :: rest) := by
    conv_lhs => rw [hline, List.append_assoc]
    rw [hkey.thirdWord_label hfield, skipSpace_append hword, if_neg (by simp)]
  have hskipped := skipSpace_suffix (valueOf line)
  have hsuffix : skipSpace (valueOf line) ++ '\n' :: rest <:+ line ++ '\n' :: rest := by
    exact List.suffix_append_self_iff.mpr (hskipped.trans ⟨labelOf row.key, hline.symm⟩)
  have hlength := hkey.length_line hline
  have hle := hskipped.length_le
  have htext := hat.length_eq
  refine ⟨buffer.text.length - (skipSpace (valueOf line) ++ '\n' :: rest).length, ?_, ?_, ?_, ?_⟩
  · rw [CmdTrans.start, if_pos hfield, hthird, Option.map_some]
  · rw [CmdTrans.copied, if_pos hfield, hat.drop_eq hsuffix, frontWord_append_space _ rfl,
      CmdTrans.given, if_pos hfield]
  · simp only [List.length_append, List.length_cons]
    omega
  · have hgiven : (row.given (valueOf line) anslen).length ≤ (skipSpace (valueOf line)).length := by
      rw [CmdTrans.given, if_pos hfield]
      exact ((List.take_prefix _ _).trans (List.takeWhile_prefix _)).length_le
    simp only [List.length_append, List.length_cons]
    omega

/-- What is copied from the own line for everything on it. -/
theorem restOfLine_ownLine (hkey : IsKey row) (hfield : row.nfields ≠ 1)
    (hat : LineAt '\n' buffer.text front line rest)
    (hline : line = labelOf row.key ++ valueOf line) (hnul : nul ∉ buffer.text) :
    ∃ start, row.start buffer (line ++ '\n' :: rest) = some start ∧
      row.copied buffer anslen start = row.given (valueOf line) anslen ∧
      front.length + 11 ≤ start ∧
      start + (row.given (valueOf line) anslen).length ≤ front.length + line.length := by
  have hlength := hkey.length_line hline
  have htext := hat.length_eq
  have hstart : buffer.text.length - (line ++ '\n' :: rest).length + 11 = front.length + 11 := by
    simp only [List.length_append, List.length_cons]
    omega
  have hmemory : buffer.memory.drop (front.length + 11) =
      valueOf line ++ '\n' :: (rest ++ buffer.beyond) := by
    have hsplit : buffer.memory =
        (front ++ labelOf row.key) ++ (valueOf line ++ '\n' :: (rest ++ buffer.beyond)) := by
      rw [StatusBuffer.memory, hat.eq]
      conv_lhs => rw [hline]
      simp
    rw [hsplit]
    refine List.drop_left' ?_
    rw [List.length_append, length_labelOf hkey.length_le]
  have hmem : ∀ c ∈ valueOf line, c ≠ '\n' ∧ c ≠ nul := by
    intro c hc
    have hcline : c ∈ line := hline ▸ List.mem_append_right _ hc
    constructor
    · rintro rfl
      exact hat.oneLine hcline
    · rintro rfl
      exact hnul (hat.eq ▸ List.mem_append_left _ (List.mem_append_right _ hcline))
  refine ⟨front.length + 11, ?_, ?_, le_refl _, ?_⟩
  · rw [CmdTrans.start, if_neg hfield, hstart]
  · rw [CmdTrans.copied, if_neg hfield, hmemory, CmdTrans.given, if_neg hfield,
      List.takeWhile_append_of_pos (fun c hc => by simp [(hmem c hc).1]),
      List.takeWhile_cons_of_neg (by simp), List.append_nil]
    refine List.takeWhile_eq_self_iff.mpr fun c hc => ?_
    simp [(hmem c (List.mem_of_mem_take hc)).2]
  · have hgiven : (row.given (valueOf line) anslen).length ≤ (valueOf line).length := by
      rw [CmdTrans.given, if_neg hfield]
      exact (List.take_prefix _ _).length_le
    omega

/-! ## Reading another line -/

/-- A search that stops before the line of the keyword never reaches the value on it. -/
theorem answerStart_lt_of_isInfix (hkey : IsKey row)
    (hat : LineAt '\n' buffer.text front line rest)
    (hline : line = labelOf row.key ++ valueOf line) (hbefore : row.key <:+: front) {start : ℕ}
    (hstart : answerStart buffer row = some start) : start < front.length + 11 := by
  have htext := hat.length_eq
  have hlength := hkey.length_line hline
  rcases hat.starts with rfl | ⟨earlier, rfl⟩
  · exact absurd (List.infix_nil.mp hbefore) hkey.ne_nil
  · have hinner := isInfix_of_isInfix_append_singleton hkey.newline_not_mem hbefore
    rcases strstr_append_cons_of_isInfix hkey.newline_not_mem hinner (line ++ '\n' :: rest) with
      ⟨found, hfind, hfound⟩
    have hsplit : buffer.text = earlier ++ '\n' :: (line ++ '\n' :: rest) := by
      rw [hat.eq]
      simp
    rw [answerStart, hsplit, hfind, Option.bind_some] at hstart
    unfold CmdTrans.start at hstart
    split_ifs at hstart with hfield
    · -- The search skips the rest of its own word and, at the most, the keyword of the line.
      rcases Option.map_eq_some_iff.mp hstart with ⟨word, hthird, rfl⟩
      have hword : ∃ c ∈ found, isspace c = false := by
        rcases List.exists_mem_of_ne_nil _ hkey.ne_nil with ⟨c, hc⟩
        exact ⟨c, hfound.subset hc, hkey.word c hc⟩
      have hnewline : isspace '\n' = true := rfl
      rcases skipWord_append hword hnewline (line ++ '\n' :: rest) with
        ⟨second, hsecond, hafter⟩
      rcases hkey.skipWord_label hfield (valueOf line ++ '\n' :: rest) with ⟨blanks, hlabel⟩
      have hown : skipWord ('\n' :: (line ++ '\n' :: rest)) =
          some (List.replicate blanks ' ' ++ ':' :: ' ' :: (valueOf line ++ '\n' :: rest)) := by
        rw [skipWord_cons_of_isspace hnewline, ← hlabel, ← List.append_assoc, ← hline]
      rcases skipWord_mono hafter hown with ⟨third, hsecondWord, hlate⟩
      have hcolon := skipSpace_mono hlate
      rw [skipSpace_replicate_append, skipSpace_cons_of_not_isspace rfl] at hcolon
      rw [thirdWord, hsecond, Option.bind_some, hsecondWord, Option.bind_some] at hthird
      rcases ite_eq_iff.mp hthird with ⟨-, hnone⟩ | ⟨-, hsome⟩
      · cases hnone
      · have hle := hcolon.length_le
        rw [Option.some.inj hsome] at hle
        simp only [List.length_append, List.length_cons, List.length_nil] at hle htext ⊢
        omega
    · obtain rfl := Option.some.inj hstart
      simp only [List.length_append, List.length_cons, List.length_nil] at htext ⊢
      omega

/-! ## When the answer is that of the own line -/

/-- There is something to read in the value, and it does not say that there is nothing. -/
def CmdTrans.Readable (row : CmdTrans) (value : List Char) (anslen : ℕ) : Prop :=
  (row.nfields = 1 → ∃ c ∈ value, isspace c = false) ∧
    row.given value anslen ≠ "N/A".toList

/-- What follows a place of the text says that there is nothing: its third word, or the line
from its twelfth character on. -/
def CmdTrans.SaysNothing (row : CmdTrans) (buffer : StatusBuffer) (answer : List Char)
    (anslen : ℕ) (find : List Char) : Prop :=
  if row.nfields = 1 then
    match thirdWord find with
    | some word => (frontWord word).take anslen = "N/A".toList
    | none => answer = "N/A".toList
  else
    (((find ++ buffer.beyond).drop 11).takeWhile (· ≠ '\n') |>.take (anslen - 1)).takeWhile
      (· ≠ nul) = "N/A".toList

/-- The keyword occurs first at the front of its line, which can be read; or it has no line,
and it occurs nowhere, or first before something that says that there is nothing. -/
def OwnLineFirst (buffer : StatusBuffer) (row : CmdTrans) (answer : List Char) (anslen : ℕ) :
    Prop :=
  (∃ front line rest, LineAt '\n' buffer.text front line rest ∧ keyOf line = row.key ∧
      ¬ row.key <:+: front ∧ row.Readable (valueOf line) anslen) ∨
    (¬ HasLine buffer.text row.key ∧
      ∀ find, strstr row.key buffer.text = some find →
        row.SaysNothing buffer answer anslen find)

theorem IsKey.isPrefix_line (hkey : IsKey row) (hlabelled : Labelled line)
    (heq : keyOf line = row.key) : row.key <+: line := by
  rw [hkey.line_eq hlabelled heq, labelOf, List.append_assoc, List.append_assoc]
  exact List.prefix_append _ _

theorem getupsvar_ownLine (hrow : row ∈ cmdtrans)
    (hat : LineAt '\n' buffer.text front line rest) (hlabelled : Labelled line)
    (heq : keyOf line = row.key) (hnul : nul ∉ buffer.text) (hfirst : ¬ row.key <:+: front)
    (hreadable : row.Readable (valueOf line) anslen) :
    (getupsvar buffer row.request answer anslen).1 = true ∧
      TakenFrom buffer row (getupsvar buffer row.request answer anslen).2 anslen front line := by
  have hkey := cmdtrans_isKey row hrow
  have hline := hkey.line_eq hlabelled heq
  have hfind := strstr_ownLine hkey hat (hkey.isPrefix_line hlabelled heq) hfirst
  have hplace : ∃ start, row.start buffer (line ++ '\n' :: rest) = some start ∧
      row.copied buffer anslen start = row.given (valueOf line) anslen ∧
      front.length + 11 ≤ start ∧
      start + (row.given (valueOf line) anslen).length ≤ front.length + line.length := by
    by_cases hfield : row.nfields = 1
    · exact field_ownLine hkey hfield hat hline (hreadable.1 hfield)
    · exact restOfLine_ownLine hkey hfield hat hline hnul
  rcases hplace with ⟨start, hstart, hcopied, hge, hle⟩
  have hanswer : row.answerFrom buffer answer anslen (line ++ '\n' :: rest) =
      row.given (valueOf line) anslen := by
    rw [CmdTrans.answerFrom, hstart]
    exact hcopied
  have hlength := hkey.length_line hline
  rw [getupsvar_of_find hrow hfind, hanswer]
  refine ⟨decide_eq_true hreadable.2, heq, rfl, start, ?_, ?_, hle⟩
  · rw [answerStart, hfind, Option.bind_some, hstart, Option.mem_def]
  · omega

/-- If the answer was taken from the line of the keyword, the keyword occurs nowhere before
it, and the line can be read. -/
theorem TakenFrom.ownLineFirst (hrow : row ∈ cmdtrans)
    (hat : LineAt '\n' buffer.text front line rest) (hlabelled : Labelled line)
    (hfound : (getupsvar buffer row.request answer anslen).1 = true)
    (htaken : TakenFrom buffer row (getupsvar buffer row.request answer anslen).2 anslen
      front line) :
    ¬ row.key <:+: front ∧ row.Readable (valueOf line) anslen := by
  have hkey := cmdtrans_isKey row hrow
  have hline := hkey.line_eq hlabelled htaken.key
  have hlength := hkey.length_line hline
  rcases htaken.place with ⟨start, hstart, hge, hle⟩
  have hfirst : ¬ row.key <:+: front := by
    intro hbefore
    have hlt := answerStart_lt_of_isInfix hkey hat hline hbefore hstart
    omega
  have hfind := strstr_ownLine hkey hat (hkey.isPrefix_line hlabelled htaken.key) hfirst
  refine ⟨hfirst, ?_, ?_⟩
  · intro hfield
    by_contra hnone
    -- Without a word on the line the third word stands on a later one.
    have hspace : ∀ c ∈ valueOf line, isspace c = true := by
      intro c hc
      exact Bool.eq_true_of_not_eq_false fun hfalse => hnone ⟨c, hc, hfalse⟩
    have hthird : thirdWord (line ++ '\n' :: rest) =
        if skipSpace rest = [] then none else some (skipSpace rest) := by
      conv_lhs => rw [hline, List.append_assoc]
      rw [hkey.thirdWord_label hfield, skipSpace_append_of_isspace hspace,
        skipSpace_cons_of_isspace rfl]
    rw [Option.mem_def, answerStart, hfind, Option.bind_some, CmdTrans.start, if_pos hfield,
      hthird] at hstart
    rcases Option.map_eq_some_iff.mp hstart with ⟨word, hword, rfl⟩
    rcases ite_eq_iff.mp hword with ⟨-, hnil⟩ | ⟨-, hsome⟩
    · cases hnil
    · have hshort := (skipSpace_suffix rest).length_le
      have htext := hat.length_eq
      rw [Option.some.inj hsome] at hshort
      omega
  · rw [← htaken.given]
    rw [getupsvar_of_find hrow hfind] at hfound ⊢
    exact of_decide_eq_true hfound

theorem answerFrom_eq_iff {find : List Char} (hfind : find <:+ buffer.text) :
    row.answerFrom buffer answer anslen find = "N/A".toList ↔
      row.SaysNothing buffer answer anslen find := by
  unfold CmdTrans.answerFrom CmdTrans.SaysNothing CmdTrans.start CmdTrans.copied
  split_ifs with hfield
  · cases hthird : thirdWord find with
    | none => rfl
    | some word =>
        have hword := List.suffix_iff_eq_drop.mp ((thirdWord_suffix hthird).trans hfind)
        simp only [Option.map_some]
        rw [← hword]
  · rcases hfind with ⟨front, htext⟩
    have hplace : buffer.text.length - find.length = front.length := by
      rw [← htext, List.length_append, Nat.add_sub_cancel]
    have hmemory : buffer.memory.drop (front.length + 11) = (find ++ buffer.beyond).drop 11 := by
      rw [StatusBuffer.memory, ← htext, List.append_assoc, ← List.drop_drop, List.drop_left]
    simp only [hplace, hmemory]

theorem readsOwnLine_iff (hrow : row ∈ cmdtrans)
    (hlabelled : EveryLine '\n' Labelled buffer.text) (hnul : nul ∉ buffer.text) :
    ReadsOwnLine buffer row answer anslen ↔ OwnLineFirst buffer row answer anslen := by
  constructor
  · rintro ⟨hfound, htaken⟩
    by_cases hhas : HasLine buffer.text row.key
    · rcases htaken (hfound.mpr hhas) with ⟨front, line, rest, hat, htaken⟩
      exact Or.inl ⟨front, line, rest, hat, htaken.key,
        htaken.ownLineFirst hrow hat (hlabelled front line rest hat) (hfound.mpr hhas)⟩
    · refine Or.inr ⟨hhas, fun find hfind => ?_⟩
      rcases strstr_eq_some_iff.mp hfind with ⟨before, htext, -, -⟩
      refine (answerFrom_eq_iff ⟨before, htext.symm⟩).mp ?_
      by_contra hna
      refine hhas (hfound.mp ?_)
      rw [getupsvar_of_find hrow hfind]
      exact decide_eq_true hna
  · rintro (⟨front, line, rest, hat, heq, hfirst, hreadable⟩ | ⟨hhas, hnowhere⟩)
    · have hown : (getupsvar buffer row.request answer anslen).1 = true ∧
          TakenFrom buffer row (getupsvar buffer row.request answer anslen).2 anslen front line :=
        getupsvar_ownLine hrow hat (hlabelled front line rest hat) heq hnul hfirst hreadable
      exact ⟨⟨fun _ => ⟨front, line, rest, hat, heq⟩, fun _ => hown.1⟩,
        fun _ => ⟨front, line, rest, hat, hown.2⟩⟩
    · have hfalse : (getupsvar buffer row.request answer anslen).1 = false := by
        cases hfind : strstr row.key buffer.text with
        | none => rw [getupsvar_of_not_found hrow hfind]
        | some find =>
            rcases strstr_eq_some_iff.mp hfind with ⟨before, htext, -, -⟩
            have hna := (answerFrom_eq_iff ⟨before, htext.symm⟩).mpr (hnowhere find hfind)
            rw [getupsvar_of_find hrow hfind]
            exact decide_eq_false (not_not_intro hna)
      rw [ReadsOwnLine, hfalse]
      exact ⟨⟨fun htrue => absurd htrue Bool.false_ne_true, fun hline => absurd hline hhas⟩,
        fun htrue => absurd htrue Bool.false_ne_true⟩

end Reading

/-! ## The report in the buffer of a slave -/

/-- What {lit}`poll_ups` collects of the texts of these messages. -/
def slaveBuffer (messages : List (List Char)) : List Char :=
  messages.foldl (fun statbuf message => strlcat statbuf message statbufSize) []

theorem collectStatus_eq (messages : List (List UInt8)) :
    collectStatus messages = slaveBuffer (messages.map textOf) := by
  rw [collectStatus, slaveBuffer, List.foldl_map]

/-- A text that fits is collected whole. -/
theorem slaveBuffer_eq_flatten {messages : List (List Char)}
    (hfits : messages.flatten.length < statbufSize) : slaveBuffer messages = messages.flatten := by
  have hfold : ∀ statbuf : List Char, (statbuf ++ messages.flatten).length < statbufSize →
      messages.foldl (fun statbuf message => strlcat statbuf message statbufSize) statbuf =
        statbuf ++ messages.flatten := by
    clear hfits
    induction messages with
    | nil => simp
    | cons message messages ih =>
        intro statbuf hfits
        have hroom : message.length ≤ statbufSize - 1 - statbuf.length := by
          simp only [List.flatten_cons, List.length_append] at hfits
          omega
        rw [List.foldl_cons, strlcat, List.take_of_length_le hroom, ih, List.flatten_cons,
          List.append_assoc]
        simpa using hfits
  exact hfold [] hfits

/-- The buffer of a slave that has received a report. -/
def reportBuffer (host : Host) (ups : StatusUps) (beyond : List Char) : StatusBuffer where
  text := slaveBuffer (statusMessages host ups)
  beyond := nul :: beyond

/-- For every request and every report that fits, the slave reads the line of the keyword if
and only if the keyword occurs nowhere before it and there is something to read. -/
theorem getupsvar_ownLine_iff {host : Host} {ups : StatusUps}
    (htexts : ∀ text ∈ reportedTexts host ups, OneLine text)
    (hfits : (statusText host ups).length < statbufSize) {row : CmdTrans}
    (hrow : row ∈ cmdtrans) (beyond answer : List Char) (anslen : ℕ) :
    ReadsOwnLine (reportBuffer host ups beyond) row answer anslen ↔
      OwnLineFirst (reportBuffer host ups beyond) row answer anslen := by
  have htext : (reportBuffer host ups beyond).text = statusText host ups :=
    slaveBuffer_eq_flatten hfits
  refine readsOwnLine_iff hrow ?_ ?_
  · rw [htext]
    exact statusText_labelled htexts
  · rw [htext]
    exact statusText_nul_not_mem htexts

/-! ## Examples of runs -/

def sampleHost : Host where
  time := 1000
  localtime := fun _ =>
    { year := 2024, mon := 1, mday := 2, hour := 3, min := 4, sec := 5, gmtoffMinutes := 60 }
  gethostname := "box".toList
  apcupsdHost := "debian".toList

/-- A UPS that reports the highest line voltage, and not the present one. -/
def peakOnlyUps : StatusUps where
  toUpsInfo := { newUps (defaultConfig 0) with upsCap := fun ci => decide (ci = .vmax) }
  toReportFields := { ReportFields.zero with lineMax := .finite 240 }
  cable := "USB Cable".toList
  mode := "USB UPS Driver".toList
  upsclass := "Stand Alone".toList
  sharenetDisabled := true
  sharenet := []
  lastMasterConnectTime := 0
  masterName := []

/-- The text in the buffer of a slave after its report. -/
def peakOnlyText : List Char :=
  (reportBuffer sampleHost peakOnlyUps []).text

/-- The report has a line for the highest line voltage, at character 303, and none for the
present one. -/
theorem peakOnlyText_lines :
    (statusText sampleHost peakOnlyUps).length < statbufSize ∧
      peakOnlyText = (peakOnlyText.take 302 ++ ['\n']) ++ "MAXLINEV : 240.0 Volts".toList ++
        '\n' :: peakOnlyText.drop 326 ∧
      ¬ "MAXLINEV".toList <:+: peakOnlyText.take 302 ++ ['\n'] ∧
      ¬ "LINEV".toList <+: peakOnlyText ∧ ¬ '\n' :: "LINEV".toList <:+: peakOnlyText ∧
      getupsvar (reportBuffer sampleHost peakOnlyUps []) "utility" [] 200 =
        (true, "240.0".toList) := by
  decide +kernel

/-- A slave reads the highest line voltage from its own line. -/
theorem linemax_ownLine :
    ReadsOwnLine (reportBuffer sampleHost peakOnlyUps []) ⟨"linemax", "MAXLINEV", 1⟩ [] 200 := by
  rcases peakOnlyText_lines with ⟨hfits, hsplit, hfirst, -, -, -⟩
  refine (getupsvar_ownLine_iff (by decide +kernel) hfits (by decide +kernel) [] [] 200).mpr ?_
  refine Or.inl ⟨peakOnlyText.take 302 ++ ['\n'], "MAXLINEV : 240.0 Volts".toList,
    peakOnlyText.drop 326, ⟨hsplit, Or.inr ⟨_, rfl⟩, by decide⟩, by decide, hfirst, ?_,
    by decide +kernel⟩
  exact fun _ => ⟨'2', by decide +kernel, rfl⟩

/-- It takes it for the present one, too, which is not reported. -/
theorem utility_reads_maxlinev :
    (∀ text ∈ reportedTexts sampleHost peakOnlyUps, OneLine text) ∧
      (statusText sampleHost peakOnlyUps).length < statbufSize ∧
      ⟨"utility", "LINEV", 1⟩ ∈ cmdtrans ∧
      getupsvar (reportBuffer sampleHost peakOnlyUps []) "utility" [] 200 =
        (true, "240.0".toList) ∧
      ¬ HasLine (reportBuffer sampleHost peakOnlyUps []).text "LINEV".toList ∧
      ¬ ReadsOwnLine (reportBuffer sampleHost peakOnlyUps []) ⟨"utility", "LINEV", 1⟩ [] 200 := by
  rcases peakOnlyText_lines with ⟨hfits, -, -, hstart, hinside, hanswer⟩
  have hnone : ¬ HasLine (reportBuffer sampleHost peakOnlyUps []).text "LINEV".toList := by
    rintro ⟨front, line, rest, hat, heq⟩
    have hstarts : "LINEV".toList <+: line :=
      heq ▸ (List.rdropWhile_prefix _ _).trans (List.takeWhile_prefix _)
    exact (hat.isInfix_of_isPrefix hstarts).elim hstart hinside
  refine ⟨by decide +kernel, hfits, by decide +kernel, hanswer, hnone, ?_⟩
  intro hreads
  exact hnone (hreads.1.mp (congrArg Prod.fst hanswer))

end Apcupsd
