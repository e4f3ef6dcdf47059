import Apcupsd.Foundations.CopyLoop
import Apcupsd.Nis.GetUpsVar

/-!
# The bounds of a lookup

What {lit}`getupsvar` reads of the status text and writes to the answer: that of the slave in
{lit}`drivers/net/net.c`, and that of the web pages in {lit}`cgi/upsfetch.c`, which is older.

Main results:

- Definition {lit}`Lookup.accesses`: both of them, position by position.
- Theorem {lit}`inside_copyRest_iff`: when the copy of the rest of a line stays inside.
- Theorem {lit}`getupsvar_inBounds_iff`: both lookups stay inside their buffers exactly if the
  text behind the keyword is long enough, and the answer is short enough.
- Theorem {lit}`FitsSlave.getupsvar_eq`: then the answer of the slave does not depend on what
  lies behind the terminator.
-/

namespace Apcupsd

open CStrings CopyLoop

/-! ## The lookups -/

/-- {lit}`cmdtrans` of {lit}`upsfetch.c`, without the row that ends it. -/
def cgiCmdtrans : List CmdTrans :=
  [⟨"model", "MODEL", 0⟩,
    ⟨"upsmodel", "UPSMODEL", 0⟩,
    ⟨"date", "DATE", 0⟩,
    ⟨"battcap", "BCHARGE", 1⟩,
    ⟨"mbattchg", "MBATTCHG", 1⟩,
    ⟨"battvolt", "BATTV", 1⟩,
    ⟨"nombattv", "NOMBATTV", 1⟩,
    ⟨"utility", "LINEV", 1⟩,
    ⟨"upsload", "LOADPCT", 1⟩,
    ⟨"loadpct", "LOADPCT", 1⟩,
    ⟨"outputv", "OUTPUTV", 1⟩,
    ⟨"status", "STATFLAG", 1⟩,
    ⟨"linemin", "MINLINEV", 1⟩,
    ⟨"linemax", "MAXLINEV", 1⟩,
    ⟨"upstemp", "ITEMP", 1⟩,
    ⟨"humidity", "HUMIDITY", 1⟩,
    ⟨"ambtemp", "AMBTEMP", 1⟩,
    ⟨"outputfreq", "LINEFREQ", 1⟩,
    ⟨"translo", "LOTRANS", 1⟩,
    ⟨"transhi", "HITRANS", 1⟩,
    ⟨"runtime", "TIMELEFT", 1⟩,
    ⟨"mintimel", "MINTIMEL", 1⟩,
    ⟨"retpct", "RETPCT", 1⟩,
    ⟨"sense", "SENSE", 1⟩,
    ⟨"hostname", "HOSTNAME", 1⟩,
    ⟨"battdate", "BATTDATE", 1⟩,
    ⟨"serialno", "SERIALNO", 1⟩,
    ⟨"lastxfer", "LASTXFER", 0⟩,
    ⟨"selftest", "SELFTEST", 1⟩,
    ⟨"laststest", "LASTSTEST", 0⟩,
    ⟨"version", "VERSION", 1⟩,
    ⟨"upsname", "UPSNAME", 1⟩,
    ⟨"lowbatt", "DLOWBATT", 1⟩,
    ⟨"battpct", "BCHARGE", 1⟩,
    ⟨"highxfer", "HITRANS", 1⟩,
    ⟨"lowxfer", "LOTRANS", 1⟩,
    ⟨"cable", "CABLE", 0⟩,
    ⟨"firmware", "FIRMWARE", 0⟩]

/-- How a lookup differs from another: its table, the width of the field that {lit}`sscanf` is
given, whether there is room for another character of a line, and the bytes that are written
if nothing is found. -/
structure Lookup where
  table : List CmdTrans
  width : Option ℕ
  room : ℕ → Bool
  notFound : ℕ

/-- {lit}`NetUpsDriver::getupsvar`: {lit}`%<anslen>s`, {lit}`i < anslen - 1`, and
{lit}`strlcpy`. -/
def slaveLookup (anslen : ℕ) : Lookup where
  table := cmdtrans
  width := some anslen
  room i := i < anslen - 1
  notFound := min "Not found".length (anslen - 1) + 1

/-- {lit}`getupsvar` of the web pages: {lit}`%s`, no check, and {lit}`strncpy`, which fills the
answer up. -/
def cgiLookup (anslen : ℕ) : Lookup where
  table := cgiCmdtrans
  width := none
  room _ := true
  notFound := anslen

namespace Lookup

variable (lookup : Lookup)

/-- The row for a request: the last one that matches. -/
def findRow (request : String) : Option CmdTrans :=
  lookup.table.foldl (fun found row => if row.request = request then some row else found) none

/-- The bytes that {lit}`sscanf` writes for a word, with the terminator. -/
def fieldSize (word : List Char) : ℕ :=
  match lookup.width with
  | none => word.length + 1
  | some width => min word.length width + 1

/-- The accesses of a lookup.  The functions of the C library read a string as far as its
terminator. -/
def accesses (buffer : CString) (request : String) (fuel : ℕ) : Accesses :=
  let whole := List.range (buffer.text.length + 1)
  match lookup.findRow request with
  | none => ⟨[], lookup.notFound⟩
  | some row =>
      match strstr row.key buffer.text with
      | none => ⟨whole, lookup.notFound⟩
      | some find =>
          if row.nfields = 1 then
            match thirdWord find with
            | none => ⟨whole, 0⟩
            | some word => ⟨whole, lookup.fieldSize (frontWord word)⟩
          else
            -- skip the label
            let copied := copyLoop buffer.memory '\n' lookup.room fuel
              (buffer.text.length - find.length + 11) 0
            ⟨whole ++ copied.reads, copied.written⟩

end Lookup

/-- {lit}`NetUpsDriver::getupsvar`. -/
def slaveAccesses (buffer : CString) (request : String) (anslen fuel : ℕ) : Accesses :=
  (slaveLookup anslen).accesses buffer request fuel

/-- {lit}`getupsvar` of the web pages fetches the data first; if that fails, the answer is
{lit}`N/A`. -/
def cgiAccesses (fetched : Bool) (buffer : CString) (request : String) (anslen fuel : ℕ) :
    Accesses :=
  if fetched then (cgiLookup anslen).accesses buffer request fuel else ⟨[], anslen⟩

/-- At no time has the lookup read a byte behind the terminator, or written more bytes than the
answer has. -/
def InBounds (buffer : CString) (anslen : ℕ) (run : ℕ → Accesses) : Prop :=
  ∀ fuel, (∀ p ∈ (run fuel).reads, p ≤ buffer.text.length) ∧ (run fuel).written ≤ anslen

/-! ## The parts of a lookup -/

namespace Lookup

section Parts

variable {lookup : Lookup} {buffer : CString} {row : CmdTrans} {request : String} {anslen : ℕ}

/-- A lookup that leaves the text to the C library is a matter of the answer alone. -/
theorem inBounds_whole_iff {written : ℕ} :
    InBounds buffer anslen (fun _ => ⟨List.range (buffer.text.length + 1), written⟩) ↔
      written ≤ anslen := by
  constructor
  · intro hin
    exact (hin 0).2
  · intro hwritten _
    exact ⟨fun p hp => Nat.le_of_lt_succ (List.mem_range.mp hp), hwritten⟩

theorem inBounds_of_not_found (hrow : lookup.findRow request = some row)
    (hfind : strstr row.key buffer.text = none) :
    InBounds buffer anslen (lookup.accesses buffer request) ↔ lookup.notFound ≤ anslen := by
  have hrun : lookup.accesses buffer request =
      fun _ => ⟨List.range (buffer.text.length + 1), lookup.notFound⟩ := by
    funext fuel
    simp only [accesses, hrow, hfind]
  rw [hrun, inBounds_whole_iff]

theorem inBounds_of_field (hrow : lookup.findRow request = some row) {find : List Char}
    (hfind : strstr row.key buffer.text = some find) (hfield : row.nfields = 1) :
    InBounds buffer anslen (lookup.accesses buffer request) ↔
      ∀ word ∈ thirdWord find, lookup.fieldSize (frontWord word) ≤ anslen := by
  cases hword : thirdWord find with
  | none =>
      have hrun : lookup.accesses buffer request =
          fun _ => ⟨List.range (buffer.text.length + 1), 0⟩ := by
        funext fuel
        simp only [accesses, hrow, hfind, if_pos hfield, hword]
      rw [hrun, inBounds_whole_iff]
      simp
  | some word =>
      have hrun : lookup.accesses buffer request =
          fun _ => ⟨List.range (buffer.text.length + 1), lookup.fieldSize (frontWord word)⟩ := by
        funext fuel
        simp only [accesses, hrow, hfind, if_pos hfield, hword]
      rw [hrun, inBounds_whole_iff]
      simp

/-- The rest of a line is a matter of the loop that copies it. -/
theorem inBounds_of_rest (hrow : lookup.findRow request = some row) {find : List Char}
    (hfind : strstr row.key buffer.text = some find) (hrest : row.nfields ≠ 1) :
    InBounds buffer anslen (lookup.accesses buffer request) ↔
      Inside buffer.memory '\n' lookup.room (buffer.text.length - find.length + 11)
        buffer.text.length anslen := by
  simp only [InBounds, Inside, accesses, hrow, hfind, if_neg hrest, List.mem_append,
    List.mem_range, Nat.lt_succ_iff]
  constructor
  · intro hinside fuel
    exact ⟨fun p hp => (hinside fuel).1 p (Or.inr hp), (hinside fuel).2⟩
  · intro hinside fuel
    refine ⟨fun p hp => ?_, (hinside fuel).2⟩
    rcases hp with hwhole | hcopied
    · exact hwhole
    · exact (hinside fuel).1 p hcopied

end Parts

end Lookup

/-! ## The rest of a line -/

section Rest

variable {buffer : CString} {find : List Char} {room : ℕ → Bool} {anslen : ℕ}

/-- Behind the label stands the rest of the text. -/
theorem drop_label {text find : List Char} (hsuffix : find <:+ text) :
    text.drop (text.length - find.length + 11) = find.drop 11 := by
  rcases hsuffix with ⟨front, htext⟩
  rw [← htext, List.length_append, Nat.add_sub_cancel, ← List.drop_drop, List.drop_left]

/-- The copy of the rest of a line stays inside exactly if the label does, and if the loop finds
the end of the line or has no more room before the text ends. -/
theorem inside_copyRest_iff (hsuffix : find <:+ buffer.text) :
    Inside buffer.memory '\n' room (buffer.text.length - find.length + 11) buffer.text.length
        anslen ↔
      ∃ k, 11 + k ≤ find.length ∧ k < anslen ∧
        ((find.drop 11)[k]? = some '\n' ∨ room k = false) := by
  have hle := hsuffix.length_le
  rw [copyLoop_inside_iff]
  constructor
  · rintro ⟨k, hstops, hlast, hn⟩
    refine ⟨k, by omega, hn, ?_⟩
    have hreason := (Decidable.not_and_iff_not_or_not.mp hstops)
    rw [not_not, buffer.memory_eq_iff (by decide) hlast, drop_label hsuffix] at hreason
    simpa using hreason
  · rintro ⟨k, hlabel, hn, hreason⟩
    refine ⟨k, fun hgoes => ?_, by omega, hn⟩
    have hmemory := @CString.memory_eq_iff buffer (buffer.text.length - find.length + 11) k '\n'
      (by decide) (by omega)
    rw [drop_label hsuffix] at hmemory
    rcases hreason with hnewline | hroom
    · exact hgoes.1 (hmemory.mpr hnewline)
    · exact Bool.false_ne_true (hroom.symm.trans hgoes.2)

end Rest

/-! ## When a lookup stays inside -/

/-- What a lookup of the slave needs of the text. -/
def CmdTrans.FitsSlave (row : CmdTrans) (text : List Char) (anslen : ℕ) : Prop :=
  ∀ find ∈ strstr row.key text,
    if row.nfields = 1 then ∀ word ∈ thirdWord find, (frontWord word).length < anslen
    else 11 ≤ find.length ∧ ('\n' ∈ find.drop 11 ∨ anslen ≤ (find.drop 11).length + 1)

instance (row : CmdTrans) (text : List Char) (anslen : ℕ) :
    Decidable (row.FitsSlave text anslen) :=
  inferInstanceAs (Decidable (∀ find ∈ _, ite _ _ _))

/-- What a lookup of the web pages needs of the text. -/
def CmdTrans.FitsCgi (row : CmdTrans) (text : List Char) (anslen : ℕ) : Prop :=
  ∀ find ∈ strstr row.key text,
    if row.nfields = 1 then ∀ word ∈ thirdWord find, (frontWord word).length < anslen
    else '\n' ∈ (find.drop 11).take anslen

instance (row : CmdTrans) (text : List Char) (anslen : ℕ) :
    Decidable (row.FitsCgi text anslen) :=
  inferInstanceAs (Decidable (∀ find ∈ _, ite _ _ _))

theorem slaveLookup_findRow (anslen : ℕ) :
    ∀ row ∈ cmdtrans, (slaveLookup anslen).findRow row.request = some row :=
  findRow_request

theorem cgiLookup_findRow (anslen : ℕ) :
    ∀ row ∈ cgiCmdtrans, (cgiLookup anslen).findRow row.request = some row := by
  have hall : ∀ row ∈ cgiCmdtrans, cgiCmdtrans.foldl
      (fun found row' => if row'.request = row.request then some row' else found) none =
        some row := by
    decide +kernel
  exact hall

section Fits

variable {buffer : CString} {row : CmdTrans} {anslen : ℕ}

theorem suffix_of_strstr {key text find : List Char} (hfind : strstr key text = some find) :
    find <:+ text := by
  rcases strstr_eq_some_iff.mp hfind with ⟨front, htext, -⟩
  exact ⟨front, htext.symm⟩

/-- The slave stops at the end of the line or when the answer is full. -/
theorem slaveRest_iff (hpos : 0 < anslen) (find : List Char) :
    (∃ k, 11 + k ≤ find.length ∧ k < anslen ∧
        ((find.drop 11)[k]? = some '\n' ∨ (slaveLookup anslen).room k = false)) ↔
      11 ≤ find.length ∧ ('\n' ∈ find.drop 11 ∨ anslen ≤ (find.drop 11).length + 1) := by
  simp only [slaveLookup, decide_eq_false_iff_not, not_lt, List.length_drop]
  constructor
  · rintro ⟨k, hlabel, hk, hnewline | hfull⟩
    · exact ⟨by omega, Or.inl (List.mem_of_getElem? hnewline)⟩
    · exact ⟨by omega, Or.inr (by omega)⟩
  · rintro ⟨hlabel, hnewline | hfull⟩
    · rcases List.mem_iff_getElem?.mp hnewline with ⟨k, hk⟩
      have hlt : k < find.length - 11 := by
        have hsome := (List.getElem?_eq_some_iff.mp hk).1
        rwa [List.length_drop] at hsome
      by_cases hroom : k < anslen
      · exact ⟨k, by omega, hroom, Or.inl hk⟩
      · exact ⟨anslen - 1, by omega, by omega, Or.inr le_rfl⟩
    · exact ⟨anslen - 1, by omega, by omega, Or.inr le_rfl⟩

/-- The web pages stop only at the end of the line. -/
theorem cgiRest_iff (find : List Char) :
    (∃ k, 11 + k ≤ find.length ∧ k < anslen ∧
        ((find.drop 11)[k]? = some '\n' ∨ (cgiLookup anslen).room k = false)) ↔
      '\n' ∈ (find.drop 11).take anslen := by
  rw [List.mem_iff_getElem?]
  constructor
  · rintro ⟨k, -, hk, hnewline | hfull⟩
    · refine ⟨k, ?_⟩
      rw [List.getElem?_take_of_lt hk, hnewline]
    · cases hfull
  · rintro ⟨k, hk⟩
    rw [List.getElem?_take] at hk
    split_ifs at hk with hlt
    have hsome := (List.getElem?_eq_some_iff.mp hk).1
    rw [List.length_drop] at hsome
    exact ⟨k, by omega, hlt, Or.inl hk⟩

/-- The lookup of the slave. -/
theorem slave_inBounds_iff (hrow : row ∈ cmdtrans) (hpos : 0 < anslen) :
    InBounds buffer anslen ((slaveLookup anslen).accesses buffer row.request) ↔
      row.FitsSlave buffer.text anslen := by
  have hfound := slaveLookup_findRow anslen row hrow
  unfold CmdTrans.FitsSlave
  cases hfind : strstr row.key buffer.text with
  | none =>
      rw [Lookup.inBounds_of_not_found hfound hfind]
      simp only [slaveLookup, Option.mem_def, reduceCtorEq, false_implies, implies_true, iff_true]
      omega
  | some find =>
      simp only [Option.mem_some_iff, forall_eq']
      by_cases hfield : row.nfields = 1
      · rw [Lookup.inBounds_of_field hfound hfind hfield, if_pos hfield]
        refine forall₂_congr fun word _ => ?_
        simp only [Lookup.fieldSize, slaveLookup]
        omega
      · rw [Lookup.inBounds_of_rest hfound hfind hfield, if_neg hfield,
          inside_copyRest_iff (suffix_of_strstr hfind), slaveRest_iff hpos]

/-- The lookup of the web pages. -/
theorem cgi_inBounds_iff (hrow : row ∈ cgiCmdtrans) :
    InBounds buffer anslen ((cgiLookup anslen).accesses buffer row.request) ↔
      row.FitsCgi buffer.text anslen := by
  have hfound := cgiLookup_findRow anslen row hrow
  unfold CmdTrans.FitsCgi
  cases hfind : strstr row.key buffer.text with
  | none =>
      rw [Lookup.inBounds_of_not_found hfound hfind]
      simp [cgiLookup]
  | some find =>
      simp only [Option.mem_some_iff, forall_eq']
      by_cases hfield : row.nfields = 1
      · rw [Lookup.inBounds_of_field hfound hfind hfield, if_pos hfield]
        refine forall₂_congr fun word _ => ?_
        simp only [Lookup.fieldSize, cgiLookup]
        omega
      · rw [Lookup.inBounds_of_rest hfound hfind hfield, if_neg hfield,
          inside_copyRest_iff (suffix_of_strstr hfind), cgiRest_iff]

end Fits

/-- Both lookups stay inside their buffers exactly if the text fits the row; the web pages also
do if there is no text. -/
theorem getupsvar_inBounds_iff (buffer : CString) {anslen : ℕ} (hpos : 0 < anslen) :
    (∀ row ∈ cmdtrans, InBounds buffer anslen (slaveAccesses buffer row.request anslen) ↔
      row.FitsSlave buffer.text anslen) ∧
    (∀ row ∈ cgiCmdtrans, ∀ fetched,
      InBounds buffer anslen (cgiAccesses fetched buffer row.request anslen) ↔
        (fetched = true → row.FitsCgi buffer.text anslen)) := by
  refine ⟨fun row hrow => slave_inBounds_iff hrow hpos, fun row hrow fetched => ?_⟩
  cases fetched with
  | false => simp [InBounds, cgiAccesses]
  | true =>
      rw [forall_prop_of_true rfl]
      exact cgi_inBounds_iff hrow

/-- A text that ends with a keyword. -/
def endsAtKeyword : CString :=
  CString.ofText "UPSMODE".toList (by decide)

/-- A text with a word of four characters. -/
def fourDigits : CString :=
  CString.ofText "BCHARGE  : 1234\nMODEL    : SC620\n".toList (by decide)

theorem getupsvar_inBounds_iff_fourDigits :
    InBounds fourDigits 5 (slaveAccesses fourDigits "battcap" 5) ∧
      InBounds fourDigits 6 (cgiAccesses true fourDigits "model" 6) := by
  have hslave := (getupsvar_inBounds_iff fourDigits (by decide : 0 < 5)).1
    ⟨"battcap", "BCHARGE", 1⟩ (by decide)
  have hcgi := (getupsvar_inBounds_iff fourDigits (by decide : 0 < 6)).2
    ⟨"model", "MODEL", 0⟩ (by decide) true
  refine ⟨hslave.mpr ?_, hcgi.mpr fun _ => ?_⟩
  · decide +kernel
  · decide +kernel

/-- Behind the keyword the slave reads on without looking for the terminator, a word as long as
the answer leaves no room for its own, and the web pages write as much as there is. -/
theorem getupsvar_leaves_bounds :
    (⟨"upsmode", "UPSMODE", 0⟩ ∈ cmdtrans ∧ ⟨"battcap", "BCHARGE", 1⟩ ∈ cmdtrans ∧
      ⟨"model", "MODEL", 0⟩ ∈ cgiCmdtrans) ∧
    ¬ InBounds endsAtKeyword 200 (slaveAccesses endsAtKeyword "upsmode" 200) ∧
    ¬ InBounds fourDigits 4 (slaveAccesses fourDigits "battcap" 4) ∧
    ¬ InBounds fourDigits 4 (cgiAccesses true fourDigits "model" 4) := by
  refine ⟨by decide, fun hin => ?_, fun hin => ?_, fun hin => ?_⟩
  · exact absurd ((hin 1).1 11 (by decide +kernel)) (by decide +kernel)
  · exact absurd (hin 0).2 (by decide +kernel)
  · exact absurd (hin 7).2 (by decide +kernel)

/-! ## The answer of a lookup that stays inside -/

/-- As much of a line as is asked for, from a text that has that much of it. -/
theorem take_line_append {front : List Char} {n : ℕ}
    (henough : '\n' ∈ front ∨ n ≤ front.length) (rest : List Char) :
    ((front ++ rest).takeWhile (· ≠ '\n')).take n = (front.takeWhile (· ≠ '\n')).take n := by
  rw [List.takeWhile_append]
  split_ifs with hlength
  · have hall : front.takeWhile (· ≠ '\n') = front :=
      (List.takeWhile_prefix _).eq_of_length hlength
    have hn : n ≤ front.length := by
      rcases henough with hnewline | hn
      · rw [← hall] at hnewline
        have hne := List.mem_takeWhile_imp hnewline
        exact absurd rfl (of_decide_eq_true hne)
      · exact hn
    rw [hall, List.take_append_of_le_length hn]
  · rfl

/-- The answer of a lookup that stays inside does not depend on what lies behind the
terminator. -/
theorem CmdTrans.FitsSlave.getupsvar_eq {row : CmdTrans} {text : List Char} {anslen : ℕ}
    (hfits : row.FitsSlave text anslen) (hrow : row ∈ cmdtrans)
    (beyond beyond' answer : List Char) :
    getupsvar ⟨text, beyond⟩ row.request answer anslen =
      getupsvar ⟨text, beyond'⟩ row.request answer anslen := by
  have hfound := findRow_request row hrow
  unfold CmdTrans.FitsSlave at hfits
  cases hfind : strstr row.key text with
  | none => simp only [getupsvar, hfound, hfind]
  | some find =>
      rw [hfind] at hfits
      have hfits := hfits find rfl
      have hanswer : row.answerFrom ⟨text, beyond⟩ answer anslen find =
          row.answerFrom ⟨text, beyond'⟩ answer anslen find := by
        by_cases hfield : row.nfields = 1
        · simp only [answerFrom, start, copied, if_pos hfield]
        · rw [if_neg hfield] at hfits
          have hstart := drop_label (suffix_of_strstr hfind)
          have hle := (suffix_of_strstr hfind).length_le
          have henough : '\n' ∈ find.drop 11 ∨ anslen - 1 ≤ (find.drop 11).length := by
            rcases hfits.2 with hnewline | hlength
            · exact Or.inl hnewline
            · exact Or.inr (by omega)
          simp only [answerFrom, start, copied, if_neg hfield, StatusBuffer.memory]
          rw [List.drop_append_of_le_length (by omega), List.drop_append_of_le_length (by omega),
            hstart, take_line_append henough, take_line_append henough]
      simp only [getupsvar, hfound, hfind, hanswer]

end Apcupsd
