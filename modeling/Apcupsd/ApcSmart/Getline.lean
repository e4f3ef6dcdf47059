import Mathlib.Tactic.SplitIfs
import Apcupsd.Core.CoreRun
import Apcupsd.Core.ReportFields

/-!
# Reading a line from a smart UPS

A smart UPS answers with lines, and at any time it sends single characters that announce a
change: mains or battery, a low battery, a battery to be replaced.  {lit}`getline` takes
the announcements out of the line and applies them to the status.

With a null pointer for the buffer {lit}`getline` waits for one announcement.  It then takes
the lock around the change; the lock is not part of this model.

Main results:

- Theorem {lit}`getline_eq`: what {lit}`getline` leaves in the buffer and in the status, from
  what the stream holds.
- Theorem {lit}`getline_separates`: a whole line is returned without the announcements,
  which are applied in their order.
-/

namespace Apcupsd

open BitFlags

namespace UpsInfo

def setReplacebatt (ups : UpsInfo) : UpsInfo := ups.set upsReplacebatt
def clearBattlow (ups : UpsInfo) : UpsInfo := ups.clear upsBattlow

end UpsInfo

namespace ApcSmart

/-! ## The characters -/

/-- {lit}`UPS_ON_BATT`. -/
def upsOnBatt : UInt8 := 0x21
/-- {lit}`UPS_REPLACE_BATTERY`. -/
def upsReplaceBattery : UInt8 := 0x23
/-- {lit}`UPS_ON_LINE`. -/
def upsOnLine : UInt8 := 0x24
/-- {lit}`BATT_LOW`. -/
def battLow : UInt8 := 0x25
/-- {lit}`BATT_OK`. -/
def battOk : UInt8 := 0x2b
/-- {lit}`UPS_EPROM_CHANGE`. -/
def upsEpromChange : UInt8 := 0x7c
/-- {lit}`UPS_TRAILOR`. -/
def upsTrailor : UInt8 := 0x3a
/-- {lit}`UPS_LF`. -/
def upsLf : UInt8 := 0x0a
/-- {lit}`UPS_CR`. -/
def upsCr : UInt8 := 0x0d

/-- What {lit}`select` and {lit}`read` bring: a character, no character within the time, an
interruption, or a failure ({lit}`EBADF`, or a {lit}`read` that returns no character).  Any
other error of {lit}`select` ends the program. -/
inductive SerialEvent where
  | byte (c : UInt8)
  | timeout
  | interrupted
  | failed
  deriving DecidableEq, Repr

/-! ## getline -/

/-- The change that a character announces. -/
def alertOf (c : UInt8) : Option (UpsInfo → UpsInfo) :=
  if c = upsOnBatt then some UpsInfo.clearOnline
  else if c = upsReplaceBattery then some UpsInfo.setReplacebatt
  else if c = upsOnLine then some UpsInfo.setOnline
  else if c = battLow then some UpsInfo.setBattlow
  else if c = battOk then some UpsInfo.clearBattlow
  else none

/-- The result of {lit}`getline`: {lit}`SUCCESS` or not, the buffer if there is one, the
status, and what the port will deliver next. -/
structure GetlineOut where
  stat : Bool
  s : Option (List UInt8)
  ups : UpsInfo
  rest : List SerialEvent

/-- The loop of {lit}`getline`, with the number of characters stored.  At its end the stream
is silent. -/
def getlineLoop (len : ℕ) : List SerialEvent → Option (List UInt8) → ℕ → UpsInfo → GetlineOut
  | [], s, _, ups => ⟨false, s, ups, []⟩
  | .timeout :: rest, s, _, ups => ⟨false, s, ups, rest⟩
  | .failed :: rest, s, _, ups => ⟨false, s, ups, rest⟩
  | .interrupted :: rest, s, i, ups => getlineLoop len rest s i ups
  | .byte c :: rest, s, i, ups =>
      match alertOf c with
      | some change =>
          match s with
          | none => ⟨true, none, change ups, rest⟩
          | some buffer => getlineLoop len rest (some buffer) i (change ups)
      | none =>
          if c = upsEpromChange ∨ c = upsTrailor then getlineLoop len rest s i ups
          else if c = upsLf then
            match s with
            | none => getlineLoop len rest none i ups
            | some buffer => ⟨true, some (buffer.set i 0), ups, rest⟩
          else if c = upsCr then getlineLoop len rest s i ups
          else
            match s with
            | none => getlineLoop len rest none i ups
            | some buffer =>
                if i + 1 < len then getlineLoop len rest (some (buffer.set i c)) (i + 1) ups
                else ⟨true, some (buffer.set i 0), ups, rest⟩

/-- {lit}`getline`. -/
def getline (s : Option (List UInt8)) (len : ℕ) (ups : UpsInfo) (events : List SerialEvent) :
    GetlineOut :=
  getlineLoop len events s 0 ups

/-! ## What a stream holds -/

/-- A character that is part of a reply. -/
def isText (c : UInt8) : Bool :=
  c ∉ [upsOnBatt, upsReplaceBattery, upsOnLine, battLow, battOk, upsEpromChange, upsTrailor,
    upsLf, upsCr]

/-- A character that announces a change. -/
def isAlert (c : UInt8) : Bool :=
  c ∈ [upsOnBatt, upsReplaceBattery, upsOnLine, battLow, battOk]

/-- A character that announces nothing and is not part of a reply, but for the line feed. -/
def isMark (c : UInt8) : Bool :=
  c ∈ [upsEpromChange, upsTrailor, upsCr]

/-- The change that an announcement makes; other characters make none. -/
def applyAlert (ups : UpsInfo) (c : UInt8) : UpsInfo :=
  (alertOf c).elim ups fun change => change ups

/-- The beginning of a stream: the characters of a reply, whether the reply is complete, the
announcements among them, and what follows. -/
structure Reply where
  text : List UInt8
  complete : Bool
  alerts : List UInt8
  rest : List SerialEvent
  deriving DecidableEq, Repr

/-- The first reply of a stream.  It ends with a line feed, or with the first character for
which there is no room. -/
def scan : ℕ → List SerialEvent → Reply
  | _, [] => ⟨[], false, [], []⟩
  | _, .timeout :: rest => ⟨[], false, [], rest⟩
  | _, .failed :: rest => ⟨[], false, [], rest⟩
  | room, .interrupted :: rest => scan room rest
  | room, .byte c :: rest =>
      if isAlert c then { scan room rest with alerts := c :: (scan room rest).alerts }
      else if isMark c then scan room rest
      else if c = upsLf then ⟨[], true, [], rest⟩
      else
        match room with
        | 0 => ⟨[], true, [], rest⟩
        | room + 1 => { scan room rest with text := c :: (scan room rest).text }

theorem scan_byte (room : ℕ) (c : UInt8) (rest : List SerialEvent) :
    scan room (.byte c :: rest) =
      if isAlert c then { scan room rest with alerts := c :: (scan room rest).alerts }
      else if isMark c then scan room rest
      else if c = upsLf then ⟨[], true, [], rest⟩
      else
        match room with
        | 0 => ⟨[], true, [], rest⟩
        | room + 1 => { scan room rest with text := c :: (scan room rest).text } := by
  rw [scan.eq_def]

/-- What a reply leaves in a buffer: its characters, and behind them a NUL if it is
complete; the rest of the buffer is as it was. -/
def Reply.filled (reply : Reply) (buffer : List UInt8) : List UInt8 :=
  reply.text ++
    if reply.complete then 0 :: buffer.drop (reply.text.length + 1)
    else buffer.drop reply.text.length

/-! ## The switch -/

theorem alertOf_of_isAlert {c : UInt8} (hc : isAlert c = true) :
    alertOf c = some fun ups => applyAlert ups c := by
  unfold applyAlert alertOf
  split_ifs with h1 h2 h3 h4 h5
  · rfl
  · rfl
  · rfl
  · rfl
  · rfl
  · simp [isAlert, h1, h2, h3, h4, h5] at hc

theorem alertOf_of_not_isAlert {c : UInt8} (hc : ¬ isAlert c = true) : alertOf c = none := by
  unfold alertOf
  split_ifs with h1 h2 h3 h4 h5
  · simp [isAlert, h1] at hc
  · simp [isAlert, h2] at hc
  · simp [isAlert, h3] at hc
  · simp [isAlert, h4] at hc
  · simp [isAlert, h5] at hc
  · rfl

theorem not_isAlert_of_isMark {c : UInt8} (hc : isMark c = true) : ¬ isAlert c = true := by
  simp only [isMark, decide_eq_true_eq, List.mem_cons, List.not_mem_nil, or_false] at hc
  rcases hc with rfl | rfl | rfl <;> decide

theorem isText_iff {c : UInt8} :
    isText c = true ↔ ¬ isAlert c = true ∧ ¬ isMark c = true ∧ c ≠ upsLf := by
  simp only [isText, isAlert, isMark, decide_eq_true_eq, List.mem_cons, List.not_mem_nil,
    or_false]
  tauto

theorem not_isText_of_isAlert {c : UInt8} (hc : isAlert c = true) : ¬ isText c = true :=
  fun htext => (isText_iff.mp htext).1 hc

theorem not_isText_of_isMark {c : UInt8} (hc : isMark c = true) : ¬ isText c = true :=
  fun htext => (isText_iff.mp htext).2.1 hc

/-- The kinds of characters. -/
theorem isAlert_or_isMark_or_lf_or_isText (c : UInt8) :
    isAlert c = true ∨ isMark c = true ∨ c = upsLf ∨ isText c = true := by
  rw [isText_iff]
  tauto

/-! ## One character -/

section Scan

variable {room : ℕ} {rest : List SerialEvent} {c : UInt8}

theorem scan_alert (hc : isAlert c = true) :
    scan room (.byte c :: rest) =
      { scan room rest with alerts := c :: (scan room rest).alerts } := by
  rw [scan_byte, if_pos hc]

theorem scan_mark (hc : isMark c = true) : scan room (.byte c :: rest) = scan room rest := by
  rw [scan_byte, if_neg (not_isAlert_of_isMark hc), if_pos hc]

theorem scan_lf : scan room (.byte upsLf :: rest) = ⟨[], true, [], rest⟩ := by
  rw [scan_byte]
  rfl

theorem scan_text_full (hc : isText c = true) :
    scan 0 (.byte c :: rest) = ⟨[], true, [], rest⟩ := by
  obtain ⟨halert, hmark, hlf⟩ := isText_iff.mp hc
  rw [scan_byte, if_neg halert, if_neg hmark, if_neg hlf]

theorem scan_text (hc : isText c = true) :
    scan (room + 1) (.byte c :: rest) =
      { scan room rest with text := c :: (scan room rest).text } := by
  obtain ⟨halert, hmark, hlf⟩ := isText_iff.mp hc
  rw [scan_byte, if_neg halert, if_neg hmark, if_neg hlf]

end Scan

section Loop

variable {len : ℕ} {rest : List SerialEvent} {s : Option (List UInt8)} {i : ℕ} {ups : UpsInfo}
  {c : UInt8}

theorem getlineLoop_alert (buffer : List UInt8) (hc : isAlert c = true) :
    getlineLoop len (.byte c :: rest) (some buffer) i ups =
      getlineLoop len rest (some buffer) i (applyAlert ups c) := by
  rw [getlineLoop, alertOf_of_isAlert hc]

theorem getlineLoop_mark (hc : isMark c = true) :
    getlineLoop len (.byte c :: rest) s i ups = getlineLoop len rest s i ups := by
  rw [getlineLoop.eq_def]
  simp only [alertOf_of_not_isAlert (not_isAlert_of_isMark hc)]
  simp only [isMark, decide_eq_true_eq, List.mem_cons, List.not_mem_nil, or_false] at hc
  rcases hc with rfl | rfl | rfl
  · exact if_pos (Or.inl rfl)
  · exact if_pos (Or.inr rfl)
  · rfl

theorem getlineLoop_lf (buffer : List UInt8) :
    getlineLoop len (.byte upsLf :: rest) (some buffer) i ups =
      ⟨true, some (buffer.set i 0), ups, rest⟩ := rfl

theorem getlineLoop_text (buffer : List UInt8) (hc : isText c = true) :
    getlineLoop len (.byte c :: rest) (some buffer) i ups =
      if i + 1 < len then getlineLoop len rest (some (buffer.set i c)) (i + 1) ups
      else ⟨true, some (buffer.set i 0), ups, rest⟩ := by
  obtain ⟨halert, hmark, hlf⟩ := isText_iff.mp hc
  rw [getlineLoop, alertOf_of_not_isAlert halert]
  simp only [isMark, decide_eq_true_eq, List.mem_cons, List.not_mem_nil, or_false, not_or]
    at hmark
  simp [hmark.1, hmark.2.1, hmark.2.2, hlf]

end Loop

theorem set_append_cons (written : List UInt8) (r : UInt8) (remaining : List UInt8) (c : UInt8) :
    (written ++ r :: remaining).set written.length c = (written ++ [c]) ++ remaining := by
  simp

/-- The loop stores the characters of the reply behind those stored before. -/
theorem getlineLoop_eq {len room : ℕ} {written remaining : List UInt8}
    (hlen : len = written.length + (room + 1)) (hroom : room + 1 ≤ remaining.length)
    (events : List SerialEvent) (ups : UpsInfo) :
    getlineLoop len events (some (written ++ remaining)) written.length ups =
      ⟨(scan room events).complete, some (written ++ (scan room events).filled remaining),
        (scan room events).alerts.foldl applyAlert ups, (scan room events).rest⟩ := by
  induction events generalizing room written remaining ups with
  | nil => simp [getlineLoop, scan, Reply.filled]
  | cons event events ih =>
      obtain ⟨r, remaining, rfl⟩ := List.exists_cons_of_length_pos
        (lt_of_lt_of_le (Nat.succ_pos room) hroom)
      cases event with
      | timeout => simp [getlineLoop, scan, Reply.filled]
      | failed => simp [getlineLoop, scan, Reply.filled]
      | interrupted =>
          rw [getlineLoop, scan]
          exact ih hlen hroom ups
      | byte c =>
          rcases isAlert_or_isMark_or_lf_or_isText c with halert | hmark | rfl | htext
          · rw [getlineLoop_alert _ halert, ih hlen hroom, scan_alert halert]
            rfl
          · rw [getlineLoop_mark hmark, ih hlen hroom, scan_mark hmark]
          · rw [getlineLoop_lf, set_append_cons, scan_lf]
            simp [Reply.filled]
          · rw [getlineLoop_text _ htext]
            cases room with
            | zero =>
                rw [if_neg (by omega), set_append_cons, scan_text_full htext]
                simp [Reply.filled]
            | succ room =>
                have hwritten : (written ++ [c]).length = written.length + 1 := by simp
                have hnext : len = (written ++ [c]).length + (room + 1) := by omega
                rw [if_pos (by omega), set_append_cons, ← hwritten,
                  ih hnext (by simpa using hroom), scan_text htext]
                simp [Reply.filled]

/-- {lit}`getline` with a buffer reads the first reply of the stream. -/
theorem getline_eq {len : ℕ} {buffer : List UInt8} (hpos : 0 < len) (hlen : len ≤ buffer.length)
    (events : List SerialEvent) (ups : UpsInfo) :
    getline (some buffer) len ups events =
      ⟨(scan (len - 1) events).complete, some ((scan (len - 1) events).filled buffer),
        (scan (len - 1) events).alerts.foldl applyAlert ups, (scan (len - 1) events).rest⟩ :=
  @getlineLoop_eq len (len - 1) [] buffer (by simp; omega) (by omega) events ups

/-! ## The announcements -/

/-- The four bits that the announcements change. -/
structure LineFlags where
  online : Bool
  onbatt : Bool
  battlow : Bool
  replacebatt : Bool
  deriving DecidableEq, Repr

/-- The four bits of a status. -/
def lineFlags (ups : UpsInfo) : LineFlags where
  online := ups.isOnline
  onbatt := ups.isOnbatt
  battlow := ups.isBattlow
  replacebatt := ups.isReplacebatt

/-- What an announcement says of the four bits. -/
def LineFlags.apply (flags : LineFlags) (c : UInt8) : LineFlags :=
  if c = upsOnBatt then { flags with online := false, onbatt := true }
  else if c = upsReplaceBattery then { flags with replacebatt := true }
  else if c = upsOnLine then { flags with online := true, onbatt := false }
  else if c = battLow then { flags with battlow := true }
  else if c = battOk then { flags with battlow := false }
  else flags

theorem lineFlags_set {ups : UpsInfo} {mask : StatusWord} : lineFlags (ups.set mask) =
    { online := testMask (raiseMask ups.status mask) upsOnline
      onbatt := testMask (raiseMask ups.status mask) upsOnbatt
      battlow := testMask (raiseMask ups.status mask) upsBattlow
      replacebatt := testMask (raiseMask ups.status mask) upsReplacebatt } := rfl

theorem lineFlags_clear {ups : UpsInfo} {mask : StatusWord} : lineFlags (ups.clear mask) =
    { online := testMask (dropMask ups.status mask) upsOnline
      onbatt := testMask (dropMask ups.status mask) upsOnbatt
      battlow := testMask (dropMask ups.status mask) upsBattlow
      replacebatt := testMask (dropMask ups.status mask) upsReplacebatt } := rfl

/-- Setting or clearing one of the bits leaves the others. -/
theorem lineFlags_setOne (ups : UpsInfo) :
    lineFlags (ups.set upsOnline) = { lineFlags ups with online := true } ∧
      lineFlags (ups.set upsOnbatt) = { lineFlags ups with onbatt := true } ∧
        lineFlags (ups.set upsBattlow) = { lineFlags ups with battlow := true } ∧
          lineFlags (ups.set upsReplacebatt) = { lineFlags ups with replacebatt := true } := by
  refine ⟨?_, ?_, ?_, ?_⟩
  all_goals
    rw [lineFlags_set, testMask_raiseMask_self]
    repeat rw [testMask_raiseMask_of_disjoint (by decide)]
    rfl

theorem lineFlags_clearOne (ups : UpsInfo) :
    lineFlags (ups.clear upsOnline) = { lineFlags ups with online := false } ∧
      lineFlags (ups.clear upsOnbatt) = { lineFlags ups with onbatt := false } ∧
        lineFlags (ups.clear upsBattlow) = { lineFlags ups with battlow := false } := by
  refine ⟨?_, ?_, ?_⟩
  all_goals
    rw [lineFlags_clear, testMask_dropMask_self (by decide)]
    repeat rw [testMask_dropMask_of_disjoint (by decide)]
    rfl

/-- An announcement changes the four bits of the status as it says. -/
theorem lineFlags_applyAlert (ups : UpsInfo) (c : UInt8) :
    lineFlags (applyAlert ups c) = (lineFlags ups).apply c := by
  unfold applyAlert alertOf LineFlags.apply
  split_ifs
  · exact ((lineFlags_clearOne _).1).trans (by rw [(lineFlags_setOne ups).2.1])
  · exact (lineFlags_setOne ups).2.2.2
  · exact ((lineFlags_clearOne _).2.1).trans (by rw [(lineFlags_setOne ups).1])
  · exact (lineFlags_setOne ups).2.2.1
  · exact (lineFlags_clearOne ups).2.2
  · rfl

theorem lineFlags_foldl (alerts : List UInt8) (ups : UpsInfo) :
    lineFlags (alerts.foldl applyAlert ups) = alerts.foldl LineFlags.apply (lineFlags ups) := by
  induction alerts generalizing ups with
  | nil => rfl
  | cons c alerts ih => rw [List.foldl_cons, List.foldl_cons, ih, lineFlags_applyAlert]

/-! ## A whole line -/

/-- The characters of a stream. -/
def bytesOf (events : List SerialEvent) : List UInt8 :=
  events.filterMap fun event =>
    match event with
    | .byte c => some c
    | .timeout => none
    | .interrupted => none
    | .failed => none

/-- Characters without a line feed, and no break but interruptions. -/
def Unbroken (line : List SerialEvent) : Prop :=
  ∀ event ∈ line, event = .interrupted ∨ ∃ c, event = .byte c ∧ c ≠ upsLf

/-- A reply with more characters and announcements before it. -/
def Reply.prepend (text alerts : List UInt8) (reply : Reply) : Reply :=
  { reply with text := text ++ reply.text, alerts := alerts ++ reply.alerts }

/-- An unbroken line whose characters fit is scanned to its end. -/
theorem scan_append {room : ℕ} {line : List SerialEvent} (hline : Unbroken line)
    (hroom : ((bytesOf line).filter isText).length ≤ room) (rest : List SerialEvent) :
    scan room (line ++ rest) =
      (scan (room - ((bytesOf line).filter isText).length) rest).prepend
        ((bytesOf line).filter isText) ((bytesOf line).filter isAlert) := by
  induction line generalizing room with
  | nil => rfl
  | cons event line ih =>
      obtain ⟨hevent, hrest⟩ := List.forall_mem_cons.mp hline
      rcases hevent with rfl | ⟨c, rfl, hlf⟩
      · rw [List.cons_append, scan]
        exact ih hrest hroom
      · have hbytes : bytesOf (.byte c :: line) = c :: bytesOf line := rfl
        rw [hbytes] at hroom ⊢
        rw [List.cons_append]
        rcases isAlert_or_isMark_or_lf_or_isText c with halert | hmark | heq | htext
        · rw [List.filter_cons_of_neg (not_isText_of_isAlert halert)] at hroom ⊢
          rw [scan_alert halert, ih hrest hroom, List.filter_cons_of_pos halert]
          rfl
        · rw [List.filter_cons_of_neg (not_isText_of_isMark hmark)] at hroom ⊢
          rw [scan_mark hmark, ih hrest hroom,
            List.filter_cons_of_neg (not_isAlert_of_isMark hmark)]
        · exact absurd heq hlf
        · rw [List.filter_cons_of_pos htext, List.length_cons] at hroom
          obtain ⟨room, rfl⟩ : ∃ m, room = m + 1 := ⟨room - 1, by omega⟩
          rw [scan_text htext, @ih room hrest (by omega), List.filter_cons_of_pos htext,
            List.filter_cons_of_neg (isText_iff.mp htext).1, List.length_cons,
            Nat.add_sub_add_right]
          rfl

/-- If the reply of an unbroken line fits, it is scanned whole. -/
theorem scan_unbroken {room : ℕ} {line : List SerialEvent} (hline : Unbroken line)
    (hroom : ((bytesOf line).filter isText).length ≤ room) (rest : List SerialEvent) :
    scan room (line ++ .byte upsLf :: rest) =
      ⟨(bytesOf line).filter isText, true, (bytesOf line).filter isAlert, rest⟩ := by
  rw [scan_append hline hroom, scan_lf]
  simp [Reply.prepend]

/-- What the program's switch does not take out of a line. -/
theorem filter_isText_of_not_isAlert (bytes : List UInt8) :
    (bytes.filter fun c => !isAlert c).filter isText = bytes.filter isText := by
  rw [List.filter_filter]
  apply List.filter_congr
  intro c _
  by_cases htext : isText c = true
  · simp [htext, (isText_iff.mp htext).1]
  · simp [htext]

/-- Of an unbroken line whose reply is smaller than the buffer, {lit}`getline` returns
exactly the characters of the reply, and the announcements change the four bits of the
status in their order.  The text is the same for every line that differs in its
announcements only. -/
theorem getline_separates {len : ℕ} {buffer : List UInt8} (hlen : len ≤ buffer.length)
    {line : List SerialEvent} (hline : Unbroken line)
    (hfits : ((bytesOf line).filter isText).length < len) (rest : List SerialEvent)
    (ups : UpsInfo) :
    let text := (bytesOf line).filter fun c => c ∉
      [upsOnBatt, upsReplaceBattery, upsOnLine, battLow, battOk, upsEpromChange, upsTrailor,
        upsLf, upsCr]
    let out := getline (some buffer) len ups (line ++ .byte upsLf :: rest)
    out.stat = true ∧ out.s = some (text ++ 0 :: buffer.drop (text.length + 1)) ∧
      out.rest = rest ∧
        lineFlags out.ups =
          ((bytesOf line).filter isAlert).foldl LineFlags.apply (lineFlags ups) ∧
          ∀ line', Unbroken line' →
            ((bytesOf line').filter fun c => !isAlert c) =
              ((bytesOf line).filter fun c => !isAlert c) →
              ∀ rest' ups',
                (getline (some buffer) len ups' (line' ++ .byte upsLf :: rest')).s = out.s := by
  intro text out
  have hread : ∀ line', Unbroken line' → ((bytesOf line').filter isText).length < len →
      ∀ rest' ups', getline (some buffer) len ups' (line' ++ .byte upsLf :: rest') =
        ⟨true, some ((bytesOf line').filter isText ++
            0 :: buffer.drop (((bytesOf line').filter isText).length + 1)),
          ((bytesOf line').filter isAlert).foldl applyAlert ups', rest'⟩ := by
    intro line' hline' hfits' rest' ups'
    rw [getline_eq (by omega) hlen, scan_unbroken hline' (by omega)]
    rfl
  have hout : out = _ := hread line hline hfits rest ups
  refine ⟨by rw [hout], by rw [hout]; rfl, by rw [hout], by rw [hout, lineFlags_foldl], ?_⟩
  intro line' hline' hsame rest' ups'
  have htext : (bytesOf line').filter isText = (bytesOf line).filter isText := by
    rw [← filter_isText_of_not_isAlert, hsame, filter_isText_of_not_isAlert]
  rw [hread line' hline' (by rw [htext]; exact hfits), htext, hout]

/-- A line that is read into a buffer of eight bytes, with an announcement inside. -/
theorem getline_separates_onBatt :
    (getline (some (List.replicate 8 0xff)) 8 (newUps (defaultConfig 0))
        [.byte 0x4f, .byte 0x21, .interrupted, .byte 0x4b, .byte 0x0d, .byte 0x0a]).s =
      some [0x4f, 0x4b, 0x00, 0xff, 0xff, 0xff, 0xff, 0xff] ∧
    lineFlags (getline (some (List.replicate 8 0xff)) 8 (newUps (defaultConfig 0))
        [.byte 0x4f, .byte 0x21, .interrupted, .byte 0x4b, .byte 0x0d, .byte 0x0a]).ups =
      ⟨false, true, false, false⟩ := by
  have hline : Unbroken [.byte 0x4f, .byte 0x21, .interrupted, .byte 0x4b, .byte 0x0d] := by
    simp [Unbroken, upsLf]
  have hout := @getline_separates 8 (List.replicate 8 0xff) (by decide) _ hline (by decide) []
    (newUps (defaultConfig 0))
  exact ⟨hout.2.1, hout.2.2.2.1.trans (by decide)⟩

end ApcSmart

end Apcupsd
