import Mathlib.Data.List.TakeWhile
import Apcupsd.ApcSmart.Getline

/-!
# Polling a smart UPS

{lit}`smart_poll` sends a command and reads its reply into one static buffer that all calls
share.  When nothing comes back it waits in {lit}`UPSlinkCheck` until the UPS answers the
command {lit}`Y` again, for which {lit}`UPSlinkCheck` calls {lit}`smart_poll`.

What the port delivers is split at each {lit}`tcflush`; what is left of a piece is thrown
away by the next one.  Nothing is thrown away when a command is written, so a part of what is
read next may have arrived before it.  The turns of the loop of {lit}`UPSlinkCheck` are given
with what the clock and {lit}`Open` say in each.  Logs and events are left out.

Main results:

- Theorem {lit}`smartPollLogged_snd`: recording the last transmission changes nothing.
- Theorem {lit}`isReplyLine_iff`: which strings are whole reply lines to a command.
- Theorem {lit}`smartPoll_unmixed_iff`: when {lit}`smart_poll` returns nothing but a whole
  reply line.
-/

namespace Apcupsd

namespace ApcSmart

/-! ## The driver -/

/-- {lit}`sizeof answer`. -/
def answerSize : ℕ := 2000

/-- {lit}`COMMLOST_TIMEOUT_MS`. -/
def commlostTimeoutMs : ℤ := 20 * 1000

/-- A turn of the loop of {lit}`UPSlinkCheck`: the time since its start, and whether
{lit}`Open` would open the port. -/
structure LinkTurn where
  elapsedMs : ℤ
  opens : Bool
  deriving DecidableEq, Repr

/-- The static buffer of {lit}`smart_poll`, whether the port is open, {lit}`_linkcheck`, the
status, and what the surroundings bring: what the port delivers, how much of it has arrived
when each of the commands is written, and the turns. -/
structure SmartDriver where
  answer : List UInt8
  fd : Bool
  linkcheck : Bool
  ups : UpsInfo
  input : List (List SerialEvent)
  waiting : List ℕ
  turns : List LinkTurn

/-- What is read after a command was written: what waited in the port then, and what came
later. -/
structure Transmission where
  waiting : List SerialEvent
  later : List SerialEvent
  deriving DecidableEq, Repr

/-- All that is read. -/
def Transmission.events (sent : Transmission) : List SerialEvent :=
  sent.waiting ++ sent.later

/-- No time passes in it: neither a timeout nor a failure. -/
def atOnce : SerialEvent → Bool
  | .byte _ | .interrupted => true
  | .timeout | .failed => false

namespace SmartDriver

/-- What the port delivers next. -/
def heard (d : SmartDriver) : List SerialEvent :=
  d.input.headD []

/-- {lit}`tcflush`. -/
def tcflush (d : SmartDriver) : SmartDriver :=
  { d with input := d.input.tail }

/-- {lit}`write(_ups->fd, &cmd, 1)`. -/
def writeCmd (d : SmartDriver) : SmartDriver :=
  { d with waiting := d.waiting.tail }

/-- What a command that is written now finds in the port, and what it is followed by. -/
def transmission (d : SmartDriver) : Transmission :=
  let arrived := (d.heard.take (d.waiting.headD 0)).takeWhile atOnce
  ⟨arrived, d.heard.drop arrived.length⟩

/-- {lit}`*answer = 0`. -/
def clearAnswer (d : SmartDriver) : SmartDriver :=
  { d with answer := d.answer.set 0 0 }

/-- {lit}`*answer == 0`. -/
def emptyAnswer (d : SmartDriver) : Bool :=
  d.answer.getD 0 0 == 0

/-- The string that the buffer holds. -/
def answerString (d : SmartDriver) : List UInt8 :=
  d.answer.takeWhile (· ≠ 0)

/-- {lit}`getline(answer, sizeof answer)`. -/
def readAnswer (d : SmartDriver) : Bool × SmartDriver :=
  let out := getline (some d.answer) answerSize d.ups d.heard
  (out.stat,
    { d with
      answer := out.s.getD d.answer
      ups := out.ups
      input := out.rest :: d.input.tail })

/-- The command is sent, and its reply is read. -/
def attempt (d : SmartDriver) : Bool × SmartDriver :=
  d.writeCmd.readAnswer

end SmartDriver

/-! ## smart_poll and UPSlinkCheck -/

/-- The loop of {lit}`smart_poll` with the retries that are left. -/
def pollLoop (linkCheck : SmartDriver → Option SmartDriver) : ℕ → SmartDriver → Option SmartDriver
  | retry, d =>
      match d.attempt with
      | (stat, d) =>
          if d.emptyAnswer && !stat then
            match linkCheck d with
            | none => none
            | some d =>
                match retry with
                | 0 => some d.clearAnswer
                | retry + 1 => pollLoop linkCheck retry d.clearAnswer
          else some d

/-- {lit}`'Y'`, the command that enters smart mode. -/
def smartMode : UInt8 := 0x59

/-- The retries of a command. -/
def retriesOf (cmd : UInt8) : ℕ :=
  if cmd = smartMode then 0 else 2

/-- {lit}`smart_poll` over {lit}`UPSlinkCheck`. -/
def smartPollWith (linkCheck : SmartDriver → Option SmartDriver) (cmd : UInt8) (d : SmartDriver) :
    Option SmartDriver :=
  if !d.fd then some d.clearAnswer else pollLoop linkCheck (retriesOf cmd) d.clearAnswer

/-- {lit}`smart_poll('Y')` as {lit}`UPSlinkCheck` calls it: a nested {lit}`UPSlinkCheck`
returns at once. -/
def smartPollNested (d : SmartDriver) : Option SmartDriver :=
  smartPollWith some smartMode d

/-- {lit}`strcmp(smart_poll('Y'), "SM") == 0`. -/
def SmartDriver.entered (d : SmartDriver) : Bool :=
  d.answerString == [0x53, 0x4d]

/-- A turn of the loop: {lit}`commlost`, and the port closed and opened again. -/
def SmartDriver.linkTurn (turn : LinkTurn) (d : SmartDriver) : SmartDriver :=
  let d :=
    if turn.elapsedMs ≥ commlostTimeoutMs && !d.ups.isCommlost then
      { d with ups := d.ups.setCommlost }
    else d
  let d :=
    if d.ups.isCommlost then { d with fd := turn.opens, input := d.input.tail } else d
  d.tcflush

/-- The loop of {lit}`UPSlinkCheck`. -/
def linkLoop : List LinkTurn → SmartDriver → Option SmartDriver
  | turns, d =>
      match smartPollNested d with
      | none => none
      | some d =>
          if d.entered then some { d with turns := turns }
          else
            match turns with
            | [] => none
            | turn :: turns => linkLoop turns (d.linkTurn turn)

/-- {lit}`UPSlinkCheck`. -/
def upsLinkCheck (d : SmartDriver) : Option SmartDriver :=
  if d.linkcheck then some d
  else
    match smartPollNested { d.tcflush with linkcheck := true } with
    | none => none
    | some d =>
        if d.entered then some { d with linkcheck := false, ups := d.ups.clearCommlost }
        else
          (linkLoop d.turns d.tcflush).map fun d =>
            { d with
              linkcheck := false
              ups := if d.ups.isCommlost then d.ups.clearCommlost else d.ups }

/-- {lit}`smart_poll`. -/
def smartPoll (cmd : UInt8) (d : SmartDriver) : Option SmartDriver :=
  smartPollWith upsLinkCheck cmd d

/-! ## The last transmission -/

/-- The loop of {lit}`smart_poll` with its last transmission. -/
def pollLoopLogged (linkCheck : SmartDriver → Option SmartDriver) :
    ℕ → SmartDriver → Option (Transmission × SmartDriver)
  | retry, d =>
      match d.attempt with
      | (stat, d') =>
          if d'.emptyAnswer && !stat then
            match linkCheck d' with
            | none => none
            | some d' =>
                match retry with
                | 0 => some (d.transmission, d'.clearAnswer)
                | retry + 1 => pollLoopLogged linkCheck retry d'.clearAnswer
          else some (d.transmission, d')

/-- {lit}`smart_poll` with its last transmission; without a port nothing is transmitted. -/
def smartPollLogged (cmd : UInt8) (d : SmartDriver) :
    Option (Option Transmission × SmartDriver) :=
  if !d.fd then some (none, d.clearAnswer)
  else
    (pollLoopLogged upsLinkCheck (retriesOf cmd) d.clearAnswer).map fun out =>
      (some out.1, out.2)

theorem pollLoopLogged_snd (linkCheck : SmartDriver → Option SmartDriver) (retry : ℕ)
    (d : SmartDriver) :
    (pollLoopLogged linkCheck retry d).map Prod.snd = pollLoop linkCheck retry d := by
  induction retry generalizing d with
  | zero =>
      rw [pollLoopLogged, pollLoop]
      rcases d.attempt with ⟨stat, d'⟩
      simp only
      split_ifs
      · cases linkCheck d' <;> rfl
      · rfl
  | succ retry ih =>
      rw [pollLoopLogged, pollLoop]
      rcases d.attempt with ⟨stat, d'⟩
      simp only
      split_ifs
      · cases linkCheck d' with
        | none => rfl
        | some d'' => exact ih d''.clearAnswer
      · rfl

/-- The record changes nothing. -/
theorem smartPollLogged_snd (cmd : UInt8) (d : SmartDriver) :
    (smartPollLogged cmd d).map Prod.snd = smartPoll cmd d := by
  unfold smartPollLogged smartPoll smartPollWith
  split_ifs
  · rfl
  · rw [Option.map_map, ← pollLoopLogged_snd]
    rfl

/-! ## The buffer -/

theorem length_text_scan_le (room : ℕ) (events : List SerialEvent) :
    (scan room events).text.length ≤ room := by
  induction events generalizing room with
  | nil => simp [scan]
  | cons event events ih =>
      cases event with
      | timeout => simp [scan]
      | failed => simp [scan]
      | interrupted =>
          rw [scan]
          exact ih room
      | byte c =>
          rcases isAlert_or_isMark_or_lf_or_isText c with halert | hmark | rfl | htext
          · rw [scan_alert halert]
            exact ih room
          · rw [scan_mark hmark]
            exact ih room
          · rw [scan_lf]
            exact Nat.zero_le _
          · cases room with
            | zero =>
                rw [scan_text_full htext]
                exact le_rfl
            | succ room =>
                rw [scan_text htext]
                exact Nat.succ_le_succ (ih room)

/-- A reply that fits does not change the size of the buffer. -/
theorem length_filled {reply : Reply} {buffer : List UInt8}
    (hfits : reply.text.length + 1 ≤ buffer.length) :
    (reply.filled buffer).length = buffer.length := by
  unfold Reply.filled
  split_ifs
  · simp only [List.length_append, List.length_cons, List.length_drop]
    omega
  · simp only [List.length_append, List.length_drop]
    omega

/-- The buffer has its size. -/
def SmartDriver.Sized (d : SmartDriver) : Prop :=
  d.answer.length = answerSize

section Attempts

variable {d d' : SmartDriver}

theorem Sized.clearAnswer (hd : d.Sized) : d.clearAnswer.Sized := by
  simpa [SmartDriver.Sized, SmartDriver.clearAnswer] using hd

theorem events_transmission (d : SmartDriver) : d.transmission.events = d.heard := by
  have hprefix : (d.heard.take (d.waiting.headD 0)).takeWhile atOnce <+: d.heard :=
    (List.takeWhile_prefix _).trans (List.take_prefix _ _)
  exact List.prefix_iff_eq_append.mp hprefix

/-- One attempt reads the first reply of what the port delivers. -/
theorem attempt_eq (hd : d.Sized) :
    d.attempt = ((scan 1999 d.heard).complete,
      { d.writeCmd with
        answer := (scan 1999 d.heard).filled d.answer
        ups := (scan 1999 d.heard).alerts.foldl applyAlert d.ups
        input := (scan 1999 d.heard).rest :: d.input.tail }) := by
  have hread := @getline_eq answerSize d.answer (by decide) hd.ge d.heard d.ups
  have hroom : answerSize - 1 = 1999 := rfl
  rw [hroom] at hread
  have hwrite : d.writeCmd.answer = d.answer ∧ d.writeCmd.heard = d.heard ∧
      d.writeCmd.ups = d.ups := ⟨rfl, rfl, rfl⟩
  unfold SmartDriver.attempt SmartDriver.readAnswer
  rw [hwrite.1, hwrite.2.1, hwrite.2.2, hread]
  rfl

theorem Sized.attempt (hd : d.Sized) : d.attempt.2.Sized := by
  rw [attempt_eq hd]
  unfold SmartDriver.Sized at hd ⊢
  rw [← hd]
  apply length_filled
  have hlength := length_text_scan_le 1999 d.heard
  rw [hd]
  exact Nat.succ_le_succ hlength

/-- How an attempt goes on: it ends the call, or after the link check the call ends or the
command is sent again. -/
theorem pollLoopLogged_cases {linkCheck : SmartDriver → Option SmartDriver} {retry : ℕ}
    {sent : Transmission} (hrun : pollLoopLogged linkCheck retry d = some (sent, d')) :
    ((d.attempt.2.emptyAnswer && !d.attempt.1) = false ∧ sent = d.transmission ∧
        d' = d.attempt.2) ∨
      ∃ d₁, (d.attempt.2.emptyAnswer && !d.attempt.1) = true ∧
        linkCheck d.attempt.2 = some d₁ ∧
          ((sent = d.transmission ∧ d' = d₁.clearAnswer) ∨
            ∃ retry', retry = retry' + 1 ∧
              pollLoopLogged linkCheck retry' d₁.clearAnswer = some (sent, d')) := by
  rw [pollLoopLogged.eq_def] at hrun
  simp only at hrun
  by_cases hsilent : (d.attempt.2.emptyAnswer && !d.attempt.1) = true
  · rw [if_pos hsilent] at hrun
    rcases hcheck : linkCheck d.attempt.2 with - | d₁
    · simp [hcheck] at hrun
    · right
      refine ⟨d₁, hsilent, rfl, ?_⟩
      simp only [hcheck] at hrun
      cases retry with
      | zero =>
          simp only [Option.some.injEq, Prod.mk.injEq] at hrun
          exact Or.inl ⟨hrun.1.symm, hrun.2.symm⟩
      | succ retry' => exact Or.inr ⟨retry', rfl, hrun⟩
  · rw [if_neg hsilent] at hrun
    simp only [Option.some.injEq, Prod.mk.injEq] at hrun
    exact Or.inl ⟨Bool.eq_false_iff.mpr hsilent, hrun.1.symm, hrun.2.symm⟩

/-- The link check keeps the size of the buffer. -/
def KeepsSize (linkCheck : SmartDriver → Option SmartDriver) : Prop :=
  ∀ {d d'}, SmartDriver.Sized d → linkCheck d = some d' → SmartDriver.Sized d'

theorem Sized.pollLoopLogged {linkCheck : SmartDriver → Option SmartDriver}
    (hlink : KeepsSize linkCheck) {retry : ℕ} {sent : Transmission} (hd : d.Sized)
    (hrun : pollLoopLogged linkCheck retry d = some (sent, d')) : d'.Sized := by
  induction retry generalizing d with
  | zero =>
      rcases pollLoopLogged_cases hrun with
        ⟨-, -, rfl⟩ | ⟨d₁, -, hcheck, ⟨-, rfl⟩ | ⟨retry', hretry, -⟩⟩
      · exact Sized.attempt hd
      · exact Sized.clearAnswer (hlink (Sized.attempt hd) hcheck)
      · cases hretry
  | succ retry ih =>
      rcases pollLoopLogged_cases hrun with
        ⟨-, -, rfl⟩ | ⟨d₁, -, hcheck, ⟨-, rfl⟩ | ⟨retry', hretry, hrest⟩⟩
      · exact Sized.attempt hd
      · exact Sized.clearAnswer (hlink (Sized.attempt hd) hcheck)
      · cases hretry
        exact ih (Sized.clearAnswer (hlink (Sized.attempt hd) hcheck)) hrest

theorem Sized.smartPollWith {linkCheck : SmartDriver → Option SmartDriver}
    (hlink : KeepsSize linkCheck) {cmd : UInt8} (hd : d.Sized)
    (hrun : smartPollWith linkCheck cmd d = some d') : d'.Sized := by
  unfold ApcSmart.smartPollWith at hrun
  split_ifs at hrun
  · rw [← Option.some.inj hrun]
    exact Sized.clearAnswer hd
  · rw [← pollLoopLogged_snd] at hrun
    obtain ⟨⟨sent, d₁⟩, hlogged, rfl⟩ := Option.map_eq_some_iff.mp hrun
    exact Sized.pollLoopLogged hlink (Sized.clearAnswer hd) hlogged

theorem Sized.linkTurn (turn : LinkTurn) (hd : d.Sized) : (d.linkTurn turn).Sized := by
  unfold SmartDriver.linkTurn
  dsimp only
  split_ifs <;> exact hd

theorem Sized.linkLoop {turns : List LinkTurn} (hd : d.Sized)
    (hrun : linkLoop turns d = some d') : d'.Sized := by
  have hnested : ∀ {d d'}, SmartDriver.Sized d → smartPollNested d = some d' → d'.Sized :=
    fun hd hrun => Sized.smartPollWith (fun hd hsame => Option.some.inj hsame ▸ hd) hd hrun
  induction turns generalizing d with
  | nil =>
      rw [ApcSmart.linkLoop] at hrun
      rcases hpoll : smartPollNested d with - | d₁
      · simp [hpoll] at hrun
      · have hd₁ : d₁.Sized := hnested hd hpoll
        simp only [hpoll] at hrun
        split_ifs at hrun
        rw [← Option.some.inj hrun]
        exact hd₁
  | cons turn turns ih =>
      rw [ApcSmart.linkLoop] at hrun
      rcases hpoll : smartPollNested d with - | d₁
      · simp [hpoll] at hrun
      · have hd₁ : d₁.Sized := hnested hd hpoll
        simp only [hpoll] at hrun
        split_ifs at hrun
        · rw [← Option.some.inj hrun]
          exact hd₁
        · exact ih (Sized.linkTurn turn hd₁) hrun

theorem keepsSize_upsLinkCheck : KeepsSize upsLinkCheck := by
  intro d d' hd hrun
  unfold upsLinkCheck at hrun
  split_ifs at hrun
  · exact Option.some.inj hrun ▸ hd
  · have hstart : SmartDriver.Sized { d.tcflush with linkcheck := true } := hd
    rcases hpoll : smartPollNested { d.tcflush with linkcheck := true } with - | d₁
    · simp [hpoll] at hrun
    · have hd₁ : d₁.Sized :=
        Sized.smartPollWith (fun hd hsame => Option.some.inj hsame ▸ hd) hstart hpoll
      simp only [hpoll] at hrun
      split_ifs at hrun
      · rw [← Option.some.inj hrun]
        exact hd₁
      · obtain ⟨d₂, hloop, rfl⟩ := Option.map_eq_some_iff.mp hrun
        have hd₂ : d₂.Sized := Sized.linkLoop (d := d₁.tcflush) hd₁ hloop
        exact hd₂

end Attempts

/-! ## Whole reply lines -/

/-- The stream begins with a line whose characters are the string.  The line ends with a
line feed, or is cut where the buffer is full. -/
def BeginsWithLine (events : List SerialEvent) (string : List UInt8) : Prop :=
  ∃ line c rest, events = line ++ .byte c :: rest ∧ Unbroken line ∧
    string = (bytesOf line).filter isText ∧
      ((c = upsLf ∧ string.length ≤ 1999) ∨ (isText c = true ∧ string.length = 1999))

/-- Nothing of a reply waited in the port: neither a line feed nor a character of a reply. -/
def Transmission.Idle (sent : Transmission) : Prop :=
  Unbroken sent.waiting ∧ (bytesOf sent.waiting).filter isText = []

/-- Nothing of a reply came before the command, and what came behind it begins with a line whose
characters are the string. -/
def IsReplyLine (sent : Transmission) (string : List UInt8) : Prop :=
  sent.Idle ∧ BeginsWithLine sent.later string

/-- A complete reply is the one of an unbroken line. -/
theorem exists_line_of_complete {room : ℕ} {events : List SerialEvent}
    (hcomplete : (scan room events).complete = true) :
    ∃ line c rest, events = line ++ .byte c :: rest ∧ Unbroken line ∧
      (scan room events).text = (bytesOf line).filter isText ∧
        ((c = upsLf ∧ (scan room events).text.length ≤ room) ∨
          (isText c = true ∧ (scan room events).text.length = room)) := by
  induction events generalizing room with
  | nil => cases hcomplete
  | cons event events ih =>
      cases event with
      | timeout => cases hcomplete
      | failed => cases hcomplete
      | interrupted =>
          rw [scan] at hcomplete ⊢
          obtain ⟨line, c, rest, rfl, hline, htext, hend⟩ := ih hcomplete
          exact ⟨.interrupted :: line, c, rest, rfl,
            List.forall_mem_cons.mpr ⟨Or.inl rfl, hline⟩, htext, hend⟩
      | byte b =>
          have hbytes : ∀ line, bytesOf (.byte b :: line) = b :: bytesOf line := fun _ => rfl
          have hlonger {line : List SerialEvent} (hline : Unbroken line) (hlf : b ≠ upsLf) :
              Unbroken (.byte b :: line) :=
            List.forall_mem_cons.mpr ⟨Or.inr ⟨b, rfl, hlf⟩, hline⟩
          rcases isAlert_or_isMark_or_lf_or_isText b with halert | hmark | rfl | htext
          · have hlf : b ≠ upsLf := fun heq => absurd (heq ▸ halert) (by decide)
            rw [scan_alert halert] at hcomplete ⊢
            obtain ⟨line, c, rest, rfl, hline, hsame, hend⟩ := ih hcomplete
            refine ⟨.byte b :: line, c, rest, rfl, hlonger hline hlf, ?_, hend⟩
            rw [hbytes, List.filter_cons_of_neg (not_isText_of_isAlert halert)]
            exact hsame
          · have hlf : b ≠ upsLf := fun heq => absurd (heq ▸ hmark) (by decide)
            rw [scan_mark hmark] at hcomplete ⊢
            obtain ⟨line, c, rest, rfl, hline, hsame, hend⟩ := ih hcomplete
            refine ⟨.byte b :: line, c, rest, rfl, hlonger hline hlf, ?_, hend⟩
            rw [hbytes, List.filter_cons_of_neg (not_isText_of_isMark hmark)]
            exact hsame
          · rw [scan_lf]
            exact ⟨[], upsLf, events, rfl, by simp [Unbroken], rfl, Or.inl ⟨rfl, Nat.zero_le _⟩⟩
          · cases room with
            | zero =>
                rw [scan_text_full htext]
                exact ⟨[], b, events, rfl, by simp [Unbroken], rfl, Or.inr ⟨htext, rfl⟩⟩
            | succ room =>
                rw [scan_text htext] at hcomplete ⊢
                obtain ⟨line, c, rest, rfl, hline, hsame, hend⟩ := ih hcomplete
                refine ⟨.byte b :: line, c, rest, rfl, hlonger hline (isText_iff.mp htext).2.2,
                  ?_, ?_⟩
                · rw [hbytes, List.filter_cons_of_pos htext, ← hsame]
                · simpa using hend

/-- The whole line of a stream is what a scan finds. -/
theorem beginsWithLine_iff {events : List SerialEvent} {string : List UInt8} :
    BeginsWithLine events string ↔
      (scan 1999 events).complete = true ∧ string = (scan 1999 events).text := by
  constructor
  · rintro ⟨line, c, rest, rfl, hline, rfl, ⟨rfl, hroom⟩ | ⟨htext, hfull⟩⟩
    · rw [scan_unbroken hline hroom]
      exact ⟨rfl, rfl⟩
    · rw [scan_append hline hfull.le, hfull, Nat.sub_self, scan_text_full htext]
      simp [Reply.prepend]
  · rintro ⟨hcomplete, rfl⟩
    exact exists_line_of_complete hcomplete

/-- Announcements that waited do not count. -/
theorem Transmission.Idle.scan_events {sent : Transmission} (hidle : sent.Idle) :
    (scan 1999 sent.events).complete = (scan 1999 sent.later).complete ∧
      (scan 1999 sent.events).text = (scan 1999 sent.later).text := by
  have hroom : ((bytesOf sent.waiting).filter isText).length ≤ 1999 := by
    rw [hidle.2]
    exact Nat.zero_le _
  have hscan := scan_append hidle.1 hroom sent.later
  rw [hidle.2, List.length_nil, Nat.sub_zero] at hscan
  rw [Transmission.events, hscan]
  exact ⟨rfl, rfl⟩

/-- The whole reply line to a command is what a scan finds, if nothing waited. -/
theorem isReplyLine_iff {sent : Transmission} {string : List UInt8} :
    IsReplyLine sent string ↔
      sent.Idle ∧ (scan 1999 sent.events).complete = true ∧
        string = (scan 1999 sent.events).text := by
  refine and_congr_right fun hidle => ?_
  rw [beginsWithLine_iff, hidle.scan_events.1, hidle.scan_events.2]

/-! ## What a call returns -/

/-- The stream breaks off before a character of a reply, so that the attempt counts as
silent.  A reply that begins with NUL does not count either. -/
def Silent (events : List SerialEvent) : Prop :=
  (scan 1999 events).complete = false ∧ (scan 1999 events).text.headD 0 = 0

section Calls

variable {d d' : SmartDriver}

theorem emptyAnswer_clearAnswer (d : SmartDriver) : d.clearAnswer.emptyAnswer = true := by
  unfold SmartDriver.emptyAnswer SmartDriver.clearAnswer
  rcases d.answer with - | ⟨c, answer⟩ <;> rfl

theorem answerString_of_emptyAnswer (hempty : d.emptyAnswer = true) : d.answerString = [] := by
  unfold SmartDriver.emptyAnswer at hempty
  unfold SmartDriver.answerString
  rcases hanswer : d.answer with - | ⟨c, answer⟩
  · rfl
  · rw [hanswer] at hempty
    have hc : c = 0 := by simpa using hempty
    simp [hc]

/-- An attempt that starts with an empty answer comes back empty if it is silent. -/
theorem silent_iff (hd : d.Sized) (hempty : d.emptyAnswer = true) :
    (d.attempt.2.emptyAnswer && !d.attempt.1) = true ↔ Silent d.transmission.events := by
  rw [attempt_eq hd, events_transmission]
  unfold Silent SmartDriver.emptyAnswer at *
  dsimp only
  generalize scan 1999 d.heard = reply
  rcases reply with ⟨text, complete, alerts, rest⟩
  cases complete with
  | true => simp
  | false =>
      rcases text with - | ⟨c, text⟩
      · simpa [Reply.filled] using hempty
      · simp [Reply.filled]

/-- A call that was not silent at last returns what its last attempt has stored. -/
theorem pollLoopLogged_spec {linkCheck : SmartDriver → Option SmartDriver}
    (hlink : KeepsSize linkCheck) {retry : ℕ} {sent : Transmission} (hd : d.Sized)
    (hempty : d.emptyAnswer = true)
    (hrun : pollLoopLogged linkCheck retry d = some (sent, d')) :
    (Silent sent.events ∧ d'.emptyAnswer = true) ∨
      (¬ Silent sent.events ∧
        ∃ buffer, d'.answer = (scan 1999 sent.events).filled buffer) := by
  induction retry generalizing d with
  | zero =>
      rcases pollLoopLogged_cases hrun with
        ⟨hheard, rfl, rfl⟩ | ⟨d₁, hsilent, -, ⟨rfl, rfl⟩ | ⟨retry', hretry, -⟩⟩
      · right
        refine ⟨fun hsilent => ?_, d.answer, by rw [attempt_eq hd, events_transmission]⟩
        rw [(silent_iff hd hempty).mpr hsilent] at hheard
        cases hheard
      · exact Or.inl ⟨(silent_iff hd hempty).mp hsilent, emptyAnswer_clearAnswer d₁⟩
      · cases hretry
  | succ retry ih =>
      rcases pollLoopLogged_cases hrun with
        ⟨hheard, rfl, rfl⟩ | ⟨d₁, hsilent, hcheck, ⟨rfl, rfl⟩ | ⟨retry', hretry, hrest⟩⟩
      · right
        refine ⟨fun hsilent => ?_, d.answer, by rw [attempt_eq hd, events_transmission]⟩
        rw [(silent_iff hd hempty).mpr hsilent] at hheard
        cases hheard
      · exact Or.inl ⟨(silent_iff hd hempty).mp hsilent, emptyAnswer_clearAnswer d₁⟩
      · cases hretry
        have hd₁ := hlink (Sized.attempt hd) hcheck
        exact ih (Sized.clearAnswer hd₁) (emptyAnswer_clearAnswer d₁) hrest

/-- The returned string is empty, or a whole reply line to the last transmission. -/
def Unmixed (last : Option Transmission) (string : List UInt8) : Prop :=
  string = [] ∨ ∃ sent, last = some sent ∧ IsReplyLine sent string

/-- Nothing of a reply waited at the last transmission, what follows it does not break off
inside a reply, and its reply has no NUL in it.  A reply that begins with NUL counts as
empty. -/
def Whole (last : Option Transmission) : Prop :=
  ∀ sent, last = some sent → (scan 1999 sent.events).text.headD 0 = 0 ∨
    (sent.Idle ∧ (scan 1999 sent.events).complete = true ∧ 0 ∉ (scan 1999 sent.events).text)

theorem takeWhile_ne_eq_nil_iff {text : List UInt8} :
    text.takeWhile (· ≠ 0) = [] ↔ text.headD 0 = 0 := by
  rcases text with - | ⟨c, text⟩
  · simp
  · by_cases hc : c = 0 <;> simp [hc]

theorem takeWhile_ne_eq_self_iff {text : List UInt8} :
    text.takeWhile (· ≠ 0) = text ↔ 0 ∉ text := by
  rw [List.takeWhile_eq_self_iff]
  constructor
  · intro hall hmem
    simpa using hall 0 hmem
  · intro hmem c hc
    simpa using fun hzero : c = 0 => hmem (hzero ▸ hc)

/-- The string in a buffer that holds a complete reply. -/
theorem takeWhile_filled {reply : Reply} (hcomplete : reply.complete = true)
    (buffer : List UInt8) :
    (reply.filled buffer).takeWhile (· ≠ 0) = reply.text.takeWhile (· ≠ 0) := by
  unfold Reply.filled
  rw [if_pos hcomplete]
  generalize buffer.drop (reply.text.length + 1) = leftover
  induction reply.text with
  | nil => simp
  | cons c text ih => by_cases hc : c = 0 <;> simp_all

/-- The string in a buffer that holds the beginning of a reply begins with it. -/
theorem takeWhile_filled_ne_nil {reply : Reply} (hhead : reply.text.headD 0 ≠ 0)
    (buffer : List UInt8) : (reply.filled buffer).takeWhile (· ≠ 0) ≠ [] := by
  unfold Reply.filled
  rcases htext : reply.text with - | ⟨c, text⟩
  · rw [htext] at hhead
    simp at hhead
  · rw [htext] at hhead
    have hc : c ≠ 0 := hhead
    simp [hc]

/-- The drivers after any sequence of calls, between which anything but the static buffer may
change. -/
inductive Polled : SmartDriver → Prop
  | start {d : SmartDriver} (hanswer : d.answer = List.replicate answerSize 0) : Polled d
  | poll {d d' : SmartDriver} {cmd : UInt8} (hd : Polled d) (hrun : smartPoll cmd d = some d') :
      Polled d'
  | elsewhere {d d' : SmartDriver} (hd : Polled d) (hanswer : d'.answer = d.answer) : Polled d'

theorem Polled.sized (hd : Polled d) : d.Sized := by
  induction hd with
  | start hanswer =>
      unfold SmartDriver.Sized
      rw [hanswer, List.length_replicate]
  | poll hd hrun ih => exact Sized.smartPollWith keepsSize_upsLinkCheck ih hrun
  | elsewhere hd hanswer ih =>
      unfold SmartDriver.Sized at ih ⊢
      rw [hanswer, ih]

/-- What a call leaves in the buffer. -/
theorem smartPollLogged_spec {cmd : UInt8} {last : Option Transmission} (hd : d.Sized)
    (hrun : smartPollLogged cmd d = some (last, d')) :
    ((∀ sent, last = some sent → Silent sent.events) ∧ d'.emptyAnswer = true) ∨
      ∃ sent, last = some sent ∧ ¬ Silent sent.events ∧
        ∃ buffer, d'.answer = (scan 1999 sent.events).filled buffer := by
  unfold smartPollLogged at hrun
  split_ifs at hrun
  · simp only [Option.some.injEq, Prod.mk.injEq] at hrun
    obtain ⟨rfl, rfl⟩ := hrun
    exact Or.inl ⟨by simp, emptyAnswer_clearAnswer d⟩
  · obtain ⟨⟨sent, d₁⟩, hloop, hout⟩ := Option.map_eq_some_iff.mp hrun
    obtain ⟨rfl, rfl⟩ := Prod.mk.inj hout
    rcases pollLoopLogged_spec keepsSize_upsLinkCheck (Sized.clearAnswer hd)
        (emptyAnswer_clearAnswer d) hloop with ⟨hsilent, hempty⟩ | ⟨hheard, hbuffer⟩
    · exact Or.inl ⟨fun sent' hsame => Option.some.inj hsame ▸ hsilent, hempty⟩
    · exact Or.inr ⟨sent, rfl, hheard, hbuffer⟩

/-- A call that returns something mixed has met a break inside a reply, a NUL, or what waited in
the port. -/
theorem unmixed_iff_whole {last : Option Transmission}
    (hspec : ((∀ sent, last = some sent → Silent sent.events) ∧ d'.emptyAnswer = true) ∨
      ∃ sent, last = some sent ∧ ¬ Silent sent.events ∧
        ∃ buffer, d'.answer = (scan 1999 sent.events).filled buffer) :
    Unmixed last d'.answerString ↔ Whole last := by
  rcases hspec with ⟨hsilent, hempty⟩ | ⟨sent, rfl, hheard, buffer, hanswer⟩
  · refine iff_of_true (Or.inl (answerString_of_emptyAnswer hempty)) ?_
    exact fun sent hsame => Or.inl (hsilent sent hsame).2
  · have hstring : d'.answerString =
        ((scan 1999 sent.events).filled buffer).takeWhile (· ≠ 0) := by
      rw [SmartDriver.answerString, hanswer]
    rw [hstring]
    unfold Unmixed Whole
    simp only [Option.some.injEq, forall_eq', exists_eq_left', isReplyLine_iff]
    cases hcomplete : (scan 1999 sent.events).complete with
    | true =>
        rw [takeWhile_filled hcomplete, takeWhile_ne_eq_nil_iff, takeWhile_ne_eq_self_iff]
    | false =>
        have hhead : (scan 1999 sent.events).text.headD 0 ≠ 0 := fun hzero =>
          hheard ⟨hcomplete, hzero⟩
        have hne := takeWhile_filled_ne_nil hhead buffer
        simp only [hne, hhead, Bool.false_eq_true, false_and, and_false, or_self]

end Calls

/-- In any sequence of calls, a call returns nothing but a whole reply line to its last
transmission if and only if nothing of a reply waited in the port then, what follows is not
broken off inside a reply, and its reply has no NUL in it. -/
theorem smartPoll_unmixed_iff {d d' : SmartDriver} (hd : Polled d) {cmd : UInt8}
    {last : Option Transmission} (hrun : smartPollLogged cmd d = some (last, d')) :
    Unmixed last d'.answerString ↔ Whole last :=
  unmixed_iff_whole (smartPollLogged_spec hd.sized hrun)

/-! ## Two calls -/

/-- The whole reply {lit}`SMART`, and the beginning of another one before a timeout. -/
def brokenOff : SmartDriver where
  answer := List.replicate answerSize 0
  fd := true
  linkcheck := false
  ups := newUps (defaultConfig 0)
  input := [[.byte 0x53, .byte 0x4d, .byte 0x41, .byte 0x52, .byte 0x54, .byte 0x0d, .byte 0x0a,
    .byte 0x78, .byte 0x79, .timeout]]
  waiting := []
  turns := []

/-- The first call returns its reply. -/
theorem smartPoll_unmixed_first : ∃ last d', smartPollLogged 0x01 brokenOff = some (last, d') ∧
    d'.answerString = [0x53, 0x4d, 0x41, 0x52, 0x54] ∧ Unmixed last d'.answerString := by
  have hresult : (smartPollLogged 0x01 brokenOff).map
      (fun out => (out.1.map fun sent => (sent.waiting, scan 1999 sent.events),
        out.2.answerString)) =
        some (some ([], ⟨[0x53, 0x4d, 0x41, 0x52, 0x54], true, [],
            [.byte 0x78, .byte 0x79, .timeout]⟩), [0x53, 0x4d, 0x41, 0x52, 0x54]) := by
    decide +kernel
  obtain ⟨⟨last, d'⟩, hrun, hout⟩ := Option.map_eq_some_iff.mp hresult
  obtain ⟨hlast, hstring⟩ := Prod.mk.inj hout
  refine ⟨last, d', hrun, hstring, (smartPoll_unmixed_iff (Polled.start rfl) hrun).mpr ?_⟩
  rintro sent rfl
  obtain ⟨hwaiting, hscan⟩ := Prod.mk.inj (Option.some.inj hlast)
  have hidle : sent.Idle := by
    rw [Transmission.Idle, hwaiting]
    exact ⟨List.forall_mem_nil _, rfl⟩
  rw [hscan]
  exact Or.inr ⟨hidle, rfl, by decide⟩

/-- The second call returns {lit}`xyART`: behind what has arrived of its reply the first
reply shows through. -/
theorem smartPoll_mixes : ¬ ∀ d d' cmd last, Polled d →
    smartPollLogged cmd d = some (last, d') → Unmixed last d'.answerString := by
  intro hunmixed
  have hresult : ((smartPoll 0x01 brokenOff).bind (smartPollLogged 0x02)).map
      (fun out => (out.1, out.2.answerString)) =
        some (some ⟨[], [.byte 0x78, .byte 0x79, .timeout]⟩,
          [0x78, 0x79, 0x41, 0x52, 0x54]) := by
    decide +kernel
  obtain ⟨⟨last, d'⟩, hruns, hout⟩ := Option.map_eq_some_iff.mp hresult
  obtain ⟨d, hfirst, hsecond⟩ := Option.bind_eq_some_iff.mp hruns
  obtain ⟨rfl, hstring⟩ := Prod.mk.inj hout
  have hpolled : Polled d := Polled.poll (Polled.start rfl) hfirst
  rcases hunmixed d d' 0x02 _ hpolled hsecond with hempty | ⟨sent, hsent, hline⟩
  · rw [hstring] at hempty
    cases hempty
  · cases hsent
    exact absurd (isReplyLine_iff.mp hline).2.1 (by decide)

end ApcSmart

end Apcupsd
