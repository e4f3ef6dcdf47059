import Apcupsd.ApcSmart.SmartPoll
import Apcupsd.Foundations.CyclicWalk

/-!
# Changing an EEPROM setting

{lit}`change_ups_eeprom_item` from {lit}`smarteeprom.c`.  A UPS can only be told to go on to the
next of the values that it permits, so they are gone through one after the other, until the
wanted one has come.

At the other end of the line is a UPS that answers every command.  Its announcements may come
anywhere between the characters of an answer.

Main results:

- Theorem {lit}`ask_value`, {lit}`ask_cycle`: what a command and the answer to it do.
- Theorem {lit}`cycleLoop_eq_search`: the loop is a search along a cyclic list.
- Theorem {lit}`endsWhereItShould_iff`: when the setting ends where it should.
- Theorem {lit}`changeUpsEepromItem_ends`: it does if there are at most ten values and the UPS does
  not begin with three equal ones.
-/

namespace Apcupsd
namespace ApcSmart

open CyclicWalk

/-! ## The UPS -/

/-- {lit}`sizeof(response)`, and of the other buffers for an answer. -/
def responseSize : ℕ := 32

/-- A UPS with an item that has permitted values.  An answer comes over the line as
{lit}`wire` says, which depends on how many answers there have been. -/
structure EepromUps where
  query : UInt8
  cycle : UInt8
  distinct : query ≠ cycle
  values : CyclicList (List UInt8)
  text : ∀ value ∈ values.entries, ∀ c ∈ value, isText c = true ∧ c ≠ 0
  short : ∀ value ∈ values.entries, value.length < responseSize
  wire : ℕ → List UInt8 → List SerialEvent
  carries : ∀ n answer, (∀ c ∈ answer, isText c = true) →
    Unbroken (wire n answer) ∧ (bytesOf (wire n answer)).filter isText = answer

/-- {lit}`OK`. -/
def ok : List UInt8 := [0x4f, 0x4b]

/-- {lit}`NA`. -/
def notAvailable : List UInt8 := [0x4e, 0x41]

/-- The line to a UPS: which value it is at, whether it has just been asked for it, the number of
answers, the characters on the line, and the status that the announcements change. -/
structure EepromPort where
  position : ℕ
  asked : Bool
  answers : ℕ
  input : List SerialEvent
  ups : UpsInfo

namespace EepromPort

/-- An answer is sent. -/
def answer (dev : EepromUps) (port : EepromPort) (text : List UInt8) : EepromPort :=
  { port with
    answers := port.answers + 1
    input := port.input ++ dev.wire port.answers text ++ [.byte upsLf] }

/-- {lit}`write` of a command, and the answer to it.  Only an item that has just been asked for
can be changed. -/
def write (dev : EepromUps) (port : EepromPort) (c : UInt8) : EepromPort :=
  if c = dev.query then
    { port.answer dev (dev.values.entry port.position) with asked := true }
  else if c = dev.cycle ∧ port.asked then
    { port.answer dev ok with position := port.position + 1, asked := false }
  else { port.answer dev notAvailable with asked := false }

end EepromPort

/-! ## The code -/

/-- An array of characters. -/
structure ResponseBuffer where
  bytes : List UInt8
  size : bytes.length = responseSize

/-- Reading a line does not change the size of a buffer. -/
theorem length_getline {len : ℕ} {buffer : List UInt8} (hpos : 0 < len)
    (hlen : len ≤ buffer.length) (ups : UpsInfo) (events : List SerialEvent) :
    ((getline (some buffer) len ups events).s.getD buffer).length = buffer.length := by
  have htext := length_text_scan_le (len - 1) events
  rw [getline_eq hpos hlen]
  exact length_filled (by omega)

namespace ResponseBuffer

/-- The string in a buffer. -/
def string (buffer : ResponseBuffer) : List UInt8 :=
  buffer.bytes.takeWhile (· ≠ 0)

/-- {lit}`*response = 0`. -/
def clear (buffer : ResponseBuffer) : ResponseBuffer :=
  ⟨buffer.bytes.set 0 0, by rw [List.length_set, buffer.size]⟩

end ResponseBuffer

/-- {lit}`getline` into a buffer. -/
def EepromPort.getline (port : EepromPort) (buffer : ResponseBuffer) :
    Bool × ResponseBuffer × EepromPort :=
  let out := ApcSmart.getline (some buffer.bytes) responseSize port.ups port.input
  (out.stat,
    ⟨out.s.getD buffer.bytes,
      (length_getline (by decide) buffer.size.ge port.ups port.input).trans buffer.size⟩,
    { port with input := out.rest, ups := out.ups })

/-- What is said about a call at its end. -/
inductive EepromOutcome where
  | noOldValue
  | unchanged
  | notStable
  | notOk (response : List UInt8)
  | errorCycling
  | changed (value : List UInt8)
  | unable (allvalues : List UInt8)
deriving DecidableEq, Repr

/-- The call returns {lit}`SUCCESS`. -/
def EepromOutcome.success : EepromOutcome → Bool
  | .unchanged | .changed _ => true
  | _ => false

/-- {lit}`strlcat` to {lit}`allvalues`, of a value and a blank. -/
def catValue (allvalues value : List UInt8) : List UInt8 :=
  let allvalues := allvalues ++ value.take (256 - 1 - allvalues.length)
  allvalues ++ [0x20].take (256 - 1 - allvalues.length)

/-- The variables of the loop. -/
structure EepromLocals where
  response : ResponseBuffer
  response1 : ResponseBuffer
  lastvalue : List UInt8
  allvalues : List UInt8

/-- The end of a turn: a value that is not the last one is added to the list. -/
def EepromLocals.next (vars : EepromLocals) (response response1 : ResponseBuffer) :
    EepromLocals :=
  if vars.lastvalue ≠ response.string then
    { response := response
      response1 := response1
      lastvalue := response.string
      allvalues := catValue vars.allvalues response.string }
  else { vars with response := response, response1 := response1 }

/-- The loop of {lit}`change_ups_eeprom_item`, with the turns that are left and those that have
been made. -/
def cycleLoop (dev : EepromUps) (cmd a : UInt8) (setting oldvalue : List UInt8) :
    ℕ → ℕ → EepromLocals → EepromPort → EepromOutcome × EepromPort
  | 0, _, vars, port =>
      let (_, _, port) := port.getline vars.response
      (.unable vars.allvalues, port)
  | left + 1, i, vars, port =>
      let (_, response1, port) := (port.write dev cmd).getline vars.response1
      let (_, response, port) := (port.write dev a).getline vars.response.clear
      if response.string ≠ ok then (.notOk response.string, port)
      else
        let (_, response1, port) := (port.write dev cmd).getline response1
        let (stat, response, port) := (port.write dev cmd).getline response
        if !stat ∨ response1.string ≠ response.string then
          let (_, _, port) := port.getline response
          (.errorCycling, port)
        else if setting = response.string then (.changed response.string, port)
        else if oldvalue = response.string ∧ i > 0 then
          let (_, _, port) := port.getline response
          (.unable vars.allvalues, port)
        else
          cycleLoop dev cmd a setting oldvalue left (i + 1) (vars.next response response1) port

/-- {lit}`change_ups_eeprom_item`; what the buffers hold to begin with is not known. -/
def changeUpsEepromItem (dev : EepromUps) (cmd a : UInt8) (setting : List UInt8)
    (oldvalue response response1 : ResponseBuffer) (port : EepromPort) :
    EepromOutcome × EepromPort :=
  let (stat, oldvalue, port) := (port.write dev cmd).getline oldvalue
  if !stat then (.noOldValue, port)
  else if oldvalue.string = setting then (.unchanged, port)
  else
    let (_, response, port) := (port.write dev cmd).getline response.clear
    if oldvalue.string ≠ response.string then (.notStable, port)
    else
      cycleLoop dev cmd a setting oldvalue.string 10 0
        { response := response
          response1 := response1
          lastvalue := oldvalue.string
          allvalues := catValue [] oldvalue.string } port

/-! ## Commands -/

/-- Nothing but announcements. -/
structure Quiet (events : List SerialEvent) : Prop where
  unbroken : Unbroken events
  noText : (bytesOf events).filter isText = []

theorem quiet_nil : Quiet [] :=
  ⟨nofun, rfl⟩

section Command

variable {dev : EepromUps} {port : EepromPort}

/-- A whole answer is read as it was sent, with the announcements before it. -/
theorem getline_answer {n : ℕ} {text : List UInt8} {noise : List SerialEvent}
    (htext : ∀ c ∈ text, isText c = true ∧ c ≠ 0) (hshort : text.length < responseSize)
    (hnoise : Quiet noise) (hinput : port.input = noise ++ dev.wire n text ++ [.byte upsLf])
    (buffer : ResponseBuffer) :
    ∃ buffer' ups', port.getline buffer = (true, buffer', { port with input := [], ups := ups' }) ∧
      buffer'.string = text := by
  obtain ⟨hwire, hcarried⟩ := dev.carries n text fun c hc => (htext c hc).1
  have hline : Unbroken (noise ++ dev.wire n text) :=
    List.forall_mem_append.mpr ⟨hnoise.unbroken, hwire⟩
  have hheard : (bytesOf (noise ++ dev.wire n text)).filter isText = text := by
    rw [bytesOf, List.filterMap_append, List.filter_append, ← bytesOf, ← bytesOf, hnoise.noText,
      hcarried, List.nil_append]
  have hscan := scan_unbroken hline (show _ ≤ responseSize - 1 by rw [hheard]; omega) []
  have hread := getline_eq (show 0 < responseSize by decide) buffer.size.ge port.input port.ups
  rw [hinput, hscan, hheard] at hread
  generalize (bytesOf (noise ++ dev.wire n text)).filter isAlert = alerts at hread
  have hsize : ((⟨text, true, alerts, []⟩ : Reply).filled buffer.bytes).length =
      responseSize := by
    rw [length_filled, buffer.size]
    rw [buffer.size]
    exact hshort
  refine ⟨⟨_, hsize⟩, alerts.foldl applyAlert port.ups, ?_, ?_⟩
  · unfold EepromPort.getline
    simp only [hinput, hread, Option.getD_some]
  · rw [ResponseBuffer.string, takeWhile_filled rfl, takeWhile_ne_eq_self_iff]
    exact fun hzero => (htext 0 hzero).2 rfl

/-- Asked for it, the UPS says at which value it is. -/
theorem ask_value (hquiet : Quiet port.input) (buffer : ResponseBuffer) :
    ∃ buffer' port', (port.write dev dev.query).getline buffer = (true, buffer', port') ∧
      buffer'.string = dev.values.entry port.position ∧
      port'.input = [] ∧ port'.asked = true ∧ port'.position = port.position := by
  have hmem := dev.values.entry_mem port.position
  have hinput : (port.write dev dev.query).input =
      port.input ++ dev.wire port.answers (dev.values.entry port.position) ++ [.byte upsLf] := by
    rw [EepromPort.write, if_pos rfl]
    rfl
  obtain ⟨buffer', ups', hget, hstring⟩ :=
    getline_answer (dev.text _ hmem) (dev.short _ hmem) hquiet hinput buffer
  refine ⟨buffer', _, hget, hstring, rfl, ?_⟩
  rw [EepromPort.write, if_pos rfl]
  exact ⟨rfl, rfl⟩

theorem text_of_all {text : List UInt8} (hall : text.all (fun c => isText c && c != 0) = true) :
    ∀ c ∈ text, isText c = true ∧ c ≠ 0 := by
  intro c hc
  have hchar := List.all_eq_true.mp hall c hc
  rwa [Bool.and_eq_true, bne_iff_ne] at hchar

/-- Told to, the UPS goes on to the next value. -/
theorem ask_cycle (hquiet : Quiet port.input) (hasked : port.asked = true)
    (buffer : ResponseBuffer) :
    ∃ buffer' port', (port.write dev dev.cycle).getline buffer = (true, buffer', port') ∧
      buffer'.string = ok ∧ port'.input = [] ∧ port'.position = port.position + 1 := by
  have hwrite : port.write dev dev.cycle =
      { port.answer dev ok with position := port.position + 1, asked := false } := by
    rw [EepromPort.write, if_neg dev.distinct.symm, if_pos ⟨rfl, hasked⟩]
  have hinput : (port.write dev dev.cycle).input =
      port.input ++ dev.wire port.answers ok ++ [.byte upsLf] := by
    rw [hwrite]
    rfl
  obtain ⟨buffer', ups', hget, hstring⟩ :=
    getline_answer (text_of_all (by decide)) (by decide) hquiet hinput buffer
  refine ⟨buffer', _, hget, hstring, rfl, ?_⟩
  rw [hwrite]

end Command

/-! ## The loop -/

section Loop

variable {dev : EepromUps} {port : EepromPort}

/-- One turn: the UPS goes on, and its new value is compared. -/
theorem cycleLoop_succ (hidle : port.input = []) (setting oldvalue : List UInt8) (left i : ℕ)
    (vars : EepromLocals) :
    ∃ vars' port' buffer, port'.input = [] ∧ port'.position = port.position + 1 ∧
      cycleLoop dev dev.query dev.cycle setting oldvalue (left + 1) i vars port =
        if setting = dev.values.entry (port.position + 1) then (.changed setting, port')
        else if oldvalue = dev.values.entry (port.position + 1) ∧ i > 0 then
          (.unable vars.allvalues, (port'.getline buffer).2.2)
        else cycleLoop dev dev.query dev.cycle setting oldvalue left (i + 1) vars' port' := by
  obtain ⟨buffer₁, port₁, hask₁, -, hidle₁, hasked₁, hposition₁⟩ :=
    @ask_value dev port (hidle ▸ quiet_nil) vars.response1
  obtain ⟨buffer₂, port₂, hask₂, hok, hidle₂, hposition₂⟩ :=
    @ask_cycle dev port₁ (hidle₁ ▸ quiet_nil) hasked₁ vars.response.clear
  obtain ⟨buffer₃, port₃, hask₃, hstring₃, hidle₃, -, hposition₃⟩ :=
    @ask_value dev port₂ (hidle₂ ▸ quiet_nil) buffer₁
  obtain ⟨buffer₄, port₄, hask₄, hstring₄, hidle₄, -, hposition₄⟩ :=
    @ask_value dev port₃ (hidle₃ ▸ quiet_nil) buffer₂
  rw [hposition₃] at hstring₄
  rw [hposition₂, hposition₁] at hstring₃ hstring₄
  have hmoved : port₄.position = port.position + 1 := by
    rw [hposition₄, hposition₃, hposition₂, hposition₁]
  refine ⟨vars.next buffer₄ buffer₃, port₄, buffer₄, hidle₄, hmoved, ?_⟩
  rw [cycleLoop]
  simp only [hask₁, hask₂, hask₃, hask₄, hok, hstring₃, hstring₄]
  rw [if_neg (not_not_intro rfl), if_neg (by simp)]
  by_cases hsetting : setting = dev.values.entry (port.position + 1)
  · rw [if_pos hsetting, if_pos hsetting, hsetting]
  · rw [if_neg hsetting, if_neg hsetting]

/-- The loop is a search along the list of the values. -/
theorem cycleLoop_eq_search {start left i : ℕ} (hidle : port.input = [])
    (hposition : port.position = start + i) (setting : List UInt8) (vars : EepromLocals) :
    let found := search (dev.values.onward start) setting left i
    let run := cycleLoop dev dev.query dev.cycle setting (dev.values.onward start 0) left i vars
      port
    run.1.success = found.1 ∧ run.2.position = start + found.2 := by
  induction left generalizing i vars port with
  | zero => exact ⟨rfl, hposition⟩
  | succ left ih =>
      obtain ⟨vars', port', buffer, hidle', hposition', hloop⟩ :=
        cycleLoop_succ hidle setting (dev.values.onward start 0) left i vars
      rw [hposition, Nat.add_assoc] at hposition'
      rw [hposition, Nat.add_assoc, ← CyclicList.onward] at hloop
      dsimp only
      rw [hloop, search]
      by_cases hsetting : setting = dev.values.onward start (i + 1)
      · rw [if_pos hsetting, if_pos hsetting.symm]
        exact ⟨rfl, hposition'⟩
      · rw [if_neg hsetting, if_neg (Ne.symm hsetting)]
        by_cases hback : Back (dev.values.onward start) (i + 1)
        · rw [if_pos hback, if_pos ⟨hback.1.symm, Nat.lt_of_succ_lt_succ hback.2⟩]
          exact ⟨rfl, hposition'⟩
        · rw [if_neg hback, if_neg fun hagain => hback ⟨hagain.1.symm, Nat.succ_lt_succ hagain.2⟩]
          exact ih hidle' hposition' vars'

end Loop

/-! ## A call -/

section Call

variable {dev : EepromUps} {port : EepromPort} {setting : List UInt8}
  {oldvalue response response1 : ResponseBuffer}

/-- A call ends at once if the UPS is at the setting, and is a search otherwise. -/
theorem changeUpsEepromItem_eq (hquiet : Quiet port.input) :
    let run := changeUpsEepromItem dev dev.query dev.cycle setting oldvalue response response1 port
    (setting = dev.values.onward port.position 0 →
      run.1.success = true ∧ run.2.position = port.position) ∧
    (setting ≠ dev.values.onward port.position 0 →
      let found := search (dev.values.onward port.position) setting 10 0
      run.1.success = found.1 ∧ run.2.position = port.position + found.2) := by
  obtain ⟨buffer₁, port₁, hask₁, hstring₁, hidle₁, -, hposition₁⟩ :=
    @ask_value dev port hquiet oldvalue
  obtain ⟨buffer₂, port₂, hask₂, hstring₂, hidle₂, -, hposition₂⟩ :=
    @ask_value dev port₁ (hidle₁ ▸ quiet_nil) response.clear
  rw [hposition₁] at hstring₂ hposition₂
  have hold : dev.values.entry port.position = dev.values.onward port.position 0 := rfl
  rw [hold] at hstring₁ hstring₂
  unfold changeUpsEepromItem
  simp only [hask₁, hask₂, hstring₁, hstring₂]
  rw [if_neg (by decide), if_neg (not_not_intro rfl)]
  constructor
  · intro hsame
    rw [if_pos hsame.symm]
    exact ⟨rfl, hposition₁⟩
  · intro hother
    rw [if_neg hother.symm]
    exact @cycleLoop_eq_search dev port₂ port.position 10 0 hidle₂ hposition₂ setting _

end Call

/-- A call succeeds exactly if the setting is permitted and leaves the UPS at it; one that fails
leaves the UPS at the value that it was at. -/
structure EndsWhereItShould (dev : EepromUps) (setting : List UInt8) (before : EepromPort)
    (run : EepromOutcome × EepromPort) : Prop where
  success_iff : run.1.success = true ↔ setting ∈ dev.values.entries
  reached : run.1.success = true → dev.values.entry run.2.position = setting
  restored : run.1.success = false →
    dev.values.entry run.2.position = dev.values.entry before.position

/-- The UPS is at the setting; or the setting is permitted, and ten commands to go on are enough
for it, but the next two values are not both the present one; or it is not permitted, and the
present value comes again after two to ten commands. -/
def WithinLimits (values : CyclicList (List UInt8)) (start : ℕ) (setting : List UInt8) : Prop :=
  setting = values.onward start 0 ∨
    (setting ∈ values.entries ∧ (∃ k ≤ 10, values.onward start k = setting) ∧
      ¬ (values.onward start 1 = values.onward start 0 ∧
        values.onward start 2 = values.onward start 0)) ∨
    (setting ∉ values.entries ∧ ∃ k ≤ 10, Back (values.onward start) k)

/-- Ten values are not too many. -/
theorem withinLimits_of_period {values : CyclicList (List UInt8)} (hperiod : values.period ≤ 10)
    {start : ℕ} (htriple : ¬ (values.onward start 1 = values.onward start 0 ∧
      values.onward start 2 = values.onward start 0)) (setting : List UInt8) :
    WithinLimits values start setting := by
  by_cases hmem : setting ∈ values.entries
  · obtain ⟨k, hk, hreached⟩ := (values.mem_entries_iff start).mp hmem
    exact Or.inr (Or.inl ⟨hmem, ⟨k, by omega, hreached⟩, htriple⟩)
  · exact Or.inr (Or.inr ⟨hmem, CyclicList.exists_back start hperiod (by decide)⟩)

section Search

variable {dev : EepromUps} {setting : List UInt8} {port : EepromPort}
  {run : EepromOutcome × EepromPort}

/-- A call that changes nothing because nothing is to be changed. -/
theorem endsWhereItShould_of_same (hsame : setting = dev.values.onward port.position 0)
    (hsuccess : run.1.success = true) (hposition : run.2.position = port.position) :
    EndsWhereItShould dev setting port run where
  success_iff := iff_of_true hsuccess (hsame ▸ dev.values.entry_mem _)
  reached := fun _ => hposition ▸ hsame.symm
  restored := fun hfailure => absurd (hsuccess.symm.trans hfailure) (by decide)

/-- A search ends where it should if it finds what is permitted, and comes back otherwise. -/
theorem endsWhereItShould_search_iff
    (hsuccess : run.1.success = (search (dev.values.onward port.position) setting 10 0).1)
    (hposition : run.2.position =
      port.position + (search (dev.values.onward port.position) setting 10 0).2) :
    EndsWhereItShould dev setting port run ↔
      (setting ∈ dev.values.entries →
        (search (dev.values.onward port.position) setting 10 0).1 = true) ∧
      (setting ∉ dev.values.entries → ∃ k ≤ 10, Back (dev.values.onward port.position) k) := by
  have hreached (hfound : (search (dev.values.onward port.position) setting 10 0).1 = true) :
      dev.values.entry run.2.position = setting := by
    rw [hposition]
    exact search_eq_target hfound
  have hrestored (hlost : (search (dev.values.onward port.position) setting 10 0).1 = false) :
      dev.values.entry run.2.position = dev.values.entry port.position ↔
        ∃ k ≤ 10, Back (dev.values.onward port.position) k := by
    rw [hposition]
    exact search_restored_iff (by decide) hlost
  have hmissing (hmem : setting ∉ dev.values.entries) :
      (search (dev.values.onward port.position) setting 10 0).1 = false := by
    refine Bool.eq_false_iff.mpr fun hfound => hmem ?_
    rw [← hreached hfound]
    exact dev.values.entry_mem _
  constructor
  · intro hends
    refine ⟨fun hmem => hsuccess ▸ hends.success_iff.mpr hmem, fun hmem => ?_⟩
    exact (hrestored (hmissing hmem)).mp (hends.restored (hsuccess.trans (hmissing hmem)))
  · rintro ⟨hfinds, hback⟩
    refine ⟨⟨fun hfound => ?_, fun hmem => hsuccess.trans (hfinds hmem)⟩,
      fun hfound => hreached (hsuccess ▸ hfound), fun hlost => ?_⟩
    · rw [← hreached (hsuccess ▸ hfound)]
      exact dev.values.entry_mem _
    · rw [hsuccess] at hlost
      refine (hrestored hlost).mpr (hback fun hmem => ?_)
      rw [hfinds hmem] at hlost
      cases hlost

end Search

/-- Where equal values are adjacent, a setting ends where it should exactly within these
limits. -/
theorem endsWhereItShould_iff {dev : EepromUps} (hadjacent : dev.values.EqualAdjacent)
    {port : EepromPort} (hquiet : Quiet port.input) (setting : List UInt8)
    (oldvalue response response1 : ResponseBuffer) :
    EndsWhereItShould dev setting port
        (changeUpsEepromItem dev dev.query dev.cycle setting oldvalue response response1 port) ↔
      WithinLimits dev.values port.position setting := by
  obtain ⟨hsame, hsearch⟩ := @changeUpsEepromItem_eq dev port setting oldvalue response response1
    hquiet
  by_cases hsetting : setting = dev.values.onward port.position 0
  · obtain ⟨hsuccess, hposition⟩ := hsame hsetting
    exact iff_of_true (endsWhereItShould_of_same hsetting hsuccess hposition) (Or.inl hsetting)
  · obtain ⟨hsuccess, hposition⟩ := hsearch hsetting
    rw [endsWhereItShould_search_iff hsuccess hposition, hadjacent.search_iff _ hsetting,
      WithinLimits, or_iff_right hsetting]
    by_cases hmem : setting ∈ dev.values.entries
    · simp [hmem]
    · simp [hmem]

/-- A call that succeeds leaves the UPS at the setting. -/
theorem changeUpsEepromItem_reached {dev : EepromUps} {port : EepromPort}
    (hquiet : Quiet port.input) {setting : List UInt8} {oldvalue response response1 : ResponseBuffer}
    (hsuccess : (changeUpsEepromItem dev dev.query dev.cycle setting oldvalue response response1
      port).1.success = true) :
    dev.values.entry (changeUpsEepromItem dev dev.query dev.cycle setting oldvalue response
      response1 port).2.position = setting := by
  obtain ⟨hsame, hsearch⟩ := @changeUpsEepromItem_eq dev port setting oldvalue response response1
    hquiet
  by_cases hsetting : setting = dev.values.onward port.position 0
  · rw [(hsame hsetting).2, hsetting]
    rfl
  · obtain ⟨hfound, hposition⟩ := hsearch hsetting
    rw [hposition]
    exact search_eq_target (hfound.symm.trans hsuccess)

/-- A call that succeeds leaves the UPS at the setting.  Where equal values are adjacent, it ends
where it should exactly within the limits, and so if there are at most ten values and the UPS does
not begin with three equal ones. -/
theorem changeUpsEepromItem_ends {dev : EepromUps} (hadjacent : dev.values.EqualAdjacent)
    {port : EepromPort} (hquiet : Quiet port.input) (setting : List UInt8)
    (oldvalue response response1 : ResponseBuffer) :
    let run := changeUpsEepromItem dev dev.query dev.cycle setting oldvalue response response1 port
    (run.1.success = true → dev.values.entry run.2.position = setting) ∧
      (EndsWhereItShould dev setting port run ↔ WithinLimits dev.values port.position setting) ∧
      (dev.values.period ≤ 10 →
        ¬ (dev.values.onward port.position 1 = dev.values.onward port.position 0 ∧
          dev.values.onward port.position 2 = dev.values.onward port.position 0) →
        EndsWhereItShould dev setting port run) := by
  have hends := endsWhereItShould_iff hadjacent hquiet setting oldvalue response response1
  refine ⟨changeUpsEepromItem_reached hquiet, hends, fun hperiod htriple => ?_⟩
  exact hends.mpr (withinLimits_of_period hperiod htriple setting)

/-! ## Examples of runs -/

/-- An answer without announcements. -/
def plainWire (_ : ℕ) (answer : List UInt8) : List SerialEvent :=
  answer.map .byte ++ [.byte upsCr]

theorem carries_plainWire (n : ℕ) (answer : List UInt8) (htext : ∀ c ∈ answer, isText c = true) :
    Unbroken (plainWire n answer) ∧ (bytesOf (plainWire n answer)).filter isText = answer := by
  have hbytes : bytesOf (plainWire n answer) = answer ++ [upsCr] := by
    simp [bytesOf, plainWire, List.filterMap_append, List.filterMap_map]
  constructor
  · intro event hevent
    rcases List.mem_append.mp hevent with hmem | hmem
    · obtain ⟨c, hc, rfl⟩ := List.mem_map.mp hmem
      exact Or.inr ⟨c, rfl, (isText_iff.mp (htext c hc)).2.2⟩
    · exact Or.inr ⟨upsCr, List.mem_singleton.mp hmem, by decide⟩
  · rw [hbytes, List.filter_append, List.filter_eq_self.mpr htext]
    exact List.append_nil answer

theorem texts_of_all {values : List (List UInt8)}
    (hall : values.all (fun value => value.all fun c => isText c && c != 0) = true) :
    ∀ value ∈ values, ∀ c ∈ value, isText c = true ∧ c ≠ 0 :=
  fun value hvalue => text_of_all (List.all_eq_true.mp hall value hvalue)

/-- A UPS whose item is asked for with {lit}`s`. -/
def plainUps (values : CyclicList (List UInt8))
    (htext : ∀ value ∈ values.entries, ∀ c ∈ value, isText c = true ∧ c ≠ 0)
    (hshort : ∀ value ∈ values.entries, value.length < responseSize) : EepromUps where
  query := 0x73
  cycle := 0x2d
  distinct := by decide
  values := values
  text := htext
  short := hshort
  wire := plainWire
  carries := carries_plainWire

/-- {lit}`H M L L`. -/
def sensitivities : EepromUps :=
  plainUps ⟨[[0x48], [0x4d], [0x4c], [0x4c]], by decide⟩ (texts_of_all (by decide)) (by decide)

/-- {lit}`L L L H`. -/
def threeEqual : EepromUps :=
  plainUps ⟨[[0x4c], [0x4c], [0x4c], [0x48]], by decide⟩ (texts_of_all (by decide)) (by decide)

/-- The twelve letters from {lit}`A` to {lit}`L`. -/
def twelveValues : EepromUps :=
  plainUps ⟨(List.range 12).map fun n => [0x41 + UInt8.ofNat n], by decide⟩
    (texts_of_all (by decide)) (by decide)

/-- A line on which nothing has been sent. -/
def quietPort : EepromPort where
  position := 0
  asked := false
  answers := 0
  input := []
  ups := newUps (defaultConfig 0)

def blankBuffer : ResponseBuffer :=
  ⟨List.replicate responseSize 0, by decide⟩

/-- From {lit}`H` to {lit}`L`. -/
theorem changeUpsEepromItem_sensitivity :
    EndsWhereItShould sensitivities [0x4c] quietPort
      (changeUpsEepromItem sensitivities 0x73 0x2d [0x4c] blankBuffer blankBuffer blankBuffer
        quietPort) :=
  (@changeUpsEepromItem_ends sensitivities (by decide +kernel) quietPort quiet_nil [0x4c] blankBuffer
    blankBuffer blankBuffer).2.2 (by decide) (by decide)

/-- A permitted value behind three equal ones is not reached; and after ten of twelve values, none
of which is the setting, the UPS is left at the eleventh. -/
theorem changeUpsEepromItem_limits :
    (threeEqual.values.EqualAdjacent ∧
      ¬ EndsWhereItShould threeEqual [0x48] quietPort
        (changeUpsEepromItem threeEqual 0x73 0x2d [0x48] blankBuffer blankBuffer blankBuffer
          quietPort)) ∧
    twelveValues.values.EqualAdjacent ∧
      ¬ EndsWhereItShould twelveValues [0x5a] quietPort
        (changeUpsEepromItem twelveValues 0x73 0x2d [0x5a] blankBuffer blankBuffer blankBuffer
          quietPort) := by
  refine ⟨⟨by decide +kernel, fun hends => ?_⟩, by decide +kernel, fun hends => ?_⟩
  · exact absurd (hends.success_iff.mpr (by decide)) (by decide +kernel)
  · exact absurd (hends.restored (by decide +kernel)) (by decide +kernel)

end ApcSmart
end Apcupsd
