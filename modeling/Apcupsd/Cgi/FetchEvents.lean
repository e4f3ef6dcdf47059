import Apcupsd.Foundations.CMemory
import Apcupsd.Nis.Socket

/-!
# The events in the list box

{lit}`fetch_events` from {lit}`cgi/upsfetch.c` receives the records of the event log and puts
each of them in front of those that came before, in a buffer of fixed size.

Main results:

- Theorem {lit}`text_storeRecord`: what one record does to the text in the buffer.
- Theorem {lit}`fetchEvents_newest_first`: the buffer holds the records, newest first, as far as
  there is room.
-/

namespace Apcupsd
namespace Cgi

open CMemory

/-! ## The code -/

/-- {lit}`sizeof(statbuf)`. -/
def statbufSize : ℕ := 4096

/-- {lit}`statbuf`. -/
abbrev Statbuf := {cells : List UInt8 // cells.length = statbufSize}

/-- {lit}`sizeof(buf) - 1`, the room for a record. -/
def recordSize : ℕ := 499

/-- The body of the loop, for the record that {lit}`net_recv` has left in {lit}`buf`. -/
def storeRecord (statbuf record : List UInt8) : List UInt8 :=
  let len := min (text 0 record).length (statbufSize - 1)
  -- move previous messages to the end of the buffer
  let moved := memmove statbuf len 0 (statbufSize - len - 1)
  -- copy new message
  (store moved 0 (record.take len)).set (statbufSize - 1) 0

/-- {lit}`fetch_events` when the request has been sent: what {lit}`net_recv` is at, and the
buffer. -/
structure EventsFetch where
  receiver : Receiver
  statbuf : List UInt8

namespace EventsFetch

/-- The buffer is emptied by a terminator at its front. -/
def start (pktsizMemory buff : ℕ → UInt8) (statbuf : List UInt8) : EventsFetch where
  receiver := Receiver.start pktsizMemory buff
  statbuf := statbuf.set 0 0

/-- One turn of {lit}`read_nbytes`, with the body of the loop if it completes a record. -/
def turn (fetch : EventsFetch) (attempt : Attempt) : EventsFetch :=
  if fetch.receiver.ended.isSome then fetch
  else
    let receiver := fetch.receiver.turn recordSize attempt
    { receiver
      statbuf :=
        (receiver.results.drop fetch.receiver.results.length).foldl storeRecord fetch.statbuf }

def run (fetch : EventsFetch) (attempts : List Attempt) : EventsFetch :=
  attempts.foldl turn fetch

/-- {lit}`stat`, when the loop has ended. -/
def stat (fetch : EventsFetch) : Option Int :=
  fetch.receiver.ended.map fun n => if n < 0 then 0 else 1

end EventsFetch

/-! ## One record -/

section Record

variable {statbuf : List UInt8} (hsize : statbuf.length = statbufSize)

include hsize

/-- The cells after a record: the record, what was there before, and a terminator. -/
theorem storeRecord_eq (record : List UInt8) :
    storeRecord statbuf record =
      (text 0 record).take (statbufSize - 1) ++
        (statbuf.take (statbufSize - 1 - (text 0 record).length) ++ [0]) := by
  obtain ⟨len, hlen⟩ : ∃ len, len = min (text 0 record).length (statbufSize - 1) := ⟨_, rfl⟩
  have hfront : record.take len = (text 0 record).take (statbufSize - 1) := by
    rw [take_eq_take_text (hlen ▸ Nat.min_le_left _ _), hlen, Nat.min_comm, ← List.take_eq_take_min]
  have hback : statbufSize - 1 - (text 0 record).length = statbufSize - len - 1 := by
    have hpositive : 1 ≤ statbufSize := by decide
    omega
  have hcopied : (record.take len).length = len := by
    rw [hfront, List.length_take, hlen, Nat.min_comm]
  have hkept : (statbuf.take (statbufSize - len - 1)).length = statbufSize - len - 1 := by
    rw [List.length_take, hsize]
    omega
  rcases List.length_eq_one_iff.mp (show (statbuf.drop (statbufSize - 1)).length = 1 by
    rw [List.length_drop, hsize]; rfl) with ⟨last, hlast⟩
  have hmoved : (memmove statbuf len 0 (statbufSize - len - 1)).drop len =
      statbuf.take (statbufSize - len - 1) ++ [last] := by
    rw [memmove, List.drop_zero, store, hkept, show len + (statbufSize - len - 1) =
      statbufSize - 1 by omega, hlast, List.append_assoc, List.drop_append,
      List.drop_of_length_le (List.length_take_le len statbuf), List.length_take, hsize,
      show len - min len statbufSize = 0 by omega, List.drop_zero, List.nil_append]
  have hend : statbufSize - 1 =
      (record.take len ++ statbuf.take (statbufSize - len - 1)).length := by
    rw [List.length_append, hcopied, hkept]
    omega
  unfold storeRecord
  dsimp only
  rw [← hlen, store_zero, hcopied, hmoved, ← List.append_assoc]
  conv_lhs => rw [hend]
  rw [List.set_append_right _ _ (Nat.le_refl _), Nat.sub_self, List.append_assoc, hfront, hback]
  rfl

theorem length_storeRecord (record : List UInt8) :
    (storeRecord statbuf record).length = statbufSize := by
  rw [storeRecord_eq hsize, List.length_append, List.length_append, List.length_take,
    List.length_take, hsize, List.length_singleton]
  have hpositive : 1 ≤ statbufSize := by decide
  omega

/-- A record comes in front of the text; what there is no room for is cut. -/
theorem text_storeRecord (record : List UInt8) :
    text 0 (storeRecord statbuf record) =
      (text 0 record ++ text 0 statbuf).take (statbufSize - 1) := by
  have hfront : 0 ∉ (text 0 record).take (statbufSize - 1) :=
    fun hmem => nul_not_mem_text 0 record (List.mem_of_mem_take hmem)
  rw [storeRecord_eq hsize, text_append hfront, text_take_append, List.take_append]

end Record

/-! ## All records -/

/-- What is cut before a text is put in front would be cut behind it. -/
theorem take_append_take {α : Type*} (front back : List α) (n : ℕ) :
    (front ++ back.take n).take n = (front ++ back).take n := by
  rw [List.take_append, List.take_append, List.take_take, Nat.min_eq_left (Nat.sub_le _ _)]

/-- Records that are stored one after the other. -/
theorem text_foldl_storeRecord {statbuf : List UInt8} (hsize : statbuf.length = statbufSize)
    (hend : (text 0 statbuf).length < statbufSize) (records : List (List UInt8)) :
    (records.foldl storeRecord statbuf).length = statbufSize ∧
      text 0 (records.foldl storeRecord statbuf) =
        ((records.map (text 0)).reverse.flatten ++ text 0 statbuf).take (statbufSize - 1) := by
  induction records generalizing statbuf with
  | nil => exact ⟨hsize, (List.take_of_length_le (Nat.le_sub_one_of_lt hend)).symm⟩
  | cons record records ih =>
      have hstored := text_storeRecord hsize record
      have hlength : (text 0 (storeRecord statbuf record)).length < statbufSize := by
        rw [hstored, List.length_take]
        have hpositive : 0 < statbufSize := by decide
        omega
      rcases ih (length_storeRecord hsize record) hlength with ⟨hcells, htext⟩
      refine ⟨hcells, ?_⟩
      rw [List.foldl_cons, htext, hstored, take_append_take, List.map_cons, List.reverse_cons,
        List.flatten_append, List.flatten_singleton, List.append_assoc]

/-! ## The loop -/

namespace EventsFetch

/-- In every state the buffer has been given the records that have been received. -/
def Stored (before : List UInt8) (fetch : EventsFetch) : Prop :=
  fetch.statbuf = fetch.receiver.results.foldl storeRecord before

theorem stored_start (pktsizMemory buff : ℕ → UInt8) (statbuf : List UInt8) :
    Stored (statbuf.set 0 0) (start pktsizMemory buff statbuf) :=
  rfl

theorem Stored.turn {before : List UInt8} {fetch : EventsFetch} (hstored : Stored before fetch)
    (attempt : Attempt) : Stored before (fetch.turn attempt) := by
  unfold EventsFetch.turn
  split
  · exact hstored
  · have hresults : ∃ fresh, (fetch.receiver.turn recordSize attempt).results =
        fetch.receiver.results ++ fresh := by
      rcases fetch.receiver.turn_results attempt with hsame | ⟨-, record, hmore⟩
      · exact ⟨[], hsame.trans (List.append_nil _).symm⟩
      · exact ⟨[record], hmore⟩
    rcases hresults with ⟨fresh, hfresh⟩
    unfold Stored at hstored ⊢
    dsimp only
    rw [hfresh, List.drop_left, List.foldl_append, hstored]

theorem Stored.run {before : List UInt8} {fetch : EventsFetch} (hstored : Stored before fetch)
    (attempts : List Attempt) : Stored before (fetch.run attempts) := by
  induction attempts generalizing fetch with
  | nil => exact hstored
  | cons attempt attempts ih => exact ih (hstored.turn attempt)

end EventsFetch

/-- However the records come in, the buffer keeps its size and ends with a terminator, and holds
the records in the reverse order of their arrival, as far as there is room. -/
theorem fetchEvents_newest_first (pktsizMemory buff : ℕ → UInt8) (statbuf : Statbuf)
    (attempts : List Attempt) :
    let fetched := (EventsFetch.start pktsizMemory buff statbuf.1).run attempts
    (∀ record ∈ fetched.receiver.results, (0 : UInt8) ∉ record) →
      fetched.statbuf.length = statbufSize ∧ 0 ∈ fetched.statbuf ∧
        text 0 fetched.statbuf =
          fetched.receiver.results.reverse.flatten.take (statbufSize - 1) := by
  intro fetched hrecords
  have hstored : fetched.statbuf =
      fetched.receiver.results.foldl storeRecord (statbuf.1.set 0 0) :=
    (EventsFetch.stored_start pktsizMemory buff statbuf.1).run attempts
  have hempty : text 0 (statbuf.1.set 0 0) = [] := by
    rcases List.exists_cons_of_ne_nil (List.ne_nil_of_length_pos
      (show 0 < statbuf.1.length by rw [statbuf.2]; decide)) with ⟨c, rest, heq⟩
    rw [heq, List.set_cons_zero, text_nul_cons]
  have hwhole : fetched.receiver.results.map (text 0) = fetched.receiver.results := by
    refine (List.map_congr_left fun record hmem => ?_).trans (List.map_id _)
    exact text_of_not_mem (hrecords record hmem)
  rcases text_foldl_storeRecord ((List.length_set ..).trans statbuf.2)
    (by rw [hempty]; decide) fetched.receiver.results with ⟨hsize, htext⟩
  rw [← hstored] at hsize htext
  rw [hwhole, hempty, List.append_nil] at htext
  refine ⟨hsize, length_text_lt_iff.mp ?_, htext⟩
  rw [htext, hsize, List.length_take]
  have hpositive : 0 < statbufSize := by decide
  omega

/-- Two records that come in one by one. -/
def twoRecords : List Attempt :=
  [.received [0, 2], .received [0x61, 0x0a], .received [0, 2], .received [0x62, 0x0a]]

/-- A buffer full of blanks. -/
def blankStatbuf : Statbuf :=
  ⟨List.replicate statbufSize 0x20, List.length_replicate⟩

/-- The second one stands in front. -/
theorem fetchEvents_twoRecords :
    text 0 ((EventsFetch.start (fun _ => 0) (fun _ => 0) blankStatbuf.1).run twoRecords).statbuf =
      [0x62, 0x0a, 0x61, 0x0a] := by
  have hnewest := fetchEvents_newest_first (fun _ => 0) (fun _ => 0) blankStatbuf twoRecords
    (by decide +kernel)
  rw [hnewest.2.2]
  decide +kernel

end Cgi
end Apcupsd
