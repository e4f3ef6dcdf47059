import Apcupsd.Foundations.CStrings
import Apcupsd.Foundations.Pieces
import Apcupsd.Foundations.RecentWindow

/-!
# The last events

{lit}`output_events` from {lit}`lib/apcevents.c`: the lines of the events file are read into a
ring of fifty buffers, and what the ring holds is then sent.

Main results:

- Theorem {lit}`sendFrom_spec`: the records are sent in their order until a call fails.
- Theorem {lit}`output_events_last`: the last fifty records are sent, and then the terminator.
-/

namespace Apcupsd
namespace Eventfile

open CStrings Pieces

/-! ## The code -/

/-- {lit}`NLE`. -/
def nle : ℕ := 50

instance : NeZero nle := ⟨by decide⟩

/-- {lit}`MAXSTRING`. -/
def maxString : ℕ := 256

/-- {lit}`le` with its index {lit}`i`, and {lit}`nrec`. -/
structure Collected where
  le : Ring nle (List Char)
  nrec : ℕ

/-- The body of the first loop: a line has been read into {lit}`le[i]`. -/
def collect (collected : Collected) (piece : List Char) : Collected where
  le := collected.le.push piece
  nrec := collected.nrec + 1

/-- The first loop. -/
def collectEvents (file : List Char) : Collected :=
  (pieces '\n' (maxString - 1) file).foldl collect ⟨Ring.empty, 0⟩

/-- The number of records to output. -/
def Collected.count (collected : Collected) : ℕ :=
  if collected.nrec > nle then nle else collected.nrec

/-- The first record to output. -/
def Collected.first (collected : Collected) : ℕ :=
  let i : ℕ := collected.le.next
  if collected.nrec > nle then i - (i / nle) * nle else 0

/-- What {lit}`net_send` is called with; no data is the end of a reply. -/
inductive EventMessage where
  | record (text : List Char)
  | eof
deriving DecidableEq, Repr

/-- The second loop, with {lit}`left` records to go: what is sent, and whether all calls have
succeeded.  {lit}`result` is what the calls return. -/
def sendFrom (le : Ring nle (List Char)) (result : ℕ → Int) :
    ℕ → ℕ → Fin nle → List EventMessage × Bool
  | 0, _, _ => ([], true)
  | left + 1, j, i =>
      let text := cString ((le.slots i).getD [])
      if result j ≤ 0 then ([.record text], false)
      else
        let (sent, ok) := sendFrom le result left (j + 1) (i + 1)
        (.record text :: sent, ok)

/-- {lit}`output_events`: what is sent, and the result.  {lit}`allocated` tells whether there is
memory for the buffers, and {lit}`eofResult` is what the call with the terminator returns. -/
def outputEvents (allocated : Bool) (result : ℕ → Int) (eofResult : Int) (file : List Char) :
    List EventMessage × Int :=
  let collected := collectEvents file
  let (sent, ok) :=
    if allocated then sendFrom collected.le result collected.count 0 (Fin.ofNat nle collected.first)
    else ([], false)
  (sent ++ [.eof], if ok ∧ 0 ≤ eofResult then 0 else -1)

/-! ## Events files -/

/-- A line that is not empty, without a NUL and short enough for a buffer. -/
structure EventLine (line : List Char) : Prop where
  nonempty : line ≠ []
  oneLine : OneLine line
  fits : line.length < maxString - 1

/-- An events file; its last line may lack its end. -/
structure EventsFile where
  lines : List (List Char)
  final : List Char
  wellFormed : ∀ line ∈ lines, EventLine line
  finalWellFormed : final ≠ [] → EventLine final

/-- The contents of the file. -/
def EventsFile.text (file : EventsFile) : List Char :=
  file.lines.flatMap (· ++ ['\n']) ++ file.final

/-- The lines of the file, with their ends. -/
def EventsFile.records (file : EventsFile) : List (List Char) :=
  file.lines.map (· ++ ['\n']) ++ if file.final = [] then [] else [file.final]

/-- The last lines of the file, not more than there are buffers. -/
def EventsFile.lastRecords (file : EventsFile) : List (List Char) :=
  file.records.drop (file.records.length - min file.records.length nle)

/-! ## Reading -/

theorem whole_flatMap (lines : List (List Char)) : Whole '\n' (lines.flatMap (· ++ ['\n'])) := by
  induction lines with
  | nil => exact whole_nil
  | cons line lines ih => exact (whole_line line).append ih

/-- Every line is read into a buffer of its own. -/
theorem pieces_text (file : EventsFile) :
    pieces '\n' (maxString - 1) file.text = file.records := by
  have hroom : 0 < maxString - 1 := by decide
  rw [EventsFile.text, EventsFile.records, pieces_append hroom (whole_flatMap _), pieces_lines]
  · congr 1
    by_cases hfinal : file.final = []
    · rw [hfinal, pieces_nil, if_pos rfl]
    · have hline := file.finalWellFormed hfinal
      rw [pieces_final hroom hline.oneLine.newline_not_mem hline.fits.le, if_neg hfinal]
  · intro line hmem
    have hline := file.wellFormed line hmem
    exact ⟨hline.oneLine.newline_not_mem, hline.fits⟩

theorem cString_record {file : EventsFile} {record : List Char} (hmem : record ∈ file.records) :
    cString record = record := by
  apply cString_of_notMem
  rcases List.mem_append.mp hmem with hline | hfinal
  · obtain ⟨line, hin, rfl⟩ := List.mem_map.mp hline
    have hnul := (file.wellFormed line hin).oneLine.nul_not_mem
    intro hmem
    rcases List.mem_append.mp hmem with hmem | hmem
    · exact hnul hmem
    · exact absurd (List.mem_singleton.mp hmem) (by decide)
  · split at hfinal
    · cases hfinal
    · next hne =>
        rw [List.mem_singleton.mp hfinal]
        exact (file.finalWellFormed hne).oneLine.nul_not_mem

/-- The first loop fills the ring with all records. -/
theorem foldl_collect (records : List (List Char)) (collected : Collected) :
    records.foldl collect collected =
      ⟨records.foldl Ring.push collected.le, collected.nrec + records.length⟩ := by
  induction records generalizing collected with
  | nil => rfl
  | cons record records ih =>
      rw [List.foldl_cons, ih, collect, List.foldl_cons, List.length_cons]
      congr 1
      dsimp only
      omega

theorem collectEvents_text (file : EventsFile) :
    collectEvents file.text = ⟨file.records.foldl Ring.push Ring.empty, file.records.length⟩ := by
  rw [collectEvents, pieces_text, foldl_collect, Nat.zero_add]

/-! ## Sending -/

/-- The records are sent in their order until a call fails, and all if none does. -/
theorem sendFrom_spec {le : Ring nle (List Char)} {result : ℕ → Int} {texts : List (List Char)}
    {i : ℕ} (hle : ∀ k (hk : k < texts.length), (le.slots (Fin.ofNat nle (i + k))).map cString =
      some texts[k]) (j : ℕ) :
    (sendFrom le result texts.length j (Fin.ofNat nle i)).1 <+: texts.map .record ∧
      ((∀ k < texts.length, 0 < result (j + k)) →
        sendFrom le result texts.length j (Fin.ofNat nle i) = (texts.map .record, true)) := by
  induction texts generalizing i j with
  | nil => exact ⟨List.prefix_refl _, fun _ => rfl⟩
  | cons text texts ih =>
      have hi : Fin.ofNat nle i + 1 = Fin.ofNat nle (i + 1) := by
        apply Fin.ext
        rw [Fin.val_add, Fin.val_one', Fin.val_ofNat, Fin.val_ofNat, ← Nat.add_mod]
      obtain ⟨hsent, hall⟩ := @ih (i + 1) (fun k hk => by
        have hslot := hle (k + 1) (Nat.succ_lt_succ hk)
        rw [show i + (k + 1) = i + 1 + k by omega] at hslot
        exact hslot) (j + 1)
      have htext : cString ((le.slots (Fin.ofNat nle i)).getD []) = text := by
        have hslot := hle 0 (Nat.succ_pos _)
        obtain ⟨stored, hstored, rfl⟩ := Option.map_eq_some_iff.mp hslot
        rw [Nat.add_zero] at hstored
        rw [hstored]
        rfl
      rw [List.length_cons, sendFrom, htext, hi]
      dsimp only
      constructor
      · split
        · exact List.prefix_append [_] _
        · exact List.cons_prefix_cons.mpr ⟨rfl, hsent⟩
      · intro hresult
        have hfirst : ¬ result j ≤ 0 := Int.not_le.mpr (hresult 0 (Nat.succ_pos _))
        rw [if_neg hfirst, hall fun k hk => by
          have hnext := hresult (k + 1) (Nat.succ_lt_succ hk)
          rw [show j + (k + 1) = j + 1 + k by omega] at hnext
          exact hnext]
        rfl

/-- The start of the second loop is the oldest record in the ring. -/
theorem first_collectEvents (file : EventsFile) :
    Fin.ofNat nle (collectEvents file.text).first =
      Fin.ofNat nle (file.records.length - min file.records.length nle) := by
  rw [collectEvents_text, Collected.first, Ring.next_foldl_push]
  dsimp only
  split
  · next hmore =>
      -- the index has not passed the end of the ring, so nothing is taken off
      have hlt : file.records.length % nle < nle := Nat.mod_lt _ (by decide)
      rw [Fin.val_ofNat, Nat.div_eq_of_lt hlt, Nat.zero_mul, Nat.sub_zero,
        Nat.min_eq_right hmore.le]
      apply Fin.ext
      rw [Fin.val_ofNat, Fin.val_ofNat, Nat.mod_mod, Nat.mod_eq_sub_mod hmore.le]
  · next hfew => rw [Nat.min_eq_left (Nat.le_of_not_lt hfew), Nat.sub_self]

theorem count_collectEvents (file : EventsFile) :
    (collectEvents file.text).count = min file.records.length nle := by
  rw [collectEvents_text, Collected.count]
  dsimp only
  split
  · next hmore => exact (Nat.min_eq_right hmore.le).symm
  · next hfew => exact (Nat.min_eq_left (Nat.le_of_not_lt hfew)).symm

/-- The last fifty lines of an events file are sent, each once and in their order, and then the
terminator; if a call fails, the lines before it. -/
theorem output_events_last (file : EventsFile) (result : ℕ → Int) (eofResult : Int) :
    ∃ sent stat, outputEvents true result eofResult file.text = (sent ++ [.eof], stat) ∧
      file.lastRecords.length = min file.records.length 50 ∧
      sent <+: file.lastRecords.map .record ∧
      ((∀ j < file.lastRecords.length, 0 < result j) →
        sent = file.lastRecords.map .record ∧ (0 ≤ eofResult → stat = 0)) := by
  have hlength : file.lastRecords.length = min file.records.length nle := by
    rw [EventsFile.lastRecords, List.length_drop]
    omega
  have hslots : ∀ k (hk : k < file.lastRecords.length),
      ((collectEvents file.text).le.slots
        (Fin.ofNat nle (file.records.length - min file.records.length nle + k))).map cString =
        some file.lastRecords[k] := by
    intro k hk
    rw [hlength] at hk
    rw [collectEvents_text, Ring.slots_foldl_push (by omega) (by omega), Option.map_some,
      cString_record (List.getElem_mem _)]
    simp [EventsFile.lastRecords]
  obtain ⟨hsent, hall⟩ := @sendFrom_spec _ result _ _ hslots 0
  rw [← hlength] at hsent hall
  refine ⟨_, _, rfl, hlength, ?_⟩
  rw [count_collectEvents, first_collectEvents, ← hlength]
  refine ⟨hsent, fun hresult => ?_⟩
  rw [hall fun k hk => by rw [Nat.zero_add]; exact hresult k hk]
  exact ⟨rfl, fun heof => if_pos ⟨rfl, heof⟩⟩

end Eventfile
end Apcupsd
