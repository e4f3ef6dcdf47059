import Apcupsd.Foundations.CStrings
import Apcupsd.Foundations.PartialTransfer

/-!
# Trimming the events file

{lit}`trim_eventfile` from {lit}`lib/apcevents.c`.  The file is a list of bytes; the calls of
{lit}`read` and {lit}`write` may move less than they are asked for, or fail.

Main results:

- Theorem {lit}`trimEventfile_enabled`: the file is left alone, or what follows the first
  newline of its end is written back.
- Theorem {lit}`trim_keeps_recent_iff`: when this end is the one that the limit allows.
- Theorem {lit}`trim_read_error_iff`: a read error never leaves the file as it was.
-/

namespace Apcupsd
namespace Eventfile

open CStrings PartialTransfer

/-! ## The code -/

/-- The fields of {lit}`UPSINFO` that {lit}`trim_eventfile` reads. -/
structure EventUps where
  eventfilemax : Int
  eventFd : Int
  eventfile : List Char

/-- How the calls come out, and the date in front of a logged message. -/
structure TrimCalls where
  statFails : Bool
  allocated : Bool
  reads : ℕ → Attempt
  writes : ℕ → Attempt
  date : List UInt8

/-- The result, the contents of the file, and {lit}`rwerror`. -/
structure Trimmed where
  status : Int
  contents : List UInt8
  rwerror : ℕ
deriving DecidableEq, Repr

/-- The newline character. -/
def newline : UInt8 := 10

/-- What {lit}`log_event` appends to the file. -/
def logged (calls : TrimCalls) (message : String) : List UInt8 :=
  calls.date ++ message.toUTF8.toList ++ [newline]

/-- The last bytes of a file, from {lit}`lseek` on. -/
def lastBytes (n : ℕ) (contents : List UInt8) : List UInt8 :=
  contents.drop (contents.length - n)

/-- What is left when the first line has been skipped. -/
def skipFirstLine (buf : List UInt8) : List UInt8 :=
  (buf.dropWhile (· ≠ newline)).tail

/-- {lit}`maxb`, to begin with. -/
def limitBytes (eventfilemax : Int) : Int :=
  wrapInt (eventfilemax * 1024)

/-- {lit}`maxb`, reduced to 80 percent. -/
def keptBytes (eventfilemax : Int) : Int :=
  (wrapInt (limitBytes eventfilemax * 80)).tdiv 100

/-- What follows {lit}`lseek`.  Behind it the file has exactly {lit}`maxb` bytes, so that a read
returns none only when none are wanted. -/
def rewriteEnd (calls : TrimCalls) (maxb : ℕ) (contents : List UInt8) : Trimmed :=
  let (buf, readFailed) := transfer calls.reads maxb 0 (lastBytes maxb contents)
  let rest := skipFirstLine buf
  let (written, writeFailed) := transfer calls.writes rest.length 0 rest
  let rwerror := readFailed.toNat + writeFailed.toNat
  { status := 1
    contents :=
      if rwerror ≠ 0 then written ++ logged calls "read/write failed in trim_eventfile."
      else written
    rwerror := rwerror }

/-- {lit}`trim_eventfile`. -/
def trimEventfile (ups : EventUps) (calls : TrimCalls) (contents : List UInt8) : Trimmed :=
  if ups.eventfilemax = 0 ∨ ups.eventFd < 0 ∨ ups.eventfile = [] then ⟨0, contents, 0⟩
  else if calls.statFails then ⟨-1, contents, 0⟩
  else if (contents.length : Int) ≤ limitBytes ups.eventfilemax then ⟨0, contents, 0⟩
  else
    let maxb := keptBytes ups.eventfilemax
    -- a negative size is a huge one for malloc
    if maxb < 0 ∨ ¬ calls.allocated then ⟨-1, contents, 0⟩
    else if (contents.length : Int) < maxb then
      ⟨-1, contents ++ logged calls "lseek failed in trim_eventfile.", 0⟩
    else rewriteEnd calls maxb.toNat contents

/-- Trimming is turned on. -/
structure EventUps.Enabled (ups : EventUps) : Prop where
  opened : 0 ≤ ups.eventFd
  named : ups.eventfile ≠ []
  positive : 0 < ups.eventfilemax

/-- The file is too large, and the buffer can be filled from its end. -/
structure Rewrites (ups : EventUps) (contents : List UInt8) : Prop where
  tooLarge : limitBytes ups.eventfilemax < contents.length
  nonneg : 0 ≤ keptBytes ups.eventfilemax
  within : keptBytes ups.eventfilemax ≤ contents.length

/-! ## Runs -/

/-- The end is written back if no call fails. -/
theorem rewriteEnd_of_rwerror {calls : TrimCalls} {maxb : ℕ} {contents : List UInt8}
    (hle : maxb ≤ contents.length) (hok : (rewriteEnd calls maxb contents).rwerror = 0) :
    (rewriteEnd calls maxb contents).contents = skipFirstLine (lastBytes maxb contents) := by
  have hlength : (lastBytes maxb contents).length ≤ maxb := by
    rw [lastBytes, List.length_drop]
    omega
  unfold rewriteEnd at hok ⊢
  by_cases hread : FailsIn calls.reads 0 (lastBytes maxb contents).length
  · obtain ⟨part, rest, -, -, hpart⟩ := transfer_of_failsIn hlength hread
    rw [hpart] at hok
    exact absurd hok (by simp)
  · rw [transfer_of_not_failsIn hlength hread] at hok ⊢
    dsimp only at hok ⊢
    by_cases hwrite : FailsIn calls.writes 0 (skipFirstLine (lastBytes maxb contents)).length
    · obtain ⟨part, rest, -, -, hpart⟩ := transfer_of_failsIn le_rfl hwrite
      rw [hpart] at hok
      exact absurd hok (by simp)
    · rw [transfer_of_not_failsIn le_rfl hwrite]
      rfl

theorem EventUps.Enabled.not_off {ups : EventUps} (henabled : ups.Enabled) :
    ¬ (ups.eventfilemax = 0 ∨ ups.eventFd < 0 ∨ ups.eventfile = []) := by
  have hopened := henabled.opened
  have hpositive := henabled.positive
  rintro (hzero | hclosed | hunnamed)
  · omega
  · omega
  · exact henabled.named hunnamed

/-- With trimming turned on the file is left alone, or its end is written back. -/
theorem trimEventfile_enabled {ups : EventUps} (henabled : ups.Enabled) (calls : TrimCalls)
    (contents : List UInt8) :
    (contents.length ≤ limitBytes ups.eventfilemax ∧
      trimEventfile ups calls contents = ⟨0, contents, 0⟩) ∨
    (trimEventfile ups calls contents).status = -1 ∨
    (Rewrites ups contents ∧ trimEventfile ups calls contents =
      rewriteEnd calls (keptBytes ups.eventfilemax).toNat contents) := by
  unfold trimEventfile
  rw [if_neg henabled.not_off]
  split
  · exact Or.inr (Or.inl rfl)
  split
  · next hsmall => exact Or.inl ⟨hsmall, rfl⟩
  · next hlarge =>
      dsimp only
      split
      · exact Or.inr (Or.inl rfl)
      · next hmalloc =>
          split
          · exact Or.inr (Or.inl rfl)
          · next hseek =>
              rw [not_or] at hmalloc
              exact Or.inr (Or.inr ⟨⟨Int.not_le.mp hlarge, Int.not_lt.mp hmalloc.1,
                Int.not_lt.mp hseek⟩, rfl⟩)

/-- The way to the loops. -/
theorem trimEventfile_of_rewrites {ups : EventUps} (henabled : ups.Enabled) {calls : TrimCalls}
    (hstat : calls.statFails = false) (hmalloc : calls.allocated = true) {contents : List UInt8}
    (hrewrites : Rewrites ups contents) :
    trimEventfile ups calls contents =
      rewriteEnd calls (keptBytes ups.eventfilemax).toNat contents := by
  have hbuffer : ¬ (keptBytes ups.eventfilemax < 0 ∨ ¬ calls.allocated = true) := by
    rw [not_or, not_not]
    exact ⟨Int.not_lt.mpr hrewrites.nonneg, hmalloc⟩
  unfold trimEventfile
  rw [if_neg henabled.not_off, if_neg (by rw [hstat]; decide),
    if_neg (Int.not_le.mpr hrewrites.tooLarge)]
  dsimp only
  rw [if_neg hbuffer, if_neg (Int.not_lt.mpr hrewrites.within)]

/-! ## The end of a file -/

/-- The end of a file within a longer end. -/
theorem lastBytes_of_le {m n : ℕ} (hle : m ≤ n) (contents : List UInt8) :
    lastBytes n contents =
      (lastBytes n contents).take ((lastBytes n contents).length - m) ++ lastBytes m contents := by
  have hdrop : (lastBytes n contents).drop ((lastBytes n contents).length - m) =
      lastBytes m contents := by
    rw [lastBytes, lastBytes, List.drop_drop, List.length_drop]
    congr 1
    omega
  rw [← hdrop, List.take_append_drop]

theorem lastBytes_eq_nil_iff {n : ℕ} {contents : List UInt8} (hle : n ≤ contents.length) :
    lastBytes n contents = [] ↔ n = 0 := by
  rw [lastBytes, List.drop_eq_nil_iff]
  omega

theorem length_skipFirstLine (buf : List UInt8) :
    (skipFirstLine buf).length ≤ buf.length - 1 := by
  rw [skipFirstLine, List.length_tail]
  have hle := (List.dropWhile_suffix (l := buf) (· ≠ newline)).length_le
  omega

/-- A part without a newline does not count. -/
theorem skipFirstLine_append_of_notMem {front : List UInt8} (hfront : newline ∉ front)
    (back : List UInt8) : skipFirstLine (front ++ back) = skipFirstLine back := by
  rw [skipFirstLine, List.dropWhile_append_of_pos, skipFirstLine]
  intro byte hmem
  have hne : byte ≠ newline := fun heq => hfront (heq ▸ hmem)
  simpa using hne

/-- What follows a part with a newline is kept. -/
theorem skipFirstLine_append_of_mem {front : List UInt8} (hfront : newline ∈ front)
    (back : List UInt8) : skipFirstLine (front ++ back) = skipFirstLine front ++ back := by
  induction front with
  | nil => cases hfront
  | cons byte front ih =>
      by_cases hbyte : byte = newline
      · simp [skipFirstLine, hbyte]
      · have hrest := ih ((List.mem_cons.mp hfront).resolve_left (Ne.symm hbyte))
        simpa [skipFirstLine, hbyte] using hrest

/-- A longer end comes to the same if it has no newline in front. -/
theorem skipFirstLine_append_iff (front back : List UInt8) :
    skipFirstLine (front ++ back) = skipFirstLine back ↔
      newline ∉ front ∨ back = [] ∧ skipFirstLine front = [] := by
  constructor
  · intro heq
    by_cases hmem : newline ∈ front
    · right
      rw [skipFirstLine_append_of_mem hmem] at heq
      have hlength := congrArg List.length heq
      rw [List.length_append] at hlength
      have hle := length_skipFirstLine back
      exact ⟨List.length_eq_zero_iff.mp (by omega), List.length_eq_zero_iff.mp (by omega)⟩
    · exact Or.inl hmem
  · rintro (hmem | ⟨rfl, hnil⟩)
    · exact skipFirstLine_append_of_notMem hmem back
    · rw [List.append_nil, hnil]
      rfl

/-- Whole lines from the end of a file, and not more than so many bytes. -/
structure RecentLines (n : ℕ) (contents lines : List UInt8) : Prop where
  recent : lines <:+ contents
  whole : lines ≠ [] → newline :: lines <:+ contents
  within : lines.length ≤ n

theorem recentLines_skipFirstLine (n : ℕ) (contents : List UInt8) :
    RecentLines n contents (skipFirstLine (lastBytes n contents)) := by
  have hlast : lastBytes n contents <:+ contents := List.drop_suffix _ _
  have hdropped : (lastBytes n contents).dropWhile (· ≠ newline) <:+ contents :=
    (List.dropWhile_suffix _).trans hlast
  refine ⟨(List.tail_suffix _).trans hdropped, fun hne => ?_, ?_⟩
  · rw [skipFirstLine] at hne ⊢
    cases hdrop : (lastBytes n contents).dropWhile (· ≠ newline) with
    | nil => exact absurd (by rw [hdrop]; rfl) hne
    | cons byte rest =>
        have hbyte := List.head?_dropWhile_not (· ≠ newline) (lastBytes n contents)
        rw [hdrop] at hbyte hdropped
        obtain rfl : byte = newline := by simpa using hbyte
        exact hdropped
  · have hskip := length_skipFirstLine (lastBytes n contents)
    have hlength : (lastBytes n contents).length ≤ n := by
      rw [lastBytes, List.length_drop]
      omega
    omega

/-! ## The limit -/

/-- 80 percent of the limit, in bytes. -/
def allowedBytes (eventfilemax : Int) : ℕ :=
  1024 * eventfilemax.toNat * 80 / 100

theorem wrapInt_cases (n : Int) :
    ∃ k : Int, wrapInt n = n - 2 ^ 32 * k ∧ -2 ^ 31 ≤ wrapInt n ∧ wrapInt n < 2 ^ 31 := by
  refine ⟨n / 2 ^ 32 + if n % 2 ^ 32 < 2 ^ 31 then 0 else 1, ?_⟩
  rw [wrapInt, BitVec.toInt_ofInt, Int.bmod]
  norm_num
  split <;> omega

/-- A number that wraps round gets smaller. -/
theorem wrapInt_le {n : Int} (hn : 0 ≤ n) : wrapInt n ≤ n := by
  obtain ⟨k, hk, -, hlt⟩ := wrapInt_cases n
  omega

theorem limitBytes_le {eventfilemax : Int} (hpositive : 0 < eventfilemax) :
    limitBytes eventfilemax ≤ 1024 * eventfilemax := by
  have hle := wrapInt_le (show 0 ≤ eventfilemax * 1024 by omega)
  rw [limitBytes]
  omega

/-- Not more than 80 percent of the limit is kept. -/
theorem keptBytes_le {eventfilemax : Int} (hpositive : 0 < eventfilemax) :
    (keptBytes eventfilemax).toNat ≤ allowedBytes eventfilemax := by
  rw [keptBytes, allowedBytes, limitBytes]
  obtain ⟨k, hk, -, -⟩ := wrapInt_cases (eventfilemax * 1024)
  obtain ⟨l, hl, -, hlt⟩ := wrapInt_cases (wrapInt (eventfilemax * 1024) * 80)
  have hle : wrapInt (wrapInt (eventfilemax * 1024) * 80) ≤ eventfilemax * 1024 * 80 := by omega
  rcases Int.le_total 0 (wrapInt (wrapInt (eventfilemax * 1024) * 80)) with hnonneg | hneg
  · rw [Int.tdiv_eq_ediv_of_nonneg hnonneg]
    omega
  · have hzero := Int.tdiv_nonneg (Int.neg_nonneg_of_nonpos hneg) (show (0 : Int) ≤ 100 by decide)
    rw [Int.neg_tdiv] at hzero
    omega

/-- Without an overflow exactly 80 percent are kept. -/
theorem keptBytes_of_le {eventfilemax : Int} (hpositive : 0 < eventfilemax)
    (hsmall : eventfilemax ≤ 26214) :
    (keptBytes eventfilemax).toNat = allowedBytes eventfilemax := by
  rw [keptBytes, allowedBytes, limitBytes]
  obtain ⟨k, hk, hge, hlt⟩ := wrapInt_cases (eventfilemax * 1024)
  have hlimit : wrapInt (eventfilemax * 1024) = eventfilemax * 1024 := by omega
  obtain ⟨l, hl, hge', hlt'⟩ := wrapInt_cases (eventfilemax * 1024 * 80)
  have hkept : wrapInt (eventfilemax * 1024 * 80) = eventfilemax * 1024 * 80 := by omega
  rw [hlimit, hkept, Int.tdiv_eq_ediv_of_nonneg (by omega)]
  omega

/-! ## What the function promises -/

/-- What is written back is what follows the first newline of the last 80 percent of the limit,
and so only whole lines; a file that is left alone is within the limit. -/
structure KeepsRecent (ups : EventUps) (calls : TrimCalls) (contents : List UInt8) : Prop where
  trimmed : (trimEventfile ups calls contents).status = 1 →
    (trimEventfile ups calls contents).rwerror = 0 →
      (trimEventfile ups calls contents).contents =
        skipFirstLine (lastBytes (allowedBytes ups.eventfilemax) contents) ∧
      RecentLines (allowedBytes ups.eventfilemax) contents
        (trimEventfile ups calls contents).contents
  untouched : (trimEventfile ups calls contents).status = 0 →
    (trimEventfile ups calls contents).contents = contents ∧
      contents.length ≤ 1024 * ups.eventfilemax

/-- The part of the last 80 percent of the limit that the code does not read. -/
def unread (ups : EventUps) (contents : List UInt8) : List UInt8 :=
  (lastBytes (allowedBytes ups.eventfilemax) contents).take
    ((lastBytes (allowedBytes ups.eventfilemax) contents).length -
      (keptBytes ups.eventfilemax).toNat)

/-- Nothing is missing in what is written back. -/
def NothingMissing (ups : EventUps) (contents : List UInt8) : Prop :=
  newline ∉ unread ups contents ∨
    (keptBytes ups.eventfilemax).toNat = 0 ∧ skipFirstLine (unread ups contents) = []

/-- Up to 26214 kilobytes everything is read. -/
theorem nothingMissing_of_le {ups : EventUps} (hpositive : 0 < ups.eventfilemax)
    (hsmall : ups.eventfilemax ≤ 26214) (contents : List UInt8) :
    NothingMissing ups contents := by
  left
  have hlength : (lastBytes (allowedBytes ups.eventfilemax) contents).length ≤
      allowedBytes ups.eventfilemax := by
    rw [lastBytes, List.length_drop]
    omega
  rw [unread, keptBytes_of_le hpositive hsmall, Nat.sub_eq_zero_of_le hlength, List.take_zero]
  exact List.not_mem_nil

/-- What is kept is what should be, exactly if nothing is missing. -/
theorem skipFirstLine_kept_iff {ups : EventUps} (henabled : ups.Enabled) {contents : List UInt8}
    (hrewrites : Rewrites ups contents) :
    skipFirstLine (lastBytes (keptBytes ups.eventfilemax).toNat contents) =
      skipFirstLine (lastBytes (allowedBytes ups.eventfilemax) contents) ↔
        NothingMissing ups contents := by
  have hwithin : (keptBytes ups.eventfilemax).toNat ≤ contents.length := by
    have hle := hrewrites.within
    omega
  rw [lastBytes_of_le (keptBytes_le henabled.positive) contents, eq_comm,
    skipFirstLine_append_iff, lastBytes_eq_nil_iff hwithin]
  rfl

/-- Calls that all succeed at once. -/
def goodCalls : TrimCalls where
  statFails := false
  allocated := true
  reads := fun _ => .moves 0
  writes := fun _ => .moves 0
  date := []

theorem not_failsIn_goodCalls (turn left : ℕ) : ¬ FailsIn (fun _ => .moves 0) turn left := by
  intro hfails
  induction hfails with
  | now hnow _ => cases hnow
  | later _ _ ih => exact ih

theorem trimEventfile_goodCalls {ups : EventUps} (henabled : ups.Enabled) {contents : List UInt8}
    (hrewrites : Rewrites ups contents) :
    trimEventfile ups goodCalls contents =
      ⟨1, skipFirstLine (lastBytes (keptBytes ups.eventfilemax).toNat contents), 0⟩ := by
  have hlength : (lastBytes (keptBytes ups.eventfilemax).toNat contents).length ≤
      (keptBytes ups.eventfilemax).toNat := by
    rw [lastBytes, List.length_drop]
    omega
  have hread : ¬ FailsIn goodCalls.reads 0
      (lastBytes (keptBytes ups.eventfilemax).toNat contents).length :=
    not_failsIn_goodCalls 0 _
  have hwrite : ¬ FailsIn goodCalls.writes 0
      (skipFirstLine (lastBytes (keptBytes ups.eventfilemax).toNat contents)).length :=
    not_failsIn_goodCalls 0 _
  rw [trimEventfile_of_rewrites henabled rfl rfl hrewrites, rewriteEnd,
    transfer_of_not_failsIn hlength hread]
  dsimp only
  rw [transfer_of_not_failsIn le_rfl hwrite]
  rfl

/-- The trimmed file is what the limit allows, however the calls come out, exactly if the file is
not rewritten or nothing is missing in what is read. -/
theorem trim_keeps_recent_iff {ups : EventUps} (henabled : ups.Enabled) (contents : List UInt8) :
    (∀ calls, KeepsRecent ups calls contents) ↔
      (Rewrites ups contents → NothingMissing ups contents) := by
  constructor
  · intro hkeeps hrewrites
    have hrun := trimEventfile_goodCalls henabled hrewrites
    have htrimmed := (hkeeps goodCalls).trimmed
    rw [hrun] at htrimmed
    exact (skipFirstLine_kept_iff henabled hrewrites).mp (htrimmed rfl rfl).1
  · intro hmissing calls
    rcases trimEventfile_enabled henabled calls contents with
      ⟨hsmall, hrun⟩ | hfails | ⟨hrewrites, hrun⟩
    · constructor
      · intro hstatus
        rw [hrun] at hstatus
        cases hstatus
      · intro _
        rw [hrun]
        exact ⟨rfl, le_trans hsmall (limitBytes_le henabled.positive)⟩
    · constructor
      · intro hstatus
        rw [hfails] at hstatus
        cases hstatus
      · intro hstatus
        rw [hfails] at hstatus
        cases hstatus
    · constructor
      · intro _ hok
        rw [hrun] at hok ⊢
        have hwithin := hrewrites.within
        rw [rewriteEnd_of_rwerror (by omega) hok,
          (skipFirstLine_kept_iff henabled hrewrites).mpr (hmissing hrewrites)]
        exact ⟨rfl, recentLines_skipFirstLine _ _⟩
      · intro hstatus
        rw [hrun] at hstatus
        cases hstatus

/-- An events file that is trimmed at one kilobyte. -/
def oneKilobyte : EventUps :=
  ⟨1, 3, "/var/log/apcupsd.events".toList⟩

theorem enabled_oneKilobyte : oneKilobyte.Enabled :=
  ⟨by decide, by decide, by decide⟩

/-- A file of two lines that is larger than a kilobyte. -/
def twoLines : List UInt8 :=
  List.replicate 600 97 ++ newline :: (List.replicate 600 98 ++ [newline])

/-- The second line is kept. -/
theorem trim_keeps_recent_twoLines : KeepsRecent oneKilobyte goodCalls twoLines :=
  (trim_keeps_recent_iff enabled_oneKilobyte twoLines).mpr
    (fun _ => nothingMissing_of_le (by decide) (by decide) twoLines) goodCalls

/-- With a limit of two gigabytes a file of two short lines is emptied. -/
theorem trim_empties_short_file :
    trimEventfile ⟨2097152, 3, "/var/log/apcupsd.events".toList⟩ goodCalls [97, 10, 98, 10] =
        ⟨1, [], 0⟩ ∧
      ¬ KeepsRecent ⟨2097152, 3, "/var/log/apcupsd.events".toList⟩ goodCalls [97, 10, 98, 10] := by
  have hrun : trimEventfile ⟨2097152, 3, "/var/log/apcupsd.events".toList⟩ goodCalls
      [97, 10, 98, 10] = ⟨1, [], 0⟩ := by
    decide +kernel
  refine ⟨hrun, fun hkeeps => ?_⟩
  have htrimmed := hkeeps.trimmed
  rw [hrun] at htrimmed
  have hallowed : lastBytes (allowedBytes 2097152) [97, 10, 98, 10] = [97, 10, 98, 10] := by
    decide +kernel
  rw [hallowed] at htrimmed
  exact absurd (htrimmed rfl rfl).1 (by decide)

/-! ## Read errors -/

/-- The loop that reads the end is reached, and a read fails before it has everything. -/
structure ReadFails (ups : EventUps) (calls : TrimCalls) (contents : List UInt8) : Prop where
  rewrites : Rewrites ups contents
  stat : calls.statFails = false
  malloc : calls.allocated = true
  read : FailsIn calls.reads 0 (keptBytes ups.eventfilemax).toNat

/-- A read error leaves the file as it was, and is reported. -/
def ReadErrorHarmless (ups : EventUps) (calls : TrimCalls) (contents : List UInt8) : Prop :=
  ReadFails ups calls contents →
    (trimEventfile ups calls contents).status = -1 ∧
      (trimEventfile ups calls contents).contents = contents

/-- After a read error what has been read is taken for the end of the file: its lines but the
first are all that is left, followed by the message if they can be written. -/
theorem trimEventfile_of_readFails {ups : EventUps} (henabled : ups.Enabled) {calls : TrimCalls}
    {contents : List UInt8} (hfails : ReadFails ups calls contents) :
    ∃ part rest, lastBytes (keptBytes ups.eventfilemax).toNat contents = part ++ rest ∧
      rest ≠ [] ∧ (trimEventfile ups calls contents).status = 1 ∧
      (¬ FailsIn calls.writes 0 (skipFirstLine part).length →
        (trimEventfile ups calls contents).contents =
          skipFirstLine part ++ logged calls "read/write failed in trim_eventfile.") := by
  have hwithin := hfails.rewrites.within
  have hlength : (lastBytes (keptBytes ups.eventfilemax).toNat contents).length =
      (keptBytes ups.eventfilemax).toNat := by
    rw [lastBytes, List.length_drop]
    omega
  obtain ⟨part, rest, hsplit, hrest, hpart⟩ :=
    transfer_of_failsIn hlength.le (hlength.symm ▸ hfails.read)
  rw [trimEventfile_of_rewrites henabled hfails.stat hfails.malloc hfails.rewrites, rewriteEnd,
    hpart]
  refine ⟨part, rest, hsplit, hrest, rfl, fun hwrite => ?_⟩
  dsimp only
  rw [transfer_of_not_failsIn le_rfl hwrite]
  rfl

/-- A read error is harmless exactly if there is none. -/
theorem trim_read_error_iff {ups : EventUps} (henabled : ups.Enabled) (calls : TrimCalls)
    (contents : List UInt8) :
    ReadErrorHarmless ups calls contents ↔ ¬ ReadFails ups calls contents := by
  constructor
  · intro hharmless hfails
    obtain ⟨part, rest, -, -, hstatus, -⟩ := trimEventfile_of_readFails henabled hfails
    rw [(hharmless hfails).1] at hstatus
    cases hstatus
  · exact fun hnone hfails => absurd hfails hnone

/-- Calls that all succeed are harmless. -/
theorem trim_read_error_twoLines : ReadErrorHarmless oneKilobyte goodCalls twoLines :=
  (trim_read_error_iff enabled_oneKilobyte goodCalls twoLines).mpr
    fun hfails => not_failsIn_goodCalls 0 _ hfails.read

/-- The first read fails: the file is empty then, up to the message. -/
theorem read_error_loses_file :
    ¬ ReadErrorHarmless oneKilobyte { goodCalls with reads := fun _ => .fails } twoLines := by
  intro hharmless
  have hfails : ReadFails oneKilobyte { goodCalls with reads := fun _ => .fails } twoLines :=
    { rewrites := ⟨by decide +kernel, by decide +kernel, by decide +kernel⟩
      stat := rfl
      malloc := rfl
      read := .now rfl (by decide +kernel) }
  obtain ⟨part, rest, -, -, hstatus, -⟩ := trimEventfile_of_readFails enabled_oneKilobyte hfails
  rw [(hharmless hfails).1] at hstatus
  cases hstatus

end Eventfile
end Apcupsd
