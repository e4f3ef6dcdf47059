import Apcupsd.Foundations.CStrings
import Apcupsd.Foundations.Pieces

/-!
# The hosts that a web client may ask for

{lit}`checkhost` from {lit}`cgi/cgilib.c` decides whether the host in a query is one of those in
{lit}`hosts.conf`.  The file is read in pieces of at most 499 characters, and the variable
{lit}`addr` keeps an address from one line to the next.  What it holds before the first address,
and what a longer address than fits does to the result, are parameters.  A file that is there
may not be readable, and a read of it may fail.

Main results:

- Theorem {lit}`checkLines_of_stale`: a line without an address changes nothing behind one with
  an address.
- Theorem {lit}`checkhost_admits_listed_iff`: when exactly the listed hosts are admitted.
-/

namespace Apcupsd
namespace Cgi

open CStrings

/-! ## The code -/

/-- {lit}`sizeof(buf)`. -/
def bufSize : ℕ := 500

/-- {lit}`sizeof(addr)`. -/
def addrSize : ℕ := 256

/-- What C does not define: the contents of {lit}`addr` before anything is stored there, and the
decision after more characters have been stored than it has room for. -/
structure Indeterminate where
  addr : List Char
  overflow : Bool

/-- {lit}`strncmp(left, right, n) == 0`. -/
def sameFront (left right : List Char) (n : ℕ) : Bool :=
  left.take n == right.take n

/-- {lit}`"MONITOR"`. -/
def monitor : List Char := "MONITOR".toList

/-- {lit}`sscanf(buf, "%*s %s", addr)`: what is stored, if there is a second word. -/
def secondWord (buf : List Char) : Option (List Char) :=
  (skipWord buf).bind fun rest =>
    if skipSpace rest = [] then none else some (frontWord (skipSpace rest))

/-- The loop, with the contents of {lit}`addr`. -/
def checkLines (und : Indeterminate) (check : List Char) : List Char → List (List Char) → Bool
  | _, [] => false
  | addr, buf :: rest =>
      if sameFront monitor buf 7 then
        match secondWord buf with
        | none =>
            -- addr is as it was
            if sameFront addr check check.length then true
            else checkLines und check addr rest
        | some word =>
            if addrSize ≤ word.length then und.overflow
            else if sameFront word check check.length then true
            else checkLines und check word rest
      else checkLines und check addr rest

/-- The texts that {lit}`fgets` leaves in {lit}`buf`. -/
def readLines (file : List Char) : List (List Char) :=
  (Pieces.pieces '\n' (bufSize - 1) file).map cString

/-- {lit}`hosts.conf`: there is none, {lit}`fopen` fails for one that is there, or it is opened
and a read fails behind so many lines. -/
inductive HostsFile where
  | absent
  | refused (text : List Char)
  | opened (text : List Char) (failing : Option ℕ)

/-- The texts that the loop gets. -/
def HostsFile.lines (text : List Char) : Option ℕ → List (List Char)
  | none => readLines text
  | some n => (readLines text).take n

/-- {lit}`checkhost`. -/
def checkhost (und : Indeterminate) (file : HostsFile) (check : List Char) : Int :=
  match file with
  | .absent => 1
  | .refused _ => 1
  | .opened text failing =>
      if checkLines und check und.addr (HostsFile.lines text failing) then 1 else 0

/-! ## Listed hosts -/

/-- A line that begins with {lit}`MONITOR`. -/
def MonitorLine (line : List Char) : Prop :=
  monitor <+: line

instance (line : List Char) : Decidable (MonitorLine line) :=
  inferInstanceAs (Decidable (_ <+: _))

/-- One of the {lit}`MONITOR` lines has the address. -/
def ListedIn (check text : List Char) : Prop :=
  ∃ line ∈ text.splitOn '\n', MonitorLine line ∧ secondWord line = some check

instance (check text : List Char) : Decidable (ListedIn check text) :=
  inferInstanceAs (Decidable (∃ line ∈ text.splitOn '\n', _))

/-- There is no file, or it lists the host. -/
def Listed (check : List Char) : HostsFile → Prop
  | .absent => True
  | .refused text => ListedIn check text
  | .opened text _ => ListedIn check text

instance (check : List Char) : (file : HostsFile) → Decidable (Listed check file)
  | .absent => .isTrue trivial
  | .refused text => inferInstanceAs (Decidable (ListedIn check text))
  | .opened text _ => inferInstanceAs (Decidable (ListedIn check text))

/-- Whatever C leaves undefined, exactly a listed host is admitted. -/
def AdmitsListed (file : HostsFile) (check : List Char) : Prop :=
  ∀ und, checkhost und file check = 1 ↔ Listed check file

/-- The address of a {lit}`MONITOR` line that is too long. -/
def Overlong (buf : List Char) : Prop :=
  MonitorLine buf ∧ ∃ word, secondWord buf = some word ∧ addrSize ≤ word.length

/-- The address of a {lit}`MONITOR` line begins with the host. -/
def Hits (check buf : List Char) : Prop :=
  MonitorLine buf ∧ ∃ word, secondWord buf = some word ∧ word.length < addrSize ∧ check <+: word

/-- A {lit}`MONITOR` line without an address. -/
def Addressless (buf : List Char) : Prop :=
  MonitorLine buf ∧ secondWord buf = none

/-- The texts that are read up to an address that begins with the host. -/
def ReadsHit (check : List Char) (texts : List (List Char)) : Prop :=
  ∃ before hit after, texts = before ++ hit :: after ∧ Hits check hit ∧
    ∀ buf ∈ before, ¬ Overlong buf

/-- No address begins with the host or is too long, and the first {lit}`MONITOR` line has
one. -/
def ReadsNothing (check : List Char) (texts : List (List Char)) : Prop :=
  (∀ buf ∈ texts, ¬ Hits check buf ∧ ¬ Overlong buf) ∧
    ∀ first ∈ texts.find? (fun buf => decide (MonitorLine buf)), ¬ Addressless first

/-- The host is listed and is found, or it is not and nothing is taken for it.  A file that
cannot be opened admits everyone. -/
def ReadsRight (file : HostsFile) (check : List Char) : Prop :=
  match file with
  | .absent => True
  | .refused text => ListedIn check text
  | .opened text failing =>
      (ListedIn check text ∧ ReadsHit check (HostsFile.lines text failing)) ∨
        (¬ ListedIn check text ∧ ReadsNothing check (HostsFile.lines text failing))

/-! ## One text -/

section Loop

variable {und : Indeterminate} {check addr buf : List Char} {rest : List (List Char)}

theorem sameFront_monitor_iff : sameFront monitor buf 7 = true ↔ MonitorLine buf := by
  rw [sameFront, beq_iff_eq, show monitor.take 7 = monitor from rfl, MonitorLine,
    List.prefix_iff_eq_take]
  rfl

theorem sameFront_iff : sameFront addr check check.length = true ↔ check <+: addr := by
  rw [sameFront, beq_iff_eq, List.take_length, eq_comm, List.prefix_iff_eq_take]

theorem checkLines_of_not_monitor (hline : ¬ MonitorLine buf) :
    checkLines und check addr (buf :: rest) = checkLines und check addr rest := by
  rw [checkLines, if_neg (mt sameFront_monitor_iff.mp hline)]

theorem checkLines_of_addressless (hline : Addressless buf) :
    checkLines und check addr (buf :: rest) =
      if check <+: addr then true else checkLines und check addr rest := by
  rw [checkLines, if_pos (sameFront_monitor_iff.mpr hline.1), hline.2]
  simp only [sameFront_iff]

theorem checkLines_of_overlong (hline : Overlong buf) :
    checkLines und check addr (buf :: rest) = und.overflow := by
  obtain ⟨hmonitor, word, hword, hlong⟩ := hline
  rw [checkLines, if_pos (sameFront_monitor_iff.mpr hmonitor), hword]
  exact if_pos hlong

theorem checkLines_of_address (hline : MonitorLine buf) {word : List Char}
    (hword : secondWord buf = some word) (hfits : word.length < addrSize) :
    checkLines und check addr (buf :: rest) =
      if check <+: word then true else checkLines und check word rest := by
  rw [checkLines, if_pos (sameFront_monitor_iff.mpr hline), hword]
  simp only [if_neg (Nat.not_le.mpr hfits), sameFront_iff]

/-- A text is no {lit}`MONITOR` line, or it has no address, one that is too long, or one that
fits. -/
theorem line_cases (buf : List Char) :
    ¬ MonitorLine buf ∨ Addressless buf ∨ Overlong buf ∨
      ∃ word, MonitorLine buf ∧ secondWord buf = some word ∧ word.length < addrSize := by
  by_cases hline : MonitorLine buf
  · cases hword : secondWord buf with
    | none => exact Or.inr (Or.inl ⟨hline, hword⟩)
    | some word =>
        rcases Nat.lt_or_ge word.length addrSize with hfits | hlong
        · exact Or.inr (Or.inr (Or.inr ⟨word, hline, rfl, hfits⟩))
        · exact Or.inr (Or.inr (Or.inl ⟨hline, word, hword, hlong⟩))
  · exact Or.inl hline

/-! ## The loop -/

/-- An address that begins with the host is found, if none before it is too long. -/
theorem checkLines_of_readsHit {texts : List (List Char)} (hhit : ReadsHit check texts) :
    checkLines und check addr texts = true := by
  obtain ⟨before, hit, after, rfl, ⟨hmonitor, word, hword, hfits, hstarts⟩, hbefore⟩ := hhit
  induction before generalizing addr with
  | nil => rw [List.nil_append, checkLines_of_address hmonitor hword hfits, if_pos hstarts]
  | cons buf before ih =>
      have hrest (addr : List Char) :
          checkLines und check addr (before ++ hit :: after) = true :=
        ih fun other hmem => hbefore other (List.mem_cons_of_mem buf hmem)
      rw [List.cons_append]
      rcases line_cases buf with hline | hline | hline | ⟨word, hline, hword, hfits⟩
      · rw [checkLines_of_not_monitor hline, hrest]
      · rw [checkLines_of_addressless hline, hrest, ite_self]
      · exact absurd hline (hbefore buf List.mem_cons_self)
      · rw [checkLines_of_address hline hword hfits, hrest, ite_self]

/-- Without luck only such an address is found. -/
theorem readsHit_of_checkLines {texts : List (List Char)} (hund : und.overflow = false)
    (haddr : ¬ check <+: addr) (htrue : checkLines und check addr texts = true) :
    ReadsHit check texts := by
  induction texts generalizing addr with
  | nil => cases htrue
  | cons buf texts ih =>
      have hlater (hreads : ReadsHit check texts) (hbuf : ¬ Overlong buf) :
          ReadsHit check (buf :: texts) := by
        obtain ⟨before, hit, after, rfl, hhit, hbefore⟩ := hreads
        exact ⟨buf :: before, hit, after, rfl, hhit, List.forall_mem_cons.mpr ⟨hbuf, hbefore⟩⟩
      rcases line_cases buf with hline | hline | hline | ⟨word, hline, hword, hfits⟩
      · rw [checkLines_of_not_monitor hline] at htrue
        exact hlater (ih haddr htrue) fun hlong => hline hlong.1
      · rw [checkLines_of_addressless hline, if_neg haddr] at htrue
        refine hlater (ih haddr htrue) fun hlong => ?_
        obtain ⟨-, word, hword, -⟩ := hlong
        exact Option.some_ne_none word (hword.symm.trans hline.2)
      · rw [checkLines_of_overlong hline, hund] at htrue
        cases htrue
      · rw [checkLines_of_address hline hword hfits] at htrue
        by_cases hstarts : check <+: word
        · exact ⟨[], buf, texts, rfl, ⟨hline, word, hword, hfits, hstarts⟩, by simp⟩
        · rw [if_neg hstarts] at htrue
          refine hlater (ih hstarts htrue) fun hlong => ?_
          obtain ⟨-, long, hlong, hlength⟩ := hlong
          obtain rfl := Option.some.inj (hword.symm.trans hlong)
          exact absurd hfits (Nat.not_lt.mpr hlength)

/-- Where no address begins with the host or is too long, nothing is taken for it. -/
theorem checkLines_of_none {texts : List (List Char)}
    (hnone : ∀ buf ∈ texts, ¬ Hits check buf ∧ ¬ Overlong buf) (haddr : ¬ check <+: addr) :
    checkLines und check addr texts = false := by
  induction texts generalizing addr with
  | nil => rfl
  | cons buf texts ih =>
      obtain ⟨⟨hhits, hlong⟩, hrest⟩ := List.forall_mem_cons.mp hnone
      rcases line_cases buf with hline | hline | hline | ⟨word, hline, hword, hfits⟩
      · rw [checkLines_of_not_monitor hline, ih hrest haddr]
      · rw [checkLines_of_addressless hline, if_neg haddr, ih hrest haddr]
      · exact absurd hline hlong
      · have hstarts : ¬ check <+: word := fun hstarts =>
          hhits ⟨hline, word, hword, hfits, hstarts⟩
        rw [checkLines_of_address hline hword hfits, if_neg hstarts, ih hrest hstarts]

/-- The first address takes the place of what was in the variable. -/
theorem checkLines_of_readsNothing {texts : List (List Char)}
    (hnothing : ReadsNothing check texts) : checkLines und check addr texts = false := by
  obtain ⟨hnone, hfirst⟩ := hnothing
  induction texts with
  | nil => rfl
  | cons buf texts ih =>
      obtain ⟨⟨hhits, hlong⟩, hrest⟩ := List.forall_mem_cons.mp hnone
      by_cases hline : MonitorLine buf
      · rw [List.find?_cons_of_pos (by simpa using hline)] at hfirst
        rcases line_cases buf with hnot | hless | hover | ⟨word, -, hword, hfits⟩
        · exact absurd hline hnot
        · exact absurd hless (hfirst buf rfl)
        · exact absurd hover hlong
        · have hstarts : ¬ check <+: word := fun hstarts =>
            hhits ⟨hline, word, hword, hfits, hstarts⟩
          rw [checkLines_of_address hline hword hfits, if_neg hstarts]
          exact checkLines_of_none hrest hstarts
      · rw [List.find?_cons_of_neg (by simpa using hline)] at hfirst
        rw [checkLines_of_not_monitor hline, ih hrest hfirst]

/-- With bad luck an address that is too long is taken for the host. -/
theorem checkLines_of_unlucky {texts : List (List Char)} (hund : und.overflow = true)
    {buf : List Char} (hmem : buf ∈ texts) (htaken : Hits check buf ∨ Overlong buf) :
    checkLines und check addr texts = true := by
  induction texts generalizing addr with
  | nil => cases hmem
  | cons other texts ih =>
      rcases line_cases other with hline | hline | hline | ⟨word, hline, hword, hfits⟩
      · rw [checkLines_of_not_monitor hline]
        rcases List.mem_cons.mp hmem with rfl | hmem
        · exact absurd (htaken.elim And.left And.left) hline
        · exact ih hmem
      · rw [checkLines_of_addressless hline]
        rcases List.mem_cons.mp hmem with rfl | hmem
        · rcases htaken with ⟨-, word, hword, -⟩ | ⟨-, word, hword, -⟩
          all_goals exact absurd (hword.symm.trans hline.2) (Option.some_ne_none word)
        · rw [ih hmem, ite_self]
      · rw [checkLines_of_overlong hline, hund]
      · rw [checkLines_of_address hline hword hfits]
        rcases List.mem_cons.mp hmem with rfl | hmem
        · rcases htaken with ⟨-, found, hfound, -, hstarts⟩ | ⟨-, found, hfound, hlong⟩
          · obtain rfl := Option.some.inj (hword.symm.trans hfound)
            exact if_pos hstarts
          · obtain rfl := Option.some.inj (hword.symm.trans hfound)
            exact absurd hfits (Nat.not_lt.mpr hlong)
        · rw [ih hmem, ite_self]

/-- With bad luck a first line without an address is taken for the host. -/
theorem checkLines_of_first {texts : List (List Char)} {first : List Char}
    (hfirst : texts.find? (fun buf => decide (MonitorLine buf)) = some first)
    (hless : Addressless first) : checkLines und check check texts = true := by
  induction texts with
  | nil => cases hfirst
  | cons buf texts ih =>
      by_cases hline : MonitorLine buf
      · rw [List.find?_cons_of_pos (by simpa using hline)] at hfirst
        obtain rfl := Option.some.inj hfirst
        rw [checkLines_of_addressless hless, if_pos (List.prefix_refl check)]
      · rw [List.find?_cons_of_neg (by simpa using hline)] at hfirst
        rw [checkLines_of_not_monitor hline, ih hfirst]

/-! ## Lines without an address -/

/-- Once an address has been compared, a line without one changes nothing. -/
theorem checkLines_of_compared {before after : List (List Char)} (hless : Addressless buf)
    (haddr : ¬ check <+: addr) :
    checkLines und check addr (before ++ buf :: after) =
      checkLines und check addr (before ++ after) := by
  induction before generalizing addr with
  | nil => rw [List.nil_append, List.nil_append, checkLines_of_addressless hless, if_neg haddr]
  | cons other before ih =>
      rw [List.cons_append, List.cons_append]
      rcases line_cases other with hline | hline | hline | ⟨word, hline, hword, hfits⟩
      · rw [checkLines_of_not_monitor hline, checkLines_of_not_monitor hline, ih haddr]
      · rw [checkLines_of_addressless hline, checkLines_of_addressless hline, ih haddr]
      · rw [checkLines_of_overlong hline, checkLines_of_overlong hline]
      · rw [checkLines_of_address hline hword hfits, checkLines_of_address hline hword hfits]
        by_cases hstarts : check <+: word
        · rw [if_pos hstarts, if_pos hstarts]
        · rw [if_neg hstarts, if_neg hstarts, ih hstarts]

/-- Behind a line with an address, a line without one changes nothing. -/
theorem checkLines_of_stale {before after : List (List Char)} {earlier : List Char}
    (hmem : earlier ∈ before) (hline : MonitorLine earlier)
    (haddress : secondWord earlier ≠ none) (hless : Addressless buf) :
    checkLines und check addr (before ++ buf :: after) =
      checkLines und check addr (before ++ after) := by
  induction before generalizing addr with
  | nil => cases hmem
  | cons other before ih =>
      rw [List.cons_append, List.cons_append]
      rcases line_cases other with hnot | hother | hother | ⟨word, hother, hword, hfits⟩
      · rcases List.mem_cons.mp hmem with rfl | hmem
        · exact absurd hline hnot
        · rw [checkLines_of_not_monitor hnot, checkLines_of_not_monitor hnot, ih hmem]
      · rcases List.mem_cons.mp hmem with rfl | hmem
        · exact absurd hother.2 haddress
        · rw [checkLines_of_addressless hother, checkLines_of_addressless hother, ih hmem]
      · rw [checkLines_of_overlong hother, checkLines_of_overlong hother]
      · rw [checkLines_of_address hother hword hfits, checkLines_of_address hother hword hfits]
        by_cases hstarts : check <+: word
        · rw [if_pos hstarts, if_pos hstarts]
        · rw [if_neg hstarts, if_neg hstarts, checkLines_of_compared hless hstarts]

end Loop

/-! ## Who is admitted -/

theorem secondWord_ne_nil {line word : List Char} (hword : secondWord line = some word) :
    word ≠ [] := by
  obtain ⟨rest, -, hrest⟩ := Option.bind_eq_some_iff.mp hword
  rcases ite_eq_iff.mp hrest with ⟨-, hnone⟩ | ⟨hne, hsome⟩
  · cases hnone
  · obtain ⟨c, later, hskipped⟩ := List.exists_cons_of_ne_nil hne
    have hc : isspace c = false := by
      have hstop := List.head?_dropWhile_not isspace rest
      rwa [← skipSpace, hskipped] at hstop
    obtain rfl := Option.some.inj hsome
    rw [hskipped, frontWord, List.takeWhile_cons_of_pos (by simp [hc])]
    exact List.cons_ne_nil _ _

theorem checkhost_opened_eq_one_iff {und : Indeterminate} {text check : List Char}
    {failing : Option ℕ} :
    checkhost und (.opened text failing) check = 1 ↔
      checkLines und check und.addr (HostsFile.lines text failing) = true := by
  simp [checkhost]

/-- A file that is opened. -/
theorem admitsListed_opened_iff {text check : List Char} {failing : Option ℕ} :
    AdmitsListed (.opened text failing) check ↔ ReadsRight (.opened text failing) check := by
  simp only [AdmitsListed, checkhost_opened_eq_one_iff]
  by_cases hlisted : ListedIn check text
  · constructor
    · intro hadmits
      have hne : ¬ check <+: [] := by
        obtain ⟨line, -, -, hword⟩ := hlisted
        exact fun hstarts => secondWord_ne_nil hword (List.prefix_nil.mp hstarts)
      exact Or.inl ⟨hlisted, readsHit_of_checkLines rfl hne ((hadmits ⟨[], false⟩).mpr hlisted)⟩
    · rintro (⟨-, hhit⟩ | ⟨hnot, -⟩)
      · exact fun und => iff_of_true (checkLines_of_readsHit hhit) hlisted
      · exact absurd hlisted hnot
  · constructor
    · intro hadmits
      have hdenied (und : Indeterminate) :
          ¬ checkLines und check und.addr (HostsFile.lines text failing) = true := fun htrue =>
        hlisted ((hadmits und).mp htrue)
      refine Or.inr ⟨hlisted, fun buf hmem => ?_, fun first hfirst hless => ?_⟩
      · exact ⟨fun hhits => hdenied ⟨[], true⟩ (checkLines_of_unlucky rfl hmem (Or.inl hhits)),
          fun hlong => hdenied ⟨[], true⟩ (checkLines_of_unlucky rfl hmem (Or.inr hlong))⟩
      · exact hdenied ⟨check, false⟩ (checkLines_of_first hfirst hless)
    · rintro (⟨hyes, -⟩ | ⟨-, hnothing⟩)
      · exact absurd hyes hlisted
      · refine fun und => iff_of_false ?_ hlisted
        rw [checkLines_of_readsNothing hnothing]
        exact Bool.false_ne_true

/-- Exactly the listed hosts are admitted if and only if the host is listed and the file is read
up to an address that begins with it, or it is not and nothing can be taken for it.  And a line
without an address admits nobody for the address of an earlier line. -/
theorem checkhost_admits_listed_iff (file : HostsFile) (check : List Char) :
    (AdmitsListed file check ↔ ReadsRight file check) ∧
      ∀ und addr before buf after, Addressless buf →
        (∃ earlier ∈ before, MonitorLine earlier ∧ secondWord earlier ≠ none) →
        checkLines und check addr (before ++ buf :: after) =
          checkLines und check addr (before ++ after) := by
  refine ⟨?_, fun und addr before buf after hless ⟨earlier, hmem, hline, haddress⟩ =>
    checkLines_of_stale hmem hline haddress hless⟩
  cases file with
  | absent => exact ⟨fun _ => trivial, fun _ _ => ⟨fun _ => trivial, fun _ => rfl⟩⟩
  | refused text =>
      exact ⟨fun hadmits => (hadmits ⟨[], false⟩).mp rfl,
        fun hlisted _ => iff_of_true rfl hlisted⟩
  | opened text failing => exact admitsListed_opened_iff

/-- A file with one host. -/
def oneHost : List Char :=
  "MONITOR 10.64.1.10 \"Finance department\"\n".toList

/-- Another host is admitted, whose name is the front part of that one's. -/
theorem front_of_listed_admitted : ¬ AdmitsListed (.opened oneHost none) "10.64.1.1".toList := by
  intro hadmits
  have hlisted := (hadmits ⟨[], false⟩).mp (by decide +kernel)
  revert hlisted
  decide +kernel

end Cgi
end Apcupsd
