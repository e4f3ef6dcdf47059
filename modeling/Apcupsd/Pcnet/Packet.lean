import Apcupsd.Foundations.SplitLines
import Apcupsd.Pcnet.ProcessData
import Mathlib.Data.List.DropRight
import Mathlib.Data.Prod.Lex

/-!
# Packets of the PCNET protocol

{lit}`auth_and_map_packet` and {lit}`wait_for_data` from {lit}`drivers/pcnet/pcnet.c`: a
packet is authenticated, split into a table of keys and values, checked against replay and
then applied field by field.  The digest is an arbitrary function of the bytes.

Main results:

- Theorem {lit}`pairs_eq`: the table consists of the lines that carry a field.
- Theorem {lit}`authAndMapPacket_eq_some_iff`: what an accepted packet satisfies.
-/

namespace Apcupsd

open CStrings SplitLines

/-! ## The table of fields -/

/-- {lit}`struct pair`. -/
abbrev Pair := List Char × List Char

/-- The characters that end a line. -/
def isEol (c : Char) : Bool :=
  c = '\r' || c = '\n'

/-- A line is split at its first {lit}`=`. -/
def splitPair (line : List Char) : Option Pair :=
  if '=' ∈ line then
    some (line.takeWhile (· ≠ '='), (line.dropWhile (· ≠ '=')).drop 1)
  else none

/-- {lit}`MAX_PAIRS`. -/
def maxPairs : ℕ := 256

/-- The loop that builds the table. -/
def mapLoop : ℕ → ℕ → List Char → List Pair
  | 0, _, _ => []
  | fuel + 1, room, text =>
      if text = [] ∨ room = 0 then []
      else
        let start := skipSpace text
        let line := (start.takeWhile fun c => !isEol c).rdropWhile isspace
        let rest := (start.dropWhile fun c => !isEol c).drop 1
        match splitPair line with
        | none => mapLoop fuel room rest
        | some pair => pair :: mapLoop fuel (room - 1) rest

/-- The table of a packet. -/
def pairs (buf : List Char) : List Pair :=
  mapLoop buf.length maxPairs buf

/-- {lit}`lookup_key`. -/
def lookupKey (key : List Char) (table : List Pair) : Option (List Char) :=
  (table.find? fun pair => pair.1 = key).map Prod.snd

/-! ## Authentication -/

/-- The members of {lit}`PcnetUpsDriver` that decide about a packet. -/
structure PcnetDriver where
  ipaddr : List Char
  user : List Char
  pass : List Char
  auth : Bool
  uptime : ℕ
  reboots : ℕ
  runtimeInSeconds : Bool
deriving DecidableEq

def mdMark : List Char := ['M', 'D', '=']
def mdKey : List Char := ['M', 'D']
def pcKey : List Char := ['P', 'C']
def srKey : List Char := ['S', 'R']
def suKey : List Char := ['S', 'U']

/-- {lit}`auth_and_map_packet`; the text is what stands before the terminator. -/
def authAndMapPacket (md5 : List Char → List Char) (drv : PcnetDriver) (buf : List Char) :
    Option (List Pair) × PcnetDriver :=
  match strstr mdMark buf with
  | none => (none, drv)
  | some ptr =>
      if ptr = buf then (none, drv)
      else
        let hash := md5 (buf.take (buf.length - ptr.length) ++ drv.user ++ drv.pass)
        let table := pairs buf
        if drv.auth = true ∧ lookupKey mdKey table ≠ some hash then (none, drv)
        else if drv.auth = true ∧ lookupKey pcKey table ≠ some drv.ipaddr then (none, drv)
        else
          match lookupKey srKey table, lookupKey suKey table with
          | some sr, some su =>
              let reboots := strtoul 16 sr
              let uptime := strtoul 16 su
              if (reboots = drv.reboots ∧ uptime ≤ drv.uptime) ∨ reboots < drv.reboots then
                (none, drv)
              else (some table, { drv with reboots := reboots, uptime := uptime })
          | _, _ => (none, drv)

/-! ## Receiving -/

/-- The driver with the record that it fills. -/
structure PcnetState where
  driver : PcnetDriver
  ups : PcnetUps

/-- The text that a received packet leaves in the buffer of 4096 bytes. -/
def receivedText (packet : List Char) : List Char :=
  (packet.take 4095).takeWhile (· ≠ nul)

/-- Every field of the table is processed; the result tells whether one was of use. -/
def processTable (runtimeInSeconds : Bool) (table : List Pair) (ups : PcnetUps) :
    Bool × PcnetUps :=
  table.foldl
    (fun acc field =>
      let (ret, ups) := pcnetProcessData runtimeInSeconds field.1 field.2 acc.2
      (acc.1 || ret, ups))
    (false, ups)

/-- What {lit}`wait_for_data` does with a packet. -/
def receivePacket (md5 : List Char → List Char) (packet : List Char) (pcnet : PcnetState) :
    Bool × PcnetState :=
  match authAndMapPacket md5 pcnet.driver (receivedText packet) with
  | (none, driver) => (false, { pcnet with driver := driver })
  | (some map, driver) =>
      let (done, ups) := processTable driver.runtimeInSeconds map pcnet.ups
      (done, { driver := driver, ups := ups })

/-- What {lit}`select` and {lit}`recvfrom` bring. -/
inductive Arrival where
  | packet (bytes : List Char)
  | interrupted
  | failed
  | timeout

/-- {lit}`wait_for_data`: its result, and what has not arrived yet. -/
def waitForData (md5 : List Char → List Char) :
    List Arrival → PcnetState → Bool × PcnetState × List Arrival
  | [], pcnet => (false, pcnet, [])
  | .packet bytes :: rest, pcnet =>
      let (done, pcnet) := receivePacket md5 bytes pcnet
      if done then (true, pcnet, rest) else waitForData md5 rest pcnet
  | .interrupted :: rest, pcnet => waitForData md5 rest pcnet
  | .failed :: rest, pcnet => (false, pcnet, rest)
  | .timeout :: rest, pcnet => (false, pcnet, rest)

/-! ## The fields of a text -/

/-- The field on a line, if there is one. -/
def pairOf (line : List Char) : Option Pair :=
  splitPair ((skipSpace line).rdropWhile isspace)

/-- The fields on the lines of a text. -/
def fieldsOf (text : List Char) : List Pair :=
  (text.splitOnP isEol).filterMap pairOf

theorem isspace_of_isEol {c : Char} (hc : isEol c = true) : isspace c = true := by
  rcases (by simpa [isEol] using hc : c = '\r' ∨ c = '\n') with rfl | rfl <;> decide

@[simp]
theorem pairOf_nil : pairOf [] = none :=
  rfl

@[simp]
theorem fieldsOf_nil : fieldsOf [] = [] :=
  rfl

/-- Blanks at the front of a text carry no field. -/
theorem fieldsOf_cons_of_isspace {c : Char} (hc : isspace c = true) (text : List Char) :
    fieldsOf (c :: text) = fieldsOf text := by
  unfold fieldsOf
  rw [List.splitOnP_cons_eq_if_modifyHead]
  split_ifs with heol
  · rw [List.filterMap_cons_none pairOf_nil]
  · cases hlines : text.splitOnP isEol with
    | nil => exact absurd hlines (List.splitOnP_ne_nil _ _)
    | cons line lines =>
        have hpair : pairOf (c :: line) = pairOf line := by
          rw [pairOf, skipSpace_cons_of_isspace hc, ← pairOf]
        simp only [List.modifyHead_cons, List.filterMap_cons, hpair]

theorem fieldsOf_skipSpace (text : List Char) : fieldsOf (skipSpace text) = fieldsOf text := by
  induction text with
  | nil => rfl
  | cons c text ih =>
      cases hc : isspace c with
      | true => rw [skipSpace_cons_of_isspace hc, ih, fieldsOf_cons_of_isspace hc]
      | false => rw [skipSpace, List.dropWhile_cons_of_neg (by simp [hc])]

theorem skipSpace_skipSpace (text : List Char) : skipSpace (skipSpace text) = skipSpace text :=
  List.dropWhile_idempotent _ _

/-- The first line of a text that begins with no blank, and what follows it. -/
theorem fieldsOf_eq_of_skipSpace {text : List Char} (htext : skipSpace text = text) :
    fieldsOf text =
      (splitPair ((text.takeWhile fun c => !isEol c).rdropWhile isspace)).toList ++
        fieldsOf ((text.dropWhile fun c => !isEol c).drop 1) := by
  have hstart (line rest : List Char) (hline : text = line ++ rest) :
      skipSpace line = line := by
    cases line with
    | nil => rfl
    | cons c line =>
        rw [hline, List.cons_append] at htext
        have hc : isspace c = false := by
          by_contra hc
          rw [skipSpace_cons_of_isspace (by simpa using hc)] at htext
          have hlength := List.length_dropWhile_le isspace (line ++ rest)
          rw [← skipSpace, htext] at hlength
          simp at hlength
        rw [skipSpace, List.dropWhile_cons_of_neg (by simp [hc])]
  have hfields (line : List Char) (lines : List (List Char)) (hline : skipSpace line = line) :
      (line :: lines).filterMap pairOf =
        (splitPair (line.rdropWhile isspace)).toList ++ lines.filterMap pairOf := by
    rw [List.filterMap_cons, pairOf, hline]
    cases splitPair (line.rdropWhile isspace) <;> rfl
  rcases splitOnP_cases (p := isEol) text with ⟨hall, hlines⟩ | ⟨line, sep, rest, rfl, hsep, hline, hlines⟩
  · have htake : (text.takeWhile fun c => !isEol c) = text :=
      List.takeWhile_eq_self_iff.mpr fun c hc => by simp [hall c hc]
    have hdrop : (text.dropWhile fun c => !isEol c) = [] :=
      List.dropWhile_eq_nil_iff.mpr fun c hc => by simp [hall c hc]
    rw [htake, hdrop, fieldsOf, hlines, hfields _ _ htext]
    rfl
  · have htake : ((line ++ sep :: rest).takeWhile fun c => !isEol c) = line := by
      rw [takeWhile_append_cons (by simp [hsep])]
      exact List.takeWhile_eq_self_iff.mpr fun c hc => by simp [hline c hc]
    have hdrop : ((line ++ sep :: rest).dropWhile fun c => !isEol c) = sep :: rest := by
      rw [dropWhile_append_cons (by simp [hsep]),
        List.dropWhile_eq_nil_iff.mpr fun c hc => by simp [hline c hc], List.nil_append]
    rw [htake, hdrop, fieldsOf, hlines, hfields _ _ (hstart line _ rfl)]
    rfl

/-- The loop collects the fields of the lines while there is room. -/
theorem mapLoop_eq (fuel room : ℕ) (text : List Char) (hfuel : text.length ≤ fuel) :
    mapLoop fuel room text = (fieldsOf text).take room := by
  induction fuel generalizing room text with
  | zero =>
      obtain rfl := List.length_eq_zero_iff.mp (Nat.le_zero.mp hfuel)
      rw [fieldsOf_nil, List.take_nil, mapLoop]
  | succ fuel ih =>
      unfold mapLoop
      split_ifs with hstop
      · rcases hstop with rfl | rfl
        · rw [fieldsOf_nil, List.take_nil]
        · rw [List.take_zero]
      · rcases not_or.mp hstop with ⟨hne, hroom⟩
        have hrest : (((skipSpace text).dropWhile fun c => !isEol c).drop 1).length ≤ fuel := by
          have hskip : (skipSpace text).length ≤ text.length := List.length_dropWhile_le _ _
          have hline := List.length_dropWhile_le (fun c => !isEol c) (skipSpace text)
          have hpos := List.length_pos_of_ne_nil hne
          rw [List.length_drop]
          omega
        dsimp only
        rw [← fieldsOf_skipSpace, fieldsOf_eq_of_skipSpace (skipSpace_skipSpace text)]
        cases splitPair _ with
        | none => exact ih room _ hrest
        | some pair =>
            dsimp only
            rw [ih (room - 1) _ hrest]
            obtain ⟨left, rfl⟩ := Nat.exists_eq_succ_of_ne_zero hroom
            rfl

/-- The table consists of the lines that carry a field, up to its size. -/
theorem pairs_eq (buf : List Char) : pairs buf = (fieldsOf buf).take maxPairs :=
  mapLoop_eq _ _ buf le_rfl

/-! ## Accepted packets -/

/-- The counters in a table. -/
def countersOf (table : List Pair) : Option (ℕ × ℕ) :=
  match lookupKey srKey table, lookupKey suKey table with
  | some sr, some su => some (strtoul 16 sr, strtoul 16 su)
  | _, _ => none

/-- What the checks ask of a packet. -/
structure Admits (md5 : List Char → List Char) (drv : PcnetDriver) (buf : List Char)
    (counters : ℕ × ℕ) : Prop where
  digest : ∃ ptr, strstr mdMark buf = some ptr ∧ ptr ≠ buf ∧
    (drv.auth = true → lookupKey mdKey (pairs buf) =
      some (md5 (buf.take (buf.length - ptr.length) ++ drv.user ++ drv.pass)))
  address : drv.auth = true → lookupKey pcKey (pairs buf) = some drv.ipaddr
  read : countersOf (pairs buf) = some counters
  advances : toLex (drv.reboots, drv.uptime) < toLex counters

/-- The check for replay is the lexicographic order of the counters. -/
theorem not_replayed_iff {reboots uptime : ℕ} {drv : PcnetDriver} :
    ¬ ((reboots = drv.reboots ∧ uptime ≤ drv.uptime) ∨ reboots < drv.reboots) ↔
      toLex (drv.reboots, drv.uptime) < toLex (reboots, uptime) := by
  rw [Prod.Lex.toLex_lt_toLex]
  dsimp only
  omega

/-- A packet passes all checks and advances the counters, or it changes nothing. -/
theorem authAndMapPacket_cases (md5 : List Char → List Char) (drv : PcnetDriver)
    (buf : List Char) :
    (∃ counters, Admits md5 drv buf counters ∧ authAndMapPacket md5 drv buf =
      (some (pairs buf), { drv with reboots := counters.1, uptime := counters.2 })) ∨
    ((∀ counters, ¬ Admits md5 drv buf counters) ∧ authAndMapPacket md5 drv buf = (none, drv)) := by
  unfold authAndMapPacket
  cases hptr : strstr mdMark buf with
  | none =>
      refine Or.inr ⟨fun counters hadmits => ?_, rfl⟩
      rcases hadmits.digest with ⟨ptr, hsome, -⟩
      rw [hptr] at hsome
      cases hsome
  | some ptr =>
      have hdigest {counters : ℕ × ℕ} (hadmits : Admits md5 drv buf counters) : ptr ≠ buf ∧
          (drv.auth = true → lookupKey mdKey (pairs buf) =
            some (md5 (buf.take (buf.length - ptr.length) ++ drv.user ++ drv.pass))) := by
        rcases hadmits.digest with ⟨other, hother, hrest⟩
        rw [hptr] at hother
        obtain rfl := Option.some.inj hother
        exact hrest
      dsimp only
      split_ifs with hfront hmd hpc
      · exact Or.inr ⟨fun counters hadmits => (hdigest hadmits).1 hfront, rfl⟩
      · exact Or.inr ⟨fun counters hadmits => hmd.2 ((hdigest hadmits).2 hmd.1), rfl⟩
      · exact Or.inr ⟨fun counters hadmits => hpc.2 (hadmits.address hpc.1), rfl⟩
      · have hcounters {counters : ℕ × ℕ} (hadmits : Admits md5 drv buf counters) :=
          hadmits.read
        unfold countersOf at hcounters
        cases hsr : lookupKey srKey (pairs buf) with
        | none =>
            refine Or.inr ⟨fun counters hadmits => ?_, rfl⟩
            simpa [hsr] using hcounters hadmits
        | some sr =>
            cases hsu : lookupKey suKey (pairs buf) with
            | none =>
                refine Or.inr ⟨fun counters hadmits => ?_, rfl⟩
                simpa [hsr, hsu] using hcounters hadmits
            | some su =>
                dsimp only
                split_ifs with hreplayed
                · refine Or.inr ⟨fun counters hadmits => ?_, rfl⟩
                  have hread := hcounters hadmits
                  rw [hsr, hsu] at hread
                  obtain rfl := Option.some.inj hread
                  exact not_replayed_iff.mpr hadmits.advances hreplayed
                · refine Or.inl ⟨(strtoul 16 sr, strtoul 16 su), ?_, rfl⟩
                  constructor
                  · refine ⟨ptr, hptr, hfront, fun hauth => ?_⟩
                    by_contra hne
                    exact hmd ⟨hauth, hne⟩
                  · intro hauth
                    by_contra hne
                    exact hpc ⟨hauth, hne⟩
                  · rw [countersOf, hsr, hsu]
                  · exact not_replayed_iff.mp hreplayed

/-- What an accepted packet satisfies, and what its table is. -/
theorem authAndMapPacket_eq_some_iff {md5 : List Char → List Char} {drv : PcnetDriver}
    {buf : List Char} {table : List Pair} :
    (authAndMapPacket md5 drv buf).1 = some table ↔
      table = pairs buf ∧ ∃ counters, Admits md5 drv buf counters := by
  rcases authAndMapPacket_cases md5 drv buf with ⟨counters, hadmits, heq⟩ | ⟨hnone, heq⟩
  · rw [heq]
    constructor
    · intro htable
      exact ⟨(Option.some.inj htable).symm, counters, hadmits⟩
    · rintro ⟨rfl, -⟩
      rfl
  · rw [heq]
    constructor
    · intro htable
      cases htable
    · rintro ⟨-, counters, hadmits⟩
      exact absurd hadmits (hnone counters)

end Apcupsd
