import Apcupsd.Core.CoreRun
import Apcupsd.Pcnet.Packet

/-!
# What the digest of a packet covers

The digest is taken over the bytes in front of the first {lit}`MD=`, while the table is
built from the whole packet.

Main results:

- Theorem {lit}`numbers_eq_of_sealed`: without a counted field outside, the numbers come
  from the prefix.
- Theorem {lit}`exists_revalue`: the value of a field outside can be replaced, and nothing
  else in the table changes.
- Theorem {lit}`pcnet_digest_covers_iff`: accepted packets with one prefix leave the same
  numbers if and only if none of them has a counted field outside, and any two without one do.
-/

namespace Apcupsd

open CStrings SplitLines

/-! ## The prefix -/

/-- A packet whose first {lit}`MD=` stands behind the prefix and whose digest field has the
given value. -/
structure Carries (front md buf : List Char) : Prop where
  terminated : nul ∉ buf
  found : ∃ rest, buf = front ++ rest ∧ strstr mdMark buf = some rest
  value : lookupKey mdKey (pairs buf) = some md

/-- The fields of a packet that are none of the prefix: their {lit}`=` stands outside. -/
def outside (front buf : List Char) : List Pair :=
  (pairs buf).drop (pairs front).length

/-! ## Splitting a line -/

theorem splitPair_append {line : List Char} {key value : List Char}
    (hline : splitPair line = some (key, value)) (rest : List Char) :
    splitPair (line ++ rest) = some (key, value ++ rest) := by
  unfold splitPair at hline ⊢
  split_ifs at hline with hmem
  rcases Prod.mk.inj (Option.some.inj hline) with ⟨rfl, rfl⟩
  rw [if_pos (List.mem_append_left rest hmem)]
  have hne : (line.dropWhile (· ≠ '=')) ≠ [] := by
    intro hnil
    exact absurd (List.dropWhile_eq_nil_iff.mp hnil _ hmem) (by simp)
  have htake : (line ++ rest).takeWhile (· ≠ '=') = line.takeWhile (· ≠ '=') := by
    rw [List.takeWhile_append, if_neg]
    intro hlength
    have hself := (List.takeWhile_prefix (fun c => decide (c ≠ '='))).eq_of_length hlength
    exact absurd (List.takeWhile_eq_self_iff.mp hself _ hmem) (by simp)
  rw [htake, List.dropWhile_append, if_neg (by simpa using hne),
    List.drop_append_of_le_length (List.length_pos_of_ne_nil hne)]

theorem splitPair_append_cons {line : List Char} (hline : '=' ∉ line) (rest : List Char) :
    splitPair (line ++ '=' :: rest) = some (line, rest) := by
  unfold splitPair
  rw [if_pos (by simp), takeWhile_append_cons (by simp), dropWhile_append_cons (by simp)]
  have hall : ∀ c ∈ line, decide (c ≠ '=') = true := by
    intro c hc
    simpa using ne_of_mem_of_not_mem hc hline
  rw [List.takeWhile_eq_self_iff.mpr hall, List.dropWhile_eq_nil_iff.mpr hall]
  rfl

theorem splitPair_eq_none_iff {line : List Char} : splitPair line = none ↔ '=' ∉ line := by
  unfold splitPair
  split_ifs with hmem
  · simp [hmem]
  · simp [hmem]

theorem rdropWhile_append_cons {c : Char} (hc : isspace c = false) (front rest : List Char) :
    (front ++ c :: rest).rdropWhile isspace = front ++ c :: rest.rdropWhile isspace := by
  unfold List.rdropWhile
  rw [List.reverse_append, List.reverse_cons, List.append_assoc, List.singleton_append,
    dropWhile_append_cons hc]
  simp

theorem PlainValue.not_isEol {value : List Char} (hvalue : PlainValue value) {c : Char}
    (hc : c ∈ value) : isEol c = false := by
  by_contra heol
  have hspace := isspace_of_isEol (by simpa using heol)
  rw [(hvalue.plain c hc).1] at hspace
  cases hspace

theorem PlainValue.nul_not_mem {value : List Char} (hvalue : PlainValue value) : nul ∉ value :=
  fun hmem => (hvalue.plain nul hmem).2 rfl

theorem rdropWhile_of_plain {value : List Char} (hvalue : PlainValue value) :
    value.rdropWhile isspace = value := by
  rw [List.rdropWhile_eq_self_iff]
  intro hne
  simp [(hvalue.plain _ (List.getLast_mem hne)).1]

/-- Blanks at the two ends of a line belong to no field. -/
theorem pairOf_append_cons {c : Char} (hc : isspace c = false) (front rest : List Char) :
    pairOf (front ++ c :: rest) =
      splitPair (skipSpace front ++ c :: rest.rdropWhile isspace) := by
  rw [pairOf, skipSpace, dropWhile_append_cons hc, ← skipSpace, rdropWhile_append_cons hc]

/-- A line carries a field if and only if it contains an equals sign. -/
theorem pairOf_eq_none_iff {line : List Char} : pairOf line = none ↔ '=' ∉ line := by
  constructor
  · intro hnone hmem
    rcases List.append_of_mem hmem with ⟨front, rest, rfl⟩
    rw [pairOf_append_cons (by decide), splitPair_eq_none_iff] at hnone
    exact hnone (by simp)
  · intro hmem
    rw [pairOf, splitPair_eq_none_iff]
    intro hin
    have hskip : '=' ∈ skipSpace line := (List.rdropWhile_prefix isspace _).subset hin
    exact hmem ((List.dropWhile_sublist _).subset hskip)

/-- The key of a field consists of characters of its line, begins with no blank and has no
equals sign. -/
theorem key_of_pairOf {line : List Char} {pair : Pair} (hpair : pairOf line = some pair) :
    pair.1 ⊆ line ∧ skipSpace pair.1 = pair.1 ∧ '=' ∉ pair.1 := by
  rw [pairOf, splitPair] at hpair
  split_ifs at hpair
  obtain rfl := Option.some.inj hpair
  have hstarts : ((skipSpace line).rdropWhile isspace).takeWhile (· ≠ '=') <+:
      skipSpace line :=
    (List.takeWhile_prefix _).trans (List.rdropWhile_prefix isspace _)
  refine ⟨fun c hc => (List.dropWhile_sublist _).subset (hstarts.subset hc), ?_, ?_⟩
  · dsimp only
    rcases hstarts with ⟨tail, htail⟩
    generalize ((skipSpace line).rdropWhile isspace).takeWhile (· ≠ '=') = key at htail ⊢
    cases key with
    | nil => rfl
    | cons c key =>
        have hc : isspace c = false := by
          have hhead := List.head?_dropWhile_not isspace line
          rw [← skipSpace, ← htail] at hhead
          simpa using hhead
        exact skipSpace_cons_of_not_isspace hc key
  · intro hmem
    simpa using List.mem_takeWhile_imp hmem

/-- A field with another value. -/
theorem pairOf_revalue {line value : List Char} {pair : Pair} (hpair : pairOf line = some pair)
    (hvalue : PlainValue value) :
    pairOf (pair.1 ++ '=' :: value) = some (pair.1, value) := by
  rcases key_of_pairOf hpair with ⟨-, hskip, hkey⟩
  rw [pairOf_append_cons (by decide), hskip, rdropWhile_of_plain hvalue,
    splitPair_append_cons hkey]

/-! ## The two parts of a packet -/

section Parts

variable {front rest : List Char}

theorem exists_lastLine (text : List Char) :
    ∃ lines last, text.splitOnP isEol = lines ++ [last] := by
  rcases List.eq_nil_or_concat (text.splitOnP isEol) with hnil | ⟨lines, last, hlines⟩
  · exact absurd hnil (List.splitOnP_ne_nil _ _)
  · exact ⟨lines, last, by rw [hlines, List.concat_eq_append]⟩

theorem exists_firstLine (text : List Char) :
    ∃ first lines, text.splitOnP isEol = first :: lines := by
  cases hlines : text.splitOnP isEol with
  | nil => exact absurd hlines (List.splitOnP_ne_nil _ _)
  | cons first lines => exact ⟨first, lines, rfl⟩

theorem fieldsOf_singleton {lines : List (List Char)} {last : List Char}
    (hfront : front.splitOnP isEol = lines ++ [last]) :
    fieldsOf front = lines.filterMap pairOf ++ (pairOf last).toList := by
  rw [fieldsOf, hfront, List.filterMap_append]
  cases hlast : pairOf last <;> simp [hlast]

/-- The line at which the prefix ends goes on behind it. -/
theorem fieldsOf_append {lines after : List (List Char)} {last first : List Char}
    (hfront : front.splitOnP isEol = lines ++ [last])
    (hrest : rest.splitOnP isEol = first :: after) :
    fieldsOf (front ++ rest) =
      lines.filterMap pairOf ++ (pairOf (last ++ first)).toList ++ after.filterMap pairOf := by
  rw [fieldsOf, splitOnP_append hfront hrest, List.filterMap_append]
  cases hline : pairOf (last ++ first) <;> simp [hline]

theorem splitOnP_mdMark_append {after : List (List Char)} {first : List Char}
    (hrest : rest.splitOnP isEol = first :: after) :
    (mdMark ++ rest).splitOnP isEol = (mdMark ++ first) :: after :=
  @splitOnP_append _ _ _ _ [] _ _ _ (by decide) hrest

/-- The field on the line at which the prefix ends. -/
theorem pairOf_mdMark (last first : List Char) :
    pairOf (last ++ (mdMark ++ first)) =
      splitPair (skipSpace last ++ (mdMark ++ first.rdropWhile isspace)) := by
  have hmark : mdMark ++ first = 'M' :: 'D' :: '=' :: first := rfl
  have htrim : ('D' :: '=' :: first).rdropWhile isspace =
      'D' :: '=' :: first.rdropWhile isspace :=
    rdropWhile_append_cons (by decide) ['D'] first
  rw [hmark, pairOf_append_cons (by decide), htrim]
  rfl

/-- Only the value of the last field of the prefix goes on outside, or no field does. -/
theorem fieldsOf_mdMark_cases (front rest : List Char) :
    (∃ before key value tail after,
      fieldsOf (front ++ (mdMark ++ rest)) = before ++ (key, value ++ 'M' :: tail) :: after ∧
      fieldsOf (front ++ ['M']) = before ++ [(key, value ++ ['M'])] ∧
      (fieldsOf front).length = before.length + 1) ∨
    ∃ after, fieldsOf (front ++ (mdMark ++ rest)) = fieldsOf (front ++ ['M']) ++ after ∧
      (fieldsOf front).length = (fieldsOf (front ++ ['M'])).length := by
  rcases exists_lastLine front with ⟨lines, last, hfront⟩
  rcases exists_firstLine rest with ⟨first, after, hrest⟩
  have hbuf := fieldsOf_append hfront (splitOnP_mdMark_append hrest)
  have hsingle : fieldsOf (front ++ ['M']) =
      lines.filterMap pairOf ++ (pairOf (last ++ ['M'])).toList := by
    have happend := @fieldsOf_append _ ['M'] _ [] _ _ hfront rfl
    rwa [List.filterMap_nil, List.append_nil] at happend
  have hstop : pairOf (last ++ ['M']) = splitPair (skipSpace last ++ ['M']) :=
    pairOf_append_cons (by decide) last []
  rw [pairOf_mdMark] at hbuf
  rw [hstop] at hsingle
  rw [fieldsOf_singleton hfront, hbuf, hsingle]
  cases hsplit : splitPair (skipSpace last) with
  | some pair =>
      rcases pair with ⟨key, value⟩
      left
      have hlast : ∃ pair, pairOf last = some pair := by
        rw [← Option.ne_none_iff_exists', Ne, pairOf_eq_none_iff, not_not]
        have hmem := mt splitPair_eq_none_iff.mpr (by rw [hsplit]; simp)
        exact (List.dropWhile_sublist _).subset (not_not.mp hmem)
      rcases hlast with ⟨pair, hlast⟩
      refine ⟨lines.filterMap pairOf, key, value, 'D' :: '=' :: first.rdropWhile isspace,
        after.filterMap pairOf, ?_, ?_, ?_⟩
      · rw [splitPair_append hsplit]
        simp [mdMark]
      · rw [splitPair_append hsplit]
        simp
      · simp [hlast]
  | none =>
      right
      have hmem := splitPair_eq_none_iff.mp hsplit
      have hlast : pairOf last = none := by
        rw [pairOf_eq_none_iff]
        intro hin
        refine hmem ?_
        rcases List.append_of_mem hin with ⟨head, tail, rfl⟩
        rw [skipSpace, dropWhile_append_cons (by decide)]
        simp
      have hM : splitPair (skipSpace last ++ ['M']) = none := by
        rw [splitPair_eq_none_iff]
        simp [hmem]
      rw [hM, hlast]
      refine ⟨(splitPair (skipSpace last ++ (mdMark ++ first.rdropWhile isspace))).toList ++
        after.filterMap pairOf, ?_, ?_⟩
      · simp
      · simp

/-! ## Replacing a value outside the prefix -/

/-- A field on a later line can be given another value. -/
theorem exists_revalue_line {before after : List (List Char)} {earlier later : List Pair}
    {field : Pair} {value : List Char} (hvalue : PlainValue value)
    (hrest : rest.splitOnP isEol = before ++ after)
    (hfields : after.filterMap pairOf = earlier ++ field :: later) :
    ∃ (other : List Char) (after' : List (List Char)), other.splitOnP isEol = before ++ after' ∧
      after'.filterMap pairOf = earlier ++ (field.1, value) :: later ∧
      (nul ∉ rest → nul ∉ other) := by
  rcases List.filterMap_eq_append_iff.mp hfields with ⟨first, second, rfl, rfl, hsecond⟩
  rcases List.filterMap_eq_cons_iff.mp hsecond with ⟨blank, line, third, rfl, hblank, hline, rfl⟩
  have hsplit : rest.splitOnP isEol = (before ++ (first ++ blank)) ++ line :: third := by
    simpa using hrest
  rcases key_of_pairOf hline with ⟨hsubset, -, -⟩
  rcases exists_replaceLine hsplit with ⟨front, back, rfl, hreplace⟩
  have hfree : ∀ c ∈ field.1 ++ '=' :: value, isEol c = false := by
    intro c hc
    rcases List.mem_append.mp hc with hkey | hrest
    · have hmem : line ∈ (front ++ line ++ back).splitOnP isEol := by
        rw [hsplit]
        simp
      exact not_of_mem_splitOnP hmem c (hsubset hkey)
    · rcases List.mem_cons.mp hrest with rfl | hc
      · decide
      · exact hvalue.not_isEol hc
  refine ⟨front ++ (field.1 ++ '=' :: value) ++ back,
    first ++ blank ++ (field.1 ++ '=' :: value) :: third, ?_, ?_, ?_⟩
  · rw [hreplace _ hfree]
    simp
  · have hnone : blank.filterMap pairOf = [] := List.filterMap_eq_nil_iff.mpr hblank
    simp [hnone, pairOf_revalue hline hvalue]
  · intro hnul hin
    have hkey : nul ∉ field.1 := fun hmem => hnul (by simp [hsubset hmem])
    simp only [List.mem_append, List.mem_cons, not_or] at hnul hin
    rcases hin with (hfront | hkeyed | hmark | hvalued) | hback
    · exact hnul.1.1 hfront
    · exact hkey hkeyed
    · exact absurd hmark (by decide)
    · exact hvalue.nul_not_mem hvalued
    · exact hnul.2 hback

/-- So can the one whose key ends with the mark. -/
theorem exists_revalue_mark {last first value : List Char} {after : List (List Char)}
    (hvalue : PlainValue value) (hrest : rest.splitOnP isEol = first :: after)
    (hnone : pairOf last = none) {field : Pair}
    (hfield : pairOf (last ++ (mdMark ++ first)) = some field) :
    ∃ other : List Char, other.splitOnP isEol = value :: after ∧
      pairOf (last ++ (mdMark ++ value)) = some (field.1, value) ∧
      (nul ∉ rest → nul ∉ other) := by
  have hkey : '=' ∉ skipSpace last := fun hin =>
    pairOf_eq_none_iff.mp hnone ((List.dropWhile_sublist _).subset hin)
  have hread (tail : List Char) : pairOf (last ++ (mdMark ++ tail)) =
      some (skipSpace last ++ mdKey, tail.rdropWhile isspace) := by
    rw [pairOf_mdMark, ← @splitPair_append_cons (skipSpace last ++ mdKey)]
    · simp [mdMark, mdKey]
    · simp [hkey, mdKey]
  rw [hread] at hfield
  obtain rfl := Option.some.inj hfield
  rcases @exists_replaceLine _ _ _ [] _ _ hrest with ⟨head, back, rfl, hreplace⟩
  refine ⟨head ++ value ++ back, hreplace value fun _ => hvalue.not_isEol, ?_, ?_⟩
  · rw [hread, rdropWhile_of_plain hvalue]
  · intro hnul hin
    have hplain := hvalue.nul_not_mem
    simp only [List.mem_append, not_or] at hnul hin
    tauto

/-- The value of a field outside the prefix can be replaced, and nothing else in the table
changes. -/
theorem exists_revalue {earlier later : List Pair} {field : Pair} {value : List Char}
    (hvalue : PlainValue value)
    (hfields : fieldsOf (front ++ (mdMark ++ rest)) = earlier ++ field :: later)
    (houtside : (fieldsOf front).length ≤ earlier.length) :
    ∃ other, fieldsOf (front ++ (mdMark ++ other)) = earlier ++ (field.1, value) :: later ∧
      (nul ∉ rest → nul ∉ other) := by
  rcases exists_lastLine front with ⟨lines, last, hfront⟩
  rcases exists_firstLine rest with ⟨first, after, hrest⟩
  rw [fieldsOf_append hfront (splitOnP_mdMark_append hrest)] at hfields
  rw [fieldsOf_singleton hfront] at houtside
  have hsome : ∃ pair, pairOf (last ++ (mdMark ++ first)) = some pair := by
    rw [← Option.ne_none_iff_exists', Ne, pairOf_eq_none_iff, not_not]
    simp [mdMark]
  rcases hsome with ⟨straddling, hstraddling⟩
  by_cases hlater : lines.filterMap pairOf ++ (pairOf (last ++ (mdMark ++ first))).toList <+:
      earlier
  · -- the field stands on a line of its own behind the one at which the prefix ends
    rcases hlater with ⟨between, rfl⟩
    rw [List.append_assoc _ between] at hfields
    rcases @exists_revalue_line _ [first] _ _ _ _ _ hvalue hrest
      (List.append_cancel_left hfields) with ⟨other, after', hother, hafter', hnul⟩
    refine ⟨other, ?_, hnul⟩
    rw [List.singleton_append] at hother
    rw [fieldsOf_append hfront (splitOnP_mdMark_append hother), hafter']
    simp
  · -- it is the one whose key ends with the mark
    rw [hstraddling] at hfields hlater
    have hlength : earlier.length ≤ (lines.filterMap pairOf).length := by
      by_contra hlt
      refine hlater (List.prefix_of_prefix_length_le
        (List.prefix_append _ (after.filterMap pairOf)) (hfields ▸ List.prefix_append _ _) ?_)
      simp at hlt ⊢
      omega
    have hnone : pairOf last = none := by
      by_contra hne
      rcases Option.ne_none_iff_exists'.mp hne with ⟨pair, hpair⟩
      simp [hpair] at houtside
      omega
    have hlength' : (lines.filterMap pairOf).length = earlier.length := by
      simp [hnone] at houtside
      omega
    rw [List.append_assoc] at hfields
    rcases List.append_inj hfields hlength' with ⟨rfl, hcons⟩
    rcases List.cons.inj hcons with ⟨rfl, rfl⟩
    rcases exists_revalue_mark hvalue hrest hnone hstraddling with
      ⟨other, hother, hread, hnul⟩
    refine ⟨other, ?_, hnul⟩
    rw [fieldsOf_append hfront (splitOnP_mdMark_append hother), hread]
    simp

/-- The same for the fields that the table has room for. -/
theorem exists_pairs_revalue {before later : List Pair} {field : Pair} {value : List Char}
    (hvalue : PlainValue value)
    (htable : pairs (front ++ (mdMark ++ rest)) = before ++ field :: later)
    (houtside : (pairs front).length ≤ before.length) :
    ∃ other, pairs (front ++ (mdMark ++ other)) = before ++ (field.1, value) :: later ∧
      (nul ∉ rest → nul ∉ other) := by
  have hlength := congrArg List.length htable
  rw [pairs_eq, List.length_take] at hlength
  simp only [List.length_append, List.length_cons] at hlength
  have hroom : before.length < maxPairs := by omega
  have hfields : ∃ further,
      fieldsOf (front ++ (mdMark ++ rest)) = before ++ field :: (later ++ further) := by
    refine ⟨(fieldsOf (front ++ (mdMark ++ rest))).drop maxPairs, ?_⟩
    have hsplit := List.take_append_drop maxPairs (fieldsOf (front ++ (mdMark ++ rest)))
    rw [← pairs_eq, htable, List.append_assoc, List.cons_append] at hsplit
    exact hsplit.symm
  rcases hfields with ⟨further, hfields⟩
  have hfront : (fieldsOf front).length ≤ before.length := by
    rw [pairs_eq front, List.length_take] at houtside
    omega
  rcases exists_revalue hvalue hfields hfront with ⟨other, hother, hnul⟩
  refine ⟨other, ?_, hnul⟩
  have htake : (before ++ field :: (later ++ further)).take maxPairs =
      before ++ field :: later := by rw [← hfields, ← pairs_eq, ← htable]
  obtain ⟨room, hspare⟩ := Nat.exists_eq_add_of_lt hroom
  have hspare : maxPairs - before.length = room + 1 := by omega
  rw [pairs_eq, hother]
  rw [List.take_append, List.take_of_length_le hroom.le, hspare, List.take_succ_cons] at htake ⊢
  rw [(List.cons.inj (List.append_cancel_left htake)).2]

end Parts

/-! ## Processing a table -/

section Tables

variable {runtimeInSeconds : Bool} {table : List Pair} {ups other : PcnetUps}

/-- The record after some fields. -/
def afterFields (runtimeInSeconds : Bool) (table : List Pair) (ups : PcnetUps) : PcnetUps :=
  table.foldl (fun ups field => (pcnetProcessData runtimeInSeconds field.1 field.2 ups).2) ups

theorem processTable_eq (table : List Pair) (ups : PcnetUps) :
    (processTable runtimeInSeconds table ups).2 = afterFields runtimeInSeconds table ups := by
  unfold processTable afterFields
  generalize false = done
  induction table generalizing done ups with
  | nil => rfl
  | cons field table ih => exact ih _ _

@[simp]
theorem afterFields_append (first second : List Pair) (ups : PcnetUps) :
    afterFields runtimeInSeconds (first ++ second) ups =
      afterFields runtimeInSeconds second (afterFields runtimeInSeconds first ups) :=
  List.foldl_append

theorem afterFields_cons (field : Pair) (table : List Pair) (ups : PcnetUps) :
    afterFields runtimeInSeconds (field :: table) ups =
      afterFields runtimeInSeconds table
        (pcnetProcessData runtimeInSeconds field.1 field.2 ups).2 :=
  rfl

/-- Fields that are not counted change no number. -/
theorem afterFields_of_not_counted (htable : ∀ field ∈ table, countedField field = false) :
    (afterFields runtimeInSeconds table ups).numbers = ups.numbers := by
  induction table generalizing ups with
  | nil => rfl
  | cons field table ih =>
      rw [afterFields_cons, ih fun field hfield => htable field (List.mem_cons_of_mem _ hfield)]
      exact numbers_pcnetProcessData_of_not_counted (htable field List.mem_cons_self) ups

/-- A lookup reads the value of no other key. -/
theorem lookupKey_revalue {key : List Char} {field : Pair} (hkey : field.1 ≠ key)
    (value : List Char) (earlier later : List Pair) :
    lookupKey key (earlier ++ (field.1, value) :: later) =
      lookupKey key (earlier ++ field :: later) := by
  unfold lookupKey
  rw [List.find?_append, List.find?_append, List.find?_cons_of_neg (by simpa using hkey),
    List.find?_cons_of_neg (by simpa using hkey)]

/-- The keys that decide about a packet are not counted. -/
theorem ne_of_countedKey {key : List Char} (hkey : countedKey key = true) :
    key ≠ mdKey ∧ key ≠ pcKey ∧ key ≠ srKey ∧ key ≠ suKey := by
  refine ⟨?_, ?_, ?_, ?_⟩
  all_goals
    rintro rfl
    exact absurd hkey (by decide)

end Tables

/-! ## Packets with one prefix -/

section Packets

variable {md5 : List Char → List Char} {drv : PcnetDriver} {runtimeInSeconds : Bool}
variable {front md rest : List Char}

/-- The search for the mark depends on nothing behind it. -/
theorem strstr_mdMark {other : List Char}
    (hfound : strstr mdMark (front ++ (mdMark ++ rest)) = some (mdMark ++ rest)) :
    strstr mdMark (front ++ (mdMark ++ other)) = some (mdMark ++ other) := by
  rcases strstr_eq_some_iff.mp hfound with ⟨before, hsplit, -, hfirst⟩
  obtain rfl := List.append_cancel_right hsplit
  refine strstr_eq_some_iff.mpr ⟨front, rfl, List.prefix_append _ _, fun i hi hstarts => ?_⟩
  refine hfirst i hi ?_
  rw [List.drop_append_of_le_length hi.le, ← List.append_assoc] at hstarts ⊢
  have hwithin : mdMark <+: front.drop i ++ mdMark :=
    List.prefix_of_prefix_length_le hstarts (List.prefix_append _ _) (by simp)
  exact hwithin.trans (List.prefix_append _ _)

/-- The checks read the prefix and four values of the table. -/
theorem Admits.of_lookups {other : List Char} {counters : ℕ × ℕ}
    (hadmits : Admits md5 drv (front ++ (mdMark ++ rest)) counters)
    (hfound : strstr mdMark (front ++ (mdMark ++ rest)) = some (mdMark ++ rest))
    (hlookup : ∀ key ∈ [mdKey, pcKey, srKey, suKey],
      lookupKey key (pairs (front ++ (mdMark ++ other))) =
        lookupKey key (pairs (front ++ (mdMark ++ rest)))) :
    Admits md5 drv (front ++ (mdMark ++ other)) counters := by
  have htake (tail : List Char) :
      (front ++ tail).take ((front ++ tail).length - tail.length) = front := by simp
  constructor
  · rcases hadmits.digest with ⟨ptr, hptr, hne, hdigest⟩
    rw [hfound] at hptr
    obtain rfl := Option.some.inj hptr
    refine ⟨_, strstr_mdMark hfound, ?_, fun hauth => ?_⟩
    · simpa using hne
    · rw [htake, hlookup _ (by simp), hdigest hauth, htake]
  · intro hauth
    rw [hlookup _ (by simp), hadmits.address hauth]
  · have hread := hadmits.read
    unfold countersOf at hread ⊢
    rwa [hlookup srKey (by simp), hlookup suKey (by simp)]
  · exact hadmits.advances

/-- Without a counted field outside, the numbers come from the prefix. -/
theorem numbers_eq_of_sealed (ups : PcnetUps)
    (hsealed : ∀ field ∈ outside front (front ++ (mdMark ++ rest)), countedField field = false) :
    (afterFields runtimeInSeconds (pairs (front ++ (mdMark ++ rest))) ups).numbers =
      (afterFields runtimeInSeconds (pairs (front ++ ['M'])) ups).numbers := by
  unfold outside at hsealed
  simp only [pairs_eq] at hsealed ⊢
  rcases fieldsOf_mdMark_cases front rest with
    ⟨before, key, value, tail, after, hbuf, hstarts, hlength⟩ | ⟨after, hbuf, hlength⟩
  · rw [hbuf] at hsealed ⊢
    rw [hstarts]
    rcases Nat.lt_or_ge before.length maxPairs with hroom | hfull
    · obtain ⟨room, hroom⟩ := Nat.exists_eq_add_of_lt hroom
      rw [List.length_take, hlength, Nat.min_eq_right (by omega)] at hsealed
      have htake (last : Pair) (later : List Pair) :
          (before ++ last :: later).take maxPairs = before ++ last :: later.take room := by
        rw [List.take_append, List.take_of_length_le (by omega), hroom]
        simp [Nat.add_assoc]
      rw [htake] at hsealed ⊢
      rw [htake, List.take_nil, afterFields_append, afterFields_append, afterFields_cons,
        afterFields_cons, afterFields_of_not_counted]
      · exact numbers_pcnetProcessData_append_cons _ _ _
      · intro field hfield
        refine hsealed field ?_
        rw [List.drop_append, List.mem_append]
        right
        simpa using hfield
    · rw [List.take_append_of_le_length hfull, List.take_append_of_le_length hfull]
  · rw [hbuf] at hsealed ⊢
    rw [List.take_append, afterFields_append, afterFields_of_not_counted]
    intro field hfield
    refine hsealed field ?_
    rw [List.take_append, List.length_take, hlength, ← List.length_take]
    simpa using hfield

/-- The last element with a property. -/
theorem exists_last_of_mem {α : Type*} {p : α → Bool} {l : List α} (hl : ∃ a ∈ l, p a = true) :
    ∃ (before : List α) (a : α) (after : List α), l = before ++ a :: after ∧ p a = true ∧
      ∀ b ∈ after, p b = false := by
  induction l with
  | nil => simp at hl
  | cons head tail ih =>
      by_cases htail : ∃ a ∈ tail, p a = true
      · rcases ih htail with ⟨before, a, after, rfl, ha, hafter⟩
        exact ⟨head :: before, a, after, rfl, ha, hafter⟩
      · have hnone : ∀ b ∈ tail, p b = false := fun b hb => by
          simpa using fun hpb => htail ⟨b, hb, hpb⟩
        rcases hl with ⟨a, ha, hpa⟩
        rcases List.mem_cons.mp ha with rfl | hmem
        · exact ⟨[], a, tail, rfl, hpa, hnone⟩
        · exact absurd ⟨a, hmem, hpa⟩ htail

/-- The value of a counted field outside the prefix can be replaced at will: the packet is
still accepted, and nothing counted comes after that field. -/
theorem exists_accepted_revalue {field : Pair} {earlier later : List Pair} {value : List Char}
    {counters : ℕ × ℕ} (hvalue : PlainValue value)
    (hcarries : Carries front md (front ++ (mdMark ++ rest)))
    (hadmits : Admits md5 drv (front ++ (mdMark ++ rest)) counters)
    (hfound : strstr mdMark (front ++ (mdMark ++ rest)) = some (mdMark ++ rest))
    (hfield : countedField field = true)
    (houtside : outside front (front ++ (mdMark ++ rest)) = earlier ++ field :: later) :
    ∃ other, Carries front md other ∧ Admits md5 drv other counters ∧
      pairs other =
        (pairs (front ++ (mdMark ++ rest))).take (pairs front).length ++
          (earlier ++ (field.1, value) :: later) := by
  have hkey : countedKey field.1 = true := ((Bool.and_eq_true _ _).mp hfield).2
  have htable : pairs (front ++ (mdMark ++ rest)) =
      ((pairs (front ++ (mdMark ++ rest))).take (pairs front).length ++ earlier) ++
        field :: later := by
    rw [List.append_assoc, ← houtside, outside, List.take_append_drop]
  generalize hinside : (pairs (front ++ (mdMark ++ rest))).take (pairs front).length = inside
    at htable ⊢
  have hfront : (pairs front).length ≤ (inside ++ earlier).length := by
    have hin : inside.length = (pairs front).length := by
      rw [← hinside, List.length_take]
      refine Nat.min_eq_left ?_
      by_contra hlt
      rw [outside, List.drop_of_length_le (by omega)] at houtside
      exact absurd houtside.symm (by simp)
    rw [List.length_append]
    omega
  rcases exists_pairs_revalue hvalue htable hfront with ⟨other, hpairs, hnul⟩
  have hlookup : ∀ key ∈ [mdKey, pcKey, srKey, suKey],
      lookupKey key (pairs (front ++ (mdMark ++ other))) =
        lookupKey key (pairs (front ++ (mdMark ++ rest))) := by
    intro key hmem
    have hne : field.1 ≠ key := by
      rintro rfl
      rcases ne_of_countedKey hkey with ⟨hmd, hpc, hsr, hsu⟩
      simp [hmd, hpc, hsr, hsu] at hmem
    rw [hpairs, htable, lookupKey_revalue hne]
  refine ⟨front ++ (mdMark ++ other), ⟨?_, ?_, ?_⟩, hadmits.of_lookups hfound hlookup, ?_⟩
  · have hterminated := hcarries.terminated
    simp only [List.mem_append, not_or] at hterminated ⊢
    exact ⟨hterminated.1, hterminated.2.1, hnul hterminated.2.2⟩
  · exact ⟨_, rfl, strstr_mdMark hfound⟩
  · rw [hlookup _ (by simp), hcarries.value]
  · rw [hpairs, List.append_assoc]

/-- The first {lit}`MD=` stands right behind the prefix. -/
theorem Carries.exists_mark {front md buf : List Char} (hcarries : Carries front md buf) :
    ∃ rest, buf = front ++ (mdMark ++ rest) ∧ strstr mdMark buf = some (mdMark ++ rest) := by
  rcases hcarries.found with ⟨_, rfl, hfound⟩
  rcases strstr_eq_some_iff.mp hfound with ⟨_, -, ⟨rest, rfl⟩, -⟩
  exact ⟨rest, rfl, hfound⟩

/-- An accepted packet without a counted field outside the prefix leaves the numbers of the
prefix. -/
theorem numbers_of_sealed {md5 : List Char → List Char} {drv : PcnetDriver}
    {front md buf : List Char} {table : List Pair} (hcarries : Carries front md buf)
    (haccepted : (authAndMapPacket md5 drv buf).1 = some table)
    (hsealed : ∀ field ∈ outside front buf, countedField field = false) (ups : PcnetUps) :
    (processTable drv.runtimeInSeconds table ups).2.numbers =
      (afterFields drv.runtimeInSeconds (pairs (front ++ ['M'])) ups).numbers := by
  rcases authAndMapPacket_eq_some_iff.mp haccepted with ⟨rfl, -⟩
  rcases hcarries.exists_mark with ⟨rest, rfl, -⟩
  rw [processTable_eq]
  exact numbers_eq_of_sealed ups hsealed

/-- What the digest covers: all accepted packets with one prefix and one digest field leave
the same numbers if and only if none of them has a counted field outside the prefix, and any two
that have none there do. -/
theorem pcnet_digest_covers_iff (md5 : List Char → List Char) (drv : PcnetDriver)
    (ups : PcnetUps) (front md : List Char) :
    ((∀ first second firstTable secondTable,
      Carries front md first → Carries front md second →
      (authAndMapPacket md5 drv first).1 = some firstTable →
      (authAndMapPacket md5 drv second).1 = some secondTable →
        (processTable drv.runtimeInSeconds firstTable ups).2.numbers =
          (processTable drv.runtimeInSeconds secondTable ups).2.numbers) ↔
    ∀ buf table, Carries front md buf → (authAndMapPacket md5 drv buf).1 = some table →
      ∀ field ∈ outside front buf, countedField field = false) ∧
    ∀ first second firstTable secondTable,
      Carries front md first → Carries front md second →
      (authAndMapPacket md5 drv first).1 = some firstTable →
      (authAndMapPacket md5 drv second).1 = some secondTable →
      (∀ field ∈ outside front first, countedField field = false) →
      (∀ field ∈ outside front second, countedField field = false) →
        (processTable drv.runtimeInSeconds firstTable ups).2.numbers =
          (processTable drv.runtimeInSeconds secondTable ups).2.numbers := by
  refine ⟨⟨?_, ?_⟩, ?_⟩
  · intro hsame buf table hcarries haccepted
    by_contra hcounted
    have hsome : ∃ field ∈ outside front buf, countedField field = true := by simpa using hcounted
    rcases exists_last_of_mem hsome with ⟨earlier, field, later, houtside, hfield, hlater⟩
    rcases authAndMapPacket_eq_some_iff.mp haccepted with ⟨-, counters, hadmits⟩
    rcases hcarries.exists_mark with ⟨rest, rfl, hfound⟩
    have hkey : countedKey field.1 = true := ((Bool.and_eq_true _ _).mp hfield).2
    rcases @exists_separating drv.runtimeInSeconds _ hkey with
      ⟨low, high, hlow, hhigh, hseparate⟩
    rcases exists_accepted_revalue hlow hcarries hadmits hfound hfield houtside with
      ⟨first, hfirst, hfirstAdmits, hfirstTable⟩
    rcases exists_accepted_revalue hhigh hcarries hadmits hfound hfield houtside with
      ⟨second, hsecond, hsecondAdmits, hsecondTable⟩
    have heq := hsame first second _ _ hfirst hsecond
      (authAndMapPacket_eq_some_iff.mpr ⟨rfl, counters, hfirstAdmits⟩)
      (authAndMapPacket_eq_some_iff.mpr ⟨rfl, counters, hsecondAdmits⟩)
    rw [processTable_eq, processTable_eq, hfirstTable, hsecondTable] at heq
    simp only [afterFields_append, afterFields_cons, afterFields_of_not_counted hlater] at heq
    exact hseparate _ _ heq
  · intro hsealed first second firstTable secondTable hfirst hsecond hfirstTable hsecondTable
    rw [numbers_of_sealed hfirst hfirstTable (hsealed _ _ hfirst hfirstTable),
      numbers_of_sealed hsecond hsecondTable (hsealed _ _ hsecond hsecondTable)]
  · intro first second firstTable secondTable hfirst hsecond hfirstTable hsecondTable hone hother
    rw [numbers_of_sealed hfirst hfirstTable hone, numbers_of_sealed hsecond hsecondTable hother]

end Packets

/-! ## Examples of runs -/

/-- A driver with authentication that has not heard its card yet. -/
def freshDriver : PcnetDriver where
  ipaddr := ['1']
  user := ['u']
  pass := ['p']
  auth := true
  uptime := 0
  reboots := 0
  runtimeInSeconds := false

/-- A packet up to its digest field. -/
def signedPart : List Char :=
  "PC=1\nSR=1\nSU=1\n51=08\n".toList

def signedPacket : List Char := signedPart ++ "MD=0\n".toList

/-- The same packet with a line behind the digest field. -/
def forgedPacket : List Char := signedPart ++ "MD=0\nSD=1\n".toList

/-- The record of a driver that has just been started. -/
def freshPcnetUps : PcnetUps where
  toUpsInfo := newUps (defaultConfig 0)
  toReportFields := ReportFields.zero
  linequal := []
  eprom := []

/-- A shutdown command behind the digest field is obeyed. -/
theorem forgedPacket_shuts_down :
    ¬ ∀ (md5 : List Char → List Char) (drv : PcnetDriver) (ups : PcnetUps)
        (front md first second : List Char) (firstTable secondTable : List Pair),
      drv.auth = true → Carries front md first → Carries front md second →
      (authAndMapPacket md5 drv first).1 = some firstTable →
      (authAndMapPacket md5 drv second).1 = some secondTable →
        (processTable drv.runtimeInSeconds firstTable ups).2.numbers =
          (processTable drv.runtimeInSeconds secondTable ups).2.numbers := by
  intro hcovered
  have hrun :
      strstr mdMark signedPacket = some "MD=0\n".toList ∧
      strstr mdMark forgedPacket = some "MD=0\nSD=1\n".toList ∧
      lookupKey mdKey (pairs signedPacket) = some ['0'] ∧
      lookupKey mdKey (pairs forgedPacket) = some ['0'] ∧
      nul ∉ signedPacket ∧ nul ∉ forgedPacket ∧
      (authAndMapPacket (fun _ => ['0']) freshDriver signedPacket).1 =
        some (pairs signedPacket) ∧
      (authAndMapPacket (fun _ => ['0']) freshDriver forgedPacket).1 =
        some (pairs forgedPacket) ∧
      (processTable false (pairs signedPacket) freshPcnetUps).2.test upsShutRemote = false ∧
      (processTable false (pairs forgedPacket) freshPcnetUps).2.test upsShutRemote = true := by
    decide +kernel
  rcases hrun with ⟨hsigned, hforged, hsignedMd, hforgedMd, hsignedNul, hforgedNul,
    hsignedTable, hforgedTable, hkept, hset⟩
  have heq := hcovered (fun _ => ['0']) freshDriver freshPcnetUps signedPart ['0'] signedPacket
    forgedPacket _ _ rfl ⟨hsignedNul, ⟨_, rfl, hsigned⟩, hsignedMd⟩
    ⟨hforgedNul, ⟨_, rfl, hforged⟩, hforgedMd⟩ hsignedTable hforgedTable
  have hflag := congrArg (fun p : PcnetUps => p.toUpsInfo.test upsShutRemote) heq
  exact absurd (hkept.symm.trans (hflag.trans hset)) (by decide)

end Apcupsd
