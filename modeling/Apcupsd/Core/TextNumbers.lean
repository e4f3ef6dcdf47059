import Apcupsd.Core.UpsInfo
import Apcupsd.Foundations.CStrings

/-!
# Numbers that are read from texts

{lit}`strtoul` and {lit}`atof`, which read as much of a text as belongs to a number.

Main results:

- Theorems {lit}`strtoul_append_cons` and {lit}`atof_append_cons`: what stands behind a
  character that belongs to no number is not read.
-/

namespace Apcupsd

open CStrings

/-! ## Digits -/

/-- {lit}`isxdigit`. -/
def isxdigit (c : Char) : Bool :=
  c.isDigit || ('a' ≤ c && c ≤ 'f') || ('A' ≤ c && c ≤ 'F')

def digitValue (c : Char) : ℕ :=
  if c.isDigit then c.toNat - '0'.toNat
  else if 'a' ≤ c ∧ c ≤ 'f' then c.toNat - 'a'.toNat + 10
  else c.toNat - 'A'.toNat + 10

/-- A digit of base ten or sixteen. -/
def isDigitOf (base : ℕ) (c : Char) : Bool :=
  if base = 16 then isxdigit c else c.isDigit

/-- The number that digits denote. -/
def ofDigits (base : ℕ) (digits : List Char) : ℕ :=
  digits.foldl (fun n c => base * n + digitValue c) 0

/-- An optional sign, and what follows it. -/
def splitSign : List Char → Bool × List Char
  | '-' :: rest => (true, rest)
  | '+' :: rest => (false, rest)
  | text => (false, text)

/-- A hexadecimal number may begin with {lit}`0x`, if a digit follows. -/
def dropHexPrefix : List Char → List Char
  | '0' :: x :: c :: rest =>
      if (x = 'x' ∨ x = 'X') ∧ isxdigit c then c :: rest else '0' :: x :: c :: rest
  | text => text

/-! ## The functions -/

/-- {lit}`ULONG_MAX`. -/
def ulongMax : ℕ := 2 ^ 64 - 1

/-- {lit}`strtoul(text, NULL, base)`, for the bases ten and sixteen. -/
def strtoul (base : ℕ) (text : List Char) : ℕ :=
  let (negative, body) := splitSign (skipSpace text)
  let digits := (if base = 16 then dropHexPrefix body else body).takeWhile (isDigitOf base)
  let n := ofDigits base digits
  if ulongMax < n then ulongMax else if negative then (2 ^ 64 - n) % 2 ^ 64 else n

example : strtoul 16 "0x1Fg".toList = 31 := by decide +kernel

/-- A number with a fraction: the value, whether there is a digit, and what follows. -/
def mantissa (base : ℕ) (text : List Char) : ℚ × Bool × List Char :=
  let whole := text.takeWhile (isDigitOf base)
  let rest := text.dropWhile (isDigitOf base)
  let tail := if rest.head? = some '.' then rest.drop 1 else []
  let fraction := tail.takeWhile (isDigitOf base)
  (ofDigits base (whole ++ fraction) / base ^ fraction.length,
    !(whole ++ fraction).isEmpty,
    if rest.head? = some '.' then tail.dropWhile (isDigitOf base) else rest)

/-- An exponent after one of the markers; without digits it is zero. -/
def exponent (markers : List Char) : List Char → Int
  | [] => 0
  | c :: text =>
      if c ∈ markers then
        let (negative, body) := splitSign text
        let n := ofDigits 10 (body.takeWhile Char.isDigit)
        if negative then -n else n
      else 0

/-- A number times a power. -/
def scale (q : ℚ) (base : ℕ) (power : Int) : ℚ :=
  if 0 ≤ power then q * base ^ power.toNat else q / base ^ (-power).toNat

/-- The number in a text without sign; special values are recognised in any case. -/
def unsignedDouble (body : List Char) : CDouble :=
  let hexBody := body.drop 2
  if "nan".toList <+: body.map Char.toLower then .nan
  else if "inf".toList <+: body.map Char.toLower then .posInf
  else if "0x".toList <+: body.map Char.toLower ∧ (mantissa 16 hexBody).2.1 then
    .finite (scale (mantissa 16 hexBody).1 2 (exponent ['p', 'P'] (mantissa 16 hexBody).2.2))
  else if (mantissa 10 body).2.1 then
    .finite (scale (mantissa 10 body).1 10 (exponent ['e', 'E'] (mantissa 10 body).2.2))
  else .finite 0

def negateDouble : CDouble → CDouble
  | .finite q => .finite (-q)
  | .posInf => .negInf
  | .negInf => .posInf
  | .nan => .nan

/-- The number that a text begins with. -/
def frontNumber (text : List Char) : CDouble :=
  let (negative, body) := splitSign (skipSpace text)
  if negative then negateDouble (unsignedDouble body) else unsignedDouble body

/-- {lit}`atof`: the double that is nearest to it. -/
def atof (text : List Char) : CDouble :=
  (frontNumber text).map id

example : atof " -12.5e1V".toList = .finite (-125) := by decide +kernel

/-! ## Where a number ends -/

/-- A character that belongs to no number. -/
structure EndsNumber (c : Char) : Prop where
  space : isspace c = false
  xdigit : isxdigit c = false
  sign : c ≠ '-' ∧ c ≠ '+'
  marker : c ≠ '.' ∧ c ∉ ['x', 'X'] ∧ c ∉ ['p', 'P'] ∧ c ∉ ['e', 'E']
  word : c.toLower ∉ "nan".toList ∧ c.toLower ∉ "inf".toList ∧ c.toLower ∉ "0x".toList

section Ends

variable {c : Char} {front : List Char} {α : Type*} {p : α → Bool}

theorem takeWhile_append_cons {a : α} {before : List α} (ha : p a = false) (rest : List α) :
    (before ++ a :: rest).takeWhile p = before.takeWhile p := by
  rw [List.takeWhile_append, List.takeWhile_cons_of_neg (by simp [ha]), List.append_nil]
  split_ifs with hlength
  · exact ((List.takeWhile_prefix p).eq_of_length hlength).symm
  · rfl

theorem dropWhile_append_cons {a : α} {before : List α} (ha : p a = false) (rest : List α) :
    (before ++ a :: rest).dropWhile p = before.dropWhile p ++ a :: rest := by
  rw [List.dropWhile_append, List.dropWhile_cons_of_neg (by simp [ha])]
  split_ifs with hempty
  · rw [List.isEmpty_iff.mp hempty, List.nil_append]
  · rfl

theorem EndsNumber.isDigitOf (hc : EndsNumber c) (base : ℕ) : isDigitOf base c = false := by
  unfold Apcupsd.isDigitOf
  split_ifs
  · exact hc.xdigit
  · have hxdigit := hc.xdigit
    unfold isxdigit at hxdigit
    simp only [Bool.or_eq_false_iff] at hxdigit
    exact hxdigit.1.1

theorem EndsNumber.splitSign (hc : EndsNumber c) (rest : List Char) :
    splitSign (front ++ c :: rest) =
      ((splitSign front).1, (splitSign front).2 ++ c :: rest) := by
  cases front with
  | nil =>
      unfold Apcupsd.splitSign
      split
      · next heq => exact absurd (List.cons.inj heq).1 hc.sign.1
      · next heq => exact absurd (List.cons.inj heq).1 hc.sign.2
      · rfl
  | cons d front =>
      rw [List.cons_append]
      by_cases hminus : d = '-'
      · subst hminus
        rfl
      · by_cases hplus : d = '+'
        · subst hplus
          rfl
        · simp [Apcupsd.splitSign, hminus, hplus]

theorem EndsNumber.dropHexPrefix (hc : EndsNumber c) (rest : List Char) :
    dropHexPrefix (front ++ c :: rest) = dropHexPrefix front ++ c :: rest := by
  have hzero : c ≠ '0' := by
    rintro rfl
    exact absurd hc.xdigit (by decide)
  have hx : ¬ (c = 'x' ∨ c = 'X') := by simpa using hc.marker.2.1
  rcases front with _ | ⟨d, _ | ⟨x, _ | ⟨e, front⟩⟩⟩
  · simp [Apcupsd.dropHexPrefix, hzero]
  · by_cases hd : d = '0'
    · subst hd
      cases rest with
      | nil => simp [Apcupsd.dropHexPrefix]
      | cons e rest => simp [Apcupsd.dropHexPrefix, hx]
    · simp [Apcupsd.dropHexPrefix, hd]
  · by_cases hd : d = '0'
    · subst hd
      simp [Apcupsd.dropHexPrefix, hc.xdigit]
    · simp [Apcupsd.dropHexPrefix, hd]
  · by_cases hd : d = '0'
    · subst hd
      simp only [Apcupsd.dropHexPrefix, List.cons_append]
      split_ifs <;> rfl
    · simp [Apcupsd.dropHexPrefix, hd]

/-- What stands behind a character that belongs to no number is not read. -/
theorem strtoul_append_cons (hc : EndsNumber c) (base : ℕ) (rest : List Char) :
    strtoul base (front ++ c :: rest) = strtoul base front := by
  have hdigits (body : List Char) :
      (if base = 16 then Apcupsd.dropHexPrefix (body ++ c :: rest)
        else body ++ c :: rest).takeWhile (Apcupsd.isDigitOf base) =
      (if base = 16 then Apcupsd.dropHexPrefix body else body).takeWhile
        (Apcupsd.isDigitOf base) := by
    split_ifs
    · rw [hc.dropHexPrefix, takeWhile_append_cons (hc.isDigitOf base)]
    · rw [takeWhile_append_cons (hc.isDigitOf base)]
  unfold strtoul
  rw [skipSpace, dropWhile_append_cons hc.space, ← skipSpace, hc.splitSign]
  dsimp only
  rw [hdigits]

theorem EndsNumber.mantissa (hc : EndsNumber c) (base : ℕ) (rest : List Char) :
    mantissa base (front ++ c :: rest) =
      ((mantissa base front).1, (mantissa base front).2.1,
        (mantissa base front).2.2 ++ c :: rest) := by
  unfold Apcupsd.mantissa
  simp only [takeWhile_append_cons (hc.isDigitOf base), dropWhile_append_cons (hc.isDigitOf base)]
  cases hrest : front.dropWhile (Apcupsd.isDigitOf base) with
  | nil => simp [hc.marker.1]
  | cons d after =>
      by_cases hpoint : d = '.'
      · simp [hpoint, takeWhile_append_cons (hc.isDigitOf base),
          dropWhile_append_cons (hc.isDigitOf base)]
      · simp [hpoint]

theorem EndsNumber.exponent (hc : EndsNumber c) {markers : List Char} (hmarkers : c ∉ markers)
    (rest : List Char) : exponent markers (front ++ c :: rest) = exponent markers front := by
  cases front with
  | nil => simp [Apcupsd.exponent, hmarkers]
  | cons d front =>
      have hdigit := hc.isDigitOf 10
      rw [Apcupsd.isDigitOf, if_neg (by decide)] at hdigit
      rw [List.cons_append, Apcupsd.exponent, Apcupsd.exponent, hc.splitSign]
      dsimp only
      rw [takeWhile_append_cons hdigit]

theorem isPrefix_map_append_cons {needle : List Char} (hc : c.toLower ∉ needle)
    (rest : List Char) :
    needle <+: (front ++ c :: rest).map Char.toLower ↔ needle <+: front.map Char.toLower := by
  rw [List.map_append, List.map_cons]
  constructor
  · exact isPrefix_of_isPrefix_append_cons hc
  · exact fun hstarts => hstarts.trans (List.prefix_append _ _)

theorem EndsNumber.unsignedDouble (hc : EndsNumber c) (rest : List Char) :
    unsignedDouble (front ++ c :: rest) = unsignedDouble front := by
  rcases hc.marker with ⟨-, -, hp, he⟩
  rcases hc.word with ⟨hnan, hinf, hhex⟩
  unfold Apcupsd.unsignedDouble
  simp only [isPrefix_map_append_cons hnan, isPrefix_map_append_cons hinf,
    isPrefix_map_append_cons hhex, hc.mantissa, hc.exponent he]
  by_cases hstarts : "0x".toList <+: front.map Char.toLower
  · have hlength : 2 ≤ front.length := by
      have hle := hstarts.length_le
      rw [List.length_map] at hle
      exact hle
    rw [List.drop_append_of_le_length hlength]
    simp only [hc.mantissa, hc.exponent hp]
  · simp only [hstarts, false_and, if_false]

theorem atof_append_cons (hc : EndsNumber c) (rest : List Char) :
    atof (front ++ c :: rest) = atof front := by
  unfold atof frontNumber
  rw [skipSpace, dropWhile_append_cons hc.space, ← skipSpace, hc.splitSign]
  dsimp only
  rw [hc.unsignedDouble]

end Ends

end Apcupsd
